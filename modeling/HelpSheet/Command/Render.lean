import HelpSheet.Command.Invocation

/-!
# Rendering

The command that shows a model, or one target of it, as a page on the standard output or in a file.
-/

set_option autoImplicit false
set_option relaxedAutoImplicit false

namespace HelpSheet.Command

/-- What a command works under: the choices before it, and the settings. -/
structure Context where
  colorMode : Option Terminal.ColorMode
  settings : Settings
  console : Terminal.Console

/-- The failure that a model file causes. -/
def modelFailure : Model.LoadError → Failure
  | .notPath fault => .notPath fault
  | .notText error => .breakdown (.notText error)
  | .excess excess => .breakdown (.excess excess)
  | error => .ofProblem (.invalidModel error.message)

/-- The model in a file that has to be there. -/
def loadModel (world : World) (path : Path) : Run Model :=
  lift modelFailure (Model.load world.tree world.directory path world.machine)

/-- Fails unless the path of the model leads somewhere. -/
def requireModel (world : World) (path : Path) : Run Unit :=
  match world.tree.look world.directory path.text with
  | .error error => .fail (.unseen error)
  | .ok none => .fail (.problem .missingFile ("model file not found: " ++ path.text))
  | .ok (some _) => pure ()

/-- The failure to write a file. -/
def writeFailure (path : Path) (error : Files.Error) : Failure :=
  .problem .output ("cannot write " ++ path.text ++ ": " ++ error.message)

/-- The bytes of a text file. -/
def encoded (text : String) : List UInt8 :=
  text.toUTF8.data.toList

/-- Opens the file under a path and writes what is delivered to it; gives the files after that. -/
def writeFile (world : World) (path : Path) (delivery : Page.Delivery) : Run Files.Tree :=
  match world.tree.writable world.directory path.text with
  | .error fault => .fail (writeFailure path ⟨fault, path.text⟩)
  | .ok place => do
    Log.Traced.addNotes
      (.create place :: delivery.written.map fun text ↦ .extend place (encoded text))
    addNotes delivery.notes
    finish delivery.ending
    pure (world.tree.put place (.file (delivery.written.flatMap encoded)))

/-- Whether to use color for a format. -/
def chooseColor (world : World) (context : Context) (format : Format) (isTerminal : Bool) :
    Run Bool := do
  addNotes (Terminal.colorNotes context.colorMode (some format.name) context.settings.color
    world.environment isTerminal)
  pure (Terminal.useColor context.colorMode (some format.name) context.settings.color
    world.environment isTerminal)

/-- The format of a page: the one asked for, else the one of the settings, else text. -/
def chooseFormat (settings : Settings) : Option String → Run Format
  | none => pure (settings.format.getD .text)
  | some name =>
    match Format.ofName? name with
    | some format => pure format
    | none => .fail (.ofProblem (.unknownFormat name Format.supportedNames))

/-- The view that is asked for: the help on the model, or one of its targets. -/
def chooseView (model : Model) : Option String → Run Page.View
  | none => pure (.help model)
  | some name =>
    match model.findTarget? name with
    | some target => pure (.ofTarget target)
    | none => .fail (.problem .usage ("unknown target: " ++ name))

/-- The note on what is rendered. -/
def renderNote (format : Format) (useColor : Bool) (output : Option Path) : Log.Note where
  level := .debug
  channel := .renderCommand
  line := 159
  message := "render: format=" ++ format.name ++ " color=" ++
    Settings.truthWords (some useColor) ++ " output=" ++ (output.map Path.text).getD "None"

/-- The note on a page that was written to a file. -/
def writtenNote (format : Format) (output : Path) : Log.Note where
  level := .info
  channel := .renderCommand
  line := 173
  message := "Wrote " ++ format.name ++ " output to " ++ output.text

/-- Delivers a page to the standard output or to a file. -/
def deliver (world : World) (renderer : Page.Renderer) (view : Page.View) :
    Option Path → Run Success
  | none => do
    print (renderer.deliver world.workingDirectory world.pages view)
    pure { tree := world.tree }
  | some path => do
    let tree ←
      writeFile world path (renderer.deliver world.workingDirectory world.fileSink view)
    addNotes [writtenNote renderer.format path]
    pure { tree }

/-- Chooses what to render and how. -/
def choosePage (world : World) (context : Context) (request : RenderRequest) :
    Run (Page.Renderer × Page.View) := do
  requireModel world request.model
  let format ← chooseFormat context.settings request.format
  let model ← loadModel world request.model
  let view ← chooseView model request.target
  let useColor ←
    chooseColor world context format (request.output.isNone && world.outputIsTerminal)
  let options := context.settings.pageOptions useColor request.base
  addNotes
    [renderNote format useColor request.output,
     Page.Renderer.creationNote format format.memberWords]
  pure ({ format, options }, view)

/-- Renders a page. -/
def render (world : World) (context : Context) (request : RenderRequest) : Run Success := do
  let page ← choosePage world context request
  deliver world page.1 page.2 request.output

end HelpSheet.Command
