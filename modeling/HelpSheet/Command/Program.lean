import HelpSheet.Command.Helpfile
import HelpSheet.Command.Manual

/-!
# The program

From a list of arguments to a report. The name of the command is known before settings are looked
for, and settings are read before the arguments of the command. Two commands tell about the program
itself: its formats and its version.
-/

set_option autoImplicit false
set_option relaxedAutoImplicit false

namespace HelpSheet.Command

/-! ### What the program tells about itself -/

/-- The version of the program. -/
def programVersion : String := "0.1.0"

/-- The short names of a format in the list of formats. -/
def shortNameText (format : Format) : String :=
  let names := format.shortNamesOf
  if names.isEmpty then "" else " (alias: " ++ Text.joinWith ", " names ++ ")"

/-- The style of names of formats. -/
def formatStyle : Sgr.Style where
  foreground := some (.plain .cyan)
  bold := some true

/-- The line on a format. -/
def formatLine (console : Terminal.Console) (format : Format) : String :=
  console.line
    ("  " ++ console.styled formatStyle format.name ++ shortNameText format ++ "  " ++
      format.contentType ++ "  " ++ format.extension)

/-- The lines of the list of formats. -/
def formatList (console : Terminal.Console) : List String :=
  console.line (console.heading "Supported output formats:") ::
    Format.all.map (formatLine console)

/-- Lists the formats. -/
def formats (console : Terminal.Console) : Run (List String) := do
  addNotes (Format.all.map fun format ↦
    Page.Renderer.creationNote format format.memberWords)
  pure (formatList console)

/-- The version, plain or as a JSON object on one line. -/
def versionText (console : Terminal.Console) (asJson : Bool) : String :=
  if asJson then console.line ("\x7b\"version\": \"" ++ programVersion ++ "\"\x7d")
  else console.line (console.styled { bold := some true } programVersion)

/-! ### Before a command -/

/-- Fails if the environment asks for a level in digits that are no number. -/
def checkLevel (world : World) : Run Unit :=
  match Log.levelOfEnvironment? world.environment with
  | .ok _ => pure ()
  | .error fault => .fail (.breakdown (.level fault))

/-- The failure that a settings file causes. -/
def settingsFailure : Settings.LoadError → Failure
  | .unseen error => .unseen error
  | .notPath fault => .notPath fault
  | .notText error => .breakdown (.notText error)
  | .conflict conflict => .breakdown (.conflict conflict)
  | .givenUp message => .givenUp message
  | error => .ofProblem (.invalidSettings error.message)

/-- The settings file that counts: the one asked for, else the nearest one. -/
def settingsFile (world : World) : Option Path → Run (Option Path)
  | some path => pure (some path)
  | none =>
    lift settingsFailure
      (.ofExcept (Settings.findFile world.tree world.directory (.ofString world.workingDirectory)
        world.machine))

/-- The note on the settings file that counts. -/
def settingsNote (path : Path) : Log.Note where
  level := .info
  channel := .program
  line := 83
  message := "Using configuration from " ++ path.text

/-- The settings that count. -/
def loadSettings (world : World) (asked : Option Path) : Run Settings := do
  match ← settingsFile world asked with
  | none => pure {}
  | some path =>
    let settings ←
      lift settingsFailure (Settings.load world.tree world.directory path world.machine)
    addNotes [settingsNote path]
    pure settings

/-- What commands work under. -/
def makeContext (world : World) (choices : ProgramChoices) : Run Context := do
  checkLevel world
  addNotes
    (Terminal.colorNotes choices.color none none world.environment world.outputIsTerminal)
  let color := Terminal.useColor choices.color none none world.environment world.outputIsTerminal
  let settings ← loadSettings world choices.config
  pure { colorMode := choices.color, settings, console := ⟨color⟩ }

/-- Prints texts and changes no file. -/
def tell (world : World) (sink : Page.Capacity) (texts : List String) : Run Success := do
  print (deliverTexts sink texts)
  pure { tree := world.tree }

/-- What is printed where no command is given. -/
def hintTexts (console : Terminal.Console) : List String :=
  [console.line "Hint: use 'makehelp render MODEL.json' to render help.", console.line "",
   console.line programPage.text]

/-- Does what a command is asked for, or prints the page on the command. -/
def serve {α : Type} (world : World) (name : CommandName)
    (asked : Except UsageFault (Asked α)) (work : α → Run Success) : Run Success :=
  match asked with
  | .error fault => .fail (.misuse fault)
  | .ok .help => tell world world.pages [name.manualPage.text ++ "\n"]
  | .ok (.work request) => work request

/-- Runs a command on its arguments. -/
def runCommand (world : World) (context : Context) (name : CommandName)
    (arguments : List String) : Run Success :=
  match name with
  | .formats =>
    serve world name (readFormats arguments) fun _ ↦ do
      let lines ← formats context.console
      tell world world.notices lines
  | .helpfile => serve world name (readHelpfile world arguments) (helpfile world context)
  | .render => serve world name (readRender world arguments) (render world context)
  | .version =>
    serve world name (readVersion arguments) fun asJson ↦
      tell world world.notices [versionText context.console asJson]

/-- Does what an invocation asks for. -/
def invoke (world : World) : Invocation → Run Success
  | .help => tell world world.pages [programPage.text ++ "\n"]
  | .hint choices => do
    let context ← makeContext world choices
    tell world world.notices (hintTexts context.console)
  | .command choices name arguments => do
    let context ← makeContext world choices
    runCommand world context name arguments

/-- Runs the program on its arguments. -/
def run (world : World) (arguments : List String) : Report :=
  match readInvocation world arguments with
  | .error fault => { events := [], outcome := .error (.misuse fault) }
  | .ok invocation =>
    let done := invoke world invocation
    { events := done.notes, outcome := done.outcome }

end HelpSheet.Command
