import HelpSheet.Command.Render
import HelpSheet.Makefile.Generate

/-!
# Writing help makefiles

The command that writes a help makefile for a model. The makefile lies where the output goes, and
what it says about other files is relative to that directory.
-/

set_option autoImplicit false
set_option relaxedAutoImplicit false

namespace HelpSheet.Command

/-- The directory of a help makefile, empty for the working directory. -/
def makefileDirectory (output : Path) : String :=
  if output.parent.text = "." then "" else output.parent.text

/-- The options of the help makefile that a request asks for. -/
def makefileOptions (world : World) (request : HelpfileRequest) (useColor : Bool) :
    Makefile.Options where
  makefiles := request.makefiles
  directory := makefileDirectory request.output
  fileName := request.output.name
  category := request.category
  modelName :=
    Path.relativeTo world.workingDirectory request.output.parent.text request.model.text
  useColor := useColor

/-- The warning about a help makefile that watches no makefile. -/
def noMakefileWarning : String :=
  "no --makefile given; 'make help' cannot detect a stale help file"

/-- The note on a help makefile that was written. -/
def makefileNote (output : Path) : Log.Note where
  level := .info
  channel := .makefileCommand
  line := 148
  message := "Wrote help makefile " ++ output.text

/-- The notice of a help makefile that was written. -/
def writtenNotice (console : Terminal.Console) (output : Path) : String :=
  console.line ("Wrote " ++ console.styled { bold := some true } output.text)

/-- The failure to generate a help makefile. -/
def generateFailure : Makefile.Fault → Failure
  | .date error => .breakdown (.date error)
  | .line fault => .unmade fault

/-- Makes the text of a help makefile. -/
def makeHelpfile (world : World) (context : Context) (request : HelpfileRequest) :
    Run String := do
  requireModel world request.model
  if request.makefiles.isEmpty then warn context.console noMakefileWarning
  let useColor ← chooseColor world context .make false
  let options := makefileOptions world request useColor
  let model ← loadModel world request.model
  lift generateFailure (Makefile.generate world.workingDirectory world.now options model)

/-- Writes a help makefile. -/
def helpfile (world : World) (context : Context) (request : HelpfileRequest) : Run Success := do
  let text ← makeHelpfile world context request
  let tree ← writeFile world request.output (deliverTexts world.fileSink [text])
  addNotes [makefileNote request.output]
  print (deliverTexts world.notices [writtenNotice context.console request.output])
  pure { tree }

end HelpSheet.Command
