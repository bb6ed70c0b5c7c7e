import HelpSheet.Command.Outcome
import HelpSheet.Makefile.Generate
import HelpSheet.Terminal.Console

/-!
# Invocations

The options that stand before the command and those of each command, and the checks on their values:
a choice is one of its words, and where a file is wanted no directory is taken, nor the other way
round. What lies at a path has to be readable, even where it is to be written.
-/

set_option autoImplicit false
set_option relaxedAutoImplicit false

namespace HelpSheet.Command

/-! ### Options before the command -/

/-- The options of the program. -/
inductive ProgramOption
  | color | noColor | config | help
  deriving DecidableEq, Repr

def programForms : List (OptionForm ProgramOption) :=
  [{ key := .color, long := "--color" },
   { key := .noColor, long := "--no-color", takesValue := false },
   { key := .config, long := "--config" },
   { key := .help, long := "--help", short := some 'h', takesValue := false }]

/-- The commands. -/
inductive CommandName
  | formats | helpfile | render | version
  deriving DecidableEq, Repr

namespace CommandName

def all : List CommandName :=
  [formats, helpfile, render, version]

def name : CommandName → String
  | formats => "formats"
  | helpfile => "helpfile"
  | render => "render"
  | version => "version"

def ofName? (name : String) : Option CommandName :=
  all.find? fun command ↦ command.name = name

end CommandName

/-- The choices made before the command. -/
structure ProgramChoices where
  color : Option Terminal.ColorMode
  config : Option Path
  deriving DecidableEq, Repr

/-- What the program is asked to do. -/
inductive Invocation
  | help
  | hint (choices : ProgramChoices)
  | command (choices : ProgramChoices) (name : CommandName) (arguments : List String)

/-! ### Checks on paths -/

/-- A path whose file or directory can be read, if there is one. -/
def checkReadable (world : World) (option kind raw : String) : Except UsageFault Path :=
  if world.tree.contains world.directory raw && !world.tree.canRead world.directory raw then
    .error (.unreadable option kind raw)
  else .ok (.ofString raw)

/-- A path at which a file is wanted, though it need not exist. -/
def checkFile (world : World) (option raw : String) : Except UsageFault Path :=
  if world.tree.hasDirectory world.directory raw then .error (.isDirectory option raw)
  else checkReadable world option "File" raw

/-- A path at which there has to be a file. -/
def checkExistingFile (world : World) (option raw : String) : Except UsageFault Path :=
  if world.tree.contains world.directory raw then checkFile world option raw
  else .error (.missingFile option raw)

/-- A path at which a directory is wanted, though it need not exist. -/
def checkDirectory (world : World) (option raw : String) : Except UsageFault Path :=
  if world.tree.hasFile world.directory raw then .error (.isFile option raw)
  else checkReadable world option "Directory" raw

/-- Checks a value if there is one. -/
def checkOptional {α : Type} (check : String → Except UsageFault α) :
    Option String → Except UsageFault (Option α)
  | none => .ok none
  | some raw => (check raw).map some

/-- The color mode of a word. -/
def checkColor (word : String) : Except UsageFault Terminal.ColorMode :=
  match Terminal.ColorMode.ofName? word with
  | some mode => .ok mode
  | none =>
    .error (.invalidChoice "--color" word (Terminal.ColorMode.all.map Terminal.ColorMode.name))

/-! ### Reading an invocation -/

/-- The choices among the options before the command. -/
def programChoices (world : World) (arguments : Arguments ProgramOption) :
    Except UsageFault ProgramChoices := do
  let color ← checkOptional checkColor (arguments.value? .color)
  let config ← checkOptional (checkExistingFile world "--config") (arguments.value? .config)
  pure { color := if arguments.has .noColor then some .never else color, config }

/-- Reads the arguments of the program up to the name of the command. -/
def readInvocation (world : World) (arguments : List String) : Except UsageFault Invocation := do
  let read ← readArguments programForms false none arguments
  if read.has .help then pure .help
  else
    let choices ← programChoices world read
    match read.positional with
    | [] => pure (.hint choices)
    | name :: rest =>
      match CommandName.ofName? name with
      | some command => pure (.command choices command rest)
      | none => throw (.unknownCommand name)

/-! ### Options of the commands -/

/-- The only positional argument of a command. -/
def onlyArgument (name : String) : List String → Except UsageFault String
  | [] => .error (.missingArgument name)
  | [argument] => .ok argument
  | _ :: extra => .error (.extraArguments extra)

/-- Refuses positional arguments. -/
def noArguments : List String → Except UsageFault Unit
  | [] => .ok ()
  | extra => .error (.extraArguments extra)

/-- The name of the argument for the model file. -/
def modelArgument : String := "MODEL"

/-- What a command is asked for: a page on itself, or its work. -/
inductive Asked (α : Type)
  | help
  | work (request : α)

/-- The options of `render`. -/
inductive RenderOption
  | format | target | base | output | help
  deriving DecidableEq, Repr

def renderForms : List (OptionForm RenderOption) :=
  [{ key := .format, long := "--format", short := some 'f' },
   { key := .target, long := "--target", short := some 't' },
   { key := .base, long := "--base-path" },
   { key := .output, long := "--output", short := some 'o' },
   { key := .help, long := "--help", short := some 'h', takesValue := false }]

/-- A page to be rendered. -/
structure RenderRequest where
  model : Path
  format : Option String
  target : Option String
  base : Option Path
  output : Option Path
  deriving DecidableEq, Repr

def readRender (world : World) (arguments : List String) :
    Except UsageFault (Asked RenderRequest) := do
  let read ← readArguments renderForms true none arguments
  if read.has .help then pure .help
  else
    let base ← checkOptional (checkDirectory world "--base-path") (read.value? .base)
    let output ← checkOptional (checkFile world "--output") (read.value? .output)
    let raw ← onlyArgument modelArgument read.positional
    let model ← checkFile world modelArgument raw
    pure (.work
      { model, format := read.value? .format, target := read.value? .target, base, output })

/-- The options of `helpfile`. -/
inductive HelpfileOption
  | output | makefile | category | help
  deriving DecidableEq, Repr

def helpfileForms : List (OptionForm HelpfileOption) :=
  [{ key := .output, long := "--output", short := some 'o' },
   { key := .makefile, long := "--makefile" },
   { key := .category, long := "--help-category" },
   { key := .help, long := "--help", short := some 'h', takesValue := false }]

/-- A help makefile to be written. -/
structure HelpfileRequest where
  model : Path
  output : Path
  makefiles : List String
  category : String
  deriving DecidableEq, Repr

def readHelpfile (world : World) (arguments : List String) :
    Except UsageFault (Asked HelpfileRequest) := do
  let read ← readArguments helpfileForms true none arguments
  if read.has .help then pure .help
  else
    let output ←
      checkFile world "--output" ((read.value? .output).getD Makefile.standardFileName)
    let raw ← onlyArgument modelArgument read.positional
    let model ← checkFile world modelArgument raw
    pure (.work
      { model, output
        makefiles := read.values .makefile
        category := (read.value? .category).getD Makefile.standardCategory })

/-- The options of `version`. -/
inductive VersionOption
  | json | help
  deriving DecidableEq, Repr

def versionForms : List (OptionForm VersionOption) :=
  [{ key := .json, long := "--json", takesValue := false },
   { key := .help, long := "--help", short := some 'h', takesValue := false }]

/-- Whether the version is wanted as JSON. -/
def readVersion (arguments : List String) : Except UsageFault (Asked Bool) := do
  let read ← readArguments versionForms true none arguments
  if read.has .help then pure .help
  else
    noArguments read.positional
    pure (.work (read.has .json))

/-- The options of `formats`. -/
inductive FormatsOption
  | help
  deriving DecidableEq, Repr

def formatsForms : List (OptionForm FormatsOption) :=
  [{ key := .help, long := "--help", short := some 'h', takesValue := false }]

def readFormats (arguments : List String) : Except UsageFault (Asked Unit) := do
  let read ← readArguments formatsForms true none arguments
  if read.has .help then pure .help
  else
    noArguments read.positional
    pure (.work ())

end HelpSheet.Command
