import HelpSheet.Environment
import HelpSheet.Log.Note
import HelpSheet.Sgr.Strip
import HelpSheet.Sgr.Style
import HelpSheet.Text.Character

/-!
# The console

The messages of the command line apart from help pages, and whether to use color. Several parties
have a say in that, and the first of them that does decides: programs that read JSON want no color,
then come the command line, the settings, and the environment. Where none of them speaks, a terminal
gets color. Without color nothing is styled, and control sequences that come with a message are
removed.
-/

set_option autoImplicit false
set_option relaxedAutoImplicit false

namespace HelpSheet.Terminal

/-! ### Whether to use color -/

/-- What the command line asks for. -/
inductive ColorMode
  | auto | always | never
  deriving DecidableEq, Repr

namespace ColorMode

def all : List ColorMode :=
  [auto, always, never]

def name : ColorMode → String
  | auto => "auto"
  | always => "always"
  | never => "never"

def ofName? (name : String) : Option ColorMode :=
  all.find? fun mode ↦ mode.name = name

/-- The decision that a mode brings; none for the automatic one. -/
def decision? : ColorMode → Option Bool
  | auto => none
  | always => some true
  | never => some false

end ColorMode

/-- The variable that asks for color, unless it is empty or zero. -/
def forceVariable : String := "FORCE_COLOR"

/-- The variable that refuses color as soon as it is set. -/
def refuseVariable : String := "NO_COLOR"

/-- The decision of the environment. -/
def environmentDecision? (environment : Environment) : Option Bool :=
  let force := (environment.get? forceVariable).getD ""
  if force ≠ "" && force ≠ "0" then some true
  else (environment.get? refuseVariable).map fun _ ↦ false

/-- Whether only programs read a format, whose name may be in any letter case. -/
def isMachineFormat (format : Option String) : Bool :=
  format.any fun name ↦ Text.lowered name = "json"

/-- The decision of all who have a say but the terminal. -/
def decision? (mode : Option ColorMode) (format : Option String) (configured : Option Bool)
    (environment : Environment) : Option Bool :=
  if isMachineFormat format then some false
  else mode.bind ColorMode.decision? <|> configured <|> environmentDecision? environment

/-- Whether to use color. -/
def useColor (mode : Option ColorMode) (format : Option String) (configured : Option Bool)
    (environment : Environment) (isTerminal : Bool) : Bool :=
  (decision? mode format configured environment).getD isTerminal

/-- The note on a decision that is left to the terminal. -/
def terminalNote (isTerminal : Bool) : Log.Note where
  level := .trace
  channel := .color
  line := 102
  message := "Color auto-detection: stdout_isatty=" ++ if isTerminal then "True" else "False"

/-- The notes on the decision. -/
def colorNotes (mode : Option ColorMode) (format : Option String) (configured : Option Bool)
    (environment : Environment) (isTerminal : Bool) : List Log.Note :=
  match decision? mode format configured environment with
  | some _ => []
  | none => [terminalNote isTerminal]

/-! ### Messages -/

/-- How messages are written. -/
structure Console where
  color : Bool
  deriving DecidableEq, Repr

namespace Console

/-- A text in a style. -/
def styled (console : Console) (style : Sgr.Style) (text : String) : String :=
  if console.color then style.apply text else text

/-- The style of headings. -/
def headingStyle : Sgr.Style where
  bold := some true
  underline := some true

/-- A text as a heading. -/
def heading (console : Console) (text : String) : String :=
  console.styled headingStyle text

/-- A message as it is written, without a line feed. -/
def written (console : Console) (text : String) : String :=
  if console.color then text else Sgr.withoutCommands text

/-- A message on a line of its own. -/
def line (console : Console) (text : String) : String :=
  console.written (text ++ "\n")

/-- A warning. -/
def warning (console : Console) (text : String) : String :=
  console.line (console.styled { foreground := some (.plain .yellow) } ("Warning: " ++ text))

/-- A message on an error. -/
def error (console : Console) (text : String) : String :=
  console.line (console.styled { foreground := some (.bright .red) } ("Error: " ++ text))

end Console

end HelpSheet.Terminal
