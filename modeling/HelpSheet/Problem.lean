import HelpSheet.Model.Load
import HelpSheet.Page.Renderer
import HelpSheet.Settings.File

/-!
# Problems

Everything that can go wrong while help is made, and the exit codes by which a caller of the command
line tells the problems apart.
-/

set_option autoImplicit false
set_option relaxedAutoImplicit false

namespace HelpSheet

/-- A problem with the input of the program. -/
inductive Problem
  | general (message : String)
  | rendering (renderer message : String)
  | missingModel (renderer : String)
  | missingTarget (renderer : String)
  | unknownFormat (name : String) (supported : List String)
  | invalidSettings (message : String)
  | invalidModel (message : String)
  deriving DecidableEq, Repr

/-- The outcomes of a command that have an exit code of their own. -/
inductive ExitStatus
  | success
  | failure
  | usage
  | data
  | missingFile
  | rendering
  | output
  | settings
  deriving DecidableEq, Repr

namespace ExitStatus

def code : ExitStatus → Nat
  | success => 0
  | failure => 1
  | usage => 64
  | data => 65
  | missingFile => 66
  | rendering => 70
  | output => 74
  | settings => 78

def name : ExitStatus → String
  | success => "SUCCESS"
  | failure => "FAILURE"
  | usage => "USAGE_ERROR"
  | data => "DATA_ERROR"
  | missingFile => "FILE_NOT_FOUND"
  | rendering => "RENDER_ERROR"
  | output => "IO_ERROR"
  | settings => "CONFIG_ERROR"

end ExitStatus

namespace Problem

def message : Problem → String
  | general message => message
  | rendering renderer message => renderer ++ " renderer: " ++ message
  | missingModel renderer => renderer ++ " renderer: documentation model cannot be None"
  | missingTarget renderer => renderer ++ " renderer: target cannot be None"
  | unknownFormat name supported => Format.unknownMessage name supported
  | invalidSettings message => message
  | invalidModel message => message

/-- Whether a problem is one of rendering. -/
def isRendering : Problem → Bool
  | rendering _ _ => true
  | missingModel _ => true
  | missingTarget _ => true
  | _ => false

/-- The exit status of a command that meets the problem. -/
def status : Problem → ExitStatus
  | general _ => .failure
  | rendering _ _ => .rendering
  | missingModel _ => .rendering
  | missingTarget _ => .rendering
  | unknownFormat _ _ => .usage
  | invalidSettings _ => .settings
  | invalidModel _ => .data

end Problem

end HelpSheet
