import HelpSheet.Environment
import HelpSheet.Files.Tree
import HelpSheet.Json.Reader
import HelpSheet.Model.Shape

/-!
# Model files

Reading a model from a file, and the ways in which this fails.
-/

set_option autoImplicit false
set_option relaxedAutoImplicit false

namespace HelpSheet.Model

/-- Why a model cannot be had. -/
inductive LoadError
  | notPath (fault : Files.NullInPath)
  | unreadable (path : Path) (error : Files.Error)
  | notText (error : Text.Utf8.Error)
  | notJson (path : Path) (error : Json.SyntaxError)
  | excess (excess : Json.Excess)
  | shape (error : Shape.Error)

namespace LoadError

def message : LoadError → String
  | notPath fault => fault.message
  | unreadable path error => "cannot read model file " ++ path.text ++ ": " ++ error.message
  | notText error => error.message
  | notJson path error => path.text ++ ": invalid JSON: " ++ error.message
  | excess found => found.message
  | shape error => error.message

end LoadError

/-- The rules for the JSON in files. -/
def fileRules (machine : Machine) : Json.Rules where
  digits := Text.Numeral.maxDigits
  levels := machine.levels
  surrogates := machine.surrogates

/-- The JSON value in a file. -/
def loadDocument (tree : Files.Tree) (directory : Files.Place) (path : Path)
    (machine : Machine) : Except LoadError Json :=
  match tree.readText directory path.text with
  | .error (.notPath fault) => .error (.notPath fault)
  | .error (.unreadable error) => .error (.unreadable path error)
  | .error (.notText error) => .error (.notText error)
  | .ok text =>
    match Json.parseWithin (fileRules machine) text with
    | .error (.grammar error) => .error (.notJson path error)
    | .error (.excess found) => .error (.excess found)
    | .ok document => .ok document

/-- The model in a file. -/
def load (tree : Files.Tree) (directory : Files.Place) (path : Path) (machine : Machine := {}) :
    Log.Traced Log.Note LoadError Model := do
  let document ← Log.Traced.ofExcept (loadDocument tree directory path machine)
  (Shape.readModel document).mapError LoadError.shape

end HelpSheet.Model
