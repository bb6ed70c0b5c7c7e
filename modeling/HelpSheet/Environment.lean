import HelpSheet.Text.Encoding
import HelpSheet.Toml.Reader

/-!
# The environment

What a process is started with, and what it runs on. The latter differs from one computer to
another: how deep a stack the readers have, which characters are kept for lone surrogates, and which
reader of TOML is installed. Nothing else is said of these, so that what holds of the program holds
with every choice.
-/

set_option autoImplicit false
set_option relaxedAutoImplicit false

namespace HelpSheet

/-- Names of variables and their values. -/
structure Environment where
  entries : List (String × String)
  deriving DecidableEq, Repr

namespace Environment

/-- The environment without variables. -/
def empty : Environment := ⟨[]⟩

/-- The value of a variable, if it is set. -/
def get? (environment : Environment) (name : String) : Option String :=
  environment.entries.lookup name

end Environment

/-- What a program runs on: the number of arrays and objects that may lie in each other when JSON is
read, the block of characters for lone surrogates, and the reader of TOML. -/
structure Machine where
  levels : Nat := 989
  surrogates : Text.Surrogates := .standard
  readToml : Toml.Reader := Toml.parse

end HelpSheet
