/-!
# TOML values

The values of a TOML document and the statements that it consists of. Numbers, dates and times are
kept as they are written.
-/

set_option autoImplicit false
set_option relaxedAutoImplicit false

namespace HelpSheet.Toml

/-- A value of a document. -/
inductive Value
  | boolean (value : Bool)
  | text (content : String)
  | number (literal : String)
  | moment (literal : String)
  | array (items : List Value)
  | table (entries : List (String × Value))
  deriving Repr, Inhabited

/-- A key: the names that lead from a table to a value. -/
abbrev Key := List String

/-- The greatest number of names in a key, and of brackets of any kind around a value. -/
def depthLimit : Nat := 100

/-! ### Faults -/

/-- Why a document cannot mean what it says: a name has a meaning already, or a table gets both a
header of its own and entries from keys with dots outside of it. -/
inductive Conflict
  | taken (name : String)
  | closed
  deriving DecidableEq, Repr

def Conflict.message : Conflict → String
  | taken name => "Key \"" ++ name ++ "\" already exists."
  | closed => "Redefinition of an existing table"

/-- Why a text is not a document, or why a reader gives it up for a reason of its own. -/
inductive Error
  | malformed
  | conflict (conflict : Conflict)
  | givenUp (message : String)
  deriving DecidableEq, Repr

/-- What a reader of documents makes of a text: the entries of a table, or an error. -/
abbrev Reader := String → Except Error (List (String × Value))

/-! ### Statements -/

/-- The header of a table; `item` tells that the table is one more item of an array. -/
structure Header where
  key : Key
  item : Bool
  deriving DecidableEq, Repr

/-- A statement of a document. A fault stands where the text cannot be read further; if it lies
behind the key of a header, the header is known. -/
inductive Statement
  | header (header : Header)
  | pair (key : Key) (value : Value)
  | fault (header : Option Header) (error : Error)
  deriving Repr

end HelpSheet.Toml
