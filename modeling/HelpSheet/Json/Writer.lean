import HelpSheet.Json.Value
import HelpSheet.Text.Numeral
import HelpSheet.Text.Quoted

/-!
# Writing JSON

Values are laid out over several lines, two blanks deeper for each array and object around them;
empty arrays and objects stay on one line. Only quotes, backslashes and control characters are
escaped in strings. A value with an integer that is too long to be written is not written at all
(`document?`).
-/

set_option autoImplicit false
set_option relaxedAutoImplicit false

namespace HelpSheet.Json

/-- One character of a string between quotes. -/
def escapeChar (c : Char) : List Char :=
  match c with
  | '\x22' => ['\\', '\x22']
  | '\\' => ['\\', '\\']
  | '\n' => ['\\', 'n']
  | '\r' => ['\\', 'r']
  | '\t' => ['\\', 't']
  | '\x08' => ['\\', 'b']
  | '\x0c' => ['\\', 'f']
  | _ => if c.toNat < 0x20 then '\\' :: 'u' :: Text.hexDigits 4 c.toNat else [c]

/-- A string between quotes. -/
def writeString (content : String) : List Char :=
  '\x22' :: content.toList.flatMap escapeChar ++ ['\x22']

/-- The beginning of a line at a depth. -/
def newLine (depth : Nat) : List Char :=
  '\n' :: List.replicate (2 * depth) ' '

mutual

/-- A value inside `depth` arrays and objects. -/
def writeValue (depth : Nat) : Json → List Char
  | .null => "null".toList
  | .bool true => "true".toList
  | .bool false => "false".toList
  | .int value => (toString value).toList
  | .float text => text.toList
  | .string content => writeString content
  | .array [] => ['[', ']']
  | .array (item :: items) =>
    '[' :: newLine (depth + 1) ++ writeValue (depth + 1) item ++ writeItems (depth + 1) items ++
      newLine depth ++ [']']
  | .object [] => ['\x7b', '\x7d']
  | .object ((name, value) :: fields) =>
    '\x7b' :: newLine (depth + 1) ++ writeString name ++ [':', ' '] ++
      writeValue (depth + 1) value ++ writeFields (depth + 1) fields ++ newLine depth ++ ['\x7d']

/-- The items after the first one. -/
def writeItems (depth : Nat) : List Json → List Char
  | [] => []
  | item :: items => ',' :: newLine depth ++ writeValue depth item ++ writeItems depth items

/-- The fields after the first one. -/
def writeFields (depth : Nat) : List (String × Json) → List Char
  | [] => []
  | (name, value) :: fields =>
    ',' :: newLine depth ++ writeString name ++ [':', ' '] ++ writeValue depth value ++
      writeFields depth fields

end

/-- A value as a document of its own, which ends with a line feed. -/
def document (value : Json) : String :=
  String.ofList (writeValue 0 value ++ ['\n'])

/-! ### Integers that are too long -/

mutual

/-- The integers in a value. -/
def integers : Json → List Int
  | .int value => [value]
  | .array items => itemIntegers items
  | .object fields => fieldIntegers fields
  | _ => []

/-- The integers in a list of values. -/
def itemIntegers : List Json → List Int
  | [] => []
  | item :: items => integers item ++ itemIntegers items

/-- The integers in the fields of an object. -/
def fieldIntegers : List (String × Json) → List Int
  | [] => []
  | (_, value) :: fields => integers value ++ fieldIntegers fields

end

@[simp] theorem integers_array (items : List Json) :
    integers (.array items) = items.flatMap integers := by
  have hitems : itemIntegers items = items.flatMap integers := by
    induction items with
    | nil => rw [itemIntegers, List.flatMap_nil]
    | cons item items ih => rw [itemIntegers, ih, List.flatMap_cons]
  rw [integers, hitems]

@[simp] theorem integers_object (fields : List (String × Json)) :
    integers (.object fields) = fields.flatMap fun field ↦ integers field.2 := by
  have hfields : fieldIntegers fields = fields.flatMap fun field ↦ integers field.2 := by
    induction fields with
    | nil => rw [fieldIntegers, List.flatMap_nil]
    | cons field fields ih => rw [fieldIntegers, ih, List.flatMap_cons]
  rw [integers, hfields]

/-- Every integer in a value is short enough to be written. -/
def IsShort (value : Json) : Prop :=
  ∀ number ∈ value.integers, Text.Numeral.IsShort number

instance (value : Json) : Decidable value.IsShort :=
  inferInstanceAs (Decidable (∀ _ ∈ _, _))

/-- A value as a document of its own, unless an integer in it is too long to be written. -/
def document? (value : Json) : Except Text.Numeral.TooGreat String :=
  if value.IsShort then .ok (document value) else .error ⟨Text.Numeral.maxDigits⟩

end HelpSheet.Json
