import HelpSheet.Decimal.Notation
import HelpSheet.Text.Blank
import HelpSheet.Text.Quoted

/-!
# Message templates

A template is text in which a percent sign begins a directive: flags, a least width, a precision and
a letter that says how the next argument is written. An asterisk takes the width or the precision
from the arguments. Where the only argument is a table, a directive may name one of its entries in
parentheses. Two percent signs stand for one. A template that does not fit its arguments yields no
message.
-/

set_option autoImplicit false
set_option relaxedAutoImplicit false

namespace HelpSheet.Log

/-- The values that a message can mention. -/
inductive Argument
  | text (content : String)
  | number (value : Int)
  | real (value : Decimal.Double)
  | truth (value : Bool)
  | nothing
  | list (items : List Argument)
  | table (entries : List (String × Argument))
  deriving Repr, Inhabited

namespace Argument

mutual

/-- The value with quotes where it is text. -/
def quoted : Argument → String
  | text content => Text.quoted content
  | number value => toString value
  | real value => value.text
  | truth true => "True"
  | truth false => "False"
  | nothing => "None"
  | list items => "[" ++ Text.joinWith ", " (quotedItems items) ++ "]"
  | table entries => "\x7b" ++ Text.joinWith ", " (quotedEntries entries) ++ "\x7d"

/-- The items of a list with quotes. -/
def quotedItems : List Argument → List String
  | [] => []
  | item :: rest => item.quoted :: quotedItems rest

/-- The entries of a table with quotes. -/
def quotedEntries : List (String × Argument) → List String
  | [] => []
  | (name, value) :: rest => (Text.quoted name ++ ": " ++ value.quoted) :: quotedEntries rest

end

/-- The value as running text. -/
def plain : Argument → String
  | text content => content
  | other => other.quoted

/-- The value as a whole number that is written as one; a truth value counts one or zero. -/
def number? : Argument → Option Int
  | number value => some value
  | truth value => some (if value then 1 else 0)
  | _ => none

/-- The value as a whole number; the fraction of a number is cut off. -/
def truncated? : Argument → Option Int
  | real value => value.truncated?
  | other => other.number?

/-- The value as a binary number. -/
def double? : Argument → Option Decimal.Double
  | real value => some value
  | other => other.number?.bind Decimal.Double.ofInt?

end Argument

/-- How a directive lays out what it writes. -/
structure Layout where
  left : Bool := false
  zeros : Bool := false
  plus : Bool := false
  space : Bool := false
  alternate : Bool := false
  width : Nat := 0
  precision : Option Nat := none
  deriving DecidableEq, Repr

namespace Layout

/-- Fills text up with blanks to the least width. -/
def pad (layout : Layout) (content : String) : String :=
  let missing := String.ofList (List.replicate (layout.width - content.length) ' ')
  if layout.left then content ++ missing else missing ++ content

/-- Text, cut to the precision and filled up. -/
def text (layout : Layout) (content : String) : String :=
  layout.pad <|
    match layout.precision with
    | some count => String.ofList (content.toList.take count)
    | none => content

/-- The sign of a number. -/
def sign (layout : Layout) (negative : Bool) : String :=
  if negative then "-" else if layout.plus then "+" else if layout.space then " " else ""

/-- A magnitude after its sign and `lead`, filled up with blanks or with zeros before it. -/
def magnitude (layout : Layout) (negative : Bool) (lead digits : String) : String :=
  let mark := layout.sign negative ++ lead
  if layout.zeros && !layout.left then
    mark ++ String.ofList (List.replicate (layout.width - mark.length - digits.length) '0') ++
      digits
  else layout.pad (mark ++ digits)

/-- A whole number whose magnitude has the given digits; the precision is the least number of
digits. -/
def number (layout : Layout) (value : Int) (lead digits : String) : String :=
  let more := String.ofList (List.replicate (layout.precision.getD 0 - digits.length) '0')
  layout.magnitude (value < 0) lead (more ++ digits)

/-- The number of places, or of digits, where none is asked for. -/
def usualPrecision : Nat := 6

/-- A binary number in a style; the precision counts places or digits. -/
def real (layout : Layout) (style : Decimal.Style) (value : Decimal.Double) : List Char :=
  value.styled style (layout.precision.getD usualPrecision) layout.alternate

end Layout

/-- A number as the character of that code point, if there is one. -/
def charOf? (value : Int) : Option Char :=
  if h : 0 ≤ value ∧ value.toNat.isValidChar then some (Char.ofNatAux value.toNat h.2) else none

/-- The value in ASCII characters only. -/
def asciiQuoted (argument : Argument) : String :=
  String.ofList (argument.quoted.toList.flatMap fun c ↦
    if c.toNat < 0x80 then [c] else Text.numericEscape c.toNat)

/-- What a directive writes of an argument; nothing where the two do not fit. -/
def writeArgument? (layout : Layout) (directive : Char) (argument : Argument) : Option String :=
  let based (base : Nat) (lead : String) (change : Char → Char) : Option String :=
    argument.number?.map fun value ↦
      layout.number value (if layout.alternate then lead else "")
        (String.ofList ((Nat.toDigits base value.natAbs).map change))
  let decimal : Option String :=
    argument.truncated?.map fun value ↦ layout.number value "" (toString value.natAbs)
  let styled (style : Decimal.Style) (change : Char → Char) : Option String :=
    argument.double?.map fun value ↦
      layout.magnitude value.isNegative "" (String.ofList ((layout.real style value).map change))
  match directive with
  | 's' => some (layout.text argument.plain)
  | 'r' => some (layout.text argument.quoted)
  | 'a' => some (layout.text (asciiQuoted argument))
  | 'd' | 'i' | 'u' => decimal
  | 'o' => based 8 "0o" id
  | 'x' => based 16 "0x" id
  | 'X' => based 16 "0X" Char.toUpper
  | 'e' => styled .exponent id
  | 'E' => styled .exponent Char.toUpper
  | 'f' => styled .fixed id
  | 'F' => styled .fixed Char.toUpper
  | 'g' => styled .general id
  | 'G' => styled .general Char.toUpper
  | 'c' =>
    match argument with
    | .text content => if content.length = 1 then some (layout.pad content) else none
    | other => (other.number?.bind charOf?).map fun c ↦ layout.pad (String.singleton c)
  | _ => none

/-! ### Reading a template -/

/-- Where in a template the reader is: outside of directives, or before a part of one that may be
absent. A part before it is over and done with. A name in parentheses is read in reverse; `depth`
counts the parentheses that are open. -/
inductive Place
  | outside
  | directive
  | name (depth : Nat) (read : List Char)
  | flags (layout : Layout)
  | width (layout : Layout)
  | point (layout : Layout)
  | precisionStart (layout : Layout)
  | precision (layout : Layout)
  | size (layout : Layout)
  | letter (layout : Layout)
  deriving DecidableEq, Repr

/-- The layout that a flag changes, if the character is one. -/
def Layout.withFlag? (layout : Layout) (flag : Char) : Option Layout :=
  match flag with
  | '-' => some { layout with left := true }
  | '0' => some { layout with zeros := true }
  | '+' => some { layout with plus := true }
  | ' ' => some { layout with space := true }
  | '#' => some { layout with alternate := true }
  | _ => none

/-- The greatest width or precision. -/
def maxExtent : Nat := 2147483647

/-- A width or precision with one more digit. -/
def pushDigit? (value : Nat) (digit : Char) : Option Nat :=
  let longer := 10 * value + (digit.toNat - 48)
  if longer ≤ maxExtent then some longer else none

/-- The width that an argument gives; a negative one also asks for the left side. -/
def Layout.withWidth (layout : Layout) (width : Int) : Layout :=
  { layout with width := width.natAbs, left := layout.left || width < 0 }

/-- The part of a directive that a character belongs to, when a reader before the part `place` meets
it. Only a percent sign at once after another one stands for itself. -/
def Place.settle (place : Place) (c : Char) : Place :=
  match place with
  | .outside => .outside
  | .directive =>
    if c = '%' then .directive else if c = '(' then .name 0 [] else flagsOr {}
  | .name depth read => .name depth read
  | .flags layout => flagsOr layout
  | .width layout => widthOr layout
  | .point layout => pointOr layout
  | .precisionStart layout =>
    if c = '*' then .precisionStart layout else precisionOr layout
  | .precision layout => precisionOr layout
  | .size layout => sizeOr layout
  | .letter layout => .letter layout
where
  sizeOr (layout : Layout) : Place :=
    if c = 'h' || c = 'l' || c = 'L' then .size layout else .letter layout
  precisionOr (layout : Layout) : Place :=
    if c.isDigit then .precision layout else sizeOr layout
  pointOr (layout : Layout) : Place :=
    if c = '.' then .point layout else sizeOr layout
  widthOr (layout : Layout) : Place :=
    if c.isDigit then .width layout else pointOr layout
  flagsOr (layout : Layout) : Place :=
    if (layout.withFlag? c).isSome || c = '*' then .flags layout else widthOr layout

/-- What directives can write: the arguments left, and the entries of the table that the only
argument is. -/
structure Supply where
  pending : List Argument
  entries : Option (List (String × Argument))

/-- What arguments supply: a table as the only argument supplies its entries too, if it has any. -/
def Supply.ofArguments : List Argument → Supply
  | [.table []] => ⟨[.table []], none⟩
  | [.table entries] => ⟨[.table entries], some entries⟩
  | arguments => ⟨arguments, none⟩

/-- The supply after the choice of an entry, which is the only argument then. -/
def Supply.choose? (supply : Supply) (name : String) : Option Supply := do
  let value ← (← supply.entries).lookup name
  pure { supply with pending := [value] }

/-- Whether no argument is left that would have to be written. -/
def Supply.isUsedUp (supply : Supply) : Bool :=
  supply.entries.isSome || supply.pending.isEmpty

/-- What one character brings: text, the place after it, and the supply left. -/
structure Progress where
  written : String
  place : Place
  supply : Supply

/-- Takes the next argument as a number for the layout. -/
def takeNumber? (supply : Supply) (next : Int → Place) : Option Progress :=
  match supply.pending with
  | argument :: rest =>
    (argument.number?.filter fun value ↦ value.natAbs ≤ maxExtent).map fun value ↦
      ⟨"", next value, { supply with pending := rest }⟩
  | [] => none

/-- Reads one character of a name in parentheses. Parentheses inside the name are balanced. -/
def readNameChar? (depth : Nat) (read : List Char) (supply : Supply) (c : Char) :
    Option Progress :=
  match c, depth with
  | '(', 0 => if supply.entries.isSome then some ⟨"", .name 1 read, supply⟩ else none
  | '(', _ => some ⟨"", .name (depth + 1) (c :: read), supply⟩
  | ')', 1 =>
    (supply.choose? (String.ofList read.reverse)).map fun chosen ↦ ⟨"", .flags {}, chosen⟩
  | ')', _ => some ⟨"", .name (depth - 1) (c :: read), supply⟩
  | _, _ => some ⟨"", .name depth (c :: read), supply⟩

/-- Reads one character at the place it belongs to. -/
def Place.read? (place : Place) (supply : Supply) (c : Char) : Option Progress :=
  match place with
  | .outside =>
    if c = '%' then some ⟨"", .directive, supply⟩
    else some ⟨String.singleton c, .outside, supply⟩
  | .directive => some ⟨"%", .outside, supply⟩
  | .name depth read => readNameChar? depth read supply c
  | .flags layout =>
    match layout.withFlag? c with
    | some changed => some ⟨"", .flags changed, supply⟩
    | none => takeNumber? supply fun width ↦ .point (layout.withWidth width)
  | .width layout =>
    (pushDigit? layout.width c).map fun width ↦ ⟨"", .width { layout with width }, supply⟩
  | .point layout => some ⟨"", .precisionStart { layout with precision := some 0 }, supply⟩
  | .precisionStart layout =>
    takeNumber? supply fun count ↦ .size { layout with precision := some count.toNat }
  | .precision layout =>
    (pushDigit? (layout.precision.getD 0) c).map fun count ↦
      ⟨"", .precision { layout with precision := some count }, supply⟩
  | .size layout => some ⟨"", .letter layout, supply⟩
  | .letter layout =>
    match supply.pending with
    | argument :: rest => (writeArgument? layout c argument).map fun written ↦
        ⟨written, .outside, { supply with pending := rest }⟩
    | [] => none

/-- Fills a template from the given place on. All arguments have to be used up. -/
def fillFrom (place : Place) (supply : Supply) : List Char → Option String
  | [] => if place = .outside && supply.isUsedUp then some "" else none
  | c :: rest =>
    ((place.settle c).read? supply c).bind fun progress ↦
      (fillFrom progress.place progress.supply rest).map (progress.written ++ ·)

/-- The message of a template. Without arguments a template is its own message. -/
def fillTemplate (template : String) (arguments : List Argument) : Option String :=
  if arguments.isEmpty then some template
  else fillFrom .outside (.ofArguments arguments) template.toList

end HelpSheet.Log
