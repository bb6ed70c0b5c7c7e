import HelpSheet.Json.Number
import HelpSheet.Json.Value
import HelpSheet.Text.Encoding
import HelpSheet.Text.Numeral

/-!
# Reading JSON

The reader takes the longest value at the front of a text and stops at the first fault, which it
reports with its line, column and offset. Beyond the grammar it accepts three words for numbers that
are not finite. The last of several fields of one name wins. The escape of a lone surrogate is kept
as the character that stands for it. A caller may limit the length of integers and the depth of
nesting.
-/

set_option autoImplicit false
set_option relaxedAutoImplicit false

namespace HelpSheet.Json

/-! ### Faults -/

/-- The rules of a reader: how long an integer and how deep a value may be, and which characters
stand for lone surrogates. -/
structure Rules where
  digits : Nat
  levels : Nat
  surrogates : Text.Surrogates := .standard

/-- The two kinds of values that hold values. -/
inductive Container
  | array
  | object
  deriving DecidableEq, Repr

def Container.name : Container → String
  | .array => "array"
  | .object => "object"

/-- A limit that a text goes beyond. -/
inductive Excess
  | digits (fault : Text.Numeral.TooLong)
  | levels (container : Container)
  deriving DecidableEq, Repr

def Excess.message : Excess → String
  | .digits fault => fault.message
  | .levels container =>
    "maximum recursion depth exceeded while decoding a JSON " ++ container.name ++
      " from a unicode string"

/-- What the grammar forbids. -/
inductive SyntaxFault
  | expectingValue
  | expectingName
  | expectingColon
  | expectingComma
  | unterminatedString
  | invalidEscape
  | invalidUnicodeEscape
  | controlCharacter
  | extraData
  | byteOrderMark
  deriving DecidableEq, Repr

def SyntaxFault.description : SyntaxFault → String
  | .expectingValue => "Expecting value"
  | .expectingName => "Expecting property name enclosed in double quotes"
  | .expectingColon => "Expecting ':' delimiter"
  | .expectingComma => "Expecting ',' delimiter"
  | .unterminatedString => "Unterminated string starting at"
  | .invalidEscape => "Invalid \\escape"
  | .invalidUnicodeEscape => "Invalid \\uXXXX escape"
  | .controlCharacter => "Invalid control character at"
  | .extraData => "Extra data"
  | .byteOrderMark => "Unexpected UTF-8 BOM (decode using utf-8-sig)"

/-- What stops the reader: a fault together with the text from its place on, or a limit. -/
inductive Stop
  | fault (fault : SyntaxFault) (text : List Char)
  | excess (excess : Excess)
  deriving DecidableEq, Repr

/-- A fault and its offset, with the line and the column of the offset, both counted from one. -/
structure SyntaxError where
  fault : SyntaxFault
  line : Nat
  column : Nat
  offset : Nat
  deriving DecidableEq, Repr

def SyntaxError.message (error : SyntaxError) : String :=
  error.fault.description ++ ": line " ++ toString error.line ++ " column " ++
    toString error.column ++ " (char " ++ toString error.offset ++ ")"

/-- Why a text spells no value. -/
inductive Error
  | grammar (error : SyntaxError)
  | excess (excess : Excess)
  deriving DecidableEq, Repr

def Error.message : Error → String
  | .grammar error => error.message
  | .excess found => found.message

/-- What stopped the reader, seen from the beginning of the whole text. -/
def Stop.inText (whole : List Char) : Stop → Error
  | .excess found => .excess found
  | .fault found text =>
    let offset := whole.length - text.length
    let before := whole.take offset
    .grammar
      { fault := found
        line := before.count '\n' + 1
        column := (before.reverse.takeWhile (· ≠ '\n')).length + 1
        offset }

/-- What a reader returns: a value and the text after it, or what stopped it. -/
abbrev Reading (α : Type) := Except Stop (α × List Char)

/-! ### Strings -/

/-- The value of a hexadecimal digit. -/
def hexValue? (c : Char) : Option Nat :=
  if '0' ≤ c && c ≤ '9' then some (c.toNat - 48)
  else if 'a' ≤ c && c ≤ 'f' then some (c.toNat - 87)
  else if 'A' ≤ c && c ≤ 'F' then some (c.toNat - 55)
  else none

/-- The number that four hexadecimal digits spell. -/
def hexQuad? (a b c d : Char) : Option Nat := do
  let a ← hexValue? a
  let b ← hexValue? b
  let c ← hexValue? c
  let d ← hexValue? d
  pure (((a * 16 + b) * 16 + c) * 16 + d)

/-- Reads the four digits of a numbered escape, before its `u`. At least one character has to follow
them. -/
def readHexQuad (text : List Char) : Reading Nat :=
  match text with
  | _ :: a :: b :: c :: d :: rest =>
    match hexQuad? a b c d with
    | some unit =>
      if rest.isEmpty then .error (.fault .invalidUnicodeEscape text) else .ok (unit, rest)
    | none => .error (.fault .invalidUnicodeEscape text)
  | _ => .error (.fault .invalidUnicodeEscape text)

/-- The character of a code point, or the one that stands for it where it is a surrogate. -/
def charOfUnit (surrogates : Text.Surrogates) (unit : Nat) : Char :=
  if 0xd800 ≤ unit && unit ≤ 0xdfff then surrogates.standIn unit else Char.ofNat unit

/-- Reads the second half of a surrogate pair after its first half, if one follows. -/
def readLowSurrogate (surrogates : Text.Surrogates) (high : Nat) (text : List Char) :
    Reading Char :=
  match text with
  | '\\' :: 'u' :: rest =>
    if (rest.drop 4).isEmpty then .ok (charOfUnit surrogates high, text)
    else
      match readHexQuad ('u' :: rest) with
      | .ok (low, after) =>
        if 0xdc00 ≤ low && low ≤ 0xdfff then
          .ok (Char.ofNat (0x10000 + (high - 0xd800) * 0x400 + (low - 0xdc00)), after)
        else .ok (charOfUnit surrogates high, text)
      | .error found => .error found
  | _ => .ok (charOfUnit surrogates high, text)

/-- Reads a numbered escape, before its `u`. -/
def readUnicodeEscape (surrogates : Text.Surrogates) (text : List Char) : Reading Char :=
  match readHexQuad text with
  | .ok (unit, rest) =>
    if 0xd800 ≤ unit && unit ≤ 0xdbff then readLowSurrogate surrogates unit rest
    else .ok (charOfUnit surrogates unit, rest)
  | .error found => .error found

/-- The characters that a backslash and one letter or sign stand for. -/
def simpleEscapes : List (Char × Char) :=
  [('\x22', '\x22'), ('\\', '\\'), ('/', '/'), ('b', '\x08'), ('f', '\x0c'), ('n', '\n'),
   ('r', '\r'), ('t', '\t')]

/-- Reads an escape. `string` is the text from the opening quote on, `text` begins with the
backslash. -/
def readEscape (surrogates : Text.Surrogates) (string text : List Char) : Reading Char :=
  match text.drop 1 with
  | [] => .error (.fault .unterminatedString string)
  | 'u' :: rest => readUnicodeEscape surrogates ('u' :: rest)
  | c :: rest =>
    match simpleEscapes.lookup c with
    | some meant => .ok (meant, rest)
    | none => .error (.fault .invalidEscape text)

/-- Reads a string after its opening quote. `fuel` bounds the number of characters. -/
def readChars (surrogates : Text.Surrogates) (fuel : Nat) (string text : List Char) :
    Reading (List Char) :=
  match fuel, text with
  | 0, _ => .error (.fault .unterminatedString string)
  | _, [] => .error (.fault .unterminatedString string)
  | fuel + 1, c :: rest =>
    if c = '\x22' then .ok ([], rest)
    else if c = '\\' then
      match readEscape surrogates string text with
      | .ok (meant, after) =>
        match readChars surrogates fuel string after with
        | .ok (chars, after) => .ok (meant :: chars, after)
        | .error found => .error found
      | .error found => .error found
    else if c.toNat < 0x20 then .error (.fault .controlCharacter text)
    else
      match readChars surrogates fuel string rest with
      | .ok (chars, after) => .ok (c :: chars, after)
      | .error found => .error found

/-- Reads a string, before its opening quote. -/
def readString (surrogates : Text.Surrogates) (fuel : Nat) (text : List Char) :
    Reading String :=
  match readChars surrogates fuel text (text.drop 1) with
  | .ok (chars, rest) => .ok (String.ofList chars, rest)
  | .error found => .error found

/-! ### Numbers -/

/-- Reads a number. -/
def readNumber (rules : Rules) (text : List Char) : Reading Json :=
  let (negative, unsigned) :=
    match text with
    | '-' :: rest => (true, rest)
    | _ => (false, text)
  match integerPart? unsigned with
  | none => .error (.fault .expectingValue text)
  | some (digits, rest) =>
    let (fraction, rest) := fractionPart rest
    let (exponent, rest) := exponentPart rest
    if fraction.isEmpty && exponent.isEmpty then
      match Text.Numeral.tooLong? rules.digits digits.length with
      | some fault => .error (.excess (.digits fault))
      | none =>
        let magnitude : Int := natOfDigits digits
        .ok (.int (if negative then -magnitude else magnitude), rest)
    else
      let sign := if negative then ['-'] else []
      .ok (.float (String.ofList (sign ++ digits ++ fraction ++ exponent)), rest)

/-! ### Values -/

/-- The words that stand for values. -/
def words : List (List Char × Json) :=
  [("null".toList, .null), ("true".toList, .bool true), ("false".toList, .bool false),
   ("NaN".toList, .float "NaN"), ("Infinity".toList, .float "Infinity"),
   ("-Infinity".toList, .float "-Infinity")]

/-- Reads a word or a number. -/
def readScalar (rules : Rules) (text : List Char) : Reading Json :=
  match words.find? fun word ↦ word.1.isPrefixOf text with
  | some (word, value) => .ok (value, text.drop word.length)
  | none => readNumber rules text

/-- Whether a character may stand between the tokens. -/
def isSpace (c : Char) : Bool :=
  c = ' ' || c = '\t' || c = '\n' || c = '\r'

/-- The text from its first token on. -/
def skipSpace (text : List Char) : List Char :=
  text.dropWhile isSpace

/-- The limits inside a container, unless the last level is reached. -/
def Rules.inside (rules : Rules) (container : Container) : Except Stop Rules :=
  match rules.levels with
  | 0 => .error (.excess (.levels container))
  | levels + 1 => .ok { rules with levels }

mutual

/-- Reads a value at the front of a text. `fuel` bounds the number of steps; every opening bracket
takes two of them, every other character at most one. -/
def readValue (fuel : Nat) (rules : Rules) (text : List Char) : Reading Json :=
  match fuel with
  | 0 => .error (.fault .expectingValue text)
  | fuel + 1 =>
    match text with
    | '\x22' :: _ =>
      match readString rules.surrogates fuel text with
      | .ok (content, rest) => .ok (.string content, rest)
      | .error found => .error found
    | '[' :: rest =>
      match rules.inside .array with
      | .error found => .error found
      | .ok rules =>
        match skipSpace rest with
        | ']' :: rest => .ok (.array [], rest)
        | rest =>
          match readItems fuel rules rest with
          | .ok (items, rest) => .ok (.array items, rest)
          | .error found => .error found
    | '\x7b' :: rest =>
      match rules.inside .object with
      | .error found => .error found
      | .ok rules =>
        match skipSpace rest with
        | '\x7d' :: rest => .ok (.object [], rest)
        | rest =>
          match readFields fuel rules [] rest with
          | .ok (fields, rest) => .ok (.object fields, rest)
          | .error found => .error found
    | _ => readScalar rules text

/-- Reads the items of an array up to its closing bracket. -/
def readItems (fuel : Nat) (rules : Rules) (text : List Char) : Reading (List Json) :=
  match fuel with
  | 0 => .error (.fault .expectingValue text)
  | fuel + 1 =>
    match readValue fuel rules text with
    | .error found => .error found
    | .ok (item, rest) =>
      match skipSpace rest with
      | ']' :: rest => .ok ([item], rest)
      | ',' :: rest =>
        match readItems fuel rules (skipSpace rest) with
        | .ok (items, rest) => .ok (item :: items, rest)
        | .error found => .error found
      | rest => .error (.fault .expectingComma rest)

/-- Reads the fields of an object up to its closing brace, onto the fields read before. -/
def readFields (fuel : Nat) (rules : Rules) (fields : List (String × Json))
    (text : List Char) : Reading (List (String × Json)) :=
  match fuel with
  | 0 => .error (.fault .expectingName text)
  | fuel + 1 =>
    match text with
    | '\x22' :: _ =>
      match readString rules.surrogates fuel text with
      | .error found => .error found
      | .ok (name, rest) =>
        match skipSpace rest with
        | ':' :: rest =>
          match readValue fuel rules (skipSpace rest) with
          | .error found => .error found
          | .ok (value, rest) =>
            match skipSpace rest with
            | '\x7d' :: rest => .ok (setField name value fields, rest)
            | ',' :: rest => readFields fuel rules (setField name value fields) (skipSpace rest)
            | rest => .error (.fault .expectingComma rest)
        | rest => .error (.fault .expectingColon rest)
    | _ => .error (.fault .expectingName text)

end

/-- Reads a whole text as one value. -/
def readWhole (rules : Rules) (text : List Char) : Except Stop Json :=
  if text.head? = some '\ufeff' then .error (.fault .byteOrderMark text)
  else
    match readValue (2 * text.length + 2) rules (skipSpace text) with
    | .error found => .error found
    | .ok (value, rest) =>
      match skipSpace rest with
      | [] => .ok value
      | rest => .error (.fault .extraData rest)

/-- The value that a text spells within limits. -/
def parseWithin (rules : Rules) (text : String) : Except Error Json :=
  (readWhole rules text.toList).mapError (Stop.inText text.toList)

/-- The value that a text spells. No text goes beyond limits of its own length. -/
def parse (text : String) : Except Error Json :=
  parseWithin { digits := text.length, levels := text.length } text

end HelpSheet.Json
