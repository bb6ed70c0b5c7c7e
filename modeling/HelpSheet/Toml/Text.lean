import HelpSheet.Text.Numeral

/-!
# Strings of TOML

The four kinds of strings: between double quotes with escapes, between single quotes without, and
both of them over several lines between tripled quotes. Control characters may not be written in any
of them, apart from tabs and, in the tall kinds, line feeds.
-/

set_option autoImplicit false
set_option relaxedAutoImplicit false

namespace HelpSheet.Toml

/-- What a reader returns: a value and the text after it. Faults are not told apart. -/
abbrev Reading (α : Type) := Option (α × List Char)

/-- Whether a character may not be written as itself. -/
def isForbidden (c : Char) : Bool :=
  (c.toNat < 0x20 && c ≠ '\t') || c.toNat = 0x7f

/-- Whether a character is a blank inside a line. -/
def isBlank (c : Char) : Bool :=
  c = ' ' || c = '\t'

/-- The characters that a backslash and one letter or sign stand for. -/
def simpleEscapes : List (Char × Char) :=
  [('b', '\x08'), ('t', '\t'), ('n', '\n'), ('f', '\x0c'), ('r', '\r'), ('e', '\x1b'),
   ('\x22', '\x22'), ('\\', '\\')]

/-- The number of characters of the numeral after a letter that stands for a code point. -/
def codeLength? : Char → Option Nat
  | 'x' => some 2
  | 'u' => some 4
  | 'U' => some 8
  | _ => none

/-- The character whose code point a numeral in base sixteen spells. Halves of a pair are no
characters; in their place stands the mark for one that is missing. -/
def charOfCode? (numeral : List Char) : Option Char :=
  match Text.Numeral.readWhole 16 numeral with
  | some (.ofNat code) =>
    if h : code.isValidChar then some (Char.ofNatAux code h)
    else if code < 0x110000 then some '\ufffd'
    else none
  | _ => none

/-- Whether a numeral is seen at its front to spell half of a pair. -/
def beginsHalf : List Char → Bool
  | first :: second :: _ :: _ =>
    (first = 'd' || first = 'D') && !('0' ≤ second && second ≤ '7')
  | _ => false

/-- Reads an escape after its backslash. -/
def readEscape : List Char → Reading Char
  | [] => none
  | c :: rest =>
    match codeLength? c with
    | none => (simpleEscapes.lookup c).map fun meant ↦ (meant, rest)
    | some length =>
      let numeral := rest.take length
      if numeral.length < length || beginsHalf numeral then none
      else (charOfCode? numeral).map fun meant ↦ (meant, rest.drop length)

/-- Puts a character before what was read. -/
def prepend (c : Char) (found : List Char × List Char) : List Char × List Char :=
  (c :: found.1, found.2)

/-- Reads a string on one line after its opening double quote. `fuel` bounds the number of
characters. -/
def readBasic (fuel : Nat) (text : List Char) : Reading (List Char) :=
  match fuel, text with
  | fuel + 1, c :: rest =>
    if c = '\x22' then some ([], rest)
    else if c = '\\' then
      match readEscape rest with
      | some (meant, after) => (readBasic fuel after).map (prepend meant)
      | none => none
    else if isForbidden c then none
    else (readBasic fuel rest).map (prepend c)
  | _, _ => none

/-- Reads a string on one line after its opening single quote. -/
def readLiteral : List Char → Reading (List Char)
  | [] => none
  | c :: rest =>
    if c = '\x27' then some ([], rest)
    else if isForbidden c then none
    else (readLiteral rest).map (prepend c)

/-- The end of a tall string, if the text begins with three of its quotes; up to two more quotes
before the end belong to the string. -/
def readTallEnd? (quote : Char) (text : List Char) : Reading (List Char) :=
  let count := ((text.takeWhile (· = quote)).take 5).length
  if count < 3 then none else some (List.replicate (count - 3) quote, text.drop count)

/-- Whether only blanks stand before the end of the line. -/
def endsLine (text : List Char) : Bool :=
  (text.dropWhile isBlank).head? = some '\n'

/-- Reads a tall string with escapes. A backslash at the end of a line takes all blanks and line
feeds after it away. -/
def readTallBasic (fuel : Nat) (text : List Char) : Reading (List Char) :=
  match fuel, text with
  | fuel + 1, c :: rest =>
    match readTallEnd? '\x22' text with
    | some found => some found
    | none =>
      if c = '\\' then
        if endsLine rest then readTallBasic fuel (rest.dropWhile fun c ↦ isBlank c || c = '\n')
        else
          match readEscape rest with
          | some (meant, after) => (readTallBasic fuel after).map (prepend meant)
          | none => none
      else if isForbidden c && c ≠ '\n' then none
      else (readTallBasic fuel rest).map (prepend c)
  | _, _ => none

/-- Reads a tall string without escapes. -/
def readTallLiteral (text : List Char) : Reading (List Char) :=
  match text with
  | [] => none
  | c :: rest =>
    match readTallEnd? '\x27' text with
    | some found => some found
    | none =>
      if isForbidden c && c ≠ '\n' then none else (readTallLiteral rest).map (prepend c)

/-- A line feed at the beginning of a tall string does not belong to it. -/
def dropFirstLineFeed : List Char → List Char
  | '\n' :: rest => rest
  | text => text

/-- Reads a string of any kind; none if the text does not begin with a quote. -/
def readString? (text : List Char) : Reading String :=
  let chars :=
    match text with
    | '\x22' :: '\x22' :: '\x22' :: rest => readTallBasic text.length (dropFirstLineFeed rest)
    | '\x27' :: '\x27' :: '\x27' :: rest => readTallLiteral (dropFirstLineFeed rest)
    | '\x22' :: rest => readBasic text.length rest
    | '\x27' :: rest => readLiteral rest
    | _ => none
  chars.map fun found ↦ (String.ofList found.1, found.2)

end HelpSheet.Toml
