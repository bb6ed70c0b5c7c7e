import HelpSheet.Toml.Scalar
import HelpSheet.Toml.Section

/-!
# Reading TOML

A document is a sequence of headers and pairs, one on a line, with comments and empty lines between
them. Arrays and inline tables may go over several lines, and a comma may follow their last part. An
item of an array that breaks off at a closing bracket is dropped, and the bracket closes the array.
-/

set_option autoImplicit false
set_option relaxedAutoImplicit false

namespace HelpSheet.Toml

/-! ### Faults -/

/-- Why a value cannot be read. A closing bracket where something else should stand is told apart,
with the text after it. -/
inductive Fault
  | malformed
  | strayBracket (rest : List Char)
  | conflict (conflict : Conflict)

/-- The fault of a text whose first character should be another one. -/
def unexpected : List Char → Fault
  | ']' :: rest => .strayBracket rest
  | _ => .malformed

/-- The fault as that of a whole document. -/
def Fault.error : Fault → Error
  | .malformed => .malformed
  | .strayBracket _ => .malformed
  | .conflict cause => .conflict cause

/-! ### Space -/

/-- The text after the blanks at its front. -/
def skipBlanks (text : List Char) : List Char :=
  text.dropWhile isBlank

/-- The text after blanks, line feeds and comments; `inComment` says whether it begins inside a
comment. -/
def skipGap (inComment : Bool) : List Char → Option (List Char)
  | [] => some []
  | c :: rest =>
    if inComment then
      if c = '\n' then skipGap false rest
      else if isForbidden c then none
      else skipGap true rest
    else if isBlank c || c = '\n' then skipGap false rest
    else if c = '#' then skipGap true rest
    else some (c :: rest)

/-- The text after the end of a line, before which only blanks and a comment may stand. -/
def skipLineEnd (text : List Char) : Option (List Char) :=
  match skipBlanks text with
  | [] => some []
  | c :: rest =>
    if c = '\n' then some rest
    else if c = '#' then
      let (comment, rest) := rest.span fun c ↦ c ≠ '\n'
      if comment.any isForbidden then none else some (rest.drop 1)
    else none

/-- Skips a gap between the parts of a value. -/
def afterGap (text : List Char) : Except Fault (List Char) :=
  match skipGap false text with
  | some rest => .ok rest
  | none => .error .malformed

/-! ### Keys -/

/-- Whether a character may stand in a name without quotes. -/
def isBare (c : Char) : Bool :=
  c.isAlphanum || c = '_' || c = '-'

/-- Reads a name without quotes and the blanks around it. Inside of it there may be tabs, but no
spaces. -/
def readBareName (text : List Char) : Except Fault (String × List Char) :=
  let (run, rest) := text.span fun c ↦ isBare c || isBlank c
  let name := ((skipBlanks run).reverse.dropWhile isBlank).reverse
  if name.isEmpty || name.contains ' ' then .error .malformed
  else .ok (String.ofList name, rest)

/-- Whether a text begins with three quotes of one kind. -/
def isTall : List Char → Bool
  | first :: second :: third :: _ => first = second && first = third
  | _ => false

/-- Reads a name and the blanks around it. Tall strings are no names. -/
def readName (text : List Char) : Except Fault (String × List Char) :=
  let text := skipBlanks text
  if text.head? = some '\x22' || text.head? = some '\x27' then
    match readString? text with
    | none => .error .malformed
    | some (name, rest) =>
      if isTall text then .error (unexpected rest) else .ok (name, skipBlanks rest)
  else readBareName text

/-- Reads a key: at most `count` names with dots between them. -/
def readNames (count : Nat) (text : List Char) : Except Fault (Key × List Char) :=
  match count with
  | 0 => .error .malformed
  | count + 1 => do
    let (name, rest) ← readName text
    match rest with
    | '.' :: after => do
      let (names, rest) ← readNames count after
      pure (name :: names, rest)
    | _ => pure ([name], rest)

/-- Reads a key. -/
def readKey (text : List Char) : Except Fault (Key × List Char) :=
  readNames depthLimit text

/-- Reads the key of a pair and the sign after it. -/
def readPairKey (text : List Char) : Except Fault (Key × List Char) := do
  let (key, rest) ← readKey text
  match rest with
  | '=' :: after => pure (key, skipBlanks after)
  | _ => throw (unexpected rest)

/-! ### Values -/

mutual

/-- Reads a value at the front of a text, with at most `depth` brackets around each other. `fuel`
bounds the number of steps; every opening bracket takes two of them, every other character at most
one. -/
def readValue (fuel depth : Nat) (text : List Char) : Except Fault (Value × List Char) :=
  match fuel with
  | 0 => .error .malformed
  | fuel + 1 =>
    match text with
    | [] => .error .malformed
    | c :: rest =>
      if c = '\x22' || c = '\x27' then
        match readString? text with
        | some (content, after) => .ok (.text content, after)
        | none => .error .malformed
      else if c = '[' || c = '\x7b' then
        match depth with
        | 0 => .error .malformed
        | depth + 1 =>
          if c = '[' then do
            let (items, after) ← readItems fuel depth rest
            pure (.array items, after)
          else do
            let rest ← afterGap rest
            match rest with
            | '\x7d' :: after => pure (.table [], after)
            | _ =>
              let (entries, after) ← readPairs fuel depth [] rest
              match finished entries with
              | .ok entries => pure (.table entries, after)
              | .error conflict => throw (.conflict conflict)
      else
        match readWord text with
        | some found => .ok found
        | none => .error (unexpected text)

/-- Reads the items of an array up to its closing bracket. -/
def readItems (fuel depth : Nat) (text : List Char) : Except Fault (List Value × List Char) :=
  match fuel with
  | 0 => .error .malformed
  | fuel + 1 => do
    let text ← afterGap text
    match readValue fuel depth text with
    | .error (.strayBracket after) => pure ([], after)
    | .error fault => throw fault
    | .ok (item, rest) =>
      match ← afterGap rest with
      | ']' :: after => pure ([item], after)
      | ',' :: after => do
        let (items, after) ← readItems fuel depth after
        pure (item :: items, after)
      | _ => throw .malformed

/-- Reads the pairs of an inline table up to its closing brace, after the pairs that `entries` come
from. -/
def readPairs (fuel depth : Nat) (entries : Entries) (text : List Char) :
    Except Fault (Entries × List Char) :=
  match fuel with
  | 0 => .error .malformed
  | fuel + 1 => do
    let (key, text) ← readPairKey text
    let (value, text) ← readValue fuel depth text
    match enterPair true key value entries with
    | .error conflict => throw (.conflict conflict)
    | .ok entries => do
      let text ← afterGap text
      match text with
      | '\x7d' :: after => pure (entries, after)
      | ',' :: after => do
        let text ← afterGap after
        match text with
        | '\x7d' :: after => pure (entries, after)
        | _ => readPairs fuel depth entries text
      | _ => throw (unexpected text)

end

/-! ### Statements -/

/-- A fault as the last statement; nothing is read after it. -/
def faultAt (header : Option Header) (fault : Fault) : Statement × List Char :=
  (.fault header fault.error, [])

/-- Reads what follows the key of a header: one closing bracket, or two after the header of an item,
and the end of the line. -/
def readHeaderEnd (header : Header) (text : List Char) : Statement × List Char :=
  let after :=
    match header.item, text with
    | false, ']' :: after => skipLineEnd after
    | true, ']' :: ']' :: after => skipLineEnd after
    | _, _ => none
  match after with
  | some rest => (.header header, rest)
  | none => faultAt (some header) .malformed

/-- Reads a header after its first bracket. -/
def readHeader (text : List Char) : Statement × List Char :=
  let item := text.head? = some '['
  match readKey (if item then text.drop 1 else text) with
  | .ok (key, rest) => readHeaderEnd ⟨key, item⟩ rest
  | .error fault => faultAt none fault

/-- Reads a pair on a line. -/
def readPair (text : List Char) : Statement × List Char :=
  let found := do
    let (key, rest) ← readPairKey text
    let (value, rest) ← readValue (2 * rest.length + 2) depthLimit rest
    pure (key, value, rest)
  match found with
  | .error fault => faultAt none fault
  | .ok (key, value, rest) =>
    match skipLineEnd rest with
    | some after => (.pair key value, after)
    | none => faultAt none .malformed

/-- Reads the statements of a document. `fuel` bounds their number. -/
def readStatements (fuel : Nat) (text : List Char) : List Statement :=
  match skipGap false text, fuel with
  | none, _ => [.fault none .malformed]
  | some [], _ => []
  | _, 0 => [.fault none .malformed]
  | some ('[' :: rest), fuel + 1 =>
    let (statement, after) := readHeader rest
    statement :: readStatements fuel after
  | some rest, fuel + 1 =>
    let (statement, after) := readPair rest
    statement :: readStatements fuel after

/-- The entries of the table that a document spells. -/
def parse (text : String) : Except Error (List (String × Value)) :=
  evaluate (readStatements text.length text.toList)

end HelpSheet.Toml
