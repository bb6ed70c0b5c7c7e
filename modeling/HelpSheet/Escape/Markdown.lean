/-!
# Text in Markdown

Names, paths and headings are literal: a backslash goes before every character that can start
Markdown syntax. Code spans know no backslashes; a span is fenced by more backticks than any run
inside it has, and padded where its content touches a fence.
-/

set_option autoImplicit false
set_option relaxedAutoImplicit false

namespace HelpSheet.Escape.Markdown

/-- The mark that fences code. -/
def backtick : Char := '\x60'

/-- Whether a backslash goes before the character. -/
def isSpecial (c : Char) : Bool :=
  c = '*' || c = '_' || c = backtick || c = '[' || c = ']' || c = '(' || c = ')' || c = '#'

/-- A text with a backslash before every special character. -/
def escape (text : List Char) : List Char :=
  text.flatMap fun c ↦ if isSpecial c then ['\\', c] else [c]

/-- Escaping a string. -/
def escaped (text : String) : String :=
  String.ofList (escape text.toList)

/-- The length of the longest run of backticks, where `current` backticks stand just before the text
and `longest` is the length of the longest run before these. -/
def longestRun (current longest : Nat) : List Char → Nat
  | [] => max current longest
  | c :: rest =>
    if c = backtick then longestRun (current + 1) longest rest
    else longestRun 0 (max current longest) rest

/-- The fence for a text: one backtick more than in its longest run. -/
def fence (text : List Char) : List Char :=
  List.replicate (longestRun 0 0 text + 1) backtick

/-- Whether the text begins or ends with a backtick. -/
def touchesFence (text : List Char) : Bool :=
  text.head? = some backtick || text.getLast? = some backtick

/-- What stands between the fences. -/
def spanContent (text : List Char) : List Char :=
  if touchesFence text then ' ' :: text ++ [' '] else text

/-- A text as a code span. -/
def codeSpan (text : List Char) : List Char :=
  fence text ++ spanContent text ++ fence text

/-- A string as a code span. -/
def codeSpanned (text : String) : String :=
  String.ofList (codeSpan text.toList)

end HelpSheet.Escape.Markdown
