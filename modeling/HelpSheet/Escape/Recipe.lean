/-!
# Text in recipe lines

A recipe line prints text with the format `%b` from between double quotes. On its way to the
terminal the text passes three readers: make halves dollar signs, the shell drops the backslashes
that quote, and the format expands backslash sequences. The escaped text holds no line break, tab or
escape character. Other words of a recipe are quoted for the shell alone: a word made of letters,
digits and a few signs needs no quotes, and any other one goes between single quotes; a single quote
inside it is written between double quotes.
-/

set_option autoImplicit false
set_option relaxedAutoImplicit false

namespace HelpSheet.Escape

/-! ### Printed text -/

namespace Recipe

/-- The escaped form of one character. -/
def escapeChar (c : Char) : List Char :=
  match c with
  | '$' => ['$', '$']
  | '\x22' => ['\\', '\x22']
  | '\\' => ['\\', '\\']
  | '\x60' => ['\\', '\x60']
  | '\n' => ['\\', 'n']
  | '\r' => ['\\', 'r']
  | '\t' => ['\\', 't']
  | '\x1b' => ['\\', '0', '3', '3']
  | _ => [c]

/-- The escaped form of a text. -/
def escape (text : List Char) : List Char :=
  text.flatMap escapeChar

/-- Reads escaped text back. Characters that begin no escaped form stand for themselves. -/
def unescape : List Char → List Char
  | '$' :: '$' :: rest => '$' :: unescape rest
  | '\\' :: '\x22' :: rest => '\x22' :: unescape rest
  | '\\' :: '\\' :: rest => '\\' :: unescape rest
  | '\\' :: '\x60' :: rest => '\x60' :: unescape rest
  | '\\' :: 'n' :: rest => '\n' :: unescape rest
  | '\\' :: 'r' :: rest => '\r' :: unescape rest
  | '\\' :: 't' :: rest => '\t' :: unescape rest
  | '\\' :: '0' :: '3' :: '3' :: rest => '\x1b' :: unescape rest
  | c :: rest => c :: unescape rest
  | [] => []

/-- Escaping a string. -/
def escaped (text : String) : String :=
  String.ofList (escape text.toList)

/-- Reading an escaped string. -/
def unescaped (text : String) : String :=
  String.ofList (unescape text.toList)

end Recipe

/-! ### Words of the shell -/

namespace Shell

/-- Whether the shell reads the character as itself without quotes. -/
def isPlain (c : Char) : Bool :=
  c.isAlphanum || ['_', '@', '%', '+', '=', ':', ',', '.', '/', '-'].contains c

/-- One character between single quotes: a single quote leaves them, stands between double quotes
and enters them again. -/
def quoteChar (c : Char) : List Char :=
  if c = '\x27' then ['\x27', '\x22', '\x27', '\x22', '\x27'] else [c]

/-- The text as one word. -/
def quoteWord (text : List Char) : List Char :=
  if !text.isEmpty && text.all isPlain then text
  else '\x27' :: text.flatMap quoteChar ++ ['\x27']

/-- A string as one word. -/
def quoted (text : String) : String :=
  String.ofList (quoteWord text.toList)

end Shell

end HelpSheet.Escape
