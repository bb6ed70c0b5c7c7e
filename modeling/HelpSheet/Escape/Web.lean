import HelpSheet.Text.Character

/-!
# Text and links on web pages

Text as element content or as an attribute value between double quotes: five characters are written
as entities. A link may lead to an `http` or `https` address or to a path. Any other scheme could
run a program in the reader's browser, so a URL whose first colon comes before every slash is
refused unless it begins with one of the two schemes.
-/

set_option autoImplicit false
set_option relaxedAutoImplicit false

namespace HelpSheet.Escape

/-! ### Text -/

namespace Html

/-- The HTML form of one character. -/
def escapeChar (c : Char) : List Char :=
  match c with
  | '&' => ['&', 'a', 'm', 'p', ';']
  | '<' => ['&', 'l', 't', ';']
  | '>' => ['&', 'g', 't', ';']
  | '\x22' => ['&', 'q', 'u', 'o', 't', ';']
  | '\x27' => ['&', '#', 'x', '2', '7', ';']
  | _ => [c]

/-- The HTML form of a text. -/
def escape (text : List Char) : List Char :=
  text.flatMap escapeChar

/-- Escaping a string. -/
def escaped (text : String) : String :=
  String.ofList (escape text.toList)

end Html

/-! ### Links -/

namespace Url

/-- Whether the URL begins with one of the two schemes, in either letter case. -/
def hasWebScheme (url : List Char) : Bool :=
  "http://".toList.isPrefixOf (Text.lower url) || "https://".toList.isPrefixOf (Text.lower url)

/-- Whether every colon comes after a slash. -/
def isPathReference (url : List Char) : Bool :=
  !(url.takeWhile (· ≠ '/')).contains ':'

/-- Whether a link may lead to the URL. -/
def isSafe (url : List Char) : Bool :=
  !url.isEmpty && (hasWebScheme url || isPathReference url)

/-- The check on a string. -/
def safe (url : String) : Bool :=
  isSafe url.toList

end Url

end HelpSheet.Escape
