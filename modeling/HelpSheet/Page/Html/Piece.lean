import HelpSheet.Escape.Web

/-!
# Pieces of HTML

An HTML document is a sequence of tags and texts. Only here are they turned into characters: all
text and every attribute value is escaped when it is written, so nothing but a tag of the document
can begin with an angle bracket. The style rules are those that a colored page carries in its head.
-/

set_option autoImplicit false
set_option relaxedAutoImplicit false

namespace HelpSheet.Page.Html

/-! ### The stylesheet -/

/-- A style rule: what it applies to, and its declarations. -/
structure StyleRule where
  selector : String
  declarations : List String
  deriving DecidableEq, Repr

/-- The rule for the page as a whole. -/
def pageRule : StyleRule where
  selector := "body"
  declarations :=
    ["font-family: -apple-system, \"Segoe UI\", Roboto, Arial, sans-serif",
     "max-width: 960px",
     "margin: 2em auto",
     "padding: 0 1em",
     "line-height: 1.6",
     "color: #333"]

/-- The rules for parts of the page. -/
def partRules : List StyleRule :=
  [⟨"h1", ["color: #2c3e50", "border-bottom: 2px solid #3498db", "padding-bottom: 0.5em"]⟩,
   ⟨"h2", ["color: #34495e", "margin-top: 1.5em", "border-bottom: 1px solid #ecf0f1"]⟩,
   ⟨"h3", ["color: #34495e", "margin-top: 1em"]⟩,
   ⟨"pre, code", ["background-color: #f8f8f8", "border-radius: 3px"]⟩,
   ⟨"pre", ["border: 1px solid #ddd", "padding: 1em", "overflow-x: auto"]⟩,
   ⟨"code",
    ["padding: 0.2em 0.4em", "font-family: Menlo, Consolas, monospace", "font-size: 0.9em"]⟩,
   ⟨"ul", ["list-style-type: none", "padding-left: 0"]⟩,
   ⟨".category", ["margin-bottom: 2em"]⟩,
   ⟨".target", ["margin: 0.5em 0"]⟩,
   ⟨".target-name", ["font-weight: bold", "color: #27ae60"]⟩,
   ⟨".alias", ["color: #d68910", "font-style: italic"]⟩,
   ⟨".summary", ["color: #555"]⟩,
   ⟨".variables", ["color: #7f8c8d", "font-size: 0.9em", "margin: 0.2em 0 0.5em 1.5em"]⟩,
   ⟨".variable", ["color: #8e44ad"]⟩,
   ⟨".description p, .documentation p, .file p", ["margin: 0.5em 0"]⟩,
   ⟨".file", ["margin-bottom: 1.5em"]⟩,
   ⟨".source", ["margin-top: 1em", "color: #7f8c8d", "font-size: 0.9em"]⟩,
   ⟨".no-docs", ["color: #95a5a6", "font-style: italic"]⟩]

/-- A rule on several lines. -/
def StyleRule.writeTall (rule : StyleRule) : String :=
  "    " ++ rule.selector ++ " \x7b\n" ++
    String.join (rule.declarations.map fun declaration ↦ "      " ++ declaration ++ ";\n") ++
    "    \x7d\n"

/-- A rule on one line. -/
def StyleRule.writeFlat (rule : StyleRule) : String :=
  "    " ++ rule.selector ++ " \x7b" ++
    String.join (rule.declarations.map fun declaration ↦ " " ++ declaration ++ ";") ++ " \x7d\n"

/-- The text of the stylesheet. -/
def stylesheet : String :=
  pageRule.writeTall ++ String.join (partRules.map StyleRule.writeFlat)

/-! ### Elements -/

/-- The elements that have a start tag and an end tag. -/
inductive Element
  | document | head | title | style | body
  | part | division | heading1 | heading2 | heading3 | paragraph | preformatted
  | list | listItem
  | span | strong | emphasis | code | anchor
  deriving DecidableEq, Repr

/-- The name of an element in its tags. -/
def Element.name : Element → String
  | document => "html"
  | head => "head"
  | title => "title"
  | style => "style"
  | body => "body"
  | part => "section"
  | division => "div"
  | heading1 => "h1"
  | heading2 => "h2"
  | heading3 => "h3"
  | paragraph => "p"
  | preformatted => "pre"
  | list => "ul"
  | listItem => "li"
  | span => "span"
  | strong => "strong"
  | emphasis => "em"
  | code => "code"
  | anchor => "a"

/-- The elements that have a start tag only. -/
inductive LoneElement
  | lineBreak
  | metadata
  deriving DecidableEq, Repr

def LoneElement.name : LoneElement → String
  | lineBreak => "br"
  | metadata => "meta"

/-- The attributes that start tags carry. -/
inductive AttributeName
  | group
  | destination
  | charset
  deriving DecidableEq, Repr

def AttributeName.text : AttributeName → String
  | group => "class"
  | destination => "href"
  | charset => "charset"

/-- An attribute and its value. -/
structure Attribute where
  name : AttributeName
  value : String
  deriving DecidableEq, Repr

/-- A piece of an HTML document. -/
inductive Piece
  | declaration
  | opening (element : Element) (attributes : List Attribute)
  | closing (element : Element)
  | lone (element : LoneElement) (attributes : List Attribute)
  | text (content : String)
  | stylesheet
  deriving DecidableEq, Repr

/-- An attribute in a tag, after a blank. -/
def Attribute.write (entry : Attribute) : String :=
  " " ++ entry.name.text ++ "=\"" ++ Escape.Html.escaped entry.value ++ "\""

/-- A start tag. -/
def writeTag (name : String) (attributes : List Attribute) : String :=
  "<" ++ name ++ String.join (attributes.map Attribute.write) ++ ">"

/-- The characters of a piece. -/
def Piece.write : Piece → String
  | declaration => "<!DOCTYPE html>"
  | opening element attributes => writeTag element.name attributes
  | closing element => "</" ++ element.name ++ ">"
  | lone element attributes => writeTag element.name attributes
  | text content => Escape.Html.escaped content
  | stylesheet => Html.stylesheet

/-- The characters of a sequence of pieces. -/
def writeAll (pieces : List Piece) : String :=
  String.join (pieces.map Piece.write)

/-! ### Short forms -/

/-- The start tag of an element without attributes. -/
def start (element : Element) : Piece :=
  .opening element []

/-- The start tag of an element that belongs to a class of the stylesheet. -/
def startOf (element : Element) (group : String) : Piece :=
  .opening element [⟨.group, group⟩]

/-- Pieces between the tags of an element. -/
def inside (element : Element) (content : List Piece) : List Piece :=
  start element :: content ++ [.closing element]

/-- A text between the tags of an element. -/
def around (element : Element) (content : String) : List Piece :=
  inside element [.text content]

/-- Pieces between the tags of an element that belongs to a class. -/
def insideOf (element : Element) (group : String) (content : List Piece) : List Piece :=
  startOf element group :: content ++ [.closing element]

/-- The indentation of a line. -/
def indent (depth : Nat) : Piece :=
  .text (String.ofList (List.replicate (2 * depth) ' '))

/-- The end of a line. -/
def lineEnd : Piece :=
  .text "\n"

/-- Pieces on a line of their own. -/
def lineOf (depth : Nat) (content : List Piece) : List Piece :=
  indent depth :: content ++ [lineEnd]

end HelpSheet.Page.Html
