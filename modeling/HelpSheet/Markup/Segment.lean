import HelpSheet.Markup.Glyph

/-!
# Rich text

Documentation text is a flat sequence of segments: literal text, bold, italic, code, and links.
Segments do not nest. A segment of any kind may carry a URL; only a link shows it. Rich text can be
written as markup again: literal text, the content of spans and URLs are escaped, and code is
written as it is.
-/

set_option autoImplicit false
set_option relaxedAutoImplicit false

namespace HelpSheet.Markup

/-- The kinds of segments. -/
inductive SegmentKind
  | plain | bold | italic | code | link
  deriving DecidableEq, Repr

namespace SegmentKind

def all : List SegmentKind :=
  [plain, bold, italic, code, link]

def name : SegmentKind → String
  | plain => "plain"
  | bold => "bold"
  | italic => "italic"
  | code => "code"
  | link => "link"

def ofName? (name : String) : Option SegmentKind :=
  all.find? fun kind ↦ kind.name = name

end SegmentKind

/-- A piece of text of one kind, without the marks that delimit it. -/
structure Segment where
  kind : SegmentKind
  content : String
  url : String := ""
  deriving DecidableEq, Repr

/-- A sequence of segments. -/
abbrev RichText := List Segment

namespace RichText

/-- The visible text. -/
def plainText (text : RichText) : String :=
  String.join (text.map Segment.content)

/-- Whether there is any visible text. -/
def isVisible (text : RichText) : Bool :=
  text.any fun segment ↦ segment.content ≠ ""

end RichText

/-! ### Writing markup -/

/-- The mark around code, as a string. -/
def codeMarkString : String := String.singleton codeMark

/-- A segment between its marks. -/
def Segment.source (segment : Segment) : String :=
  match segment.kind with
  | .plain => literal segment.content
  | .bold => "**" ++ literal segment.content ++ "**"
  | .italic => "*" ++ literal segment.content ++ "*"
  | .code => codeMarkString ++ segment.content ++ codeMarkString
  | .link => "[" ++ literal segment.content ++ "](" ++ literal segment.url ++ ")"

/-- Rich text as markup. -/
def RichText.source (text : RichText) : String :=
  String.join (text.map Segment.source)

end HelpSheet.Markup
