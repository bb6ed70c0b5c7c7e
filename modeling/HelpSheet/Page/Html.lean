import HelpSheet.Outline.Assemble
import HelpSheet.Page.Chunk
import HelpSheet.Page.Html.Piece
import HelpSheet.Text.Blank

/-!
# HTML pages

A page is a whole document. Documentation keeps its markup as inline elements; a link whose URL is
not safe is shown as its text alone. A colored page carries a stylesheet in its head.
-/

set_option autoImplicit false
set_option relaxedAutoImplicit false

namespace HelpSheet.Page.Html

open HelpSheet.Text (joinWith)

/-! ### Inline text -/

/-- A link as an anchor, or as its text alone. -/
def linkPieces (segment : Markup.Segment) : List Piece :=
  if Escape.Url.safe segment.url then
    [.opening .anchor [⟨.destination, segment.url⟩], .text segment.content, .closing .anchor]
  else [.text segment.content]

/-- A segment as inline elements. -/
def segmentPieces (segment : Markup.Segment) : List Piece :=
  match segment.kind with
  | .plain => [.text segment.content]
  | .bold => around .strong segment.content
  | .italic => around .emphasis segment.content
  | .code => around .code segment.content
  | .link => linkPieces segment

/-- Rich text as inline elements. -/
def inlinePieces (text : Markup.RichText) : List Piece :=
  text.flatMap segmentPieces

/-- How the segments of each kind are written. -/
def segmentTable : List (Markup.SegmentKind × (Markup.Segment → List Piece)) :=
  [(.plain, fun segment ↦ [.text segment.content]),
   (.bold, fun segment ↦ around .strong segment.content),
   (.italic, fun segment ↦ around .emphasis segment.content),
   (.code, fun segment ↦ around .code segment.content),
   (.link, linkPieces)]

/-- Rich text as inline elements, looked up segment by segment. -/
def inlinePieces? (text : Markup.RichText) : Option (List Piece) :=
  (throughTable? segmentTable text).map List.flatten

/-- The notes on the links of a text. -/
def inlineNotes (text : Markup.RichText) : List Log.Note :=
  linkNotes .html .html text

/-- The notes on a documentation line. -/
def bodyNotes (raw : String) : List Log.Note :=
  lineNotes .html .html raw

/-! ### Blocks -/

/-- Pieces that are written at once, and the notes taken while they are made. -/
structure Block where
  pieces : List Piece
  notes : List Log.Note := []
  deriving DecidableEq, Repr

/-- The chunk of a block. -/
def Block.chunk (block : Block) : Chunk where
  text := writeAll block.pieces
  notes := block.notes

/-- A documentation line with its content as a paragraph; an empty line as a break. -/
def paragraph (depth : Nat) (raw : String) (content : List Piece) : Block :=
  if raw = "" then { pieces := lineOf depth [.lone .lineBreak []] }
  else { pieces := lineOf depth (inside .paragraph content), notes := bodyNotes raw }

/-- The lines of pieces under a label in strong type, in a division of a class. -/
def labelled (group label content : String) : List Piece :=
  lineOf 1 [startOf .division group] ++
    lineOf 2 (around .strong label ++ [.text (" " ++ content)]) ++
    lineOf 1 [.closing .division]

/-- Texts with commas between them. -/
def listed (names : List String) : Piece :=
  .text (joinWith ", " names)

/-- Groups of pieces with commas between them. -/
def commaSeparated (groups : List (List Piece)) : List Piece :=
  (groups.intersperse [.text ", "]).flatten

/-- The aliases of a target in the list of targets. -/
def aliasPieces (names : List String) : List Piece :=
  if names.isEmpty then []
  else .text " " :: insideOf .span "alias" [.text "(", listed names, .text ")"]

/-- The content of a summary in the list of targets, if there is any. -/
def summaryPieces (content : List Piece) : List Piece :=
  if writeAll content = "" then [] else .text ": " :: insideOf .span "summary" content

/-- The name of a variable. -/
def variableName (name : String) : List Piece :=
  insideOf .code "variable" [.text name]

/-- The variables of a target in the list of targets. -/
def variablesPieces (usedVariables : List Variable) : List Piece :=
  if usedVariables.isEmpty then []
  else
    lineOf 5 [startOf .division "variables"] ++
      lineOf 6 (.text "Variables: " ::
        commaSeparated (usedVariables.map fun entry ↦ variableName entry.name)) ++
      lineOf 5 [.closing .division]

/-- A target in the list of targets, with the content of its summary. -/
def targetBlock (target : Target) (content : List Piece) : Block where
  pieces :=
    lineOf 4 [startOf .listItem "target"] ++
      lineOf 5 (insideOf .span "target-name" [.text target.name] ++ aliasPieces target.aliases ++
        summaryPieces content) ++
      variablesPieces target.usedVariables ++
      lineOf 4 [.closing .listItem]
  notes := inlineNotes target.summary

/-- A variable with the content of its description. -/
def variableBlock (entry : Variable) (content : List Piece) : Block :=
  let item (description : List Piece) :=
    lineOf 3 (inside .listItem (variableName entry.name ++ description))
  if entry.description = "" then { pieces := item [] }
  else
    { pieces := item (.text ": " :: content), notes := bodyNotes entry.description }

/-- A block without notes. -/
def silent (pieces : List Piece) : Option Block :=
  some { pieces }

/-- The start of a part with its heading. -/
def partStart (group heading : String) : List Piece :=
  lineOf 1 [startOf .part group] ++ lineOf 2 (around .heading2 heading)

/-- The block of an item, if it has one, with the content of its rich text and the place that it
names. -/
def blockOf (content : List Piece) (place : String) : Item → Option Block
  | .usage line =>
    silent (partStart "usage" "Usage" ++ lineOf 2 (around .preformatted line) ++
      lineOf 1 [.closing .part])
  | .descriptionStart _ =>
    silent (partStart "file-docs" "Description" ++ lineOf 2 [startOf .division "description"])
  | .descriptionLine line => some (paragraph 3 line content)
  | .descriptionEnd => silent (lineOf 2 [.closing .division] ++ lineOf 1 [.closing .part])
  | .includedStart => silent (partStart "included-files" "Included files")
  | .includedFile path =>
    silent (lineOf 2 [startOf .division "file"] ++ lineOf 3 (around .heading3 path))
  | .includedFileLine line => some (paragraph 3 line content)
  | .includedFileEnd _ => silent (lineOf 2 [.closing .division])
  | .includedEnd => silent (lineOf 1 [.closing .part])
  | .targetsStart => silent (partStart "targets" "Targets")
  | .categoryStart _ => silent (lineOf 2 [startOf .division "category"])
  | .categoryHeader name => silent (lineOf 3 (around .heading3 name))
  | .targetListStart => silent (lineOf 3 [start .list])
  | .target target => some (targetBlock target content)
  | .targetListEnd => silent (lineOf 3 [.closing .list])
  | .categoryEnd _ => silent (lineOf 2 [.closing .division])
  | .targetsEnd => silent (lineOf 1 [.closing .part])
  | .title name _ => silent (lineOf 1 (inside .heading1 [.text "Target: ", .text name]))
  | .aliases names => silent (labelled "aliases" "Aliases:" (joinWith ", " names))
  | .variablesStart =>
    silent (lineOf 1 [startOf .division "variables"] ++ lineOf 2 (around .strong "Variables:") ++
      lineOf 2 [start .list])
  | .variableEntry entry => some (variableBlock entry content)
  | .variablesEnd => silent (lineOf 2 [.closing .list] ++ lineOf 1 [.closing .division])
  | .separator => none
  | .documentationStart => silent (lineOf 1 [startOf .division "documentation"])
  | .documentationLine line => some (paragraph 2 line content)
  | .documentationEnd => silent (lineOf 1 [.closing .division])
  | .noDocumentation notice =>
    silent (lineOf 1 (insideOf .paragraph "no-docs" [.text notice]))
  | .source _ _ => silent (labelled "source" "Source:" place)

/-- The block of an item, if it has one. -/
def itemBlock (item : Item) : Option Block :=
  blockOf (inlinePieces item.richText) item.placeText item

/-! ### Documents -/

/-- The title of a page that shows an outline. -/
def titleOf : Outline → String
  | .title name _ :: _ => "Target: " ++ name
  | _ => Outline.helpTitle

/-- The heading of a help page. -/
def helpHeading : Block where
  pieces := lineOf 1 (around .heading1 Outline.helpTitle)

/-- The heading above an outline; the title of a target is part of its outline. -/
def headingBlocks : Outline → List Block
  | .title _ _ :: _ => []
  | _ => [helpHeading]

/-- The block of the stylesheet. -/
def styleBlocks (useColor : Bool) : List Block :=
  if useColor then
    [{ pieces := lineOf 1 [start .style, lineEnd, .stylesheet, indent 1, .closing .style] }]
  else []

/-- The blocks before the outline. -/
def openingBlocks (useColor : Bool) (title : String) : List Block :=
  [{ pieces :=
      [.declaration, lineEnd, start .document, lineEnd, start .head, lineEnd] },
   { pieces := lineOf 1 [.lone .metadata [⟨.charset, "UTF-8"⟩]] },
   { pieces := lineOf 1 (around .title title) }] ++
  styleBlocks useColor ++
  [{ pieces := [.closing .head, lineEnd, start .body, lineEnd] }]

/-- The block after the outline. -/
def closingBlock : Block where
  pieces := [.closing .body, lineEnd, .closing .document, lineEnd]

/-- The blocks of a document. -/
def documentBlocks (useColor : Bool) (outline : Outline) : List Block :=
  openingBlocks useColor (titleOf outline) ++ headingBlocks outline ++
    outline.filterMap itemBlock ++ [closingBlock]

/-- The chunks of an HTML page. -/
def chunks (useColor : Bool) (outline : Outline) : List Chunk :=
  (documentBlocks useColor outline).map Block.chunk

end HelpSheet.Page.Html
