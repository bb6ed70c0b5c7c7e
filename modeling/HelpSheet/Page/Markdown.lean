import HelpSheet.Escape.Markdown
import HelpSheet.Markup.Segment
import HelpSheet.Outline.Assemble
import HelpSheet.Page.Chunk
import HelpSheet.Text.Blank

/-!
# Markdown pages

Names, paths and headings are literal text, so everything in them that could be syntax is escaped.
Documentation is read as rich text and written again: its markup stays, literal text in it is
escaped, and a link whose URL is not safe is shown as its text alone.
-/

set_option autoImplicit false
set_option relaxedAutoImplicit false

namespace HelpSheet.Page.Markdown

open HelpSheet.Text (joinWith)
open Escape.Markdown (escaped codeSpanned)

/-! ### Documentation -/

/-- A link with its URL, or as its text alone. -/
def linkText (segment : Markup.Segment) : String :=
  if Escape.Url.safe segment.url then
    "[" ++ Markup.literal segment.content ++ "](" ++ Markup.literal segment.url ++ ")"
  else Markup.literal segment.content

/-- A segment in Markdown. -/
def segmentText (segment : Markup.Segment) : String :=
  match segment.kind with
  | .plain => Markup.literal segment.content
  | .bold => "**" ++ Markup.literal segment.content ++ "**"
  | .italic => "*" ++ Markup.literal segment.content ++ "*"
  | .code => codeSpanned segment.content
  | .link => linkText segment

/-- Rich text in Markdown. -/
def inlineText (text : Markup.RichText) : String :=
  String.join (text.map segmentText)

/-- How the segments of each kind are written. -/
def segmentTable : List (Markup.SegmentKind × (Markup.Segment → String)) :=
  [(.plain, fun segment ↦ Markup.literal segment.content),
   (.bold, fun segment ↦ "**" ++ Markup.literal segment.content ++ "**"),
   (.italic, fun segment ↦ "*" ++ Markup.literal segment.content ++ "*"),
   (.code, fun segment ↦ codeSpanned segment.content),
   (.link, linkText)]

/-- Rich text in Markdown, looked up segment by segment. -/
def inlineText? (text : Markup.RichText) : Option String :=
  (throughTable? segmentTable text).map String.join

/-- The notes on the links of a text. -/
def inlineNotes (text : Markup.RichText) : List Log.Note :=
  linkNotes .markdown .markdown text

/-- A documentation line in Markdown. -/
def bodyText (raw : String) : String :=
  inlineText (Markup.parse raw)

/-- The notes on a documentation line. -/
def bodyNotes (raw : String) : List Log.Note :=
  lineNotes .markdown .markdown raw

/-! ### Items -/

/-- A documentation line with its content as a line of the page. -/
def bodyLine (raw content : String) : Chunk where
  text := content ++ "\n"
  notes := bodyNotes raw

/-- Literal names with commas between them. -/
def listed (names : List String) : String :=
  joinWith ", " (names.map escaped)

/-- The aliases of a target in the list of targets. -/
def aliasList (names : List String) : String :=
  if names.isEmpty then "" else " _(" ++ listed names ++ ")_"

/-- What follows a colon, if there is anything. -/
def afterColon (text : String) : String :=
  if text = "" then "" else ": " ++ text

/-- The variables of a target in the list of targets. -/
def variableLine (entries : List Variable) : String :=
  if entries.isEmpty then ""
  else "  - Variables: " ++ joinWith ", " (entries.map fun entry ↦ codeSpanned entry.name) ++ "\n"

/-- A target in the list of targets, with the content of its summary. -/
def targetChunk (target : Target) (content : String) : Chunk where
  text :=
    "- **" ++ escaped target.name ++ "**" ++ aliasList target.aliases ++ afterColon content ++
      "\n" ++ variableLine target.usedVariables
  notes := inlineNotes target.summary

/-- A variable with the content of its description. -/
def variableChunk (entry : Variable) (content : String) : Chunk :=
  if entry.description = "" then { text := "- " ++ codeSpanned entry.name ++ "\n" }
  else
    { text := "- " ++ codeSpanned entry.name ++ ": " ++ content ++ "\n"
      notes := bodyNotes entry.description }

/-- A chunk without notes. -/
def silent (text : String) : Option Chunk :=
  some { text }

/-- The fence of a block of code. -/
def fence : String :=
  String.ofList (List.replicate 3 Escape.Markdown.backtick)

/-- The chunk of an item, if it has one, with the content of its rich text and the place that it
names. -/
def chunkOf (content place : String) : Item → Option Chunk
  | .usage line => silent ("## Usage\n\n" ++ fence ++ "\n" ++ line ++ "\n" ++ fence ++ "\n\n")
  | .descriptionStart _ => silent "## Description\n\n"
  | .descriptionLine line => some (bodyLine line content)
  | .descriptionEnd => silent "\n"
  | .includedStart => silent "## Included files\n\n"
  | .includedFile path => silent ("### " ++ escaped path ++ "\n\n")
  | .includedFileLine line => some (bodyLine line content)
  | .includedFileEnd _ => silent "\n"
  | .includedEnd => none
  | .targetsStart => silent "## Targets\n\n"
  | .categoryStart _ => none
  | .categoryHeader name => silent ("### " ++ escaped name ++ "\n\n")
  | .targetListStart => none
  | .target target => some (targetChunk target content)
  | .targetListEnd => none
  | .categoryEnd _ => silent "\n"
  | .targetsEnd => none
  | .title name _ => silent ("# Target: " ++ escaped name ++ "\n\n")
  | .aliases names => silent ("**Aliases:** " ++ listed names ++ "\n\n")
  | .variablesStart => silent "**Variables:**\n\n"
  | .variableEntry entry => some (variableChunk entry content)
  | .variablesEnd => silent "\n"
  | .separator => none
  | .documentationStart => silent "## Description\n\n"
  | .documentationLine line => some (bodyLine line content)
  | .documentationEnd => silent "\n"
  | .noDocumentation notice => silent ("_" ++ notice ++ "_\n\n")
  | .source _ _ => silent ("**Source:** " ++ codeSpanned place ++ "\n")

/-- The chunk of an item, if it has one. -/
def itemChunk (item : Item) : Option Chunk :=
  chunkOf (inlineText item.richText) item.placeText item

/-! ### Pages -/

/-- The heading of a help page. -/
def helpHeading : Chunk where
  text := "# " ++ Outline.helpTitle ++ "\n\n"

/-- The heading above an outline; the title of a target is part of its outline. -/
def headingChunks : Outline → List Chunk
  | .title _ _ :: _ => []
  | _ => [helpHeading]

/-- The chunks of a Markdown page. -/
def chunks (outline : Outline) : List Chunk :=
  headingChunks outline ++ outline.filterMap itemChunk

end HelpSheet.Page.Markdown
