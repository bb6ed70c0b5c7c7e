import HelpSheet.Escape.Web
import HelpSheet.Markup.Summary
import HelpSheet.Page.Format

/-!
# Chunks and links

A page is written in chunks. What a chunk holds does not depend on the chunks before it, so a page
is the list of its chunks; each one comes with the notes taken while it is made. A page leads
readers only to safe URLs. Every other link is shown as its text alone, and a note is taken of it.
-/

set_option autoImplicit false
set_option relaxedAutoImplicit false

namespace HelpSheet.Page

/-! ### Chunks -/

/-- A piece of output. -/
structure Chunk where
  text : String
  notes : List Log.Note := []
  deriving DecidableEq, Repr

namespace Chunk

/-- The chunk with its text changed. -/
def mapText (change : String → String) (chunk : Chunk) : Chunk :=
  { chunk with text := change chunk.text }

/-- The text of a page. -/
def pageText (chunks : List Chunk) : String :=
  String.join (chunks.map text)

/-- The notes of a page. -/
def pageNotes (chunks : List Chunk) : List Log.Note :=
  chunks.flatMap notes

end Chunk

/-! ### Links -/

/-- Whether a segment is a link that is shown as its text alone. -/
def isRefused (segment : Markup.Segment) : Bool :=
  segment.kind = .link && !Escape.Url.safe segment.url

/-- Where notes on links are taken: Markdown pages and documents have writers of their own. -/
def linkLine : Format → Nat
  | .html => 74
  | _ => 54

/-- The note on a link that is shown as its text alone. -/
def refusedNote (channel : Log.Channel) (format : Format) (segment : Markup.Segment) :
    Log.Note where
  level := .debug
  channel := channel
  line := linkLine format
  message := format.name ++ ": unsafe link URL " ++ Text.quoted segment.url ++ " rendered as text"

/-- The notes on the links of a text. -/
def linkNotes (channel : Log.Channel) (format : Format) (text : Markup.RichText) : List Log.Note :=
  (text.filter isRefused).map (refusedNote channel format)

/-- The segments of a text, each written by the entry of a table for its kind; none where a kind has
no entry. -/
def throughTable? {α : Type} (table : List (Markup.SegmentKind × (Markup.Segment → α)))
    (text : Markup.RichText) : Option (List α) :=
  text.mapM fun segment ↦ (table.lookup segment.kind).map fun write ↦ write segment

/-- The notes on a documentation line: those of reading it, then those on its links. -/
def lineNotes (channel : Log.Channel) (format : Format) (raw : String) : List Log.Note :=
  Markup.readingNotes raw ++ linkNotes channel format (Markup.parse raw)

end HelpSheet.Page
