import HelpSheet.Log.Note
import HelpSheet.Markup.Parse

/-!
# Summaries

The summary of a documentation block is the first sentence of its first line that is not blank. A
sentence ends with a full stop, an exclamation mark or a question mark before a blank or at the end
of the line. A full stop after another full stop ends no sentence, nor does any of the three inside
code. Reading a text that is too long for markup takes a note.
-/

set_option autoImplicit false
set_option relaxedAutoImplicit false

namespace HelpSheet.Markup

/-! ### The line that is summarized -/

/-- A line without the number signs of a heading and the blanks after them. Number signs that no
blank follows are kept. -/
def withoutHeadingMark (line : List Char) : List Char :=
  let afterSigns := line.dropWhile (· = '#')
  let afterBlanks := afterSigns.dropWhile Text.isBlank
  if afterSigns.length < line.length && afterBlanks.length < afterSigns.length then afterBlanks
  else line

/-- The first line with a character that is not blank, trimmed and without its heading mark. -/
def headline? (documentation : List String) : Option String :=
  (documentation.find? fun line ↦ Text.trimmed line ≠ "").map fun line ↦
    String.ofList (withoutHeadingMark (Text.trim line.toList))

/-! ### Sentences -/

/-- Whether a character can end a sentence. -/
def isTerminator (c : Char) : Bool :=
  c = '.' || c = '!' || c = '?'

/-- The characters of the visible text, each with whether it belongs to code. -/
def visibleChars (text : RichText) : List (Char × Bool) :=
  text.flatMap fun segment ↦ segment.content.toList.map fun c ↦ (c, segment.kind = .code)

/-- Whether a sentence may end before the given text. -/
def closesSentence : List (Char × Bool) → Bool
  | [] => true
  | (c, _) :: _ => Text.isBlank c

/-- The length of the first sentence, its terminator included, of a text that follows the character
`previous`. -/
def sentenceLength? (previous : Option Char) : List (Char × Bool) → Option Nat
  | [] => none
  | (c, inCode) :: rest =>
    if !inCode && isTerminator c && !(c = '.' && previous = some '.') && closesSentence rest then
      some 1
    else (sentenceLength? (some c) rest).map (· + 1)

/-- The segments that begin within the first `count` characters, the last one cut to fit. The
segment that follows an exact fit is kept with no content. -/
def takeVisible (count : Nat) : RichText → RichText
  | [] => []
  | segment :: rest =>
    if segment.content.length ≤ count then
      segment :: takeVisible (count - segment.content.length) rest
    else [{ segment with content := String.ofList (segment.content.toList.take count) }]

/-- The text up to the end of its first sentence, or the whole text where no sentence ends. -/
def firstSentence (text : RichText) : RichText :=
  match sentenceLength? none (visibleChars text) with
  | some length => takeVisible length text
  | none => text

/-- The summary of documentation lines; empty where all of them are blank. -/
def summarize (documentation : List String) : RichText :=
  match headline? documentation with
  | some line => firstSentence (parse line)
  | none => []

/-! ### Notes -/

/-- The note on a text of the given length that was cut. -/
def excessNote (length : Nat) : Log.Note where
  level := .debug
  channel := .markup
  line := 132
  message := "Documentation text of " ++ toString length ++ " chars truncated to " ++
    toString maxTextLength ++ " chars"

/-- The notes that reading a text takes. -/
def readingNotes (raw : String) : List Log.Note :=
  (excessLength? raw).toList.map excessNote

/-- The notes that summarizing documentation takes. -/
def summaryNotes (documentation : List String) : List Log.Note :=
  (headline? documentation).toList.flatMap readingNotes

end HelpSheet.Markup
