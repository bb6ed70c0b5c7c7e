import HelpSheet.Page.Html
import HelpSheet.Proofs.Html.Reading
import HelpSheet.Proofs.Markup.Slices

/-!
# Reading the words of a page

A reader of HTML sees tags and characters between them (`readMarks`). Without the tags and with the
entities decoded, the characters are the words that are shown. Written pieces are read as their tags
and the characters of their texts (`readMarks_writeAll`), so the words of marked-up text are its
plain text, whatever becomes of its links (`visibleText_inlinePieces`).
-/

set_option autoImplicit false
set_option relaxedAutoImplicit false

namespace HelpSheet.Page.Html

open Escape.Html (decodeEntities)
open Markup (RichText Segment)

/-! ### Marks -/

/-- What a reader sees: a tag without its angle brackets, or a character that belongs to no tag. -/
inductive Mark
  | tag (content : List Char)
  | char (c : Char)
  deriving DecidableEq, Repr

/-- The character of a mark, if it is one. -/
def Mark.char? : Mark → Option Char
  | tag _ => none
  | char c => some c

/-- The marks of a page, where `inside` holds what was read of a tag that has not ended. -/
def readMarks (inside : Option (List Char)) : List Char → List Mark
  | [] => []
  | c :: rest =>
    match inside with
    | none => if c = '<' then readMarks (some []) rest else .char c :: readMarks none rest
    | some tag =>
      if c = '>' then .tag tag :: readMarks none rest else readMarks (some (tag ++ [c])) rest

/-- The characters of marks without the tags. -/
def charsOf (marks : List Mark) : List Char :=
  marks.filterMap Mark.char?

/-- The words that marks show: the characters without the tags, with the entities decoded. -/
def wordsOf (marks : List Mark) : String :=
  String.ofList (decodeEntities (charsOf marks))

/-- The words that a text in HTML shows. -/
def visibleText (text : String) : String :=
  wordsOf (readMarks none text.toList)

/-- The marks of a piece. -/
def Piece.marks (piece : Piece) : List Mark :=
  match piece.tag? with
  | some tag => [.tag tag]
  | none => piece.write.toList.map .char

/-- The marks of pieces. -/
def marksOf (pieces : List Piece) : List Mark :=
  pieces.flatMap Piece.marks

/-! ### Marks of written pieces -/

theorem readMarks_none_append {text : List Char} (htext : ∀ c ∈ text, c ∉ brackets)
    (rest : List Char) : readMarks none (text ++ rest) = text.map .char ++ readMarks none rest := by
  induction text with
  | nil => rfl
  | cons c text ih =>
    rw [List.forall_mem_cons] at htext
    obtain ⟨hc, htext⟩ := htext
    have hless : c ≠ '<' := by
      rintro rfl
      exact hc List.mem_cons_self
    rw [List.cons_append, readMarks, if_neg hless, ih htext, List.map_cons, List.cons_append]

theorem readMarks_some_append {tag : List Char} (htag : ∀ c ∈ tag, c ∉ brackets)
    (read rest : List Char) :
    readMarks (some read) (tag ++ '>' :: rest) = .tag (read ++ tag) :: readMarks none rest := by
  induction tag generalizing read with
  | nil => simp [readMarks]
  | cons c tag ih =>
    rw [List.forall_mem_cons] at htag
    obtain ⟨hc, htag⟩ := htag
    have hgreater : c ≠ '>' := by
      rintro rfl
      exact hc (List.mem_cons_of_mem _ List.mem_cons_self)
    rw [List.cons_append, readMarks, if_neg hgreater, ih htag, List.append_assoc,
      List.singleton_append]

/-- A reader finds the tags of the pieces that were written, and their texts between them. -/
theorem readMarks_writeAll (pieces : List Piece) :
    readMarks none (writeAll pieces).toList = marksOf pieces := by
  induction pieces with
  | nil => rfl
  | cons piece rest ih =>
    rw [writeAll_toList, List.flatMap_cons, ← writeAll_toList, marksOf, List.flatMap_cons,
      ← marksOf, ← ih, Piece.marks]
    cases htag : piece.tag? with
    | none => exact readMarks_none_append (fun c ↦ not_mem_brackets_of_mem_write htag) _
    | some tag =>
      have hread := readMarks_some_append (fun c ↦ not_mem_brackets_of_mem_tag htag) []
        (writeAll rest).toList
      rw [write_toList_of_tag? htag, List.append_assoc, List.singleton_append, List.cons_append]
      exact hread

@[simp] theorem marksOf_nil : marksOf [] = [] := rfl

@[simp] theorem marksOf_cons (piece : Piece) (pieces : List Piece) :
    marksOf (piece :: pieces) = piece.marks ++ marksOf pieces :=
  List.flatMap_cons

@[simp] theorem marksOf_append (first second : List Piece) :
    marksOf (first ++ second) = marksOf first ++ marksOf second :=
  List.flatMap_append

@[simp] theorem marks_opening (element : Element) (attributes : List Attribute) :
    (Piece.opening element attributes).marks = [.tag (element.name.toList ++
      (attributes.map Attribute.write).flatMap String.toList)] := rfl

@[simp] theorem marks_closing (element : Element) :
    (Piece.closing element).marks = [.tag ('/' :: element.name.toList)] := rfl

@[simp] theorem marks_text (content : String) :
    (Piece.text content).marks = (Escape.Html.escape content.toList).map .char := by
  rw [Piece.marks, Piece.tag?, Piece.write, Escape.Html.escaped, String.toList_ofList]

/-! ### Words of marked-up text -/

@[simp] theorem charsOf_append (first second : List Mark) :
    charsOf (first ++ second) = charsOf first ++ charsOf second :=
  List.filterMap_append

@[simp] theorem charsOf_nil : charsOf [] = [] := rfl

@[simp] theorem charsOf_tag_cons (tag : List Char) (marks : List Mark) :
    charsOf (.tag tag :: marks) = charsOf marks := rfl

@[simp] theorem charsOf_map_char (text : List Char) : charsOf (text.map .char) = text := by
  rw [charsOf, List.filterMap_map]
  exact List.filterMap_some

theorem charsOf_around (element : Element) (content : String) :
    charsOf (marksOf (around element content)) = Escape.Html.escape content.toList := by
  simp [around, inside, start]

/-- Around the content of a segment stand tags only. -/
theorem charsOf_segmentPieces (segment : Segment) :
    charsOf (marksOf (segmentPieces segment)) = Escape.Html.escape segment.content.toList := by
  unfold segmentPieces
  split
  · simp
  · exact charsOf_around .strong segment.content
  · exact charsOf_around .emphasis segment.content
  · exact charsOf_around .code segment.content
  · unfold linkPieces
    split <;> simp

theorem charsOf_inlinePieces (text : RichText) :
    charsOf (marksOf (inlinePieces text)) = Escape.Html.escape text.plainText.toList := by
  induction text with
  | nil => rfl
  | cons segment rest ih =>
    have hpieces : inlinePieces (segment :: rest) = segmentPieces segment ++ inlinePieces rest :=
      List.flatMap_cons
    rw [hpieces, marksOf_append, charsOf_append, charsOf_segmentPieces, ih,
      RichText.plainText_cons, String.toList_append]
    exact List.flatMap_append.symm

theorem wordsOf_inlinePieces (text : RichText) :
    wordsOf (marksOf (inlinePieces text)) = text.plainText := by
  rw [wordsOf, charsOf_inlinePieces, Escape.Html.decodeEntities_escape, String.ofList_toList]

/-- Marked-up text shows its plain text, also where a link is not safe. -/
theorem visibleText_inlinePieces (text : RichText) :
    visibleText (writeAll (inlinePieces text)) = text.plainText := by
  rw [visibleText, readMarks_writeAll, wordsOf_inlinePieces]

/-! ### Parts of a page -/

/-- What stands between each tag `start` and the next tag `stop`. -/
def sections (start stop : List Char) : List Mark → List (List Mark)
  | [] => []
  | mark :: rest =>
    if mark = .tag start then rest.takeWhile (· ≠ .tag stop) :: sections start stop rest
    else sections start stop rest

variable {start stop : List Char}

theorem sections_append_of_not_mem {front : List Mark} (hfront : .tag start ∉ front)
    (back : List Mark) : sections start stop (front ++ back) = sections start stop back := by
  induction front with
  | nil => rfl
  | cons mark front ih =>
    rw [List.mem_cons, not_or] at hfront
    rw [List.cons_append, sections, if_neg (Ne.symm hfront.1), ih hfront.2]

theorem sections_of_not_mem {marks : List Mark} (hmarks : .tag start ∉ marks) :
    sections start stop marks = [] := by
  have hnone : sections start stop (marks ++ []) = sections start stop [] :=
    sections_append_of_not_mem hmarks []
  rwa [List.append_nil] at hnone

/-- A part without the tag of its start or its end is found whole. -/
theorem sections_part {content : List Mark} (hstart : .tag start ∉ content)
    (hstop : .tag stop ∉ content) (hne : start ≠ stop) (back : List Mark) :
    sections start stop (.tag start :: content ++ .tag stop :: back) =
      content :: sections start stop back := by
  have htaken : (content ++ .tag stop :: back).takeWhile (· ≠ .tag stop) = content := by
    rw [List.takeWhile_append_of_pos fun mark hmark ↦ ?_, List.takeWhile_cons_of_neg (by simp),
      List.append_nil]
    have hmark' : mark ≠ .tag stop := by
      rintro rfl
      exact hstop hmark
    exact decide_eq_true hmark'
  have hrest : sections start stop (.tag stop :: back) = sections start stop back := by
    rw [sections, if_neg fun h ↦ hne (Mark.tag.inj h).symm]
  rw [List.cons_append, sections, if_pos rfl, htaken, sections_append_of_not_mem hstart, hrest]

end HelpSheet.Page.Html
