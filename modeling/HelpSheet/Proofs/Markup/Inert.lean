import HelpSheet.Proofs.Markup.RoundTrip
import HelpSheet.Proofs.Markup.Sentence

/-!
# Inert text

Text without any of the characters that take part in markup is inert: it is read as it stands, and
it makes no difference to how the text before it or after it is read (`parseChars_inert_append`,
`parseChars_append_inert`). So the visible text between two inert ones is what it is without them
(`visibleChars_parseChars_inert`).
-/

set_option autoImplicit false
set_option relaxedAutoImplicit false

namespace HelpSheet.Markup

open Glyph (bare ofText)

/-- No character of the text takes part in markup. -/
def IsInert (text : List Char) : Prop :=
  ∀ c ∈ text, ¬ isEscapable c

namespace IsInert

variable {text : List Char}

theorem backslash_not_mem (hinert : IsInert text) : '\\' ∉ text :=
  fun hmem ↦ hinert '\\' hmem rfl

theorem escapeLiteral_eq (hinert : IsInert text) : escapeLiteral text = text := by
  induction text with
  | nil => rfl
  | cons c text ih =>
    obtain ⟨hc, htext⟩ := List.forall_mem_cons.mp hinert
    rw [Glyph.escapeLiteral_cons, ih htext, Glyph.written_eq_bare hc]
    rfl

/-- No glyph of an inert text is a mark. -/
theorem bare_not_mem (hinert : IsInert text) {c : Char} (hc : isEscapable c) :
    bare c ∉ text.map bare := by
  intro hmem
  obtain ⟨d, hd, hbare⟩ := List.mem_map.mp hmem
  obtain ⟨rfl, -⟩ := Glyph.mk.inj hbare
  exact hinert d hd hc

end IsInert

/-! ### Glyphs -/

/-- Inert text behind a backslash is not escaped by it. -/
theorem ofText_append_inert (text : List Char) {back : List Char} (hback : IsInert back) :
    ofText (text ++ back) = ofText text ++ back.map bare := by
  have halone : ofText back = back.map bare := by
    have hread := Glyph.ofText_append_of_not_mem hback.backslash_not_mem []
    rwa [List.append_nil, ofText, List.append_nil] at hread
  fun_induction ofText text with
  | case1 => rw [List.nil_append, halone, List.nil_append]
  | case2 c =>
    rw [List.singleton_append, Glyph.ofText_bare_cons, halone]
    · rfl
    · intro _ next hnext
      exact hback next (List.mem_of_mem_head? hnext)
  | case3 c next rest hescapes ih =>
    rw [List.cons_append, List.cons_append, ofText, if_pos hescapes, ih, List.cons_append]
  | case4 c next rest hplain ih =>
    rw [List.cons_append, List.cons_append, ofText, if_neg hplain, ← List.cons_append, ih,
      List.cons_append]

/-! ### Spans -/

/-- What was read from a text, as read from that text with something behind it. -/
def appendRest {α : Type} (tail : List Glyph) (read : α × List Glyph) : α × List Glyph :=
  (read.1, read.2 ++ tail)

variable {tail : List Glyph}

theorem isPrefixOf_append {mark : List Glyph} (hfree : ∀ glyph ∈ mark, glyph ∉ tail)
    (text : List Glyph) : mark <+: text ++ tail ↔ mark <+: text := by
  refine ⟨fun hmark ↦ ?_, fun hmark ↦ hmark.trans (List.prefix_append text tail)⟩
  obtain hinside | ⟨beyond, rfl⟩ :=
    List.prefix_or_prefix_of_prefix hmark (List.prefix_append text tail)
  · exact hinside
  · have hbeyond : beyond = [] := by
      refine List.eq_nil_iff_forall_not_mem.mpr fun glyph hglyph ↦ ?_
      refine hfree glyph (List.mem_append_right text hglyph) ?_
      exact ((List.prefix_append_right_inj text).mp hmark).subset hglyph
    rw [hbeyond, List.append_nil]

theorem splitAtMark?_append_inert {mark : List Glyph} (hmark : mark ≠ [])
    (hfree : ∀ glyph ∈ mark, glyph ∉ tail) (text : List Glyph) :
    splitAtMark? mark (text ++ tail) = (splitAtMark? mark text).map (appendRest tail) := by
  induction text with
  | nil =>
    rw [List.nil_append, splitAtMark?, Option.map_none, Option.eq_none_iff_forall_ne_some]
    rintro ⟨content, rest⟩ hfound
    obtain ⟨first, others, rfl⟩ := List.exists_cons_of_ne_nil hmark
    refine hfree first List.mem_cons_self ?_
    rw [(splitAtMark?_eq_some hmark hfound).1]
    simp
  | cons glyph text ih =>
    have hfirst := isPrefixOf_append hfree (glyph :: text)
    rw [List.cons_append] at hfirst
    rw [List.cons_append, splitAtMark?, splitAtMark?]
    simp only [List.isPrefixOf_iff_prefix, hfirst]
    by_cases hhere : mark <+: glyph :: text
    · rw [if_pos hhere, if_pos hhere, Option.map_some, appendRest, ← List.cons_append,
        List.drop_append_of_le_length hhere.length_le]
    · rw [if_neg hhere, if_neg hhere, ih, Option.map_map, Option.map_map]
      rfl

theorem splitAtClosing?_append_inert (hfree : bare ')' ∉ tail) (depth : Nat)
    (text : List Glyph) :
    splitAtClosing? depth (text ++ tail) =
      (splitAtClosing? depth text).map (appendRest tail) := by
  induction text generalizing depth with
  | nil =>
    rw [List.nil_append, splitAtClosing?, Option.map_none, Option.eq_none_iff_forall_ne_some]
    rintro ⟨content, rest⟩ hfound
    refine hfree ?_
    rw [(splitAtClosing?_eq_some hfound).1]
    simp
  | cons glyph text ih =>
    have hstep : ∀ depth, (splitAtClosing? depth (text ++ tail)).map (consSplit glyph) =
        ((splitAtClosing? depth text).map (consSplit glyph)).map (appendRest tail) := by
      intro depth
      rw [ih, Option.map_map, Option.map_map]
      rfl
    rw [List.cons_append, splitAtClosing?, splitAtClosing?]
    by_cases hclosing : glyph = bare ')'
    · by_cases hdepth : depth = 0
      · simp [hclosing, hdepth, appendRest]
      · rw [if_pos hclosing, if_neg hdepth, hstep, if_pos hclosing, if_neg hdepth]
    · by_cases hglyph : glyph = bare '('
      · rw [if_neg hclosing, if_pos hglyph, hstep, if_neg hclosing, if_pos hglyph]
      · rw [if_neg hclosing, if_neg hglyph, hstep, if_neg hclosing, if_neg hglyph]

theorem readSpan?_append_inert {mark : List Glyph} (hmark : mark ≠ [])
    (hfree : ∀ glyph ∈ mark, glyph ∉ tail) (kind : SegmentKind) (text : List Glyph) :
    readSpan? kind mark (text ++ tail) = (readSpan? kind mark text).map (appendRest tail) := by
  rw [readSpan?, splitAtMark?_append_inert hmark hfree, readSpan?]
  cases splitAtMark? mark text with
  | none => rfl
  | some found =>
    by_cases hcontent : isSpanContent found.1
    · simp [appendRest, hcontent]
    · simp [appendRest, hcontent]

/-- A link needs a parenthesis behind its closing bracket, which inert text does not begin with. -/
theorem readLink?_append_inert (hbracket : bare ']' ∉ tail) (hopening : bare '(' ∉ tail)
    (hclosing : bare ')' ∉ tail) (text : List Glyph) :
    readLink? (text ++ tail) = (readLink? text).map (appendRest tail) := by
  have hfree : ∀ glyph ∈ [bare ']'], glyph ∉ tail := List.forall_mem_singleton.mpr hbracket
  rw [readLink?, splitAtMark?_append_inert (List.cons_ne_nil _ _) hfree, readLink?]
  rcases splitAtMark? [bare ']'] text with _ | ⟨content, _ | ⟨opening, rest⟩⟩
  · rfl
  · cases tail with
    | nil => rfl
    | cons glyph tail =>
      have hglyph : glyph ≠ bare '(' := fun h ↦ hopening (h ▸ List.mem_cons_self)
      simp [appendRest, hglyph]
  · simp only [Option.map_some, appendRest, List.cons_append]
    by_cases hlink : opening = bare '(' ∧ isSpanContent content
    · simp only [hlink, decide_true, Bool.and_self, if_true,
        splitAtClosing?_append_inert hclosing 0 rest]
      cases splitAtClosing? 0 rest <;> rfl
    · have hplain : ¬ (decide (opening = bare '(') && isSpanContent content) = true := by
        simpa using hlink
      rw [if_neg hplain, if_neg hplain, Option.map_none]

/-! ### Pieces -/

theorem spanOr_appendRest (mark : List Char) (rest : List Glyph)
    (found : Option (Segment × List Glyph)) :
    spanOr mark (rest ++ tail) (found.map (appendRest tail)) =
      appendRest tail (spanOr mark rest found) := by
  cases found <;> rfl

/-- None of the glyphs is an unescaped character that takes part in markup. -/
def LacksMarks (tail : List Glyph) : Prop :=
  ∀ c, isEscapable c → bare c ∉ tail

theorem IsInert.lacksMarks {text : List Char} (hinert : IsInert text) :
    LacksMarks (text.map bare) :=
  fun _ ↦ hinert.bare_not_mem

theorem readPiece_append_inert (hlacks : LacksMarks tail) (glyph : Glyph) (rest : List Glyph) :
    readPiece glyph (rest ++ tail) = appendRest tail (readPiece glyph rest) := by
  have hstar := hlacks '*' rfl
  have hitalic : ∀ glyph ∈ [bare '*'], glyph ∉ tail := List.forall_mem_singleton.mpr hstar
  have hbold : ∀ glyph ∈ [bare '*', bare '*'], glyph ∉ tail :=
    List.forall_mem_cons.mpr ⟨hstar, hitalic⟩
  by_cases hcode : glyph = bare codeMark
  · have hmark : ∀ glyph ∈ [bare codeMark], glyph ∉ tail :=
      List.forall_mem_singleton.mpr (hlacks codeMark rfl)
    rw [readPiece.eq_def, if_pos hcode, readPiece.eq_def, if_pos hcode,
      readSpan?_append_inert (List.cons_ne_nil _ _) hmark, spanOr_appendRest]
  by_cases hglyph : glyph = bare '*'
  · rw [readPiece.eq_def, if_neg hcode, if_pos hglyph, readPiece.eq_def, if_neg hcode,
      if_pos hglyph]
    cases rest with
    | nil =>
      -- The inert text begins with no second asterisk, and no closing one stands in it.
      have hnone : readSpan? .italic [bare '*'] tail = none :=
        readSpan?_append_inert (List.cons_ne_nil _ _) hitalic .italic []
      cases tail with
      | nil => rfl
      | cons second after =>
        have hsecond : second ≠ bare '*' := fun h ↦ hstar (h ▸ List.mem_cons_self)
        simp only [List.nil_append, if_neg hsecond, hnone]
        rfl
    | cons second after =>
      simp only [List.cons_append]
      by_cases hsecond : second = bare '*'
      · rw [if_pos hsecond, if_pos hsecond, readSpan?_append_inert (List.cons_ne_nil _ _) hbold,
          spanOr_appendRest]
      · rw [if_neg hsecond, if_neg hsecond, ← List.cons_append,
          readSpan?_append_inert (List.cons_ne_nil _ _) hitalic, spanOr_appendRest]
  by_cases hbracket : glyph = bare '['
  · rw [readPiece.eq_def, if_neg hcode, if_neg hglyph, if_pos hbracket, readPiece.eq_def,
      if_neg hcode, if_neg hglyph, if_pos hbracket, readLink?_append_inert (hlacks ']' rfl)
      (hlacks '(' rfl) (hlacks ')' rfl), spanOr_appendRest]
  · rw [readPiece_of_ne hcode hglyph hbracket, readPiece_of_ne hcode hglyph hbracket]
    rfl

/-- Inert text behind a text makes no difference to the pieces of the text. -/
theorem pieces_append_inert (hlacks : LacksMarks tail) (glyphs : List Glyph) :
    pieces (glyphs ++ tail) = pieces glyphs ++ pieces tail := by
  fun_induction pieces glyphs with
  | case1 => rfl
  | case2 glyph rest ih =>
    rw [List.cons_append, pieces_cons (readPiece_append_inert hlacks glyph rest), ih,
      List.cons_append]

/-! ### Whole texts -/

theorem isProper_pieces (text : List Char) : ∀ piece ∈ pieces (ofText text), piece.IsProper := by
  obtain ⟨parts, -, hreads⟩ := exists_parts_pieces (Glyph.settled_ofText text)
  exact ((List.forall₂_and_left _ _).mp (hreads.imp fun _ _ h ↦ ⟨h.isProper, h.isReadFrom⟩)).1

theorem parseChars_eq_merged {text : List Char} (hlength : text.length ≤ maxTextLength) :
    parseChars text = RichText.merged ((pieces (ofText text)).map Piece.segment) := by
  rw [parseChars, if_pos hlength, joinPieces_eq_merged [] (isProper_pieces text)]
  rfl

variable {front text back : List Char}

theorem parseChars_append_inert (hback : IsInert back)
    (hlength : (text ++ back).length ≤ maxTextLength) :
    parseChars (text ++ back) = RichText.merged (parseChars text ++ parseChars back) := by
  have hlengths := hlength
  rw [List.length_append] at hlengths
  have halone : ofText back = back.map bare := ofText_append_inert [] hback
  rw [parseChars_eq_merged hlength, parseChars_eq_merged (by omega),
    parseChars_eq_merged (by omega), RichText.merged_merged_append,
    RichText.merged_append_merged, ofText_append_inert text hback,
    pieces_append_inert hback.lacksMarks, List.map_append, halone]

theorem pieces_inert_append (hfront : IsInert front) (rest : List Char) :
    pieces (ofText (front ++ rest)) =
      front.map (fun c ↦ .literal [c]) ++ pieces (ofText rest) := by
  have hpieces := pieces_escapeLiteral_append front rest
  rwa [hfront.escapeLiteral_eq] at hpieces

theorem parseChars_inert_append (hfront : IsInert front)
    (hlength : (front ++ text).length ≤ maxTextLength) :
    parseChars (front ++ text) = RichText.merged (parseChars front ++ parseChars text) := by
  have hlengths := hlength
  rw [List.length_append] at hlengths
  have halone := pieces_inert_append hfront []
  rw [List.append_nil, ofText, pieces, List.append_nil] at halone
  rw [parseChars_eq_merged hlength, parseChars_eq_merged (by omega),
    parseChars_eq_merged (by omega), RichText.merged_merged_append,
    RichText.merged_append_merged, pieces_inert_append hfront, List.map_append, halone]

/-- Inert text is read as it stands. -/
theorem parseChars_of_isInert (hinert : IsInert text) (hlength : text.length ≤ maxTextLength) :
    parseChars text = plainSegment text.reverse := by
  have hpieces := pieces_inert_append hinert []
  have hjoined := joinPieces_literals [] text []
  rw [List.append_nil, ofText, pieces] at hpieces
  rw [parseChars, if_pos hlength, hpieces, hjoined, List.append_nil, joinPieces]

/-! ### Visible characters -/

theorem visibleChars_append (first second : RichText) :
    visibleChars (first ++ second) = visibleChars first ++ visibleChars second :=
  List.flatMap_append

theorem visibleChars_mergeFront (first : Segment) (rest : RichText) :
    visibleChars (RichText.mergeFront first rest) = visibleChars (first :: rest) := by
  cases rest with
  | nil => rfl
  | cons second rest =>
    by_cases hplain : first.kind = .plain ∧ second.kind = .plain
    · rw [RichText.mergeFront, if_pos hplain]
      simp [visibleChars_cons, hplain]
    · rw [RichText.mergeFront, if_neg hplain]

/-- Merging keeps the visible characters. -/
theorem visibleChars_merged (text : RichText) :
    visibleChars (RichText.merged text) = visibleChars text := by
  induction text with
  | nil => rfl
  | cons first rest ih =>
    rw [RichText.merged_cons, visibleChars_mergeFront, visibleChars_cons, ih, visibleChars_cons]

theorem visibleChars_plainSegment (text : List Char) :
    visibleChars (plainSegment text.reverse) = text.map fun c ↦ (c, false) := by
  by_cases hempty : text = []
  · rw [hempty]
    rfl
  · rw [plainSegment_of_ne_nil hempty]
    simp [visibleChars, Segment.plain]

theorem visibleChars_parseChars_of_isInert (hinert : IsInert text)
    (hlength : text.length ≤ maxTextLength) :
    visibleChars (parseChars text) = text.map fun c ↦ (c, false) := by
  rw [parseChars_of_isInert hinert hlength, visibleChars_plainSegment]

/-- The visible text between two inert texts is what it is without them. -/
theorem visibleChars_parseChars_inert (hfront : IsInert front) (hback : IsInert back)
    (hlength : (front ++ text ++ back).length ≤ maxTextLength) :
    visibleChars (parseChars (front ++ text ++ back)) =
      (front.map fun c ↦ (c, false)) ++ visibleChars (parseChars text) ++
        back.map fun c ↦ (c, false) := by
  have hlengths := hlength
  rw [List.length_append, List.length_append] at hlengths
  rw [parseChars_append_inert hback hlength, visibleChars_merged, visibleChars_append,
    parseChars_inert_append hfront (by rw [List.length_append]; omega), visibleChars_merged,
    visibleChars_append, visibleChars_parseChars_of_isInert hfront (by omega),
    visibleChars_parseChars_of_isInert hback (by omega)]

end HelpSheet.Markup
