import Mathlib.Data.List.Forall2
import HelpSheet.Proofs.Markup.Glyphs
import HelpSheet.Proofs.Markup.Merging
import HelpSheet.Proofs.Text.Trimming

/-!
# The slices that segments are read from

Reading markup cuts a text into consecutive slices, one for each segment, and never through a glyph.
What a segment shows is its slice without marks, URL and the backslashes that escape
(`Segment.ReadFrom`). So nothing of the text is lost, nothing is shown that is not in it, and the
segments are in normal form (`parse_slices`).
-/

set_option autoImplicit false
set_option relaxedAutoImplicit false

namespace HelpSheet.Markup

open Glyph (bare ofText source source_append source_map_bare Settled)

/-! ### Slices -/

/-- The text that a slice stands for: the slice without the backslashes that escape. -/
def unescaped (slice : List Char) : String :=
  Glyph.text (ofText slice)

/-- The mark stands somewhere in the slice, and no backslash escapes it. -/
def HasMark (mark slice : List Char) : Prop :=
  mark.map bare <:+: ofText slice

/-- The unescaped parentheses of the text are balanced, where `depth` of them were opened before
it. -/
inductive ClosesParentheses : Nat → List Glyph → Prop
  | nil : ClosesParentheses 0 []
  | opening {depth : Nat} {rest : List Glyph} :
    ClosesParentheses (depth + 1) rest → ClosesParentheses depth (bare '(' :: rest)
  | closing {depth : Nat} {rest : List Glyph} :
    ClosesParentheses depth rest → ClosesParentheses (depth + 1) (bare ')' :: rest)
  | other {depth : Nat} {glyph : Glyph} {rest : List Glyph} :
    glyph ≠ bare '(' → glyph ≠ bare ')' → ClosesParentheses depth rest →
      ClosesParentheses depth (glyph :: rest)

/-- The mark that opens and closes a span of the kind, where it has one. -/
def SegmentKind.mark? : SegmentKind → Option (List Char)
  | .code => some [codeMark]
  | .bold => some ['*', '*']
  | .italic => some ['*']
  | .plain => none
  | .link => none

theorem SegmentKind.mark?_code : SegmentKind.code.mark? = some [codeMark] := rfl

theorem SegmentKind.mark?_bold : SegmentKind.bold.mark? = some ['*', '*'] := rfl

theorem SegmentKind.mark?_italic : SegmentKind.italic.mark? = some ['*'] := rfl

namespace Segment

/-- The slice of markup that a segment is read from. A span ends at the first closing mark, a link
at the first closing parenthesis that was not opened in its URL. -/
inductive ReadFrom : Segment → List Char → Prop
  | plain (slice : List Char) : ReadFrom (.plain (unescaped slice)) slice
  | span {kind : SegmentKind} {mark : List Char} (hmark : kind.mark? = some mark)
    {inner : List Char} (hinner : ¬ HasMark mark inner) :
    ReadFrom { kind, content := unescaped inner } (mark ++ inner ++ mark)
  | link {inner url : List Char} (hinner : ¬ HasMark [']'] inner)
    (hurl : ClosesParentheses 0 (ofText url)) :
    ReadFrom { kind := .link, content := unescaped inner, url := Text.trimmed (unescaped url) }
      ('[' :: inner ++ ']' :: '(' :: url ++ [')'])

/-- A segment as reading gives it: it shows something, a span is not too long, and only a link has
a URL, without blanks at its ends. -/
structure IsNormal (segment : Segment) : Prop where
  content_ne : segment.content ≠ ""
  length_le : segment.kind ≠ .plain → segment.content.length ≤ maxSpanLength
  url_eq : segment.kind ≠ .link → segment.url = ""
  isTrimmed_url : Text.IsTrimmed segment.url.toList

instance : DecidablePred IsNormal := fun segment ↦
  decidable_of_iff
    (segment.content ≠ "" ∧ (segment.kind ≠ .plain → segment.content.length ≤ maxSpanLength) ∧
      (segment.kind ≠ .link → segment.url = "") ∧ Text.IsTrimmed segment.url.toList)
    ⟨fun h ↦ ⟨h.1, h.2.1, h.2.2.1, h.2.2.2⟩,
      fun h ↦ ⟨h.content_ne, h.length_le, h.url_eq, h.isTrimmed_url⟩⟩

theorem isNormal_plain {content : String} (hne : content ≠ "") :
    (Segment.plain content).IsNormal where
  content_ne := hne
  length_le := absurd rfl
  url_eq := fun _ ↦ rfl
  isTrimmed_url := ⟨nofun, nofun⟩

/-- The segment is in normal form and was read from the glyphs. -/
structure IsReadFrom (segment : Segment) (glyphs : List Glyph) : Prop where
  readFrom : segment.ReadFrom (Glyph.source glyphs)
  isNormal : segment.IsNormal

end Segment

/-- The segments are in normal form, and no two neighbours are plain. -/
structure RichText.IsNormal (text : RichText) : Prop where
  segments : ∀ segment ∈ text, segment.IsNormal
  isChain : text.IsChain RichText.Apart

instance : DecidablePred RichText.IsNormal := fun text ↦
  decidable_of_iff ((∀ segment ∈ text, segment.IsNormal) ∧ text.IsChain RichText.Apart)
    ⟨fun h ↦ ⟨h.1, h.2⟩, fun h ↦ ⟨h.segments, h.isChain⟩⟩

/-- The piece is one that can be joined, and its segment was read from the glyphs. -/
structure Piece.IsReadFrom (piece : Piece) (glyphs : List Glyph) : Prop where
  isProper : piece.IsProper
  isReadFrom : piece.segment.IsReadFrom glyphs

/-! ### Finding the end of a span -/

theorem map_consSplit_eq_some {glyph : Glyph} {found : Option (List Glyph × List Glyph)}
    {content rest : List Glyph} (h : found.map (consSplit glyph) = some (content, rest)) :
    ∃ inner, found = some (inner, rest) ∧ content = glyph :: inner := by
  obtain ⟨⟨inner, tail⟩, hfound, heq⟩ := Option.map_eq_some_iff.mp h
  obtain ⟨rfl, rfl⟩ := Prod.mk.inj heq
  exact ⟨inner, hfound, rfl⟩

theorem splitAtMark?_eq_some {mark text content rest : List Glyph} (hmark : mark ≠ [])
    (h : splitAtMark? mark text = some (content, rest)) :
    text = content ++ mark ++ rest ∧ ¬ mark <:+: content := by
  induction text generalizing content with
  | nil => cases h
  | cons glyph text ih =>
    rw [splitAtMark?] at h
    split at h
    · rename_i hfirst
      obtain ⟨rfl, rfl⟩ := Prod.mk.inj (Option.some_inj.mp h)
      refine ⟨?_, fun hinside ↦ hmark (List.infix_nil.mp hinside)⟩
      exact (List.prefix_iff_eq_append.mp (List.isPrefixOf_iff_prefix.mp hfirst)).symm
    · rename_i hfirst
      obtain ⟨inner, hinner, rfl⟩ := map_consSplit_eq_some h
      obtain ⟨rfl, hmarkless⟩ := ih hinner
      refine ⟨rfl, fun hinside ↦ ?_⟩
      rcases List.infix_cons_iff.mp hinside with hstart | hinside
      · refine hfirst (List.isPrefixOf_iff_prefix.mpr (hstart.trans ?_))
        rw [List.append_assoc]
        exact List.prefix_append (glyph :: inner) _
      · exact hmarkless hinside

theorem splitAtClosing?_eq_some {depth : Nat} {text content rest : List Glyph}
    (h : splitAtClosing? depth text = some (content, rest)) :
    text = content ++ bare ')' :: rest ∧ ClosesParentheses depth content := by
  induction text generalizing depth content with
  | nil => cases h
  | cons glyph text ih =>
    rw [splitAtClosing?] at h
    split at h
    · rename_i hclosing
      subst hclosing
      split at h
      · rename_i hdepth
        obtain ⟨rfl, rfl⟩ := Prod.mk.inj (Option.some_inj.mp h)
        exact ⟨rfl, hdepth ▸ .nil⟩
      · rename_i hdepth
        obtain ⟨inner, hinner, rfl⟩ := map_consSplit_eq_some h
        obtain ⟨rfl, hcloses⟩ := ih hinner
        refine ⟨rfl, ?_⟩
        rw [← Nat.succ_pred hdepth]
        exact .closing hcloses
    · rename_i hclosing
      split at h
      · rename_i hopening
        subst hopening
        obtain ⟨inner, hinner, rfl⟩ := map_consSplit_eq_some h
        obtain ⟨rfl, hcloses⟩ := ih hinner
        exact ⟨rfl, .opening hcloses⟩
      · rename_i hopening
        obtain ⟨inner, hinner, rfl⟩ := map_consSplit_eq_some h
        obtain ⟨rfl, hcloses⟩ := ih hinner
        exact ⟨rfl, .other hopening hclosing hcloses⟩

/-! ### One piece -/

theorem unescaped_source {glyphs : List Glyph} (hsettled : Settled glyphs) :
    unescaped (source glyphs) = Glyph.text glyphs :=
  congrArg Glyph.text hsettled

theorem text_ne_empty {glyphs : List Glyph} (hne : glyphs ≠ []) : Glyph.text glyphs ≠ "" := by
  rw [Glyph.text, Ne, String.ofList_eq_empty_iff, List.map_eq_nil_iff]
  exact hne

theorem text_length (glyphs : List Glyph) : (Glyph.text glyphs).length = glyphs.length := by
  rw [Glyph.text, String.length_ofList, List.length_map]

theorem isSpanContent_iff {content : List Glyph} :
    isSpanContent content ↔ content ≠ [] ∧ content.length ≤ maxSpanLength := by
  simp [isSpanContent]

theorem isReadFrom_literal {glyphs : List Glyph} (hne : glyphs ≠ []) (hsettled : Settled glyphs) :
    (Piece.literal (glyphs.map Glyph.char)).IsReadFrom glyphs where
  isProper := fun h ↦ hne (List.map_eq_nil_iff.mp h)
  isReadFrom :=
    { readFrom := by
        have hread := Segment.ReadFrom.plain (source glyphs)
        rwa [unescaped_source hsettled] at hread
      isNormal := Segment.isNormal_plain (text_ne_empty hne) }

theorem mark_ne_nil {kind : SegmentKind} {mark : List Char} (hmark : kind.mark? = some mark) :
    mark ≠ [] := by
  cases kind <;> simp [SegmentKind.mark?] at hmark <;> simp [← hmark]

theorem isReadFrom_span {segment : Segment} {glyphs : List Glyph} (hspan : segment.kind ≠ .plain)
    (hread : segment.ReadFrom (source glyphs)) (hnormal : segment.IsNormal) :
    (Piece.span segment).IsReadFrom glyphs :=
  ⟨hspan, hread, hnormal⟩

theorem isNormal_of_isSpanContent {kind : SegmentKind} {content : List Glyph} {url : String}
    (hcontent : isSpanContent content) (hurl : kind ≠ .link → url = "")
    (htrimmed : Text.IsTrimmed url.toList) :
    Segment.IsNormal { kind, content := Glyph.text content, url } := by
  obtain ⟨hne, hlength⟩ := isSpanContent_iff.mp hcontent
  exact
    { content_ne := text_ne_empty hne
      length_le := fun _ ↦ (text_length content).trans_le hlength
      url_eq := hurl
      isTrimmed_url := htrimmed }

theorem isReadFrom_of_readSpan? {kind : SegmentKind} {mark : List Char}
    (hmark : kind.mark? = some mark) {text rest : List Glyph} {segment : Segment}
    (hsettled : Settled (mark.map bare ++ text))
    (h : readSpan? kind (mark.map bare) text = some (segment, rest)) :
    ∃ part, mark.map bare ++ text = part ++ rest ∧ (Piece.span segment).IsReadFrom part := by
  unfold readSpan? at h
  split at h
  · rename_i content after hsplit
    split at h
    · rename_i hcontent
      obtain ⟨rfl, rfl⟩ := Prod.mk.inj (Option.some_inj.mp h)
      have hne : mark.map bare ≠ [] := fun h ↦ mark_ne_nil hmark (List.map_eq_nil_iff.mp h)
      obtain ⟨rfl, hmarkless⟩ := splitAtMark?_eq_some hne hsplit
      have hinner : Settled content := hsettled.append_right.append_left.append_left
      have hread : Segment.ReadFrom { kind, content := Glyph.text content }
          (source (mark.map bare ++ content ++ mark.map bare)) := by
        rw [source_append, source_append, source_map_bare, ← unescaped_source hinner]
        exact .span hmark (by rwa [HasMark, hinner])
      refine ⟨mark.map bare ++ content ++ mark.map bare, by simp,
        isReadFrom_span ?_ hread (isNormal_of_isSpanContent hcontent (fun _ ↦ rfl) ⟨nofun, nofun⟩)⟩
      rintro rfl
      cases hmark
    · cases h
  · cases h

theorem isReadFrom_of_readLink? {text rest : List Glyph} {segment : Segment}
    (hsettled : Settled (bare '[' :: text)) (h : readLink? text = some (segment, rest)) :
    ∃ part, bare '[' :: text = part ++ rest ∧ (Piece.span segment).IsReadFrom part := by
  unfold readLink? at h
  split at h
  · rename_i content opening after hsplit
    split at h
    · rename_i hopening
      rw [Bool.and_eq_true, decide_eq_true_eq] at hopening
      obtain ⟨rfl, hcontent⟩ := hopening
      split at h
      · rename_i url tail hclosing
        obtain ⟨rfl, rfl⟩ := Prod.mk.inj (Option.some_inj.mp h)
        obtain ⟨rfl, hmarkless⟩ := splitAtMark?_eq_some (List.cons_ne_nil _ _) hsplit
        obtain ⟨rfl, hcloses⟩ := splitAtClosing?_eq_some hclosing
        have hparts : bare '[' :: (content ++ [bare ']'] ++ bare '(' :: (url ++ bare ')' :: tail)) =
            [bare '['] ++ content ++ [bare ']', bare '('] ++ url ++ [bare ')'] ++ tail := by simp
        rw [hparts] at hsettled
        have hurl : Settled url := hsettled.append_left.append_left.append_right
        have hinner : Settled content :=
          hsettled.append_left.append_left.append_left.append_left.append_right
        have hread := @Segment.ReadFrom.link (source content) (source url)
          (by rwa [HasMark, hinner]) (by rwa [hurl])
        rw [unescaped_source hinner, unescaped_source hurl] at hread
        have htrimmed : Text.IsTrimmed (Text.trimmed (Glyph.text url)).toList := by
          rw [Text.trimmed, String.toList_ofList]
          exact Text.isTrimmed_trim _
        refine ⟨_, hparts, isReadFrom_span nofun ?_
          (isNormal_of_isSpanContent hcontent (absurd rfl) htrimmed)⟩
        simpa [source_append, source, Glyph.spelling, bare] using hread
      · cases h
    · cases h
  · cases h

/-- Where no span was read, the mark is literal. -/
theorem isReadFrom_spanOr {mark rest : List Glyph} (hmark : mark ≠ [])
    (hsettled : Settled (mark ++ rest)) {found : Option (Segment × List Glyph)}
    (hfound : ∀ segment after, found = some (segment, after) →
      ∃ part, mark ++ rest = part ++ after ∧ (Piece.span segment).IsReadFrom part) :
    ∃ part, mark ++ rest = part ++ (spanOr (mark.map Glyph.char) rest found).2 ∧
      (spanOr (mark.map Glyph.char) rest found).1.IsReadFrom part := by
  cases found with
  | none => exact ⟨mark, rfl, isReadFrom_literal hmark hsettled.append_left⟩
  | some pair => exact hfound pair.1 pair.2 rfl

/-- A piece is read from the glyphs that it takes. -/
theorem isReadFrom_readPiece {glyph : Glyph} {rest : List Glyph}
    (hsettled : Settled (glyph :: rest)) :
    ∃ part, glyph :: rest = part ++ (readPiece glyph rest).2 ∧
      (readPiece glyph rest).1.IsReadFrom part := by
  unfold readPiece
  split
  · rename_i hcode
    subst hcode
    exact isReadFrom_spanOr (List.cons_ne_nil (bare codeMark) []) hsettled fun _ _ ↦
      isReadFrom_of_readSpan? SegmentKind.mark?_code hsettled
  · split
    · rename_i hstar
      subst hstar
      split
      · rename_i second after
        split
        · rename_i hsecond
          subst hsecond
          exact isReadFrom_spanOr (List.cons_ne_nil (bare '*') [bare '*']) hsettled fun _ _ ↦
            isReadFrom_of_readSpan? SegmentKind.mark?_bold hsettled
        · exact isReadFrom_spanOr (List.cons_ne_nil (bare '*') []) hsettled fun _ _ ↦
            isReadFrom_of_readSpan? SegmentKind.mark?_italic hsettled
      · exact ⟨[bare '*'], rfl, isReadFrom_literal (List.cons_ne_nil _ _) hsettled⟩
    · split
      · rename_i hbracket
        subst hbracket
        exact isReadFrom_spanOr (List.cons_ne_nil (bare '[') []) hsettled fun _ _ ↦
          isReadFrom_of_readLink? hsettled
      · rw [← List.singleton_append] at hsettled
        exact ⟨[glyph], rfl, isReadFrom_literal (List.cons_ne_nil _ _) hsettled.append_left⟩

/-! ### Whole texts -/

/-- The pieces of a text are read from consecutive parts of it. -/
theorem exists_parts_pieces {glyphs : List Glyph} (hsettled : Settled glyphs) :
    ∃ parts, parts.flatten = glyphs ∧
      List.Forall₂ Piece.IsReadFrom (pieces glyphs) parts := by
  fun_induction pieces glyphs with
  | case1 => exact ⟨[], rfl, .nil⟩
  | case2 glyph rest ih =>
    obtain ⟨part, hpart, hread⟩ := isReadFrom_readPiece hsettled
    rw [hpart] at hsettled
    obtain ⟨parts, hparts, hreads⟩ := ih hsettled.append_right
    exact ⟨part :: parts, by rw [List.flatten_cons, hparts, hpart], .cons hread hreads⟩

theorem Segment.ReadFrom.eq_plain {segment : Segment} {slice : List Char}
    (hread : segment.ReadFrom slice) (hplain : segment.kind = .plain) :
    segment = .plain (unescaped slice) := by
  cases hread with
  | plain => rfl
  | span hmark =>
    subst hplain
    cases hmark
  | link => cases hplain

/-- Two plain segments that meet were read from one slice. -/
theorem isReadFrom_append {first second : Segment} {front back : List Glyph}
    (hsettled : Settled (front ++ back)) (hfirst : first.IsReadFrom front)
    (hsecond : second.IsReadFrom back) (hplain : first.kind = .plain ∧ second.kind = .plain) :
    Segment.IsReadFrom { first with content := first.content ++ second.content }
      (front ++ back) := by
  have hfront := hfirst.readFrom.eq_plain hplain.1
  have hback := hsecond.readFrom.eq_plain hplain.2
  refine ⟨?_, ?_⟩
  · have hread := Segment.ReadFrom.plain (source (front ++ back))
    rw [unescaped_source hsettled, Glyph.text, List.map_append, String.ofList_append] at hread
    rw [hfront, hback, unescaped_source hsettled.append_left,
      unescaped_source hsettled.append_right]
    exact hread
  · rw [hfront]
    exact Segment.isNormal_plain fun h ↦
      hfirst.isNormal.content_ne (hfront ▸ (String.append_eq_empty_iff.mp h).1)

theorem exists_parts_mergeFront {first : Segment} {rest : RichText} {front : List Glyph}
    {parts : List (List Glyph)} (hsettled : Settled (front ++ parts.flatten))
    (hfirst : first.IsReadFrom front) (hrest : List.Forall₂ Segment.IsReadFrom rest parts) :
    ∃ joined, joined.flatten = front ++ parts.flatten ∧
      List.Forall₂ Segment.IsReadFrom (RichText.mergeFront first rest) joined := by
  cases hrest with
  | nil => exact ⟨[front], by simp, .cons hfirst .nil⟩
  | @cons second back others parts hsecond hothers =>
    rw [RichText.mergeFront]
    split
    · rename_i hplain
      rw [List.flatten_cons, ← List.append_assoc] at hsettled
      have hjoined := isReadFrom_append hsettled.append_left hfirst hsecond hplain
      exact ⟨(front ++ back) :: parts, by simp, .cons hjoined hothers⟩
    · exact ⟨front :: back :: parts, by simp, .cons hfirst (.cons hsecond hothers)⟩

theorem exists_parts_merged {text : RichText} {parts : List (List Glyph)}
    (hsettled : Settled parts.flatten) (htext : List.Forall₂ Segment.IsReadFrom text parts) :
    ∃ joined, joined.flatten = parts.flatten ∧
      List.Forall₂ Segment.IsReadFrom (RichText.merged text) joined := by
  induction htext with
  | nil => exact ⟨[], rfl, .nil⟩
  | cons hfirst hrest ih =>
    rw [List.flatten_cons] at hsettled ⊢
    obtain ⟨joined, hjoined, hreads⟩ := ih hsettled.append_right
    rw [← hjoined] at hsettled ⊢
    exact exists_parts_mergeFront hsettled hfirst hreads

/-- Text that is not too long falls apart into the parts that its segments are read from. -/
theorem exists_parts_parseChars {text : List Char} (hlength : text.length ≤ maxTextLength) :
    (parseChars text).IsNormal ∧
      ∃ parts, parts.flatten = ofText text ∧
        List.Forall₂ (fun segment part ↦ Segment.ReadFrom segment (source part))
          (parseChars text) parts := by
  obtain ⟨parts, hparts, hreads⟩ := exists_parts_pieces (Glyph.settled_ofText text)
  obtain ⟨hproper, hpieces⟩ := (List.forall₂_and_left _ _).mp
    (hreads.imp fun _ _ h ↦ ⟨h.isProper, h.isReadFrom⟩)
  have hsettled : Settled parts.flatten := hparts ▸ Glyph.settled_ofText text
  obtain ⟨joined, hjoined, hsegments⟩ :=
    exists_parts_merged hsettled (List.forall₂_map_left_iff.mpr hpieces)
  obtain ⟨hnormal, hslices⟩ := (List.forall₂_and_left _ _).mp
    (hsegments.imp fun _ _ h ↦ ⟨h.isNormal, h.readFrom⟩)
  rw [parseChars, if_pos hlength, joinPieces_eq_merged [] hproper]
  exact ⟨⟨hnormal, RichText.isChain_merged _⟩, joined, hjoined.trans hparts, hslices⟩

/-- Text that is not too long falls apart into slices, one for each segment; no glyph is cut. -/
theorem exists_slices_parseChars {text : List Char} (hlength : text.length ≤ maxTextLength) :
    ∃ slices, slices.flatten = text ∧ slices.flatMap ofText = ofText text ∧
      List.Forall₂ Segment.ReadFrom (parseChars text) slices := by
  obtain ⟨-, parts, hparts, hreads⟩ := exists_parts_parseChars hlength
  refine ⟨parts.map source, ?_, ?_, List.forall₂_map_right_iff.mpr hreads⟩
  · rw [← Glyph.source_flatten, hparts, Glyph.source_ofText]
  · rw [← hparts]
    exact Settled.ofText_source_parts (hparts ▸ Glyph.settled_ofText text)

/-- Text that is too long is cut and shown as it is. -/
theorem parseChars_of_lt {text : List Char} (hlength : maxTextLength < text.length) :
    parseChars text = [.plain (String.ofList (text.take maxTextLength))] :=
  if_neg (Nat.not_le.mpr hlength)

theorem take_maxTextLength_ne_nil {text : List Char} (hne : text ≠ []) :
    text.take maxTextLength ≠ [] := by
  rw [Ne, List.take_eq_nil_iff, not_or]
  exact ⟨by decide, hne⟩

/-- Whatever the text, what is read from it is in normal form. -/
theorem isNormal_parseChars (text : List Char) : (parseChars text).IsNormal := by
  by_cases hlength : text.length ≤ maxTextLength
  · exact (exists_parts_parseChars hlength).1
  · have hlt : maxTextLength < text.length := Nat.not_le.mp hlength
    have hne := take_maxTextLength_ne_nil (List.ne_nil_of_length_pos (Nat.zero_lt_of_lt hlt))
    rw [parseChars_of_lt hlt]
    refine ⟨List.forall_mem_singleton.mpr (Segment.isNormal_plain ?_), .singleton _⟩
    exact fun h ↦ hne (String.ofList_eq_empty_iff.mp h)

/-! ### Visible text -/

theorem map_char_sublist_source (glyphs : List Glyph) :
    (glyphs.map Glyph.char).Sublist (source glyphs) := by
  induction glyphs with
  | nil => exact .slnil
  | cons glyph glyphs ih =>
    have hglyph : [glyph.char].Sublist glyph.spelling := by
      unfold Glyph.spelling
      split <;> simp
    exact hglyph.append ih

theorem unescaped_sublist (slice : List Char) : (unescaped slice).toList.Sublist slice := by
  rw [unescaped, Glyph.text, String.toList_ofList]
  have hsublist := map_char_sublist_source (ofText slice)
  rwa [Glyph.source_ofText] at hsublist

theorem Segment.ReadFrom.content_sublist {segment : Segment} {slice : List Char}
    (hread : segment.ReadFrom slice) : segment.content.toList.Sublist slice := by
  cases hread with
  | plain => exact unescaped_sublist slice
  | @span kind mark hmark inner hinner =>
    exact (unescaped_sublist inner).trans
      (.trans (List.sublist_append_right mark inner) (List.sublist_append_left _ mark))
  | @link inner url hinner hurl =>
    refine (unescaped_sublist inner).trans ?_
    simp only [List.cons_append, List.append_assoc]
    exact .cons _ (List.sublist_append_left inner _)

theorem plainText_toList (text : RichText) :
    text.plainText.toList = text.flatMap fun segment ↦ segment.content.toList := by
  rw [RichText.plainText, String.toList_join, List.flatMap_map]

theorem plainText_sublist_flatten {text : RichText} {slices : List (List Char)}
    (hreads : List.Forall₂ Segment.ReadFrom text slices) :
    text.plainText.toList.Sublist slices.flatten := by
  rw [plainText_toList]
  induction hreads with
  | nil => exact .slnil
  | cons hread _ ih => exact hread.content_sublist.append ih

/-- The characters of the visible text stand in the text in this order. -/
theorem plainText_parseChars_sublist (text : List Char) :
    (RichText.plainText (parseChars text)).toList.Sublist text := by
  by_cases hlength : text.length ≤ maxTextLength
  · obtain ⟨slices, hslices, -, hreads⟩ := exists_slices_parseChars hlength
    have hsublist := plainText_sublist_flatten hreads
    rwa [hslices] at hsublist
  · rw [parseChars_of_lt (Nat.not_le.mp hlength), plainText_toList]
    simpa [Segment.plain] using List.take_sublist maxTextLength text

/-- No more is shown than is read. -/
theorem plainText_parseChars_length_le (text : List Char) :
    (RichText.plainText (parseChars text)).length ≤ min text.length maxTextLength := by
  have hsublist := (plainText_parseChars_sublist text).length_le
  rw [String.length_toList] at hsublist
  refine Nat.le_min.mpr ⟨hsublist, ?_⟩
  by_cases hlength : text.length ≤ maxTextLength
  · exact hsublist.trans hlength
  · rw [parseChars_of_lt (Nat.not_le.mp hlength), ← String.length_toList, plainText_toList,
      List.flatMap_singleton, Segment.plain, String.toList_ofList]
    exact List.length_take_le _ _

theorem parseChars_nil : parseChars [] = [] := by
  simp [parseChars, ofText, pieces, joinPieces, plainSegment]

/-- Reading loses and invents nothing. A text without terminal sequences is read as nothing where it
is empty, and is cut and shown as it is where it is too long. Every other text falls apart into
consecutive slices, one for each segment in order, and no glyph is cut; each segment is what its
slice is read as. The segments are in normal form, and no more is shown than is read. -/
theorem parse_slices (raw : String) :
    let text := Sgr.strip .graphic raw.toList
    (text = [] → parse raw = []) ∧
      (maxTextLength < text.length →
        parse raw = [.plain (String.ofList (text.take maxTextLength))]) ∧
      (text.length ≤ maxTextLength →
        ∃ slices, slices.flatten = text ∧ slices.flatMap ofText = ofText text ∧
          List.Forall₂ Segment.ReadFrom (parse raw) slices) ∧
      (parse raw).IsNormal ∧ (parse raw).plainText.length ≤ min text.length maxTextLength := by
  intro text
  have hparse : parse raw = parseChars text := rfl
  rw [hparse]
  refine ⟨?_, parseChars_of_lt, exists_slices_parseChars, isNormal_parseChars text,
    plainText_parseChars_length_le text⟩
  intro hempty
  rw [hempty, parseChars_nil]

end HelpSheet.Markup
