import HelpSheet.Page.Markdown
import HelpSheet.Proofs.Markup.RoundTrip
import HelpSheet.Proofs.Sgr.Sequences

/-!
# Links in Markdown

Documentation without code is written in Markdown as the markup of its segments, with links that are
not safe as their text alone (`inlineText_eq_source`). Read again it therefore shows the same
segments, unless it is too long or holds a terminal sequence. Even then no other links come up: what
is left of the markup when sequences are removed has the same shape (`SafelyLinked.strip`), and text
of that shape links to safe URLs only (`bodyText_links_safe`).
-/

set_option autoImplicit false
set_option relaxedAutoImplicit false

namespace HelpSheet.Page.Markdown

open Markup (RichText Segment Piece escapeLiteral isEscapable codeMark maxTextLength)
open Markup.Glyph (bare ofText)

/-! ### Segments as they are written -/

/-- A segment as it is shown: a link that is refused is plain text. -/
def shown (segment : Segment) : Segment :=
  if isRefused segment then .plain segment.content else segment

theorem segmentText_eq_source {segment : Segment} (hcode : segment.kind ≠ .code) :
    segmentText segment = (shown segment).source := by
  obtain ⟨kind, content, url⟩ := segment
  cases kind with
  | code => exact absurd rfl hcode
  | link =>
    cases hsafe : Escape.Url.safe url <;>
      simp [segmentText, linkText, shown, isRefused, hsafe, Segment.source, Segment.plain]
  | _ => rfl

/-- Rich text without code is written as the markup of the segments as they are shown. -/
theorem inlineText_eq_source {text : RichText} (hcode : ∀ segment ∈ text, segment.kind ≠ .code) :
    inlineText text = RichText.source (text.map shown) := by
  rw [inlineText, RichText.source, List.map_map]
  exact congrArg String.join (List.map_congr_left fun segment hsegment ↦
    segmentText_eq_source (hcode segment hsegment))

/-- A segment that can be shown: it can be written, is not code, and leads to a safe URL if it is a
link. -/
structure IsShowable (segment : Segment) : Prop where
  isWritable : segment.IsWritable
  kind_ne_code : segment.kind ≠ .code
  safe : segment.kind = .link → Escape.Url.safe segment.url

theorem isShowable_shown {segment : Segment} (hnormal : segment.IsNormal)
    (hcode : segment.kind ≠ .code) : IsShowable (shown segment) := by
  by_cases hrefused : isRefused segment
  · rw [shown, if_pos hrefused]
    exact
      { isWritable := ⟨Segment.isNormal_plain hnormal.content_ne, nofun⟩
        kind_ne_code := nofun
        safe := nofun }
  · rw [shown, if_neg hrefused]
    exact
      { isWritable := ⟨hnormal, fun h ↦ absurd h hcode⟩
        kind_ne_code := hcode
        safe := fun hlink ↦ by simpa [isRefused, hlink] using hrefused }

theorem shown_eq_self {segment : Segment}
    (hsafe : segment.kind = .link → Escape.Url.safe segment.url) : shown segment = segment := by
  have hrefused : ¬ isRefused segment := by
    intro hrefused
    rw [isRefused, Bool.and_eq_true, decide_eq_true_eq] at hrefused
    rw [hsafe hrefused.1] at hrefused
    exact Bool.false_ne_true hrefused.2
  exact if_neg hrefused

theorem content_shown (segment : Segment) : (shown segment).content = segment.content := by
  unfold shown
  split <;> rfl

/-! ### Markup that links safely -/

/-- Markup whose spans are whole and lead to safe URLs if they are links. Between the spans stand
escaped characters and characters that begin no span. -/
inductive SafelyLinked : List Char → Prop
  | nil : SafelyLinked []
  | char {c : Char} {rest : List Char} : c ∉ ['\\', codeMark, '*', '['] → SafelyLinked rest →
    SafelyLinked (c :: rest)
  | escaped {c : Char} {rest : List Char} : isEscapable c → SafelyLinked rest →
    SafelyLinked ('\\' :: c :: rest)
  | span {segment : Segment} {rest : List Char} : IsShowable segment → segment.kind ≠ .plain →
    SafelyLinked rest → SafelyLinked (segment.source.toList ++ rest)

theorem not_mem_openers {c : Char} (hc : ¬ isEscapable c) : c ∉ ['\\', codeMark, '*', '['] := by
  have hopeners : ['\\', codeMark, '*', '['].all isEscapable := by decide
  exact fun hmem ↦ hc (List.all_eq_true.mp hopeners c hmem)

theorem SafelyLinked.escapeLiteral_append (text : List Char) {rest : List Char}
    (hrest : SafelyLinked rest) : SafelyLinked (escapeLiteral text ++ rest) := by
  induction text with
  | nil => exact hrest
  | cons c text ih =>
    by_cases hc : isEscapable c
    · simpa [escapeLiteral, hc] using ih.escaped hc
    · simpa [escapeLiteral, hc] using ih.char (not_mem_openers hc)

/-- The markup of segments that can be shown links safely. -/
theorem safelyLinked_source {text : RichText} (htext : ∀ segment ∈ text, IsShowable segment) :
    SafelyLinked text.source.toList := by
  induction text with
  | nil => exact .nil
  | cons segment rest ih =>
    rw [List.forall_mem_cons] at htext
    rw [Markup.source_cons_toList]
    by_cases hplain : segment.kind = .plain
    · rw [htext.1.isWritable.isNormal.eq_plain hplain, Markup.source_plain_toList]
      exact (ih htext.2).escapeLiteral_append _
    · exact .span htext.1 hplain (ih htext.2)

/-- Every span of such markup was written as one. -/
theorem SafelyLinked.safe_of_mem_pieces {text : List Char} (htext : SafelyLinked text)
    {segment : Segment} (hmem : Piece.span segment ∈ Markup.pieces (ofText text))
    (hlink : segment.kind = .link) : Escape.Url.safe segment.url := by
  induction htext with
  | nil => simp [ofText, Markup.pieces] at hmem
  | @char c rest hc _ ih =>
    simp only [List.mem_cons, List.not_mem_nil, or_false, not_or] at hc
    obtain ⟨hbackslash, hcode, hstar, hbracket⟩ := hc
    have hne : ∀ mark, c ≠ mark → bare c ≠ bare mark := fun _ hmark h ↦
      hmark (Markup.Glyph.mk.inj h).1
    rw [Markup.Glyph.ofText_cons hbackslash, Markup.pieces_cons (Markup.readPiece_of_ne
      (hne codeMark hcode) (hne '*' hstar) (hne '[' hbracket) _)] at hmem
    rcases List.mem_cons.mp hmem with heq | hmem
    · cases heq
    · exact ih hmem
  | @escaped c rest hc _ ih =>
    have hread := Markup.pieces_escapeLiteral_append [c] rest
    have hspelling : escapeLiteral [c] ++ rest = '\\' :: c :: rest := by
      simp [escapeLiteral, hc]
    rw [hspelling] at hread
    rw [hread] at hmem
    rcases List.mem_cons.mp hmem with heq | hmem
    · cases heq
    · exact ih hmem
  | @span first rest hshowable hspan _ ih =>
    rw [Markup.pieces_source_append hshowable.isWritable hspan] at hmem
    rcases List.mem_cons.mp hmem with heq | hmem
    · cases heq
      exact hshowable.safe hlink
    · exact ih hmem

/-! ### Removing sequences -/

theorem ne_escape_of_isEscapable {c : Char} (hc : isEscapable c) : c ≠ Sgr.escape := by
  rintro rfl
  exact absurd hc (by decide)

theorem head?_escapeLiteral_append_ne (text : List Char) {rest : List Char}
    (hrest : rest.head? ≠ some '[') : (escapeLiteral text ++ rest).head? ≠ some '[' := by
  cases text with
  | nil => exact hrest
  | cons c text =>
    by_cases hc : isEscapable c
    · simp [escapeLiteral, hc]
    · have hbracket : c ≠ '[' := fun h ↦ hc (h ▸ rfl)
      simpa [escapeLiteral, hc] using hbracket

/-- No sequence begins in escaped text, unless an opening bracket follows it. -/
theorem strip_escapeLiteral_append {sequences : Sgr.SequenceClass} (text : List Char)
    {rest : List Char} (hrest : rest.head? ≠ some '[') :
    Sgr.strip sequences (escapeLiteral text ++ rest) =
      escapeLiteral text ++ Sgr.strip sequences rest := by
  induction text with
  | nil => rfl
  | cons c text ih =>
    rw [Markup.Glyph.escapeLiteral_cons, List.append_assoc, List.append_assoc]
    by_cases hc : isEscapable c
    · have hspelling : (Markup.Glyph.written c).spelling = ['\\', c] := by
        simp [Markup.Glyph.written, Markup.Glyph.spelling, hc]
      simp only [hspelling, List.cons_append, List.nil_append]
      rw [Sgr.strip_cons_of_ne (by decide), Sgr.strip_cons_of_ne (ne_escape_of_isEscapable hc), ih]
    · rw [Markup.Glyph.written_eq_bare hc]
      exact (Sgr.strip_cons_of_none (Sgr.afterSequence?_of_head?_ne
        (head?_escapeLiteral_append_ne text hrest) c)).trans (congrArg (c :: ·) ih)

theorem length_source_pos {segment : Segment} (hspan : segment.kind ≠ .plain) :
    0 < segment.source.toList.length := by
  obtain ⟨kind, content, url⟩ := segment
  cases kind with
  | plain => exact absurd rfl hspan
  | _ => simp [Segment.source, Markup.codeMarkString]

/-- No sequence begins in a span. -/
theorem strip_source_append {segment : Segment} (hspan : segment.kind ≠ .plain)
    (hcode : segment.kind ≠ .code) (rest : List Char) :
    Sgr.strip .graphic (segment.source.toList ++ rest) =
      segment.source.toList ++ Sgr.strip .graphic rest := by
  have hmark : ∀ {mark : Char}, mark ∈ ['*', '[', ']', '(', ')'] → ∀ after : List Char,
      Sgr.strip .graphic (mark :: after) = mark :: Sgr.strip .graphic after := by
    intro mark hmark
    have hescape : Sgr.escape ∉ ['*', '[', ']', '(', ')'] := by decide
    exact Sgr.strip_cons_of_ne (ne_of_mem_of_not_mem hmark hescape)
  have hliteral : ∀ (text : String) {mark : Char}, mark ∈ ['*', ']', ')'] → ∀ after : List Char,
      Sgr.strip .graphic (escapeLiteral text.toList ++ mark :: after) =
        escapeLiteral text.toList ++ Sgr.strip .graphic (mark :: after) := by
    intro text mark hclosing after
    have hbracket : '[' ∉ ['*', ']', ')'] := by decide
    exact strip_escapeLiteral_append text.toList fun h ↦
      ne_of_mem_of_not_mem hclosing hbracket (Option.some_inj.mp h)
  obtain ⟨kind, content, url⟩ := segment
  cases kind with
  | plain => exact absurd rfl hspan
  | code => exact absurd rfl hcode
  | bold => simp [Segment.source, Markup.literal, hliteral, hmark]
  | italic => simp [Segment.source, Markup.literal, hliteral, hmark]
  | link => simp [Segment.source, Markup.literal, hliteral, hmark]

theorem afterParameters?_escapeLiteral_append {text rest after : List Char}
    (h : Sgr.afterParameters? .graphic (escapeLiteral text ++ ']' :: rest) = some after) :
    ∃ left, after = escapeLiteral left ++ ']' :: rest := by
  induction text with
  | nil => cases h
  | cons c text ih =>
    by_cases hc : isEscapable c
    · rw [Markup.Glyph.escapeLiteral_cons] at h
      simp [Markup.Glyph.written, Markup.Glyph.spelling, hc, Sgr.afterParameters?,
        Sgr.SequenceClass.graphic] at h
    · have hliteral : escapeLiteral (c :: text) = c :: escapeLiteral text := by
        simp [escapeLiteral, hc]
      rw [hliteral, List.cons_append, Sgr.afterParameters?] at h
      split at h
      · exact ⟨text, (Option.some_inj.mp h).symm⟩
      · split at h
        · exact ih h
        · cases h

/-- Behind a sequence that was found in such markup stands such markup: the sequence took at most
the bracket of a link and characters of its text. -/
theorem SafelyLinked.of_afterSequence? {c : Char} {rest after : List Char}
    (hrest : SafelyLinked rest) (h : Sgr.afterSequence? .graphic (c :: rest) = some after) :
    SafelyLinked after := by
  obtain ⟨more, rfl, hmore⟩ : ∃ more, rest = '[' :: more ∧
      Sgr.afterParameters? .graphic more = some after := by
    unfold Sgr.afterSequence? at h
    split at h
    · rename_i heq
      exact ⟨_, (List.cons.inj heq).2, h⟩
    · cases h
  -- Of all such markup only a link begins with the bracket of a sequence.
  generalize htext : '[' :: more = text at hrest
  cases hrest with
  | nil => cases htext
  | char hopener =>
    obtain ⟨rfl, -⟩ := List.cons.inj htext
    exact absurd (by decide) hopener
  | escaped => exact absurd (List.cons.inj htext).1 (by decide)
  | @span segment rest hshowable hspan hrest =>
    obtain ⟨kind, content, url⟩ := segment
    cases kind with
    | plain => exact absurd rfl hspan
    | code => exact absurd rfl hshowable.kind_ne_code
    | bold => simp [Segment.source] at htext
    | italic => simp [Segment.source] at htext
    | link =>
      have hclosing : SafelyLinked (']' :: '(' :: (escapeLiteral url.toList ++ ')' :: rest)) :=
        .char (by decide) (.char (by decide)
          (SafelyLinked.escapeLiteral_append _ (.char (by decide) hrest)))
      have hmarkup : more = escapeLiteral content.toList ++
          ']' :: '(' :: (escapeLiteral url.toList ++ ')' :: rest) := by
        simpa [Segment.source, Markup.literal] using htext
      rw [hmarkup] at hmore
      obtain ⟨left, rfl⟩ := afterParameters?_escapeLiteral_append hmore
      exact hclosing.escapeLiteral_append left

/-- Removing sequences leaves such markup. -/
theorem SafelyLinked.strip {text : List Char} (htext : SafelyLinked text) :
    SafelyLinked (Sgr.strip .graphic text) := by
  -- A sequence takes away more than one character, so the induction is on the length.
  induction hlength : text.length using Nat.strong_induction_on generalizing text with
  | _ length ih =>
    subst hlength
    cases htext with
    | nil =>
      rw [Sgr.strip]
      exact .nil
    | @char c rest hc hrest =>
      cases hfound : Sgr.afterSequence? .graphic (c :: rest) with
      | none =>
        rw [Sgr.strip_cons_of_none hfound]
        exact .char hc (ih rest.length (by simp) hrest rfl)
      | some after =>
        rw [Sgr.strip_of_some hfound]
        exact ih after.length (Sgr.length_of_afterSequence? hfound)
          (hrest.of_afterSequence? hfound) rfl
    | @escaped c rest hc hrest =>
      have hshorter : rest.length < ('\\' :: c :: rest).length := by
        simp only [List.length_cons]
        omega
      rw [Sgr.strip_cons_of_ne (by decide), Sgr.strip_cons_of_ne (ne_escape_of_isEscapable hc)]
      exact .escaped hc (ih rest.length hshorter hrest rfl)
    | @span segment rest hshowable hspan hrest =>
      have hshorter : rest.length < (segment.source.toList ++ rest).length := by
        rw [List.length_append]
        exact Nat.lt_add_of_pos_left (length_source_pos hspan)
      rw [strip_source_append hspan hshowable.kind_ne_code]
      exact .span hshowable hspan (ih rest.length hshorter hrest rfl)

/-! ### Reading what was written -/

theorem codeMark_mem_of_readFrom {segment : Segment} {slice : List Char}
    (hread : segment.ReadFrom slice) (hcode : segment.kind = .code) : codeMark ∈ slice := by
  cases hread with
  | plain => cases hcode
  | span hmark =>
    subst hcode
    obtain rfl := Option.some_inj.mp hmark
    simp
  | link => cases hcode

theorem codeMark_mem_flatten {text : RichText} {slices : List (List Char)}
    (hreads : List.Forall₂ Segment.ReadFrom text slices) {segment : Segment}
    (hsegment : segment ∈ text) (hcode : segment.kind = .code) : codeMark ∈ slices.flatten := by
  induction hreads with
  | nil => cases hsegment
  | cons hread _ ih =>
    rcases List.mem_cons.mp hsegment with rfl | hrest
    · exact List.mem_append_left _ (codeMark_mem_of_readFrom hread hcode)
    · exact List.mem_append_right _ (ih hrest)

/-- Documentation without code marks holds no code. -/
theorem kind_ne_code_of_mem_parse {raw : String} (hraw : codeMark ∉ raw.toList) {segment : Segment}
    (hsegment : segment ∈ Markup.parse raw) : segment.kind ≠ .code := by
  intro hcode
  rw [Markup.parse] at hsegment
  by_cases hlength : (Sgr.strip .graphic raw.toList).length ≤ maxTextLength
  · obtain ⟨slices, hslices, -, hreads⟩ := Markup.exists_slices_parseChars hlength
    have hmark := codeMark_mem_flatten hreads hsegment hcode
    rw [hslices] at hmark
    exact hraw ((Sgr.strip_sublist raw.toList).subset hmark)
  · rw [Markup.parseChars_of_lt (Nat.not_le.mp hlength), List.mem_singleton] at hsegment
    subst hsegment
    cases hcode

/-- Markup that links safely is read as such. -/
theorem SafelyLinked.safe_of_mem_parseChars {text : List Char} (htext : SafelyLinked text)
    {segment : Segment} (hsegment : segment ∈ Markup.parseChars text)
    (hlink : segment.kind = .link) : Escape.Url.safe segment.url := by
  have hspan : segment.kind ≠ .plain := by simp [hlink]
  exact htext.safe_of_mem_pieces (Markup.span_mem_pieces hspan hsegment) hlink

section Body

variable {raw : String} (hcode : codeMark ∉ raw.toList)

include hcode

/-- What is read from documentation without code can be shown. -/
theorem isShowable_of_mem_shown {segment : Segment}
    (hsegment : segment ∈ (Markup.parse raw).map shown) : IsShowable segment := by
  obtain ⟨original, horiginal, rfl⟩ := List.mem_map.mp hsegment
  exact isShowable_shown ((Markup.isNormal_parseChars _).segments original horiginal)
    (kind_ne_code_of_mem_parse hcode horiginal)

theorem bodyText_eq_source :
    bodyText raw = RichText.source ((Markup.parse raw).map shown) :=
  inlineText_eq_source fun _ ↦ kind_ne_code_of_mem_parse hcode

/-- The body of documentation without code links to safe URLs only. -/
theorem safe_of_mem_parse_bodyText {segment : Segment}
    (hsegment : segment ∈ Markup.parse (bodyText raw)) (hlink : segment.kind = .link) :
    Escape.Url.safe segment.url := by
  rw [bodyText_eq_source hcode] at hsegment
  have hlinked := safelyLinked_source fun _ ↦ isShowable_of_mem_shown hcode
  exact hlinked.strip.safe_of_mem_parseChars hsegment hlink

/-- The body is read again as what it shows. -/
theorem parse_bodyText (hlength : (bodyText raw).length ≤ maxTextLength)
    (hgraphic : ¬ Sgr.HasGraphic (bodyText raw).toList) :
    Markup.parse (bodyText raw) = RichText.merged ((Markup.parse raw).map shown) := by
  rw [bodyText_eq_source hcode] at hlength hgraphic ⊢
  rw [Markup.parse, Sgr.strip_eq_self hgraphic]
  exact Markup.parseChars_source
    (fun _ hsegment ↦ (isShowable_of_mem_shown hcode hsegment).isWritable) hlength

end Body

theorem plainText_map_shown (text : RichText) :
    RichText.plainText (text.map shown) = text.plainText := by
  rw [RichText.plainText, List.map_map]
  exact congrArg String.join (List.map_congr_left fun segment _ ↦ content_shown segment)

/-- Text of segments that can be shown is written as its markup. -/
theorem inlineText_merged {text : RichText} (htext : ∀ segment ∈ text, IsShowable segment) :
    inlineText text.merged = text.source := by
  have hspan : ∀ segment ∈ text.merged, segment.kind ≠ .plain → IsShowable segment :=
    fun segment hsegment hspan ↦ htext segment (RichText.mem_of_mem_merged hspan hsegment)
  have hcode : ∀ segment ∈ text.merged, segment.kind ≠ .code := fun segment hsegment hcode ↦
    (hspan segment hsegment (by simp [hcode])).kind_ne_code hcode
  have hshown : text.merged.map shown = text.merged.map id :=
    List.map_congr_left fun segment hsegment ↦ shown_eq_self fun hlink ↦
      (hspan segment hsegment (by simp [hlink])).safe hlink
  rw [List.map_id] at hshown
  rw [inlineText_eq_source hcode, hshown, Markup.source_merged]

/-- For documentation without code, no link of the body is live unless its URL is safe. A body that
is not too long and holds no terminal sequence is read again as the documentation, with plain text
in place of the links that are refused: the visible text is the same, and writing it again changes
nothing. -/
theorem bodyText_links_safe {raw : String} (hcode : codeMark ∉ raw.toList) :
    (∀ segment ∈ Markup.parse (bodyText raw), segment.kind = .link →
        Escape.Url.safe segment.url) ∧
      ((bodyText raw).length ≤ maxTextLength → ¬ Sgr.HasGraphic (bodyText raw).toList →
        Markup.parse (bodyText raw) = RichText.merged ((Markup.parse raw).map shown) ∧
          Markup.flatten (bodyText raw) = Markup.flatten raw ∧
          bodyText (bodyText raw) = bodyText raw) := by
  refine ⟨fun _ ↦ safe_of_mem_parse_bodyText hcode, fun hlength hgraphic ↦ ?_⟩
  have hparse := parse_bodyText hcode hlength hgraphic
  refine ⟨hparse, ?_, ?_⟩
  · rw [Markup.flatten, hparse, RichText.plainText_merged, plainText_map_shown]
    rfl
  · rw [bodyText, hparse, inlineText_merged fun _ ↦ isShowable_of_mem_shown hcode,
      bodyText_eq_source hcode]

/-- A refused link, whose text and what follows it would be another link, and a link that is not
refused. -/
def refusedLink : String := "[[a](x:b)](/c)[d](/e)"

/-- Only the second link is live. -/
theorem parse_bodyText_refusedLink :
    codeMark ∉ refusedLink.toList ∧ (bodyText refusedLink).length ≤ maxTextLength ∧
      ¬ Sgr.HasGraphic (bodyText refusedLink).toList ∧
      (∀ segment ∈ Markup.parse (bodyText refusedLink), segment.kind = .link →
        Escape.Url.safe segment.url) ∧
      Markup.parse (bodyText refusedLink) =
        [.plain "[a](/c)", { kind := .link, content := "d", url := "/e" }] := by
  have hcode : codeMark ∉ refusedLink.toList := by decide
  have hbody : bodyText refusedLink = "\\[a\\]\\(/c\\)[d](/e)" := by decide +kernel
  have hlength : (bodyText refusedLink).length ≤ maxTextLength := by
    rw [hbody]
    decide
  have hgraphic : ¬ Sgr.HasGraphic (bodyText refusedLink).toList := by
    rw [hbody]
    decide
  obtain ⟨hsafe, hread⟩ := bodyText_links_safe hcode
  refine ⟨hcode, hlength, hgraphic, hsafe, (hread hlength hgraphic).1.trans ?_⟩
  decide +kernel

end HelpSheet.Page.Markdown
