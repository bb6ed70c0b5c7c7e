import HelpSheet.Proofs.Markup.ColoredLines
import HelpSheet.Proofs.Markup.Inert

/-!
# Summaries of colored documentation

Colors can make a difference to the line that is summarized and none to its summary: stripping a
sequence at the end of the line first lets the line lose the blanks before the sequence too, and
these are not part of a sentence that ends before them. The summary is what it would be without
sequences exactly where the documentation keeps the line, or the line keeps its shape but for blanks
at its end and a sentence of it ends inside the text, or with plain text (`summarize_eq_iff`).
-/

set_option autoImplicit false
set_option relaxedAutoImplicit false

namespace HelpSheet.Markup

open Glyph (ofText)

/-! ### Sentences next to inert text -/

theorem not_isEscapable_of_isBlank {c : Char} (hc : Text.isBlank c) : ¬ isEscapable c := by
  intro hescapable
  have hmark : c = codeMark ∨ c = '*' ∨ c = '[' ∨ c = ']' ∨ c = '(' ∨ c = ')' ∨ c = '\\' := by
    simpa [isEscapable, or_assoc] using hescapable
  rcases hmark with rfl | rfl | rfl | rfl | rfl | rfl | rfl <;> exact absurd hc (by decide)

theorem not_isTerminator_of_isBlank {c : Char} (hc : Text.isBlank c) : ¬ isTerminator c := by
  intro hterminator
  have hmark : c = '.' ∨ c = '!' ∨ c = '?' := by simpa [isTerminator, or_assoc] using hterminator
  rcases hmark with rfl | rfl | rfl <;> exact absurd hc (by decide)

theorem isInert_of_blank {text : List Char} (hblank : ∀ c ∈ text, Text.isBlank c) :
    IsInert text :=
  fun c hc ↦ not_isEscapable_of_isBlank (hblank c hc)

theorem sentenceLength?_of_not_isTerminator {c : Char} (hc : ¬ isTerminator c) {inCode : Bool}
    (previous : Option Char) (rest : List (Char × Bool)) :
    sentenceLength? previous ((c, inCode) :: rest) =
      (sentenceLength? (some c) rest).map (· + 1) := by
  rw [sentenceLength?, if_neg]
  simp [hc]

/-- Blanks behind a text end no sentence, and a sentence at the end of the text may stand before
them. -/
theorem sentenceLength?_append_blank {back : List Char} (hback : ∀ c ∈ back, Text.isBlank c)
    (previous : Option Char) (chars : List (Char × Bool)) :
    sentenceLength? previous (chars ++ back.map fun c ↦ (c, false)) =
      sentenceLength? previous chars := by
  induction chars generalizing previous with
  | nil =>
    induction back generalizing previous with
    | nil => rfl
    | cons c back ih =>
      obtain ⟨hc, hrest⟩ := List.forall_mem_cons.mp hback
      have hnone := ih hrest (some c)
      rw [List.nil_append] at hnone ⊢
      rw [List.map_cons, sentenceLength?_of_not_isTerminator (not_isTerminator_of_isBlank hc),
        hnone]
      rfl
  | cons first rest ih =>
    have hcloses : closesSentence (rest ++ back.map fun c ↦ (c, false)) = closesSentence rest := by
      cases rest with
      | nil =>
        cases back with
        | nil => rfl
        | cons c back => exact hback c List.mem_cons_self
      | cons next rest => rfl
    rw [List.cons_append, sentenceLength?, hcloses, ih, sentenceLength?]

/-- Text in which no sentence ends, and that ends with no full stop, only takes its length. -/
theorem sentenceLength?_front_append {front : List Char} (hfront : ∀ c ∈ front, ¬ isTerminator c)
    {previous : Option Char} (hprevious : previous ≠ some '.') (chars : List (Char × Bool)) :
    sentenceLength? previous ((front.map fun c ↦ (c, false)) ++ chars) =
      (sentenceLength? none chars).map (· + front.length) := by
  induction front generalizing previous with
  | nil =>
    cases chars with
    | nil => rfl
    | cons first rest => simp [sentenceLength?, hprevious]
  | cons c front ih =>
    obtain ⟨hc, hrest⟩ := List.forall_mem_cons.mp hfront
    have hstop : some c ≠ some '.' := fun h ↦ hc (by rw [Option.some_inj.mp h]; rfl)
    rw [List.map_cons, List.cons_append, sentenceLength?_of_not_isTerminator hc, ih hrest hstop,
      Option.map_map]
    rfl

/-- The number of visible characters of the first sentence. -/
theorem visibleChars_firstSentence_length (text : RichText) :
    (visibleChars (firstSentence text)).length =
      (sentenceLength? none (visibleChars text)).getD (visibleChars text).length := by
  cases hlength : sentenceLength? none (visibleChars text) with
  | none => rw [firstSentence_of_eq_none hlength, Option.getD_none]
  | some length =>
    obtain ⟨index, rfl, hends, -⟩ := isLeast_of_sentenceLength? hlength
    have hindex := hends.lt_length
    rw [firstSentence_of_eq_some hlength, visibleChars_takeVisible, List.length_take,
      Option.getD_some]
    omega

/-- Further text in front of a text makes its first sentence longer, unless a sentence ends in
it. -/
theorem eq_nil_of_firstSentence_eq {front text back : List Char} (hinert : IsInert front)
    (hfront : ∀ c ∈ front, ¬ isTerminator c) (hback : ∀ c ∈ back, Text.isBlank c)
    (hlength : (front ++ text ++ back).length ≤ maxTextLength)
    (hequal : firstSentence (parseChars (front ++ text ++ back)) =
      firstSentence (parseChars text)) : front = [] := by
  have hvisible := visibleChars_parseChars_inert hinert (isInert_of_blank hback) hlength
  have hends := sentenceLength?_front_append hfront (Option.some_ne_none '.').symm
    (visibleChars (parseChars text))
  have hlengths : (visibleChars (firstSentence (parseChars (front ++ text ++ back)))).length =
      (visibleChars (firstSentence (parseChars text))).length := by rw [hequal]
  rw [visibleChars_firstSentence_length, visibleChars_firstSentence_length, hvisible,
    sentenceLength?_append_blank hback, hends] at hlengths
  rw [← List.length_eq_zero_iff]
  cases hcount : sentenceLength? none (visibleChars (parseChars text)) with
  | none =>
    simp only [hcount, Option.map_none, Option.getD_none, List.length_append,
      List.length_map] at hlengths
    omega
  | some count =>
    simp only [hcount, Option.map_some, Option.getD_some] at hlengths
    omega

/-! ### Blanks behind a text -/

/-- A sentence ends in the text, and it ends before the end of the text unless that is plain. -/
def ClosesWithin (text : RichText) : Prop :=
  ∃ index, IsLeast {i | EndsSentence text i} index ∧
    (index + 1 < text.plainText.length ∨ ∀ segment ∈ text.getLast?, segment.kind = .plain)

theorem merged_append_plain {text : RichText} (hchain : text.IsChain RichText.Apart)
    {last : Segment} (hlast : last.kind = .plain) {front : RichText}
    (htext : text = front ++ [last]) (content : String) :
    RichText.merged (text ++ [.plain content]) =
      front ++ [{ last with content := last.content ++ content }] := by
  subst htext
  have hjoined : RichText.mergeFront last [.plain content] =
      [{ last with content := last.content ++ content }] := if_pos ⟨hlast, rfl⟩
  have hkinds : (front ++ [{ last with content := last.content ++ content }]).IsChain
      RichText.Apart := by
    rw [List.isChain_append] at hchain ⊢
    refine ⟨hchain.1, .singleton _, fun first hfirst second hsecond ↦ ?_⟩
    obtain rfl := Option.some_inj.mp hsecond
    exact hchain.2.2 first hfirst last rfl
  rw [List.append_assoc, ← RichText.merged_eq_self hkinds, RichText.merged_append front,
    RichText.merged_append front]
  exact congrArg (fun merged ↦ List.foldr RichText.mergeFront merged front) hjoined

theorem merged_append_of_span {text : RichText} (hchain : text.IsChain RichText.Apart)
    (hlast : ∀ segment ∈ text.getLast?, segment.kind ≠ .plain) (next : Segment) :
    RichText.merged (text ++ [next]) = text ++ [next] := by
  refine RichText.merged_eq_self (List.isChain_append.mpr ⟨hchain, .singleton next, ?_⟩)
  exact fun last hmem _ _ hboth ↦ hlast last hmem hboth.1

theorem plainText_append_length (front back : RichText) :
    (front ++ back).plainText.length = front.plainText.length + back.plainText.length := by
  rw [← visibleChars_length, visibleChars_append, List.length_append, visibleChars_length,
    visibleChars_length]

/-- A cut in a segment does not tell whether the segment is longer. -/
theorem takeVisible_singleton_append {segment : Segment} {content : String}
    (hcontent : content ≠ "") {count : Nat} (hcount : count ≤ segment.content.length) :
    takeVisible count [{ segment with content := segment.content ++ content }] =
      takeVisible count [segment] := by
  have hpos : 0 < content.length := Nat.pos_of_ne_zero (mt String.length_eq_zero_iff.mp hcontent)
  have hlonger : ¬ (segment.content ++ content).length ≤ count := by
    rw [String.length_append]
    omega
  have htake : (segment.content ++ content).toList.take count =
      segment.content.toList.take count := by
    rw [String.toList_append, List.take_append_of_le_length (by rwa [String.length_toList])]
  rw [takeVisible, if_neg hlonger, htake, takeVisible]
  obtain hinside | rfl := hcount.lt_or_eq
  · rw [if_neg (Nat.not_le.mpr hinside)]
  · rw [if_pos le_rfl, ← String.length_toList, List.take_length, String.ofList_toList, takeVisible]

/-- Plain text behind a text makes no difference to a cut in the text, unless it becomes a segment
of its own and the cut is at the end of the text. -/
theorem takeVisible_merged_append {text : RichText} (hne : text ≠ [])
    (hchain : text.IsChain RichText.Apart) {content : String} (hcontent : content ≠ "")
    {count : Nat} (hcount : count ≤ text.plainText.length) :
    takeVisible count (RichText.merged (text ++ [.plain content])) = takeVisible count text ↔
      count < text.plainText.length ∨ ∀ segment ∈ text.getLast?, segment.kind = .plain := by
  obtain ⟨front, last, rfl⟩ := (List.eq_nil_or_concat' text).resolve_left hne
  simp only [List.getLast?_concat, Option.mem_some_iff, forall_eq']
  by_cases hplain : last.kind = .plain
  · rw [merged_append_plain hchain hplain rfl]
    refine iff_of_true ?_ (.inr hplain)
    by_cases hinside : count < (RichText.plainText front).length
    · rw [takeVisible_append_of_lt hinside, takeVisible_append_of_lt hinside]
    · obtain ⟨more, rfl⟩ := Nat.exists_eq_add_of_le (Nat.not_lt.mp hinside)
      rw [plainText_append_length, plainText_length_cons, plainText_length_nil] at hcount
      rw [takeVisible_append, takeVisible_append, takeVisible_singleton_append hcontent]
      omega
  · have hspan : ∀ segment ∈ (front ++ [last]).getLast?, segment.kind ≠ .plain := by
      simpa using hplain
    rw [merged_append_of_span hchain hspan, or_iff_left hplain]
    obtain hinside | hend := hcount.lt_or_eq
    · exact iff_of_true (takeVisible_append_of_lt hinside _) hinside
    · rw [hend, takeVisible_append_cons hcontent, takeVisible_of_length_le le_rfl]
      simp

theorem parseChars_of_blank {text : List Char} (hblank : ∀ c ∈ text, Text.isBlank c) :
    parseChars text = plainSegment (text.take maxTextLength).reverse := by
  by_cases hlength : text.length ≤ maxTextLength
  · rw [parseChars_of_isInert (isInert_of_blank hblank) hlength, List.take_of_length_le hlength]
  · have hne : text ≠ [] := by
      rintro rfl
      exact hlength (Nat.zero_le _)
    rw [parseChars_of_lt (Nat.not_le.mp hlength),
      plainSegment_of_ne_nil (take_maxTextLength_ne_nil hne)]

variable {text blanks : List Char}

/-- Blanks behind a text make no difference to its first sentence exactly where one ends in it, and
not with markup. -/
theorem firstSentence_append_blank_iff (hblank : ∀ c ∈ blanks, Text.isBlank c)
    (hblanks : blanks ≠ []) (hlength : (text ++ blanks).length ≤ maxTextLength) :
    firstSentence (parseChars (text ++ blanks)) = firstSentence (parseChars text) ↔
      ClosesWithin (parseChars text) := by
  have hback : blanks.length ≤ maxTextLength := by
    rw [List.length_append] at hlength
    omega
  have hread : parseChars (text ++ blanks) =
      RichText.merged (parseChars text ++ [.plain (String.ofList blanks)]) := by
    rw [parseChars_append_inert (isInert_of_blank hblank) hlength,
      parseChars_of_isInert (isInert_of_blank hblank) hback, plainSegment_of_ne_nil hblanks]
  have hvisible : visibleChars (parseChars (text ++ blanks)) =
      visibleChars (parseChars text) ++ blanks.map fun c ↦ (c, false) :=
    visibleChars_parseChars_inert (List.forall_mem_nil _) (isInert_of_blank hblank) hlength
  have hsentence : sentenceLength? none (visibleChars (parseChars (text ++ blanks))) =
      sentenceLength? none (visibleChars (parseChars text)) := by
    rw [hvisible, sentenceLength?_append_blank hblank]
  obtain ⟨index, hleast⟩ | hnone := exists_isLeast_or_forall_not (parseChars text)
  · have hfound := sentenceLength?_eq_of_isLeast (isLeast_endsAfter hleast)
    have hindex : index < (parseChars text).plainText.length := by
      rw [← visibleChars_length]
      exact (isLeast_endsAfter hleast).1.lt_length
    have hne : parseChars text ≠ [] := by
      intro hnil
      rw [hnil] at hindex
      exact absurd hindex (Nat.not_lt_zero index)
    have hcontent : String.ofList blanks ≠ "" := mt String.ofList_eq_empty_iff.mp hblanks
    rw [firstSentence_of_eq_some (hsentence.trans hfound), firstSentence_of_eq_some hfound, hread,
      takeVisible_merged_append hne (isNormal_parseChars text).isChain hcontent hindex]
    constructor
    · exact fun hcut ↦ ⟨index, hleast, hcut⟩
    · rintro ⟨other, hother, hcut⟩
      rwa [hleast.unique hother]
  · refine iff_of_false (fun hequal ↦ ?_) (fun ⟨index, hleast, _⟩ ↦ hnone index hleast.1)
    have hmissing := sentenceLength?_eq_none hnone
    rw [firstSentence_of_eq_none (hsentence.trans hmissing), firstSentence_of_eq_none hmissing]
      at hequal
    rw [hequal, List.self_eq_append_right, List.map_eq_nil_iff] at hvisible
    exact hblanks hvisible

/-! ### Lines that are blank without their sequences -/

theorem not_isBlank_head_ofText {text : List Char} (hhead : ∀ c ∈ text.head?, ¬ Text.isBlank c) :
    ∀ glyph ∈ (ofText text).head?, ¬ Text.isBlank glyph.char := by
  intro glyph hglyph
  rcases text with _ | ⟨c, _ | ⟨next, rest⟩⟩
  · cases hglyph
  · obtain rfl := Option.some_inj.mp hglyph
    exact hhead c rfl
  · rw [ofText] at hglyph
    split at hglyph
    · next hescapes =>
      obtain rfl := Option.some_inj.mp hglyph
      rw [Bool.and_eq_true] at hescapes
      exact fun hblank ↦ not_isEscapable_of_isBlank hblank hescapes.2
    · obtain rfl := Option.some_inj.mp hglyph
      exact hhead c rfl

/-- A text that does not begin with a blank is not read as plain text that does. -/
theorem exists_parseChars_cons (hne : text ≠ []) (hhead : ∀ c ∈ text.head?, ¬ Text.isBlank c) :
    ∃ segment rest, parseChars text = segment :: rest ∧
      (segment.kind = .plain → ∀ c ∈ segment.content.toList.head?, ¬ Text.isBlank c) := by
  by_cases hlength : text.length ≤ maxTextLength
  · obtain ⟨hnormal, parts, hparts, hreads⟩ := exists_parts_parseChars hlength
    have hsettled := Glyph.settled_ofText text
    have hglyph := not_isBlank_head_ofText hhead
    rw [← hparts] at hsettled hglyph
    cases hread : parseChars text with
    | nil =>
      rw [hread] at hreads
      cases hreads
      have hsource := Glyph.source_ofText text
      rw [← hparts] at hsource
      exact absurd hsource.symm hne
    | cons segment rest =>
      rw [hread] at hreads
      obtain ⟨part, others, hsegment, -, rfl⟩ := List.forall₂_cons_left_iff.mp hreads
      refine ⟨segment, rest, rfl, fun hplain c hc ↦ ?_⟩
      rw [List.flatten_cons] at hsettled hglyph
      rw [hsegment.eq_plain hplain, Segment.plain, unescaped_source hsettled.append_left,
        Glyph.text, String.toList_ofList, List.head?_map] at hc
      obtain ⟨glyph, hfirst, rfl⟩ := Option.map_eq_some_iff.mp hc
      exact hglyph glyph (List.mem_head?_append_of_mem_head? hfirst)
  · refine ⟨_, [], parseChars_of_lt (Nat.not_le.mp hlength), fun _ c hc ↦ hhead c ?_⟩
    rw [Segment.plain, String.toList_ofList, List.head?_take] at hc
    exact (Option.ite_none_left_eq_some.mp hc).2

theorem exists_takeVisible_cons {count : Nat} (hcount : 0 < count) (segment : Segment)
    (rest : RichText) :
    ∃ kept others, takeVisible count (segment :: rest) = kept :: others ∧
      kept.kind = segment.kind ∧ kept.content.toList.head? = segment.content.toList.head? := by
  rw [takeVisible]
  by_cases hfits : segment.content.length ≤ count
  · rw [if_pos hfits]
    exact ⟨segment, _, rfl, rfl, rfl⟩
  · rw [if_neg hfits]
    refine ⟨_, [], rfl, rfl, ?_⟩
    rw [String.toList_ofList, List.head?_take, if_neg hcount.ne']

/-- The first sentence of a text begins as the text does. -/
theorem exists_firstSentence_cons (segment : Segment) (rest : RichText) :
    ∃ kept others, firstSentence (segment :: rest) = kept :: others ∧
      kept.kind = segment.kind ∧ kept.content.toList.head? = segment.content.toList.head? := by
  cases hlength : sentenceLength? none (visibleChars (segment :: rest)) with
  | none =>
    rw [firstSentence_of_eq_none hlength]
    exact ⟨segment, rest, rfl, rfl, rfl⟩
  | some length =>
    obtain ⟨index, rfl, -⟩ := isLeast_of_sentenceLength? hlength
    rw [firstSentence_of_eq_some hlength]
    exact exists_takeVisible_cons index.succ_pos segment rest

/-- Blanks are their own first sentence. -/
theorem firstSentence_of_blank (hblank : ∀ c ∈ blanks, Text.isBlank c) :
    firstSentence (parseChars blanks) = plainSegment (blanks.take maxTextLength).reverse := by
  have hcut : ∀ c ∈ blanks.take maxTextLength, Text.isBlank c :=
    fun c hc ↦ hblank c (List.mem_of_mem_take hc)
  rw [parseChars_of_blank hblank, firstSentence_of_eq_none]
  rw [visibleChars_plainSegment]
  exact sentenceLength?_append_blank hcut none []

/-- Blanks have the first sentence of a text that does not begin with a blank only where there are
neither blanks nor a text. -/
theorem eq_of_firstSentence_eq (hblank : ∀ c ∈ blanks, Text.isBlank c)
    (hhead : ∀ c ∈ text.head?, ¬ Text.isBlank c)
    (hequal : firstSentence (parseChars blanks) = firstSentence (parseChars text)) :
    blanks = [] ∧ text = [] := by
  rw [firstSentence_of_blank hblank] at hequal
  by_cases htext : text = []
  · refine ⟨?_, htext⟩
    by_contra hne
    rw [htext, parseChars_nil, plainSegment_of_ne_nil (take_maxTextLength_ne_nil hne)] at hequal
    cases hequal
  · obtain ⟨segment, rest, hread, hshown⟩ := exists_parseChars_cons htext hhead
    obtain ⟨kept, others, hkept, hkind, hfirst⟩ := exists_firstSentence_cons segment rest
    rw [hread, hkept] at hequal
    by_cases hne : blanks = []
    · rw [hne] at hequal
      cases hequal
    · have hcut := take_maxTextLength_ne_nil hne
      rw [plainSegment_of_ne_nil hcut] at hequal
      obtain ⟨rfl, -⟩ := List.cons.inj hequal
      obtain ⟨c, hc⟩ := Option.isSome_iff_exists.mp (List.isSome_head?.mpr hcut)
      rw [Segment.plain, String.toList_ofList, hc] at hfirst
      refine absurd ?_ (hshown hkind.symm c hfirst.symm)
      exact hblank c (List.mem_of_mem_take (List.mem_of_mem_head? hc))

/-! ### The text that is summarized -/

/-- What may stand before the text that is summarized and go when the line is stripped first: parts
of a heading mark. -/
def IsHeadingPart (text : List Char) : Prop :=
  ∀ c ∈ text, c = '#' ∨ Text.isBlank c

theorem IsHeadingPart.isInert {front : List Char} (hfront : IsHeadingPart front) :
    IsInert front := by
  intro c hc
  rcases hfront c hc with rfl | hblank
  · decide
  · exact not_isEscapable_of_isBlank hblank

theorem IsHeadingPart.not_isTerminator {front : List Char} (hfront : IsHeadingPart front) :
    ∀ c ∈ front, ¬ isTerminator c := by
  intro c hc
  rcases hfront c hc with rfl | hblank
  · decide
  · exact not_isTerminator_of_isBlank hblank

theorem isHeadingPart_headingMark (line : List Char) : IsHeadingPart (headingMark line) := by
  intro c hc
  obtain ⟨hmark, -⟩ | ⟨signs, blanks, hmark, -, -, hsigns, hblanks, -⟩ := headingMark_cases line
  · rw [hmark] at hc
    cases hc
  · rw [hmark, List.mem_append] at hc
    exact hc.imp (hsigns c) (hblanks c)

/-- A heading mark goes whole. -/
theorem withoutHeadingMark_append {signs blanks rest : List Char} (hsigns : ∀ c ∈ signs, c = '#')
    (hblanks : ∀ c ∈ blanks, Text.isBlank c) (hsign : signs ≠ []) (hblank : blanks ≠ [])
    (hrest : ∀ c ∈ rest.head?, ¬ Text.isBlank c) :
    withoutHeadingMark (signs ++ (blanks ++ rest)) = rest := by
  have hmarks : ∀ c ∈ signs, decide (c = '#') = true := fun c hc ↦ decide_eq_true (hsigns c hc)
  obtain ⟨first, others, rfl⟩ := List.exists_cons_of_ne_nil hblank
  have hfirst : ¬ decide (first = '#') = true := by
    rw [decide_eq_true_eq]
    rintro rfl
    exact absurd (hblanks '#' List.mem_cons_self) (by decide)
  have hafter : (signs ++ (first :: others ++ rest)).dropWhile (· = '#') =
      first :: others ++ rest := by
    rw [List.dropWhile_append_of_pos hmarks]
    exact List.dropWhile_cons_of_neg hfirst
  have hkept : rest.dropWhile Text.isBlank = rest := by
    cases rest with
    | nil => rfl
    | cons c rest => exact List.dropWhile_cons_of_neg (hrest c rfl)
  rw [withoutHeadingMark_eq_ite, hafter, if_pos, List.dropWhile_append_of_pos hblanks, hkept]
  refine ⟨?_, ?_⟩
  · rw [List.takeWhile_append_of_pos hmarks]
    exact List.append_ne_nil_of_left_ne_nil hsign _
  · rw [List.takeWhile_append_of_pos hblanks]
    exact List.append_ne_nil_of_left_ne_nil hblank _

/-- What is summarized is blank, or what would be summarized without sequences between parts of a
heading mark and blanks. -/
theorem strip_withoutHeadingMark_cases (line : List Char) :
    (∀ c ∈ Sgr.strip .graphic (withoutHeadingMark line), Text.isBlank c) ∨
      ∃ front back, IsHeadingPart front ∧ (∀ c ∈ back, Text.isBlank c) ∧
        Sgr.strip .graphic (withoutHeadingMark line) =
          front ++ withoutHeadingMark (Text.trim (Sgr.strip .graphic line)) ++ back := by
  have hsplit := strip_eq_headingMark_append line
  obtain ⟨-, hline⟩ | ⟨signs, blanks, hmark, hsign, hblank, hsigns, hblanks, -⟩ :=
    headingMark_cases line
  · right
    obtain ⟨front, back, hfront, hback, htrim⟩ := Text.exists_append_trim (Sgr.strip .graphic line)
    refine ⟨front ++ headingMark (Text.trim (Sgr.strip .graphic line)), back, ?_, hback, ?_⟩
    · intro c hc
      rcases List.mem_append.mp hc with hc | hc
      · exact .inr (hfront c hc)
      · exact isHeadingPart_headingMark _ c hc
    · rw [List.append_assoc front, headingMark_append_withoutHeadingMark, hline]
      exact htrim
  · by_cases hrest : Text.trim (Sgr.strip .graphic (withoutHeadingMark line)) = []
    · exact .inl (Text.trim_eq_nil_iff.mp hrest)
    · right
      obtain ⟨front, back, hfront, hback, htrim⟩ :=
        Text.exists_append_trim (Sgr.strip .graphic (withoutHeadingMark line))
      refine ⟨front, back, fun c hc ↦ .inr (hfront c hc), hback, ?_⟩
      have htrimmed := Text.isTrimmed_trim (Sgr.strip .graphic (withoutHeadingMark line))
      generalize Text.trim (Sgr.strip .graphic (withoutHeadingMark line)) = rest at *
      have hbetween : ∀ c ∈ blanks ++ front, Text.isBlank c := List.forall_mem_append.mpr
        ⟨hblanks, hfront⟩
      have hstripped : Sgr.strip .graphic line =
          [] ++ (signs ++ (blanks ++ front ++ rest)) ++ back := by
        rw [hsplit, hmark, htrim]
        simp only [List.nil_append, List.append_assoc]
      rw [hstripped, Text.trim_append_append (List.forall_mem_nil _) hback, Text.trim_eq_self,
        withoutHeadingMark_append hsigns hbetween hsign (by simp [hblank]) htrimmed.head, htrim]
      refine ⟨fun c hc ↦ ?_, fun c hc ↦ htrimmed.last c ?_⟩
      · rw [List.head?_append_of_ne_nil _ hsign] at hc
        rw [hsigns c (List.mem_of_mem_head? hc)]
        decide
      · rwa [← List.append_assoc, List.getLast?_append_of_ne_nil _ hrest] at hc

/-- Of two texts that differ in parts of a heading mark and blanks alone, the first sentences agree
where the texts do, or where only blanks behind the text are more and no sentence reaches them. -/
theorem firstSentence_parseChars_eq_iff {read stripped : List Char}
    (htrimmed : Text.IsTrimmed stripped)
    (hcases : (∀ c ∈ read, Text.isBlank c) ∨
      ∃ front back, IsHeadingPart front ∧ (∀ c ∈ back, Text.isBlank c) ∧
        read = front ++ stripped ++ back)
    (hlength : read.length ≤ maxTextLength) :
    firstSentence (parseChars read) = firstSentence (parseChars stripped) ↔
      read = stripped ∨ ∃ blanks, blanks ≠ [] ∧ (∀ c ∈ blanks, Text.isBlank c) ∧
        read = stripped ++ blanks ∧ ClosesWithin (parseChars stripped) := by
  constructor
  · intro hequal
    obtain hblank | ⟨front, back, hfront, hback, rfl⟩ := hcases
    · obtain ⟨hread, hstripped⟩ := eq_of_firstSentence_eq hblank htrimmed.head hequal
      exact .inl (hread.trans hstripped.symm)
    · obtain rfl := eq_nil_of_firstSentence_eq hfront.isInert hfront.not_isTerminator hback hlength
        hequal
      rw [List.nil_append] at hlength hequal ⊢
      by_cases hnil : back = []
      · exact .inl (by rw [hnil, List.append_nil])
      · exact .inr ⟨back, hnil, hback, rfl,
          (firstSentence_append_blank_iff hback hnil hlength).mp hequal⟩
  · rintro (rfl | ⟨blanks, hne, hblank, rfl, hcloses⟩)
    · rfl
    · exact (firstSentence_append_blank_iff hblank hne hlength).mpr hcloses

variable {documentation : List String}

theorem isTrimmed_summaryText (honce : StripsOnce documentation) :
    Text.IsTrimmed (summaryText (documentation.map Sgr.withoutGraphics)) := by
  cases hshown : firstShown? (documentation.map Sgr.withoutGraphics) with
  | none =>
    rw [summaryText_of_firstShown?_eq_none hshown]
    decide
  | some shown => exact (isTrimmed_summaryText_map_withoutGraphics honce hshown).2

theorem isBlank_of_mem_summaryText {line : String} (hline : firstShown? documentation = some line)
    (hblank : Text.trimmed (Sgr.withoutGraphics line) = "") :
    ∀ c ∈ summaryText documentation, Text.isBlank c := by
  intro c hc
  rw [summaryText_of_firstShown? hline] at hc
  rw [trimmed_withoutGraphics_eq_empty_iff, Text.trim_eq_nil_iff,
    strip_eq_headingMark_append] at hblank
  exact hblank c (List.mem_append_right _ hc)

theorem summaryText_cases (honce : StripsOnce documentation) :
    (∀ c ∈ summaryText documentation, Text.isBlank c) ∨
      ∃ front back, IsHeadingPart front ∧ (∀ c ∈ back, Text.isBlank c) ∧
        summaryText documentation =
          front ++ summaryText (documentation.map Sgr.withoutGraphics) ++ back := by
  cases hline : firstShown? documentation with
  | none =>
    rw [summaryText_of_firstShown?_eq_none hline]
    exact .inl (List.forall_mem_nil _)
  | some line =>
    by_cases hblank : Text.trimmed (Sgr.withoutGraphics line) = ""
    · exact .inl (isBlank_of_mem_summaryText hline hblank)
    · rw [summaryText_of_firstShown? hline, summaryText_map_withoutGraphics honce
        (List.mem_of_find?_eq_some hline) (firstShown?_map_withoutGraphics hline hblank)]
      exact strip_withoutHeadingMark_cases _

/-- The line that is summarized keeps its shape but for blanks at its end, and its first sentence
ends before these, and not with markup. -/
def EndsBeforeBlanks (documentation : List String) : Prop :=
  ∃ line blanks, firstShown? documentation = some line ∧ blanks ≠ [] ∧
    (∀ c ∈ blanks, Text.isBlank c) ∧ KeepsShapeBefore blanks (Text.trim line.toList) ∧
    ClosesWithin (parseChars (withoutHeadingMark
      (Text.trim (Sgr.strip .graphic (Text.trim line.toList)))))

theorem not_closesWithin_nil : ¬ ClosesWithin (parseChars []) := by
  rintro ⟨index, ⟨⟨⟨c, hc, -⟩, -⟩, -⟩, -⟩
  rw [parseChars_nil] at hc
  cases hc

/-- The text that is summarized has further blanks behind it where the line does. -/
theorem endsBeforeBlanks_iff (honce : StripsOnce documentation) :
    EndsBeforeBlanks documentation ↔
      ∃ blanks, blanks ≠ [] ∧ (∀ c ∈ blanks, Text.isBlank c) ∧
        summaryText documentation =
          summaryText (documentation.map Sgr.withoutGraphics) ++ blanks ∧
        ClosesWithin (parseChars (summaryText (documentation.map Sgr.withoutGraphics))) := by
  constructor
  · rintro ⟨line, blanks, hline, hne, hblank, hkeeps, hcloses⟩
    have hshown := mt trimmed_withoutGraphics_eq_empty_iff.mp hkeeps.ne_nil
    rw [summaryText_of_firstShown? hline, summaryText_map_withoutGraphics honce
      (List.mem_of_find?_eq_some hline) (firstShown?_map_withoutGraphics hline hshown)]
    exact ⟨blanks, hne, hblank,
      (strip_withoutHeadingMark_eq_append_iff hblank hkeeps.ne_nil).mpr hkeeps, hcloses⟩
  · rintro ⟨blanks, hne, hblank, hequal, hcloses⟩
    cases hline : firstShown? documentation with
    | none =>
      rw [summaryText_of_firstShown?_eq_none hline] at hequal
      exact absurd (List.append_eq_nil_iff.mp hequal.symm).2 hne
    | some line =>
      by_cases hshown : Text.trimmed (Sgr.withoutGraphics line) = ""
      · -- The line would show nothing, and no sentence ends in nothing.
        have hnothing := isBlank_of_mem_summaryText hline hshown
        rw [hequal, List.forall_mem_append, ← Text.trim_eq_nil_iff,
          Text.trim_eq_self (isTrimmed_summaryText honce)] at hnothing
        rw [hnothing.1] at hcloses
        exact absurd hcloses not_closesWithin_nil
      · rw [summaryText_of_firstShown? hline, summaryText_map_withoutGraphics honce
          (List.mem_of_find?_eq_some hline) (firstShown?_map_withoutGraphics hline hshown)]
          at hequal
        rw [summaryText_map_withoutGraphics honce (List.mem_of_find?_eq_some hline)
          (firstShown?_map_withoutGraphics hline hshown)] at hcloses
        have htrim := mt trimmed_withoutGraphics_eq_empty_iff.mpr hshown
        exact ⟨line, blanks, hline, hne, hblank,
          (strip_withoutHeadingMark_eq_append_iff hblank htrim).mp hequal, hcloses⟩

/-- The summary of a documentation whose line to summarize is not too long for markup is what it is
without sequences exactly where the documentation keeps the line, or a sentence of the line ends
before the blanks that stripping takes from its end. -/
theorem summarize_eq_iff (honce : StripsOnce documentation)
    (hlength : (summaryText documentation).length ≤ maxTextLength) :
    summarize documentation = summarize (documentation.map Sgr.withoutGraphics) ↔
      KeepsHeadline documentation ∨ EndsBeforeBlanks documentation := by
  rw [summarize_eq_firstSentence, summarize_eq_firstSentence, endsBeforeBlanks_iff honce,
    ← summaryText_eq_iff honce]
  exact firstSentence_parseChars_eq_iff (isTrimmed_summaryText honce) (summaryText_cases honce)
    hlength

/-- The blank before a sequence that clears the color is not part of the sentence. -/
example : summaryText ["Build. x \x1b[0m"] ≠ summaryText ["Build. x"] ∧
    summarize ["Build. x \x1b[0m"] = summarize ["Build. x"] := by decide +kernel

/-- A sentence that ends with markup is followed by a part of the blanks with no content. -/
example : summarize ["**Build.** \x1b[0m"] = summarize ["**Build.**"] ++ [.plain ""] := by
  decide +kernel

end HelpSheet.Markup
