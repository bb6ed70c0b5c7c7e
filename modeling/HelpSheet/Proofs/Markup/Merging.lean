import Mathlib.Data.List.Chain
import HelpSheet.Markup.Parse

/-!
# Plain segments that meet

Plain text that was read in pieces is one segment: neighbouring plain segments are merged
(`RichText.merged`), which changes neither the spans nor the visible text. Joining the pieces of a
text is merging the segments that the pieces are (`joinPieces_eq_merged`).
-/

set_option autoImplicit false
set_option relaxedAutoImplicit false

namespace HelpSheet.Markup

/-- A plain segment. -/
def Segment.plain (content : String) : Segment where
  kind := .plain
  content := content

namespace RichText

/-- The segment in front of a text. A plain segment becomes a part of the plain segment that the
text begins with. -/
def mergeFront (first : Segment) : RichText → RichText
  | [] => [first]
  | second :: rest =>
    if first.kind = .plain ∧ second.kind = .plain then
      { first with content := first.content ++ second.content } :: rest
    else first :: second :: rest

/-- The text with neighbouring plain segments merged. -/
def merged (text : RichText) : RichText :=
  text.foldr mergeFront []

/-- Two segments that may stand next to each other. -/
def Apart (first second : Segment) : Prop :=
  ¬ (first.kind = .plain ∧ second.kind = .plain)

instance : DecidableRel Apart := fun _ _ ↦ inferInstanceAs (Decidable (¬ _))

theorem merged_cons (first : Segment) (rest : RichText) :
    merged (first :: rest) = mergeFront first (merged rest) := rfl

theorem mergeFront_span {first : Segment} (hspan : first.kind ≠ .plain) (rest : RichText) :
    mergeFront first rest = first :: rest := by
  cases rest with
  | nil => rfl
  | cons second rest => rw [mergeFront, if_neg fun h ↦ hspan h.1]

theorem merged_cons_span {first : Segment} (hspan : first.kind ≠ .plain) (rest : RichText) :
    merged (first :: rest) = first :: merged rest :=
  mergeFront_span hspan _

theorem mergeFront_mergeFront {first second : Segment} (hfirst : first.kind = .plain)
    (hsecond : second.kind = .plain) (rest : RichText) :
    mergeFront first (mergeFront second rest) =
      mergeFront { first with content := first.content ++ second.content } rest := by
  cases rest with
  | nil => simp [mergeFront, hfirst, hsecond]
  | cons third rest =>
    by_cases hthird : third.kind = .plain
    · simp [mergeFront, hfirst, hsecond, hthird, String.append_assoc]
    · simp [mergeFront, hfirst, hsecond, hthird]

/-- Plain text in two pieces is merged to the same as in one. -/
theorem merged_plain_plain (first second : String) (rest : RichText) :
    merged (.plain first :: .plain second :: rest) = merged (.plain (first ++ second) :: rest) :=
  mergeFront_mergeFront rfl rfl (merged rest)

theorem isChain_mergeFront (first : Segment) {rest : RichText} (hrest : rest.IsChain Apart) :
    (mergeFront first rest).IsChain Apart := by
  cases rest with
  | nil => exact .singleton first
  | cons second rest =>
    rw [mergeFront]
    by_cases hplain : first.kind = .plain ∧ second.kind = .plain
    · rw [if_pos hplain]
      rw [List.isChain_cons] at hrest ⊢
      exact ⟨fun third hthird hboth ↦ hrest.1 third hthird ⟨hplain.2, hboth.2⟩, hrest.2⟩
    · rw [if_neg hplain]
      exact List.isChain_cons_cons.mpr ⟨hplain, hrest⟩

/-- No two plain segments of a merged text are neighbours. -/
theorem isChain_merged (text : RichText) : (merged text).IsChain Apart := by
  induction text with
  | nil => exact .nil
  | cons first rest ih => exact isChain_mergeFront first ih

/-- A text without neighbouring plain segments is merged already. -/
theorem merged_eq_self {text : RichText} (hchain : text.IsChain Apart) : merged text = text := by
  induction text with
  | nil => rfl
  | cons first rest ih =>
    rw [merged_cons, ih hchain.of_cons]
    cases rest with
    | nil => rfl
    | cons second rest => exact if_neg (List.isChain_cons_cons.mp hchain).1

theorem merged_append (front back : RichText) :
    merged (front ++ back) = front.foldr mergeFront (merged back) :=
  List.foldr_append

theorem merged_append_merged (front back : RichText) :
    merged (front ++ merged back) = merged (front ++ back) := by
  rw [merged_append, merged_append, merged_eq_self (isChain_merged back)]

theorem merged_mergeFront_append (first : Segment) (rest back : RichText) :
    merged (mergeFront first rest ++ back) = mergeFront first (merged (rest ++ back)) := by
  cases rest with
  | nil => rfl
  | cons second rest =>
    by_cases hplain : first.kind = .plain ∧ second.kind = .plain
    · rw [mergeFront, if_pos hplain, List.cons_append, merged_cons, List.cons_append, merged_cons,
        mergeFront_mergeFront hplain.1 hplain.2]
    · rw [mergeFront, if_neg hplain, List.cons_append, merged_cons]

/-- Merging the parts of a text first makes no difference. -/
theorem merged_merged_append (front back : RichText) :
    merged (merged front ++ back) = merged (front ++ back) := by
  induction front with
  | nil => rfl
  | cons first front ih =>
    rw [merged_cons, merged_mergeFront_append, ih, List.cons_append, merged_cons]

theorem mem_of_mem_mergeFront {first segment : Segment} {rest : RichText}
    (hspan : segment.kind ≠ .plain) (hmem : segment ∈ mergeFront first rest) :
    segment ∈ first :: rest := by
  cases rest with
  | nil => exact hmem
  | cons second rest =>
    rw [mergeFront] at hmem
    split at hmem
    · rename_i hplain
      rcases List.mem_cons.mp hmem with rfl | hmem
      · exact absurd hplain.1 hspan
      · exact List.mem_cons_of_mem _ (List.mem_cons_of_mem _ hmem)
    · exact hmem

/-- Merging makes no spans. -/
theorem mem_of_mem_merged {segment : Segment} {text : RichText} (hspan : segment.kind ≠ .plain)
    (hmem : segment ∈ merged text) : segment ∈ text := by
  induction text with
  | nil => exact hmem
  | cons first rest ih =>
    rcases List.mem_cons.mp (mem_of_mem_mergeFront hspan hmem) with rfl | hrest
    · exact List.mem_cons_self
    · exact List.mem_cons_of_mem _ (ih hrest)

theorem plainText_cons (first : Segment) (rest : RichText) :
    plainText (first :: rest) = first.content ++ plainText rest := by
  rw [← String.toList_inj]
  simp [plainText, String.toList_join]

theorem plainText_mergeFront (first : Segment) (rest : RichText) :
    plainText (mergeFront first rest) = first.content ++ plainText rest := by
  cases rest with
  | nil => exact plainText_cons _ _
  | cons second rest =>
    rw [mergeFront]
    split
    · simp [plainText_cons, String.append_assoc]
    · exact plainText_cons _ _

/-- Merging keeps the visible text. -/
theorem plainText_merged (text : RichText) : plainText (merged text) = plainText text := by
  induction text with
  | nil => rfl
  | cons first rest ih => rw [merged_cons, plainText_mergeFront, ih, plainText_cons]

end RichText

/-! ### Pieces as segments -/

/-- A piece as a segment of its own. -/
def Piece.segment : Piece → Segment
  | .literal chars => .plain (String.ofList chars)
  | .span segment => segment

/-- Literal pieces hold characters, and spans are not plain. -/
def Piece.IsProper : Piece → Prop
  | .literal chars => chars ≠ []
  | .span segment => segment.kind ≠ .plain

theorem plainSegment_append {pending : List Char} (hpending : pending ≠ []) (text : RichText) :
    plainSegment pending ++ text = .plain (String.ofList pending.reverse) :: text := by
  rw [plainSegment, if_neg (by simpa using hpending)]
  rfl

theorem plainSegment_of_ne_nil {text : List Char} (hne : text ≠ []) :
    plainSegment text.reverse = [.plain (String.ofList text)] := by
  rw [← List.append_nil (plainSegment _), plainSegment_append (by simpa using hne),
    List.reverse_reverse]

theorem merged_plainSegment_append_span (pending : List Char) {span : Segment}
    (hspan : span.kind ≠ .plain) (rest : RichText) :
    RichText.merged (plainSegment pending ++ span :: rest) =
      plainSegment pending ++ span :: RichText.merged rest := by
  by_cases hpending : pending = []
  · subst hpending
    exact RichText.merged_cons_span hspan rest
  · rw [plainSegment_append hpending, plainSegment_append hpending, RichText.merged_cons,
      RichText.merged_cons_span hspan, RichText.mergeFront, if_neg fun h ↦ hspan h.2]

theorem merged_plainSegment_append_plain (pending : List Char) {chars : List Char}
    (hchars : chars ≠ []) (rest : RichText) :
    RichText.merged (plainSegment pending ++ .plain (String.ofList chars) :: rest) =
      RichText.merged (plainSegment (chars.reverse ++ pending) ++ rest) := by
  have hjoined : chars.reverse ++ pending ≠ [] := by simp [hchars]
  rw [plainSegment_append hjoined]
  by_cases hpending : pending = []
  · subst hpending
    simp [plainSegment]
  · rw [plainSegment_append hpending, RichText.merged_plain_plain, List.reverse_append,
      List.reverse_reverse, String.ofList_append]

/-- Joining pieces is merging the segments that they are, behind the plain text under way. -/
theorem joinPieces_eq_merged (pending : List Char) {parts : List Piece}
    (hproper : ∀ part ∈ parts, part.IsProper) :
    joinPieces pending parts =
      RichText.merged (plainSegment pending ++ parts.map Piece.segment) := by
  induction parts generalizing pending with
  | nil =>
    rw [joinPieces, List.map_nil, List.append_nil, plainSegment]
    split <;> rfl
  | cons part parts ih =>
    rw [List.forall_mem_cons] at hproper
    cases part with
    | literal chars =>
      rw [joinPieces, ih _ hproper.2, List.map_cons, Piece.segment,
        merged_plainSegment_append_plain pending hproper.1]
    | span segment =>
      rw [joinPieces, ih _ hproper.2, List.map_cons, Piece.segment,
        merged_plainSegment_append_span pending hproper.1]
      rfl

theorem kind_of_mem_plainSegment {pending : List Char} {segment : Segment}
    (hsegment : segment ∈ plainSegment pending) : segment.kind = .plain := by
  rw [plainSegment] at hsegment
  split at hsegment
  · cases hsegment
  · rw [List.mem_singleton.mp hsegment]

theorem span_mem_of_mem_joinPieces {pending : List Char} {parts : List Piece} {segment : Segment}
    (hspan : segment.kind ≠ .plain) (hsegment : segment ∈ joinPieces pending parts) :
    .span segment ∈ parts := by
  induction parts generalizing pending with
  | nil => exact absurd (kind_of_mem_plainSegment hsegment) hspan
  | cons part parts ih =>
    cases part with
    | literal chars => exact List.mem_cons_of_mem _ (ih hsegment)
    | span first =>
      rcases List.mem_append.mp hsegment with hpending | hsegment
      · exact absurd (kind_of_mem_plainSegment hpending) hspan
      · rcases List.mem_cons.mp hsegment with rfl | hrest
        · exact List.mem_cons_self
        · exact List.mem_cons_of_mem _ (ih hrest)

/-- The spans that a text is read as are pieces of it. -/
theorem span_mem_pieces {text : List Char} {segment : Segment} (hspan : segment.kind ≠ .plain)
    (hsegment : segment ∈ parseChars text) : .span segment ∈ pieces (Glyph.ofText text) := by
  rw [parseChars] at hsegment
  split at hsegment
  · exact span_mem_of_mem_joinPieces hspan hsegment
  · rw [List.mem_singleton.mp hsegment] at hspan
    exact absurd rfl hspan

end HelpSheet.Markup
