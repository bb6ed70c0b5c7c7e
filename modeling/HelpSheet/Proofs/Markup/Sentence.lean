import Mathlib.Order.Bounds.Basic
import HelpSheet.Markup.Summary
import HelpSheet.Proofs.Markup.Slices

/-!
# The first sentence

Where a sentence ends is a matter of the visible text alone, apart from code: the terminator, the
character before it and the blank after it may stand in three different segments
(`EndsSentence`). The first sentence goes up to the first such place (`isLeast_of_sentenceLength?`).
It keeps the segments that begin before it as they are, and shortens the last of them
(`filter_takeVisible`). A first sentence has no shorter first sentence
(`firstSentence_firstSentence`); `firstSentence_parse` says all of this of documentation text.
-/

set_option autoImplicit false
set_option relaxedAutoImplicit false

namespace HelpSheet.Markup

/-! ### Where a sentence ends -/

/-- The character of the visible text at the index belongs to a segment that is not code. -/
def OutsideCode (text : RichText) (index : Nat) : Prop :=
  ∃ (front : RichText) (segment : Segment) (back : RichText),
    text = front ++ segment :: back ∧ segment.kind ≠ .code ∧
      front.plainText.length ≤ index ∧ index < front.plainText.length + segment.content.length

/-- A sentence ends with the character at the index: a terminator outside code, which is not the
second of two full stops, before a blank or at the end of the visible text. -/
structure EndsSentence (text : RichText) (index : Nat) : Prop where
  terminator : ∃ c, text.plainText.toList[index]? = some c ∧ (c = '.' ∨ c = '!' ∨ c = '?')
  outsideCode : OutsideCode text index
  notRepeated : text.plainText.toList[index]? = some '.' → ∀ before, index = before + 1 →
    text.plainText.toList[before]? ≠ some '.'
  followed : ∀ c, text.plainText.toList[index + 1]? = some c → Text.isBlank c

/-- A sentence ends with the character at the index of a text that follows `previous`. -/
def EndsAfter (previous : Option Char) : List (Char × Bool) → Nat → Prop
  | [], _ => False
  | (c, inCode) :: rest, 0 =>
    inCode = false ∧ isTerminator c ∧ ¬ (c = '.' ∧ previous = some '.') ∧ closesSentence rest
  | (c, _) :: rest, index + 1 => EndsAfter (some c) rest index

variable {previous : Option Char} {chars rest : List (Char × Bool)} {index : Nat}

theorem endsAfter_zero_iff {c : Char} {inCode : Bool} :
    EndsAfter previous ((c, inCode) :: rest) 0 ↔
      (!inCode && isTerminator c && !(c = '.' && previous = some '.') &&
        closesSentence rest) = true := by
  simp only [EndsAfter, Bool.and_eq_true, Bool.not_eq_true', Bool.and_eq_false_iff,
    decide_eq_false_iff_not, not_and_or, and_assoc]

theorem endsAfter_succ {c : Char} {inCode : Bool} :
    EndsAfter previous ((c, inCode) :: rest) (index + 1) ↔ EndsAfter (some c) rest index :=
  Iff.rfl

/-- The length of the first sentence is found at the first place where a sentence ends. -/
theorem isLeast_of_sentenceLength? {length : Nat}
    (hlength : sentenceLength? previous chars = some length) :
    ∃ index, length = index + 1 ∧ IsLeast {i | EndsAfter previous chars i} index := by
  induction chars generalizing previous length with
  | nil => cases hlength
  | cons first rest ih =>
    obtain ⟨c, inCode⟩ := first
    rw [sentenceLength?] at hlength
    split at hlength
    · next hends =>
      obtain rfl := Option.some_inj.mp hlength
      exact ⟨0, rfl, endsAfter_zero_iff.mpr hends, fun i _ ↦ Nat.zero_le i⟩
    · next hgoes =>
      obtain ⟨after, hafter, rfl⟩ := Option.map_eq_some_iff.mp hlength
      obtain ⟨index, rfl, hends, hleast⟩ := ih hafter
      refine ⟨index + 1, rfl, hends, ?_⟩
      rintro (_ | i) hi
      · exact absurd (endsAfter_zero_iff.mp hi) hgoes
      · exact Nat.succ_le_succ (hleast hi)

theorem not_endsAfter_of_sentenceLength? (hlength : sentenceLength? previous chars = none)
    (index : Nat) : ¬ EndsAfter previous chars index := by
  induction chars generalizing previous index with
  | nil => exact id
  | cons first rest ih =>
    obtain ⟨c, inCode⟩ := first
    rw [sentenceLength?] at hlength
    split at hlength
    · cases hlength
    · next hgoes =>
      intro hends
      cases index with
      | zero => exact hgoes (endsAfter_zero_iff.mp hends)
      | succ index => exact ih (Option.map_eq_none_iff.mp hlength) index hends

theorem sentenceLength?_eq_of_isLeast (hleast : IsLeast {i | EndsAfter previous chars i} index) :
    sentenceLength? previous chars = some (index + 1) := by
  cases hlength : sentenceLength? previous chars with
  | none => exact absurd hleast.1 (not_endsAfter_of_sentenceLength? hlength index)
  | some length =>
    obtain ⟨other, rfl, hother⟩ := isLeast_of_sentenceLength? hlength
    rw [hleast.unique hother]

theorem closesSentence_iff : closesSentence rest ↔
    ∀ c, (rest.map Prod.fst)[0]? = some c → Text.isBlank c := by
  cases rest with
  | nil => simp [closesSentence]
  | cons first rest => simp [closesSentence]

/-- The places where a sentence ends, by what stands at them, before them and after them. -/
theorem endsAfter_iff : EndsAfter previous chars index ↔
    ∃ c, chars[index]? = some (c, false) ∧ isTerminator c ∧
      (c = '.' → (previous :: chars.map fun char ↦ some char.1)[index]? ≠ some (some '.')) ∧
      ∀ next, (chars.map Prod.fst)[index + 1]? = some next → Text.isBlank next := by
  induction chars generalizing previous index with
  | nil => simp [EndsAfter]
  | cons first rest ih =>
    obtain ⟨c, inCode⟩ := first
    cases index with
    | zero => simp [EndsAfter, closesSentence_iff, and_assoc]
    | succ index => simp [endsAfter_succ, ih]

/-! ### The characters of the segments -/

theorem visibleChars_cons (segment : Segment) (rest : RichText) :
    visibleChars (segment :: rest) =
      (segment.content.toList.map fun c ↦ (c, decide (segment.kind = .code))) ++
        visibleChars rest :=
  List.flatMap_cons

theorem map_fst_visibleChars (text : RichText) :
    (visibleChars text).map Prod.fst = text.plainText.toList := by
  rw [plainText_toList, visibleChars, List.map_flatMap]
  simp [Function.comp_def]

theorem visibleChars_length (text : RichText) :
    (visibleChars text).length = text.plainText.length := by
  rw [← String.length_toList, ← map_fst_visibleChars, List.length_map]

theorem plainText_length_cons (segment : Segment) (rest : RichText) :
    (RichText.plainText (segment :: rest)).length =
      segment.content.length + rest.plainText.length := by
  rw [RichText.plainText_cons, String.length_append]

theorem outsideCode_cons_of_lt {segment : Segment} {rest : RichText}
    (hindex : index < segment.content.length) :
    OutsideCode (segment :: rest) index ↔ segment.kind ≠ .code := by
  constructor
  · rintro ⟨front, other, back, htext, hkind, hfront, -⟩
    cases front with
    | nil =>
      obtain ⟨rfl, -⟩ := List.cons.inj htext
      exact hkind
    | cons first front =>
      obtain ⟨rfl, -⟩ := List.cons.inj htext
      rw [plainText_length_cons] at hfront
      omega
  · intro hkind
    refine ⟨[], segment, rest, rfl, hkind, Nat.zero_le _, ?_⟩
    rwa [RichText.plainText, List.map_nil, String.join_nil, String.length_empty, Nat.zero_add]

theorem outsideCode_cons_add {segment : Segment} {rest : RichText} :
    OutsideCode (segment :: rest) (segment.content.length + index) ↔ OutsideCode rest index := by
  constructor
  · rintro ⟨front, other, back, htext, hkind, hfront, hother⟩
    cases front with
    | nil =>
      obtain ⟨rfl, -⟩ := List.cons.inj htext
      exact absurd hother (by simp [RichText.plainText])
    | cons first front =>
      obtain ⟨rfl, rfl⟩ := List.cons.inj htext
      rw [plainText_length_cons] at hfront hother
      exact ⟨front, other, back, rfl, hkind, by omega, by omega⟩
  · rintro ⟨front, other, back, rfl, hkind, hfront, hother⟩
    refine ⟨segment :: front, other, back, rfl, hkind, ?_, ?_⟩
    · rw [plainText_length_cons]
      omega
    · rw [plainText_length_cons]
      omega

/-- A character outside code stands in a segment that is not code. -/
theorem visibleChars_getElem?_eq_some_iff {text : RichText} {c : Char} :
    (visibleChars text)[index]? = some (c, false) ↔
      text.plainText.toList[index]? = some c ∧ OutsideCode text index := by
  induction text generalizing index with
  | nil => simp [visibleChars, RichText.plainText]
  | cons segment rest ih =>
    rw [visibleChars_cons, RichText.plainText_cons, String.toList_append]
    have hlength : segment.content.toList.length = segment.content.length := String.length_toList
    obtain hindex | ⟨after, rfl⟩ := (lt_or_ge index segment.content.length).imp_right
      Nat.exists_eq_add_of_le
    · rw [← hlength] at hindex
      rw [outsideCode_cons_of_lt (hlength ▸ hindex), List.getElem?_append_left hindex,
        List.getElem?_append_left (by rwa [List.length_map]), List.getElem?_map]
      simp
    · rw [outsideCode_cons_add, ← hlength, List.getElem?_append_right (Nat.le_add_right _ _),
        List.getElem?_append_right (by rw [List.length_map]; exact Nat.le_add_right _ _),
        List.length_map, Nat.add_sub_cancel_left]
      exact ih

theorem cons_none_getElem?_ne_iff :
    (none :: chars.map fun char ↦ some char.1)[index]? ≠ some (some '.') ↔
      ∀ before, index = before + 1 → (chars.map Prod.fst)[before]? ≠ some '.' := by
  cases index with
  | zero => simp
  | succ before => simp

/-- The two accounts of where a sentence ends agree. -/
theorem endsSentence_iff {text : RichText} :
    EndsSentence text index ↔ EndsAfter none (visibleChars text) index := by
  rw [endsAfter_iff, map_fst_visibleChars]
  simp only [visibleChars_getElem?_eq_some_iff, cons_none_getElem?_ne_iff, map_fst_visibleChars]
  constructor
  · rintro ⟨⟨c, hc, hterminator⟩, houtside, hrepeated, hfollowed⟩
    refine ⟨c, ⟨hc, houtside⟩, ?_, ?_, hfollowed⟩
    · simpa [isTerminator, or_assoc] using hterminator
    · rintro rfl
      exact hrepeated hc
  · rintro ⟨c, ⟨hc, houtside⟩, hterminator, hrepeated, hfollowed⟩
    refine ⟨⟨c, hc, ?_⟩, houtside, ?_, hfollowed⟩
    · simpa [isTerminator, or_assoc] using hterminator
    · intro hstop
      exact hrepeated (Option.some_inj.mp (hc.symm.trans hstop))

/-! ### The segments of a first sentence -/

/-- Taking characters takes them from the visible text. -/
theorem visibleChars_takeVisible (count : Nat) (text : RichText) :
    visibleChars (takeVisible count text) = (visibleChars text).take count := by
  induction text generalizing count with
  | nil => simp [takeVisible, visibleChars]
  | cons segment rest ih =>
    have hlength : segment.content.toList.length = segment.content.length := String.length_toList
    rw [takeVisible]
    split
    · next hfits =>
      have hwhole : (segment.content.toList.map fun c ↦ (c, decide (segment.kind = .code))).length ≤
          count := by rwa [List.length_map, hlength]
      rw [visibleChars_cons, visibleChars_cons, ih, List.take_append, List.length_map, hlength,
        List.take_of_length_le hwhole]
    · next hcut =>
      rw [visibleChars_cons, visibleChars_cons, List.take_append_of_le_length, ← List.map_take]
      · simp [visibleChars]
      · rw [List.length_map, hlength]
        omega

theorem takeVisible_of_length_le {count : Nat} {text : RichText}
    (hcount : text.plainText.length ≤ count) : takeVisible count text = text := by
  induction text generalizing count with
  | nil => rfl
  | cons segment rest ih =>
    rw [plainText_length_cons] at hcount
    rw [takeVisible, if_pos (by omega), ih (by omega)]

theorem plainText_length_nil : (RichText.plainText []).length = 0 := rfl

theorem takeVisible_append (front rest : RichText) (count : Nat) :
    takeVisible (front.plainText.length + count) (front ++ rest) =
      front ++ takeVisible count rest := by
  induction front with
  | nil => rw [plainText_length_nil, Nat.zero_add, List.nil_append, List.nil_append]
  | cons segment front ih =>
    have hfits : segment.content.length ≤
        (RichText.plainText (segment :: front)).length + count := by
      rw [plainText_length_cons]
      omega
    have hrest : (RichText.plainText (segment :: front)).length + count -
        segment.content.length = (RichText.plainText front).length + count := by
      rw [plainText_length_cons]
      omega
    rw [List.cons_append, takeVisible, if_pos hfits, hrest, ih, List.cons_append]

/-- A segment that follows an exact fit loses its content. -/
theorem takeVisible_append_cons {front : RichText} {next : Segment} (hnext : next.content ≠ "")
    (back : RichText) :
    takeVisible front.plainText.length (front ++ next :: back) =
      front ++ [{ next with content := "" }] := by
  have hcut : ¬ next.content.length ≤ 0 := by
    rwa [Nat.le_zero, String.length_eq_zero_iff]
  have htake := takeVisible_append front (next :: back) 0
  rwa [takeVisible, if_neg hcut, List.take_zero] at htake

/-- What follows a text makes no difference to a cut inside it. -/
theorem takeVisible_append_of_lt {count : Nat} {front : RichText}
    (hcount : count < front.plainText.length) (rest : RichText) :
    takeVisible count (front ++ rest) = takeVisible count front := by
  induction front generalizing count with
  | nil => exact absurd hcount (Nat.not_lt_zero count)
  | cons segment front ih =>
    rw [plainText_length_cons] at hcount
    rw [List.cons_append, takeVisible, takeVisible]
    by_cases hfits : segment.content.length ≤ count
    · rw [if_pos hfits, if_pos hfits, ih (by omega)]
    · rw [if_neg hfits, if_neg hfits]

/-- Once nothing is left to take, no segment that shows something follows. -/
theorem filter_takeVisible_zero {text : RichText}
    (hcontent : ∀ segment ∈ text, segment.content ≠ "") :
    (takeVisible 0 text).filter (fun kept ↦ kept.content ≠ "") = [] := by
  cases text with
  | nil => rfl
  | cons segment rest =>
    have hpos : ¬ segment.content.length ≤ 0 := by
      rw [Nat.le_zero, String.length_eq_zero_iff]
      exact hcontent segment List.mem_cons_self
    rw [takeVisible, if_neg hpos]
    simp

/-- The segments that are taken are the first ones, the last of them shortened. -/
theorem filter_takeVisible {text : RichText} (hcontent : ∀ segment ∈ text, segment.content ≠ "")
    {count : Nat} (hpos : 0 < count) (hcount : count ≤ text.plainText.length) :
    ∃ (front : RichText) (segment : Segment) (back : RichText) (content : String),
      text = front ++ segment :: back ∧ content ≠ "" ∧
        content.toList <+: segment.content.toList ∧
        (takeVisible count text).filter (fun kept ↦ kept.content ≠ "") =
          front ++ [{ segment with content := content }] := by
  induction text generalizing count with
  | nil =>
    have hnone : count ≤ 0 := hcount
    omega
  | cons segment rest ih =>
    have hsegment : segment.content ≠ "" := hcontent segment List.mem_cons_self
    have hrest : ∀ other ∈ rest, other.content ≠ "" := fun other hother ↦
      hcontent other (List.mem_cons_of_mem segment hother)
    rw [plainText_length_cons] at hcount
    rw [takeVisible]
    obtain hlonger | hfits | hcut := lt_trichotomy segment.content.length count
    · have hpos' : 0 < count - segment.content.length := by omega
      have hcount' : count - segment.content.length ≤ (RichText.plainText rest).length := by omega
      obtain ⟨front, last, back, content, rfl, hne, hbegins, hkept⟩ := ih hrest hpos' hcount'
      refine ⟨segment :: front, last, back, content, rfl, hne, hbegins, ?_⟩
      rw [if_pos hlonger.le, List.filter_cons_of_pos (by simpa using hsegment), hkept]
      rfl
    · refine ⟨[], segment, rest, segment.content, rfl, hsegment, List.prefix_refl _, ?_⟩
      rw [if_pos hfits.le, ← hfits, Nat.sub_self, List.filter_cons_of_pos (by simpa using hsegment),
        filter_takeVisible_zero hrest]
      rfl
    · have hne : String.ofList (segment.content.toList.take count) ≠ "" := by
        rw [Ne, String.ofList_eq_empty_iff, List.take_eq_nil_iff, not_or]
        refine ⟨hpos.ne', ?_⟩
        rwa [String.toList_eq_nil_iff]
      refine ⟨[], segment, rest, _, rfl, hne, ?_, ?_⟩
      · rw [String.toList_ofList]
        exact List.take_prefix count _
      · rw [if_neg (Nat.not_le.mpr hcut), List.filter_cons_of_pos (by simpa using hne)]
        rfl

/-! ### First sentences -/

theorem firstSentence_of_eq_some {text : RichText} {length : Nat}
    (hlength : sentenceLength? none (visibleChars text) = some length) :
    firstSentence text = takeVisible length text := by
  rw [firstSentence, hlength]

theorem firstSentence_of_eq_none {text : RichText}
    (hlength : sentenceLength? none (visibleChars text) = none) : firstSentence text = text := by
  rw [firstSentence, hlength]

theorem sentenceLength?_eq_none {text : RichText} (hnone : ∀ index, ¬ EndsSentence text index) :
    sentenceLength? none (visibleChars text) = none := by
  rw [Option.eq_none_iff_forall_ne_some]
  intro length hlength
  obtain ⟨index, -, hends, -⟩ := isLeast_of_sentenceLength? hlength
  exact hnone index (endsSentence_iff.mpr hends)

theorem firstSentence_of_forall_not {text : RichText} (hnone : ∀ index, ¬ EndsSentence text index) :
    firstSentence text = text :=
  firstSentence_of_eq_none (sentenceLength?_eq_none hnone)

theorem isLeast_endsAfter {text : RichText} (hleast : IsLeast {i | EndsSentence text i} index) :
    IsLeast {i | EndsAfter none (visibleChars text) i} index := by
  simpa only [endsSentence_iff] using hleast

theorem firstSentence_of_isLeast {text : RichText}
    (hleast : IsLeast {i | EndsSentence text i} index) :
    firstSentence text = takeVisible (index + 1) text :=
  firstSentence_of_eq_some (sentenceLength?_eq_of_isLeast (isLeast_endsAfter hleast))

theorem exists_isLeast_or_forall_not (text : RichText) :
    (∃ index, IsLeast {i | EndsSentence text i} index) ∨ ∀ index, ¬ EndsSentence text index := by
  simp only [endsSentence_iff]
  cases hlength : sentenceLength? none (visibleChars text) with
  | none => exact .inr (not_endsAfter_of_sentenceLength? hlength)
  | some length =>
    obtain ⟨index, -, hleast⟩ := isLeast_of_sentenceLength? hlength
    exact .inl ⟨index, hleast⟩

theorem EndsAfter.lt_length (hends : EndsAfter previous chars index) : index < chars.length := by
  obtain ⟨c, hc, -⟩ := endsAfter_iff.mp hends
  exact (List.getElem?_eq_some_iff.mp hc).1

theorem closesSentence_take (hcloses : closesSentence rest) (count : Nat) :
    closesSentence (rest.take count) := by
  cases rest with
  | nil => rwa [List.take_nil]
  | cons first rest =>
    cases count with
    | zero => rfl
    | succ count => exact hcloses

theorem EndsAfter.take {count : Nat} (hends : EndsAfter previous chars index)
    (hindex : index < count) : EndsAfter previous (chars.take count) index := by
  induction chars generalizing previous index count with
  | nil => exact hends.elim
  | cons first rest ih =>
    obtain ⟨count, rfl⟩ := Nat.exists_eq_add_one_of_ne_zero (Nat.ne_zero_of_lt hindex)
    rw [List.take_succ_cons]
    cases index with
    | zero =>
      obtain ⟨hcode, hterminator, hrepeated, hcloses⟩ := hends
      exact ⟨hcode, hterminator, hrepeated, closesSentence_take hcloses count⟩
    | succ index =>
      have hends : EndsAfter (some first.1) rest index := hends
      exact ih hends (Nat.lt_of_succ_lt_succ hindex)

/-- A place before the last character that is taken can be seen to end a sentence. -/
theorem EndsAfter.of_take {count : Nat} (hends : EndsAfter previous (chars.take count) index)
    (hindex : index + 1 < count) : EndsAfter previous chars index := by
  induction chars generalizing previous index count with
  | nil => rwa [List.take_nil] at hends
  | cons first rest ih =>
    obtain ⟨count, rfl⟩ := Nat.exists_eq_add_one_of_ne_zero (Nat.ne_zero_of_lt hindex)
    rw [List.take_succ_cons] at hends
    cases index with
    | zero =>
      obtain ⟨count, rfl⟩ := Nat.exists_eq_add_one_of_ne_zero
        (Nat.ne_zero_of_lt (Nat.lt_of_succ_lt_succ hindex))
      obtain ⟨hcode, hterminator, hrepeated, hcloses⟩ := hends
      refine ⟨hcode, hterminator, hrepeated, ?_⟩
      cases rest with
      | nil => rfl
      | cons next rest => exact hcloses
    | succ index =>
      have hends : EndsAfter (some first.1) (rest.take count) index := hends
      exact ih hends (Nat.lt_of_succ_lt_succ hindex)

/-- The first sentence alone ends where it ended in the text, and nowhere before. -/
theorem isLeast_take (hleast : IsLeast {i | EndsAfter previous chars i} index) :
    IsLeast {i | EndsAfter previous (chars.take (index + 1)) i} index := by
  refine ⟨hleast.1.take (Nat.lt_succ_self index), fun i hi ↦ ?_⟩
  by_contra hlt
  have hends : EndsAfter previous chars i := EndsAfter.of_take hi (by omega)
  exact hlt (hleast.2 hends)

/-- A first sentence has no shorter first sentence. -/
theorem firstSentence_firstSentence (text : RichText) :
    firstSentence (firstSentence text) = firstSentence text := by
  obtain ⟨index, hleast⟩ | hnone := exists_isLeast_or_forall_not text
  · have hcut := firstSentence_of_isLeast hleast
    have hleast' : IsLeast {i | EndsSentence (firstSentence text) i} index := by
      rw [hcut]
      simp only [endsSentence_iff, visibleChars_takeVisible]
      exact isLeast_take (isLeast_endsAfter hleast)
    have hlength : (firstSentence text).plainText.length ≤ index + 1 := by
      rw [hcut, ← visibleChars_length, visibleChars_takeVisible]
      exact List.length_take_le _ _
    rw [firstSentence_of_isLeast hleast', takeVisible_of_length_le hlength]
  · rw [firstSentence_of_forall_not hnone, firstSentence_of_forall_not hnone]

theorem plainText_takeVisible (count : Nat) (text : RichText) :
    (takeVisible count text).plainText.toList = text.plainText.toList.take count := by
  rw [← map_fst_visibleChars, visibleChars_takeVisible, List.map_take, map_fst_visibleChars]

theorem content_ne_of_mem_parse {raw : String} {segment : Segment}
    (hsegment : segment ∈ parse raw) : segment.content ≠ "" :=
  ((isNormal_parseChars _).segments segment hsegment).content_ne

/-- The first sentence of documentation text goes up to the first place where a sentence ends; its
segments are the first ones of the text, the last of them shortened, apart from one that shows
nothing. A text in which no sentence ends is its own first sentence, and so is a first sentence. -/
theorem firstSentence_parse (raw : String) :
    ((∃ index, IsLeast {i | EndsSentence (parse raw) i} index ∧
        (firstSentence (parse raw)).plainText.toList =
          (parse raw).plainText.toList.take (index + 1) ∧
        ∃ (front : RichText) (segment : Segment) (back : RichText) (content : String),
          parse raw = front ++ segment :: back ∧ content ≠ "" ∧
            content.toList <+: segment.content.toList ∧
            (firstSentence (parse raw)).filter (fun kept ↦ kept.content ≠ "") =
              front ++ [{ segment with content := content }]) ∨
      (∀ index, ¬ EndsSentence (parse raw) index) ∧ firstSentence (parse raw) = parse raw) ∧
    firstSentence (firstSentence (parse raw)) = firstSentence (parse raw) := by
  refine ⟨?_, firstSentence_firstSentence _⟩
  obtain ⟨index, hleast⟩ | hnone := exists_isLeast_or_forall_not (parse raw)
  · have hindex : index + 1 ≤ (parse raw).plainText.length := by
      rw [← visibleChars_length]
      exact (isLeast_endsAfter hleast).1.lt_length
    left
    refine ⟨index, hleast, ?_⟩
    rw [firstSentence_of_isLeast hleast]
    exact ⟨plainText_takeVisible _ _,
      filter_takeVisible (fun _ ↦ content_ne_of_mem_parse) index.succ_pos hindex⟩
  · right
    exact ⟨hnone, firstSentence_of_forall_not hnone⟩

end HelpSheet.Markup
