import Mathlib.Data.List.Forall2
import Mathlib.Data.List.Infix
import HelpSheet.Sgr.Strip

/-!
# Sequences that set graphic attributes

A sequence is an escape character, an opening bracket, digits and semicolons, and an `m`
(`IsGraphic`). Stripping finds exactly these (`afterSequence?_graphic_eq_some_iff`) and leaves a
text alone that holds none (`strip_eq_self`). Of any other text it drops every sequence whole, and
nothing but sequences (`exists_cut_strip`); what it brings together may be a sequence again.
-/

set_option autoImplicit false
set_option relaxedAutoImplicit false

namespace HelpSheet.Sgr

/-- The text is a sequence that sets graphic attributes. -/
def IsGraphic (text : List Char) : Prop :=
  ∃ parameters : List Char, (∀ c ∈ parameters, c.isDigit ∨ c = ';') ∧
    text = escape :: '[' :: (parameters ++ ['m'])

/-- A sequence that sets graphic attributes stands somewhere in the text. -/
def HasGraphic (text : List Char) : Prop :=
  ∃ sequence, IsGraphic sequence ∧ sequence <:+: text

theorem afterParameters?_graphic_eq_some_iff {text rest : List Char} :
    afterParameters? .graphic text = some rest ↔
      ∃ parameters : List Char, (∀ c ∈ parameters, c.isDigit ∨ c = ';') ∧
        text = parameters ++ 'm' :: rest := by
  constructor
  · intro h
    induction text with
    | nil => cases h
    | cons c text ih =>
      rw [afterParameters?] at h
      split at h
      · rename_i hfinal
        have hc : c = 'm' := by simpa [SequenceClass.graphic] using hfinal
        exact ⟨[], nofun, by rw [hc, Option.some_inj.mp h, List.nil_append]⟩
      · split at h
        · rename_i hparameter
          have hc : c.isDigit ∨ c = ';' := by simpa [SequenceClass.graphic] using hparameter
          obtain ⟨parameters, hparameters, rfl⟩ := ih h
          exact ⟨c :: parameters, List.forall_mem_cons.mpr ⟨hc, hparameters⟩, rfl⟩
        · cases h
  · rintro ⟨parameters, hparameters, rfl⟩
    induction parameters with
    | nil => rfl
    | cons c parameters ih =>
      rw [List.forall_mem_cons] at hparameters
      have hc : c ≠ 'm' := by
        rintro rfl
        exact absurd hparameters.1 (by decide)
      have hfinal : ¬ SequenceClass.graphic.isFinal c := by simpa [SequenceClass.graphic] using hc
      have hparameter : SequenceClass.graphic.isParameter c := by
        simpa [SequenceClass.graphic] using hparameters.1
      rw [List.cons_append, afterParameters?, if_neg hfinal, if_pos hparameter, ih hparameters.2]

/-- Stripping finds a sequence exactly where one stands. -/
theorem afterSequence?_graphic_eq_some_iff {text rest : List Char} :
    afterSequence? .graphic text = some rest ↔
      ∃ sequence, IsGraphic sequence ∧ text = sequence ++ rest := by
  constructor
  · intro h
    unfold afterSequence? at h
    split at h
    · obtain ⟨parameters, hparameters, rfl⟩ := afterParameters?_graphic_eq_some_iff.mp h
      exact ⟨_, ⟨parameters, hparameters, rfl⟩, by simp [escape]⟩
    · cases h
  · rintro ⟨_, ⟨parameters, hparameters, rfl⟩, rfl⟩
    refine afterParameters?_graphic_eq_some_iff.mpr ⟨parameters, hparameters, by simp⟩

theorem IsGraphic.afterSequence?_append {sequence : List Char} (hsequence : IsGraphic sequence)
    (rest : List Char) : afterSequence? .graphic (sequence ++ rest) = some rest :=
  afterSequence?_graphic_eq_some_iff.mpr ⟨sequence, hsequence, rfl⟩

theorem afterSequence?_of_ne {sequences : SequenceClass} {c : Char} (hc : c ≠ escape)
    (rest : List Char) : afterSequence? sequences (c :: rest) = none := by
  unfold afterSequence?
  split
  · rename_i heq
    exact absurd (List.cons.inj heq).1 hc
  · rfl

theorem afterSequence?_of_head?_ne {sequences : SequenceClass} {rest : List Char}
    (hrest : rest.head? ≠ some '[') (c : Char) : afterSequence? sequences (c :: rest) = none := by
  unfold afterSequence?
  split
  · rename_i heq
    exact absurd (congrArg List.head? (List.cons.inj heq).2) hrest
  · rfl

/-- A sequence stands in a text exactly where stripping finds one at some place. -/
theorem hasGraphic_iff {text : List Char} :
    HasGraphic text ↔ ∃ tail ∈ text.tails, (afterSequence? .graphic tail).isSome := by
  constructor
  · rintro ⟨sequence, hsequence, front, back, rfl⟩
    refine ⟨sequence ++ back, (List.mem_tails _ _).mpr ⟨front, by simp⟩, ?_⟩
    rw [hsequence.afterSequence?_append]
    rfl
  · rintro ⟨tail, htail, hfound⟩
    obtain ⟨rest, hrest⟩ := Option.isSome_iff_exists.mp hfound
    obtain ⟨sequence, hsequence, rfl⟩ := afterSequence?_graphic_eq_some_iff.mp hrest
    refine ⟨sequence, hsequence, ?_⟩
    exact List.IsInfix.trans ⟨[], rest, rfl⟩ ((List.mem_tails _ _).mp htail).isInfix

instance : DecidablePred HasGraphic := fun text ↦
  decidable_of_iff (text.tails.any fun tail ↦ (afterSequence? .graphic tail).isSome)
    (by rw [List.any_eq_true, hasGraphic_iff])

theorem HasGraphic.mono {part text : List Char} (hpart : part <:+: text)
    (hgraphic : HasGraphic part) : HasGraphic text := by
  obtain ⟨sequence, hsequence, hinside⟩ := hgraphic
  exact ⟨sequence, hsequence, List.IsInfix.trans hinside hpart⟩

theorem strip_cons_of_none {sequences : SequenceClass} {c : Char} {rest : List Char}
    (h : afterSequence? sequences (c :: rest) = none) :
    strip sequences (c :: rest) = c :: strip sequences rest := by
  rw [strip]
  split
  · rename_i heq
    rw [h] at heq
    cases heq
  · rfl

theorem strip_cons_of_ne {sequences : SequenceClass} {c : Char} (hc : c ≠ escape)
    (rest : List Char) : strip sequences (c :: rest) = c :: strip sequences rest :=
  strip_cons_of_none (afterSequence?_of_ne hc rest)

theorem strip_of_some {sequences : SequenceClass} {text after : List Char}
    (h : afterSequence? sequences text = some after) :
    strip sequences text = strip sequences after := by
  cases text with
  | nil => cases h
  | cons c rest =>
    rw [strip]
    split
    · rename_i heq
      rw [h] at heq
      rw [Option.some_inj.mp heq]
    · rename_i heq
      rw [h] at heq
      cases heq

/-- Text without a sequence is left alone. -/
theorem strip_eq_self {text : List Char} (hgraphic : ¬ HasGraphic text) :
    strip .graphic text = text := by
  induction text with
  | nil => rw [strip]
  | cons c rest ih =>
    have hnone : afterSequence? .graphic (c :: rest) = none := by
      rw [Option.eq_none_iff_forall_ne_some]
      intro after hafter
      obtain ⟨sequence, hsequence, heq⟩ := afterSequence?_graphic_eq_some_iff.mp hafter
      exact hgraphic ⟨sequence, hsequence, [], after, heq.symm⟩
    rw [strip_cons_of_none hnone, ih fun h ↦ hgraphic (h.mono (List.suffix_cons c rest).isInfix)]

/-! ### What stripping drops -/

/-- A text with each of its characters either kept or dropped. -/
abbrev Cut := List (Char × Bool)

namespace Cut

/-- The text that was cut. -/
def text (cut : Cut) : List Char :=
  cut.map Prod.fst

/-- The characters that are kept. -/
def kept (cut : Cut) : List Char :=
  (cut.filter Prod.snd).map Prod.fst

/-- The text with all characters dropped. -/
def dropped (text : List Char) : Cut :=
  text.map fun c ↦ (c, false)

/-- Every sequence of the text is dropped whole. -/
def DropsGraphic (cut : Cut) : Prop :=
  ∀ part : Cut, part <:+: cut → IsGraphic part.text → part.kept = []

theorem text_cons (entry : Char × Bool) (cut : Cut) : text (entry :: cut) = entry.1 :: text cut :=
  rfl

theorem text_append (front back : Cut) : text (front ++ back) = text front ++ text back :=
  List.map_append

theorem kept_append (front back : Cut) : kept (front ++ back) = kept front ++ kept back := by
  rw [kept, List.filter_append, List.map_append]
  rfl

theorem text_dropped (text : List Char) : (dropped text).text = text := by
  rw [Cut.text, dropped, List.map_map]
  exact List.map_id text

theorem kept_dropped (text : List Char) : (dropped text).kept = [] := by
  simp [kept, dropped, List.filter_map, Function.comp_def]

theorem dropsGraphic_cons {entry : Char × Bool} {cut : Cut}
    (hentry : ∀ part : Cut, part <+: entry :: cut → IsGraphic part.text → part.kept = [])
    (hcut : cut.DropsGraphic) : DropsGraphic (entry :: cut) := by
  intro part hpart hgraphic
  rcases List.infix_cons_iff.mp hpart with hfront | hinside
  · exact hentry part hfront hgraphic
  · exact hcut part hinside hgraphic

/-- No sequence begins with another character than the escape character. -/
theorem dropsGraphic_dropped_append {front : List Char} (hfront : escape ∉ front) {cut : Cut}
    (hcut : cut.DropsGraphic) : DropsGraphic (dropped front ++ cut) := by
  induction front with
  | nil => exact hcut
  | cons c front ih =>
    rw [List.mem_cons, not_or] at hfront
    refine dropsGraphic_cons (fun part hpart hgraphic ↦ ?_) (ih hfront.2)
    obtain ⟨parameters, -, htext⟩ := hgraphic
    cases part with
    | nil => rfl
    | cons entry part =>
      obtain ⟨hentry, -⟩ := List.cons_prefix_cons.mp hpart
      rw [text, List.map_cons, hentry] at htext
      exact absurd (List.cons.inj htext).1.symm hfront.1

/-- The finer cut of the same text drops all that the coarser one drops. -/
def Refines (coarse fine : Cut) : Prop :=
  List.Forall₂ (fun first second ↦ first.1 = second.1 ∧ (second.2 → first.2)) coarse fine

namespace Refines

variable {coarse fine : Cut}

theorem text_eq (hfine : Refines coarse fine) : coarse.text = fine.text := by
  induction hfine with
  | nil => rfl
  | cons hentry _ ih => rw [text_cons, text_cons, hentry.1, ih]

theorem kept_eq_nil (hfine : Refines coarse fine) (hkept : coarse.kept = []) :
    fine.kept = [] := by
  induction hfine with
  | nil => rfl
  | @cons first second coarse fine hentry _ ih =>
    obtain ⟨c, keeps⟩ := first
    cases keeps with
    | true => cases hkept
    | false =>
      obtain ⟨d, keeps⟩ := second
      cases keeps with
      | true => exact absurd (hentry.2 rfl) Bool.false_ne_true
      | false => exact ih hkept

theorem exists_part (hfine : Refines coarse fine) {part : Cut} (hpart : part <:+: fine) :
    ∃ whole : Cut, whole <:+: coarse ∧ Refines whole part := by
  obtain ⟨front, back, rfl⟩ := hpart
  rw [List.append_assoc] at hfine
  have hrest := List.forall₂_drop_append _ _ _ hfine
  refine ⟨_, ?_, List.forall₂_take_append _ _ _ hrest⟩
  exact List.IsInfix.trans (List.take_prefix _ _).isInfix (List.drop_suffix _ _).isInfix

theorem dropsGraphic (hfine : Refines coarse fine) (hdrops : coarse.DropsGraphic) :
    fine.DropsGraphic := by
  intro part hpart hgraphic
  obtain ⟨whole, hwhole, hpart⟩ := hfine.exists_part hpart
  rw [← hpart.text_eq] at hgraphic
  exact hpart.kept_eq_nil (hdrops whole hwhole hgraphic)

end Refines

/-- Any part of what a cut keeps is kept by a finer cut. -/
theorem exists_refines (cut : Cut) {shown : List Char} (hshown : shown.Sublist cut.kept) :
    ∃ fine : Cut, Refines cut fine ∧ fine.kept = shown := by
  induction cut generalizing shown with
  | nil => exact ⟨[], .nil, (List.sublist_nil.mp hshown).symm⟩
  | cons entry cut ih =>
    obtain ⟨c, keeps⟩ := entry
    cases keeps with
    | false =>
      obtain ⟨fine, hfine, hkept⟩ := ih hshown
      exact ⟨(c, false) :: fine, .cons ⟨rfl, id⟩ hfine, hkept⟩
    | true =>
      cases hshown with
      | cons _ hshown =>
        obtain ⟨fine, hfine, hkept⟩ := ih hshown
        exact ⟨(c, false) :: fine, .cons ⟨rfl, fun _ ↦ rfl⟩ hfine, hkept⟩
      | cons_cons _ hshown =>
        obtain ⟨fine, hfine, hkept⟩ := ih hshown
        exact ⟨(c, true) :: fine, .cons ⟨rfl, id⟩ hfine, congrArg (c :: ·) hkept⟩

theorem kept_eq_append {cut : Cut} {front back : List Char} (h : cut.kept = front ++ back) :
    ∃ first second : Cut, cut = first ++ second ∧ first.kept = front ∧ second.kept = back := by
  obtain ⟨firsts, seconds, hfilter, rfl, rfl⟩ := List.map_eq_append_iff.mp h
  obtain ⟨first, second, rfl, rfl, rfl⟩ := List.filter_eq_append_iff.mp hfilter
  exact ⟨first, second, rfl, rfl, rfl⟩

/-- What stands together in the kept text is kept of one part of the text. -/
theorem exists_part_of_kept {cut : Cut} {shown : List Char} (hshown : shown <:+: cut.kept) :
    ∃ part : Cut, part <:+: cut ∧ part.kept = shown := by
  obtain ⟨front, back, hkept⟩ := hshown
  obtain ⟨first, last, rfl, hfirst, -⟩ := kept_eq_append hkept.symm
  obtain ⟨start, part, rfl, -, hpart⟩ := kept_eq_append hfirst
  exact ⟨part, ⟨start, last, rfl⟩, hpart⟩

theorem kept_isInfix {part cut : Cut} (hpart : part <:+: cut) : part.kept <:+: cut.kept := by
  obtain ⟨front, back, rfl⟩ := hpart
  exact ⟨kept front, kept back, by rw [kept_append, kept_append]⟩

end Cut

theorem IsGraphic.eq_of_append_eq {first second front back : List Char} (hfirst : IsGraphic first)
    (hsecond : IsGraphic second) (h : first ++ front = second ++ back) : first = second := by
  have hfront := hfirst.afterSequence?_append front
  rw [h, hsecond.afterSequence?_append] at hfront
  rw [← Option.some_inj.mp hfront] at h
  exact List.append_cancel_right h

theorem dropsGraphic_sequence_append {sequence : List Char} (hsequence : IsGraphic sequence)
    {cut : Cut} (hcut : cut.DropsGraphic) : Cut.DropsGraphic (Cut.dropped sequence ++ cut) := by
  have hwhole : ∀ part : Cut, part <+: Cut.dropped sequence ++ cut → IsGraphic part.text →
      part.kept = [] := by
    rintro part ⟨back, hback⟩ hgraphic
    have htexts := congrArg Cut.text hback
    rw [Cut.text_append, Cut.text_append, Cut.text_dropped] at htexts
    have htext := hgraphic.eq_of_append_eq hsequence htexts
    have hlength : part.length = (Cut.dropped sequence).length := by
      have := congrArg List.length htext
      simpa [Cut.text, Cut.dropped] using this
    rw [List.append_inj_left hback hlength, Cut.kept_dropped]
  obtain ⟨parameters, hparameters, rfl⟩ := hsequence
  have hbody : escape ∉ '[' :: (parameters ++ ['m']) := by
    intro hmem
    simp only [List.mem_cons, List.mem_append, List.not_mem_nil, or_false] at hmem
    rcases hmem with hmem | hmem | hmem
    · exact absurd hmem (by decide)
    · exact absurd (hparameters escape hmem) (by decide)
    · exact absurd hmem (by decide)
  exact Cut.dropsGraphic_cons hwhole (Cut.dropsGraphic_dropped_append hbody hcut)

/-- Stripping drops every sequence of a text whole and keeps everything else. -/
theorem exists_cut_strip (text : List Char) :
    ∃ cut : Cut, cut.text = text ∧ cut.kept = strip .graphic text ∧ cut.DropsGraphic := by
  induction text using strip.induct SequenceClass.graphic with
  | case1 =>
    refine ⟨[], rfl, by rw [strip]; rfl, fun part hpart _ ↦ ?_⟩
    rw [List.infix_nil.mp hpart]
    rfl
  | case2 c rest after hafter ih =>
    obtain ⟨cut, htext, hkept, hdrops⟩ := ih
    obtain ⟨sequence, hsequence, hsplit⟩ := afterSequence?_graphic_eq_some_iff.mp hafter
    refine ⟨Cut.dropped sequence ++ cut, ?_, ?_, dropsGraphic_sequence_append hsequence hdrops⟩
    · rw [Cut.text_append, Cut.text_dropped, htext, hsplit]
    · rw [Cut.kept_append, Cut.kept_dropped, hkept, strip_of_some hafter, List.nil_append]
  | case3 c rest hnone ih =>
    obtain ⟨cut, htext, hkept, hdrops⟩ := ih
    refine ⟨(c, true) :: cut, ?_, ?_, Cut.dropsGraphic_cons (fun part hpart hgraphic ↦ ?_) hdrops⟩
    · rw [Cut.text_cons, htext]
    · rw [strip_cons_of_none hnone, ← hkept]
      rfl
    · obtain ⟨back, hback⟩ := hpart
      have htexts := congrArg Cut.text hback
      rw [Cut.text_append, Cut.text_cons, htext] at htexts
      have hfound := hgraphic.afterSequence?_append (Cut.text back)
      rw [htexts, hnone] at hfound
      cases hfound

theorem strip_sublist (text : List Char) : (strip .graphic text).Sublist text := by
  obtain ⟨cut, htext, hkept, -⟩ := exists_cut_strip text
  rw [← hkept, ← htext]
  exact List.filter_sublist.map Prod.fst

end HelpSheet.Sgr
