import Mathlib.Data.List.DropRight
import HelpSheet.Text.Blank

/-!
# Trimmed texts

Trimming takes away blanks at the two ends of a text until it neither begins nor ends with one
(`isTrimmed_trim`), and leaves a text alone that does neither (`trim_eq_self`). Further blanks at
the two ends make no difference (`trim_append_append`).
-/

set_option autoImplicit false
set_option relaxedAutoImplicit false

namespace HelpSheet.Text

/-- The text neither begins nor ends with a blank. -/
structure IsTrimmed (text : List Char) : Prop where
  head : ∀ c ∈ text.head?, ¬ isBlank c
  last : ∀ c ∈ text.getLast?, ¬ isBlank c

instance : DecidablePred IsTrimmed := fun text ↦
  decidable_of_iff (text.head?.all (!isBlank ·) ∧ text.getLast?.all (!isBlank ·)) <| by
    simp only [Option.all_eq_true, Bool.not_eq_true', ← Bool.not_eq_true]
    exact ⟨fun h ↦ ⟨h.1, h.2⟩, fun h ↦ ⟨h.head, h.last⟩⟩

theorem trim_eq_rdropWhile (text : List Char) :
    trim text = (text.dropWhile isBlank).rdropWhile isBlank := rfl

/-- A trimmed text stays as it is. -/
theorem trim_eq_self {text : List Char} (htrimmed : IsTrimmed text) : trim text = text := by
  have hhead : text.dropWhile isBlank = text := by
    cases text with
    | nil => rfl
    | cons c rest => exact List.dropWhile_cons_of_neg (htrimmed.head c rfl)
  rw [trim_eq_rdropWhile, hhead, List.rdropWhile_eq_self_iff]
  exact fun hne ↦ htrimmed.last _ (List.getLast?_eq_getLast_of_ne_nil hne)

/-- Trimming gives a trimmed text. -/
theorem isTrimmed_trim (text : List Char) : IsTrimmed (trim text) where
  head := by
    intro c hc
    obtain ⟨tail, htail⟩ := List.head?_eq_some_iff.mp hc
    obtain ⟨back, hback⟩ := List.rdropWhile_prefix isBlank (text.dropWhile isBlank)
    have hkept : text.dropWhile isBlank = c :: (tail ++ back) := by
      rw [← hback, ← trim_eq_rdropWhile, htail, List.cons_append]
    have hhead := List.head?_dropWhile_not isBlank text
    rw [hkept, List.head?_cons] at hhead
    simpa using hhead
  last := by
    intro c hc
    obtain ⟨hne, hlast⟩ := List.mem_getLast?_eq_getLast hc
    rw [hlast]
    exact List.rdropWhile_last_not isBlank _ hne

/-! ### Blanks at the ends -/

theorem trim_eq_nil_iff {text : List Char} : trim text = [] ↔ ∀ c ∈ text, isBlank c := by
  rw [trim_eq_rdropWhile, List.rdropWhile_eq_nil_iff]
  constructor
  · intro hrest c hc
    rw [← List.takeWhile_append_dropWhile (p := isBlank) (l := text), List.mem_append] at hc
    exact hc.elim (List.all_eq_true.mp List.all_takeWhile c) (hrest c)
  · exact fun htext c hc ↦ htext c (List.dropWhile_subset _ hc)

theorem trim_append_append {front text back : List Char} (hfront : ∀ c ∈ front, isBlank c)
    (hback : ∀ c ∈ back, isBlank c) : trim (front ++ text ++ back) = trim text := by
  rw [trim_eq_rdropWhile, trim_eq_rdropWhile, List.append_assoc,
    List.dropWhile_append_of_pos hfront, List.dropWhile_append]
  have hreverse : ∀ c ∈ back.reverse, isBlank c := fun c hc ↦ hback c (List.mem_reverse.mp hc)
  split
  · next hempty =>
    rw [List.isEmpty_iff.mp hempty, List.dropWhile_eq_nil_iff.mpr hback]
  · rw [List.rdropWhile, List.rdropWhile, List.reverse_append,
      List.dropWhile_append_of_pos hreverse]

/-- A text is blanks, the trimmed text, and blanks. -/
theorem exists_append_trim (text : List Char) :
    ∃ front back, (∀ c ∈ front, isBlank c) ∧ (∀ c ∈ back, isBlank c) ∧
      text = front ++ trim text ++ back := by
  refine ⟨text.takeWhile isBlank, (text.dropWhile isBlank).rtakeWhile isBlank,
    List.all_eq_true.mp List.all_takeWhile, fun c hc ↦ List.mem_rtakeWhile_imp hc, ?_⟩
  rw [trim_eq_rdropWhile, List.append_assoc, List.rdropWhile_append_rtakeWhile,
    List.takeWhile_append_dropWhile]

end HelpSheet.Text
