import Mathlib.Data.List.Induction
import HelpSheet.Json.Writer
import HelpSheet.Proofs.Json.Limits

/-!
# Integers that were read

The reader takes no integer with more digits than its rules allow, so that all integers in a value
that was read are below a power of ten (`haveDigits_of_parseWithin`). Read by the rules for files,
each of them can be written again (`isShort_of_parseWithin`).
-/

set_option autoImplicit false
set_option relaxedAutoImplicit false

namespace HelpSheet.Json

variable {α : Type} {fuel : Nat} {rules : Rules} {text : List Char}

/-- The integers in a value have at most a number of digits. -/
def HaveDigits (digits : Nat) (value : Json) : Prop :=
  ∀ number ∈ value.integers, number.natAbs < Nat.pow 10 digits

/-- The values that a reader gives have a property. -/
def Gives (p : α → Prop) (reading : Reading α) : Prop :=
  ∀ value rest, reading = .ok (value, rest) → p value

theorem gives_error {p : α → Prop} (found : Stop) : Gives p (.error found) := fun _ _ hread ↦ by
  cases hread

theorem gives_ok {p : α → Prop} {value : α} (hvalue : p value) (rest : List Char) :
    Gives p (.ok (value, rest)) := fun _ _ hread ↦ by
  cases hread
  exact hvalue

/-! ### Numbers -/

theorem natOfDigits_append (digits : List Char) (digit : Char) :
    natOfDigits (digits ++ [digit]) = 10 * natOfDigits digits + (digit.toNat - 48) := by
  rw [natOfDigits, List.foldl_append]
  rfl

theorem natOfDigits_lt {digits : List Char} (hdigits : ∀ c ∈ digits, c.isDigit = true) :
    natOfDigits digits < Nat.pow 10 digits.length := by
  induction digits using List.reverseRecOn with
  | nil => exact Nat.one_pos
  | append_singleton digits digit ih =>
    rw [List.forall_mem_append, List.forall_mem_singleton] at hdigits
    have hrest := ih hdigits.1
    have hlast : digit.toNat ≤ 57 := by
      have hdigit := hdigits.2
      simp only [Char.isDigit, ge_iff_le, Bool.and_eq_true, decide_eq_true_eq] at hdigit
      exact UInt32.le_iff_toNat_le.mp hdigit.2
    rw [natOfDigits_append, List.length_append, List.length_singleton]
    have hpower : Nat.pow 10 (digits.length + 1) = Nat.pow 10 digits.length * 10 := rfl
    omega

theorem gives_readNumber (rules : Rules) (text : List Char) :
    Gives (HaveDigits rules.digits) (readNumber rules text) := by
  unfold readNumber
  split
  next negative unsigned _ =>
    split
    · exact gives_error _
    · next digits rest hpart =>
      dsimp only
      split
      · split
        · exact gives_error _
        · next hlimit =>
          refine gives_ok (List.forall_mem_singleton.mpr ?_) _
          have hlength : digits.length ≤ rules.digits := by
            by_contra hlong
            rw [Text.Numeral.tooLong?, if_neg hlong] at hlimit
            cases hlimit
          have hmagnitude := natOfDigits_lt (integerPart?_spec hpart).2
          have hbound := Nat.lt_of_lt_of_le hmagnitude (Nat.pow_le_pow_right (by decide) hlength)
          cases negative with
          | true => rwa [if_pos rfl, Int.natAbs_neg, Int.natAbs_natCast]
          | false => rwa [if_neg Bool.false_ne_true, Int.natAbs_natCast]
      · exact gives_ok (List.forall_mem_nil _) _

theorem gives_readScalar (rules : Rules) (text : List Char) :
    Gives (HaveDigits rules.digits) (readScalar rules text) := by
  unfold readScalar
  split
  · next word value hfound =>
    have hwords : ∀ word ∈ words, word.2.integers = [] := by decide
    refine gives_ok (fun number hnumber ↦ ?_) _
    rw [hwords _ (List.mem_of_find?_eq_some hfound)] at hnumber
    cases hnumber
  · exact gives_readNumber rules text

/-! ### Values -/

theorem isShort_iff_haveDigits {value : Json} :
    value.IsShort ↔ HaveDigits Text.Numeral.maxDigits value :=
  Iff.rfl

theorem isShort_int {value : Int} : IsShort (.int value) ↔ Text.Numeral.IsShort value :=
  List.forall_mem_singleton

theorem isShort_string (content : String) : IsShort (.string content) :=
  List.forall_mem_nil _

theorem haveDigits_array {digits : Nat} {items : List Json} :
    HaveDigits digits (.array items) ↔ ∀ item ∈ items, HaveDigits digits item := by
  simp only [HaveDigits, integers_array, List.forall_mem_flatMap]

theorem haveDigits_object {digits : Nat} {fields : List (String × Json)} :
    HaveDigits digits (.object fields) ↔ ∀ field ∈ fields, HaveDigits digits field.2 := by
  simp only [HaveDigits, integers_object, List.forall_mem_flatMap]

theorem isShort_array {items : List Json} :
    IsShort (.array items) ↔ ∀ item ∈ items, item.IsShort :=
  haveDigits_array

theorem isShort_object {fields : List (String × Json)} :
    IsShort (.object fields) ↔ ∀ field ∈ fields, field.2.IsShort :=
  haveDigits_object

theorem forall_mem_setField {p : Json → Prop} (name : String) {value : Json}
    {fields : List (String × Json)} (hvalue : p value) (hfields : ∀ field ∈ fields, p field.2) :
    ∀ field ∈ setField name value fields, p field.2 := by
  induction fields with
  | nil => exact List.forall_mem_singleton.mpr hvalue
  | cons field fields ih =>
    rw [List.forall_mem_cons] at hfields
    rw [setField]
    split
    · exact List.forall_mem_cons.mpr ⟨hvalue, hfields.2⟩
    · exact List.forall_mem_cons.mpr ⟨hfields.1, ih hfields.2⟩

theorem digits_of_inside {inner : Rules} {container : Container}
    (hinside : rules.inside container = .ok inner) : inner.digits = rules.digits := by
  unfold Rules.inside at hinside
  split at hinside
  · cases hinside
  · cases hinside
    rfl

section Steps

variable
  (hvalue : ∀ rules text, Gives (HaveDigits rules.digits) (readValue fuel rules text))
  (hitems : ∀ rules text, Gives (fun items ↦ ∀ item ∈ items, HaveDigits rules.digits item)
    (readItems fuel rules text))
  (hfields : ∀ rules fields text, (∀ field ∈ fields, HaveDigits rules.digits field.2) →
    Gives (fun fields ↦ ∀ field ∈ fields, HaveDigits rules.digits field.2)
      (readFields fuel rules fields text))

include hitems hfields in
theorem gives_readValue_succ (rules : Rules) (text : List Char) :
    Gives (HaveDigits rules.digits) (readValue (fuel + 1) rules text) := by
  rw [readValue.eq_def]
  dsimp only
  split
  · split
    · exact gives_ok (List.forall_mem_nil _) _
    · exact gives_error _
  · split
    · exact gives_error _
    · next inner hinside =>
      split
      · exact gives_ok (haveDigits_array.mpr (List.forall_mem_nil _)) _
      · split
        · next items after hread =>
          have hinner := hitems inner _ items after hread
          rw [digits_of_inside hinside] at hinner
          exact gives_ok (haveDigits_array.mpr hinner) _
        · exact gives_error _
  · split
    · exact gives_error _
    · next inner hinside =>
      split
      · exact gives_ok (haveDigits_object.mpr (List.forall_mem_nil _)) _
      · split
        · next fields after hread =>
          have hinner := hfields inner [] _ (List.forall_mem_nil _) fields after hread
          rw [digits_of_inside hinside] at hinner
          exact gives_ok (haveDigits_object.mpr hinner) _
        · exact gives_error _
  · exact gives_readScalar rules text

include hvalue hitems in
theorem gives_readItems_succ (rules : Rules) (text : List Char) :
    Gives (fun items ↦ ∀ item ∈ items, HaveDigits rules.digits item)
      (readItems (fuel + 1) rules text) := by
  rw [readItems.eq_def]
  dsimp only
  split
  · exact gives_error _
  · next item rest hread =>
    have hitem := hvalue rules text item rest hread
    split
    · exact gives_ok (List.forall_mem_singleton.mpr hitem) _
    · split
      · next items after hrest =>
        exact gives_ok (List.forall_mem_cons.mpr ⟨hitem, hitems rules _ items after hrest⟩) _
      · exact gives_error _
    · exact gives_error _

include hvalue hfields in
theorem gives_readFields_succ (rules : Rules) (fields : List (String × Json)) (text : List Char)
    (hbefore : ∀ field ∈ fields, HaveDigits rules.digits field.2) :
    Gives (fun fields ↦ ∀ field ∈ fields, HaveDigits rules.digits field.2)
      (readFields (fuel + 1) rules fields text) := by
  rw [readFields.eq_def]
  dsimp only
  split
  · split
    · exact gives_error _
    · next name _ _ =>
      split
      · split
        · exact gives_error _
        · next value rest hread =>
          have hset := forall_mem_setField name (hvalue rules _ value rest hread) hbefore
          split
          · exact gives_ok hset _
          · exact hfields rules _ _ hset
          · exact gives_error _
      · exact gives_error _
  · exact gives_error _

end Steps

/-- The readers of values, items and fields together, by induction on the fuel that they share. -/
theorem gives_values (fuel : Nat) :
    (∀ rules text, Gives (HaveDigits rules.digits) (readValue fuel rules text)) ∧
      (∀ rules text, Gives (fun items ↦ ∀ item ∈ items, HaveDigits rules.digits item)
        (readItems fuel rules text)) ∧
      ∀ rules fields text, (∀ field ∈ fields, HaveDigits rules.digits field.2) →
        Gives (fun fields ↦ ∀ field ∈ fields, HaveDigits rules.digits field.2)
          (readFields fuel rules fields text) := by
  induction fuel with
  | zero =>
    refine ⟨fun rules text ↦ ?_, fun rules text ↦ ?_, fun rules fields text _ ↦ ?_⟩
    · rw [readValue.eq_def]
      exact gives_error _
    · rw [readItems.eq_def]
      exact gives_error _
    · rw [readFields.eq_def]
      exact gives_error _
  | succ fuel ih =>
    obtain ⟨hvalue, hitems, hfields⟩ := ih
    exact ⟨gives_readValue_succ hitems hfields, gives_readItems_succ hvalue hitems,
      gives_readFields_succ hvalue hfields⟩

/-- All integers in a value that was read have as few digits as the rules ask for. -/
theorem haveDigits_of_parseWithin {text : String} {value : Json}
    (hparse : parseWithin rules text = .ok value) : HaveDigits rules.digits value := by
  unfold parseWithin readWhole at hparse
  split at hparse
  · cases hparse
  · split at hparse
    · cases hparse
    · next found rest hread =>
      have hfound := (gives_values _).1 rules _ found rest hread
      split at hparse
      · cases hparse
        exact hfound
      · cases hparse

/-- What was read within the limit for numerals can be written again. -/
theorem isShort_of_parseWithin {text : String} {value : Json}
    (hrules : rules.digits = Text.Numeral.maxDigits)
    (hparse : parseWithin rules text = .ok value) : value.IsShort := by
  have hdigits := haveDigits_of_parseWithin hparse
  rwa [hrules, ← isShort_iff_haveDigits] at hdigits

end HelpSheet.Json
