import Mathlib.Data.List.TakeDrop
import Mathlib.Data.Nat.Basic
import HelpSheet.Json.Reader

/-!
# Written integers are read back

An integer is written with the digits of its magnitude. In front of a text that cannot continue a
number, the reader takes exactly these digits (`readNumber_toString_append`), provided that there
are not more of them than the limit allows.
-/

set_option autoImplicit false
set_option relaxedAutoImplicit false

namespace HelpSheet.Json

/-- The text does not continue a number before it. -/
def EndsNumber (rest : List Char) : Prop :=
  ∀ c ∈ rest.head?, ¬ c.isDigit ∧ c ≠ '.' ∧ c ≠ 'e' ∧ c ≠ 'E'

theorem endsNumber_cons {c : Char} {rest : List Char}
    (hc : ¬ c.isDigit ∧ c ≠ '.' ∧ c ≠ 'e' ∧ c ≠ 'E') : EndsNumber (c :: rest) := by
  intro d hd
  obtain rfl : c = d := Option.some.inj hd
  exact hc

/-! ### Digits -/

theorem natOfDigits_toDigits (number : Nat) : natOfDigits (Nat.toDigits 10 number) = number :=
  Nat.ofDigitChars_toDigits (by decide) (by decide)

theorem forall_isDigit_toDigits (number : Nat) : ∀ c ∈ Nat.toDigits 10 number, c.isDigit = true :=
  fun _ hc ↦ Nat.isDigit_of_mem_toDigits (by decide) (by decide) hc

theorem exists_toDigits_eq_cons (number : Nat) :
    ∃ digit digits, Nat.toDigits 10 number = digit :: digits ∧ digit.isDigit = true := by
  have hall := forall_isDigit_toDigits number
  cases hdigits : Nat.toDigits 10 number with
  | nil => exact absurd hdigits Nat.toDigits_ne_nil
  | cons digit digits =>
    rw [hdigits] at hall
    exact ⟨digit, digits, rfl, hall digit List.mem_cons_self⟩

/-- Only zero is written with a leading zero. -/
theorem head?_toDigits_ne_zero {number : Nat} (hnumber : number ≠ 0) :
    (Nat.toDigits 10 number).head? ≠ some '0' := by
  have hdigit : ∀ digit < 10, digit ≠ 0 → Nat.digitChar digit ≠ '0' := by decide
  induction number using Nat.strongRecOn with
  | ind number ih =>
    by_cases hsmall : number < 10
    · rw [Nat.toDigits_of_lt_base hsmall]
      simpa using hdigit number hsmall hnumber
    · have hquotient : 0 < number / 10 := by omega
      have hremainder : number % 10 < 10 := by omega
      have hdigits := Nat.toDigits_append_toDigits (by decide) hquotient hremainder
      rw [Nat.div_add_mod] at hdigits
      have hhead := ih (number / 10) (by omega) (by omega)
      obtain ⟨digit, digits, hfront, -⟩ := exists_toDigits_eq_cons (number / 10)
      rw [hfront] at hhead
      rw [← hdigits, hfront]
      exact hhead

theorem spanDigits_append {digits rest : List Char} (hdigits : ∀ c ∈ digits, c.isDigit = true)
    (hrest : EndsNumber rest) : spanDigits (digits ++ rest) = (digits, rest) := by
  have htake : rest.takeWhile Char.isDigit = [] := by
    cases rest with
    | nil => rfl
    | cons c rest => simp [(hrest c rfl).1]
  have hdrop : rest.dropWhile Char.isDigit = rest := by
    cases rest with
    | nil => rfl
    | cons c rest => simp [(hrest c rfl).1]
  rw [spanDigits, List.span_eq_takeWhile_dropWhile, List.takeWhile_append_of_pos hdigits,
    List.dropWhile_append_of_pos hdigits, htake, hdrop, List.append_nil]

theorem integerPart?_toDigits_append (number : Nat) {rest : List Char} (hrest : EndsNumber rest) :
    integerPart? (Nat.toDigits 10 number ++ rest) = some (Nat.toDigits 10 number, rest) := by
  by_cases hnumber : number = 0
  · subst hnumber
    rfl
  · have hspan := spanDigits_append (forall_isDigit_toDigits number) hrest
    have hzero := head?_toDigits_ne_zero hnumber
    obtain ⟨digit, digits, hdigits, -⟩ := exists_toDigits_eq_cons number
    rw [hdigits] at hspan hzero ⊢
    have hdigit : digit ≠ '0' := by simpa using hzero
    rw [List.cons_append] at hspan ⊢
    rw [integerPart?]
    · simp [hspan]
    · intro tail htail
      exact hdigit (List.cons.inj htail).1

/-! ### Integers -/

theorem fractionPart_eq_nil {rest : List Char} (hrest : EndsNumber rest) :
    fractionPart rest = ([], rest) := by
  cases rest with
  | nil => rfl
  | cons c rest =>
    have hpoint := (hrest c rfl).2.1
    rw [fractionPart]
    intro tail htail
    exact hpoint (List.cons.inj htail).1

theorem exponentPart_eq_nil {rest : List Char} (hrest : EndsNumber rest) :
    exponentPart rest = ([], rest) := by
  cases rest with
  | nil => rfl
  | cons c rest =>
    obtain ⟨-, -, hlower, hupper⟩ := hrest c rfl
    simp [exponentPart, hlower, hupper]

theorem toString_ofNat_toList (number : Nat) :
    (toString (Int.ofNat number)).toList = Nat.toDigits 10 number :=
  Nat.toList_repr

theorem toString_negSucc_toList (number : Nat) :
    (toString (Int.negSucc number)).toList = '-' :: Nat.toDigits 10 (number + 1) := by
  have htext : toString (Int.negSucc number) = "-" ++ Nat.repr (number + 1) := rfl
  rw [htext, String.toList_append, Nat.toList_repr]
  rfl

/-- A written integer begins with a sign or a digit. -/
theorem exists_toString_toList_eq_cons (value : Int) :
    ∃ c digits, (toString value).toList = c :: digits ∧ (c = '-' ∨ c.isDigit = true) := by
  cases value with
  | ofNat number =>
    obtain ⟨digit, digits, hdigits, hdigit⟩ := exists_toDigits_eq_cons number
    exact ⟨digit, digits, (toString_ofNat_toList number).trans hdigits, .inr hdigit⟩
  | negSucc number =>
    exact ⟨'-', _, toString_negSucc_toList number, .inl rfl⟩

/-- The digits of a magnitude are no longer than the integer as it is written. -/
theorem length_toDigits_le (value : Int) :
    (Nat.toDigits 10 value.natAbs).length ≤ (toString value).toList.length := by
  cases value with
  | ofNat number =>
    rw [toString_ofNat_toList]
    exact Nat.le_refl _
  | negSucc number =>
    rw [toString_negSucc_toList, List.length_cons]
    exact Nat.le_succ _

/-- A written integer is read back within a limit that its digits keep. -/
theorem readNumber_toString_append {rules : Rules} {value : Int} {rest : List Char}
    (hdigits : (Nat.toDigits 10 value.natAbs).length ≤ rules.digits) (hrest : EndsNumber rest) :
    readNumber rules ((toString value).toList ++ rest) = .ok (.int value, rest) := by
  have hwithin : Text.Numeral.tooLong? rules.digits (Nat.toDigits 10 value.natAbs).length = none :=
    if_pos hdigits
  have hpart := integerPart?_toDigits_append value.natAbs hrest
  have hfraction := fractionPart_eq_nil hrest
  have hexponent := exponentPart_eq_nil hrest
  have hvalue := natOfDigits_toDigits value.natAbs
  cases value with
  | ofNat number =>
    have hsign : ∀ tail, Nat.toDigits 10 number ++ rest = '-' :: tail → False := by
      intro tail htail
      obtain ⟨digit, digits, hfront, hdigit⟩ := exists_toDigits_eq_cons number
      rw [hfront, List.cons_append] at htail
      rw [(List.cons.inj htail).1] at hdigit
      exact absurd hdigit (by decide)
    rw [Int.natAbs_ofNat'] at hwithin hpart hvalue
    rw [toString_ofNat_toList, readNumber]
    · simp [hpart, hfraction, hexponent, hwithin, hvalue]
    · exact hsign
  | negSucc number =>
    rw [Int.natAbs_negSucc] at hwithin hpart hvalue
    rw [toString_negSucc_toList, List.cons_append, readNumber]
    simp only [hpart, hfraction, hexponent, hwithin, hvalue]
    rfl

end HelpSheet.Json
