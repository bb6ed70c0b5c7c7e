import Mathlib.Data.List.Basic

/-!
# Texts with slots

Two texts made from one form, whose slots hold one text here and another one there. If there is a
slot, the two are the same only if the slots hold the same (`Filled.eq_of_eq`).
-/

set_option autoImplicit false
set_option relaxedAutoImplicit false

namespace HelpSheet.Text

/-- The texts are alike but for `count` slots, which hold `here` in one and `there` in the other. -/
inductive Filled (here there : List Char) : Nat → List Char → List Char → Prop
  | same (text : List Char) : Filled here there 0 text text
  | slot : Filled here there 1 here there
  | append {count further : Nat} {front front' back back' : List Char} :
    Filled here there count front front' → Filled here there further back back' →
      Filled here there (count + further) (front ++ back) (front' ++ back')

variable {here there first second : List Char} {count : Nat}

theorem Filled.between (hfilled : Filled here there count first second)
    (before after : List Char) :
    Filled here there count (before ++ first ++ after) (before ++ second ++ after) := by
  have hfront := (Filled.same before).append hfilled
  rw [Nat.zero_add] at hfront
  exact hfront.append (.same after)

/-- The lengths of the texts differ by those of what the slots hold. -/
theorem Filled.length_eq (hfilled : Filled here there count first second) :
    first.length + count * there.length = second.length + count * here.length := by
  induction hfilled with
  | same text => rw [Nat.zero_mul, Nat.zero_mul]
  | slot => rw [Nat.one_mul, Nat.one_mul, Nat.add_comm]
  | append _ _ hfront hback =>
    rw [List.length_append, List.length_append, Nat.add_mul, Nat.add_mul]
    omega

theorem Filled.length_eq_of_length_eq (hfilled : Filled here there count first second)
    (hlength : here.length = there.length) : first.length = second.length := by
  have htexts := hfilled.length_eq
  rw [hlength] at htexts
  exact Nat.add_right_cancel htexts

theorem Filled.eq_of_length_eq (hfilled : Filled here there count first second)
    (hlength : here.length = there.length) (hsame : first = second) (hcount : 0 < count) :
    here = there := by
  induction hfilled with
  | same text => exact absurd hcount (Nat.lt_irrefl 0)
  | slot => exact hsame
  | append hfront _ ihfront ihback =>
    obtain ⟨hfronts, hbacks⟩ := List.append_inj hsame (hfront.length_eq_of_length_eq hlength)
    obtain hpos | hpos := Nat.add_pos_iff_pos_or_pos.mp hcount
    · exact ihfront hfronts hpos
    · exact ihback hbacks hpos

/-- Texts with a slot are the same only if the slots hold the same. -/
theorem Filled.eq_of_eq (hfilled : Filled here there count first second) (hsame : first = second)
    (hcount : 0 < count) : here = there := by
  have hlengths := hfilled.length_eq
  rw [hsame] at hlengths
  have hlength : there.length = here.length :=
    Nat.eq_of_mul_eq_mul_left hcount (Nat.add_left_cancel hlengths)
  exact hfilled.eq_of_length_eq hlength.symm hsame hcount

end HelpSheet.Text
