/-!
# Runs of a character

A run is as long as it can be: another character or an end of the text stands on either side of it.
Where a character is written twice for once, its runs have even lengths (`even_of_isRun_doubled`).
-/

set_option autoImplicit false
set_option relaxedAutoImplicit false

namespace HelpSheet.Text

/-- A run of the character with the given length. -/
def IsRun (c : Char) (count : Nat) (text : List Char) : Prop :=
  ∃ front back, text = front ++ List.replicate count c ++ back ∧
    front.getLast? ≠ some c ∧ back.head? ≠ some c

variable {c : Char} {count : Nat}

theorem IsRun.eq_zero_of_nil (hrun : IsRun c count []) : count = 0 := by
  obtain ⟨front, back, htext, -⟩ := hrun
  have hlength := congrArg List.length htext
  simp only [List.length_append, List.length_replicate, List.length_nil] at hlength
  omega

theorem IsRun.of_cons {d : Char} {text : List Char} (hd : d ≠ c)
    (hrun : IsRun c count (d :: text)) : count = 0 ∨ IsRun c count text := by
  obtain ⟨front, back, htext, hfront, hback⟩ := hrun
  cases front with
  | nil =>
    cases count with
    | zero => exact .inl rfl
    | succ count => exact absurd (List.cons.inj htext).1 hd
  | cons e front =>
    refine .inr ⟨front, back, (List.cons.inj htext).2, fun hlast ↦ hfront ?_, hback⟩
    rw [List.getLast?_cons, hlast]
    rfl

/-- A run begins with two characters at the front or stands behind them. -/
theorem IsRun.of_cons_cons {text : List Char} (hrun : IsRun c count (c :: c :: text)) :
    count = 0 ∨ IsRun c count text ∨ ∃ less, count = less + 2 ∧ IsRun c less text := by
  obtain ⟨front, back, htext, hfront, hback⟩ := hrun
  match front with
  | [] =>
    match count with
    | 0 => exact .inl rfl
    | 1 => exact absurd (congrArg List.head? (List.cons.inj htext).2).symm hback
    | less + 2 =>
      refine .inr (.inr ⟨less, rfl, [], back, ?_, nofun, hback⟩)
      exact (List.cons.inj (List.cons.inj htext).2).2
  | [d] => exact absurd (congrArg some (List.cons.inj htext).1.symm) hfront
  | d :: e :: front =>
    have hbehind := (List.cons.inj (List.cons.inj htext).2).2
    refine .inr (.inl ⟨front, back, hbehind, fun hlast ↦ hfront ?_, hback⟩)
    rw [List.getLast?_cons_cons, List.getLast?_cons, hlast]
    rfl

/-- Where a character is written twice for once, its runs have even lengths. -/
theorem even_of_isRun_doubled {text : List Char}
    (hrun : IsRun c count (text.flatMap fun d ↦ if d = c then [c, c] else [d])) : 2 ∣ count := by
  induction text generalizing count with
  | nil => exact hrun.eq_zero_of_nil ▸ Nat.dvd_zero 2
  | cons d text ih =>
    rw [List.flatMap_cons] at hrun
    by_cases hd : d = c
    · rw [if_pos hd] at hrun
      rcases hrun.of_cons_cons with rfl | hrest | ⟨less, rfl, hless⟩
      · exact Nat.dvd_zero 2
      · exact ih hrest
      · exact Nat.dvd_add (ih hless) (Nat.dvd_refl 2)
    · rw [if_neg hd] at hrun
      rcases hrun.of_cons hd with rfl | hrest
      · exact Nat.dvd_zero 2
      · exact ih hrest

end HelpSheet.Text
