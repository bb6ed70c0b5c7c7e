import HelpSheet.Text.Blank

/-!
# Characters that a text lacks

Whether a character occurs in a text is decided by the parts that the text is put together from.
-/

set_option autoImplicit false
set_option relaxedAutoImplicit false

namespace HelpSheet.Text

/-- The character does not occur in the text. -/
def Lacks (c : Char) (text : String) : Prop :=
  c ∉ text.toList

instance (c : Char) : DecidablePred (Lacks c) := fun text ↦
  inferInstanceAs (Decidable (c ∉ text.toList))

variable {c : Char}

@[simp] theorem lacks_empty : Lacks c "" :=
  List.not_mem_nil

@[simp] theorem lacks_append {front back : String} :
    Lacks c (front ++ back) ↔ Lacks c front ∧ Lacks c back := by
  rw [Lacks, String.toList_append, List.mem_append, not_or]
  rfl

theorem lacks_join {parts : List String} :
    Lacks c (String.join parts) ↔ ∀ part ∈ parts, Lacks c part := by
  simp [Lacks, String.toList_join]

theorem joinWith_cons_cons (separator first second : String) (rest : List String) :
    joinWith separator (first :: second :: rest) =
      first ++ separator ++ joinWith separator (second :: rest) := by
  rw [← String.toList_inj]
  simp [joinWith, String.toList_intercalate]

/-- The separator aside, joined texts have the characters of the texts. -/
theorem lacks_joinWith {separator : String} (hseparator : Lacks c separator)
    {parts : List String} :
    Lacks c (joinWith separator parts) ↔ ∀ part ∈ parts, Lacks c part := by
  induction parts with
  | nil => simp [joinWith]
  | cons first rest ih =>
    cases rest with
    | nil => simp [joinWith]
    | cons second rest =>
      rw [joinWith_cons_cons, lacks_append, lacks_append, ih, List.forall_mem_cons]
      simp [hseparator]

theorem lacks_toString_nat (hc : ¬ c.isDigit) (number : Nat) : Lacks c (toString number) := by
  intro hmem
  have hdigit : c ∈ Nat.toDigits 10 number := by rwa [← Nat.toList_repr]
  exact hc (Nat.isDigit_of_mem_toDigits (by decide) (by decide) hdigit)

theorem lacks_toString_int (hc : ¬ c.isDigit) (hsign : c ≠ '-') (number : Int) :
    Lacks c (toString number) := by
  cases number with
  | ofNat number => exact lacks_toString_nat hc number
  | negSucc number =>
    have hdigits : Lacks c (toString number.succ) := lacks_toString_nat hc number.succ
    exact lacks_append.mpr ⟨by simpa [Lacks] using hsign, hdigits⟩

end HelpSheet.Text
