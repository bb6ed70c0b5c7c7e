import HelpSheet.Text.Blank

/-!
# Texts cut at a separator

A text is the pieces between its separators, and nothing else falls apart into them.
-/

set_option autoImplicit false
set_option relaxedAutoImplicit false

namespace HelpSheet.Text

theorem splitOnChar_ne_nil (separator : Char) (text : List Char) :
    splitOnChar separator text ≠ [] := by
  cases text with
  | nil => simp [splitOnChar]
  | cons d rest =>
    rw [splitOnChar]
    split
    · simp
    · split <;> simp

/-- A text falls apart at any of its separators. -/
theorem splitOnChar_append_separator (separator : Char) (front back : List Char) :
    splitOnChar separator (front ++ separator :: back) =
      splitOnChar separator front ++ splitOnChar separator back := by
  induction front with
  | nil => simp [splitOnChar]
  | cons d front ih =>
    rw [List.cons_append, splitOnChar, splitOnChar, ih]
    split
    · rfl
    · cases hfront : splitOnChar separator front with
      | nil => exact absurd hfront (splitOnChar_ne_nil separator front)
      | cons piece pieces => rfl

theorem splitOnChar_of_not_mem {separator : Char} {text : List Char}
    (htext : separator ∉ text) : splitOnChar separator text = [text] := by
  induction text with
  | nil => rfl
  | cons d rest ih =>
    rw [List.mem_cons, not_or] at htext
    rw [splitOnChar, if_neg (Ne.symm htext.1), ih htext.2]

/-- The pieces between separators have the characters of the text. -/
theorem mem_of_mem_splitOnChar {separator c : Char} {text piece : List Char}
    (hpiece : piece ∈ splitOnChar separator text) (hc : c ∈ piece) : c ∈ text := by
  induction text generalizing piece with
  | nil => simp_all [splitOnChar]
  | cons d rest ih =>
    rw [splitOnChar] at hpiece
    split at hpiece
    · rcases List.mem_cons.mp hpiece with rfl | hpiece
      · cases hc
      · exact List.mem_cons_of_mem _ (ih hpiece hc)
    · split at hpiece
      · rw [List.mem_singleton.mp hpiece] at hc
        exact List.mem_cons.mpr (.inl (List.mem_singleton.mp hc))
      · rename_i first pieces hsplit
        rw [hsplit] at ih
        rcases List.mem_cons.mp hpiece with rfl | hpiece
        · rcases List.mem_cons.mp hc with rfl | hc
          · exact List.mem_cons_self
          · exact List.mem_cons_of_mem _ (ih List.mem_cons_self hc)
        · exact List.mem_cons_of_mem _ (ih (List.mem_cons_of_mem _ hpiece) hc)

/-- Pieces without the separator, each followed by one, are found again; nothing stands after the
last separator. -/
theorem splitOnChar_flatMap {separator : Char} {pieces : List (List Char)}
    (hpieces : ∀ piece ∈ pieces, separator ∉ piece) :
    splitOnChar separator (pieces.flatMap fun piece ↦ piece ++ [separator]) =
      pieces ++ [[]] := by
  induction pieces with
  | nil => rfl
  | cons piece pieces ih =>
    rw [List.forall_mem_cons] at hpieces
    rw [List.flatMap_cons, List.append_assoc, List.singleton_append,
      splitOnChar_append_separator, splitOnChar_of_not_mem hpieces.1, ih hpieces.2,
      List.singleton_append, List.cons_append]

theorem not_mem_of_mem_splitOnChar {separator : Char} {text piece : List Char}
    (hpiece : piece ∈ splitOnChar separator text) : separator ∉ piece := by
  induction text generalizing piece with
  | nil => simp_all [splitOnChar]
  | cons c rest ih =>
    rw [splitOnChar] at hpiece
    split at hpiece
    · rcases List.mem_cons.mp hpiece with rfl | hpiece
      · exact List.not_mem_nil
      · exact ih hpiece
    · next hc =>
      have hfirst : ∀ {piece : List Char}, separator ∉ piece → separator ∉ c :: piece :=
        fun hpiece hmem ↦ (List.mem_cons.mp hmem).elim (hc ·.symm) hpiece
      split at hpiece
      · rw [List.mem_singleton.mp hpiece]
        exact hfirst List.not_mem_nil
      · next first pieces hsplit =>
        rw [hsplit] at ih
        rcases List.mem_cons.mp hpiece with rfl | hpiece
        · exact hfirst (ih List.mem_cons_self)
        · exact ih (List.mem_cons_of_mem _ hpiece)

/-- Only pieces without the separator are found again. -/
theorem splitOnChar_flatMap_iff {separator : Char} {pieces : List (List Char)} :
    splitOnChar separator (pieces.flatMap fun piece ↦ piece ++ [separator]) =
        pieces ++ [[]] ↔
      ∀ piece ∈ pieces, separator ∉ piece := by
  refine ⟨fun hsplit piece hpiece ↦ ?_, splitOnChar_flatMap⟩
  have hfound : piece ∈ pieces ++ [[]] := List.mem_append_left _ hpiece
  rw [← hsplit] at hfound
  exact not_mem_of_mem_splitOnChar hfound

end HelpSheet.Text
