import HelpSheet.Proofs.Markdown.Reading
import Mathlib.Data.List.Basic

/-!
# Fences of code spans

A code span begins and ends with fences of one length, and no run of backticks between them has this
length (`IsFenced`): the fences are longer than every run of the text, and padding keeps them apart
from the runs at its ends. So a reader that pairs runs of the same length takes the whole of a
written span as one span, whatever runs its text has (`codeSpanned_isFenced`).
-/

set_option autoImplicit false
set_option relaxedAutoImplicit false

namespace HelpSheet.Escape.Markdown

variable {front content back text span : List Char} {count size : Nat}

/-! ### Runs and the longest of them -/

/-- A run of backticks with what stands before it and behind it: no backtick is next to it. -/
structure IsRunBetween (front : List Char) (count : Nat) (back text : List Char) : Prop where
  count_pos : 0 < count
  text_eq : text = front ++ List.replicate count backtick ++ back
  front_ne : front.getLast? ≠ some backtick
  back_ne : back.head? ≠ some backtick

theorem le_longestRun (current longest : Nat) (text : List Char) :
    current ≤ longestRun current longest text := by
  induction text generalizing current longest with
  | nil => exact Nat.le_max_left current longest
  | cons c text ih =>
    rw [longestRun]
    split
    · exact Nat.le_trans (Nat.le_succ current) (ih (current + 1) longest)
    · rw [longestRun_eq_max]
      exact Nat.le_trans (Nat.le_max_left current longest) (Nat.le_max_left _ _)

theorem longestRun_replicate_append (current longest count : Nat) (back : List Char) :
    longestRun current longest (List.replicate count backtick ++ back) =
      longestRun (current + count) longest back := by
  induction count generalizing current with
  | zero => rfl
  | succ count ih =>
    rw [List.replicate_succ, List.cons_append, longestRun, if_pos rfl, ih, Nat.add_right_comm,
      Nat.add_assoc]

/-- No backticks in a row are more than the longest run has. -/
theorem count_le_longestRun (current longest : Nat) (front : List Char) (count : Nat)
    (back : List Char) :
    count ≤ longestRun current longest (front ++ (List.replicate count backtick ++ back)) := by
  induction front generalizing current longest with
  | nil =>
    rw [List.nil_append, longestRun_replicate_append]
    exact Nat.le_trans (Nat.le_add_left count current) (le_longestRun _ _ _)
  | cons c front ih =>
    rw [List.cons_append, longestRun]
    split
    · exact ih _ _
    · exact ih _ _

/-! ### Fenced texts -/

/-- The content stands between two fences of a size. Both fences are runs of their own, and every
run between them has another length. -/
structure IsFenced (size : Nat) (content span : List Char) : Prop where
  opening : IsRunBetween [] size (content ++ List.replicate size backtick) span
  closing : IsRunBetween (List.replicate size backtick ++ content) size [] span
  others : ∀ front count back, IsRunBetween front count back span →
    front = [] ∨ back = [] ∨ count ≠ size

theorem getLast?_replicate_of_append (hfront : front ≠ [])
    (hfence : List.replicate size backtick = front ++ back) :
    front.getLast? = some backtick := by
  rw [List.getLast?_eq_some_getLast hfront]
  have hmem : front.getLast hfront ∈ List.replicate size backtick := by
    rw [hfence]
    exact List.mem_append_left back (List.getLast_mem hfront)
  rw [List.eq_of_mem_replicate hmem]

theorem head?_replicate_of_append (hback : back ≠ [])
    (hfence : List.replicate size backtick = front ++ back) : back.head? = some backtick := by
  rw [List.head?_eq_some_head hback]
  have hmem : back.head hback ∈ List.replicate size backtick := by
    rw [hfence]
    exact List.mem_append_right front (List.head_mem hback)
  rw [List.eq_of_mem_replicate hmem]

/-- A run that is neither the first nor the last one of a fenced text stands in its content. -/
theorem IsRunBetween.exists_content_eq
    (hrun : IsRunBetween front count back
      (List.replicate size backtick ++ (content ++ List.replicate size backtick)))
    (hfront : front ≠ []) (hback : back ≠ []) :
    ∃ before after, content = before ++ (List.replicate count backtick ++ after) := by
  have htext := hrun.text_eq
  rw [List.append_assoc, List.append_eq_append_iff] at htext
  rcases htext with ⟨before, rfl, hinner⟩ | ⟨rest, hopening, -⟩
  · rw [← List.append_assoc, List.append_eq_append_iff] at hinner
    rcases hinner with ⟨rest, -, hclosing⟩ | ⟨after, hcontent, -⟩
    · exact absurd (head?_replicate_of_append hback hclosing) hrun.back_ne
    · exact ⟨before, after, by rw [hcontent, List.append_assoc]⟩
  · exact absurd (getLast?_replicate_of_append hfront hopening) hrun.front_ne

/-- Fences that are longer than every run of the content, which touches neither of them. -/
theorem isFenced_of_longestRun_lt (hshort : longestRun 0 0 content < size)
    (hcontent : content ≠ []) (hhead : content.head? ≠ some backtick)
    (hlast : content.getLast? ≠ some backtick) :
    IsFenced size content
      (List.replicate size backtick ++ (content ++ List.replicate size backtick)) where
  opening :=
    { count_pos := Nat.zero_lt_of_lt hshort
      text_eq := rfl
      front_ne := nofun
      back_ne := by rwa [List.head?_append_of_ne_nil _ hcontent] }
  closing :=
    { count_pos := Nat.zero_lt_of_lt hshort
      text_eq := by rw [List.append_nil, List.append_assoc]
      front_ne := by rwa [List.getLast?_append_of_ne_nil _ hcontent]
      back_ne := nofun }
  others := by
    intro front count back hrun
    by_cases hfront : front = []
    · exact .inl hfront
    by_cases hback : back = []
    · exact .inr (.inl hback)
    obtain ⟨before, after, rfl⟩ := hrun.exists_content_eq hfront hback
    have hle := count_le_longestRun 0 0 before count after
    exact .inr (.inr (Nat.ne_of_lt (Nat.lt_of_le_of_lt hle hshort)))

/-- A text as a code span is fenced. What stands between the fences is the text, with a space on
either side of it if the text begins or ends with a backtick. A reader takes the whole as one code
span. -/
theorem codeSpanned_isFenced {text : String} (htext : text ≠ "") :
    ∃ size content, IsFenced size content (codeSpanned text).toList ∧
      content = (if text.toList.head? = some backtick ∨ text.toList.getLast? = some backtick
        then ' ' :: text.toList ++ [' '] else text.toList) ∧
      readInline (codeSpanned text).toList = [.code content] := by
  have hchars : text.toList ≠ [] := String.toList_eq_nil_iff.not.mpr htext
  have hspan : (codeSpanned text).toList = codeSpan text.toList := String.toList_ofList
  have hshort : longestRun 0 0 (spanContent text.toList) < longestRun 0 0 text.toList + 1 := by
    rw [longestRun_spanContent]
    exact Nat.lt_succ_self _
  refine ⟨longestRun 0 0 text.toList + 1, spanContent text.toList, ?_, ?_, ?_⟩
  · have hfenced := isFenced_of_longestRun_lt hshort (spanContent_ne_nil hchars)
      (head?_spanContent_ne _) (getLast?_spanContent_ne _)
    rw [hspan, codeSpan, List.append_assoc]
    exact hfenced
  · simp only [spanContent, touchesFence, Bool.or_eq_true, decide_eq_true_eq]
  · have hend : ([] : List Char).head? ≠ some backtick := by simp
    have hread := readInline_codeSpan_append hchars hend
    rw [List.append_nil, readInline_nil] at hread
    rw [hspan, hread]

/-- A text of backticks alone. -/
theorem codeSpanned_isFenced_backticks :
    "\x60\x60" ≠ "" ∧ ∃ size content, IsFenced size content (codeSpanned "\x60\x60").toList ∧
      content = (if "\x60\x60".toList.head? = some backtick ∨
          "\x60\x60".toList.getLast? = some backtick
        then ' ' :: "\x60\x60".toList ++ [' '] else "\x60\x60".toList) ∧
      readInline (codeSpanned "\x60\x60").toList = [.code content] :=
  ⟨by decide, codeSpanned_isFenced (by decide)⟩

end HelpSheet.Escape.Markdown
