import Mathlib.Data.Bool.AllAny
import HelpSheet.Escape.Recipe

/-!
# The escaped form of a text

Eight characters have an escaped form of their own; every other character stands for itself. The
escaped text holds no line break, tab or escape character (`not_mem_controls_of_mem_escape`), and
reading it back gives the text (`unescape_escape`).
-/

set_option autoImplicit false
set_option relaxedAutoImplicit false

namespace HelpSheet.Escape.Recipe

/-- The characters whose escaped form is another text. -/
def special : List Char := ['$', '\x22', '\\', '\x60', '\n', '\r', '\t', '\x1b']

/-- The characters that cannot stand between the quotes of a recipe line. -/
def controls : List Char := ['\n', '\r', '\t', '\x1b']

/-- A property of all characters is one of the eight special ones and of the plain ones. -/
@[elab_as_elim]
theorem charCases {motive : Char → Prop} (dollar : motive '$') (quote : motive '\x22')
    (backslash : motive '\\') (backtick : motive '\x60') (lineFeed : motive '\n')
    (carriageReturn : motive '\r') (tab : motive '\t') (escapeSign : motive '\x1b')
    (plain : ∀ c, c ∉ special → motive c) (c : Char) : motive c := by
  by_cases hspecial : c ∈ special
  · simp only [special, List.mem_cons, List.not_mem_nil, or_false] at hspecial
    rcases hspecial with rfl | rfl | rfl | rfl | rfl | rfl | rfl | rfl <;> assumption
  · exact plain c hspecial

theorem controls_subset_special : controls ⊆ special := by decide

theorem escapeChar_eq_self {c : Char} (hplain : c ∉ special) : escapeChar c = [c] := by
  simp only [special, List.mem_cons, List.not_mem_nil, or_false, not_or] at hplain
  unfold escapeChar
  split <;> simp_all

theorem escape_cons (c : Char) (rest : List Char) :
    escape (c :: rest) = escapeChar c ++ escape rest := by
  rw [escape, List.flatMap_cons, ← escape]

theorem not_mem_controls_of_mem_escapeChar (c : Char) : ∀ d ∈ escapeChar c, d ∉ controls := by
  induction c using charCases with
  | plain c hplain =>
    rw [escapeChar_eq_self hplain, List.forall_mem_singleton]
    exact fun hcontrol ↦ hplain (controls_subset_special hcontrol)
  | _ => exact List.all_iff_forall_prop.mp (by decide)

/-- No line feed, carriage return, tab or escape character stands in an escaped text. -/
theorem not_mem_controls_of_mem_escape {text : List Char} {d : Char} (hd : d ∈ escape text) :
    d ∉ controls := by
  obtain ⟨c, -, hc⟩ := List.mem_flatMap.mp hd
  exact not_mem_controls_of_mem_escapeChar c d hc

/-- A plain character begins no escaped form but its own. -/
theorem unescape_cons {c : Char} (hplain : c ∉ special) (rest : List Char) :
    unescape (c :: rest) = c :: unescape rest := by
  simp only [special, List.mem_cons, List.not_mem_nil, or_false, not_or] at hplain
  rw [unescape.eq_def (c :: rest)]
  split <;> simp_all

theorem unescape_escapeChar_append (c : Char) (rest : List Char) :
    unescape (escapeChar c ++ rest) = c :: unescape rest := by
  induction c using charCases with
  | plain c hplain =>
    rw [escapeChar_eq_self hplain]
    exact unescape_cons hplain rest
  | _ => simp [escapeChar, unescape]

/-- Reading an escaped text gives the text back. -/
theorem unescape_escape (text : List Char) : unescape (escape text) = text := by
  induction text with
  | nil => rfl
  | cons c rest ih => rw [escape_cons, unescape_escapeChar_append, ih]

end HelpSheet.Escape.Recipe
