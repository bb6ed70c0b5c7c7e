import Mathlib.Data.Bool.AllAny
import HelpSheet.Escape.Web

/-!
# Text in HTML and the entities in it

An escaped text holds no angle bracket and no quote (`not_mem_marks_of_mem_escape`), every ampersand
in it begins one of the five entities (`entitiesOnly_escape`), and decoding the entities gives the
text back (`decodeEntities_escape`).
-/

set_option autoImplicit false
set_option relaxedAutoImplicit false

namespace HelpSheet.Escape.Html

/-- The characters that are written as entities. -/
def special : List Char := ['&', '<', '>', '\x22', '\x27']

/-- The characters that end a text or an attribute value. -/
def marks : List Char := ['<', '>', '\x22', '\x27']

/-- The entities of escaped text. -/
def entities : List (List Char) :=
  ["&amp;", "&lt;", "&gt;", "&quot;", "&#x27;"].map String.toList

/-- Every ampersand of the text begins an entity. -/
def EntitiesOnly (text : List Char) : Prop :=
  ∀ before after, text = before ++ '&' :: after → ∃ entity ∈ entities, entity <+: '&' :: after

/-- The text with the five entities decoded. -/
def decodeEntities : List Char → List Char
  | '&' :: 'a' :: 'm' :: 'p' :: ';' :: rest => '&' :: decodeEntities rest
  | '&' :: 'l' :: 't' :: ';' :: rest => '<' :: decodeEntities rest
  | '&' :: 'g' :: 't' :: ';' :: rest => '>' :: decodeEntities rest
  | '&' :: 'q' :: 'u' :: 'o' :: 't' :: ';' :: rest => '\x22' :: decodeEntities rest
  | '&' :: '#' :: 'x' :: '2' :: '7' :: ';' :: rest => '\x27' :: decodeEntities rest
  | c :: rest => c :: decodeEntities rest
  | [] => []

/-- A property of all characters is one of the five special ones and of the plain ones. -/
@[elab_as_elim]
theorem charCases {motive : Char → Prop} (ampersand : motive '&') (less : motive '<')
    (greater : motive '>') (quote : motive '\x22') (apostrophe : motive '\x27')
    (plain : ∀ c, c ∉ special → motive c) (c : Char) : motive c := by
  by_cases hspecial : c ∈ special
  · simp only [special, List.mem_cons, List.not_mem_nil, or_false] at hspecial
    rcases hspecial with rfl | rfl | rfl | rfl | rfl <;> assumption
  · exact plain c hspecial

theorem marks_subset_special : marks ⊆ special := by decide

theorem escapeChar_eq_self {c : Char} (hplain : c ∉ special) : escapeChar c = [c] := by
  simp only [special, List.mem_cons, List.not_mem_nil, or_false, not_or] at hplain
  unfold escapeChar
  split <;> simp_all

theorem escape_cons (c : Char) (rest : List Char) :
    escape (c :: rest) = escapeChar c ++ escape rest := by
  rw [escape, List.flatMap_cons, ← escape]

theorem not_mem_marks_of_mem_escapeChar (c : Char) : ∀ d ∈ escapeChar c, d ∉ marks := by
  induction c using charCases with
  | plain c hplain =>
    rw [escapeChar_eq_self hplain, List.forall_mem_singleton]
    exact fun hmark ↦ hplain (marks_subset_special hmark)
  | _ => exact List.all_iff_forall_prop.mp (by decide)

/-- No angle bracket and no quote stands in an escaped text. -/
theorem not_mem_marks_of_mem_escape {text : List Char} {d : Char} (hd : d ∈ escape text) :
    d ∉ marks := by
  obtain ⟨c, -, hc⟩ := List.mem_flatMap.mp hd
  exact not_mem_marks_of_mem_escapeChar c d hc

/-! ### Entities -/

theorem entitiesOnly_of_not_mem {text : List Char} (htext : '&' ∉ text) : EntitiesOnly text := by
  rintro before after rfl
  exact absurd (List.mem_append_right before List.mem_cons_self) htext

theorem EntitiesOnly.append {first second : List Char} (hfirst : EntitiesOnly first)
    (hsecond : EntitiesOnly second) : EntitiesOnly (first ++ second) := by
  intro before after hsplit
  rcases List.append_eq_append_iff.mp hsplit with ⟨middle, rfl, hrest⟩ | ⟨middle, hrest, hmiddle⟩
  · exact hsecond middle after hrest
  · cases middle with
    | nil => exact hsecond [] after hmiddle.symm
    | cons c middle =>
      rw [List.cons_append, List.cons.injEq] at hmiddle
      obtain ⟨rfl, rfl⟩ := hmiddle
      obtain ⟨entity, hentity, hstart⟩ := hfirst before middle hrest
      exact ⟨entity, hentity, hstart.trans (List.prefix_append ('&' :: middle) second)⟩

theorem entitiesOnly_of_mem {entity : List Char} (hentity : entity ∈ entities) :
    EntitiesOnly entity := by
  have htail : ∀ entity ∈ entities, '&' ∉ entity.tail := by decide
  rintro (_ | ⟨c, before⟩) after rfl
  · exact ⟨'&' :: after, hentity, List.prefix_rfl⟩
  · exact absurd (List.mem_append_right before List.mem_cons_self) (htail _ hentity)

theorem entitiesOnly_escapeChar (c : Char) : EntitiesOnly (escapeChar c) := by
  induction c using charCases with
  | plain c hplain =>
    rw [escapeChar_eq_self hplain]
    refine entitiesOnly_of_not_mem fun hmem ↦ hplain ?_
    rw [← List.mem_singleton.mp hmem]
    decide
  | _ => exact entitiesOnly_of_mem (by decide)

/-- Every ampersand of an escaped text begins an entity. -/
theorem entitiesOnly_escape (text : List Char) : EntitiesOnly (escape text) := by
  induction text with
  | nil => exact entitiesOnly_of_not_mem List.not_mem_nil
  | cons c rest ih =>
    rw [escape_cons]
    exact (entitiesOnly_escapeChar c).append ih

theorem decodeEntities_cons {c : Char} (hplain : c ∉ special) (rest : List Char) :
    decodeEntities (c :: rest) = c :: decodeEntities rest := by
  simp only [special, List.mem_cons, List.not_mem_nil, or_false, not_or] at hplain
  rw [decodeEntities.eq_def (c :: rest)]
  split <;> simp_all

theorem decodeEntities_escapeChar_append (c : Char) (rest : List Char) :
    decodeEntities (escapeChar c ++ rest) = c :: decodeEntities rest := by
  induction c using charCases with
  | plain c hplain =>
    rw [escapeChar_eq_self hplain]
    exact decodeEntities_cons hplain rest
  | _ => simp [escapeChar, decodeEntities]

/-- Decoding the entities of an escaped text gives the text back. -/
theorem decodeEntities_escape (text : List Char) : decodeEntities (escape text) = text := by
  induction text with
  | nil => rfl
  | cons c rest ih => rw [escape_cons, decodeEntities_escapeChar_append, ih]

end HelpSheet.Escape.Html
