import Mathlib.Computability.Language
import Mathlib.Data.Set.List
import HelpSheet.Proofs.Recipe.Escaping

/-!
# Escaped texts as a code

The escaped texts are the concatenations of code words: eight sequences that begin with a dollar
sign or a backslash, and every character that needs no escaping as a word of its own (`code`). A
concatenation can be taken apart in one way only (`words_unique`), even where a backslash of one
word and the characters behind it look like another word. Escaping is a bijection onto the code,
and reading escaped texts undoes it (`escaped_bijOn_code`).
-/

set_option autoImplicit false
set_option relaxedAutoImplicit false

namespace HelpSheet.Escape.Recipe

open scoped Computability

/-- The sequences that stand for special characters. -/
def sequences : List (List Char) :=
  ["$$", "\\\x22", "\\\\", "\\\x60", "\\n", "\\r", "\\t", "\\033"].map String.toList

/-- The text is a code word: a sequence, or a character that is not special. -/
def IsWord (text : List Char) : Prop :=
  text ∈ sequences ∨ ∃ c, c ∉ special ∧ text = [c]

/-- The concatenations of code words. -/
def code : Language Char :=
  ({word | IsWord word} : Language Char)∗

theorem map_escapeChar_special : special.map escapeChar = sequences := by decide

/-- The code words are the escaped forms of the characters. -/
theorem isWord_iff {word : List Char} : IsWord word ↔ ∃ c, escapeChar c = word := by
  constructor
  · rintro (hsequence | ⟨c, hplain, rfl⟩)
    · rw [← map_escapeChar_special] at hsequence
      obtain ⟨c, -, hc⟩ := List.mem_map.mp hsequence
      exact ⟨c, hc⟩
    · exact ⟨c, escapeChar_eq_self hplain⟩
  · rintro ⟨c, rfl⟩
    by_cases hspecial : c ∈ special
    · exact .inl (map_escapeChar_special ▸ List.mem_map_of_mem hspecial)
    · exact .inr ⟨c, hspecial, escapeChar_eq_self hspecial⟩

/-- Code words one after another are the escaped forms of characters. -/
theorem exists_map_escapeChar_eq {words : List (List Char)} (hwords : ∀ word ∈ words, IsWord word) :
    ∃ chars : List Char, chars.map escapeChar = words := by
  have hrange : words ∈ {words | ∀ word ∈ words, word ∈ Set.range escapeChar} :=
    fun word hword ↦ isWord_iff.mp (hwords word hword)
  rwa [← Set.range_list_map] at hrange

theorem isWord_of_mem_map_escapeChar {chars : List Char} :
    ∀ word ∈ chars.map escapeChar, IsWord word := by
  rw [List.forall_mem_map]
  exact fun c _ ↦ isWord_iff.mpr ⟨c, rfl⟩

theorem flatten_map_escapeChar (chars : List Char) :
    (chars.map escapeChar).flatten = escape chars :=
  (List.flatMap_def).symm

/-- The code is made of the escaped texts. -/
theorem mem_code_iff {text : List Char} : text ∈ code ↔ ∃ chars, escape chars = text := by
  constructor
  · rintro ⟨words, rfl, hwords⟩
    obtain ⟨chars, rfl⟩ := exists_map_escapeChar_eq hwords
    exact ⟨chars, (flatten_map_escapeChar chars).symm⟩
  · rintro ⟨chars, rfl⟩
    rw [← flatten_map_escapeChar]
    exact Language.join_mem_kstar isWord_of_mem_map_escapeChar

theorem escape_injective : Function.Injective escape :=
  Function.LeftInverse.injective unescape_escape

/-- A concatenation of code words can be taken apart in one way only. -/
theorem words_unique {first second : List (List Char)} (hfirst : ∀ word ∈ first, IsWord word)
    (hsecond : ∀ word ∈ second, IsWord word) (hflatten : first.flatten = second.flatten) :
    first = second := by
  obtain ⟨chars, rfl⟩ := exists_map_escapeChar_eq hfirst
  obtain ⟨others, rfl⟩ := exists_map_escapeChar_eq hsecond
  rw [flatten_map_escapeChar, flatten_map_escapeChar] at hflatten
  rw [escape_injective hflatten]

/-! ### Strings -/

theorem unescaped_escaped (text : String) : unescaped (escaped text) = text := by
  rw [unescaped, escaped, String.toList_ofList, unescape_escape, String.ofList_toList]

theorem escaped_toList_mem_code (text : String) : (escaped text).toList ∈ code :=
  mem_code_iff.mpr ⟨text.toList, String.toList_ofList.symm⟩

theorem escaped_unescaped {text : String} (htext : text.toList ∈ code) :
    escaped (unescaped text) = text := by
  obtain ⟨chars, hchars⟩ := mem_code_iff.mp htext
  rw [escaped, unescaped, String.toList_ofList, ← hchars, unescape_escape, hchars,
    String.ofList_toList]

/-- Escaping is a bijection from all texts onto the code, and reading escaped texts is its inverse.
A text that is in the code is taken apart into code words in one way only, and reading and escaping
it gives it back; reading and escaping changes every text that is not. -/
theorem escaped_bijOn_code :
    Set.BijOn escaped Set.univ {text | text.toList ∈ code} ∧
      (∀ text, unescaped (escaped text) = text) ∧
      (∀ text, text.toList ∈ code ↔ escaped (unescaped text) = text) ∧
      ∀ text ∈ code,
        ∃! words : List (List Char), text = words.flatten ∧ ∀ word ∈ words, IsWord word := by
  have hinverse : Set.InvOn unescaped escaped Set.univ {text | text.toList ∈ code} :=
    ⟨fun text _ ↦ unescaped_escaped text, fun _ htext ↦ escaped_unescaped htext⟩
  refine ⟨hinverse.bijOn (fun text _ ↦ escaped_toList_mem_code text) (Set.mapsTo_univ _ _),
    unescaped_escaped, fun text ↦ ⟨escaped_unescaped, fun htext ↦ ?_⟩, ?_⟩
  · rw [← htext]
    exact escaped_toList_mem_code _
  · rintro text ⟨words, rfl, hwords⟩
    exact ⟨words, ⟨rfl, hwords⟩, fun others hothers ↦
      words_unique hothers.2 hwords hothers.1.symm⟩

/-- Digits behind an escaped backslash make no sequence with it. -/
example : unescaped "\\\\033" = "\\033" ∧ unescaped "\\033" = "\x1b" := by decide

end HelpSheet.Escape.Recipe
