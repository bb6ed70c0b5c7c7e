import Mathlib.Data.Nat.Basic
import HelpSheet.Json.Reader
import HelpSheet.Json.Writer

/-!
# Written strings are read back

A character of a string is written as itself, with a letter after a backslash, or by its number
(`escapeChar_cases`). Each form is read as one character, so the reader takes a written string in
front of any text (`readString_writeString_append`).
-/

set_option autoImplicit false
set_option relaxedAutoImplicit false

namespace HelpSheet.Json

/-! ### Escapes -/

theorem hexValue?_hexDigit (value : Nat) : hexValue? (Text.hexDigit value) = some (value % 16) := by
  have hdigits : ∀ digit < 16, hexValue? (Nat.digitChar digit) = some digit := by decide
  exact hdigits (value % 16) (Nat.mod_lt value (by decide))

/-- Four hexadecimal digits are read back where a text follows them. -/
theorem readHexQuad_hexDigits_append {unit : Nat} (hunit : unit < 0x10000) {rest : List Char}
    (hrest : rest ≠ []) :
    readHexQuad ('u' :: (Text.hexDigits 4 unit ++ rest)) = .ok (unit, rest) := by
  have hvalue : (((unit / 16 / 16 / 16 % 16) * 16 + unit / 16 / 16 % 16) * 16 +
      unit / 16 % 16) * 16 + unit % 16 = unit := by
    omega
  have hquad : hexQuad? (Text.hexDigit (unit / 16 / 16 / 16)) (Text.hexDigit (unit / 16 / 16))
      (Text.hexDigit (unit / 16)) (Text.hexDigit unit) = some unit := by
    simp only [hexQuad?, hexValue?_hexDigit, Option.pure_def, Option.bind_eq_bind,
      Option.bind_some, hvalue]
  have hempty : rest.isEmpty = false := List.isEmpty_eq_false_iff.mpr hrest
  simp [readHexQuad, Text.hexDigits, hquad, hempty]

/-- The three forms in which a character is written. -/
theorem escapeChar_cases (c : Char) :
    (∃ letter, simpleEscapes.lookup letter = some c ∧ escapeChar c = ['\\', letter]) ∨
      (c.toNat < 0x20 ∧ escapeChar c = '\\' :: 'u' :: Text.hexDigits 4 c.toNat) ∨
      (c ≠ '\x22' ∧ c ≠ '\\' ∧ 0x20 ≤ c.toNat ∧ escapeChar c = [c]) := by
  unfold escapeChar
  split
  · exact .inl ⟨'\x22', by decide⟩
  · exact .inl ⟨'\\', by decide⟩
  · exact .inl ⟨'n', by decide⟩
  · exact .inl ⟨'r', by decide⟩
  · exact .inl ⟨'t', by decide⟩
  · exact .inl ⟨'b', by decide⟩
  · exact .inl ⟨'f', by decide⟩
  · next hquote hbackslash _ _ _ _ _ =>
    by_cases hcontrol : c.toNat < 0x20
    · exact .inr (.inl ⟨hcontrol, if_pos hcontrol⟩)
    · exact .inr (.inr ⟨hquote, hbackslash, by omega, if_neg hcontrol⟩)

theorem escapeChar_ne_nil (c : Char) : escapeChar c ≠ [] := by
  obtain ⟨letter, -, hwritten⟩ | ⟨-, hwritten⟩ | ⟨-, -, -, hwritten⟩ := escapeChar_cases c
  all_goals
    rw [hwritten]
    exact List.cons_ne_nil _ _

/-! ### Strings -/

variable {surrogates : Text.Surrogates} {fuel : Nat} {string rest after : List Char}

/-- One written character is read as one character. -/
theorem readChars_escapeChar_append {chars : List Char} (c : Char) (hrest : rest ≠ [])
    (hread : readChars surrogates fuel string rest = .ok (chars, after)) :
    readChars surrogates (fuel + 1) string (escapeChar c ++ rest) = .ok (c :: chars, after) := by
  obtain ⟨letter, hmeant, hwritten⟩ | ⟨hcontrol, hwritten⟩ |
    ⟨hquote, hbackslash, hprintable, hwritten⟩ := escapeChar_cases c
  · have hletter : letter ≠ 'u' := by
      rintro rfl
      simp [simpleEscapes, List.lookup_cons, List.lookup_nil] at hmeant
    have hescape : readEscape surrogates string ('\\' :: letter :: rest) = .ok (c, rest) := by
      simp [readEscape, hmeant]
    rw [hwritten]
    simp [readChars, hescape, hread]
  · have hquad := readHexQuad_hexDigits_append (by omega : c.toNat < 0x10000) hrest
    have hsurrogate : ¬ 0xd800 ≤ c.toNat := by omega
    have hunicode : readUnicodeEscape surrogates ('u' :: (Text.hexDigits 4 c.toNat ++ rest)) =
        .ok (c, rest) := by
      simp [readUnicodeEscape, hquad, hsurrogate, charOfUnit]
    have hescape :
        readEscape surrogates string ('\\' :: 'u' :: (Text.hexDigits 4 c.toNat ++ rest)) =
          .ok (c, rest) :=
      hunicode
    rw [hwritten]
    simp [readChars, hescape, hread]
  · have hcontrol : ¬ c.toNat < 0x20 := by omega
    rw [hwritten]
    simp [readChars, hquote, hbackslash, hcontrol, hread]

theorem readChars_escaped_append (content : List Char) (hfuel : content.length < fuel) :
    readChars surrogates fuel string (content.flatMap escapeChar ++ '\x22' :: rest) =
      .ok (content, rest) := by
  induction content generalizing fuel with
  | nil =>
    cases fuel with
    | zero => exact absurd hfuel (Nat.not_lt_zero _)
    | succ fuel => simp [readChars]
  | cons c content ih =>
    cases fuel with
    | zero => exact absurd hfuel (Nat.not_lt_zero _)
    | succ fuel =>
      have hread := ih (Nat.lt_of_succ_lt_succ hfuel)
      rw [List.flatMap_cons, List.append_assoc]
      exact readChars_escapeChar_append c (by simp) hread

/-- A written string is read back in front of any text. -/
theorem readString_writeString_append (surrogates : Text.Surrogates) (content : String)
    (rest : List Char) (hfuel : content.toList.length < fuel) :
    readString surrogates fuel (writeString content ++ rest) = .ok (content, rest) := by
  let escaped := content.toList.flatMap escapeChar ++ '\x22' :: rest
  have hwritten : writeString content ++ rest = '\x22' :: escaped := by
    simp [writeString, escaped]
  have hread : readChars surrogates fuel ('\x22' :: escaped) escaped = .ok (content.toList, rest) :=
    readChars_escaped_append content.toList hfuel
  rw [hwritten, readString, List.drop_one, List.tail_cons, hread]
  simp only [String.ofList_toList]

theorem length_le_length_flatMap_escapeChar (content : List Char) :
    content.length ≤ (content.flatMap escapeChar).length := by
  induction content with
  | nil => rfl
  | cons c content ih =>
    have hwritten := List.length_pos_iff.mpr (escapeChar_ne_nil c)
    rw [List.flatMap_cons, List.length_append, List.length_cons]
    omega

/-- A written string has its quotes beside a character at least for each of its own. -/
theorem length_toList_add_two_le (content : String) :
    content.toList.length + 2 ≤ (writeString content).length := by
  have hcontent := length_le_length_flatMap_escapeChar content.toList
  simp only [writeString, List.length_append, List.length_cons, List.length_nil]
  omega

end HelpSheet.Json
