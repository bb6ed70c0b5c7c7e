import Mathlib.Tactic.SplitIfs
import HelpSheet.Text.Utf8

/-!
# Decoding UTF-8

A character is spelled in one to four bytes (`Spells`). Each character has a spelling
(`exists_spells`), which is its encoding (`Spells.encoded_eq`); the reader takes a spelling and
leaves what follows it (`Spells.readTails_append`), and it takes nothing else
(`exists_spells_of_readTails`). So bytes are decoded exactly if they are the encoding of a text, and
then to that text (`decode_eq_ok_iff`).
-/

set_option autoImplicit false
set_option relaxedAutoImplicit false

namespace HelpSheet.Text.Utf8

open String (utf8EncodeChar)

variable {byte low high : UInt8} {bytes rest tails : List UInt8} {lead : Lead}
  {count number taken value : Nat}

/-! ### Spellings -/

/-- A byte that continues a character. -/
def IsTail (byte : UInt8) : Prop :=
  0x80 ≤ byte.toNat ∧ byte.toNat ≤ 0xbf

/-- The bytes that spell the character with a number: seven bits in one byte, or more bits in the
leading byte and six in each byte behind it. No spelling is longer than it has to be, and surrogates
and what lies beyond the last character have none. -/
inductive Spells (number : Nat) : List UInt8 → Prop
  | one {first : UInt8} (hfirst : first.toNat < 0x80) (hnumber : first.toNat = number) :
      Spells number [first]
  | two {first second : UInt8} (hfirst : 0xc2 ≤ first.toNat ∧ first.toNat < 0xe0)
      (hsecond : IsTail second)
      (hnumber : 64 * (first.toNat - 0xc0) + (second.toNat - 0x80) = number) :
      Spells number [first, second]
  | three {first second third : UInt8} (hfirst : 0xe0 ≤ first.toNat ∧ first.toNat < 0xf0)
      (hsecond : IsTail second) (hthird : IsTail third)
      (hshort : first.toNat = 0xe0 → 0xa0 ≤ second.toNat)
      (hsurrogate : first.toNat = 0xed → second.toNat ≤ 0x9f)
      (hnumber : 64 * (64 * (first.toNat - 0xe0) + (second.toNat - 0x80)) +
        (third.toNat - 0x80) = number) :
      Spells number [first, second, third]
  | four {first second third fourth : UInt8} (hfirst : 0xf0 ≤ first.toNat ∧ first.toNat < 0xf5)
      (hsecond : IsTail second) (hthird : IsTail third) (hfourth : IsTail fourth)
      (hshort : first.toNat = 0xf0 → 0x90 ≤ second.toNat)
      (hlast : first.toNat = 0xf4 → second.toNat ≤ 0x8f)
      (hnumber : 64 * (64 * (64 * (first.toNat - 0xf0) + (second.toNat - 0x80)) +
        (third.toNat - 0x80)) + (fourth.toNat - 0x80) = number) :
      Spells number [first, second, third, fourth]

theorem Spells.isValidChar (hspells : Spells number bytes) : number.isValidChar := by
  unfold Nat.isValidChar
  cases hspells <;> simp_all only [IsTail] <;> omega

theorem eq_ofNat (byte : UInt8) (hbyte : byte.toNat = number) : byte = UInt8.ofNat number := by
  rw [← hbyte, UInt8.ofNat_toNat]

theorem toNat_val_ofNat (hvalid : number.isValidChar) : (Char.ofNat number).val.toNat = number := by
  rw [Char.ofNat, dif_pos hvalid]
  rfl

/-- A spelling is the encoding of its character. -/
theorem Spells.encoded_eq (hspells : Spells number bytes) :
    utf8EncodeChar (Char.ofNat number) = bytes := by
  simp only [utf8EncodeChar, toNat_val_ofNat hspells.isValidChar]
  cases hspells with
  | @one first hfirst hnumber => rw [if_pos (by omega), ← eq_ofNat first hnumber]
  | @two first second hfirst hsecond hnumber =>
    unfold IsTail at hsecond
    rw [if_neg (by omega), if_pos (by omega), ← eq_ofNat first (by omega),
      ← eq_ofNat second (by omega)]
  | @three first second third hfirst hsecond hthird hshort hsurrogate hnumber =>
    unfold IsTail at hsecond hthird
    rw [if_neg (by omega), if_neg (by omega), if_pos (by omega), ← eq_ofNat first (by omega),
      ← eq_ofNat second (by omega), ← eq_ofNat third (by omega)]
  | @four first second third fourth hfirst hsecond hthird hfourth hshort hlast hnumber =>
    unfold IsTail at hsecond hthird hfourth
    rw [if_neg (by omega), if_neg (by omega), if_neg (by omega), ← eq_ofNat first (by omega),
      ← eq_ofNat second (by omega), ← eq_ofNat third (by omega), ← eq_ofNat fourth (by omega)]

theorem exists_toNat_eq (number : Nat) (hnumber : number < 256) :
    ∃ byte : UInt8, byte.toNat = number :=
  ⟨.ofNat number, by rw [UInt8.toNat_ofNat', Nat.mod_eq_of_lt hnumber]⟩

/-- Six bits, as a byte that continues a character. -/
theorem exists_isTail (number : Nat) :
    ∃ byte : UInt8, IsTail byte ∧ byte.toNat - 0x80 = number % 64 := by
  obtain ⟨byte, hbyte⟩ := exists_toNat_eq (0x80 + number % 64) (by omega)
  exact ⟨byte, ⟨by omega, by omega⟩, by omega⟩

/-- Every character has a spelling. -/
theorem exists_spells (c : Char) : ∃ bytes, Spells c.toNat bytes := by
  have hvalid : c.toNat < 0xd800 ∨ 0xdfff < c.toNat ∧ c.toNat < 0x110000 := c.valid
  generalize c.toNat = number at hvalid ⊢
  obtain ⟨final, hfinal, hfinal'⟩ := exists_isTail number
  obtain ⟨inner, hinner, hinner'⟩ := exists_isTail (number / 64)
  obtain ⟨outer, houter, houter'⟩ := exists_isTail (number / 4096)
  rcases Nat.lt_or_ge number 0x80 with hone | hone
  · obtain ⟨first, hfirst⟩ := exists_toNat_eq number (by omega)
    exact ⟨[first], .one (by omega) hfirst⟩
  rcases Nat.lt_or_ge number 0x800 with htwo | htwo
  · obtain ⟨first, hfirst⟩ := exists_toNat_eq (0xc0 + number / 64) (by omega)
    exact ⟨[first, final], .two ⟨by omega, by omega⟩ hfinal (by omega)⟩
  rcases Nat.lt_or_ge number 0x10000 with hthree | hthree
  · obtain ⟨first, hfirst⟩ := exists_toNat_eq (0xe0 + number / 4096) (by omega)
    exact ⟨[first, inner, final],
      .three ⟨by omega, by omega⟩ hinner hfinal (by omega) (by omega) (by omega)⟩
  · obtain ⟨first, hfirst⟩ := exists_toNat_eq (0xf0 + number / 262144) (by omega)
    exact ⟨[first, outer, inner, final],
      .four ⟨by omega, by omega⟩ houter hinner hfinal (by omega) (by omega) (by omega)⟩

/-! ### The reader -/

/-- What a leading byte announces: up to three bytes behind it, the first of them within bounds. -/
theorem lead?_eq (byte : UInt8) : lead? byte =
    if byte.toNat < 0x80 then some ⟨byte.toNat, 0, 0x80, 0xbf⟩
    else if byte.toNat < 0xc2 then none
    else if byte.toNat < 0xe0 then some ⟨byte.toNat - 0xc0, 1, 0x80, 0xbf⟩
    else if byte.toNat < 0xf0 then
      some ⟨byte.toNat - 0xe0, 2, if byte.toNat = 0xe0 then 0xa0 else 0x80,
        if byte.toNat = 0xed then 0x9f else 0xbf⟩
    else if byte.toNat < 0xf5 then
      some ⟨byte.toNat - 0xf0, 3, if byte.toNat = 0xf0 then 0x90 else 0x80,
        if byte.toNat = 0xf4 then 0x8f else 0xbf⟩
    else none := by
  obtain ⟨⟨number⟩⟩ := byte
  revert number
  decide +kernel

theorem readTails_succ_eq_ok_iff {result : Nat × List UInt8} :
    readTails (count + 1) low high value taken bytes = .ok result ↔
      ∃ tail after, bytes = tail :: after ∧ low.toNat ≤ tail.toNat ∧ tail.toNat ≤ high.toNat ∧
        readTails count 0x80 0xbf (64 * value + (tail.toNat - 0x80)) (taken + 1) after =
          .ok result := by
  cases bytes with
  | nil => simp [readTails]
  | cons tail after =>
    rw [readTails]
    simp only [Bool.and_eq_true, decide_eq_true_eq, UInt8.le_iff_toNat_le]
    split
    · next hbounds =>
      simp only [List.cons.injEq, and_assoc, exists_and_left, exists_eq_left', hbounds.1,
        hbounds.2, true_and]
    · next hbounds =>
      simp only [reduceCtorEq, List.cons.injEq, false_iff]
      rintro ⟨_, _, ⟨rfl, rfl⟩, hlow, hhigh, -⟩
      exact hbounds ⟨hlow, hhigh⟩

/-- The reader takes spellings only. -/
theorem exists_spells_of_readTails (hlead : lead? byte = some lead)
    (hread : readTails lead.tails lead.low lead.high lead.bits 1 bytes = .ok (value, rest)) :
    ∃ tails, bytes = tails ++ rest ∧ Spells value (byte :: tails) := by
  rw [lead?_eq] at hlead
  split at hlead
  · next hone =>
    obtain rfl := Option.some.inj hlead
    obtain ⟨rfl, rfl⟩ := Prod.mk.inj (Except.ok.inj hread)
    exact ⟨[], rfl, .one hone rfl⟩
  split at hlead
  · cases hlead
  split at hlead
  · obtain rfl := Option.some.inj hlead
    simp only [readTails_succ_eq_ok_iff] at hread
    obtain ⟨second, after, rfl, hlow, hhigh, hread⟩ := hread
    obtain ⟨hnumber, rfl⟩ := Prod.mk.inj (Except.ok.inj hread)
    exact ⟨[second], rfl, .two ⟨by omega, by omega⟩ ⟨hlow, hhigh⟩ hnumber⟩
  split at hlead
  · obtain rfl := Option.some.inj hlead
    simp only [readTails_succ_eq_ok_iff] at hread
    obtain ⟨second, _, rfl, hlow, hhigh, third, after, rfl, hlow', hhigh', hread⟩ := hread
    obtain ⟨hnumber, rfl⟩ := Prod.mk.inj (Except.ok.inj hread)
    refine ⟨[second, third], rfl, .three ⟨by omega, by omega⟩ ?_ ⟨hlow', hhigh'⟩ ?_ ?_ hnumber⟩
    all_goals split_ifs at hlow hhigh <;> simp only [UInt8.reduceToNat, IsTail] at * <;> omega
  split at hlead
  · obtain rfl := Option.some.inj hlead
    simp only [readTails_succ_eq_ok_iff] at hread
    obtain ⟨second, _, rfl, hlow, hhigh, third, _, rfl, hlow₃, hhigh₃, fourth, after, rfl, hlow₄,
      hhigh₄, hread⟩ := hread
    obtain ⟨hnumber, rfl⟩ := Prod.mk.inj (Except.ok.inj hread)
    refine ⟨[second, third, fourth], rfl, .four ⟨by omega, by omega⟩ ?_ ⟨hlow₃, hhigh₃⟩
      ⟨hlow₄, hhigh₄⟩ ?_ ?_ hnumber⟩
    all_goals split_ifs at hlow hhigh <;> simp only [UInt8.reduceToNat, IsTail] at * <;> omega
  · cases hlead

/-- The reader takes every spelling, whatever follows it. -/
theorem Spells.readTails_append (hspells : Spells number (byte :: tails)) :
    ∃ lead, lead? byte = some lead ∧ ∀ rest,
      readTails lead.tails lead.low lead.high lead.bits 1 (tails ++ rest) = .ok (number, rest) := by
  rw [lead?_eq]
  cases hspells with
  | one hfirst hnumber =>
    rw [if_pos (by omega)]
    refine ⟨_, rfl, fun rest ↦ ?_⟩
    rw [← hnumber]
    rfl
  | @two _ second hfirst hsecond hnumber =>
    rw [if_neg (by omega), if_neg (by omega), if_pos (by omega)]
    refine ⟨_, rfl, fun rest ↦ readTails_succ_eq_ok_iff.mpr ⟨second, rest, rfl, hsecond.1,
      hsecond.2, ?_⟩⟩
    rw [← hnumber]
    rfl
  | @three _ second third hfirst hsecond hthird hshort hsurrogate hnumber =>
    rw [if_neg (by omega), if_neg (by omega), if_neg (by omega), if_pos (by omega)]
    refine ⟨_, rfl, fun rest ↦ readTails_succ_eq_ok_iff.mpr ⟨second, third :: rest, rfl, ?_, ?_,
      readTails_succ_eq_ok_iff.mpr ⟨third, rest, rfl, hthird.1, hthird.2, ?_⟩⟩⟩
    · split_ifs <;> simp only [UInt8.reduceToNat, IsTail] at * <;> omega
    · split_ifs <;> simp only [UInt8.reduceToNat, IsTail] at * <;> omega
    · rw [← hnumber]
      rfl
  | @four _ second third fourth hfirst hsecond hthird hfourth hshort hlast hnumber =>
    rw [if_neg (by omega), if_neg (by omega), if_neg (by omega), if_neg (by omega),
      if_pos (by omega)]
    refine ⟨_, rfl, fun rest ↦ readTails_succ_eq_ok_iff.mpr ⟨second, third :: fourth :: rest, rfl,
      ?_, ?_, readTails_succ_eq_ok_iff.mpr ⟨third, fourth :: rest, rfl, hthird.1, hthird.2,
        readTails_succ_eq_ok_iff.mpr ⟨fourth, rest, rfl, hfourth.1, hfourth.2, ?_⟩⟩⟩⟩
    · split_ifs <;> simp only [UInt8.reduceToNat, IsTail] at * <;> omega
    · split_ifs <;> simp only [UInt8.reduceToNat, IsTail] at * <;> omega
    · rw [← hnumber]
      rfl

/-! ### Texts -/

/-- Bytes are decoded if a character is read at their front and what is left is decoded. -/
theorem decodeFrom_cons_eq_ok_iff {offset : Nat} {chars : List Char} :
    decodeFrom offset (byte :: bytes) = .ok chars ↔
      ∃ lead value rest text, lead? byte = some lead ∧
        readTails lead.tails lead.low lead.high lead.bits 1 bytes = .ok (value, rest) ∧
          decodeFrom (offset + lead.tails + 1) rest = .ok text ∧
            Char.ofNat value :: text = chars := by
  rw [decodeFrom]
  cases hlead : lead? byte with
  | none => simp
  | some lead =>
    simp only
    split
    · next fault length hread => simp [hread]
    · next value rest hread =>
      simp only [Option.some.injEq, exists_and_left, exists_eq_left', hread, Except.ok.injEq,
        Prod.mk.injEq, and_assoc]
      cases decodeFrom (offset + lead.tails + 1) rest <;> simp

theorem decodeFrom_flatMap (offset : Nat) (chars : List Char) :
    decodeFrom offset (chars.flatMap utf8EncodeChar) = .ok chars := by
  induction chars generalizing offset with
  | nil => rw [List.flatMap_nil, decodeFrom]
  | cons c chars ih =>
    obtain ⟨bytes, hspells⟩ := exists_spells c
    have hencoded := hspells.encoded_eq
    rw [Char.ofNat_toNat] at hencoded
    rw [List.flatMap_cons, hencoded]
    cases bytes with
    | nil => cases hspells
    | cons byte tails =>
      obtain ⟨lead, hlead, hread⟩ := hspells.readTails_append
      exact decodeFrom_cons_eq_ok_iff.mpr
        ⟨lead, c.toNat, chars.flatMap utf8EncodeChar, chars, hlead, hread _, ih _,
          by rw [Char.ofNat_toNat]⟩

theorem eq_flatMap_of_decodeFrom {offset : Nat} {chars : List Char}
    (hdecode : decodeFrom offset bytes = .ok chars) : bytes = chars.flatMap utf8EncodeChar := by
  induction chars generalizing offset bytes with
  | nil =>
    cases bytes with
    | nil => rfl
    | cons byte bytes =>
      obtain ⟨_, _, _, _, _, _, _, hchars⟩ := decodeFrom_cons_eq_ok_iff.mp hdecode
      cases hchars
  | cons c chars ih =>
    cases bytes with
    | nil => simp [decodeFrom] at hdecode
    | cons byte bytes =>
      obtain ⟨lead, value, rest, text, hlead, hread, hrest, hchars⟩ :=
        decodeFrom_cons_eq_ok_iff.mp hdecode
      obtain ⟨rfl, rfl⟩ := List.cons.inj hchars
      obtain ⟨tails, rfl, hspells⟩ := exists_spells_of_readTails hlead hread
      rw [List.flatMap_cons, hspells.encoded_eq, ← ih hrest, List.cons_append]

/-- Bytes are decoded exactly if they are the encoding of a text, and then to that text. -/
theorem decode_eq_ok_iff {chars : List Char} :
    decode bytes = .ok chars ↔ bytes = chars.flatMap utf8EncodeChar := by
  refine ⟨eq_flatMap_of_decodeFrom, ?_⟩
  rintro rfl
  exact decodeFrom_flatMap 0 chars

end HelpSheet.Text.Utf8
