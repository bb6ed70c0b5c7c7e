import Mathlib.Data.List.Chain
import Mathlib.Tactic.IntervalCases
import HelpSheet.Proofs.Recipe.Quoting

/-!
# What a recipe line prints

The text between the quotes of a statement passes make, the shell and the format `%b`, which expands
backslash sequences once more (`print`). The escaped form gives one backslash for a backslash of the
text to the format, which takes it for the beginning of a sequence if the next character allows; and
the sequence for the escape character takes a third octal digit if one follows. So the printed bytes
are the text exactly when no two neighbouring characters of it are misread
(`printed_escape_iff_isChain`).

That a text with misread neighbours is never printed by accident rests on a count: `cost` gives a
byte as many units as its escaped form has, and no run of the format writes more units than it reads
(`cost_print_le`).
-/

set_option autoImplicit false
set_option relaxedAutoImplicit false

namespace HelpSheet.Escape.Recipe

/-! ### The format -/

/-- The bytes of a text. -/
def encode (text : List Char) : List UInt8 :=
  text.flatMap String.utf8EncodeChar

/-- How far the format has read a backslash sequence: not at all, its backslash, or the octal value
so far with the number of digits that may still follow. Nothing is read after a sequence that stops
the output. -/
inductive Progress
  | text
  | backslash
  | octal (value left : Nat)
  | stopped
  deriving DecidableEq, Repr

/-- The byte of a sequence of two characters. -/
def sequenceByte? (c : Char) : Option UInt8 :=
  match c with
  | '\\' => some 0x5c
  | 'n' => some 0x0a
  | 'r' => some 0x0d
  | 't' => some 0x09
  | 'a' => some 0x07
  | 'b' => some 0x08
  | 'f' => some 0x0c
  | 'v' => some 0x0b
  | _ => none

/-- The value of an octal digit. -/
def octalDigit? (c : Char) : Option Nat :=
  if '0' ≤ c ∧ c ≤ '7' then some (c.toNat - '0'.toNat) else none

/-- Outside a sequence every character but the backslash is written as it is. -/
def stepText (c : Char) : List UInt8 × Progress :=
  if c = '\\' then ([], .backslash) else (String.utf8EncodeChar c, .text)

/-- Reading one character: the bytes that are written, and how far the format has come then. A
backslash before a character that continues no sequence stands for itself, and a sequence of octal
digits gives one byte. -/
def step : Progress → Char → List UInt8 × Progress
  | .text, c => stepText c
  | .backslash, c =>
    if c = 'c' then ([], .stopped)
    else if c = '0' then ([], .octal 0 3)
    else
      match sequenceByte? c with
      | some byte => ([byte], .text)
      | none => (0x5c :: String.utf8EncodeChar c, .text)
  | .octal value 0, c => (UInt8.ofNat value :: (stepText c).1, (stepText c).2)
  | .octal value (left + 1), c =>
    match octalDigit? c with
    | some digit => ([], .octal (8 * value + digit) left)
    | none => (UInt8.ofNat value :: (stepText c).1, (stepText c).2)
  | .stopped, _ => ([], .stopped)

/-- What is written at the end of the text. -/
def finish : Progress → List UInt8
  | .text => []
  | .backslash => [0x5c]
  | .octal value _ => [UInt8.ofNat value]
  | .stopped => []

/-- The bytes that the format writes for a text. -/
def print : Progress → List Char → List UInt8
  | progress, [] => finish progress
  | progress, c :: rest => (step progress c).1 ++ print (step progress c).2 rest

/-- The bytes that a recipe line prints for what stands between its quotes, if make accepts it.
Dollar signs are left to the shell as they are. -/
def printed (payload : List Char) : Option (List UInt8) :=
  (expandDollars payload).map fun expanded ↦
    print .text ((readQuotes expanded).map Symbol.char)

/-! ### The units of a text -/

/-- The number of units of a byte: the length of its escaped form before the format. -/
def byteCost (byte : UInt8) : Nat :=
  if byte = 0x1b then 4 else if byte ∈ [0x0a, 0x0d, 0x09] then 2 else 1

/-- The number of units of bytes. -/
def cost (bytes : List UInt8) : Nat :=
  (bytes.map byteCost).sum

@[simp] theorem cost_nil : cost [] = 0 := rfl

@[simp] theorem cost_cons (byte : UInt8) (rest : List UInt8) :
    cost (byte :: rest) = byteCost byte + cost rest := by
  rw [cost, List.map_cons, List.sum_cons, ← cost]

@[simp] theorem cost_append (first second : List UInt8) :
    cost (first ++ second) = cost first + cost second := by
  rw [cost, List.map_append, List.sum_append, ← cost, ← cost]

theorem one_le_byteCost (byte : UInt8) : 1 ≤ byteCost byte := by
  unfold byteCost
  split_ifs <;> omega

theorem byteCost_le_four (byte : UInt8) : byteCost byte ≤ 4 := by
  unfold byteCost
  split_ifs <;> omega

theorem one_le_cost_utf8EncodeChar (c : Char) : 1 ≤ cost (String.utf8EncodeChar c) := by
  cases hbytes : String.utf8EncodeChar c with
  | nil => exact absurd hbytes String.utf8EncodeChar_ne_nil
  | cons byte rest =>
    rw [cost_cons]
    have := one_le_byteCost byte
    omega

theorem encode_cons (c : Char) (rest : List Char) :
    encode (c :: rest) = String.utf8EncodeChar c ++ encode rest := rfl

/-- The units read and not yet written. -/
def Progress.credit : Progress → Nat
  | .text => 0
  | .backslash => 1
  | .octal _ left => 5 - left
  | .stopped => 0

@[simp] theorem credit_text : Progress.text.credit = 0 := rfl

@[simp] theorem credit_backslash : Progress.backslash.credit = 1 := rfl

@[simp] theorem credit_octal (value left : Nat) :
    (Progress.octal value left).credit = 5 - left := rfl

/-- The octal value has no more digits than were read. -/
def Progress.Valid : Progress → Prop
  | .octal value left => left ≤ 3 ∧ value < 8 ^ (3 - left)
  | _ => True

theorem octalDigit?_lt {c : Char} {digit : Nat} (hdigit : octalDigit? c = some digit) :
    digit < 8 := by
  unfold octalDigit? at hdigit
  split_ifs at hdigit with hrange
  have hupper : c.toNat ≤ 55 := hrange.2
  have hzero : '0'.toNat = 48 := rfl
  injection hdigit with hvalue
  omega

theorem byteCost_ofNat_le {value left : Nat} (hvalid : (Progress.octal value left).Valid) :
    byteCost (UInt8.ofNat value) ≤ 5 - left := by
  obtain ⟨hleft, hvalue⟩ := hvalid
  have hbound := byteCost_le_four (UInt8.ofNat value)
  interval_cases left
  · omega
  · omega
  · interval_cases value <;> decide
  · interval_cases value; decide

theorem cost_stepText_le (c : Char) :
    cost (stepText c).1 + (stepText c).2.credit ≤ cost (String.utf8EncodeChar c) := by
  unfold stepText
  split_ifs with hc
  · exact one_le_cost_utf8EncodeChar c
  · exact Nat.le_refl _

theorem valid_stepText (c : Char) : (stepText c).2.Valid := by
  unfold stepText
  split_ifs <;> trivial

theorem byteCost_of_sequenceByte? {c : Char} {byte : UInt8}
    (hbyte : sequenceByte? c = some byte) : byteCost byte ≤ 2 := by
  unfold sequenceByte? at hbyte
  split at hbyte <;> cases hbyte <;> decide

/-- One character read pays for what is written. -/
theorem cost_step_le {progress : Progress} (hvalid : progress.Valid) (c : Char) :
    cost (step progress c).1 + (step progress c).2.credit ≤
      progress.credit + cost (String.utf8EncodeChar c) := by
  have hread := one_le_cost_utf8EncodeChar c
  have hplain := cost_stepText_le c
  cases progress with
  | text =>
    rw [step, credit_text]
    omega
  | stopped => exact Nat.zero_le _
  | backslash =>
    simp only [step]
    split_ifs
    · exact Nat.zero_le _
    · simp only [cost_nil, credit_octal, credit_backslash]
      omega
    · split
      · next byte hbyte =>
        have := byteCost_of_sequenceByte? hbyte
        simp only [cost_cons, cost_nil, credit_text, credit_backslash]
        omega
      · simp only [cost_cons, credit_text, credit_backslash]
        have : byteCost 0x5c = 1 := rfl
        omega
  | octal value left =>
    have hbyte := byteCost_ofNat_le hvalid
    have hleft := hvalid.1
    cases left with
    | zero =>
      simp only [step, cost_cons, credit_octal]
      omega
    | succ left =>
      simp only [step]
      split
      · simp only [cost_nil, credit_octal]
        omega
      · simp only [cost_cons, credit_octal]
        omega

theorem valid_step {progress : Progress} (hvalid : progress.Valid) (c : Char) :
    (step progress c).2.Valid := by
  cases progress with
  | text => exact valid_stepText c
  | stopped => trivial
  | backslash =>
    simp only [step]
    split_ifs
    · trivial
    · exact ⟨Nat.le_refl 3, by decide⟩
    · split <;> trivial
  | octal value left =>
    cases left with
    | zero => exact valid_stepText c
    | succ left =>
      simp only [step]
      split
      · next digit hdigit =>
        obtain ⟨hleft, hvalue⟩ := hvalid
        have hlt := octalDigit?_lt hdigit
        have hpow : 8 ^ (3 - left) = 8 * 8 ^ (3 - (left + 1)) := by
          rw [show 3 - left = (3 - (left + 1)) + 1 by omega, Nat.pow_succ']
        exact ⟨by omega, by omega⟩
      · exact valid_stepText c

theorem cost_finish_le {progress : Progress} (hvalid : progress.Valid) :
    cost (finish progress) ≤ progress.credit := by
  cases progress with
  | octal value left => simpa [finish] using byteCost_ofNat_le hvalid
  | _ => decide

/-- A run of the format writes no more units than it reads. -/
theorem cost_print_le {progress : Progress} (hvalid : progress.Valid) (text : List Char) :
    cost (print progress text) ≤ progress.credit + cost (encode text) := by
  induction text generalizing progress with
  | nil => exact cost_finish_le hvalid
  | cons c rest ih =>
    have hstep := cost_step_le hvalid c
    have hrest := ih (valid_step hvalid c)
    rw [print, cost_append, encode_cons, cost_append]
    omega

theorem print_stopped (text : List Char) : print .stopped text = [] := by
  induction text with
  | nil => rfl
  | cons c rest ih => exact ih

theorem print_octal_of_octalDigit?_eq_none {c : Char} (hc : octalDigit? c = none)
    (value left : Nat) (rest : List Char) :
    print (.octal value left) (c :: rest) = UInt8.ofNat value :: print .text (c :: rest) := by
  cases left with
  | zero => rfl
  | succ left => simp only [print, step, hc, List.cons_append]

/-- After the byte of octal digits at most the units of the text are written. -/
theorem cost_tail_print_octal_le (value left : Nat) (text : List Char) :
    cost (print (.octal value left) text).tail ≤ cost (encode text) := by
  induction text generalizing value left with
  | nil => exact Nat.zero_le _
  | cons c rest ih =>
    have hplain : cost (print .text (c :: rest)) ≤ cost (encode (c :: rest)) := by
      simpa using cost_print_le (show Progress.text.Valid from trivial) (c :: rest)
    cases left with
    | zero => exact hplain
    | succ left =>
      cases hdigit : octalDigit? c with
      | none =>
        rw [print_octal_of_octalDigit?_eq_none hdigit]
        exact hplain
      | some digit =>
        have hrest := ih (8 * value + digit) left
        simp only [print, step, hdigit, List.nil_append, encode_cons, cost_append]
        omega

/-! ### The escaped form before the format -/

/-- The escaped form of a character as the format receives it. -/
def argumentForm (c : Char) : List Char :=
  (symbolsOf c).map Symbol.char

theorem argumentForm_eq_self {c : Char} (hplain : c ∉ special) : argumentForm c = [c] := by
  rw [argumentForm, symbolsOf_eq_self hplain]
  rfl

theorem printed_escape (text : List Char) :
    printed (escape text) = some (print .text (text.flatMap argumentForm)) := by
  rw [printed, expandDollars_escape, Option.map_some, readQuotes_flatMap_shellForm,
    List.map_flatMap]
  rfl

theorem cost_encode_argumentForm_append (c : Char) (rest : List Char) :
    cost (encode (argumentForm c ++ rest)) =
      cost (String.utf8EncodeChar c) + cost (encode rest) := by
  induction c using charCases with
  | plain c hplain =>
    rw [argumentForm_eq_self hplain, List.singleton_append, encode_cons, cost_append]
  | _ =>
    rw [encode, List.flatMap_append, cost_append]
    rfl

/-- The units of a text are those of its escaped form. -/
theorem cost_encode_flatMap_argumentForm (text : List Char) :
    cost (encode (text.flatMap argumentForm)) = cost (encode text) := by
  induction text with
  | nil => rfl
  | cons c rest ih =>
    rw [List.flatMap_cons, cost_encode_argumentForm_append, ih, encode_cons, cost_append]

/-- The characters whose escaped form goes on with a sequence after a backslash. -/
def sequenceStarts : List Char :=
  ['\\', 'n', 'r', 't', 'a', 'b', 'f', 'v', 'c', '0', '\n', '\r', '\t', '\x1b']

/-- The format reads the escaped forms of two neighbouring characters as something else: a backslash
begins a sequence with the second one, or the second one is a third octal digit of the escape
character. -/
def Misread (first second : Char) : Prop :=
  first = '\\' ∧ second ∈ sequenceStarts ∨
    first = '\x1b' ∧ (octalDigit? second).isSome

instance (first second : Char) : Decidable (Misread first second) :=
  inferInstanceAs (Decidable (_ ∨ _))

theorem isChain_cons_of_ne {c : Char} (hbackslash : c ≠ '\\') (hescape : c ≠ '\x1b')
    (rest : List Char) :
    (c :: rest).IsChain (fun first second ↦ ¬ Misread first second) ↔
      rest.IsChain fun first second ↦ ¬ Misread first second := by
  cases rest with
  | nil => simp
  | cons d rest =>
    rw [List.isChain_cons_cons]
    simp [Misread, hbackslash, hescape]

/-- Outside a sequence the form of every character but two is read as the character. -/
theorem print_text_argumentForm_append {c : Char} (hbackslash : c ≠ '\\') (hescape : c ≠ '\x1b')
    (rest : List Char) :
    print .text (argumentForm c ++ rest) = String.utf8EncodeChar c ++ print .text rest := by
  induction c using charCases with
  | plain c hplain =>
    rw [argumentForm_eq_self hplain]
    simp [print, step, stepText, hbackslash]
  | backslash => exact absurd rfl hbackslash
  | escapeSign => exact absurd rfl hescape
  | _ => rfl

theorem argumentForm_eq_singleton {c : Char} (hstart : c ∉ sequenceStarts) :
    argumentForm c = [c] := by
  induction c using charCases with
  | plain c hplain => exact argumentForm_eq_self hplain
  | _ =>
    revert hstart
    decide

theorem sequenceByte?_eq_none {c : Char} (hstart : c ∉ sequenceStarts) :
    sequenceByte? c = none := by
  simp only [sequenceStarts, List.mem_cons, List.not_mem_nil, or_false, not_or] at hstart
  unfold sequenceByte?
  split <;> simp_all

/-- A backslash before any other character stands for itself. -/
theorem print_backslash_argumentForm_append {c : Char} (hstart : c ∉ sequenceStarts)
    (rest : List Char) :
    print .backslash (argumentForm c ++ rest) =
      0x5c :: (String.utf8EncodeChar c ++ print .text rest) := by
  have hstop : c ≠ 'c' := fun h ↦ hstart (h ▸ by decide)
  have hzero : c ≠ '0' := fun h ↦ hstart (h ▸ by decide)
  rw [argumentForm_eq_singleton hstart, List.singleton_append, print, step, if_neg hstop,
    if_neg hzero, sequenceByte?_eq_none hstart]
  rfl

/-- Where the second form begins with a backslash, the two backslashes give one unit less than the
text has. -/
theorem print_backslash_ne_of_collapse {c : Char} {tail : List Char}
    (hform : argumentForm c = '\\' :: tail) (rest : List Char) :
    print .backslash ((c :: rest).flatMap argumentForm) ≠ 0x5c :: encode (c :: rest) := by
  intro hequal
  rw [List.flatMap_cons, hform] at hequal
  have hrun : print .text (tail ++ rest.flatMap argumentForm) = encode (c :: rest) :=
    List.tail_eq_of_cons_eq hequal
  have hbound := cost_print_le (show Progress.text.Valid from trivial)
    (tail ++ rest.flatMap argumentForm)
  have hunits := cost_encode_flatMap_argumentForm (c :: rest)
  rw [List.flatMap_cons, hform, List.cons_append, encode_cons, cost_append] at hunits
  have hbackslash := one_le_cost_utf8EncodeChar '\\'
  rw [hrun, credit_text] at hbound
  omega

/-- A zero after a backslash and the digits behind it give at least one unit less than the text
has. -/
theorem print_backslash_zero_ne (rest : List Char) :
    print .backslash (('0' :: rest).flatMap argumentForm) ≠ 0x5c :: encode ('0' :: rest) := by
  intro hequal
  have hrun : print (.octal 0 3) (rest.flatMap argumentForm) = 0x5c :: encode ('0' :: rest) :=
    hequal
  have hbound := cost_tail_print_octal_le 0 3 (rest.flatMap argumentForm)
  have hzero := one_le_cost_utf8EncodeChar '0'
  rw [hrun, List.tail_cons, cost_encode_flatMap_argumentForm, encode_cons, cost_append] at hbound
  omega

/-- A backslash before a character that continues a sequence is never printed as it is. -/
theorem print_backslash_ne {c : Char} (hstart : c ∈ sequenceStarts) (rest : List Char) :
    print .backslash ((c :: rest).flatMap argumentForm) ≠ 0x5c :: encode (c :: rest) := by
  simp only [sequenceStarts, List.mem_cons, List.not_mem_nil, or_false] at hstart
  have hletter : ∀ byte out, byte ≠ 0x5c → byte :: out ≠ 0x5c :: encode (c :: rest) :=
    fun byte out hbyte hequal ↦ hbyte (List.head_eq_of_cons_eq hequal)
  rcases hstart with rfl | rfl | rfl | rfl | rfl | rfl | rfl | rfl | rfl | rfl | rfl | rfl | rfl |
    rfl
  · exact print_backslash_ne_of_collapse rfl rest
  · exact hletter 0x0a _ (by decide)
  · exact hletter 0x0d _ (by decide)
  · exact hletter 0x09 _ (by decide)
  · exact hletter 0x07 _ (by decide)
  · exact hletter 0x08 _ (by decide)
  · exact hletter 0x0c _ (by decide)
  · exact hletter 0x0b _ (by decide)
  · intro hequal
    have hstop : print .stopped (rest.flatMap argumentForm) = 0x5c :: encode ('c' :: rest) :=
      hequal
    rw [print_stopped] at hstop
    exact List.cons_ne_nil _ _ hstop.symm
  · exact print_backslash_zero_ne rest
  · exact print_backslash_ne_of_collapse rfl rest
  · exact print_backslash_ne_of_collapse rfl rest
  · exact print_backslash_ne_of_collapse rfl rest
  · exact print_backslash_ne_of_collapse rfl rest

theorem print_octal_argumentForm_append {c : Char} (hc : octalDigit? c = none)
    (value left : Nat) (rest : List Char) :
    print (.octal value left) (argumentForm c ++ rest) =
      UInt8.ofNat value :: print .text (argumentForm c ++ rest) := by
  have hform : ∃ d tail, argumentForm c = d :: tail ∧ octalDigit? d = none := by
    induction c using charCases with
    | plain c hplain => exact ⟨c, [], argumentForm_eq_self hplain, hc⟩
    | _ => exact ⟨_, _, rfl, rfl⟩
  obtain ⟨d, tail, hcons, hd⟩ := hform
  rw [hcons, List.cons_append, print_octal_of_octalDigit?_eq_none hd]

/-- An octal digit changes the byte of the escape character before it. -/
theorem print_octal_ne {c : Char} {digit : Nat} (hc : octalDigit? c = some digit)
    (rest : List Char) :
    print (.octal 27 1) ((c :: rest).flatMap argumentForm) ≠ 0x1b :: encode (c :: rest) := by
  have hdigit := octalDigit?_lt hc
  have hplain : c ∉ special := by
    intro hspecial
    have hnone : ∀ d ∈ special, octalDigit? d = none := List.all_iff_forall_prop.mp (by decide)
    rw [hnone c hspecial] at hc
    cases hc
  have hbyte : ∀ text, (print (.octal (8 * 27 + digit) 0) text).head? =
      some (UInt8.ofNat (8 * 27 + digit)) := by
    rintro (_ | ⟨d, text⟩) <;> rfl
  intro hequal
  have hhead := hbyte (rest.flatMap argumentForm)
  rw [List.flatMap_cons, argumentForm_eq_self hplain, List.singleton_append, print, step] at hequal
  simp only [hc, List.nil_append] at hequal
  rw [hequal, List.head?_cons, Option.some_inj] at hhead
  revert hhead
  interval_cases digit <;> decide

/-! ### Printing a text -/

/-- The invariant of a run over the escaped form of a text: outside a sequence, after the backslash
and after the escape character of the text before it. -/
theorem print_flatMap_argumentForm_iff (text : List Char) :
    (print .text (text.flatMap argumentForm) = encode text ↔
        text.IsChain fun first second ↦ ¬ Misread first second) ∧
      (print .backslash (text.flatMap argumentForm) = 0x5c :: encode text ↔
        ('\\' :: text).IsChain fun first second ↦ ¬ Misread first second) ∧
      (print (.octal 27 1) (text.flatMap argumentForm) = 0x1b :: encode text ↔
        ('\x1b' :: text).IsChain fun first second ↦ ¬ Misread first second) := by
  induction text with
  | nil => simp [print, finish, encode]
  | cons c rest ih =>
    obtain ⟨htext, hbackslash, hoctal⟩ := ih
    have hhere : print .text ((c :: rest).flatMap argumentForm) = encode (c :: rest) ↔
        (c :: rest).IsChain fun first second ↦ ¬ Misread first second := by
      by_cases hc : c = '\\'
      · subst hc
        exact hbackslash
      · by_cases hescape : c = '\x1b'
        · subst hescape
          exact hoctal
        · rw [isChain_cons_of_ne hc hescape, ← htext, List.flatMap_cons,
            print_text_argumentForm_append hc hescape, encode_cons, List.append_cancel_left_eq]
    refine ⟨hhere, ?_, ?_⟩
    · rw [List.isChain_cons_cons]
      by_cases hstart : c ∈ sequenceStarts
      · exact iff_of_false (print_backslash_ne hstart rest) fun hchain ↦
          hchain.1 (.inl ⟨rfl, hstart⟩)
      · have hc : c ≠ '\\' := fun h ↦ hstart (h ▸ by decide)
        have hescape : c ≠ '\x1b' := fun h ↦ hstart (h ▸ by decide)
        rw [isChain_cons_of_ne hc hescape, ← htext, List.flatMap_cons,
          print_backslash_argumentForm_append hstart, encode_cons, List.cons_inj_right,
          List.append_cancel_left_eq]
        simp [Misread, hstart]
    · rw [List.isChain_cons_cons]
      cases hdigit : octalDigit? c with
      | some digit =>
        exact iff_of_false (print_octal_ne hdigit rest) fun hchain ↦
          hchain.1 (.inr ⟨rfl, by rw [hdigit, Option.isSome_some]⟩)
      | none =>
        rw [List.flatMap_cons, print_octal_argumentForm_append hdigit, ← List.flatMap_cons,
          ← hhere]
        simp [Misread, hdigit]

/-- A recipe line prints its text exactly when no two neighbouring characters are misread. -/
theorem printed_escape_iff_isChain (text : List Char) :
    printed (escape text) = some (encode text) ↔
      text.IsChain fun first second ↦ ¬ Misread first second := by
  rw [printed_escape, Option.some_inj]
  exact (print_flatMap_argumentForm_iff text).1

/-- The path `C:\new` is printed with a line feed in it. -/
theorem not_forall_printed_escape :
    ¬ ∀ text : List Char, printed (escape text) = some (encode text) := by
  intro hall
  have hpath := (printed_escape_iff_isChain ['C', ':', '\\', 'n', 'e', 'w']).mp (hall _)
  revert hpath
  decide

end HelpSheet.Escape.Recipe
