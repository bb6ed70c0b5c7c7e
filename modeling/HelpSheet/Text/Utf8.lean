import HelpSheet.Text.Quoted

/-!
# UTF-8

Reading bytes as text. The reader stops at the first byte that rules the text out and says which
bytes are at fault and why: a byte that begins no character, a byte that does not continue one, or
the end of the data inside a character.
-/

set_option autoImplicit false
set_option relaxedAutoImplicit false

namespace HelpSheet.Text.Utf8

/-- Why bytes are not the encoding of a text. -/
inductive Fault
  | startByte
  | continuationByte
  | endOfData
  deriving DecidableEq, Repr

/-- The reason, in the words of messages. -/
def Fault.reason : Fault → String
  | .startByte => "invalid start byte"
  | .continuationByte => "invalid continuation byte"
  | .endOfData => "unexpected end of data"

/-- The bytes at fault: the offset of the first one, its value, and how many they are. -/
structure Error where
  offset : Nat
  byte : UInt8
  length : Nat
  fault : Fault
  deriving DecidableEq, Repr

def Error.message (error : Error) : String :=
  "'utf-8' codec can't decode " ++
    (if error.length = 1 then
      "byte 0x" ++ String.ofList (hexDigits 2 error.byte.toNat) ++ " in position " ++
        toString error.offset
    else
      "bytes in position " ++ toString error.offset ++ "-" ++
        toString (error.offset + error.length - 1)) ++
    ": " ++ error.fault.reason

/-- How a leading byte goes on: the bits it carries, the number of bytes that follow, and the least
and the greatest value of the first of them. Overlong forms, surrogates and code points above
U+10FFFF are excluded by these bounds. -/
structure Lead where
  bits : Nat
  tails : Nat
  low : UInt8
  high : UInt8
  deriving DecidableEq, Repr

/-- What a leading byte announces; none for a byte that begins no character. -/
def lead? (byte : UInt8) : Option Lead :=
  if byte < 0x80 then some ⟨byte.toNat, 0, 0x80, 0xbf⟩
  else if byte < 0xc2 then none
  else if byte < 0xe0 then some ⟨byte.toNat - 0xc0, 1, 0x80, 0xbf⟩
  else if byte = 0xe0 then some ⟨0, 2, 0xa0, 0xbf⟩
  else if byte = 0xed then some ⟨0xd, 2, 0x80, 0x9f⟩
  else if byte < 0xf0 then some ⟨byte.toNat - 0xe0, 2, 0x80, 0xbf⟩
  else if byte = 0xf0 then some ⟨0, 3, 0x90, 0xbf⟩
  else if byte = 0xf4 then some ⟨4, 3, 0x80, 0x8f⟩
  else if byte < 0xf4 then some ⟨byte.toNat - 0xf0, 3, 0x80, 0xbf⟩
  else none

/-- Reads `count` continuing bytes, the first of them between `low` and `high`, onto the bits read
so far. A failure gives the number of bytes read before it, the leading one included. -/
def readTails (count : Nat) (low high : UInt8) (value taken : Nat) (bytes : List UInt8) :
    Except (Fault × Nat) (Nat × List UInt8) :=
  match count, bytes with
  | 0, rest => .ok (value, rest)
  | _ + 1, [] => .error (.endOfData, taken)
  | count + 1, byte :: rest =>
    if low ≤ byte && byte ≤ high then
      readTails count 0x80 0xbf (64 * value + (byte.toNat - 0x80)) (taken + 1) rest
    else .error (.continuationByte, taken)

theorem readTails_length_le {count value taken : Nat} {low high : UInt8} {bytes rest : List UInt8}
    {result : Nat} (h : readTails count low high value taken bytes = .ok (result, rest)) :
    rest.length ≤ bytes.length := by
  fun_induction readTails count low high value taken bytes with
  | case1 => simp_all
  | case2 => simp at h
  | case3 _ _ _ _ _ _ _ _ ih => exact Nat.le_trans (ih h) (by simp)
  | case4 => simp at h

/-- Reads the characters of `bytes`, which begin at the given offset of the data. -/
def decodeFrom (offset : Nat) (bytes : List UInt8) : Except Error (List Char) :=
  match bytes with
  | [] => .ok []
  | byte :: after =>
    match lead? byte with
    | none => .error ⟨offset, byte, 1, .startByte⟩
    | some lead =>
      match _h : readTails lead.tails lead.low lead.high lead.bits 1 after with
      | .error (fault, length) => .error ⟨offset, byte, length, fault⟩
      | .ok (value, rest) =>
        match decodeFrom (offset + lead.tails + 1) rest with
        | .ok text => .ok (Char.ofNat value :: text)
        | .error error => .error error
termination_by bytes.length
decreasing_by
  have := readTails_length_le _h
  simp
  omega

/-- The text that the bytes encode. -/
def decode (bytes : List UInt8) : Except Error (List Char) :=
  decodeFrom 0 bytes

end HelpSheet.Text.Utf8
