/-!
# Terminal control sequences

A control sequence is an escape character, an opening bracket, any number of parameter characters
and one final character. Two classes of sequences are removed from text: those that set graphic
attributes, before documentation is read, and every command, where color is off.
-/

set_option autoImplicit false
set_option relaxedAutoImplicit false

namespace HelpSheet.Sgr

/-- The escape character. -/
def escape : Char := '\x1b'

/-- Which characters may stand between the opening bracket and the end of a sequence, and which
ones end it. -/
structure SequenceClass where
  isParameter : Char → Bool
  isFinal : Char → Bool

/-- Sequences that set graphic attributes: digits and semicolons up to an `m`. -/
def SequenceClass.graphic : SequenceClass where
  isParameter c := c.isDigit || c = ';'
  isFinal c := c = 'm'

/-- Sequences that give any command: digits, semicolons and question marks up to an ASCII letter. -/
def SequenceClass.command : SequenceClass where
  isParameter c := c.isDigit || c = ';' || c = '?'
  isFinal c := c.isAlpha

/-- What follows the parameters and the final character, if the text begins with these. -/
def afterParameters? (sequences : SequenceClass) : List Char → Option (List Char)
  | [] => none
  | c :: rest =>
    if sequences.isFinal c then some rest
    else if sequences.isParameter c then afterParameters? sequences rest
    else none

/-- What follows a control sequence of the class, if the text begins with one. -/
def afterSequence? (sequences : SequenceClass) : List Char → Option (List Char)
  | '\x1b' :: '[' :: rest => afterParameters? sequences rest
  | _ => none

theorem length_of_afterParameters? {sequences : SequenceClass} {text rest : List Char}
    (h : afterParameters? sequences text = some rest) : rest.length < text.length := by
  fun_induction afterParameters? sequences text with
  | case1 => simp at h
  | case2 => simp_all
  | case3 _ _ _ _ ih => exact Nat.lt_succ_of_lt (ih h)
  | case4 => simp at h

theorem length_of_afterSequence? {sequences : SequenceClass} {text rest : List Char}
    (h : afterSequence? sequences text = some rest) : rest.length < text.length := by
  unfold afterSequence? at h
  split at h
  · have := length_of_afterParameters? h
    simp
    omega
  · simp at h

/-- The text without the control sequences of the class, found from left to right. What the removal
brings together is not looked at again. -/
def strip (sequences : SequenceClass) (text : List Char) : List Char :=
  match text with
  | [] => []
  | c :: rest =>
    match _h : afterSequence? sequences (c :: rest) with
    | some after => strip sequences after
    | none => c :: strip sequences rest
termination_by text.length
decreasing_by
  · exact length_of_afterSequence? _h
  · simp

/-- A string without the sequences that set graphic attributes. -/
def withoutGraphics (text : String) : String :=
  String.ofList (strip .graphic text.toList)

/-- A string without any control sequence. -/
def withoutCommands (text : String) : String :=
  String.ofList (strip .command text.toList)

end HelpSheet.Sgr
