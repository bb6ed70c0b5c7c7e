import HelpSheet.Sgr.Strip

/-!
# Pens

A pen writes a whole text in its attributes, whatever sequences the text itself contains. Where the
text turns one of them off, the pen turns it on again; a stretch between two clearing sequences is
left in peace; and no line break is written with an attribute on.
-/

set_option autoImplicit false
set_option relaxedAutoImplicit false

namespace HelpSheet.Sgr

/-! ### Replacing parts of a text -/

/-- The text with every occurrence of `pattern`, found from left to right, replaced. Characters are
compared from the first one on; the empty pattern is replaced before every character. -/
def replaceAll (pattern replacement text : List Char) : List Char :=
  match text with
  | [] => []
  | c :: rest =>
    if pattern.isPrefixOf (c :: rest) then
      replacement ++ replaceAll pattern replacement (rest.drop (pattern.length - 1))
    else c :: replaceAll pattern replacement rest
termination_by text.length
decreasing_by
  · rw [List.length_drop, List.length_cons]
    omega
  · simp

/-- The part of the current line up to the first occurrence of `pattern` and including it, and what
follows it. -/
def splitAfterOnLine? (pattern : List Char) : List Char → Option (List Char × List Char)
  | [] => none
  | c :: rest =>
    if pattern.isPrefixOf (c :: rest) then some (pattern, (c :: rest).drop pattern.length)
    else if c = '\n' then none
    else (splitAfterOnLine? pattern rest).map fun found ↦ (c :: found.1, found.2)

theorem length_of_splitAfterOnLine? {pattern text found rest : List Char}
    (h : splitAfterOnLine? pattern text = some (found, rest)) : rest.length ≤ text.length := by
  induction text generalizing found rest with
  | nil => simp [splitAfterOnLine?] at h
  | cons c after ih =>
    unfold splitAfterOnLine? at h
    split at h
    · obtain ⟨-, rfl⟩ := Prod.mk.inj (Option.some.inj h)
      simp
    · split at h
      · simp at h
      · obtain ⟨⟨inner, tail⟩, hsome, heq⟩ := Option.map_eq_some_iff.1 h
        obtain ⟨-, rfl⟩ := Prod.mk.inj heq
        exact Nat.le_succ_of_le (ih hsome)

/-- The sequence that clears all attributes, as characters. -/
def clearing : List Char := ['\x1b', '[', '0', 'm']

/-- The text with `before` and `after` around every stretch that two clearing sequences on one line
enclose. -/
def surroundCleared (before after text : List Char) : List Char :=
  match text with
  | [] => []
  | c :: rest =>
    if clearing.isPrefixOf (c :: rest) then
      match _h : splitAfterOnLine? clearing (rest.drop 3) with
      | some (stretch, remaining) =>
        before ++ clearing ++ stretch ++ after ++ surroundCleared before after remaining
      | none => c :: surroundCleared before after rest
    else c :: surroundCleared before after rest
termination_by text.length
decreasing_by
  · have := length_of_splitAfterOnLine? _h
    simp at this ⊢
    omega
  · simp
  · simp

/-- The text with `before` and `after` around every line feed, together with a carriage return in
front of it. -/
def surroundLineBreaks (before after : List Char) : List Char → List Char
  | '\r' :: '\n' :: rest => before ++ ['\r', '\n'] ++ after ++ surroundLineBreaks before after rest
  | '\n' :: rest => before ++ ['\n'] ++ after ++ surroundLineBreaks before after rest
  | c :: rest => c :: surroundLineBreaks before after rest
  | [] => []

/-! ### Pens -/

/-- An attribute: the sequence that turns it on and the one that turns it off. -/
structure Attribute where
  on : List Char
  off : List Char
  deriving DecidableEq, Repr

/-- The attributes of a pen, in the order in which they are turned on and off. -/
abbrev Pen := List Attribute

namespace Pen

/-- A foreground color by its code. -/
def foreground (code : Nat) : Attribute where
  on := "\x1b[".toList ++ (toString code).toList ++ ['m']
  off := "\x1b[39m".toList

/-- Reduced intensity. -/
def dimming : Attribute where
  on := "\x1b[2m".toList
  off := "\x1b[22m".toList

/-- Turns every attribute of the pen on. -/
def start (pen : Pen) : List Char :=
  pen.flatMap Attribute.on

/-- Turns every attribute of the pen off. -/
def stop (pen : Pen) : List Char :=
  pen.flatMap Attribute.off

/-- The text with every attribute turned on again where the text turns it off. -/
def resume (pen : Pen) (text : List Char) : List Char :=
  pen.foldl (fun text held ↦
    replaceAll held.off (held.off ++ held.on) text) text

/-- The text written with the pen. -/
def write (pen : Pen) (text : List Char) : List Char :=
  pen.start ++
    surroundLineBreaks pen.stop pen.start
      (surroundCleared pen.stop pen.start (pen.resume text)) ++
    pen.stop

end Pen

end HelpSheet.Sgr
