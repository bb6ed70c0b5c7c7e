import HelpSheet.Markup.Glyph
import HelpSheet.Markup.Segment
import HelpSheet.Sgr.Strip
import HelpSheet.Text.Blank

/-!
# Reading markup

Text is read from left to right, one piece at a time. At each place the reader tries code, bold,
italic and link in this order; a mark that opens no complete span is literal. Spans do not nest:
between its two marks a span holds literal text, and the first closing mark ends it.

Terminal sequences are removed first. Text that is too long for markup is cut and read as literal
text.
-/

set_option autoImplicit false
set_option relaxedAutoImplicit false

namespace HelpSheet.Markup

/-- The greatest length of text that is read as markup. -/
def maxTextLength : Nat := 10240

/-- The greatest length of the content of a span. -/
def maxSpanLength : Nat := 2000

/-! ### Spans -/

/-- A split of the text after `glyph`, as a split of the text that `glyph` begins. -/
def consSplit (glyph : Glyph) (found : List Glyph × List Glyph) : List Glyph × List Glyph :=
  (glyph :: found.1, found.2)

/-- What stands before the first occurrence of `mark`, and what follows it. -/
def splitAtMark? (mark : List Glyph) : List Glyph → Option (List Glyph × List Glyph)
  | [] => none
  | glyph :: rest =>
    if mark.isPrefixOf (glyph :: rest) then some ([], (glyph :: rest).drop mark.length)
    else (splitAtMark? mark rest).map (consSplit glyph)

/-- What stands before the closing parenthesis that matches one opened before, and what follows it.
`depth` counts the further parentheses that are open. -/
def splitAtClosing? (depth : Nat) : List Glyph → Option (List Glyph × List Glyph)
  | [] => none
  | glyph :: rest =>
    if glyph = .bare ')' then
      if depth = 0 then some ([], rest)
      else (splitAtClosing? (depth - 1) rest).map (consSplit glyph)
    else if glyph = .bare '(' then (splitAtClosing? (depth + 1) rest).map (consSplit glyph)
    else (splitAtClosing? depth rest).map (consSplit glyph)

/-- Whether the glyphs can be the content of a span. -/
def isSpanContent (content : List Glyph) : Bool :=
  !content.isEmpty && content.length ≤ maxSpanLength

/-- Reads a span that `mark` closes, after its opening mark. -/
def readSpan? (kind : SegmentKind) (mark text : List Glyph) : Option (Segment × List Glyph) :=
  match splitAtMark? mark text with
  | some (content, rest) =>
    if isSpanContent content then some ({ kind, content := Glyph.text content }, rest) else none
  | none => none

/-- Reads a link after its opening bracket. The closing bracket is followed at once by the URL in
parentheses, whose own parentheses are balanced. -/
def readLink? (text : List Glyph) : Option (Segment × List Glyph) :=
  match splitAtMark? [.bare ']'] text with
  | some (content, opening :: rest) =>
    if opening = .bare '(' && isSpanContent content then
      match splitAtClosing? 0 rest with
      | some (url, rest) =>
        some ({ kind := .link, content := Glyph.text content,
                url := Text.trimmed (Glyph.text url) }, rest)
      | none => none
    else none
  | _ => none

/-! ### Pieces -/

/-- A piece of the text: characters that stand for themselves, or a span. -/
inductive Piece
  | literal (chars : List Char)
  | span (segment : Segment)
  deriving DecidableEq, Repr

/-- A span where one was read, the literal text `mark` otherwise. -/
def spanOr (mark : List Char) (rest : List Glyph) :
    Option (Segment × List Glyph) → Piece × List Glyph
  | some (segment, after) => (.span segment, after)
  | none => (.literal mark, rest)

/-- The first piece of a text that begins with `glyph`, and what follows it. Two asterisks that open
no bold span are literal together. -/
def readPiece (glyph : Glyph) (rest : List Glyph) : Piece × List Glyph :=
  if glyph = .bare codeMark then
    spanOr [codeMark] rest (readSpan? .code [.bare codeMark] rest)
  else if glyph = .bare '*' then
    match rest with
    | second :: after =>
      if second = .bare '*' then
        spanOr ['*', '*'] after (readSpan? .bold [.bare '*', .bare '*'] after)
      else spanOr ['*'] rest (readSpan? .italic [.bare '*'] rest)
    | [] => (.literal ['*'], rest)
  else if glyph = .bare '[' then
    spanOr ['['] rest (readLink? rest)
  else (.literal [glyph.char], rest)

theorem length_of_map_consSplit {glyph : Glyph} {text content rest : List Glyph}
    {found : Option (List Glyph × List Glyph)}
    (hfound : ∀ content rest, found = some (content, rest) → rest.length ≤ text.length)
    (h : found.map (consSplit glyph) = some (content, rest)) :
    rest.length ≤ (glyph :: text).length := by
  obtain ⟨⟨inner, tail⟩, hsome, heq⟩ := Option.map_eq_some_iff.1 h
  obtain ⟨-, rfl⟩ := Prod.mk.inj heq
  exact Nat.le_succ_of_le (hfound _ _ hsome)

theorem length_of_splitAtMark? {mark text content rest : List Glyph}
    (h : splitAtMark? mark text = some (content, rest)) : rest.length ≤ text.length := by
  induction text generalizing content rest with
  | nil => simp [splitAtMark?] at h
  | cons glyph after ih =>
    unfold splitAtMark? at h
    split at h
    · obtain ⟨-, rfl⟩ := Prod.mk.inj (Option.some.inj h)
      simp
    · exact length_of_map_consSplit (fun _ _ ↦ ih) h

theorem length_of_splitAtClosing? {depth : Nat} {text content rest : List Glyph}
    (h : splitAtClosing? depth text = some (content, rest)) : rest.length ≤ text.length := by
  induction text generalizing depth content rest with
  | nil => simp [splitAtClosing?] at h
  | cons glyph after ih =>
    unfold splitAtClosing? at h
    split at h
    · split at h
      · obtain ⟨-, rfl⟩ := Prod.mk.inj (Option.some.inj h)
        simp
      · exact length_of_map_consSplit (fun _ _ ↦ ih) h
    · split at h
      · exact length_of_map_consSplit (fun _ _ ↦ ih) h
      · exact length_of_map_consSplit (fun _ _ ↦ ih) h

theorem length_of_readSpan? {kind : SegmentKind} {mark text rest : List Glyph} {segment : Segment}
    (h : readSpan? kind mark text = some (segment, rest)) : rest.length ≤ text.length := by
  unfold readSpan? at h
  split at h
  · split at h
    · obtain ⟨-, rfl⟩ := Prod.mk.inj (Option.some.inj h)
      exact length_of_splitAtMark? ‹_›
    · simp at h
  · simp at h

theorem length_of_readLink? {text rest : List Glyph} {segment : Segment}
    (h : readLink? text = some (segment, rest)) : rest.length ≤ text.length := by
  unfold readLink? at h
  split at h
  · rename_i content opening after hmark
    split at h
    · split at h
      · rename_i url tail hclosing
        obtain ⟨-, rfl⟩ := Prod.mk.inj (Option.some.inj h)
        have := length_of_splitAtMark? hmark
        have := length_of_splitAtClosing? hclosing
        simp at *
        omega
      · simp at h
    · simp at h
  · simp at h

theorem length_spanOr_le {mark : List Char} {rest : List Glyph}
    {found : Option (Segment × List Glyph)}
    (h : ∀ segment after, found = some (segment, after) → after.length ≤ rest.length) :
    (spanOr mark rest found).2.length ≤ rest.length := by
  cases found with
  | none => exact Nat.le_refl _
  | some pair => exact h pair.1 pair.2 rfl

/-- A piece takes at least the glyph it begins with. -/
theorem length_readPiece_le (glyph : Glyph) (rest : List Glyph) :
    (readPiece glyph rest).2.length ≤ rest.length := by
  unfold readPiece
  split
  · exact length_spanOr_le fun _ _ ↦ length_of_readSpan?
  · split
    · split
      · split
        · exact Nat.le_succ_of_le (length_spanOr_le fun _ _ ↦ length_of_readSpan?)
        · exact length_spanOr_le fun _ _ ↦ length_of_readSpan?
      · exact Nat.le_refl _
    · split
      · exact length_spanOr_le fun _ _ ↦ length_of_readLink?
      · exact Nat.le_refl _

/-- The pieces of a text, in order. -/
def pieces (glyphs : List Glyph) : List Piece :=
  match glyphs with
  | [] => []
  | glyph :: rest => (readPiece glyph rest).1 :: pieces (readPiece glyph rest).2
termination_by glyphs.length
decreasing_by
  exact Nat.lt_succ_of_le (length_readPiece_le glyph rest)

/-- The plain segment of characters given from the last to the first; no segment where there are
none. -/
def plainSegment (reversed : List Char) : List Segment :=
  if reversed.isEmpty then []
  else [{ kind := .plain, content := String.ofList reversed.reverse }]

/-- Joins neighbouring literal pieces into plain segments. `pending` holds the characters of the
plain segment under way, the last one first. -/
def joinPieces (pending : List Char) : List Piece → RichText
  | [] => plainSegment pending
  | .literal chars :: rest => joinPieces (chars.reverse ++ pending) rest
  | .span segment :: rest => plainSegment pending ++ segment :: joinPieces [] rest

/-! ### Whole texts -/

/-- Reads text from which terminal sequences have been removed. -/
def parseChars (text : List Char) : RichText :=
  if text.length ≤ maxTextLength then joinPieces [] (pieces (Glyph.ofText text))
  else [{ kind := .plain, content := String.ofList (text.take maxTextLength) }]

/-- Reads documentation text as rich text. -/
def parse (raw : String) : RichText :=
  parseChars (Sgr.strip .graphic raw.toList)

/-- The visible text of documentation text. -/
def flatten (raw : String) : String :=
  (parse raw).plainText

/-- The length of the text without terminal sequences, where it is too long for markup. -/
def excessLength? (raw : String) : Option Nat :=
  let length := (Sgr.strip .graphic raw.toList).length
  if length ≤ maxTextLength then none else some length

end HelpSheet.Markup
