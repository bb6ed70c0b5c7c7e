import Mathlib.Data.List.Forall2
import HelpSheet.Makefile.Generate
import HelpSheet.Proofs.Text.Lacking

/-!
# Recipes before make and the shell

Before the shell sees a recipe, make replaces references (`expand`); then the shell cuts the line
into words and removes the quotes (`words`). A reference and text with doubled dollar signs pass
make in any surroundings (`Expands`), a quoted word and a word of ordinary characters pass the shell
(`Spells`), and a line of such words is read as the words it was written for (`words_spelled`).
-/

set_option autoImplicit false
set_option relaxedAutoImplicit false

namespace HelpSheet

/-! ### Ordinary characters -/

/-- The characters that can mean something else than themselves to make or to the shell, blanks and
control characters apart. -/
def specialCharacters : List Char :=
  ['!', '\x22', '#', '$', '%', '&', '\x27', '(', ')', '*', ':', ';', '<', '=', '>', '?', '[', '\\',
    ']', '^', '\x60', '{', '|', '}', '~']

/-- A character that is special neither to make nor to the shell. -/
def IsOrdinary (c : Char) : Prop :=
  ' ' < c ∧ c ≠ '\x7f' ∧ c ∉ specialCharacters

instance : DecidablePred IsOrdinary := fun c ↦
  inferInstanceAs (Decidable (' ' < c ∧ c ≠ '\x7f' ∧ c ∉ specialCharacters))

/-- A text of ordinary characters. -/
def IsOrdinaryText (text : String) : Prop :=
  ∀ c ∈ text.toList, IsOrdinary c

instance : DecidablePred IsOrdinaryText := fun text ↦
  List.decidableBAll IsOrdinary text.toList

theorem isOrdinaryText_append {front back : String} :
    IsOrdinaryText (front ++ back) ↔ IsOrdinaryText front ∧ IsOrdinaryText back := by
  simp [IsOrdinaryText, or_imp, forall_and]

theorem IsOrdinaryText.lacks {text : String} (htext : IsOrdinaryText text) {c : Char}
    (hc : ¬ IsOrdinary c) : Text.Lacks c text :=
  fun hmem ↦ hc (htext c hmem)

namespace Escape.Shell

/-! ### Words of the shell -/

/-- What the shell reads at a point of a line: text without quotes, or text between quotes. -/
inductive Quoting
  | bare
  | single
  | double
  deriving DecidableEq

/-- The characters that end a word or ask for an expansion outside quotes. -/
def operators : List Char :=
  ['\n', '|', '&', ';', '<', '>', '(', ')', '$', '\x60', '\\', '*', '?', '[']

/-- The characters that ask for an expansion between double quotes. -/
def expansions : List Char :=
  ['$', '\x60', '\\']

/-- Cuts a line into words at its blanks, outside quotes; `word` is the beginning of a word that was
already read. There is no result where the shell would do more than remove quotes. -/
def readWords (quoting : Quoting) (word : Option (List Char)) :
    List Char → Option (List (List Char))
  | [] => if quoting = .bare then some word.toList else none
  | c :: rest =>
    match quoting with
    | .single =>
      if c = '\x27' then readWords .bare word rest
      else readWords .single (some (word.getD [] ++ [c])) rest
    | .double =>
      if c = '\x22' then readWords .bare word rest
      else if c ∈ expansions then none
      else readWords .double (some (word.getD [] ++ [c])) rest
    | .bare =>
      if c = ' ' ∨ c = '\t' then (readWords .bare none rest).map (word.toList ++ ·)
      else if c = '\x27' then readWords .single (some (word.getD [])) rest
      else if c = '\x22' then readWords .double (some (word.getD [])) rest
      else if c ∈ operators ∨ word = none ∧ (c = '#' ∨ c = '~') then none
      else readWords .bare (some (word.getD [] ++ [c])) rest

/-- The words of a command line. -/
def words (line : List Char) : Option (List (List Char)) :=
  readWords .bare none line

/-- The text is read as one word in front of any rest. -/
def Spells (text word : List Char) : Prop :=
  ∀ rest, readWords .bare none (text ++ rest) = readWords .bare (some word) rest

/-- The characters that mean something to the shell in a word or at its beginning. -/
def marks : List Char :=
  [' ', '\t', '\x27', '\x22', '#', '~'] ++ operators

/-- The shell reads the character as itself in a word and at its beginning. -/
def IsLiteral (c : Char) : Prop :=
  c ∉ marks

instance : DecidablePred IsLiteral := fun c ↦
  inferInstanceAs (Decidable (c ∉ marks))

/-- The characters that end a word or mean something to the shell inside it. -/
def breaks : List Char :=
  [' ', '\t', '\x27', '\x22'] ++ operators

/-- The shell reads the character as itself inside a word. -/
def IsInner (c : Char) : Prop :=
  c ∉ breaks

instance : DecidablePred IsInner := fun c ↦
  inferInstanceAs (Decidable (c ∉ breaks))

/-- The shell reads the text as itself inside a word. -/
def IsInnerText (text : String) : Prop :=
  ∀ c ∈ text.toList, IsInner c

instance : DecidablePred IsInnerText := fun text ↦
  List.decidableBAll IsInner text.toList

theorem IsLiteral.isInner {c : Char} (hc : IsLiteral c) : IsInner c := by
  have hbreaks : breaks ⊆ marks := by decide
  exact fun hmem ↦ hc (hbreaks hmem)

theorem isLiteral_of_isOrdinary {c : Char} (hc : IsOrdinary c) : IsLiteral c := by
  have hmarks : (marks.all fun mark ↦ !decide (IsOrdinary mark)) = true := by decide
  exact fun hmem ↦ by simpa [hc] using List.all_eq_true.mp hmarks c hmem

theorem isLiteral_of_isOrdinaryText {text : String} (htext : IsOrdinaryText text) :
    ∀ c ∈ text.toList, IsLiteral c :=
  fun c hc ↦ isLiteral_of_isOrdinary (htext c hc)

theorem isInnerText_of_isOrdinaryText {text : String} (htext : IsOrdinaryText text) :
    IsInnerText text :=
  fun c hc ↦ (isLiteral_of_isOrdinaryText htext c hc).isInner

theorem isLiteral_of_isPlain {c : Char} (hc : isPlain c = true) : IsLiteral c := by
  have hmarks : (marks.all fun mark ↦ !isPlain mark) = true := by decide
  exact fun hmem ↦ by simpa [hc] using List.all_eq_true.mp hmarks c hmem

theorem readWords_literal {c : Char} (hc : IsLiteral c) (word : Option (List Char))
    (rest : List Char) :
    readWords .bare word (c :: rest) = readWords .bare (some (word.getD [] ++ [c])) rest := by
  rw [IsLiteral, marks, List.mem_append, not_or] at hc
  obtain ⟨hsigns, hoperators⟩ := hc
  simp only [List.mem_cons, List.not_mem_nil, or_false, not_or] at hsigns
  simp [readWords, hsigns, hoperators]

theorem readWords_inner {c : Char} (hc : IsInner c) (word rest : List Char) :
    readWords .bare (some word) (c :: rest) = readWords .bare (some (word ++ [c])) rest := by
  rw [IsInner, breaks, List.mem_append, not_or] at hc
  obtain ⟨hsigns, hoperators⟩ := hc
  simp only [List.mem_cons, List.not_mem_nil, or_false, not_or] at hsigns
  simp [readWords, hsigns, hoperators]

theorem readWords_append {text : List Char} (htext : ∀ c ∈ text, IsInner c)
    (word rest : List Char) :
    readWords .bare (some word) (text ++ rest) = readWords .bare (some (word ++ text)) rest := by
  induction text generalizing word with
  | nil => rw [List.nil_append, List.append_nil]
  | cons c text ih =>
    rw [List.forall_mem_cons] at htext
    rw [List.cons_append, readWords_inner htext.1, ih htext.2]
    simp

/-- A word of literal characters stands for itself. -/
theorem spells_literals {text : List Char} (htext : ∀ c ∈ text, IsLiteral c) (hne : text ≠ []) :
    Spells text text := by
  intro rest
  cases text with
  | nil => exact absurd rfl hne
  | cons c text =>
    rw [List.forall_mem_cons] at htext
    rw [List.cons_append, readWords_literal htext.1,
      readWords_append fun d hd ↦ (htext.2 d hd).isInner]
    rfl

/-- A word of ordinary characters is read as it is spelled. -/
theorem spells_of_isOrdinaryText {text : String} (htext : IsOrdinaryText text ∧ text ≠ "") :
    Spells text.toList text.toList :=
  spells_literals (isLiteral_of_isOrdinaryText htext.1) (by simpa using htext.2)

theorem readWords_quoteChars (text word rest : List Char) :
    readWords .single (some word) (text.flatMap quoteChar ++ '\x27' :: rest) =
      readWords .bare (some (word ++ text)) rest := by
  induction text generalizing word with
  | nil => simp [readWords]
  | cons c text ih =>
    rw [List.flatMap_cons, List.append_assoc]
    by_cases hc : c = '\x27'
    · have hdouble : '\x27' ∉ expansions := by decide
      simp [quoteChar, hc, readWords, hdouble, ih]
    · simp [quoteChar, hc, readWords, ih]

/-- A quoted text is read as one word, and nothing in it is expanded. -/
theorem spells_quoteWord (text : List Char) : Spells (quoteWord text) text := by
  unfold quoteWord
  split
  · next hplain =>
    rw [Bool.and_eq_true, List.all_eq_true] at hplain
    have hliteral : ∀ c ∈ text, IsLiteral c := fun c hc ↦ isLiteral_of_isPlain (hplain.2 c hc)
    exact spells_literals hliteral (by simpa using hplain.1)
  · intro rest
    have hquote : readWords .bare none ('\x27' :: (text.flatMap quoteChar ++ '\x27' :: rest)) =
        readWords .single (some []) (text.flatMap quoteChar ++ '\x27' :: rest) := by
      simp [readWords]
    simpa using hquote.trans (readWords_quoteChars text [] rest)

/-- A line of spelled words is read as these words. -/
theorem words_spelled {texts values : List (List Char)} (htexts : List.Forall₂ Spells texts values)
    {text value : List Char} (htext : Spells text value) :
    words (text ++ texts.flatMap (' ' :: ·)) = some (value :: values) := by
  induction htexts generalizing text value with
  | nil =>
    rw [words, htext]
    rfl
  | cons hsecond _ ih =>
    rw [words, htext, List.flatMap_cons, List.cons_append]
    have hrest := ih hsecond
    rw [words] at hrest
    simp [readWords, hrest]

end Escape.Shell

namespace Makefile

/-! ### References in recipes -/

/-- What follows the dollar sign of the reference to the directory of the help makefile. -/
def referenceTail : List Char :=
  directoryReference.toList.tail

/-- What make leaves of a recipe, given the directory of the help makefile. A pair of dollar signs
stands for one; no other reference has a result here. The first `skipped` characters belong to what
is already expanded. -/
def expand (directory : List Char) (skipped : Nat) : List Char → Option (List Char)
  | [] => some []
  | c :: rest =>
    match skipped with
    | skipped + 1 => expand directory skipped rest
    | 0 =>
      if c ≠ '$' then (expand directory 0 rest).map (c :: ·)
      else if rest.head? = some '$' then (expand directory 1 rest).map ('$' :: ·)
      else if referenceTail.isPrefixOf rest then
        (expand directory referenceTail.length rest).map (directory ++ ·)
      else none

variable {directory : List Char}

theorem expand_append (front rest : List Char) :
    expand directory front.length (front ++ rest) = expand directory 0 rest := by
  induction front with
  | nil => rfl
  | cons c front ih => exact ih

/-- Make turns the text into the result in front of any rest. -/
def Expands (directory text result : List Char) : Prop :=
  ∀ rest, expand directory 0 (text ++ rest) = (expand directory 0 rest).map (result ++ ·)

namespace Expands

theorem append {first second result result' : List Char} (hfirst : Expands directory first result)
    (hsecond : Expands directory second result') :
    Expands directory (first ++ second) (result ++ result') := by
  intro rest
  rw [List.append_assoc, hfirst, hsecond, Option.map_map]
  congr 1
  funext tail
  exact (List.append_assoc ..).symm

theorem flatMap {α : Type} {items : List α} {text result : α → List Char}
    (hitems : ∀ item ∈ items, Expands directory (text item) (result item)) :
    Expands directory (items.flatMap text) (items.flatMap result) := by
  induction items with
  | nil => simp [Expands]
  | cons item items ih =>
    rw [List.forall_mem_cons] at hitems
    rw [List.flatMap_cons, List.flatMap_cons]
    exact hitems.1.append (ih hitems.2)

theorem of_dollar_not_mem {text : List Char} (htext : '$' ∉ text) :
    Expands directory text text := by
  intro rest
  induction text with
  | nil => simp
  | cons c text ih =>
    rw [List.mem_cons, not_or] at htext
    rw [List.cons_append, expand, if_pos (Ne.symm htext.1), ih htext.2, Option.map_map]
    rfl

theorem reference : Expands directory directoryReference.toList directory := by
  intro rest
  have htail : directoryReference.toList = '$' :: referenceTail := by decide
  have hhead : (referenceTail ++ rest).head? ≠ some '$' := by
    simp [referenceTail, directoryReference]
  rw [htail, List.cons_append, expand, if_neg (by decide), if_neg hhead, if_pos (by simp),
    expand_append]

theorem doubleDollars (text : List Char) : Expands directory (doubleDollars text) text := by
  have hcharacters :
      Expands directory (Makefile.doubleDollars text) (text.flatMap fun c ↦ [c]) := by
    refine flatMap fun c _ ↦ ?_
    by_cases hc : c = '$'
    · intro rest
      simp [hc, expand]
    · rw [if_neg hc]
      exact of_dollar_not_mem (by simpa using Ne.symm hc)
  rwa [List.flatMap_singleton'] at hcharacters

/-- A text that make expands on its own. -/
theorem expand_eq {text result : List Char} (htext : Expands directory text result) :
    expand directory 0 text = some result := by
  have hend := htext []
  rwa [List.append_nil, expand, Option.map_some, List.append_nil] at hend

end Expands

end Makefile

end HelpSheet
