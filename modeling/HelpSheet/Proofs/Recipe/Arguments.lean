import HelpSheet.Proofs.Recipe.Words

/-!
# Arguments of recipes

A recipe gives its arguments as fixed words, as paths behind the directory of the help makefile, and
as quoted texts (`Argument`). Fixed words and quoted texts come through make and the shell whatever
they are. A path is not quoted, and comes through exactly if the shell reads each of its characters
as itself (`received_eq_some_iff`): where one of them is lost, all the characters behind it come too
early, and no later one makes up for it (`isInner_of_readWords`).
-/

set_option autoImplicit false
set_option relaxedAutoImplicit false

namespace HelpSheet

namespace Escape.Shell

/-! ### What a character does to a word -/

/-- The signs between which the shell takes text as it is. -/
def quotes : List Char :=
  ['\x27', '\x22']

/-- A character in a word is read as itself, begins or ends a quotation, or ends the word. -/
theorem readWords_cons_cases {quoting : Quoting} {word rest : List Char} {c : Char}
    {words : List (List Char)} (hread : readWords quoting (some word) (c :: rest) = some words) :
    ((quoting = .bare → IsInner c) ∧
        ∃ quoting', readWords quoting' (some (word ++ [c])) rest = some words) ∨
      (c ∈ quotes ∧ ∃ quoting', readWords quoting' (some word) rest = some words) ∨
      (c ∈ [' ', '\t'] ∧ ∃ others, words = word :: others) := by
  cases quoting with
  | single =>
    rw [readWords] at hread
    split at hread
    · next hc => exact .inr (.inl ⟨by simp [quotes, hc], _, hread⟩)
    · exact .inl ⟨fun hbare ↦ Quoting.noConfusion hbare, _, hread⟩
  | double =>
    rw [readWords] at hread
    split at hread
    · next hc => exact .inr (.inl ⟨by simp [quotes, hc], _, hread⟩)
    · split at hread
      · cases hread
      · exact .inl ⟨fun hbare ↦ Quoting.noConfusion hbare, _, hread⟩
  | bare =>
    rw [readWords] at hread
    split at hread
    · next hc =>
      obtain ⟨others, -, hwords⟩ := Option.map_eq_some_iff.mp hread
      exact .inr (.inr ⟨by simpa using hc, others, hwords.symm⟩)
    · next hblank =>
      split at hread
      · next hc => exact .inr (.inl ⟨by simp [quotes, hc], _, hread⟩)
      · next hsingle =>
        split at hread
        · next hc => exact .inr (.inl ⟨by simp [quotes, hc], _, hread⟩)
        · next hdouble =>
          split at hread
          · cases hread
          · next hoperator =>
            rw [not_or] at hblank hoperator
            refine .inl ⟨fun _ ↦ ?_, _, hread⟩
            simp only [IsInner, breaks, List.mem_append, List.mem_cons, List.not_mem_nil, or_false,
              not_or]
            exact ⟨⟨hblank.1, hblank.2, hsingle, hdouble⟩, hoperator.1⟩

/-- What was read of a word stays at its beginning. -/
theorem prefix_of_readWords {quoting : Quoting} {word rest first : List Char}
    {others : List (List Char)}
    (hread : readWords quoting (some word) rest = some (first :: others)) : word <+: first := by
  induction rest generalizing quoting word with
  | nil =>
    rw [readWords] at hread
    split at hread
    · obtain ⟨rfl, -⟩ := List.cons.inj (Option.some.inj hread)
      exact List.prefix_rfl
    · cases hread
  | cons c rest ih =>
    rcases readWords_cons_cases hread with ⟨-, quoting', hrest⟩ | ⟨-, quoting', hrest⟩ |
      ⟨-, others', hwords⟩
    · exact (List.prefix_append word [c]).trans (ih hrest)
    · exact ih hrest
    · obtain ⟨rfl, -⟩ := List.cons.inj hwords
      exact List.prefix_rfl

/-- A character that comes into a word that fell behind its text was passed before. -/
theorem mem_of_readWords {quoting : Quoting} {word shown passed rest more : List Char} {c : Char}
    {others : List (List Char)} (hbehind : shown.length < passed.length)
    (hread : readWords quoting (some (word ++ shown ++ [c])) rest =
      some ((word ++ (passed ++ more)) :: others)) : c ∈ passed := by
  have hbegins := prefix_of_readWords hread
  rw [List.append_assoc, List.prefix_append_right_inj] at hbegins
  have hlength : (shown ++ [c]).length ≤ passed.length := by
    rw [List.length_append]
    exact hbehind
  have hshown := List.prefix_of_prefix_length_le hbegins (List.prefix_append _ _) hlength
  exact hshown.subset (List.mem_append_right _ (List.mem_singleton_self c))

theorem ne_of_length_lt {word shown passed more : List Char}
    (hbehind : shown.length < passed.length) : word ++ shown ≠ word ++ (passed ++ more) := by
  intro heq
  have hlength := congrArg List.length (List.append_cancel_left heq)
  rw [List.length_append] at hlength
  omega

/-- A word that fell behind its text at a quote stays behind: all that was passed are quotes, so the
next character in the word has to be one, and it was passed as well. -/
theorem readWords_ne_of_length_lt {quoting : Quoting} {word shown passed text back tail : List Char}
    {others : List (List Char)} (hpassed : ∀ c ∈ passed, c ∈ quotes)
    (hbehind : shown.length < passed.length) (hback : ∀ c ∈ back.head?, c ∉ quotes) :
    readWords quoting (some (word ++ shown)) (text ++ back) ≠
      some ((word ++ (passed ++ (text ++ tail))) :: others) := by
  induction text generalizing quoting shown passed with
  | nil =>
    intro hread
    cases back with
    | nil =>
      rw [List.append_nil, readWords] at hread
      split at hread
      · exact ne_of_length_lt hbehind (List.cons.inj (Option.some.inj hread)).1
      · cases hread
    | cons c back =>
      rcases readWords_cons_cases hread with ⟨-, quoting', hrest⟩ | ⟨hc, -⟩ | ⟨-, others', hwords⟩
      · exact hback c rfl (hpassed c (mem_of_readWords hbehind hrest))
      · exact hback c rfl hc
      · exact ne_of_length_lt hbehind (List.cons.inj hwords).1.symm
  | cons c text ih =>
    intro hread
    have hmove : passed ++ (c :: text ++ tail) = (passed ++ [c]) ++ (text ++ tail) := by simp
    have hlonger : c ∈ quotes → ∀ d ∈ passed ++ [c], d ∈ quotes := fun hc ↦
      List.forall_mem_append.mpr ⟨hpassed, List.forall_mem_singleton.mpr hc⟩
    rcases readWords_cons_cases hread with ⟨-, quoting', hrest⟩ | ⟨hc, quoting', hrest⟩ |
      ⟨-, others', hwords⟩
    · have hc := hpassed c (mem_of_readWords hbehind hrest)
      rw [hmove, List.append_assoc word] at hrest
      exact ih (hlonger hc) (by simpa using hbehind) hrest
    · rw [hmove] at hrest
      exact ih (hlonger hc) (by rw [List.length_append]; omega) hrest
    · exact ne_of_length_lt hbehind (List.cons.inj hwords).1.symm

/-- A text that is found in a word as it was written has only characters that the shell reads as
themselves. -/
theorem isInner_of_readWords {word text back tail : List Char} {others : List (List Char)}
    (hback : ∀ c ∈ back.head?, c ∉ quotes)
    (hread : readWords .bare (some word) (text ++ back) =
      some ((word ++ (text ++ tail)) :: others)) : ∀ c ∈ text, IsInner c := by
  induction text generalizing word with
  | nil => exact List.forall_mem_nil _
  | cons c text ih =>
    rcases readWords_cons_cases hread with ⟨hinner, -⟩ | ⟨hc, quoting', hrest⟩ |
      ⟨-, others', hwords⟩
    · have hc := hinner rfl
      have hmove : word ++ (c :: text ++ tail) = (word ++ [c]) ++ (text ++ tail) := by simp
      rw [List.cons_append, readWords_inner hc, hmove] at hread
      exact List.forall_mem_cons.mpr ⟨hc, ih hread⟩
    · have hquote : ∀ d ∈ [c], d ∈ quotes := List.forall_mem_singleton.mpr hc
      have hrest' : readWords quoting' (some (word ++ [])) (text ++ back) =
          some ((word ++ ([c] ++ (text ++ tail))) :: others) := by
        rw [List.append_nil]
        exact hrest
      exact absurd hrest' (readWords_ne_of_length_lt hquote Nat.zero_lt_one hback)
    · have hnil := List.append_right_eq_self.mp (List.cons.inj hwords).1
      cases hnil

/-! ### Blanks between words -/

theorem words_blank (line : List Char) : words (' ' :: line) = words line := by
  rw [words, readWords, if_pos (.inl rfl)]
  exact congrFun Option.map_id (words line)

theorem readWords_blank (word line : List Char) :
    readWords .bare (some word) (' ' :: line) = (words line).map (word :: ·) := by
  rw [readWords, if_pos (.inl rfl)]
  rfl

/-- A word goes on with characters that the shell reads as themselves. -/
theorem Spells.append {front word text : List Char} (hfront : Spells front word)
    (htext : ∀ c ∈ text, IsInner c) : Spells (front ++ text) (word ++ text) := by
  intro rest
  rw [List.append_assoc, hfront, readWords_append htext]

end Escape.Shell

namespace Makefile

open Escape.Shell (IsInner IsInnerText IsLiteral Spells quoteWord readWords words)

/-! ### Dollar signs of a path -/

section Path

variable {directory : List Char}

theorem expand_blank (text : List Char) :
    expand directory 0 (' ' :: text) = (expand directory 0 text).map (' ' :: ·) := by
  rw [expand, if_pos (by decide)]

/-- A text without dollar signs passes make. In any other one a dollar sign makes way for one that
the shell would expand, or for the directory. -/
theorem expand_append_cases (hne : directory ≠ []) {text rest line : List Char}
    (hline : expand directory 0 (text ++ rest) = some line) :
    (∃ back, expand directory 0 rest = some back ∧ line = text ++ back) ∨
      ∃ front behind c back, text = front ++ '$' :: behind ∧ line = front ++ c :: back ∧
        (c = '$' ∨ c ∈ directory) := by
  induction text generalizing line with
  | nil => exact .inl ⟨line, hline, rfl⟩
  | cons d text ih =>
    rw [List.cons_append, expand] at hline
    split at hline
    · obtain ⟨line, hrest, rfl⟩ := Option.map_eq_some_iff.mp hline
      rcases ih hrest with ⟨back, hback, rfl⟩ | ⟨front, behind, c, back, rfl, rfl, hc⟩
      · exact .inl ⟨back, hback, rfl⟩
      · exact .inr ⟨d :: front, behind, c, back, rfl, rfl, hc⟩
    · next hd =>
      rw [Decidable.not_not.mp hd]
      split at hline
      · obtain ⟨back, -, rfl⟩ := Option.map_eq_some_iff.mp hline
        exact .inr ⟨[], text, '$', back, rfl, rfl, .inl rfl⟩
      · split at hline
        · obtain ⟨back, -, rfl⟩ := Option.map_eq_some_iff.mp hline
          obtain ⟨c, more, hmore⟩ := List.exists_cons_of_ne_nil hne
          refine .inr ⟨[], text, c, more ++ back, rfl, ?_, .inr (hmore ▸ List.mem_cons_self)⟩
          rw [hmore]
          rfl
        · cases hline

theorem head?_of_expand {rest back : List Char} (hrest : ∀ c ∈ rest.head?, c = ' ')
    (hback : expand directory 0 rest = some back) : ∀ c ∈ back.head?, c = ' ' := by
  cases rest with
  | nil =>
    obtain rfl := Option.some.inj hback
    nofun
  | cons c rest =>
    obtain rfl := hrest c rfl
    rw [expand_blank] at hback
    obtain ⟨line, -, rfl⟩ := Option.map_eq_some_iff.mp hback
    exact fun d hd ↦ (Option.some.inj hd).symm

theorem not_mem_quotes_of_isLiteral {c : Char} (hc : IsLiteral c) : c ∉ Escape.Shell.quotes := by
  have hquotes : Escape.Shell.quotes ⊆ Escape.Shell.marks := by decide
  exact fun hmem ↦ hc (hquotes hmem)

/-- A path that is read behind the directory as it was written has only characters that the shell
reads as themselves. -/
theorem isInner_of_expand (hne : directory ≠ []) (hdirectory : ∀ c ∈ directory, IsLiteral c)
    {path rest line : List Char} {others : List (List Char)} (hrest : ∀ c ∈ rest.head?, c = ' ')
    (hline : expand directory 0 (path ++ rest) = some line)
    (hread : readWords .bare (some directory) line = some ((directory ++ path) :: others)) :
    ∀ c ∈ path, IsInner c := by
  rcases expand_append_cases hne hline with ⟨back, hback, rfl⟩ |
    ⟨front, behind, c, back, rfl, rfl, hc⟩
  · have hblank : ∀ c ∈ back.head?, c ∉ Escape.Shell.quotes := fun c hc ↦ by
      rw [head?_of_expand hrest hback c hc]
      decide
    have hread' : readWords .bare (some directory) (path ++ back) =
        some ((directory ++ (path ++ [])) :: others) := by
      rw [List.append_nil]
      exact hread
    exact Escape.Shell.isInner_of_readWords hblank hread'
  · have hquote : c ∉ Escape.Shell.quotes := by
      rcases hc with rfl | hc
      · decide
      · exact not_mem_quotes_of_isLiteral (hdirectory c hc)
    have hback : ∀ d ∈ (c :: back).head?, d ∉ Escape.Shell.quotes := fun d hd ↦
      Option.some.inj hd ▸ hquote
    have hfront := Escape.Shell.isInner_of_readWords hback hread
    -- the dollar sign itself cannot be at its place, neither as such nor in the directory
    rw [Escape.Shell.readWords_append hfront] at hread
    rcases Escape.Shell.readWords_cons_cases hread with ⟨hinner, quoting', hread'⟩ | ⟨hmem, -⟩ |
      ⟨-, others', hwords⟩
    · have hbegins := Escape.Shell.prefix_of_readWords hread'
      rw [← List.append_assoc, List.prefix_append_right_inj, List.cons_prefix_cons] at hbegins
      rw [hbegins.1] at hinner
      exact absurd (hinner rfl) (by decide)
    · exact absurd hmem hquote
    · have heq := (List.cons.inj hwords).1
      rw [← List.append_assoc] at heq
      cases List.append_right_eq_self.mp heq

end Path

/-! ### Arguments -/

/-- An argument of a recipe: a fixed word, a path behind the directory of the help makefile, or a
quoted text. -/
inductive Argument
  | word (text : String) (isFixed : IsOrdinaryText text ∧ text ≠ "")
  | path (text : String)
  | quoted (text : String)

namespace Argument

/-- The argument in the recipe. -/
def text : Argument → List Char
  | word text _ => text.toList
  | path text => directoryReference.toList ++ text.toList
  | quoted text => doubleDollars (quoteWord text.toList)

/-- The argument that is meant, in a make that knows the directory of the help makefile. -/
def value (directory : List Char) : Argument → List Char
  | word text _ => text.toList
  | path text => directory ++ text.toList
  | quoted text => text.toList

/-- The shell reads the argument as it is written. -/
def Passes : Argument → Prop
  | path text => IsInnerText text
  | _ => True

@[simp] theorem text_word (text : String) (isFixed : IsOrdinaryText text ∧ text ≠ "") :
    (word text isFixed).text = text.toList := rfl

@[simp] theorem text_path (text : String) :
    (path text).text = directoryReference.toList ++ text.toList := rfl

@[simp] theorem text_quoted (text : String) :
    (quoted text).text = doubleDollars (quoteWord text.toList) := rfl

@[simp] theorem passes_word (text : String) (isFixed : IsOrdinaryText text ∧ text ≠ "") :
    (word text isFixed).Passes := trivial

@[simp] theorem passes_path (text : String) :
    (path text).Passes ↔ IsInnerText text := Iff.rfl

@[simp] theorem passes_quoted (text : String) : (quoted text).Passes := trivial

/-- What make leaves of an argument that passes is a word for the shell. -/
theorem exists_spells {directory : List Char} (hne : directory ≠ [])
    (hdirectory : ∀ c ∈ directory, IsLiteral c) {argument : Argument} (hpasses : argument.Passes) :
    ∃ spelling, Expands directory argument.text spelling ∧
      Spells spelling (argument.value directory) := by
  cases argument with
  | word text isFixed =>
    have hdollar : '$' ∉ text.toList := isFixed.1.lacks (by decide)
    exact ⟨_, .of_dollar_not_mem hdollar, Escape.Shell.spells_of_isOrdinaryText isFixed⟩
  | path text =>
    have hdollar : '$' ∉ text.toList := fun hmem ↦ absurd (hpasses '$' hmem) (by decide)
    exact ⟨_, Expands.reference.append (.of_dollar_not_mem hdollar),
      (Escape.Shell.spells_literals hdirectory hne).append hpasses⟩
  | quoted text => exact ⟨_, .doubleDollars _, Escape.Shell.spells_quoteWord text.toList⟩

end Argument

/-- Arguments in a recipe, with a blank before each of them. -/
def written (arguments : List Argument) : List Char :=
  arguments.flatMap fun argument ↦ ' ' :: argument.text

@[simp] theorem written_nil : written [] = [] := rfl

@[simp] theorem written_cons (argument : Argument) (arguments : List Argument) :
    written (argument :: arguments) = ' ' :: (argument.text ++ written arguments) := rfl

@[simp] theorem written_append (front back : List Argument) :
    written (front ++ back) = written front ++ written back :=
  List.flatMap_append

/-- The words that make and the shell read in the written arguments. -/
def received (directory : List Char) (arguments : List Argument) : Option (List (List Char)) :=
  (expand directory 0 (written arguments)).bind words

section Received

variable {directory : List Char}

theorem received_cons (argument : Argument) (arguments : List Argument) :
    received directory (argument :: arguments) =
      (expand directory 0 (argument.text ++ written arguments)).bind words := by
  rw [received, written_cons, expand_blank, Option.bind_map]
  exact congrArg _ (funext Escape.Shell.words_blank)

theorem head?_written (arguments : List Argument) : ∀ c ∈ (written arguments).head?, c = ' ' := by
  cases arguments with
  | nil => nofun
  | cons argument arguments => exact fun c hc ↦ (Option.some.inj hc).symm

/-- Behind a word, the written arguments are the next words. -/
theorem expand_written_bind (value : List Char) (arguments : List Argument) :
    (expand directory 0 (written arguments)).bind (readWords .bare (some value)) =
      (received directory arguments).map (value :: ·) := by
  cases arguments with
  | nil => rfl
  | cons argument arguments =>
    rw [received_cons, written_cons, expand_blank, Option.bind_map, Option.map_bind]
    exact congrArg _ (funext (Escape.Shell.readWords_blank value))

variable (hne : directory ≠ []) (hdirectory : ∀ c ∈ directory, IsLiteral c)
include hne hdirectory

theorem received_cons_of_passes {argument : Argument} (hpasses : argument.Passes)
    (arguments : List Argument) :
    received directory (argument :: arguments) =
      (received directory arguments).map (argument.value directory :: ·) := by
  obtain ⟨spelling, hexpands, hspells⟩ := argument.exists_spells hne hdirectory hpasses
  rw [received_cons, hexpands, Option.bind_map, ← expand_written_bind]
  exact congrArg _ (funext hspells)

theorem passes_of_received {argument : Argument} {arguments : List Argument}
    {others : List (List Char)}
    (hreceived : received directory (argument :: arguments) =
      some (argument.value directory :: others)) : argument.Passes := by
  cases argument with
  | word text isFixed => trivial
  | quoted text => trivial
  | path text =>
    rw [received_cons, Argument.text, List.append_assoc, Expands.reference, Option.bind_map]
      at hreceived
    obtain ⟨line, hline, hread⟩ := Option.bind_eq_some_iff.mp hreceived
    have hspells := Escape.Shell.spells_literals hdirectory hne line
    exact isInner_of_expand hne hdirectory (head?_written arguments) hline
      (hspells.symm.trans hread)

/-- Arguments are received as they are meant exactly if each of them passes. -/
theorem received_eq_some_iff (arguments : List Argument) :
    received directory arguments = some (arguments.map (Argument.value directory)) ↔
      ∀ argument ∈ arguments, argument.Passes := by
  induction arguments with
  | nil => exact iff_of_true rfl (List.forall_mem_nil _)
  | cons argument arguments ih =>
    rw [List.forall_mem_cons, ← ih, List.map_cons]
    constructor
    · intro hreceived
      have hpasses := passes_of_received hne hdirectory hreceived
      rw [received_cons_of_passes hne hdirectory hpasses] at hreceived
      obtain ⟨values, hvalues, heq⟩ := Option.map_eq_some_iff.mp hreceived
      exact ⟨hpasses, hvalues.trans (congrArg some (List.cons.inj heq).2)⟩
    · rintro ⟨hpasses, hreceived⟩
      rw [received_cons_of_passes hne hdirectory hpasses, hreceived]
      rfl

end Received

end Makefile

end HelpSheet
