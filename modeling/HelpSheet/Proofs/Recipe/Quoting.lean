import Mathlib.Data.List.Forall2
import Mathlib.Data.List.Infix
import HelpSheet.Proofs.Recipe.Layout

/-!
# Recipe lines before the shell

A statement of a recipe page passes make, which turns pairs of dollar signs into single ones
(`expandDollars`), and then stands between double quotes in the shell (`readQuotes`). No text of a
view ends the quotes or begins a command substitution with backticks. A dollar sign, though, is
escaped for make only: after make it stands unquoted before the shell, which expands it whenever the
next character of the line begins an expansion. So a statement can only print its line exactly when
the line holds no such pair of characters (`recipeStatements_inert_iff`).
-/

set_option autoImplicit false
set_option relaxedAutoImplicit false

namespace HelpSheet.Escape.Recipe

/-! ### What make leaves -/

/-- What make leaves of a recipe: a pair of dollar signs stands for one. A dollar sign outside a
pair begins a reference to a variable, which has no result here. -/
def expandDollars : List Char → Option (List Char)
  | [] => some []
  | '$' :: '$' :: rest => (expandDollars rest).map ('$' :: ·)
  | '$' :: _ => none
  | c :: rest => (expandDollars rest).map (c :: ·)

/-- The escaped form of a character after make has read it. -/
def shellForm (c : Char) : List Char :=
  if c = '$' then ['$'] else escapeChar c

theorem shellForm_eq_self {c : Char} (hplain : c ∉ special) : shellForm c = [c] := by
  have hdollar : c ≠ '$' := fun h ↦ hplain (h ▸ List.mem_cons_self)
  rw [shellForm, if_neg hdollar, escapeChar_eq_self hplain]

theorem expandDollars_cons {c : Char} (hc : c ≠ '$') (rest : List Char) :
    expandDollars (c :: rest) = (expandDollars rest).map (c :: ·) := by
  rw [expandDollars.eq_def (c :: rest)]
  split <;> simp_all

theorem expandDollars_escapeChar_append (c : Char) (rest : List Char) :
    expandDollars (escapeChar c ++ rest) = (expandDollars rest).map (shellForm c ++ ·) := by
  induction c using charCases with
  | plain c hplain =>
    have hdollar : c ≠ '$' := fun h ↦ hplain (h ▸ List.mem_cons_self)
    rw [escapeChar_eq_self hplain, shellForm_eq_self hplain]
    exact expandDollars_cons hdollar rest
  | dollar => rfl
  | _ => simp [escapeChar, shellForm, expandDollars, Function.comp_def]

/-- Every dollar sign of an escaped text is half of a pair. -/
theorem expandDollars_escape (text : List Char) :
    expandDollars (escape text) = some (text.flatMap shellForm) := by
  induction text with
  | nil => rfl
  | cons c rest ih => rw [escape_cons, expandDollars_escapeChar_append, ih]; rfl

/-! ### What the shell reads between double quotes -/

/-- A character between double quotes, and whether a backslash quotes it. -/
structure Symbol where
  char : Char
  isQuoted : Bool
  deriving DecidableEq, Repr

/-- The characters that a backslash quotes between double quotes. -/
def quotable : List Char := ['$', '\x60', '\x22', '\\', '\n']

/-- The characters between double quotes as the shell reads them. A backslash before a character
that it cannot quote stands for itself. -/
def readQuotes : List Char → List Symbol
  | '\\' :: c :: rest =>
    if c ∈ quotable then ⟨c, true⟩ :: readQuotes rest
    else ⟨'\\', false⟩ :: readQuotes (c :: rest)
  | c :: rest => ⟨c, false⟩ :: readQuotes rest
  | [] => []

/-- The symbols of a character's escaped form. -/
def symbolsOf (c : Char) : List Symbol :=
  if c ∈ ['\x22', '\\', '\x60'] then [⟨c, true⟩] else (shellForm c).map (⟨·, false⟩)

theorem symbolsOf_eq_self {c : Char} (hplain : c ∉ special) : symbolsOf c = [⟨c, false⟩] := by
  have hquoted : c ∉ ['\x22', '\\', '\x60'] := fun h ↦ hplain (by
    revert h
    simp only [special, List.mem_cons, List.not_mem_nil, or_false]
    tauto)
  rw [symbolsOf, if_neg hquoted, shellForm_eq_self hplain]
  rfl

theorem readQuotes_cons {c : Char} (hc : c ≠ '\\') (rest : List Char) :
    readQuotes (c :: rest) = ⟨c, false⟩ :: readQuotes rest := by
  rw [readQuotes.eq_def (c :: rest)]
  split <;> simp_all

theorem readQuotes_shellForm_append (c : Char) (rest : List Char) :
    readQuotes (shellForm c ++ rest) = symbolsOf c ++ readQuotes rest := by
  induction c using charCases with
  | plain c hplain =>
    have hbackslash : c ≠ '\\' := fun h ↦ hplain (h ▸ by decide)
    rw [shellForm_eq_self hplain, symbolsOf_eq_self hplain]
    exact readQuotes_cons hbackslash rest
  | _ => simp [shellForm, escapeChar, symbolsOf, readQuotes, quotable]

theorem readQuotes_flatMap_shellForm_append (text rest : List Char) :
    readQuotes (text.flatMap shellForm ++ rest) = text.flatMap symbolsOf ++ readQuotes rest := by
  induction text with
  | nil => rfl
  | cons c text ih =>
    rw [List.flatMap_cons, List.append_assoc, readQuotes_shellForm_append, ih, List.flatMap_cons,
      List.append_assoc]

theorem readQuotes_flatMap_shellForm (text : List Char) :
    readQuotes (text.flatMap shellForm) = text.flatMap symbolsOf := by
  simpa [readQuotes] using readQuotes_flatMap_shellForm_append text []

/-! ### Texts that can only be printed -/

/-- The characters that begin an expansion after an unquoted dollar sign. -/
def startsExpansion (c : Char) : Bool :=
  c.isAlphanum || ['(', '{', '_', '@', '*', '#', '?', '-', '$', '!'].contains c

/-- The shell finds nothing to do between the quotes: they are not ended, no backtick begins a
command, and no dollar sign begins an expansion. -/
structure Inert (symbols : List Symbol) : Prop where
  quotes : ⟨'\x22', false⟩ ∉ symbols
  backticks : ⟨'\x60', false⟩ ∉ symbols
  expansions : ∀ c, startsExpansion c → ¬ [⟨'$', false⟩, ⟨c, false⟩] <:+: symbols

/-- A dollar sign stands before a character that begins an expansion. -/
def HasExpansion (text : List Char) : Prop :=
  ∃ c, startsExpansion c ∧ ['$', c] <:+: text

theorem unquoted_not_mem_symbolsOf {d : Char} (hd : d ∈ ['\x22', '\x60']) (c : Char) :
    ⟨d, false⟩ ∉ symbolsOf c := by
  induction c using charCases with
  | plain c hplain =>
    rw [symbolsOf_eq_self hplain, List.mem_singleton]
    intro hequal
    injection hequal with hchar
    subst hchar
    revert hd
    simp only [special, List.mem_cons, List.not_mem_nil, or_false] at hplain ⊢
    tauto
  | _ => rcases List.mem_pair.mp hd with rfl | rfl <;> decide

/-- No quote and no backtick of a text is left unquoted. -/
theorem unquoted_not_mem_flatMap_symbolsOf {d : Char} (hd : d ∈ ['\x22', '\x60'])
    (text : List Char) : ⟨d, false⟩ ∉ text.flatMap symbolsOf := by
  intro hmem
  obtain ⟨c, -, hc⟩ := List.mem_flatMap.mp hmem
  exact unquoted_not_mem_symbolsOf hd c hc

theorem pair_infix_append {α : Type} {first second : α} {front : List α} (hfront : first ∉ front)
    (rest : List α) : [first, second] <:+: front ++ rest ↔ [first, second] <:+: rest := by
  induction front with
  | nil => rfl
  | cons a front ih =>
    rw [List.mem_cons, not_or] at hfront
    rw [List.cons_append, List.infix_cons_iff, ih hfront.2, List.cons_prefix_cons]
    tauto

theorem dollar_not_mem_symbolsOf {c : Char} (hc : c ≠ '$') : ⟨'$', false⟩ ∉ symbolsOf c := by
  induction c using charCases with
  | plain c hplain =>
    rw [symbolsOf_eq_self hplain, List.mem_singleton]
    intro hequal
    injection hequal with hchar
    exact hc hchar.symm
  | dollar => exact absurd rfl hc
  | _ => decide

/-- Of the special characters only the dollar sign begins an expansion. -/
theorem eq_dollar_of_startsExpansion : ∀ c ∈ special, startsExpansion c → c = '$' :=
  List.all_iff_forall_prop.mp (by decide)

/-- A character that begins expansions is the first symbol of its own form only. -/
theorem singleton_prefix_symbolsOf_append {c d : Char} (hc : startsExpansion c)
    (rest : List Symbol) : [⟨c, false⟩] <+: symbolsOf d ++ rest ↔ c = d := by
  have hne : ∀ e ∈ special, e ≠ '$' → c ≠ e := by
    rintro e he hdollar rfl
    exact hdollar (eq_dollar_of_startsExpansion c he hc)
  induction d using charCases with
  | plain d hplain =>
    rw [symbolsOf_eq_self hplain, List.singleton_append, List.cons_prefix_cons]
    simp
  | _ =>
    simp [symbolsOf, shellForm, escapeChar, List.cons_prefix_cons, hne '\\' (by decide),
      hne '\x22' (by decide), hne '\x60' (by decide), hne '\n' (by decide),
      hne '\r' (by decide), hne '\t' (by decide), hne '\x1b' (by decide)]

theorem pair_infix_flatMap_symbolsOf {c : Char} (hc : startsExpansion c) (text : List Char) :
    [⟨'$', false⟩, ⟨c, false⟩] <:+: text.flatMap symbolsOf ↔ ['$', c] <:+: text := by
  induction text with
  | nil => simp
  | cons d rest ih =>
    rw [List.flatMap_cons, List.infix_cons_iff, ← ih]
    by_cases hd : d = '$'
    · subst hd
      have hnext : [⟨c, false⟩] <+: rest.flatMap symbolsOf ↔ [c] <+: rest := by
        cases rest with
        | nil => simp
        | cons e rest =>
          rw [List.flatMap_cons, singleton_prefix_symbolsOf_append hc, List.cons_prefix_cons]
          simp
      rw [show symbolsOf '$' = [⟨'$', false⟩] from rfl, List.singleton_append,
        List.infix_cons_iff, List.cons_prefix_cons, List.cons_prefix_cons, hnext]
      simp
    · rw [pair_infix_append (dollar_not_mem_symbolsOf hd), List.cons_prefix_cons]
      simp [Ne.symm hd]

/-- The escaped form of a text is inert exactly when the text holds no expansion. -/
theorem inert_flatMap_symbolsOf_iff (text : List Char) :
    Inert (text.flatMap symbolsOf) ↔ ¬ HasExpansion text := by
  constructor
  · rintro hinert ⟨c, hc, hpair⟩
    exact hinert.expansions c hc ((pair_infix_flatMap_symbolsOf hc text).mpr hpair)
  · intro hexpansion
    refine ⟨unquoted_not_mem_flatMap_symbolsOf (by decide) text,
      unquoted_not_mem_flatMap_symbolsOf (by decide) text, fun c hc hpair ↦ ?_⟩
    exact hexpansion ⟨c, hc, (pair_infix_flatMap_symbolsOf hc text).mp hpair⟩

end HelpSheet.Escape.Recipe

namespace HelpSheet.Page

open Escape.Recipe (expandDollars readQuotes Inert HasExpansion)

/-- Make accepts the payload of the statement, and the shell can do nothing with what make leaves
of it but pass it on. -/
def IsInertStatement (text : String) : Prop :=
  ∃ payload expanded, text = Text.statement payload ∧
    expandDollars payload.toList = some expanded ∧ Inert (readQuotes expanded)

theorem statement_injective {first second : String}
    (hequal : Text.statement first = Text.statement second) : first = second := by
  have hlists := congrArg String.toList hequal
  rw [statement_toList, statement_toList] at hlists
  have hpayloads := List.append_cancel_right (List.append_cancel_right hlists)
  exact String.toList_inj.mp (List.append_cancel_left hpayloads)

theorem expandDollars_escaped (line : String) :
    expandDollars (Escape.Recipe.escaped line).toList =
      some (line.toList.flatMap Escape.Recipe.shellForm) := by
  rw [Escape.Recipe.escaped, String.toList_ofList, Escape.Recipe.expandDollars_escape]

theorem isInertStatement_statement_iff (line : String) :
    IsInertStatement (Text.statement (Escape.Recipe.escaped line)) ↔
      ¬ HasExpansion line.toList := by
  rw [← Escape.Recipe.inert_flatMap_symbolsOf_iff,
    ← Escape.Recipe.readQuotes_flatMap_shellForm]
  constructor
  · rintro ⟨payload, expanded, hpayload, hexpanded, hinert⟩
    rw [← statement_injective hpayload, expandDollars_escaped, Option.some_inj] at hexpanded
    rwa [hexpanded]
  · intro hinert
    exact ⟨_, _, rfl, expandDollars_escaped line, hinert⟩

/-- Every statement of a recipe page passes make. Before the shell no quote and no backtick of its
text is unquoted, and the quote behind the text is, so that it ends the text. The statement can only
print its line exactly when no dollar sign of the line stands before a character that begins an
expansion. -/
theorem recipeStatements_inert_iff (options : Options) (workingDirectory : String)
    (view : View) :
    List.Forall₂
      (fun statement line ↦
        (∃ payload expanded, statement = Text.statement payload ∧
          expandDollars payload.toList = some expanded ∧
          ⟨'\x22', false⟩ ∉ readQuotes expanded ∧ ⟨'\x60', false⟩ ∉ readQuotes expanded ∧
          readQuotes (expanded ++ ['\x22']) = readQuotes expanded ++ [⟨'\x22', false⟩]) ∧
        (IsInertStatement statement ↔ ¬ HasExpansion line.toList))
      (((Renderer.mk .make options).chunks workingDirectory view).map Chunk.text)
      (shownLines options workingDirectory view) := by
  rw [recipeChunks_text, List.forall₂_map_left_iff, List.forall₂_same]
  intro line _
  refine ⟨⟨_, _, rfl, expandDollars_escaped line, ?_⟩, isInertStatement_statement_iff line⟩
  rw [Escape.Recipe.readQuotes_flatMap_shellForm_append,
    Escape.Recipe.readQuotes_flatMap_shellForm]
  exact ⟨Escape.Recipe.unquoted_not_mem_flatMap_symbolsOf (by decide) line.toList,
    Escape.Recipe.unquoted_not_mem_flatMap_symbolsOf (by decide) line.toList, rfl⟩

/-- A target called `$(id)` makes the shell run `id` when its help is printed. -/
theorem not_forall_isInertStatement :
    ¬ ∀ (options : Options) (workingDirectory : String) (view : View),
      ∀ chunk ∈ (Renderer.mk .make options).chunks workingDirectory view,
        IsInertStatement chunk.text := by
  intro hall
  have hchunks : ∀ text ∈ ((Renderer.mk .make {}).chunks "/" (.basic "$(id)" "" 0)).map
      Chunk.text, IsInertStatement text := by
    intro text htext
    obtain ⟨chunk, hchunk, rfl⟩ := List.mem_map.mp htext
    exact hall {} "/" (.basic "$(id)" "" 0) chunk hchunk
  have hline : "Target: $(id)" ∈ shownLines {} "/" (.basic "$(id)" "" 0) := by decide
  rw [recipeChunks_text] at hchunks
  have hinert := hchunks _ (List.mem_map_of_mem hline)
  exact (isInertStatement_statement_iff "Target: $(id)").mp hinert ⟨'(', rfl, by decide⟩

end HelpSheet.Page
