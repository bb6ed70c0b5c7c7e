import HelpSheet.Command.Outcome
import HelpSheet.Log.Session
import Mathlib.Data.List.TakeWhile
import Mathlib.Data.Nat.Digits.Defs
import Mathlib.Tactic.Ring

/-!
# The level in the environment

A text asks for a level by name or as a number in decimal digits of any script (`Asks`), and then it
is read as this level. Other texts ask for none, with two exceptions: texts of digits that are not
all decimal, or are too many, cannot be read at all (`IsUnreadable`). The log is set up alike with
and without the level of the environment given to it, unless the environment asks for zero
(`environment_level_iff`).
-/

set_option autoImplicit false
set_option relaxedAutoImplicit false

namespace HelpSheet.Text

/-! ### Decimal numbers -/

/-- Characters that are decimal digits denote the number with their values as its digits. -/
def DenotesNumber (text : List Char) (number : Nat) : Prop :=
  ∃ values : List Nat, text.map decimalValue? = values.map some ∧
    number = Nat.ofDigits 10 values.reverse

/-- The first of several digits, taken together with a value to the left of it. -/
theorem ofDigits_reverse_cons (digit value : Nat) (values : List Nat) :
    Nat.ofDigits 10 (digit :: values).reverse + 10 ^ (digit :: values).length * value =
      Nat.ofDigits 10 values.reverse + 10 ^ values.length * (10 * value + digit) := by
  rw [List.reverse_cons, Nat.ofDigits_append, List.length_cons, List.length_reverse,
    Nat.ofDigits_singleton]
  ring

/-- Digits that are read onto a value move it to the left. -/
theorem readDecimal_eq_some_iff {value number : Nat} {text : List Char} :
    readDecimal value text = some number ↔
      ∃ values : List Nat, text.map decimalValue? = values.map some ∧
        number = Nat.ofDigits 10 values.reverse + 10 ^ values.length * value := by
  induction text generalizing value with
  | nil =>
    rw [readDecimal, Option.some_inj]
    constructor
    · rintro rfl
      exact ⟨[], rfl, by simp⟩
    · rintro ⟨values, hvalues, rfl⟩
      obtain rfl := List.map_eq_nil_iff.mp hvalues.symm
      simp
  | cons c rest ih =>
    rw [readDecimal, List.map_cons]
    cases hdigit : decimalValue? c with
    | none =>
      refine iff_of_false nofun ?_
      rintro ⟨_ | ⟨digit, values⟩, hvalues, -⟩
      · cases hvalues
      · cases hvalues
    | some digit =>
      rw [ih]
      constructor
      · rintro ⟨values, hvalues, rfl⟩
        exact ⟨digit :: values, by rw [hvalues, List.map_cons],
          (ofDigits_reverse_cons digit value values).symm⟩
      · rintro ⟨_ | ⟨first, values⟩, hvalues, rfl⟩
        · cases hvalues
        · obtain ⟨⟨rfl⟩, hrest⟩ := List.cons.inj hvalues
          exact ⟨values, hrest, ofDigits_reverse_cons digit value values⟩

theorem readDecimal_zero_eq_some_iff {text : List Char} {number : Nat} :
    readDecimal 0 text = some number ↔ DenotesNumber text number := by
  simp only [readDecimal_eq_some_iff, Nat.mul_zero, Nat.add_zero, DenotesNumber]

theorem readDecimal_eq_none_iff {value : Nat} {text : List Char} :
    readDecimal value text = none ↔ ∃ c ∈ text, decimalValue? c = none := by
  induction text generalizing value with
  | nil => simp [readDecimal]
  | cons c rest ih =>
    rw [readDecimal]
    cases hdigit : decimalValue? c with
    | none => simp [hdigit]
    | some digit => simp [hdigit, ih]

theorem isDigit_of_decimalValue? {c : Char} (hdecimal : decimalValue? c ≠ none) :
    isDigit c = true := by
  rw [isDigit, Option.isSome_iff_ne_none.mpr hdecimal, Bool.true_or]

end HelpSheet.Text

namespace HelpSheet.Log

open HelpSheet.Text (DenotesNumber decimalValue? isDigit readDecimal)
open HelpSheet.Text.Numeral (maxDigits)

/-! ### What a text asks for -/

/-- A text, which is trimmed and raised before, asks for a level. -/
inductive Asks (name : List Char) : Level → Prop
  | named {level : Level} : (String.ofList name, level) ∈ levelNames → Asks name level
  | number {number : Nat} : name ≠ [] → DenotesNumber name number → Asks name number

/-- A text of digits that are not all decimal, or too many. -/
structure IsUnreadable (name : List Char) : Prop where
  ne_nil : name ≠ []
  isDigit : ∀ c ∈ name, isDigit c = true
  reason : (∃ c ∈ name, decimalValue? c = none) ∨ maxDigits < name.length

theorem lookup_levelNames_iff {name : String} {level : Level} :
    levelNames.lookup name = some level ↔ (name, level) ∈ levelNames := by
  constructor
  · intro hlookup
    obtain ⟨front, back, hnames, -⟩ := List.lookup_eq_some_iff.mp hlookup
    rw [hnames]
    exact List.mem_append_right _ List.mem_cons_self
  · have hunique : ∀ entry ∈ levelNames, levelNames.lookup entry.1 = some entry.2 := by decide
    exact hunique (name, level)

/-- The names of levels have no digits. -/
theorem not_mem_levelNames {name : List Char} (hname : ∀ c ∈ name, isDigit c = true)
    (level : Level) : (String.ofList name, level) ∉ levelNames := by
  have hnames : ∀ entry ∈ levelNames, entry.1.toList.all isDigit = false := by decide
  intro hmem
  have hall := hnames _ hmem
  rw [String.toList_ofList, List.all_eq_true.mpr hname] at hall
  cases hall

/-- A text of digits denotes a number exactly where all its digits are decimal. -/
theorem exists_denotesNumber_iff {text : List Char} :
    (∃ number, DenotesNumber text number) ↔ ∀ c ∈ text, decimalValue? c ≠ none := by
  simp only [← Text.readDecimal_zero_eq_some_iff]
  rw [← Option.isSome_iff_exists, Option.isSome_iff_ne_none, Ne, Text.readDecimal_eq_none_iff]
  simp only [not_exists, not_and]

/-! ### Reading -/

theorem levelOfDigits_of_none {digits : List Char} (hread : readDecimal 0 digits = none) :
    ∃ fault, levelOfDigits digits = .error fault := by
  unfold levelOfDigits
  rw [hread]
  dsimp only
  cases Text.Numeral.tooLong? maxDigits
      (digits.takeWhile fun c ↦ (decimalValue? c).isSome).length with
  | none => exact ⟨_, rfl⟩
  | some error => exact ⟨_, rfl⟩

theorem levelOfDigits_of_some {digits : List Char} {number : Nat}
    (hread : readDecimal 0 digits = some number) :
    levelOfDigits digits =
      if digits.length ≤ maxDigits then .ok (number : Level)
      else .error (.tooLong ⟨maxDigits, digits.length⟩) := by
  have hdecimal : ∀ c ∈ digits, (decimalValue? c).isSome = true := by
    intro c hc
    rw [Option.isSome_iff_ne_none]
    exact exists_denotesNumber_iff.mp ⟨number, Text.readDecimal_zero_eq_some_iff.mp hread⟩ c hc
  unfold levelOfDigits
  dsimp only
  rw [List.takeWhile_eq_self_iff.mpr hdecimal, hread]
  unfold Text.Numeral.tooLong?
  by_cases hlength : digits.length ≤ maxDigits
  · rw [if_pos hlength, if_pos hlength]
  · rw [if_neg hlength, if_neg hlength]

theorem levelOfDigits_eq_ok_iff {digits : List Char} {level : Level} :
    levelOfDigits digits = .ok level ↔
      digits.length ≤ maxDigits ∧ ∃ number : Nat, DenotesNumber digits number ∧ level = number := by
  simp only [← Text.readDecimal_zero_eq_some_iff]
  cases hread : readDecimal 0 digits with
  | none =>
    obtain ⟨fault, hfault⟩ := levelOfDigits_of_none hread
    simp [hfault]
  | some number =>
    rw [levelOfDigits_of_some hread]
    by_cases hlength : digits.length ≤ maxDigits
    · simp [hlength, eq_comm]
    · simp [hlength]

/-- A text as it is read: trimmed and raised. -/
def plainName (raw : String) : List Char :=
  Text.upper (Text.trim raw.toList)

section Reading

variable {raw : String} {name : List Char} {level : Level}

theorem levelOfText?_of_nil (hname : plainName raw = []) : levelOfText? raw = .ok none := by
  unfold plainName at hname
  simp [levelOfText?, hname]

theorem levelOfText?_of_digits (hname : plainName raw ≠ [])
    (hdigits : ∀ c ∈ plainName raw, isDigit c = true) :
    levelOfText? raw = (levelOfDigits (plainName raw)).map some := by
  unfold plainName at *
  have hall := List.all_eq_true.mpr hdigits
  simp [levelOfText?, hname, hall]

theorem levelOfText?_of_not_digits (hdigits : ¬ ∀ c ∈ plainName raw, isDigit c = true) :
    levelOfText? raw = .ok (levelNames.lookup (String.ofList (plainName raw))) := by
  unfold plainName at *
  have hname : Text.upper (Text.trim raw.toList) ≠ [] := by
    intro hnil
    rw [hnil] at hdigits
    exact hdigits (List.forall_mem_nil _)
  have hall := mt List.all_eq_true.mp hdigits
  simp [levelOfText?, hname, hall]

theorem asks_nil : ¬ Asks [] level := by
  rintro (hnamed | ⟨hname, -⟩)
  · exact not_mem_levelNames (List.forall_mem_nil _) level hnamed
  · exact hname rfl

theorem asks_digits_iff (hname : name ≠ []) (hdigits : ∀ c ∈ name, isDigit c = true) :
    Asks name level ↔ ∃ number : Nat, DenotesNumber name number ∧ level = number := by
  constructor
  · rintro (hnamed | ⟨-, hnumber⟩)
    · exact absurd hnamed (not_mem_levelNames hdigits level)
    · exact ⟨_, hnumber, rfl⟩
  · rintro ⟨number, hnumber, rfl⟩
    exact .number hname hnumber

theorem asks_other_iff (hdigits : ¬ ∀ c ∈ name, isDigit c = true) :
    Asks name level ↔ (String.ofList name, level) ∈ levelNames := by
  constructor
  · rintro (hnamed | ⟨-, hnumber⟩)
    · exact hnamed
    · have hdecimal := exists_denotesNumber_iff.mp ⟨_, hnumber⟩
      exact absurd (fun c hc ↦ Text.isDigit_of_decimalValue? (hdecimal c hc)) hdigits
  · exact .named

theorem isUnreadable_digits_iff (hname : name ≠ []) (hdigits : ∀ c ∈ name, isDigit c = true) :
    ¬ IsUnreadable name ↔
      (∃ number, DenotesNumber name number) ∧ name.length ≤ maxDigits := by
  rw [exists_denotesNumber_iff]
  constructor
  · intro hreadable
    have hreason := fun hreason ↦ hreadable ⟨hname, hdigits, hreason⟩
    rw [imp_false, not_or, not_exists, not_lt] at hreason
    exact ⟨fun c hc hnone ↦ hreason.1 c ⟨hc, hnone⟩, hreason.2⟩
  · rintro ⟨hdecimal, hlength⟩ ⟨-, -, ⟨c, hc, hnone⟩ | hlong⟩
    · exact hdecimal c hc hnone
    · exact absurd hlong (not_lt.mpr hlength)

/-- A text that can be read is read as the level that it asks for. -/
theorem levelOfText?_eq_some_iff :
    levelOfText? raw = .ok (some level) ↔
      ¬ IsUnreadable (plainName raw) ∧ Asks (plainName raw) level := by
  -- The cases of the reader: no text, digits only, anything else.
  by_cases hname : plainName raw = []
  · rw [levelOfText?_of_nil hname, hname]
    exact iff_of_false nofun fun hasks ↦ asks_nil hasks.2
  by_cases hdigits : ∀ c ∈ plainName raw, isDigit c = true
  · have hmap : (levelOfDigits (plainName raw)).map some = .ok (some level) ↔
        levelOfDigits (plainName raw) = .ok level := by
      cases levelOfDigits (plainName raw) <;> simp [Except.map]
    rw [levelOfText?_of_digits hname hdigits, isUnreadable_digits_iff hname hdigits,
      asks_digits_iff hname hdigits, hmap, levelOfDigits_eq_ok_iff]
    constructor
    · rintro ⟨hlength, number, hnumber, rfl⟩
      exact ⟨⟨⟨number, hnumber⟩, hlength⟩, number, hnumber, rfl⟩
    · rintro ⟨⟨-, hlength⟩, hnumber⟩
      exact ⟨hlength, hnumber⟩
  · rw [levelOfText?_of_not_digits hdigits, asks_other_iff hdigits, Except.ok.injEq,
      lookup_levelNames_iff]
    exact (and_iff_right fun hunreadable ↦ hdigits hunreadable.isDigit).symm

theorem levelOfText?_eq_error_iff :
    (∃ fault, levelOfText? raw = .error fault) ↔ IsUnreadable (plainName raw) := by
  by_cases hname : plainName raw = []
  · rw [levelOfText?_of_nil hname]
    exact iff_of_false nofun fun hunreadable ↦ hunreadable.ne_nil hname
  by_cases hdigits : ∀ c ∈ plainName raw, isDigit c = true
  · have hread : (∃ level, levelOfDigits (plainName raw) = .ok level) ↔
        ¬ IsUnreadable (plainName raw) := by
      simp only [levelOfDigits_eq_ok_iff]
      rw [isUnreadable_digits_iff hname hdigits]
      constructor
      · rintro ⟨level, hlength, number, hnumber, rfl⟩
        exact ⟨⟨number, hnumber⟩, hlength⟩
      · rintro ⟨⟨number, hnumber⟩, hlength⟩
        exact ⟨number, hlength, number, hnumber, rfl⟩
    rw [levelOfText?_of_digits hname hdigits, ← not_iff_not, ← hread]
    cases levelOfDigits (plainName raw) <;> simp [Except.map]
  · rw [levelOfText?_of_not_digits hdigits]
    exact iff_of_false nofun fun hunreadable ↦ hdigits hunreadable.isDigit

theorem levelOfText?_eq_none_iff :
    levelOfText? raw = .ok none ↔
      ¬ IsUnreadable (plainName raw) ∧ ∀ level, ¬ Asks (plainName raw) level := by
  cases hread : levelOfText? raw with
  | error fault =>
    have hunreadable := levelOfText?_eq_error_iff.mp ⟨fault, hread⟩
    exact iff_of_false nofun fun hnone ↦ hnone.1 hunreadable
  | ok asked =>
    cases asked with
    | some level =>
      have hasks := (levelOfText?_eq_some_iff.mp hread).2
      exact iff_of_false nofun fun hnone ↦ hnone.2 level hasks
    | none =>
      have hreadable : ¬ IsUnreadable (plainName raw) := by
        rw [← levelOfText?_eq_error_iff, hread]
        rintro ⟨fault, ⟨⟩⟩
      refine iff_of_true rfl ⟨hreadable, fun level hasks ↦ ?_⟩
      have hsome := levelOfText?_eq_some_iff.mpr ⟨hreadable, hasks⟩
      rw [hread] at hsome
      cases hsome

end Reading

/-! ### Setting up the log -/

/-- The text that the environment has for the level. -/
def levelText (environment : Environment) : String :=
  (environment.get? levelVariable).getD ""

namespace Session

/-- What a setup installs: the level and the form of lines. -/
def installed (session : Session) : Level × Option LineForm :=
  (session.level, session.output.map Output.form)

/-- The setup of the program, which is given the level that the environment asks for. -/
def setupAsked (session : Session) (environment : Environment) :
    Except LevelFault Level × Session :=
  match levelOfEnvironment? environment with
  | .ok asked => session.setup asked environment
  | .error fault => (.error fault, session)

variable {session : Session} {environment : Environment}

theorem installed_setup_of_ok {given : Option Level} {level : Level}
    (hlevel : effectiveLevel given environment = .ok level) :
    (session.setup given environment).2.installed = (level, some (.ofLevel level)) := by
  rw [setup, hlevel]
  rfl

theorem setups_agree_iff :
    (session.setup none environment).2.installed = (session.setupAsked environment).2.installed ↔
      levelOfEnvironment? environment ≠ .ok (some 0) := by
  rw [setupAsked]
  cases hasked : levelOfEnvironment? environment with
  | error fault =>
    have hfault : effectiveLevel none environment = .error fault := by rw [effectiveLevel, hasked]
    refine iff_of_true ?_ nofun
    rw [setup, hfault]
    rfl
  | ok asked =>
    cases asked with
    | none => exact iff_of_true rfl nofun
    | some level =>
      have hgiven : effectiveLevel (some level) environment = .ok level := rfl
      have hnone : effectiveLevel none environment =
          .ok (if level = 0 then .critical else level) := by
        rw [effectiveLevel, hasked]
      dsimp only
      rw [installed_setup_of_ok hnone, installed_setup_of_ok hgiven]
      by_cases hzero : level = 0
      · subst hzero
        exact iff_of_false (by decide) (fun hne ↦ hne rfl)
      · rw [if_neg hzero]
        refine iff_of_true rfl fun hequal ↦ hzero ?_
        cases hequal
        rfl

/-- The setup of the program installs the level from which its reports show notes. -/
theorem setupAsked_eq (session : Session) (environment : Environment) :
    (session.setupAsked environment).1 =
      (levelOfEnvironment? environment).map fun _ ↦ Command.Report.shownLevel environment := by
  unfold setupAsked Command.Report.shownLevel
  cases hasked : levelOfEnvironment? environment with
  | error fault => rfl
  | ok asked =>
    cases asked with
    | some level => rfl
    | none =>
      have hnone : effectiveLevel none environment = .ok .critical := by
        rw [effectiveLevel, hasked]
      dsimp only
      rw [setup, hnone]
      rfl

end Session

/-- Reading the level fails exactly on the texts that cannot be read, and otherwise ends with the
level that the text asks for, if it asks for one. The setup without a level and that of the program
install the same unless the environment asks for zero, where the first one takes the level of
critical notes. -/
theorem environment_level_iff (environment : Environment) (session : Session) :
    let name := plainName (levelText environment)
    ((∃ fault, levelOfEnvironment? environment = .error fault) ↔ IsUnreadable name) ∧
    (∀ level, levelOfEnvironment? environment = .ok (some level) ↔
      ¬ IsUnreadable name ∧ Asks name level) ∧
    (levelOfEnvironment? environment = .ok none ↔
      ¬ IsUnreadable name ∧ ∀ level, ¬ Asks name level) ∧
    ((session.setup none environment).2.installed =
        (session.setupAsked environment).2.installed ↔
      IsUnreadable name ∨ ¬ Asks name 0) ∧
    (session.setupAsked environment).1 =
      (levelOfEnvironment? environment).map fun _ ↦ Command.Report.shownLevel environment := by
  have hzero : levelOfEnvironment? environment ≠ .ok (some 0) ↔
      IsUnreadable (plainName (levelText environment)) ∨
        ¬ Asks (plainName (levelText environment)) 0 := by
    rw [← not_iff_not, not_not, not_or, not_not]
    exact levelOfText?_eq_some_iff
  exact ⟨levelOfText?_eq_error_iff, fun _ ↦ levelOfText?_eq_some_iff, levelOfText?_eq_none_iff,
    Session.setups_agree_iff.trans hzero, Session.setupAsked_eq session environment⟩

/-- The level of critical notes instead of zero. -/
example : (Session.initial.setup none ⟨[(levelVariable, "0")]⟩).2.installed ≠
    (Session.initial.setupAsked ⟨[(levelVariable, "0")]⟩).2.installed := by
  decide +kernel

/-- A superscript is a digit but no decimal one, so it cannot be read. -/
theorem not_forall_environment_level :
    ¬ ∀ (environment : Environment) (session : Session),
      (∃ asked, levelOfEnvironment? environment = .ok asked ∧
        ∀ level, asked = some level ↔ Asks (plainName (levelText environment)) level) ∧
      (session.setup none environment).2.installed =
        (session.setupAsked environment).2.installed := by
  intro hall
  obtain ⟨⟨asked, hasked, -⟩, -⟩ := hall ⟨[(levelVariable, "²")]⟩ .initial
  have hfault : levelOfEnvironment? ⟨[(levelVariable, "²")]⟩ = .error (.notDecimal "²") := by
    decide +kernel
  rw [hfault] at hasked
  cases hasked

end HelpSheet.Log
