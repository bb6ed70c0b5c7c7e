import Mathlib.Data.List.TakeDrop
import Mathlib.Data.List.TakeWhile
import HelpSheet.Command.Invocation

/-!
# Readers of arguments

What is used of the way arguments are read is little (`ReadsForms`): the argument behind the long
name of an option is its value, an argument without a hyphen in front is positional, and one with a
hyphen and a slash takes nothing from the next argument. The reader of the program reads the options
of well-named forms so (`readsForms_readArguments`).
-/

set_option autoImplicit false
set_option relaxedAutoImplicit false

namespace HelpSheet.Command

/-- What is used of a reader of arguments that knows the given forms of options. Where `mixed` is
false, the first positional argument ends the options. -/
structure ReadsForms {κ : Type} (forms : List (OptionForm κ)) (mixed : Bool)
    (read : List String → Except UsageFault (Arguments κ)) : Prop where
  nil : read [] = .ok {}
  value : ∀ form ∈ forms, form.takesValue = true → ∀ (value : String) (rest : List String),
    read (form.long :: value :: rest) = (read rest).map (.addOptions [(form.key, value)])
  positional : ∀ (argument : String) (rest : List String), argument.toList.head? ≠ some '-' →
    read (argument :: rest) =
      if mixed then (read rest).map (.addPositional argument)
      else .ok { positional := argument :: rest }
  slash : ∀ (argument : String) (letters : List Char), argument.toList = '-' :: letters →
    '/' ∈ letters → '=' ∉ letters →
      (∃ fault, ∀ rest, read (argument :: rest) = .error fault) ∨
        ∃ given, ∀ rest, read (argument :: rest) = (read rest).map (.addOptions given)

/-- The long names of the options differ, and they are words behind two hyphens. No name has a slash
in it. -/
structure WellNamed {κ : Type} (forms : List (OptionForm κ)) : Prop where
  find?_long : ∀ form ∈ forms, forms.find? (fun other ↦ other.long = form.long) = some form
  long_eq : ∀ form ∈ forms, ∃ letter name, form.long.toList = '-' :: '-' :: letter :: name
  equals_not_mem : ∀ form ∈ forms, '=' ∉ form.long.toList
  slash_not_mem : ∀ form ∈ forms, '/' ∉ form.long.toList
  short_ne : ∀ form ∈ forms, form.short ≠ some '/'

theorem wellNamed_programForms : WellNamed programForms where
  find?_long := by simp [programForms]
  long_eq := by simp [programForms]
  equals_not_mem := by decide
  slash_not_mem := by decide
  short_ne := by decide

theorem wellNamed_helpfileForms : WellNamed helpfileForms where
  find?_long := by simp [helpfileForms]
  long_eq := by simp [helpfileForms]
  equals_not_mem := by decide
  slash_not_mem := by decide
  short_ne := by decide

/-! ### The reader of the program -/

variable {κ : Type} {forms : List (OptionForm κ)} {mixed : Bool}

theorem splitJoined_of_not_mem {argument : List Char} (hargument : '=' ∉ argument) :
    splitJoined argument = (String.ofList argument, none) := by
  have hname : ∀ c ∈ argument, decide (c ≠ '=') = true := fun c hc ↦
    decide_eq_true fun hequals ↦ hargument (hequals ▸ hc)
  have hspan : argument.span (fun c ↦ c ≠ '=') = (argument, []) := by
    rw [List.span_eq_takeWhile_dropWhile, List.takeWhile_eq_self_iff.mpr hname,
      List.dropWhile_eq_nil_iff.mpr hname]
  rw [splitJoined, hspan]

theorem readOption_long (hnames : WellNamed forms) {form : OptionForm κ} (hform : form ∈ forms)
    (hvalue : form.takesValue = true) :
    readOption forms form.long.toList = .ok ([], some ⟨form.key, form.long⟩) := by
  have hjoined := splitJoined_of_not_mem (hnames.equals_not_mem form hform)
  rw [String.ofList_toList] at hjoined
  simp only [readOption, hjoined, hnames.find?_long form hform, readLong, hvalue]

theorem readArguments_long (hnames : WellNamed forms) {form : OptionForm κ} (hform : form ∈ forms)
    (hvalue : form.takesValue = true) (value : String) (rest : List String) :
    readArguments forms mixed none (form.long :: value :: rest) =
      (readArguments forms mixed none rest).map (.addOptions [(form.key, value)]) := by
  obtain ⟨letter, name, hlong⟩ := hnames.long_eq form hform
  have hdashes : form.long ≠ "--" := by
    intro hshort
    rw [hshort] at hlong
    cases hlong
  have hoption : isOption form.long.toList = true := by
    rw [hlong]
    rfl
  simp only [readArguments, if_neg hdashes, hoption, if_true, readOption_long hnames hform hvalue]
  cases readArguments forms mixed none rest <;> rfl

theorem isOption_eq_false {argument : List Char} (hargument : argument.head? ≠ some '-') :
    isOption argument = false := by
  unfold isOption
  split
  · exact absurd rfl hargument
  · rfl

theorem readArguments_positional {argument : String}
    (hargument : argument.toList.head? ≠ some '-') (rest : List String) :
    readArguments forms mixed none (argument :: rest) =
      if mixed then (readArguments forms mixed none rest).map (.addPositional argument)
      else .ok { positional := argument :: rest } := by
  have hdashes : argument ≠ "--" := by
    rintro rfl
    exact hargument rfl
  simp [readArguments, hdashes, isOption_eq_false hargument]

/-- Letters with a slash among them take no value from the next argument. -/
theorem readLetters_slash (hnames : WellNamed forms) {letters : List Char}
    (hslash : '/' ∈ letters) :
    (∃ fault, readLetters forms letters = .error fault) ∨
      ∃ given, readLetters forms letters = .ok (given, none) := by
  induction letters with
  | nil => cases hslash
  | cons letter rest ih =>
    rw [readLetters]
    cases hfound : forms.find? fun form ↦ form.short = some letter with
    | none => exact .inl ⟨_, rfl⟩
    | some form =>
      have hshort : form.short = some letter := by simpa using List.find?_some hfound
      have hletter : '/' ≠ letter := by
        rintro rfl
        exact hnames.short_ne form (List.mem_of_find?_eq_some hfound) hshort
      have hrest : '/' ∈ rest := (List.mem_cons.mp hslash).resolve_left hletter
      by_cases hvalue : form.takesValue = true
      · have hnonempty : rest.isEmpty = false := by
          simpa using List.ne_nil_of_mem hrest
        exact .inr ⟨_, by simp only [hvalue, hnonempty, if_true]; rfl⟩
      · simp only [hvalue]
        rcases ih hrest with ⟨fault, hfault⟩ | ⟨given, hgiven⟩
        · exact .inl ⟨fault, by rw [hfault]; rfl⟩
        · exact .inr ⟨(form.key, "") :: given, by rw [hgiven]; rfl⟩

/-- An argument behind a hyphen with a slash and without an equals sign is no option that takes a
value from the next argument. -/
theorem readOption_slash (hnames : WellNamed forms) {letters : List Char} (hslash : '/' ∈ letters)
    (hequals : '=' ∉ letters) :
    (∃ fault, readOption forms ('-' :: letters) = .error fault) ∨
      ∃ given, readOption forms ('-' :: letters) = .ok (given, none) := by
  have hjoined : splitJoined ('-' :: letters) = (String.ofList ('-' :: letters), none) :=
    splitJoined_of_not_mem (by simpa using hequals)
  have hlong : forms.find? (fun form ↦ form.long = String.ofList ('-' :: letters)) = none := by
    simp only [List.find?_eq_none, decide_eq_true_eq]
    intro form hform hname
    apply hnames.slash_not_mem form hform
    rw [hname, String.toList_ofList]
    exact List.mem_cons_of_mem _ hslash
  simp only [readOption, hjoined, hlong]
  split
  · exact .inl ⟨_, rfl⟩
  · exact readLetters_slash hnames hslash

theorem readArguments_slash (hnames : WellNamed forms) {argument : String} {letters : List Char}
    (hargument : argument.toList = '-' :: letters) (hslash : '/' ∈ letters)
    (hequals : '=' ∉ letters) :
    (∃ fault, ∀ rest, readArguments forms mixed none (argument :: rest) = .error fault) ∨
      ∃ given, ∀ rest, readArguments forms mixed none (argument :: rest) =
        (readArguments forms mixed none rest).map (.addOptions given) := by
  have hdashes : argument ≠ "--" := by
    rintro rfl
    have hletters : letters = ['-'] := (List.cons.inj hargument).2.symm
    simp [hletters] at hslash
  have hoption : isOption argument.toList = true := by
    rw [hargument]
    cases letters with
    | nil => cases hslash
    | cons c letters => rfl
  have hread := readOption_slash hnames hslash hequals
  rw [← hargument] at hread
  rcases hread with ⟨fault, hfault⟩ | ⟨given, hgiven⟩
  · exact .inl ⟨fault, fun rest ↦ by simp [readArguments, hdashes, hoption, hfault]⟩
  · exact .inr ⟨given, fun rest ↦ by simp [readArguments, hdashes, hoption, hgiven]⟩

/-- The reader of the program reads well-named options as they are used. -/
theorem readsForms_readArguments (hnames : WellNamed forms) (mixed : Bool) :
    ReadsForms forms mixed (readArguments forms mixed none) where
  nil := rfl
  value := fun _ hform hvalue ↦ readArguments_long hnames hform hvalue
  positional := fun _ rest hargument ↦ readArguments_positional hargument rest
  slash := fun _ _ ↦ readArguments_slash hnames

end HelpSheet.Command
