import HelpSheet.Proofs.Command.Effects
import HelpSheet.Proofs.Json.Limits
import HelpSheet.Proofs.Text.Utf8

/-!
# Input files

The program reads models and settings from files. What keeps it from loading such a file is covered
by a documented error, unless the path holds a null character or the content is unforeseen
(`Model.IsUnforeseen`, `Settings.IsUnforeseen`): it is the encoding of no text, or the reader of its
text stops for a reason that the loader does not name. Both directions hold for models
(`Model.exists_undocumented_iff`) and for settings (`Settings.exists_undocumented_iff`), whatever
the limits of the machine and whichever reader of TOML it has. The text of an unforeseen model shows
it in its digits or brackets (`Model.exceeds_of_isUnforeseen`).
-/

set_option autoImplicit false
set_option relaxedAutoImplicit false

namespace HelpSheet

open Command (encoded encoded_eq)

/-! ### The text of a file -/

namespace Files

variable {tree : Tree} {directory : Place} {path : String} {content : List UInt8}

theorem decode_encoded (text : String) :
    Text.Utf8.decode (encoded text) = .ok text.toList := by
  rw [Text.Utf8.decode_eq_ok_iff, encoded_eq]

theorem exists_decode_eq_error (hcontent : ∀ text, encoded text ≠ content) :
    ∃ error, Text.Utf8.decode content = .error error := by
  cases hdecode : Text.Utf8.decode content with
  | error error => exact ⟨error, rfl⟩
  | ok chars =>
    refine absurd ?_ (hcontent (String.ofList chars))
    rw [encoded_eq, String.toList_ofList, Text.Utf8.decode_eq_ok_iff.mp hdecode]

/-- A text with line feeds for all its line endings. -/
def withLineFeeds (text : String) : String :=
  String.ofList (Text.unifyLineEndings text.toList)

theorem readText_notPath (hpath : '\x00' ∈ path.toList) :
    tree.readText directory path = .error (.notPath ⟨path⟩) := by
  rw [Tree.readText, if_pos hpath]

theorem readText_unreadable (hpath : '\x00' ∉ path.toList) {error : Error}
    (hread : tree.read directory path = .error error) :
    tree.readText directory path = .error (.unreadable error) := by
  rw [Tree.readText, if_neg hpath, hread]

theorem exists_readText_notText (hpath : '\x00' ∉ path.toList)
    (hread : tree.read directory path = .ok content)
    (hcontent : ∀ text, encoded text ≠ content) :
    ∃ error, tree.readText directory path = .error (.notText error) := by
  obtain ⟨error, hdecode⟩ := exists_decode_eq_error hcontent
  refine ⟨error, ?_⟩
  rw [Tree.readText, if_neg hpath, hread]
  simp only [hdecode]

theorem readText_encoded (hpath : '\x00' ∉ path.toList) {text : String}
    (hread : tree.read directory path = .ok (encoded text)) :
    tree.readText directory path = .ok (withLineFeeds text) := by
  rw [Tree.readText, if_neg hpath, hread]
  simp only [decode_encoded]
  rfl

end Files

open Files (withLineFeeds)

/-! ### Models -/

namespace Model

variable {machine : Machine} {tree : Files.Tree} {directory : Files.Place} {path : Path}

/-- The errors by which a model file is said to be refused: it cannot be read, is no JSON, or has
the wrong shape. -/
def LoadError.IsDocumented : LoadError → Prop
  | unreadable _ _ => True
  | notJson _ _ => True
  | shape _ => True
  | notPath _ => False
  | notText _ => False
  | excess _ => False

/-- A content that no documented error of model files covers: the encoding of no text, or of one
in which the reader of JSON meets one of its limits before anything else stops it. -/
def IsUnforeseen (machine : Machine) (content : List UInt8) : Prop :=
  (∀ text, encoded text ≠ content) ∨
    ∃ text excess, encoded text = content ∧
      Json.parseWithin (fileRules machine) (withLineFeeds text) = .error (.excess excess)

theorem isUnforeseen_encoded {text : String} :
    IsUnforeseen machine (encoded text) ↔ ∃ excess,
      Json.parseWithin (fileRules machine) (withLineFeeds text) = .error (.excess excess) := by
  constructor
  · rintro (hnone | ⟨other, excess, hother, hexcess⟩)
    · exact absurd rfl (hnone text)
    · rw [Command.encoded_injective hother] at hexcess
      exact ⟨excess, hexcess⟩
  · rintro ⟨excess, hexcess⟩
    exact .inr ⟨text, excess, rfl, hexcess⟩

/-- A text is unforeseen only with more digits in a row than an integer may have, or with more
brackets than containers may lie in each other. -/
theorem exceeds_of_isUnforeseen {text : String}
    (hunforeseen : IsUnforeseen machine (encoded text)) :
    Json.Exceeds (fileRules machine) (withLineFeeds text).toList := by
  obtain ⟨excess, hexcess⟩ := isUnforeseen_encoded.mp hunforeseen
  exact Json.exceeds_of_parseWithin hexcess

theorem outcome_load (tree : Files.Tree) (directory : Files.Place) (path : Path)
    (machine : Machine) :
    (load tree directory path machine).outcome =
      (loadDocument tree directory path machine).bind fun document ↦
        (Shape.readModel document).outcome.mapError .shape := by
  rw [load, Log.Traced.outcome_bind]
  rfl

/-- The loader ends in an error that is not documented exactly where the path holds a null character
or the content of the file is unforeseen. -/
theorem exists_undocumented_iff (tree : Files.Tree) (directory : Files.Place) (path : Path)
    (machine : Machine) :
    (∃ error, (load tree directory path machine).outcome = .error error ∧ ¬ error.IsDocumented) ↔
      '\x00' ∈ path.text.toList ∨
        ∃ content, tree.read directory path.text = .ok content ∧ IsUnforeseen machine content := by
  rw [outcome_load, loadDocument]
  by_cases hpath : '\x00' ∈ path.text.toList
  · rw [Files.readText_notPath hpath]
    simp [Except.bind, LoadError.IsDocumented, hpath]
  · rw [or_iff_right hpath]
    cases hread : tree.read directory path.text with
    | error error =>
      rw [Files.readText_unreadable hpath hread]
      simp [Except.bind, LoadError.IsDocumented]
    | ok content =>
      by_cases htext : ∃ text, encoded text = content
      · obtain ⟨text, rfl⟩ := htext
        simp only [Files.readText_encoded hpath hread, Except.ok.injEq, exists_eq_left',
          isUnforeseen_encoded]
        cases Json.parseWithin (fileRules machine) (withLineFeeds text) with
        | error error => cases error <;> simp [Except.bind, LoadError.IsDocumented]
        | ok document =>
          cases hshape : (Shape.readModel document).outcome <;>
            simp [Except.bind, hshape, LoadError.IsDocumented]
      · have hnone : ∀ text, encoded text ≠ content := fun text htext' ↦ htext ⟨text, htext'⟩
        obtain ⟨error, hnotText⟩ := Files.exists_readText_notText hpath hread hnone
        rw [hnotText]
        simp [Except.bind, LoadError.IsDocumented, IsUnforeseen, hnone]

end Model

/-! ### Settings -/

namespace Settings

variable {machine : Machine} {tree : Files.Tree} {directory : Files.Place} {path : Path}

/-- The errors by which a settings file is said to be refused: it cannot be read, is no TOML, or
holds no valid settings. -/
def LoadError.IsDocumented : LoadError → Prop
  | unreadable _ _ => True
  | notToml _ => True
  | notTable _ => True
  | invalid _ => True
  | unseen _ => False
  | notPath _ => False
  | notText _ => False
  | conflict _ => False
  | givenUp _ => False

/-- A content that no documented error of settings files covers: the encoding of no text, or of one
in which the reader of TOML finds another fault than a wrong form. -/
def IsUnforeseen (machine : Machine) (content : List UInt8) : Prop :=
  (∀ text, encoded text ≠ content) ∨
    ∃ text error, encoded text = content ∧
      machine.readToml (withLineFeeds text) = .error error ∧ error ≠ .malformed

theorem isUnforeseen_encoded {text : String} :
    IsUnforeseen machine (encoded text) ↔
      ∃ error, machine.readToml (withLineFeeds text) = .error error ∧ error ≠ .malformed := by
  constructor
  · rintro (hnone | ⟨other, error, hother, herror⟩)
    · exact absurd rfl (hnone text)
    · rw [Command.encoded_injective hother] at herror
      exact ⟨error, herror⟩
  · rintro ⟨error, herror⟩
    exact .inr ⟨text, error, rfl, herror⟩

theorem findTable_of_loadTable {table : Table}
    (htable : loadTable tree directory path machine = .ok table) :
    findTable tree directory path machine = .error (.notTable path) ∨
      ∃ found, findTable tree directory path machine = .ok found := by
  simp only [findTable, htable, bind, Except.bind]
  split
  · exact .inr ⟨_, rfl⟩
  · split
    · exact .inr ⟨_, rfl⟩
    · exact .inr ⟨_, rfl⟩
    · exact .inl rfl

theorem findTable_of_loadTable_error {error : LoadError}
    (herror : loadTable tree directory path machine = .error error) :
    findTable tree directory path machine = .error error := by
  simp only [findTable, herror, bind, Except.bind]

theorem load_of_findTable_error {error : LoadError}
    (herror : findTable tree directory path machine = .error error) :
    (load tree directory path machine).outcome = .error error := by
  rw [load, Log.Traced.outcome_bind, herror]
  rfl

/-- Once the table is found, all errors are those of its entries. -/
theorem exists_invalid_of_load {found : Option Table} {error : LoadError}
    (hfound : findTable tree directory path machine = .ok found)
    (hload : (load tree directory path machine).outcome = .error error) :
    ∃ cause, error = .invalid cause := by
  rw [load, Log.Traced.outcome_bind, hfound] at hload
  cases found with
  | none => cases hload
  | some table =>
    change ((ofTable (some path) table).mapError LoadError.invalid >>= _).outcome = _ at hload
    rw [Log.Traced.outcome_bind] at hload
    change ((ofTable (some path) table).outcome.mapError LoadError.invalid).bind _ = _ at hload
    cases houtcome : (ofTable (some path) table).outcome with
    | error cause =>
      rw [houtcome] at hload
      exact ⟨cause, (Except.error.inj hload).symm⟩
    | ok settings =>
      rw [houtcome] at hload
      cases hload

/-- Behind the reader of TOML, all errors are documented. -/
theorem load_eq_undocumented_iff {error : LoadError} (herror : ¬ error.IsDocumented) :
    (load tree directory path machine).outcome = .error error ↔
      loadTable tree directory path machine = .error error := by
  constructor
  · intro hload
    cases htable : loadTable tree directory path machine with
    | error first =>
      rw [load_of_findTable_error (findTable_of_loadTable_error htable)] at hload
      exact congrArg _ (Except.error.inj hload)
    | ok table =>
      rcases findTable_of_loadTable htable with hnotTable | ⟨found, hfound⟩
      · rw [load_of_findTable_error hnotTable] at hload
        obtain rfl := Except.error.inj hload
        exact absurd trivial herror
      · obtain ⟨cause, rfl⟩ := exists_invalid_of_load hfound hload
        exact absurd trivial herror
  · intro htable
    exact load_of_findTable_error (findTable_of_loadTable_error htable)

/-- What cannot be seen is not said to be so by the loader. -/
theorem load_ne_unseen (cause : Files.Error) :
    (load tree directory path machine).outcome ≠ .error (.unseen cause) := by
  have hunseen : ¬ (LoadError.unseen cause).IsDocumented := id
  rw [ne_eq, load_eq_undocumented_iff hunseen, loadTable]
  split
  · simp
  · simp
  · simp
  · split <;> simp

theorem exists_loadTable_undocumented_iff :
    (∃ error, loadTable tree directory path machine = .error error ∧ ¬ error.IsDocumented) ↔
      '\x00' ∈ path.text.toList ∨
        ∃ content, tree.read directory path.text = .ok content ∧ IsUnforeseen machine content := by
  rw [loadTable]
  by_cases hpath : '\x00' ∈ path.text.toList
  · rw [Files.readText_notPath hpath]
    simp [LoadError.IsDocumented, hpath]
  · rw [or_iff_right hpath]
    cases hread : tree.read directory path.text with
    | error error =>
      rw [Files.readText_unreadable hpath hread]
      simp [LoadError.IsDocumented]
    | ok content =>
      by_cases htext : ∃ text, encoded text = content
      · obtain ⟨text, rfl⟩ := htext
        simp only [Files.readText_encoded hpath hread, Except.ok.injEq, exists_eq_left',
          isUnforeseen_encoded]
        cases machine.readToml (withLineFeeds text) with
        | error error => cases error <;> simp [LoadError.IsDocumented]
        | ok entries => simp
      · have hnone : ∀ text, encoded text ≠ content := fun text htext' ↦ htext ⟨text, htext'⟩
        obtain ⟨error, hnotText⟩ := Files.exists_readText_notText hpath hread hnone
        rw [hnotText]
        simp [LoadError.IsDocumented, IsUnforeseen, hnone]

/-- The loader ends in an error that is not documented exactly where the path holds a null character
or the content of the file is unforeseen. -/
theorem exists_undocumented_iff (tree : Files.Tree) (directory : Files.Place) (path : Path)
    (machine : Machine) :
    (∃ error, (load tree directory path machine).outcome = .error error ∧ ¬ error.IsDocumented) ↔
      '\x00' ∈ path.text.toList ∨
        ∃ content, tree.read directory path.text = .ok content ∧ IsUnforeseen machine content := by
  rw [← exists_loadTable_undocumented_iff]
  exact exists_congr fun error ↦ and_congr_left fun herror ↦ load_eq_undocumented_iff herror

end Settings

end HelpSheet
