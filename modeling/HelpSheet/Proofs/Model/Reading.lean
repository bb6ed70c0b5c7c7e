import HelpSheet.Proofs.Model.Documents

/-!
# Which documents are read, and as what

A reader finds what values mean (`Finds`): it ends with a part exactly where the value means it, and
where it fails, its fault shows a part of the value that has another type than the expected one
(`Exposes`). Every reader of the project has this property; for whole documents it says that they
are read exactly where they have the documented shape (`documents_read_as_described`).
-/

set_option autoImplicit false
set_option relaxedAutoImplicit false

namespace HelpSheet.Shape

open HelpSheet.Json (field?)
open HelpSheet.Log.Traced (outcome_bind_eq_ok outcome_bind_eq_error)

/-! ### Places in a document -/

/-- The part of a value that one step leads to; a field that is missing reads as null. -/
def partAt? (value : Json) : Step → Option Json
  | .field name =>
    match value with
    | .object fields => some ((field? fields name).getD .null)
    | _ => none
  | .item index =>
    match value with
    | .array items => items[index]?
    | _ => none

/-- The value at a place. -/
def valueAt? (value : Json) : Place → Option Json
  | [] => some value
  | step :: steps => (partAt? value step).bind fun part ↦ valueAt? part steps

/-- Whether a value has a type. -/
def Expected.admits : Expected → Json → Bool
  | object, .object _ => true
  | list, .array _ => true
  | string, .string _ => true
  | integer, .int _ => true
  | boolean, .bool _ => true
  | _, _ => false

/-- The fault is below the place of a value, where the value holds what was found, and this does not
have the expected type. -/
def Exposes (place : Place) (value : Json) (error : Error) : Prop :=
  ∃ steps, error.place = place ++ steps ∧ valueAt? value steps = some error.found ∧
    error.expected.admits error.found = false

section Exposes

variable {place : Place} {error : Error}

/-- A fault in a part is a fault in the whole. -/
theorem Exposes.of_part {value part : Json} {step : Step} (hpart : partAt? value step = some part)
    (hfault : Exposes (place ++ [step]) part error) : Exposes place value error := by
  obtain ⟨steps, hplace, hfound, htype⟩ := hfault
  refine ⟨step :: steps, ?_, ?_, htype⟩
  · rw [hplace, List.append_assoc, List.singleton_append]
  · rw [valueAt?, hpart, Option.bind_some, hfound]

end Exposes

/-! ### Readers that fail for a reason -/

/-- Where the computation fails, it exposes a fault of the value. -/
def Blames {α : Type} (place : Place) (value : Json) (reading : Reading α) : Prop :=
  ∀ error, reading.outcome = .error error → Exposes place value error

section Blames

variable {α β : Type} {place : Place} {value : Json}

/-- A reader of one type gives a part or refuses the value itself. -/
theorem blames_of_refusal {reading : Reading α} (expected : Expected)
    (hread : (∃ part, reading = pure part) ∨
      expected.admits value = false ∧ reading = .fail ⟨place, expected, value⟩) :
    Blames place value reading := by
  intro error herror
  obtain ⟨part, rfl⟩ | ⟨htype, rfl⟩ := hread
  · cases herror
  · cases herror
    exact ⟨[], (List.append_nil place).symm, rfl, htype⟩

theorem blames_pure (part : α) : Blames place value (pure part : Reading α) := nofun

theorem blames_addNotes (notes : List Log.Note) :
    Blames place value (Log.Traced.addNotes notes : Reading Unit) := nofun

theorem blames_note (note : Log.Note) :
    Blames place value (Log.Traced.note note : Reading Unit) := nofun

theorem Blames.bind {first : Reading α} {next : α → Reading β} (hfirst : Blames place value first)
    (hnext : ∀ part, first.outcome = .ok part → Blames place value (next part)) :
    Blames place value (first >>= next) := by
  intro error herror
  obtain hfails | ⟨part, hpart, hfails⟩ := outcome_bind_eq_error.mp herror
  · exact hfirst error hfails
  · exact hnext part hpart error hfails

end Blames

/-! ### Readers that find what values mean -/

/-- The reader ends with a part exactly where the value means it, and fails only where the value
holds something of another type. -/
structure Finds {α : Type} (read : Place → Json → Reading α) (means : Json → α → Prop) : Prop where
  ok_iff : ∀ {place value part}, (read place value).outcome = .ok part ↔ means value part
  blames : ∀ place value, Blames place value (read place value)

theorem finds_string : Finds string MeansString where
  ok_iff := by
    intro place value content
    cases value <;> simp [string, Log.Traced.fail, MeansString]
  blames place value := by
    refine blames_of_refusal .string ?_
    cases value <;> simp [string, Expected.admits]

theorem finds_integer : Finds integer MeansInteger where
  ok_iff := by
    intro place value number
    cases value <;> simp [integer, Log.Traced.fail, MeansInteger]
  blames place value := by
    refine blames_of_refusal .integer ?_
    cases value <;> simp [integer, Expected.admits]

theorem finds_boolean : Finds boolean MeansBoolean where
  ok_iff := by
    intro place value truth
    cases value <;> simp [boolean, Log.Traced.fail, MeansBoolean]
  blames place value := by
    refine blames_of_refusal .boolean ?_
    cases value <;> simp [boolean, Expected.admits]

theorem finds_categoryName : Finds categoryName MeansCategoryName where
  ok_iff := by
    intro place value name
    cases value <;> simp [categoryName, string, Log.Traced.fail, MeansCategoryName, MeansString,
      eq_comm]
  blames := by
    intro place value
    cases value with
    | null => exact blames_pure _
    | _ => exact finds_string.blames place _

theorem finds_categorized (categories : List Category) :
    Finds (categorized categories) (MeansCategorized categories) where
  ok_iff := by
    intro place value truth
    cases value <;> simp [categorized, boolean, Log.Traced.fail, MeansCategorized, MeansBoolean,
      eq_comm]
  blames := by
    intro place value
    cases value with
    | null => exact blames_pure _
    | _ => exact finds_boolean.blames place _

theorem list_ok_iff {place : Place} {value : Json} {items : List Json} :
    (list place value).outcome = .ok items ↔ value = .array items := by
  cases value <;> simp [list, Log.Traced.fail]

theorem blames_list (place : Place) (value : Json) : Blames place value (list place value) := by
  refine blames_of_refusal .list ?_
  cases value <;> simp [list, Expected.admits]

theorem object_ok_iff {place : Place} {value : Json} {fields : Fields} :
    (object place value).outcome = .ok fields ↔ value = .object fields := by
  cases value <;> simp [object, Log.Traced.fail]

theorem blames_object (place : Place) (value : Json) : Blames place value (object place value) := by
  refine blames_of_refusal .object ?_
  cases value <;> simp [object, Expected.admits]

section Combined

variable {α : Type} {read : Place → Json → Reading α} {means : Json → α → Prop}

/-- The items from an index on are read one by one. -/
theorem Finds.forIndexed_ok_iff (hread : Finds read means) {place : Place} {items : List Json}
    {parts : List α} {start : Nat} :
    (Log.Traced.forIndexed items (fun index item ↦ read (place ++ [.item index]) item)
      start).outcome = .ok parts ↔ List.Forall₂ means items parts := by
  induction items generalizing parts start with
  | nil => simp [Log.Traced.forIndexed, eq_comm]
  | cons item items ih =>
    simp only [Log.Traced.forIndexed, outcome_bind_eq_ok, hread.ok_iff, ih,
      Log.Traced.outcome_pure, Except.ok.injEq, List.forall₂_cons_left_iff]
    constructor
    · rintro ⟨part, hpart, rest, hrest, rfl⟩
      exact ⟨part, rest, hpart, hrest, rfl⟩
    · rintro ⟨part, rest, hpart, hrest, rfl⟩
      exact ⟨part, hpart, rest, hrest, rfl⟩

/-- `before` are the items that were read before. -/
theorem Finds.blames_forIndexed (hread : Finds read means) (place : Place)
    (before items : List Json) :
    Blames place (.array (before ++ items))
      (Log.Traced.forIndexed items (fun index item ↦ read (place ++ [.item index]) item)
        before.length) := by
  induction items generalizing before with
  | nil => exact blames_pure _
  | cons item items ih =>
    have hitem : partAt? (.array (before ++ item :: items)) (.item before.length) = some item := by
      simp [partAt?]
    have hrest := ih (before ++ [item])
    rw [List.append_assoc, List.singleton_append, List.length_append, List.length_singleton]
      at hrest
    refine .bind (fun error herror ↦ (hread.blames _ item error herror).of_part hitem) fun _ _ ↦ ?_
    exact hrest.bind fun _ _ ↦ blames_pure _

theorem Finds.listOf (hread : Finds read means) : Finds (listOf read) (MeansEach means) where
  ok_iff := by
    intro place value parts
    simp only [Shape.listOf, outcome_bind_eq_ok, list_ok_iff, hread.forIndexed_ok_iff, MeansEach]
  blames := by
    intro place value
    refine .bind (blames_list place value) fun items hitems ↦ ?_
    obtain rfl := list_ok_iff.mp hitems
    exact hread.blames_forIndexed place [] items

theorem Finds.field_ok_iff (hread : Finds read means) {place : Place} {fields : Fields}
    {name : String} {default : Json} {part : α} :
    (field place fields name default read).outcome = .ok part ↔
      means (valueOf fields name default) part :=
  hread.ok_iff

/-- A required field, which reads as null where it is missing. -/
theorem Finds.blames_required (hread : Finds read means) (place : Place) (fields : Fields)
    (name : String) : Blames place (.object fields) (field place fields name .null read) :=
  fun error herror ↦ (hread.blames _ _ error herror).of_part rfl

/-- A field with a default that means something, so that a fault is in a field that is there. -/
theorem Finds.blames_optional (hread : Finds read means) (place : Place) (fields : Fields)
    (name : String) {default : Json} (hdefault : ∃ part, means default part) :
    Blames place (.object fields) (field place fields name default read) := by
  intro error herror
  rw [field] at herror
  cases hfield : field? fields name with
  | none =>
    obtain ⟨part, hpart⟩ := hdefault
    rw [hfield, Option.getD_none, hread.ok_iff.mpr hpart] at herror
    cases herror
  | some value =>
    have hvalue : partAt? (.object fields) (.field name) = some value := by
      simp [partAt?, hfield]
    rw [hfield, Option.getD_some] at herror
    exact (hread.blames _ _ error herror).of_part hvalue

theorem Finds.blames_list (hread : Finds read means) (place : Place) (fields : Fields)
    (name : String) :
    Blames place (.object fields) (field place fields name (.array []) (Shape.listOf read)) :=
  hread.listOf.blames_optional place fields name (exists_meansEach_nil means)

end Combined

/-! ### Parts of a model -/

theorem finds_readVariable : Finds readVariable (MeansObject DescribesVariable) where
  ok_iff := by
    intro place value entry
    simp only [readVariable, outcome_bind_eq_ok, object_ok_iff, finds_string.field_ok_iff,
      Log.Traced.outcome_pure, Except.ok.injEq, MeansObject]
    refine exists_congr fun fields ↦ and_congr_right fun _ ↦ ⟨?_, ?_⟩
    · rintro ⟨name, hname, description, hdescription, rfl⟩
      exact ⟨hname, hdescription⟩
    · intro hentry
      exact ⟨_, hentry.name, _, hentry.description, rfl⟩
  blames := by
    intro place value
    refine .bind (blames_object place value) fun fields hfields ↦ ?_
    obtain rfl := object_ok_iff.mp hfields
    refine .bind (finds_string.blames_required place fields _) fun _ _ ↦ ?_
    refine .bind (finds_string.blames_optional place fields _ ⟨"", rfl⟩) fun _ _ ↦ ?_
    exact blames_pure _

theorem finds_readTarget : Finds readTarget (MeansObject DescribesTarget) where
  ok_iff := by
    intro place value target
    simp only [readTarget, outcome_bind_eq_ok, object_ok_iff, finds_string.field_ok_iff,
      finds_string.listOf.field_ok_iff, finds_readVariable.listOf.field_ok_iff,
      finds_integer.field_ok_iff, Log.Traced.addNotes, exists_const, true_and,
      Log.Traced.outcome_pure, Except.ok.injEq, MeansObject]
    refine exists_congr fun fields ↦ and_congr_right fun _ ↦ ⟨?_, ?_⟩
    · rintro ⟨name, hname, documentation, hdocumentation, aliases, haliases, usedVariables,
        hvariables, sourceFile, hsourceFile, lineNumber, hlineNumber, rfl⟩
      exact ⟨hname, hdocumentation, haliases, hvariables, hsourceFile, hlineNumber, rfl⟩
    · intro htarget
      refine ⟨_, htarget.name, _, htarget.documentation, _, htarget.aliases, _,
        htarget.usedVariables, _, htarget.sourceFile, _, htarget.lineNumber, ?_⟩
      rw [Target.summarized, ← htarget.summary]
  blames := by
    intro place value
    refine .bind (blames_object place value) fun fields hfields ↦ ?_
    obtain rfl := object_ok_iff.mp hfields
    refine .bind (finds_string.blames_required place fields _) fun _ _ ↦ ?_
    refine .bind (finds_string.blames_list place fields _) fun _ _ ↦ ?_
    refine .bind (finds_string.blames_list place fields _) fun _ _ ↦ ?_
    refine .bind (finds_readVariable.blames_list place fields _) fun _ _ ↦ ?_
    refine .bind (finds_string.blames_optional place fields _ ⟨"", rfl⟩) fun _ _ ↦ ?_
    refine .bind (finds_integer.blames_optional place fields _ ⟨0, rfl⟩) fun _ _ ↦ ?_
    exact .bind (blames_addNotes _) fun _ _ ↦ blames_pure _

theorem finds_readCategory : Finds readCategory (MeansObject DescribesCategory) where
  ok_iff := by
    intro place value category
    simp only [readCategory, outcome_bind_eq_ok, object_ok_iff, finds_categoryName.field_ok_iff,
      finds_readTarget.listOf.field_ok_iff, Log.Traced.outcome_pure, Except.ok.injEq, MeansObject]
    refine exists_congr fun fields ↦ and_congr_right fun _ ↦ ⟨?_, ?_⟩
    · rintro ⟨name, hname, targets, htargets, rfl⟩
      exact ⟨hname, htargets⟩
    · intro hcategory
      exact ⟨_, hcategory.name, _, hcategory.targets, rfl⟩
  blames := by
    intro place value
    refine .bind (blames_object place value) fun fields hfields ↦ ?_
    obtain rfl := object_ok_iff.mp hfields
    refine .bind (finds_categoryName.blames_optional place fields _ ⟨"", .inl rfl⟩) fun _ _ ↦ ?_
    exact .bind (finds_readTarget.blames_list place fields _) fun _ _ ↦ blames_pure _

theorem finds_readFileDoc : Finds readFileDoc (MeansObject DescribesFileDoc) where
  ok_iff := by
    intro place value file
    simp only [readFileDoc, outcome_bind_eq_ok, object_ok_iff, finds_string.field_ok_iff,
      finds_string.listOf.field_ok_iff, finds_boolean.field_ok_iff, finds_integer.field_ok_iff,
      Log.Traced.outcome_pure, Except.ok.injEq, MeansObject]
    refine exists_congr fun fields ↦ and_congr_right fun _ ↦ ⟨?_, ?_⟩
    · rintro ⟨sourceFile, hsourceFile, documentation, hdocumentation, isEntryPoint, hisEntryPoint,
        discoveryOrder, hdiscoveryOrder, rfl⟩
      exact ⟨hsourceFile, hdocumentation, hisEntryPoint, hdiscoveryOrder⟩
    · intro hfile
      exact ⟨_, hfile.sourceFile, _, hfile.documentation, _, hfile.isEntryPoint, _,
        hfile.discoveryOrder, rfl⟩
  blames := by
    intro place value
    refine .bind (blames_object place value) fun fields hfields ↦ ?_
    obtain rfl := object_ok_iff.mp hfields
    refine .bind (finds_string.blames_required place fields _) fun _ _ ↦ ?_
    refine .bind (finds_string.blames_list place fields _) fun _ _ ↦ ?_
    refine .bind (finds_boolean.blames_optional place fields _ ⟨false, rfl⟩) fun _ _ ↦ ?_
    refine .bind (finds_integer.blames_optional place fields _ ⟨0, rfl⟩) fun _ _ ↦ ?_
    exact blames_pure _

/-! ### Whole documents -/

/-- A document is read as the model that it describes. -/
theorem readModel_ok_iff {document : Json} {model : Model} :
    (readModel document).outcome = .ok model ↔ MeansObject DescribesModel document model := by
  simp only [readModel, outcome_bind_eq_ok, object_ok_iff, finds_readCategory.listOf.field_ok_iff,
    (finds_categorized _).field_ok_iff, finds_readFileDoc.listOf.field_ok_iff, Log.Traced.note,
    exists_const, true_and, Log.Traced.outcome_pure, Except.ok.injEq, MeansObject]
  refine exists_congr fun fields ↦ and_congr_right fun _ ↦ ⟨?_, ?_⟩
  · rintro ⟨categories, hcategories, hasCategories, hgrouped, fileDocs, hfileDocs, rfl⟩
    exact ⟨hcategories, hgrouped, hfileDocs⟩
  · intro hmodel
    exact ⟨_, hmodel.categories, _, hmodel.hasCategories, _, hmodel.fileDocs, rfl⟩

theorem blames_readModel (document : Json) : Blames [] document (readModel document) := by
  refine .bind (blames_object [] document) fun fields hfields ↦ ?_
  obtain rfl := object_ok_iff.mp hfields
  refine .bind (finds_readCategory.blames_list [] fields _) fun categories _ ↦ ?_
  refine .bind ((finds_categorized categories).blames_optional [] fields _ ⟨_, .inr ⟨rfl, rfl⟩⟩)
    fun _ _ ↦ ?_
  refine .bind (finds_readFileDoc.blames_list [] fields _) fun _ _ ↦ ?_
  exact .bind (blames_note _) fun _ _ ↦ blames_pure _

/-- A document is read exactly where it has the documented shape, and then as the model that it
describes. Otherwise the error names a place of the document, a value of which the found type is the
type, and an expected type that the value does not have. -/
theorem documents_read_as_described (document : Json) :
    ((∃ model, (readModel document).outcome = .ok model) ↔ IsModelDocument document) ∧
      match (readModel document).outcome with
      | .ok model => ∃ fields, document = .object fields ∧ DescribesModel fields model
      | .error error =>
        valueAt? document error.place = some error.found ∧
        error.expected.admits error.found = false ∧
        error.message = placeText error.place ++ ": expected " ++ error.expected.phrase ++
          ", got " ++ error.found.typeName := by
  constructor
  · rw [isModelDocument_iff document]
    exact exists_congr fun model ↦ readModel_ok_iff
  · cases hread : (readModel document).outcome with
    | ok model => exact readModel_ok_iff.mp hread
    | error error =>
      obtain ⟨steps, hplace, hfound, htype⟩ := blames_readModel document error hread
      rw [List.nil_append] at hplace
      exact ⟨hplace ▸ hfound, htype, rfl⟩

end HelpSheet.Shape
