import Mathlib.Data.List.Forall2
import HelpSheet.Model.Shape

/-!
# Documents that describe a model

The shape of the documents that describe a model (`IsModelDocument`), and what a document of this
shape says of the model (`DescribesModel`): each part of the model is the value of one field, or the
default of a field that is missing. A document has the shape exactly where there is a model that it
describes (`isModelDocument_iff`).
-/

set_option autoImplicit false
set_option relaxedAutoImplicit false

namespace HelpSheet.Shape

open HelpSheet.Json (field?)

/-- The fields of an object. -/
abbrev Fields := List (String × Json)

/-! ### The shape -/

def IsString (value : Json) : Prop := ∃ content, value = .string content

def IsInteger (value : Json) : Prop := ∃ number, value = .int number

def IsBoolean (value : Json) : Prop := ∃ truth, value = .bool truth

/-- A list of values of a shape. -/
def IsListOf (shape : Json → Prop) (value : Json) : Prop :=
  ∃ items, value = .array items ∧ ∀ item ∈ items, shape item

/-- An object with fields of a shape. -/
def IsObjectWith (shape : Fields → Prop) (value : Json) : Prop :=
  ∃ fields, value = .object fields ∧ shape fields

/-- The field is there, and its value has a shape. -/
def Required (fields : Fields) (name : String) (shape : Json → Prop) : Prop :=
  ∃ value, field? fields name = some value ∧ shape value

/-- Where the field is there, its value has a shape. -/
def Optional (fields : Fields) (name : String) (shape : Json → Prop) : Prop :=
  ∀ value, field? fields name = some value → shape value

def IsVariableObject : Json → Prop :=
  IsObjectWith fun fields ↦
    Required fields "name" IsString ∧
    Optional fields "description" IsString

def IsTargetObject : Json → Prop :=
  IsObjectWith fun fields ↦
    Required fields "name" IsString ∧
    Optional fields "documentation" (IsListOf IsString) ∧
    Optional fields "aliases" (IsListOf IsString) ∧
    Optional fields "variables" (IsListOf IsVariableObject) ∧
    Optional fields "sourceFile" IsString ∧
    Optional fields "lineNumber" IsInteger

def IsCategoryObject : Json → Prop :=
  IsObjectWith fun fields ↦
    Optional fields "name" (fun value ↦ IsString value ∨ value = .null) ∧
    Optional fields "targets" (IsListOf IsTargetObject)

def IsFileDocObject : Json → Prop :=
  IsObjectWith fun fields ↦
    Required fields "sourceFile" IsString ∧
    Optional fields "documentation" (IsListOf IsString) ∧
    Optional fields "isEntryPoint" IsBoolean ∧
    Optional fields "discoveryOrder" IsInteger

/-- The shape of the documents that describe a model. -/
def IsModelDocument : Json → Prop :=
  IsObjectWith fun fields ↦
    Optional fields "categories" (IsListOf IsCategoryObject) ∧
    Optional fields "hasCategories" (fun value ↦ IsBoolean value ∨ value = .null) ∧
    Optional fields "fileDocs" (IsListOf IsFileDocObject)

/-! ### The content -/

/-- The value of a field, or the default where it is missing. -/
def valueOf (fields : Fields) (name : String) (default : Json) : Json :=
  (field? fields name).getD default

def MeansString (value : Json) (content : String) : Prop := value = .string content

def MeansInteger (value : Json) (number : Int) : Prop := value = .int number

def MeansBoolean (value : Json) (truth : Bool) : Prop := value = .bool truth

section Meaning

variable {α : Type}

/-- The items of a list say the parts, in their order. -/
def MeansEach (means : Json → α → Prop) (value : Json) (parts : List α) : Prop :=
  ∃ items, value = .array items ∧ List.Forall₂ means items parts

/-- The fields of an object describe a part. -/
def MeansObject (describes : Fields → α → Prop) (value : Json) (part : α) : Prop :=
  ∃ fields, value = .object fields ∧ describes fields part

end Meaning

/-- Null names the group without a name. -/
def MeansCategoryName (value : Json) (name : String) : Prop :=
  MeansString value name ∨ value = .null ∧ name = ""

/-- Null says that targets are grouped if a group has a name. -/
def MeansCategorized (categories : List Category) (value : Json) (truth : Bool) : Prop :=
  MeansBoolean value truth ∨
    value = .null ∧ truth = categories.any fun category ↦ !category.isUnnamed

structure DescribesVariable (fields : Fields) (entry : Variable) : Prop where
  name : MeansString (valueOf fields "name" .null) entry.name
  description : MeansString (valueOf fields "description" (.string "")) entry.description

structure DescribesTarget (fields : Fields) (target : Target) : Prop where
  name : MeansString (valueOf fields "name" .null) target.name
  documentation :
    MeansEach MeansString (valueOf fields "documentation" (.array [])) target.documentation
  aliases : MeansEach MeansString (valueOf fields "aliases" (.array [])) target.aliases
  usedVariables : MeansEach (MeansObject DescribesVariable) (valueOf fields "variables" (.array []))
    target.usedVariables
  sourceFile : MeansString (valueOf fields "sourceFile" (.string "")) target.sourceFile
  lineNumber : MeansInteger (valueOf fields "lineNumber" (.int 0)) target.lineNumber
  summary : target.summary = Markup.summarize target.documentation

structure DescribesCategory (fields : Fields) (category : Category) : Prop where
  name : MeansCategoryName (valueOf fields "name" (.string "")) category.name
  targets : MeansEach (MeansObject DescribesTarget) (valueOf fields "targets" (.array []))
    category.targets

structure DescribesFileDoc (fields : Fields) (file : FileDoc) : Prop where
  sourceFile : MeansString (valueOf fields "sourceFile" .null) file.sourceFile
  documentation :
    MeansEach MeansString (valueOf fields "documentation" (.array [])) file.documentation
  isEntryPoint : MeansBoolean (valueOf fields "isEntryPoint" (.bool false)) file.isEntryPoint
  discoveryOrder : MeansInteger (valueOf fields "discoveryOrder" (.int 0)) file.discoveryOrder

/-- What the fields of a document say of a model. -/
structure DescribesModel (fields : Fields) (model : Model) : Prop where
  categories : MeansEach (MeansObject DescribesCategory) (valueOf fields "categories" (.array []))
    model.categories
  hasCategories : MeansCategorized model.categories (valueOf fields "hasCategories" .null)
    model.hasCategories
  fileDocs : MeansEach (MeansObject DescribesFileDoc) (valueOf fields "fileDocs" (.array []))
    model.fileDocs

/-! ### Values of a shape say something -/

/-- The values of the shape are those that say something. -/
def IsShapeOf {α : Type} (shape : Json → Prop) (means : Json → α → Prop) : Prop :=
  ∀ value, shape value ↔ ∃ part, means value part

section Shapes

variable {α : Type} {shape : Json → Prop} {means : Json → α → Prop} {fields : Fields}
  {name : String} {default : Json}

theorem isShapeOf_string : IsShapeOf IsString MeansString := fun _ ↦ Iff.rfl

theorem isShapeOf_integer : IsShapeOf IsInteger MeansInteger := fun _ ↦ Iff.rfl

theorem isShapeOf_boolean : IsShapeOf IsBoolean MeansBoolean := fun _ ↦ Iff.rfl

theorem isShapeOf_categoryName :
    IsShapeOf (fun value ↦ IsString value ∨ value = .null) MeansCategoryName := by
  intro value
  simp [IsString, MeansCategoryName, MeansString, exists_or]

theorem isShapeOf_categorized (categories : List Category) :
    IsShapeOf (fun value ↦ IsBoolean value ∨ value = .null) (MeansCategorized categories) := by
  intro value
  simp [IsBoolean, MeansCategorized, MeansBoolean, exists_or]

theorem IsShapeOf.list (hshape : IsShapeOf shape means) :
    IsShapeOf (IsListOf shape) (MeansEach means) := by
  have hitems : ∀ items,
      (∀ item ∈ items, shape item) ↔ ∃ parts, List.Forall₂ means items parts := by
    intro items
    induction items with
    | nil => simp
    | cons item items ih =>
      rw [List.forall_mem_cons, ih, hshape item]
      constructor
      · rintro ⟨⟨part, hpart⟩, parts, hparts⟩
        exact ⟨part :: parts, .cons hpart hparts⟩
      · rintro ⟨_, _ | ⟨hpart, hparts⟩⟩
        exact ⟨⟨_, hpart⟩, _, hparts⟩
  intro value
  simp only [IsListOf, MeansEach, hitems]
  constructor
  · rintro ⟨items, hvalue, parts, hparts⟩
    exact ⟨parts, items, hvalue, hparts⟩
  · rintro ⟨parts, items, hvalue, hparts⟩
    exact ⟨items, hvalue, parts, hparts⟩

theorem IsShapeOf.object {shape : Fields → Prop} {describes : Fields → α → Prop}
    (hshape : ∀ fields, shape fields ↔ ∃ part, describes fields part) :
    IsShapeOf (IsObjectWith shape) (MeansObject describes) := by
  intro value
  simp only [IsObjectWith, MeansObject, hshape]
  constructor
  · rintro ⟨fields, hvalue, part, hpart⟩
    exact ⟨part, fields, hvalue, hpart⟩
  · rintro ⟨part, fields, hvalue, hpart⟩
    exact ⟨fields, hvalue, part, hpart⟩

/-- Null means nothing, so that a required field has to be there. -/
theorem IsShapeOf.required (hshape : IsShapeOf shape means) (hnull : ∀ part, ¬ means .null part) :
    Required fields name shape ↔ ∃ part, means (valueOf fields name .null) part := by
  rw [Required, valueOf]
  cases field? fields name <;> simp [hnull, hshape _]

/-- Every default means something, so that an optional field may be missing. -/
theorem IsShapeOf.optional (hshape : IsShapeOf shape means)
    (hdefault : ∃ part, means default part) :
    Optional fields name shape ↔ ∃ part, means (valueOf fields name default) part := by
  rw [Optional, valueOf]
  cases field? fields name <;> simp [hdefault, hshape _]

end Shapes

theorem exists_meansEach_nil {α : Type} (means : Json → α → Prop) :
    ∃ parts, MeansEach means (.array []) parts :=
  ⟨[], [], rfl, .nil⟩

theorem not_meansString_null (content : String) : ¬ MeansString .null content := nofun

theorem isShapeOf_variable : IsShapeOf IsVariableObject (MeansObject DescribesVariable) := by
  refine .object fun fields ↦ ?_
  rw [isShapeOf_string.required not_meansString_null, isShapeOf_string.optional ⟨"", rfl⟩]
  constructor
  · rintro ⟨⟨name, hname⟩, description, hdescription⟩
    exact ⟨{ name, description }, hname, hdescription⟩
  · rintro ⟨entry, hentry⟩
    exact ⟨⟨_, hentry.name⟩, _, hentry.description⟩

theorem isShapeOf_target : IsShapeOf IsTargetObject (MeansObject DescribesTarget) := by
  refine .object fun fields ↦ ?_
  rw [isShapeOf_string.required not_meansString_null,
    isShapeOf_string.list.optional (exists_meansEach_nil _),
    isShapeOf_string.list.optional (exists_meansEach_nil _),
    isShapeOf_variable.list.optional (exists_meansEach_nil _),
    isShapeOf_string.optional ⟨"", rfl⟩, isShapeOf_integer.optional ⟨0, rfl⟩]
  constructor
  · rintro ⟨⟨name, hname⟩, ⟨documentation, hdocumentation⟩, ⟨aliases, haliases⟩,
      ⟨usedVariables, hvariables⟩, ⟨sourceFile, hsourceFile⟩, lineNumber, hlineNumber⟩
    exact ⟨Target.summarized
      { name, aliases, documentation, usedVariables, sourceFile, lineNumber },
      hname, hdocumentation, haliases, hvariables, hsourceFile, hlineNumber, rfl⟩
  · rintro ⟨target, htarget⟩
    exact ⟨⟨_, htarget.name⟩, ⟨_, htarget.documentation⟩, ⟨_, htarget.aliases⟩,
      ⟨_, htarget.usedVariables⟩, ⟨_, htarget.sourceFile⟩, _, htarget.lineNumber⟩

theorem isShapeOf_category : IsShapeOf IsCategoryObject (MeansObject DescribesCategory) := by
  refine .object fun fields ↦ ?_
  rw [isShapeOf_categoryName.optional ⟨"", .inl rfl⟩,
    isShapeOf_target.list.optional (exists_meansEach_nil _)]
  constructor
  · rintro ⟨⟨name, hname⟩, targets, htargets⟩
    exact ⟨{ name, targets }, hname, htargets⟩
  · rintro ⟨category, hcategory⟩
    exact ⟨⟨_, hcategory.name⟩, _, hcategory.targets⟩

theorem isShapeOf_fileDoc : IsShapeOf IsFileDocObject (MeansObject DescribesFileDoc) := by
  refine .object fun fields ↦ ?_
  rw [isShapeOf_string.required not_meansString_null,
    isShapeOf_string.list.optional (exists_meansEach_nil _),
    isShapeOf_boolean.optional ⟨false, rfl⟩, isShapeOf_integer.optional ⟨0, rfl⟩]
  constructor
  · rintro ⟨⟨sourceFile, hsourceFile⟩, ⟨documentation, hdocumentation⟩,
      ⟨isEntryPoint, hisEntryPoint⟩, discoveryOrder, hdiscoveryOrder⟩
    exact ⟨{ sourceFile, documentation, isEntryPoint, discoveryOrder },
      hsourceFile, hdocumentation, hisEntryPoint, hdiscoveryOrder⟩
  · rintro ⟨file, hfile⟩
    exact ⟨⟨_, hfile.sourceFile⟩, ⟨_, hfile.documentation⟩, ⟨_, hfile.isEntryPoint⟩,
      _, hfile.discoveryOrder⟩

/-- The documents of the shape are those that describe a model. -/
theorem isModelDocument_iff : IsShapeOf IsModelDocument (MeansObject DescribesModel) := by
  refine .object fun fields ↦ ?_
  rw [isShapeOf_category.list.optional (exists_meansEach_nil _),
    isShapeOf_fileDoc.list.optional (exists_meansEach_nil _)]
  constructor
  · rintro ⟨⟨categories, hcategories⟩, hgrouped, fileDocs, hfileDocs⟩
    obtain ⟨hasCategories, htruth⟩ :=
      ((isShapeOf_categorized categories).optional ⟨_, .inr ⟨rfl, rfl⟩⟩).mp hgrouped
    exact ⟨{ fileDocs, hasCategories, categories }, hcategories, htruth, hfileDocs⟩
  · rintro ⟨model, hmodel⟩
    refine ⟨⟨_, hmodel.categories⟩, ?_, _, hmodel.fileDocs⟩
    exact ((isShapeOf_categorized model.categories).optional ⟨_, .inr ⟨rfl, rfl⟩⟩).mpr
      ⟨_, hmodel.hasCategories⟩

end HelpSheet.Shape
