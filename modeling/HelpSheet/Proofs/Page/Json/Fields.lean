import HelpSheet.Page.Json
import HelpSheet.Proofs.Json.Fields
import HelpSheet.Proofs.Json.RoundTrip

/-!
# Fields of JSON pages

A field of a page is there or left out (`optional`). The objects of targets and variables are what
remains of all their fields when those without content are dropped (`ofListedTarget_eq`,
`ofVariable_eq`), and every view is an object that can be read back (`plain_ofModel`,
`plain_ofTarget`, `plain_ofName`).
-/

set_option autoImplicit false
set_option relaxedAutoImplicit false

namespace HelpSheet.Page.Json

open HelpSheet.Json (field? Plain)
open HelpSheet.Text (joinWith)

/-- A value without content: null, a false, an empty text, a zero or an empty list. -/
def isEmptyValue : HelpSheet.Json → Bool
  | .null => true
  | .bool value => !value
  | .string text => text = ""
  | .int value => value = 0
  | .array items => items.isEmpty
  | .float _ | .object _ => false

/-- The fields with content. -/
def omitEmpty (fields : Fields) : Fields :=
  fields.filter fun field ↦ !isEmptyValue field.2

/-- The value, if it has content. -/
def present? (value : HelpSheet.Json) : Option HelpSheet.Json :=
  if isEmptyValue value then none else some value

/-- A field that is left out where it has no value. -/
def optional (name : String) (value? : Option HelpSheet.Json) : Fields :=
  (value?.map fun value ↦ (name, value)).toList

section Optional

variable {name other : String}

theorem omitEmpty_cons (value : HelpSheet.Json) (fields : Fields) :
    omitEmpty ((name, value) :: fields) = optional name (present? value) ++ omitEmpty fields := by
  cases hempty : isEmptyValue value <;> simp [omitEmpty, optional, present?, hempty]

theorem field?_optional_self (value? : Option HelpSheet.Json) :
    field? (optional name value?) name = value? := by
  cases value? <;> simp [optional, field?]

theorem not_mem_optional (hne : other ≠ name) (value? : Option HelpSheet.Json) :
    other ∉ (optional name value?).map Prod.fst := by
  cases value? <;> simp [optional, hne]

theorem field?_optional_of_ne (hne : other ≠ name) (value? : Option HelpSheet.Json) :
    field? (optional name value?) other = none :=
  HelpSheet.Json.field?_of_not_mem (not_mem_optional hne value?)

theorem textField_eq (text : String) :
    textField name text = optional name (present? (.string text)) := by
  by_cases hempty : text = "" <;> simp [textField, optional, present?, isEmptyValue, hempty]

theorem numberField_eq (number : Int) :
    numberField name number = optional name (present? (.int number)) := by
  by_cases hempty : number = 0 <;> simp [numberField, optional, present?, isEmptyValue, hempty]

theorem listField_eq {α : Type} (convert : α → HelpSheet.Json) (parts : List α) :
    listField name convert parts = optional name (present? (.array (parts.map convert))) := by
  cases parts <;> simp [listField, optional, present?, isEmptyValue]

theorem linesField_eq (lines : List String) :
    linesField name lines = optional name
      (if lines.isEmpty then none else some (.string (joinWith "\n" lines))) := by
  cases lines <;> simp [linesField, optional]

theorem not_mem_textField (hne : other ≠ name) (text : String) :
    other ∉ (textField name text).map Prod.fst := by
  rw [textField_eq]
  exact not_mem_optional hne _

theorem not_mem_listField {α : Type} (hne : other ≠ name) (convert : α → HelpSheet.Json)
    (parts : List α) : other ∉ (listField name convert parts).map Prod.fst := by
  rw [listField_eq]
  exact not_mem_optional hne _

theorem not_mem_linesField (hne : other ≠ name) (lines : List String) :
    other ∉ (linesField name lines).map Prod.fst := by
  rw [linesField_eq]
  exact not_mem_optional hne _

theorem not_mem_description (hne : other ≠ "description") (model : Model) :
    other ∉ (model.entryPoint?.toList.flatMap fun file ↦
      linesField "description" file.documentation).map Prod.fst := by
  cases model.entryPoint? <;> simp [not_mem_linesField hne]

end Optional

theorem ofVariable_eq (entry : Variable) :
    ofVariable entry =
      .object (omitEmpty
        [("name", .string entry.name), ("description", .string entry.description)]) := by
  simp only [ofVariable, textField_eq, omitEmpty_cons]
  simp [omitEmpty]

theorem ofListedTarget_eq (viewpoint : Outline.Viewpoint) (target : Target) :
    ofListedTarget viewpoint target =
      .object (omitEmpty
        [("name", .string target.name),
         ("summary", .string (Markup.RichText.plainText target.summary)),
         ("aliases", .array (target.aliases.map .string)),
         ("variables", .array (target.usedVariables.map ofVariable)),
         ("sourceFile", .string (viewpoint.shorten target.sourceFile)),
         ("lineNumber", .int target.lineNumber)]) := by
  simp only [ofListedTarget, textField_eq, numberField_eq, listField_eq, omitEmpty_cons]
  simp [omitEmpty]

theorem sourceFields_eq (viewpoint : Outline.Viewpoint) (sourceFile : String) (lineNumber : Int) :
    sourceFields viewpoint sourceFile lineNumber =
      optional "sourceFile"
          (if sourceFile = "" then none else some (.string (viewpoint.shorten sourceFile))) ++
        optional "lineNumber" (if sourceFile = "" then none else present? (.int lineNumber)) := by
  by_cases hsource : sourceFile = "" <;> simp [sourceFields, hsource, numberField_eq, optional]

/-! ### Values that can be read back -/

/-- The fields have values that can be read back, and some of the names, in their order. -/
structure PlainFields (names : List String) (fields : Fields) : Prop where
  names_sublist : (fields.map Prod.fst).Sublist names
  plain : ∀ field ∈ fields, Plain field.2

section PlainFields

variable {name : String} {names moreNames : List String} {fields moreFields : Fields}

theorem PlainFields.object (hfields : PlainFields names fields) (hnames : names.Nodup) :
    Plain (.object fields) :=
  .object (hfields.names_sublist.nodup hnames) hfields.plain

theorem PlainFields.append (hfields : PlainFields names fields)
    (hmore : PlainFields moreNames moreFields) :
    PlainFields (names ++ moreNames) (fields ++ moreFields) := by
  constructor
  · rw [List.map_append]
    exact hfields.names_sublist.append hmore.names_sublist
  · intro field hfield
    obtain hfield | hfield := List.mem_append.mp hfield
    · exact hfields.plain field hfield
    · exact hmore.plain field hfield

theorem plainFields_singleton {value : HelpSheet.Json} (hvalue : Plain value) :
    PlainFields [name] [(name, value)] :=
  ⟨List.Sublist.refl _, by simpa using hvalue⟩

theorem plainFields_nil : PlainFields names [] :=
  ⟨List.nil_sublist _, nofun⟩

/-- Fields that may be left out. -/
theorem PlainFields.unless {condition : Prop} [Decidable condition]
    (hfields : PlainFields names fields) :
    PlainFields names (if condition then [] else fields) := by
  split
  · exact plainFields_nil
  · exact hfields

theorem plainFields_listField {α : Type} {convert : α → HelpSheet.Json} {parts : List α}
    (hparts : ∀ part ∈ parts, Plain (convert part)) :
    PlainFields [name] (listField name convert parts) := by
  refine PlainFields.unless (plainFields_singleton (.array fun item hitem ↦ ?_))
  obtain ⟨part, hpart, rfl⟩ := List.mem_map.mp hitem
  exact hparts part hpart

theorem plainFields_textField (text : String) : PlainFields [name] (textField name text) :=
  PlainFields.unless (plainFields_singleton (.string text))

theorem plainFields_numberField (number : Int) : PlainFields [name] (numberField name number) :=
  PlainFields.unless (plainFields_singleton (.int number))

theorem plainFields_linesField (lines : List String) : PlainFields [name] (linesField name lines) :=
  PlainFields.unless (plainFields_singleton (.string _))

end PlainFields

theorem plain_ofVariable (entry : Variable) : Plain (ofVariable entry) :=
  ((plainFields_textField _).append (plainFields_textField _)).object (by decide)

section Views

variable (viewpoint : Outline.Viewpoint)

theorem plainFields_strings {name : String} (texts : List String) :
    PlainFields [name] (listField name HelpSheet.Json.string texts) :=
  plainFields_listField fun text _ ↦ .string text

theorem plainFields_variables {name : String} (entries : List Variable) :
    PlainFields [name] (listField name ofVariable entries) :=
  plainFields_listField fun entry _ ↦ plain_ofVariable entry

theorem plain_ofListedTarget (target : Target) : Plain (ofListedTarget viewpoint target) :=
  ((((((plainFields_textField _).append (plainFields_textField _)).append
    (plainFields_strings _)).append (plainFields_variables _)).append
      (plainFields_textField _)).append (plainFields_numberField _)).object (by decide)

theorem plain_ofCategory (category : Category) : Plain (ofCategory viewpoint category) := by
  have htargets : Plain (.array (category.targets.map (ofListedTarget viewpoint))) := by
    refine .array fun item hitem ↦ ?_
    obtain ⟨target, -, rfl⟩ := List.mem_map.mp hitem
    exact plain_ofListedTarget viewpoint target
  exact ((plainFields_singleton (.string _)).append (plainFields_singleton htargets)).object
    (by decide)

theorem plain_ofIncludedFile (file : FileDoc) : Plain (ofIncludedFile file) :=
  ((plainFields_singleton (.string _)).append (plainFields_linesField _)).object (by decide)

theorem plain_ofModel (model : Model) : Plain (ofModel viewpoint model) := by
  have hdescription : PlainFields ["description"] (model.entryPoint?.toList.flatMap fun file ↦
      linesField "description" file.documentation) := by
    cases model.entryPoint? with
    | none => exact plainFields_nil
    | some file => simpa using plainFields_linesField file.documentation
  have hincluded : PlainFields ["includedFiles"]
      (listField "includedFiles" ofIncludedFile model.includedFiles) :=
    plainFields_listField fun file _ ↦ plain_ofIncludedFile file
  have hcategories : PlainFields ["categories"]
      (listField "categories" (ofCategory viewpoint) model.categories) :=
    plainFields_listField fun category _ ↦ plain_ofCategory viewpoint category
  exact ((((plainFields_singleton (.string _)).append hdescription).append hincluded).append
    hcategories).object (by decide)

theorem plainFields_sourceFields (sourceFile : String) (lineNumber : Int) :
    PlainFields ["sourceFile", "lineNumber"] (sourceFields viewpoint sourceFile lineNumber) :=
  PlainFields.unless ((plainFields_singleton (.string _)).append (plainFields_numberField _))

theorem plain_ofTarget (target : Target) : Plain (ofTarget viewpoint target) :=
  ((((((plainFields_singleton (.string _)).append (plainFields_textField _)).append
    (plainFields_strings _)).append (plainFields_strings _)).append
      (plainFields_variables _)).append (plainFields_sourceFields viewpoint _ _)).object (by decide)

theorem plain_ofName (name sourceFile : String) (lineNumber : Int) :
    Plain (ofName viewpoint name sourceFile lineNumber) :=
  ((plainFields_singleton (.string name)).append (plainFields_sourceFields viewpoint _ _)).object
    (by decide)

end Views

end HelpSheet.Page.Json
