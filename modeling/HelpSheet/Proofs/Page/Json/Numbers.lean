import HelpSheet.Page.Renderer
import HelpSheet.Proofs.Json.Integers

/-!
# Numbers on pages

The only numbers on a page are those of lines. A page in JSON can be written unless one of them is
too long (`isShort_value_iff`); on a help page these are the line numbers of all targets, in the
view of a target it is the number of the place, where the target has one (`View.HasShortNumbers`).
-/

set_option autoImplicit false
set_option relaxedAutoImplicit false

namespace HelpSheet

namespace Page

open Text.Numeral (IsShort)

/-- Every line number on the page that shows a view is short enough to be written; on a help page
only JSON has any. -/
def View.HasShortNumbers (format : Format) : View → Prop
  | .help model => format = .json → ∀ target ∈ model.targets, IsShort target.lineNumber
  | .detailed target => target.sourceFile ≠ "" → IsShort target.lineNumber
  | .basic _ sourceFile lineNumber => sourceFile ≠ "" → IsShort lineNumber

namespace Json

open HelpSheet.Json (isShort_int isShort_string isShort_array isShort_object)

/-! ### Fields that may be left out -/

section Fields

variable {p : String × HelpSheet.Json → Prop} {name : String}

theorem forall_mem_textField {value : String} (hvalue : p (name, .string value)) :
    ∀ field ∈ textField name value, p field := by
  unfold textField
  split
  · exact List.forall_mem_nil _
  · exact List.forall_mem_singleton.mpr hvalue

theorem forall_mem_numberField {value : Int} (hvalue : p (name, .int value)) :
    ∀ field ∈ numberField name value, p field := by
  unfold numberField
  split
  · exact List.forall_mem_nil _
  · exact List.forall_mem_singleton.mpr hvalue

theorem forall_mem_linesField {lines : List String}
    (hlines : p (name, .string (Text.joinWith "\n" lines))) :
    ∀ field ∈ linesField name lines, p field := by
  unfold linesField
  split
  · exact List.forall_mem_nil _
  · exact List.forall_mem_singleton.mpr hlines

theorem forall_mem_listField {α : Type} {convert : α → HelpSheet.Json} {items : List α}
    (hitems : p (name, .array (items.map convert))) :
    ∀ field ∈ listField name convert items, p field := by
  unfold listField
  split
  · exact List.forall_mem_nil _
  · exact List.forall_mem_singleton.mpr hitems

end Fields

/-! ### Numbers in fields -/

/-- Every integer in the fields is short enough to be written. -/
def AreShort (fields : Fields) : Prop :=
  ∀ field ∈ fields, field.2.IsShort

theorem areShort_append {first second : Fields} :
    AreShort (first ++ second) ↔ AreShort first ∧ AreShort second :=
  List.forall_mem_append

theorem areShort_cons {name : String} {value : HelpSheet.Json} {fields : Fields} :
    AreShort ((name, value) :: fields) ↔ value.IsShort ∧ AreShort fields :=
  List.forall_mem_cons

theorem areShort_textField (name value : String) : AreShort (textField name value) :=
  forall_mem_textField (isShort_string value)

theorem areShort_linesField (name : String) (lines : List String) :
    AreShort (linesField name lines) :=
  forall_mem_linesField (isShort_string _)

theorem areShort_numberField {name : String} {value : Int} :
    AreShort (numberField name value) ↔ IsShort value := by
  unfold numberField
  split
  · next hzero =>
    exact iff_of_true (List.forall_mem_nil _) (hzero ▸ Text.Numeral.isShort_zero)
  · exact List.forall_mem_singleton.trans isShort_int

theorem areShort_listField {α : Type} {name : String} {convert : α → HelpSheet.Json}
    {items : List α} :
    AreShort (listField name convert items) ↔ ∀ item ∈ items, (convert item).IsShort := by
  unfold listField
  split
  · next hempty => simp [AreShort, List.isEmpty_iff.mp hempty]
  · simp [AreShort, isShort_array]

theorem areShort_strings (name : String) (texts : List String) :
    AreShort (listField name HelpSheet.Json.string texts) :=
  areShort_listField.mpr fun text _ ↦ isShort_string text

theorem areShort_variables (name : String) (entries : List Variable) :
    AreShort (listField name ofVariable entries) :=
  areShort_listField.mpr fun _ _ ↦
    isShort_object.mpr (areShort_append.mpr ⟨areShort_textField _ _, areShort_textField _ _⟩)

theorem areShort_sourceFields {viewpoint : Outline.Viewpoint} {sourceFile : String}
    {lineNumber : Int} :
    AreShort (sourceFields viewpoint sourceFile lineNumber) ↔
      (sourceFile ≠ "" → IsShort lineNumber) := by
  unfold sourceFields
  split
  · next hsource => exact iff_of_true (List.forall_mem_nil _) fun hne ↦ absurd hsource hne
  · next hsource =>
    rw [areShort_cons, areShort_numberField]
    exact ⟨fun h _ ↦ h.2, fun h ↦ ⟨isShort_string _, h hsource⟩⟩

/-! ### Numbers in views -/

theorem isShort_ofListedTarget_iff {viewpoint : Outline.Viewpoint} {target : Target} :
    (ofListedTarget viewpoint target).IsShort ↔ IsShort target.lineNumber := by
  rw [ofListedTarget, isShort_object]
  change AreShort _ ↔ _
  simp only [areShort_append, areShort_textField, areShort_strings, areShort_variables,
    areShort_numberField, true_and]

theorem isShort_ofCategory_iff {viewpoint : Outline.Viewpoint} {category : Category} :
    (ofCategory viewpoint category).IsShort ↔
      ∀ target ∈ category.targets, IsShort target.lineNumber := by
  rw [ofCategory, isShort_object, List.forall_mem_cons, List.forall_mem_singleton, isShort_array,
    List.forall_mem_map]
  simp only [isShort_string, isShort_ofListedTarget_iff, true_and]

theorem isShort_ofIncludedFile (file : FileDoc) : (ofIncludedFile file).IsShort :=
  isShort_object.mpr (areShort_cons.mpr ⟨isShort_string _, areShort_linesField _ _⟩)

theorem isShort_ofModel_iff {viewpoint : Outline.Viewpoint} {model : Model} :
    (ofModel viewpoint model).IsShort ↔
      ∀ target ∈ model.targets, IsShort target.lineNumber := by
  have hdescription : AreShort (model.entryPoint?.toList.flatMap fun file ↦
      linesField "description" file.documentation) :=
    List.forall_mem_flatMap.mpr fun file _ ↦ areShort_linesField _ _
  have hincluded : AreShort (listField "includedFiles" ofIncludedFile model.includedFiles) :=
    areShort_listField.mpr fun file _ ↦ isShort_ofIncludedFile file
  rw [ofModel, isShort_object]
  change AreShort _ ↔ _
  simp only [areShort_append, List.cons_append, areShort_cons, isShort_string, hdescription,
    hincluded, areShort_listField, isShort_ofCategory_iff, true_and, Model.targets,
    List.forall_mem_flatMap]

/-- The object of a view can be written exactly where the page shows no number that is too long. -/
theorem isShort_value_iff {viewpoint : Outline.Viewpoint} {view : View} :
    (Renderer.value viewpoint view).IsShort ↔ view.HasShortNumbers .json := by
  cases view with
  | help model =>
    exact isShort_ofModel_iff.trans ⟨fun h _ ↦ h, fun h ↦ h rfl⟩
  | detailed target =>
    rw [Renderer.value, ofTarget, isShort_object]
    change AreShort _ ↔ (target.sourceFile ≠ "" → IsShort target.lineNumber)
    simp only [List.cons_append, areShort_cons, areShort_append, isShort_string,
      areShort_textField, areShort_strings, areShort_variables, areShort_sourceFields, true_and]
  | basic name sourceFile lineNumber =>
    rw [Renderer.value, ofName, isShort_object]
    change AreShort _ ↔ (sourceFile ≠ "" → IsShort lineNumber)
    simp only [areShort_cons, isShort_string, areShort_sourceFields, true_and]

end Json

end Page

end HelpSheet
