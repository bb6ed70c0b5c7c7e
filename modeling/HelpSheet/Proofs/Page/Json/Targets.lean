import HelpSheet.Proofs.Page.Json.Folding
import HelpSheet.Proofs.Path.Destination

/-!
# The two JSON objects of a target

A target is shown in the list of targets and in its own view, whose object is folded from its
outline (`foldTarget?_ofTarget`). Apart from the documentation, the two objects differ in an empty
name, which only the view has, and in the line number of a target without a source file, which only
the list has. So they agree if and only if neither occurs (`detailed_agrees_iff`), and a target may
well have a line number only (`not_forall_detailed_agrees`).
-/

set_option autoImplicit false
set_option relaxedAutoImplicit false

namespace HelpSheet.Page.Json

open HelpSheet.Json (field? setField field?_append setField_of_not_mem)

/-! ### The object of a view of a target -/

/-- The fields of a target in its own view. -/
def detailedFields (viewpoint : Outline.Viewpoint) (target : Target) : Fields :=
  optional "name" (some (.string target.name)) ++
    optional "summary" (present? (.string (Markup.RichText.plainText target.summary))) ++
    optional "documentation" (present? (.array (target.documentation.map .string))) ++
    optional "aliases" (present? (.array (target.aliases.map .string))) ++
    optional "variables" (present? (.array (target.usedVariables.map ofVariable))) ++
    optional "sourceFile" (if target.sourceFile = "" then none
      else some (.string (viewpoint.shorten target.sourceFile))) ++
    optional "lineNumber" (if target.sourceFile = "" then none
      else present? (.int target.lineNumber))

theorem ofTarget_eq (viewpoint : Outline.Viewpoint) (target : Target) :
    ofTarget viewpoint target = .object (detailedFields viewpoint target) := by
  simp [ofTarget, detailedFields, textField_eq, listField_eq, sourceFields_eq, optional]

/-! ### Folding the outline of a target -/

section Detailed

variable (viewpoint : Outline.Viewpoint) {front : Fields}

theorem folds_aliasesSection (hfront : "aliases" ∉ front.map Prod.fst) (names : List String) :
    Folds foldTargetItem? (Outline.aliasesSection names) front
      (front ++ listField "aliases" HelpSheet.Json.string names) := by
  unfold Outline.aliasesSection listField
  split
  · rw [List.append_nil]
    exact folds_nil front
  · refine folds_item ?_
    rw [foldTargetItem?, setField_of_not_mem _ hfront]

theorem folds_variablesSection (hfront : "variables" ∉ front.map Prod.fst)
    (entries : List Variable) :
    Folds foldTargetItem? (Outline.variablesSection entries) front
      (front ++ listField "variables" ofVariable entries) := by
  have hentry : ∀ done entry, foldTargetItem? (front ++ listField "variables" ofVariable done)
      (.variableEntry entry) = some (front ++ listField "variables" ofVariable (done ++ [entry])) :=
    push?_listField hfront ofVariable
  have hentries := folds_listField_map hentry entries
  exact (hentries.enclosed rfl rfl).unlessEmpty

theorem folds_documentationSection (hfront : "documentation" ∉ front.map Prod.fst)
    (target : Target) :
    Folds foldTargetItem? (Outline.documentationSection target) front
      (front ++ listField "documentation" HelpSheet.Json.string target.documentation) := by
  have hline : ∀ done line,
      foldTargetItem? (front ++ listField "documentation" HelpSheet.Json.string done)
        (.documentationLine line) =
          some (front ++ listField "documentation" HelpSheet.Json.string (done ++ [line])) :=
    push?_listField hfront HelpSheet.Json.string
  have hlines : Folds foldTargetItem?
      (.documentationStart :: target.documentation.map .documentationLine ++ [.documentationEnd])
      front (front ++ listField "documentation" HelpSheet.Json.string target.documentation) :=
    (folds_listField_map hline target.documentation).enclosed rfl rfl
  have hseparator : Folds foldTargetItem?
      (if target.usedVariables.isEmpty then [] else [.separator]) front front := by
    split
    · exact folds_nil front
    · exact folds_item rfl
  have hbody := hseparator.append hlines
  rw [← List.append_assoc] at hbody
  exact hbody.unlessEmpty

theorem folds_sourceSection (hsource : "sourceFile" ∉ front.map Prod.fst)
    (hline : "lineNumber" ∉ front.map Prod.fst) (sourceFile : String) (lineNumber : Int) :
    Folds foldTargetItem? (Outline.sourceSection viewpoint sourceFile lineNumber) front
      (front ++ sourceFields viewpoint sourceFile lineNumber) := by
  unfold Outline.sourceSection sourceFields
  split
  · rw [List.append_nil]
    exact folds_nil front
  · refine folds_item ?_
    have hlonger : ∀ path, "lineNumber" ∉ (front ++ [("sourceFile", path)]).map Prod.fst := by
      simpa using hline
    by_cases hnumber : lineNumber = 0
    · simp [foldTargetItem?, setField_of_not_mem _ hsource, hnumber, numberField]
    · simp [foldTargetItem?, setField_of_not_mem _ hsource, setField_of_not_mem _ (hlonger _),
        hnumber, numberField]

/-- What is gathered from the items of a detailed view. -/
theorem folds_ofTarget (target : Target) :
    Folds foldTargetItem? (Outline.ofTarget viewpoint target) []
      ([("name", .string target.name)] ++
        textField "summary" (Markup.RichText.plainText target.summary) ++
        listField "aliases" HelpSheet.Json.string target.aliases ++
        listField "variables" ofVariable target.usedVariables ++
        listField "documentation" HelpSheet.Json.string target.documentation ++
        sourceFields viewpoint target.sourceFile target.lineNumber) := by
  have htitle : Folds foldTargetItem? [.title target.name target] []
      ([("name", .string target.name)] ++
        textField "summary" (Markup.RichText.plainText target.summary)) := by
    refine folds_item ?_
    by_cases hsummary : Markup.RichText.plainText target.summary = ""
    · simp [foldTargetItem?, hsummary, textField, setField]
    · simp [foldTargetItem?, hsummary, textField, setField]
  have haliases : "aliases" ∉ ([("name", HelpSheet.Json.string target.name)] ++
      textField "summary" (Markup.RichText.plainText target.summary)).map Prod.fst := by
    simp [not_mem_textField]
  have hvariables : "variables" ∉ ([("name", HelpSheet.Json.string target.name)] ++
      textField "summary" (Markup.RichText.plainText target.summary) ++
        listField "aliases" HelpSheet.Json.string target.aliases).map Prod.fst := by
    simp [not_mem_textField, not_mem_listField]
  have hfolded := (htitle.append (folds_aliasesSection haliases target.aliases)).append
    (folds_variablesSection hvariables target.usedVariables)
  refine (hfolded.append (folds_documentationSection ?_ target)).append
    (folds_sourceSection viewpoint ?_ ?_ target.sourceFile target.lineNumber)
  all_goals simp [not_mem_textField, not_mem_listField]

/-- The fields that are there in the order of their names, one name after another. -/
theorem inOrder_cons (name : String) (names : List String) (fields : Fields) :
    inOrder (name :: names) fields =
      optional name (field? fields name) ++ inOrder names fields := by
  cases hfield : field? fields name <;> simp [inOrder, optional, hfield]

/-- The documentation is moved in front of the aliases. -/
theorem inOrder_shownNames (name? summary? aliases? variables? documentation? source? line? :
    Option HelpSheet.Json) :
    inOrder shownNames
        (optional "name" name? ++ optional "summary" summary? ++ optional "aliases" aliases? ++
          optional "variables" variables? ++ optional "documentation" documentation? ++
          optional "sourceFile" source? ++ optional "lineNumber" line?) =
      optional "name" name? ++ optional "summary" summary? ++
        optional "documentation" documentation? ++ optional "aliases" aliases? ++
        optional "variables" variables? ++ optional "sourceFile" source? ++
        optional "lineNumber" line? := by
  have hnil : ∀ fields, inOrder [] fields = [] := fun _ ↦ rfl
  simp [shownNames, inOrder_cons, hnil, field?_append, field?_optional_self, field?_optional_of_ne]

/-- The object that is folded from the outline of a target is the one that its page shows. -/
theorem foldTarget?_ofTarget (target : Target) :
    foldTarget? (Outline.ofTarget viewpoint target) = some (detailedFields viewpoint target) := by
  have hgathered := folds_ofTarget viewpoint target
  have hname : [("name", HelpSheet.Json.string target.name)] =
      optional "name" (some (.string target.name)) :=
    rfl
  unfold Folds at hgathered
  rw [hname, textField_eq, listField_eq, listField_eq, listField_eq, sourceFields_eq,
    ← List.append_assoc] at hgathered
  rw [foldTarget?, hgathered]
  exact congrArg some (inOrder_shownNames ..)

/-- What is gathered from the items of the view of a target without documentation. -/
theorem folds_ofName (name sourceFile : String) (lineNumber : Int) :
    Folds foldTargetItem? (Outline.ofName viewpoint name sourceFile lineNumber) []
      ([("name", .string name)] ++ sourceFields viewpoint sourceFile lineNumber) := by
  have hopening : Folds foldTargetItem?
      [.title name none, .noDocumentation Outline.noDocumentationNotice] []
      [("name", .string name)] :=
    rfl
  exact hopening.append
    (folds_sourceSection viewpoint (by simp) (by simp) sourceFile lineNumber)

/-- The object that is folded from the outline of a target without documentation is the one that
its page shows. -/
theorem foldTarget?_ofName (name sourceFile : String) (lineNumber : Int) :
    (foldTarget? (Outline.ofName viewpoint name sourceFile lineNumber)).map .object =
      some (ofName viewpoint name sourceFile lineNumber) := by
  have hgathered := folds_ofName viewpoint name sourceFile lineNumber
  have hordered := inOrder_shownNames (some (.string name)) none none none none
    (if sourceFile = "" then none else some (.string (viewpoint.shorten sourceFile)))
    (if sourceFile = "" then none else present? (.int lineNumber))
  have hnone : ∀ name, optional name none = [] := fun _ ↦ rfl
  have hname : optional "name" (some (.string name)) = [("name", .string name)] := rfl
  simp only [hnone, hname, List.append_nil, List.append_assoc, ← sourceFields_eq] at hordered
  unfold Folds at hgathered
  rw [foldTarget?, hgathered, Option.bind_eq_bind, Option.bind_some, hordered]
  rfl

end Detailed

/-! ### The two objects -/

/-- The fields of other names. -/
def without (name : String) (fields : Fields) : Fields :=
  fields.filter fun field ↦ field.1 ≠ name

section Without

variable {name other : String}

theorem without_append (first second : Fields) :
    without name (first ++ second) = without name first ++ without name second :=
  List.filter_append ..

theorem without_optional_self (value? : Option HelpSheet.Json) :
    without name (optional name value?) = [] := by
  cases value? <;> simp [without, optional]

theorem without_optional_of_ne (hne : other ≠ name) (value? : Option HelpSheet.Json) :
    without name (optional other value?) = optional other value? := by
  cases value? <;> simp [without, optional, hne]

end Without

variable (viewpoint : Outline.Viewpoint) (target : Target)

/-- The fields of a target in the list of targets. -/
def listedFields : Fields :=
  optional "name" (present? (.string target.name)) ++
    optional "summary" (present? (.string (Markup.RichText.plainText target.summary))) ++
    optional "aliases" (present? (.array (target.aliases.map .string))) ++
    optional "variables" (present? (.array (target.usedVariables.map ofVariable))) ++
    optional "sourceFile" (present? (.string (viewpoint.shorten target.sourceFile))) ++
    optional "lineNumber" (present? (.int target.lineNumber))

theorem ofListedTarget_eq_listedFields :
    ofListedTarget viewpoint target = .object (listedFields viewpoint target) := by
  simp only [ofListedTarget, listedFields, textField_eq, listField_eq, numberField_eq]

theorem present?_shorten :
    present? (.string (viewpoint.shorten target.sourceFile)) =
      if target.sourceFile = "" then none
      else some (.string (viewpoint.shorten target.sourceFile)) := by
  have hempty : viewpoint.shorten target.sourceFile = "" ↔ target.sourceFile = "" :=
    Path.shorten_eq_empty_iff
  by_cases hsource : target.sourceFile = ""
  · rw [if_pos hsource, hempty.mpr hsource]
    rfl
  · rw [if_neg hsource]
    simp [present?, isEmptyValue, mt hempty.mp hsource]

/-- The view adds an empty name to what the list says, and takes away the line number of a target
without a source file. -/
theorem without_documentation_detailedFields :
    without "documentation" (detailedFields viewpoint target) =
      (if target.name = "" then [("name", .string "")] else []) ++
        (if target.sourceFile = "" then without "lineNumber" (listedFields viewpoint target)
         else listedFields viewpoint target) := by
  have hname : without "documentation" (optional "name" (some (.string target.name))) =
      (if target.name = "" then [("name", .string "")] else []) ++
        optional "name" (present? (.string target.name)) := by
    rw [without_optional_of_ne (by decide)]
    by_cases hempty : target.name = "" <;> simp [optional, present?, isEmptyValue, hempty]
  have hnone : ∀ name, optional name none = [] := fun _ ↦ rfl
  have hnil : ∀ name, without name [] = [] := fun _ ↦ rfl
  simp only [detailedFields, listedFields, without_append, without_optional_self, hname,
    present?_shorten]
  by_cases hsource : target.sourceFile = ""
  · simp [without_optional_of_ne, hsource, hnone, hnil]
  · simp [without_optional_of_ne, hsource]

theorem field?_name_detailedFields :
    field? (without "documentation" (detailedFields viewpoint target)) "name" =
      some (.string target.name) := by
  simp [detailedFields, without_append, without_optional_of_ne, field?_append, field?_optional_self]

theorem field?_name_listedFields :
    field? (listedFields viewpoint target) "name" = present? (.string target.name) := by
  simp [listedFields, field?_append, field?_optional_self, field?_optional_of_ne]

theorem field?_lineNumber_detailedFields :
    field? (without "documentation" (detailedFields viewpoint target)) "lineNumber" =
      if target.sourceFile = "" then none else present? (.int target.lineNumber) := by
  simp [detailedFields, without_append, without_optional_self, without_optional_of_ne,
    field?_append, field?_optional_self, field?_optional_of_ne]

theorem field?_lineNumber_listedFields :
    field? (listedFields viewpoint target) "lineNumber" = present? (.int target.lineNumber) := by
  simp [listedFields, field?_append, field?_optional_self, field?_optional_of_ne]

theorem without_documentation_detailedFields_eq_iff :
    without "documentation" (detailedFields viewpoint target) = listedFields viewpoint target ↔
      target.name ≠ "" ∧ (target.sourceFile = "" → target.lineNumber = 0) := by
  constructor
  · -- Equal objects have the same under the two names in which they may differ.
    intro hequal
    have hname := congrArg (fun fields ↦ field? fields "name") hequal
    have hline := congrArg (fun fields ↦ field? fields "lineNumber") hequal
    simp only [field?_name_detailedFields, field?_name_listedFields] at hname
    simp only [field?_lineNumber_detailedFields, field?_lineNumber_listedFields] at hline
    constructor
    · intro hempty
      simp [present?, isEmptyValue, hempty] at hname
    · intro hsource
      by_contra hnumber
      simp [present?, isEmptyValue, hsource, hnumber] at hline
  · rintro ⟨hname, hline⟩
    rw [without_documentation_detailedFields, if_neg hname, List.nil_append]
    by_cases hsource : target.sourceFile = ""
    · have hnumber : present? (.int target.lineNumber) = none := by
        rw [hline hsource]
        rfl
      have hnone : without "lineNumber" (optional "lineNumber" none) = optional "lineNumber" none :=
        rfl
      rw [if_pos hsource, listedFields, hnumber]
      simp [without_append, without_optional_of_ne, hnone]
    · rw [if_neg hsource]

/-- A target in its own view and in the list of targets. Apart from the documentation, the objects
are equal exactly when the target has a name, and a line number only beside a source file. -/
theorem detailed_agrees_iff :
    ∃ detailed listed,
      foldTarget? (Outline.ofTarget viewpoint target) = some detailed ∧
      ofTarget viewpoint target = .object detailed ∧
      ofListedTarget viewpoint target = .object listed ∧
      without "documentation" detailed =
        (if target.name = "" then [("name", .string "")] else []) ++
          (if target.sourceFile = "" then without "lineNumber" listed else listed) ∧
      (without "documentation" detailed = listed ↔
        target.name ≠ "" ∧ (target.sourceFile = "" → target.lineNumber = 0)) :=
  ⟨_, _, foldTarget?_ofTarget viewpoint target, ofTarget_eq viewpoint target,
    ofListedTarget_eq_listedFields viewpoint target,
    without_documentation_detailedFields viewpoint target,
    without_documentation_detailedFields_eq_iff viewpoint target⟩

/-- The list shows the line number of a target without a source file, its own view does not. -/
theorem not_forall_detailed_agrees :
    ¬ ∀ (viewpoint : Outline.Viewpoint) (target : Target) (detailed listed : Fields),
      ofTarget viewpoint target = .object detailed →
        ofListedTarget viewpoint target = .object listed →
          without "documentation" detailed = listed := by
  intro hall
  let viewpoint : Outline.Viewpoint := { workingDirectory := "/" }
  let target : Target := { name := "t", lineNumber := 5 }
  have hagrees := hall viewpoint target _ _ (ofTarget_eq viewpoint target)
    (ofListedTarget_eq_listedFields viewpoint target)
  have hline := ((without_documentation_detailedFields_eq_iff viewpoint target).mp hagrees).2 rfl
  exact absurd hline (by decide)

end HelpSheet.Page.Json
