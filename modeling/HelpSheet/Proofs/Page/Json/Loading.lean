import HelpSheet.Proofs.Model.Reading
import HelpSheet.Proofs.Page.Json.Help

/-!
# Loading what a JSON help page says

The groups of targets on a JSON help page are the groups of a document that describes a model: what
a page leaves out is what such a document means where a field is missing
(`valueOf_omitEmpty`). Loading the page gives all of the groups again but for the documentation,
which a help page does not have (`helpPage_loads`).
-/

set_option autoImplicit false
set_option relaxedAutoImplicit false

namespace HelpSheet

/-- What a help page tells of a target. -/
def Target.listed (target : Target) : Target :=
  { target with documentation := [], summary := [] }

/-- What a help page tells of a group of targets. -/
def Category.listed (category : Category) : Category :=
  { category with targets := category.targets.map Target.listed }

/-- Every target of the model has a name, and so has every variable of a target. -/
def Model.IsNamed (model : Model) : Prop :=
  ∀ category ∈ model.categories, ∀ target ∈ category.targets,
    target.name ≠ "" ∧ ∀ entry ∈ target.usedVariables, entry.name ≠ ""

end HelpSheet

namespace HelpSheet.Page.Json

open HelpSheet.Json (field? field?_append parse)
open HelpSheet.Shape (DescribesCategory DescribesModel DescribesTarget DescribesVariable MeansEach
  MeansObject readModel readModel_ok_iff valueOf)

/-! ### Fields that are left out -/

section OmitEmpty

variable {fields : Fields} {name : String} {value default : HelpSheet.Json}

theorem field?_omitEmpty (hnames : (fields.map Prod.fst).Nodup) :
    field? (omitEmpty fields) name = (field? fields name).bind present? := by
  induction fields with
  | nil => rfl
  | cons field fields ih =>
    obtain ⟨first, value⟩ := field
    rw [List.map_cons, List.nodup_cons] at hnames
    rw [omitEmpty_cons, field?_append, ih hnames.2]
    by_cases hname : name = first
    · subst hname
      rw [field?_optional_self, HelpSheet.Json.field?_of_not_mem hnames.1]
      simp [field?]
    · rw [field?_optional_of_ne hname, Option.none_or]
      simp [field?, List.lookup_cons, beq_false_of_ne hname]

/-- A field without content may be left out where a missing field means the same. -/
theorem valueOf_omitEmpty (hnames : (fields.map Prod.fst).Nodup)
    (hvalue : field? fields name = some value)
    (hdefault : isEmptyValue value = true → value = default) :
    valueOf (omitEmpty fields) name default = value := by
  rw [valueOf, field?_omitEmpty hnames, hvalue, Option.bind_some, present?]
  split
  · next hempty => rw [Option.getD_none, hdefault hempty]
  · rw [Option.getD_some]

theorem eq_of_isEmptyValue_string {text : String} (hempty : isEmptyValue (.string text) = true) :
    HelpSheet.Json.string text = .string "" := by
  simpa [isEmptyValue] using hempty

theorem eq_of_isEmptyValue_int {number : Int} (hempty : isEmptyValue (.int number) = true) :
    HelpSheet.Json.int number = .int 0 := by
  simpa [isEmptyValue] using hempty

theorem eq_of_isEmptyValue_array {items : List HelpSheet.Json}
    (hempty : isEmptyValue (.array items) = true) : HelpSheet.Json.array items = .array [] := by
  simpa [isEmptyValue] using hempty

theorem eq_of_isEmptyValue_name {text : String} {default : HelpSheet.Json} (hname : text ≠ "")
    (hempty : isEmptyValue (.string text) = true) : HelpSheet.Json.string text = default := by
  simp [isEmptyValue, hname] at hempty

end OmitEmpty

/-! ### What the objects of a page mean -/

/-- Parts that are written one by one are told one by one. -/
theorem meansEach_map {α β : Type} {means : HelpSheet.Json → β → Prop}
    {write : α → HelpSheet.Json} (told : α → β) {parts : List α}
    (hparts : ∀ part ∈ parts, means (write part) (told part)) :
    MeansEach means (.array (parts.map write)) (parts.map told) := by
  refine ⟨_, rfl, ?_⟩
  rw [List.forall₂_map_left_iff, List.forall₂_map_right_iff, List.forall₂_same]
  exact hparts

theorem meansEach_map_self {α : Type} {means : HelpSheet.Json → α → Prop}
    {write : α → HelpSheet.Json} {parts : List α}
    (hparts : ∀ part ∈ parts, means (write part) part) :
    MeansEach means (.array (parts.map write)) parts := by
  have htold := meansEach_map id hparts
  rwa [List.map_id] at htold

theorem describes_ofVariable {entry : Variable} (hname : entry.name ≠ "") :
    MeansObject DescribesVariable (ofVariable entry) entry := by
  have hnames : ["name", "description"].Nodup := by decide
  refine ⟨_, ofVariable_eq entry, ?_, ?_⟩
  · exact valueOf_omitEmpty hnames rfl (eq_of_isEmptyValue_name hname)
  · exact valueOf_omitEmpty hnames rfl eq_of_isEmptyValue_string

section Targets

variable {viewpoint : Outline.Viewpoint}

theorem describes_ofListedTarget (hshorten : ∀ source, viewpoint.shorten source = source)
    {target : Target} (hname : target.name ≠ "")
    (hvariables : ∀ entry ∈ target.usedVariables, entry.name ≠ "") :
    MeansObject DescribesTarget (ofListedTarget viewpoint target) target.listed := by
  let fields : Fields :=
    [("name", .string target.name),
     ("summary", .string (Markup.RichText.plainText target.summary)),
     ("aliases", .array (target.aliases.map .string)),
     ("variables", .array (target.usedVariables.map ofVariable)),
     ("sourceFile", .string target.sourceFile),
     ("lineNumber", .int target.lineNumber)]
  have hnames : (fields.map Prod.fst).Nodup := by
    change ["name", "summary", "aliases", "variables", "sourceFile", "lineNumber"].Nodup
    decide
  have hwritten : ofListedTarget viewpoint target = .object (omitEmpty fields) := by
    rw [ofListedTarget_eq, hshorten]
  have hdocumentation : valueOf (omitEmpty fields) "documentation" (.array []) = .array [] := by
    rw [valueOf, field?_omitEmpty hnames]
    rfl
  have haliases : valueOf (omitEmpty fields) "aliases" (.array []) =
      .array (target.aliases.map .string) :=
    valueOf_omitEmpty hnames rfl eq_of_isEmptyValue_array
  have hentries : valueOf (omitEmpty fields) "variables" (.array []) =
      .array (target.usedVariables.map ofVariable) :=
    valueOf_omitEmpty hnames rfl eq_of_isEmptyValue_array
  refine ⟨_, hwritten, ?_, ?_, ?_, ?_, ?_, ?_, rfl⟩
  · exact valueOf_omitEmpty hnames rfl (eq_of_isEmptyValue_name hname)
  · rw [hdocumentation]
    exact ⟨[], rfl, .nil⟩
  · rw [haliases]
    exact meansEach_map_self fun _ _ ↦ rfl
  · rw [hentries]
    exact meansEach_map_self fun entry hentry ↦ describes_ofVariable (hvariables entry hentry)
  · exact valueOf_omitEmpty hnames rfl eq_of_isEmptyValue_string
  · exact valueOf_omitEmpty hnames rfl eq_of_isEmptyValue_int

theorem describes_ofCategory (hshorten : ∀ source, viewpoint.shorten source = source)
    {category : Category} (hnamed : ∀ target ∈ category.targets,
      target.name ≠ "" ∧ ∀ entry ∈ target.usedVariables, entry.name ≠ "") :
    MeansObject DescribesCategory (ofCategory viewpoint category) category.listed := by
  refine ⟨_, rfl, .inl rfl, ?_⟩
  exact meansEach_map Target.listed fun target htarget ↦
    describes_ofListedTarget hshorten (hnamed target htarget).1 (hnamed target htarget).2

end Targets

/-! ### Loading a page -/

/-- The groups of targets of a page, none where the page does not name them. -/
def pageCategories (fields : Fields) : HelpSheet.Json :=
  valueOf fields "categories" (.array [])

theorem exists_ofModel_eq (viewpoint : Outline.Viewpoint) (model : Model) :
    ∃ fields, ofModel viewpoint model = .object fields ∧
      pageCategories fields = .array (model.categories.map (ofCategory viewpoint)) := by
  refine ⟨_, rfl, ?_⟩
  have hdescription : "categories" ∉ (model.entryPoint?.toList.flatMap fun file ↦
      linesField "description" file.documentation).map Prod.fst := by
    cases model.entryPoint? <;> simp [not_mem_linesField]
  have hincluded : "categories" ∉
      (listField "includedFiles" ofIncludedFile model.includedFiles).map Prod.fst :=
    not_mem_listField (by decide) _ _
  rw [pageCategories, valueOf, HelpSheet.Json.field?_append_of_not_mem]
  · rw [listField]
    cases model.categories <;> simp [field?]
  · simp only [List.cons_append, List.map_cons, List.map_append, List.mem_cons, List.mem_append,
      not_or]
    exact ⟨by decide, hdescription, hincluded⟩

/-- The groups of targets on a JSON help page can be loaded as the groups of a model. All that the
page tells of them is loaded, in its order; only the documentation is not on the page. -/
theorem helpPage_loads {options : Options} (hbase : options.base = none)
    (workingDirectory : String) {model : Model} (hnamed : model.IsNamed) :
    ∃ fields loaded,
      parse ((renderer options).page workingDirectory (.help model)) = .ok (.object fields) ∧
      (readModel (.object [("categories", pageCategories fields)])).outcome = .ok loaded ∧
      loaded.categories = model.categories.map Category.listed := by
  let viewpoint := (renderer options).viewpoint workingDirectory
  have hshorten : ∀ source, viewpoint.shorten source = source := by
    intro source
    simp [viewpoint, Outline.Viewpoint.shorten, Renderer.viewpoint, renderer, hbase, Path.shorten]
  obtain ⟨fields, hfields, hcategories⟩ := exists_ofModel_eq viewpoint model
  let groups := model.categories.map Category.listed
  let loaded : Model :=
    { categories := groups, hasCategories := groups.any fun category ↦ !category.isUnnamed }
  have hdescribes : DescribesModel [("categories", pageCategories fields)] loaded := by
    refine ⟨?_, .inr ⟨rfl, rfl⟩, [], rfl, .nil⟩
    rw [hcategories]
    exact meansEach_map Category.listed fun category hcategory ↦
      describes_ofCategory hshorten (hnamed category hcategory)
  refine ⟨fields, loaded, ?_, readModel_ok_iff.mpr ⟨_, rfl, hdescribes⟩, rfl⟩
  rw [parse_page]
  exact congrArg _ hfields

/-- Two groups, one of them without a name, with a target of which little is known and one with a
large line number. -/
def groupedModel : Model where
  categories :=
    [{ name := "", targets := [{ name := "say \"hi\"", aliases := ["", "h\n"] }] },
     { name := "Build"
       targets :=
         [{ name := "build", documentation := ["Builds."], usedVariables := [{ name := "GOOS" }]
            sourceFile := "/p/Makefile", lineNumber := 4294967296 }] }]

theorem helpPage_loads_groupedModel :
    groupedModel.IsNamed ∧ ∃ fields loaded,
      parse ((renderer {}).page "/" (.help groupedModel)) = .ok (.object fields) ∧
      (readModel (.object [("categories", pageCategories fields)])).outcome = .ok loaded ∧
      loaded.categories =
        [{ name := "", targets := [{ name := "say \"hi\"", aliases := ["", "h\n"] }] },
         { name := "Build"
           targets :=
             [{ name := "build", usedVariables := [{ name := "GOOS" }]
                sourceFile := "/p/Makefile", lineNumber := 4294967296 }] }] := by
  have hnamed : groupedModel.IsNamed := by simp [Model.IsNamed, groupedModel]
  exact ⟨hnamed, helpPage_loads rfl "/" hnamed⟩

end HelpSheet.Page.Json
