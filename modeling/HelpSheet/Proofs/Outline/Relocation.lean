import HelpSheet.Page.View
import HelpSheet.Proofs.Model.FileDocs
import HelpSheet.Proofs.Path.Places

/-!
# Views of a tree that was moved

A view whose source paths lie in a tree is asked for at a root by putting each of its paths there
(`View.inTree`). Its outline shortens the paths of targets, so only the paths of documented files
depend on the root (`outline_mapSources`).
-/

set_option autoImplicit false
set_option relaxedAutoImplicit false

namespace HelpSheet

/-! ### Changing source paths -/

/-- The target with its source path changed. -/
def Target.mapSource (change : String → String) (target : Target) : Target :=
  { target with sourceFile := change target.sourceFile }

/-- The file with its path changed. -/
def FileDoc.mapSource (change : String → String) (file : FileDoc) : FileDoc :=
  { file with sourceFile := change file.sourceFile }

/-- The group with the source paths of its targets changed. -/
def Category.mapSources (change : String → String) (category : Category) : Category :=
  { category with targets := category.targets.map (Target.mapSource change) }

/-- The model with the paths of its files and the source paths of its targets changed. -/
def Model.mapSources (files targets : String → String) (model : Model) : Model :=
  { model with
    fileDocs := model.fileDocs.map (FileDoc.mapSource files)
    categories := model.categories.map (Category.mapSources targets) }

/-- The source paths of a model. -/
def Model.sources (model : Model) : List String :=
  model.fileDocs.map FileDoc.sourceFile ++ model.targets.map Target.sourceFile

variable (files targets : String → String)

theorem Model.entryPoint?_mapSources (model : Model) :
    (model.mapSources files targets).entryPoint? =
      model.entryPoint?.map (FileDoc.mapSource files) :=
  List.find?_map ..

/-- The files are found and sorted by what a change of their paths leaves as it is. -/
theorem Model.includedFiles_mapSources (model : Model) :
    (model.mapSources files targets).includedFiles =
      model.includedFiles.map (FileDoc.mapSource files) := by
  have hkept : ((model.fileDocs.map (FileDoc.mapSource files)).filter fun file ↦
      !file.isEntryPoint && !file.documentation.isEmpty) =
      (model.fileDocs.filter fun file ↦
        !file.isEntryPoint && !file.documentation.isEmpty).map (FileDoc.mapSource files) :=
    List.filter_map ..
  rw [includedFiles, mapSources, hkept]
  exact (List.map_mergeSort (f := FileDoc.mapSource files) fun _ _ _ _ ↦ rfl).symm

/-- The item with the paths of files and the source path of its target changed. A source path that
is shown on its own was shortened before. -/
def Item.mapSources : Item → Item
  | .descriptionStart file => .descriptionStart (files file)
  | .includedFile path => .includedFile (files path)
  | .includedFileEnd path => .includedFileEnd (files path)
  | .target shown => .target (shown.mapSource targets)
  | .title name shown? => .title name (shown?.map (Target.mapSource targets))
  | other => other

/-- The item shows the path of a file. -/
def Item.namesFile : Item → Bool
  | .includedFile path => path ≠ ""
  | _ => false

namespace Outline

theorem descriptionSection_map (file? : Option FileDoc) :
    descriptionSection (file?.map (FileDoc.mapSource files)) =
      (descriptionSection file?).map (Item.mapSources files targets) := by
  cases file? with
  | none => rfl
  | some file =>
    simp [descriptionSection, FileDoc.mapSource, Item.mapSources, Function.comp_def]

theorem includedFileSection_mapSource (file : FileDoc) :
    includedFileSection (file.mapSource files) =
      (includedFileSection file).map (Item.mapSources files targets) := by
  simp [includedFileSection, FileDoc.mapSource, Item.mapSources, Function.comp_def]

theorem includedSection_map (included : List FileDoc) :
    includedSection (included.map (FileDoc.mapSource files)) =
      (includedSection included).map (Item.mapSources files targets) := by
  cases included with
  | nil => rfl
  | cons file included =>
    simp [includedSection, includedFileSection_mapSource files targets, Item.mapSources,
      List.map_flatMap, List.flatMap_map]

theorem categorySection_mapSources (category : Category) :
    categorySection (category.mapSources targets) =
      (categorySection category).map (Item.mapSources files targets) := by
  have hheader : (categoryHeader category).map (Item.mapSources files targets) =
      categoryHeader (category.mapSources targets) := by
    unfold categoryHeader
    by_cases hunnamed : category.isUnnamed
    · rw [if_pos hunnamed, if_pos (show (category.mapSources targets).isUnnamed from hunnamed)]
      rfl
    · rw [if_neg hunnamed, if_neg (show ¬(category.mapSources targets).isUnnamed from hunnamed)]
      rfl
  simp [categorySection, hheader, Category.mapSources, Item.mapSources, Function.comp_def]

theorem targetsSection_map (categories : List Category) :
    targetsSection (categories.map (Category.mapSources targets)) =
      (targetsSection categories).map (Item.mapSources files targets) := by
  cases categories with
  | nil => rfl
  | cons category categories =>
    simp [targetsSection, categorySection_mapSources files targets, Item.mapSources,
      List.map_flatMap, List.flatMap_map]

/-- The outline of a model with other paths has the items of the outline with other paths. -/
theorem ofModel_mapSources (model : Model) :
    ofModel (model.mapSources files targets) =
      (ofModel model).map (Item.mapSources files targets) := by
  rw [ofModel, ofModel, Model.entryPoint?_mapSources, Model.includedFiles_mapSources,
    descriptionSection_map files targets, includedSection_map files targets]
  simp [Model.mapSources, targetsSection_map files targets, Item.mapSources]

/-! ### Views of targets -/

variable {viewpoint plain : Viewpoint}

theorem eq_empty_iff_of_shorten {targets : String → String} {source : String}
    (hshown : viewpoint.shorten (targets source) = plain.shorten source) :
    targets source = "" ↔ source = "" := by
  have hchanged : viewpoint.shorten (targets source) = "" ↔ targets source = "" :=
    Path.shorten_eq_empty_iff
  have hplain : plain.shorten source = "" ↔ source = "" := Path.shorten_eq_empty_iff
  rw [← hchanged, hshown, hplain]

/-- The place of a target is shown alike where its changed path is shortened to what the path itself
is shortened to. -/
theorem sourceSection_of_shorten {source : String}
    (hshown : viewpoint.shorten (targets source) = plain.shorten source) (lineNumber : Int) :
    sourceSection viewpoint (targets source) lineNumber =
      sourceSection plain source lineNumber := by
  simp only [sourceSection, eq_empty_iff_of_shorten hshown, hshown]

theorem aliasesSection_map (names : List String) :
    (aliasesSection names).map (Item.mapSources files targets) = aliasesSection names := by
  cases names <;> rfl

theorem variablesSection_map (usedVariables : List Variable) :
    (variablesSection usedVariables).map (Item.mapSources files targets) =
      variablesSection usedVariables := by
  cases usedVariables with
  | nil => rfl
  | cons entry usedVariables => simp [variablesSection, Item.mapSources, Function.comp_def]

theorem documentationSection_map (target : Target) :
    (documentationSection target).map (Item.mapSources files targets) =
      documentationSection target := by
  unfold documentationSection
  cases target.documentation with
  | nil => rfl
  | cons line documentation =>
    cases target.usedVariables <;> simp [Item.mapSources, Function.comp_def]

theorem sourceSection_map (source : String) (lineNumber : Int) :
    (sourceSection plain source lineNumber).map (Item.mapSources files targets) =
      sourceSection plain source lineNumber := by
  unfold sourceSection
  by_cases hsource : source = ""
  · rw [if_pos hsource]
    rfl
  · rw [if_neg hsource]
    rfl

theorem ofTarget_mapSource {target : Target}
    (hshown : viewpoint.shorten (targets target.sourceFile) = plain.shorten target.sourceFile) :
    ofTarget viewpoint (target.mapSource targets) =
      (ofTarget plain target).map (Item.mapSources files targets) := by
  have hsource := sourceSection_of_shorten targets hshown target.lineNumber
  have hdocumentation : documentationSection (target.mapSource targets) =
      documentationSection target := rfl
  rw [ofTarget, ofTarget, hdocumentation]
  simp only [List.map_append, List.map_cons, aliasesSection_map, variablesSection_map,
    documentationSection_map, sourceSection_map, ← hsource]
  rfl

theorem ofName_map {source : String}
    (hshown : viewpoint.shorten (targets source) = plain.shorten source) (name : String)
    (lineNumber : Int) :
    ofName viewpoint name (targets source) lineNumber =
      (ofName plain name source lineNumber).map (Item.mapSources files targets) := by
  rw [ofName, ofName, sourceSection_of_shorten targets hshown]
  simp only [List.map_cons, sourceSection_map]
  rfl

end Outline

namespace Page.View

/-! ### Views of a tree -/

/-- The view with the paths of files and the source paths of targets changed. -/
def mapSources : View → View
  | help model => help (model.mapSources files targets)
  | detailed target => detailed (target.mapSource targets)
  | basic name sourceFile lineNumber => basic name (targets sourceFile) lineNumber

/-- The source paths of a view. -/
def sources : View → List String
  | help model => model.sources
  | detailed target => [target.sourceFile]
  | basic _ sourceFile _ => [sourceFile]

/-- The source paths of a view that are known lie in a tree. -/
def LiesInTree (view : View) : Prop :=
  ∀ source ∈ view.sources, source = "" ∨ Path.IsInside source

/-- The view when the tree lies at a root. -/
def inTree (root : String) : View → View :=
  mapSources (Path.inTree root) (Path.inTree root)

/-- The outline of a view with other paths, where each source path is shortened to what the path
before it was shortened to. -/
theorem outline_mapSources {viewpoint plain : Outline.Viewpoint} {view : View}
    (hshown : ∀ source ∈ view.sources,
      viewpoint.shorten (targets source) = plain.shorten source) :
    (view.mapSources files targets).outline viewpoint =
      (view.outline plain).map (Item.mapSources files targets) := by
  cases view with
  | help model => exact Outline.ofModel_mapSources files targets model
  | detailed target =>
    exact Outline.ofTarget_mapSource files targets (hshown _ List.mem_cons_self)
  | basic name sourceFile lineNumber =>
    exact Outline.ofName_map files targets (hshown _ List.mem_cons_self) name lineNumber

/-- The files that a view shows with their paths. -/
def includedFiles : View → List FileDoc
  | help model => model.includedFiles
  | _ => []

/-- The view shows the path of a file. -/
def NamesFile (view : View) : Prop :=
  ∃ file ∈ view.includedFiles, file.sourceFile ≠ ""

theorem any_false {α : Type} (items : List α) : (items.any fun _ ↦ false) = false :=
  List.any_eq_false.mpr fun _ _ ↦ Bool.false_ne_true

theorem any_namesFile_includedSection (files : List FileDoc) :
    (Outline.includedSection files).any Item.namesFile =
      files.any fun file ↦ file.sourceFile ≠ "" := by
  cases files with
  | nil => rfl
  | cons file files =>
    simp [Outline.includedSection, Outline.includedFileSection, Item.namesFile, Function.comp_def,
      any_false]

theorem any_namesFile_ofModel (model : Model) :
    (Outline.ofModel model).any Item.namesFile =
      model.includedFiles.any fun file ↦ file.sourceFile ≠ "" := by
  have hdescription : (Outline.descriptionSection model.entryPoint?).any Item.namesFile =
      false := by
    cases model.entryPoint? <;> simp [Outline.descriptionSection, Item.namesFile]
  have htargets : (Outline.targetsSection model.categories).any Item.namesFile = false := by
    unfold Outline.targetsSection Outline.categorySection Outline.categoryHeader
    split <;> simp [Item.namesFile]
  rw [Outline.ofModel, List.any_append, List.any_append, List.any_cons, hdescription, htargets,
    any_namesFile_includedSection, Bool.or_false, Bool.or_false]
  rfl

/-- The items that show paths of files are those of the included files. -/
theorem exists_namesFile_iff (viewpoint : Outline.Viewpoint) (view : View) :
    (∃ item ∈ view.outline viewpoint, item.namesFile) ↔ view.NamesFile := by
  cases view with
  | help model =>
    rw [← List.any_eq_true, outline, any_namesFile_ofModel, List.any_eq_true]
    simp [NamesFile, includedFiles]
  | detailed target =>
    refine iff_of_false ?_ nofun
    have haliases : (Outline.aliasesSection target.aliases).any Item.namesFile = false := by
      unfold Outline.aliasesSection
      split <;> simp [Item.namesFile]
    have hvariables : (Outline.variablesSection target.usedVariables).any Item.namesFile =
        false := by
      unfold Outline.variablesSection
      split <;> simp [Item.namesFile]
    have hdocumentation : (Outline.documentationSection target).any Item.namesFile = false := by
      unfold Outline.documentationSection
      split_ifs <;> simp [Item.namesFile]
    have hsource : (Outline.sourceSection viewpoint target.sourceFile target.lineNumber).any
        Item.namesFile = false := by
      unfold Outline.sourceSection
      split <;> simp [Item.namesFile]
    rw [← List.any_eq_true, outline, Outline.ofTarget, List.any_append, List.any_append,
      List.any_append, List.any_cons, haliases, hvariables, hdocumentation, hsource]
    exact Bool.false_ne_true
  | basic name sourceFile lineNumber =>
    refine iff_of_false ?_ nofun
    rw [← List.any_eq_true, outline, Outline.ofName, Outline.sourceSection]
    split <;> simp [Item.namesFile]

end Page.View

end HelpSheet
