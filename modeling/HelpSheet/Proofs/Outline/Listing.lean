import HelpSheet.Proofs.Outline.Contents

/-!
# Places in the list of targets

A model with a place for one target (`TargetPlace`). Whatever target is put there, the outline of
the model is the same around it (`exists_ofModel_put`). Every target of a model stands in such a
place (`exists_put_eq`), and an outline lists the targets of its model in their order
(`listed_ofModel`).
-/

set_option autoImplicit false
set_option relaxedAutoImplicit false

namespace HelpSheet

/-- A place for a target in a group of targets: the rest of the model, before and after it. -/
structure TargetPlace where
  fileDocs : List FileDoc
  hasCategories : Bool
  earlier : List Category
  name : String
  before : List Target
  after : List Target
  later : List Category

namespace TargetPlace

variable (place : TargetPlace) (target : Target)

/-- The group of targets around the place, with a target put there. -/
def category : Category where
  name := place.name
  targets := place.before ++ target :: place.after

/-- The model with a target put in the place. -/
def put : Model where
  fileDocs := place.fileDocs
  hasCategories := place.hasCategories
  categories := place.earlier ++ place.category target :: place.later

/-- The number of targets before the place. -/
def index : Nat :=
  (place.earlier.flatMap Category.targets ++ place.before).length

theorem targets_put :
    (place.put target).targets =
      place.earlier.flatMap Category.targets ++ place.before ++
        target :: (place.after ++ place.later.flatMap Category.targets) := by
  simp [Model.targets, put, category]

theorem targets_put_getElem? : (place.put target).targets[place.index]? = some target := by
  rw [targets_put, index]
  rw [List.getElem?_append_right (Nat.le_refl _), Nat.sub_self]
  rfl

end TargetPlace

/-- Every target of a model stands in a place. -/
theorem exists_put_eq {model : Model} {target : Target} (htarget : target ∈ model.targets) :
    ∃ place : TargetPlace, place.put target = model := by
  obtain ⟨category, hcategory, htarget⟩ := List.mem_flatMap.mp htarget
  obtain ⟨earlier, later, hcategories⟩ := List.append_of_mem hcategory
  obtain ⟨before, after, htargets⟩ := List.append_of_mem htarget
  refine ⟨⟨model.fileDocs, model.hasCategories, earlier, category.name, before, after, later⟩, ?_⟩
  rw [TargetPlace.put, TargetPlace.category, ← htargets, ← hcategories]

namespace Outline

theorem exists_categorySection_eq (place : TargetPlace) :
    ∃ front back : Outline, ∀ target,
      categorySection (place.category target) = front ++ .target target :: back := by
  refine ⟨.categoryStart place.name :: categoryHeader { name := place.name } ++
      .targetListStart :: place.before.map .target,
    place.after.map .target ++ [.targetListEnd, .categoryEnd place.name], fun target ↦ ?_⟩
  have hheader : categoryHeader (place.category target) = categoryHeader { name := place.name } :=
    rfl
  rw [categorySection, hheader]
  simp [TargetPlace.category]

/-- The items before a target and the items after it do not depend on the target. -/
theorem exists_ofModel_put (place : TargetPlace) :
    ∃ front back : Outline, ∀ target,
      ofModel (place.put target) = front ++ .target target :: back := by
  let files : Model := { fileDocs := place.fileDocs }
  obtain ⟨front, back, hcategory⟩ := exists_categorySection_eq place
  refine ⟨.usage usageLine :: descriptionSection files.entryPoint? ++
      includedSection files.includedFiles ++ .targetsStart ::
        place.earlier.flatMap categorySection ++ front,
    back ++ place.later.flatMap categorySection ++ [.targetsEnd], fun target ↦ ?_⟩
  have hdescription : (place.put target).entryPoint? = files.entryPoint? := rfl
  have hincluded : (place.put target).includedFiles = files.includedFiles := rfl
  have hcategories : (place.put target).categories.isEmpty = false := by simp [TargetPlace.put]
  rw [ofModel, hdescription, hincluded, targetsSection, hcategories]
  simp [TargetPlace.put, hcategory]

theorem listed?_of_kind_ne {item : Item} (hkind : item.kind ≠ .target) : item.listed? = none := by
  cases item <;> first | rfl | exact absurd rfl hkind

theorem listed_categorySection (category : Category) :
    (categorySection category).filterMap Item.listed? = category.targets := by
  have hheader : (categoryHeader category).filterMap Item.listed? = [] :=
    filterMap_of_kind_ne (fun _ ↦ listed?_of_kind_ne)
      ((follows_categoryHeader category).kind_ne .target (by decide))
  simp [categorySection, hheader, List.filterMap_cons, List.filterMap_map, Item.listed?,
    Function.comp_def]

/-- An outline lists the targets of its model in their order. -/
theorem listed_ofModel (model : Model) :
    (ofModel model).filterMap Item.listed? = model.targets := by
  have hdescription : (descriptionSection model.entryPoint?).filterMap Item.listed? = [] :=
    filterMap_of_kind_ne (fun _ ↦ listed?_of_kind_ne)
      ((follows_descriptionSection model.entryPoint?).kind_ne .target (by decide))
  have hincluded : (includedSection model.includedFiles).filterMap Item.listed? = [] :=
    filterMap_of_kind_ne (fun _ ↦ listed?_of_kind_ne)
      ((follows_includedSection model.includedFiles).kind_ne .target (by decide))
  have htargets : (targetsSection model.categories).filterMap Item.listed? = model.targets := by
    unfold targetsSection
    split
    · next hempty => rw [Model.targets, List.isEmpty_iff.mp hempty]; rfl
    · simp [List.filterMap_cons, List.filterMap_flatMap, listed_categorySection, Model.targets,
        Item.listed?]
  have husage : [Item.usage usageLine].filterMap Item.listed? = [] := rfl
  rw [ofModel_eq_append, List.filterMap_append, List.filterMap_append, List.filterMap_append,
    husage, hdescription, hincluded, htargets]
  rfl

end Outline

end HelpSheet
