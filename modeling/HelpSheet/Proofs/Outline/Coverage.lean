import HelpSheet.Model.Shape
import HelpSheet.Proofs.Outline.Contents

/-!
# The documentation that a help view shows

The help view shows the documentation of one entry point and of all files that are no entry points.
So it shows every documented file once if and only if at most one of them is an entry point
(`shownBlocks_perm_iff`), and a model may have several (`not_forall_shownBlocks_perm`).
-/

set_option autoImplicit false
set_option relaxedAutoImplicit false

namespace HelpSheet.Outline

/-- The blocks of documentation in the description and among the included files. -/
def shownBlocks (outline : Outline) : List (List String) :=
  ((helpContents outline).descriptions ++ (helpContents outline).includedFiles).map Prod.snd

/-- The documentation of the documented files. -/
def documentedBlocks (model : Model) : List (List String) :=
  model.documentedFiles.map FileDoc.documentation

/-- The documentation of the entry points after the first one. -/
def unshownBlocks (model : Model) : List (List String) :=
  model.openingFiles.tail.map FileDoc.documentation

theorem shownBlocks_ofModel (model : Model) :
    shownBlocks (ofModel model) =
      (model.entryPoint?.toList ++ model.includedFiles).map FileDoc.documentation := by
  rw [shownBlocks, helpContents_ofModel, ← List.map_append, List.map_map]
  rfl

/-- What is documented is what is shown and the documentation of further entry points. -/
theorem perm_shownBlocks_append (model : Model) :
    (shownBlocks (ofModel model) ++ unshownBlocks model).Perm (documentedBlocks model) := by
  rw [shownBlocks_ofModel, unshownBlocks, ← List.map_append]
  exact model.perm_documentedFiles.map FileDoc.documentation

theorem length_openingFiles_le_of_perm {model : Model}
    (hperm : (shownBlocks (ofModel model)).Perm (documentedBlocks model)) :
    model.openingFiles.length ≤ 1 := by
  have hshown := hperm.length_eq
  have hall := (perm_shownBlocks_append model).length_eq
  rw [List.length_append, hshown, unshownBlocks, List.length_map, List.length_tail] at hall
  omega

/-- Every block of documentation is shown, but for those of the entry points after the first one. So
all of them are shown, each once, exactly when at most one entry point has documentation. -/
theorem shownBlocks_perm_iff (model : Model) :
    (shownBlocks (ofModel model) ++ unshownBlocks model).Perm (documentedBlocks model) ∧
      ((shownBlocks (ofModel model)).Perm (documentedBlocks model) ↔
        model.openingFiles.length ≤ 1) := by
  have hperm := perm_shownBlocks_append model
  refine ⟨hperm, length_openingFiles_le_of_perm, fun hlength ↦ ?_⟩
  have htail : model.openingFiles.tail = [] := by
    rw [← List.length_eq_zero_iff, List.length_tail]
    omega
  rwa [unshownBlocks, htail, List.map_nil, List.append_nil] at hperm

/-- A document may name two entry points, and the second one is not shown. -/
theorem not_forall_shownBlocks_perm :
    ¬ ∀ (document : Json) (model : Model), (Shape.readModel document).outcome = .ok model →
      (shownBlocks (ofModel model)).Perm (documentedBlocks model) := by
  intro hall
  let entry (path line : String) : Json := .object [("sourceFile", .string path),
    ("documentation", .array [.string line]), ("isEntryPoint", .bool true)]
  let document : Json := .object [("fileDocs", .array [entry "Makefile" "Builds.",
    entry "GNUmakefile" "Builds with extensions."])]
  let model : Model := { fileDocs := [⟨"Makefile", ["Builds."], true, 0⟩,
    ⟨"GNUmakefile", ["Builds with extensions."], true, 0⟩] }
  have hmodel : (Shape.readModel document).outcome = .ok model := by rfl
  have hlength := length_openingFiles_le_of_perm (hall document model hmodel)
  exact absurd hlength (by decide)

end HelpSheet.Outline
