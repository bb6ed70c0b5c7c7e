import Mathlib.Data.List.Basic
import HelpSheet.Model.Basic

/-!
# The files that a help view shows

Of the files with documentation, the first entry point describes the build, and the files that are
no entry points are included in the order of their discovery (`inDiscoveryOrder_includedFiles`). The
documented files are these and the entry points after the first one (`perm_documentedFiles`).
-/

set_option autoImplicit false
set_option relaxedAutoImplicit false

namespace HelpSheet

namespace FileDoc

/-- Whether there is anything to say of the file. -/
def isDocumented (file : FileDoc) : Bool :=
  !file.documentation.isEmpty

/-- Whether the file is an entry point with documentation. -/
def isOpening (file : FileDoc) : Bool :=
  file.isEntryPoint && file.isDocumented

/-- Whether the file has documentation and is no entry point. -/
def isIncluded (file : FileDoc) : Bool :=
  !file.isEntryPoint && file.isDocumented

theorem isDocumented_iff {file : FileDoc} :
    file.isDocumented = true ↔ file.documentation ≠ [] := by
  simp [isDocumented]

end FileDoc

open scoped List

namespace Model

variable (model : Model)

/-- The files with documentation. -/
def documentedFiles : List FileDoc :=
  model.fileDocs.filter FileDoc.isDocumented

/-- The entry points with documentation. -/
def openingFiles : List FileDoc :=
  model.fileDocs.filter FileDoc.isOpening

/-- The files are the documented ones that are no entry points, sorted by their discovery. Files of
one order stand as in the model. -/
structure InDiscoveryOrder (files : List FileDoc) : Prop where
  sorted : files.Pairwise fun first second ↦ first.discoveryOrder ≤ second.discoveryOrder
  stable : ∀ order : Int, (files.filter fun file ↦ file.discoveryOrder = order) =
    (model.fileDocs.filter FileDoc.isIncluded).filter fun file ↦ file.discoveryOrder = order

theorem entryPoint?_eq_head? : model.entryPoint? = model.openingFiles.head? :=
  List.head?_filter.symm

theorem perm_includedFiles :
    model.includedFiles.Perm (model.fileDocs.filter FileDoc.isIncluded) :=
  List.mergeSort_perm ..

theorem isDocumented_of_mem_includedFiles {file : FileDoc} (hfile : file ∈ model.includedFiles) :
    file.isDocumented = true := by
  have hincluded := (List.mem_filter.mp (model.perm_includedFiles.mem_iff.mp hfile)).2
  exact (Bool.and_eq_true_iff.mp hincluded).2

theorem isDocumented_of_mem_entryPoint? {file : FileDoc} (hfile : file ∈ model.entryPoint?) :
    file.isDocumented = true := by
  rw [entryPoint?_eq_head?] at hfile
  have hopening := (List.mem_filter.mp (List.mem_of_mem_head? hfile)).2
  exact (Bool.and_eq_true_iff.mp hopening).2

/-- The included files are shown in the order of their discovery. -/
theorem inDiscoveryOrder_includedFiles : model.InDiscoveryOrder model.includedFiles := by
  let included := model.fileDocs.filter FileDoc.isIncluded
  have htrans : ∀ first second third : FileDoc,
      decide (first.discoveryOrder ≤ second.discoveryOrder) →
        decide (second.discoveryOrder ≤ third.discoveryOrder) →
          decide (first.discoveryOrder ≤ third.discoveryOrder) := by
    simp only [decide_eq_true_eq]
    intro first second third
    exact Int.le_trans
  have htotal : ∀ first second : FileDoc, decide (first.discoveryOrder ≤ second.discoveryOrder) ||
      decide (second.discoveryOrder ≤ first.discoveryOrder) := by
    simp only [Bool.or_eq_true, decide_eq_true_eq]
    intro first second
    exact Int.le_total ..
  constructor
  · have hsorted := List.pairwise_mergeSort htrans htotal included
    exact hsorted.imp fun hle ↦ of_decide_eq_true hle
  · intro order
    let atOrder (file : FileDoc) : Bool := file.discoveryOrder = order
    -- Files of one order are sorted as they stand, so sorting keeps them as a sublist.
    have hties : (included.filter atOrder).Pairwise fun first second ↦
        decide (first.discoveryOrder ≤ second.discoveryOrder) := by
      refine List.pairwise_of_forall_mem_list fun first hfirst second hsecond ↦ ?_
      have hfirst : first.discoveryOrder = order :=
        of_decide_eq_true (List.mem_filter.mp hfirst).2
      have hsecond : second.discoveryOrder = order :=
        of_decide_eq_true (List.mem_filter.mp hsecond).2
      exact decide_eq_true (by omega)
    have hsublist : (included.filter atOrder).Sublist model.includedFiles :=
      List.sublist_mergeSort htrans htotal hties List.filter_sublist
    have hkept : (included.filter atOrder).Sublist (model.includedFiles.filter atOrder) := by
      have hfiltered := hsublist.filter atOrder
      rwa [List.filter_filter, funext fun file ↦ Bool.and_self (atOrder file)] at hfiltered
    have hlength := (model.perm_includedFiles.filter atOrder).length_eq
    exact (hkept.eq_of_length hlength.symm).symm

/-- The documented files are those that are shown and the entry points after the first one. -/
theorem perm_documentedFiles :
    (model.entryPoint?.toList ++ model.includedFiles ++ model.openingFiles.tail).Perm
      model.documentedFiles := by
  have hentry : model.entryPoint?.toList ++ model.openingFiles.tail = model.openingFiles := by
    rw [entryPoint?_eq_head?]
    cases model.openingFiles <;> rfl
  have hopening : model.openingFiles = model.documentedFiles.filter FileDoc.isEntryPoint :=
    List.filter_filter.symm
  have hincluded : model.fileDocs.filter FileDoc.isIncluded =
      model.documentedFiles.filter fun file ↦ !file.isEntryPoint :=
    List.filter_filter.symm
  calc model.entryPoint?.toList ++ model.includedFiles ++ model.openingFiles.tail
    _ ~ model.entryPoint?.toList ++ model.openingFiles.tail ++ model.includedFiles := by
        simpa only [List.append_assoc] using List.perm_append_comm.append_left _
    _ ~ model.openingFiles ++ model.fileDocs.filter FileDoc.isIncluded := by
        rw [hentry]
        exact model.perm_includedFiles.append_left _
    _ ~ model.documentedFiles := by
        rw [hopening, hincluded]
        exact List.filter_append_perm ..

end Model

end HelpSheet
