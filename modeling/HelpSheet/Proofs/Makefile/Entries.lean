import HelpSheet.Proofs.Command.UpdateRecipe
import HelpSheet.Proofs.Path.Resolution

/-!
# Entries of makefiles

A help makefile names the documented makefiles behind the variable that holds its own directory.
Make fills in the directory with a slash at its end (`Path.openDirectory`), and what stands behind
it has to lead on to the makefile. It does for every directory that is given, and for a relative
makefile without one. An absolute makefile is written as it is where no directory is given, and then
its names are looked for below the working directory (`relativeMakefiles_locate`).
-/

set_option autoImplicit false
set_option relaxedAutoImplicit false

namespace HelpSheet.Makefile

open HelpSheet.Path (absoluteNames components descend ofString openDirectory resolved)
open HelpSheet.Text (Lacks)

/-! ### Where the path of a makefile leads -/

section Makefile

variable {workingDirectory directory makefile : String}

/-- Only a path from the working directory may be absolute. -/
theorem anchor_makefilePath_of_ne (hne : directory ≠ "") :
    Anchor.ofText (makefilePath workingDirectory directory makefile).toList = .relative := by
  rw [makefilePath, if_neg hne]
  exact Path.anchor_relativeTo _ _ _

/-- From a directory that is given, the path of a makefile leads to the makefile. -/
theorem descend_makefilePath_of_ne (hne : directory ≠ "") :
    descend (absoluteNames workingDirectory directory)
        (components (makefilePath workingDirectory directory makefile)) =
      absoluteNames workingDirectory makefile := by
  rw [makefilePath, if_neg hne, ← Path.absoluteNames_normalize workingDirectory directory,
    Path.descend_relativeTo, Path.absoluteNames_normalize]

/-- From the working directory, the shortest form of a relative path leads to the makefile. -/
theorem descend_normalize_of_relative (hmakefile : Anchor.ofText makefile.toList = .relative) :
    descend (absoluteNames workingDirectory "") (components (Path.normalize makefile)) =
      absoluteNames workingDirectory makefile := by
  have horigin : Path.origin workingDirectory (Path.normalize makefile) =
      descend [] (components workingDirectory) := by
    rw [Path.origin, Path.anchor_normalize, hmakefile]
  rw [Path.absoluteNames_empty, ← horigin, ← Path.absoluteNames_eq, Path.absoluteNames_normalize]

/-- From the working directory, the shortest form of an absolute path leads down by all its
names. -/
theorem descend_normalize_of_isAbsolute (hmakefile : (ofString makefile).isAbsolute) :
    descend (absoluteNames workingDirectory "") (components (Path.normalize makefile)) =
      absoluteNames workingDirectory "" ++ absoluteNames workingDirectory makefile := by
  have hnames : (ofString (Path.normalize makefile)).parts =
      absoluteNames workingDirectory makefile := by
    rw [Path.parts_normalize hmakefile, Path.absoluteNames_of_isAbsolute hmakefile]
  have hparts : descend (absoluteNames workingDirectory "")
      (ofString (Path.normalize makefile)).parts =
        descend (absoluteNames workingDirectory "") (components (Path.normalize makefile)) :=
    Path.descend_filter _ _
  rw [← hparts, hnames, Path.descend_of_leadsDown _ Path.leadsDown_of_mem_absoluteNames]

/-- A directory is given, or the makefile is a relative path. From a root, absolute paths lead on as
well. -/
def LeadsOn (workingDirectory directory makefile : String) : Prop :=
  directory ≠ "" ∨ (ofString makefile).isAbsolute = false ∨
    (ofString (Path.normalize workingDirectory)).parts = []

theorem descend_makefilePath_eq_iff (hworking : (ofString workingDirectory).isAbsolute) :
    descend (absoluteNames workingDirectory directory)
        (components (makefilePath workingDirectory directory makefile)) =
          absoluteNames workingDirectory makefile ↔
      LeadsOn workingDirectory directory makefile := by
  by_cases hne : directory = ""
  · subst hne
    rw [makefilePath, if_pos rfl, LeadsOn, Path.parts_normalize hworking,
      ← Path.absoluteNames_empty]
    by_cases hmakefile : (ofString makefile).isAbsolute = true
    · rw [descend_normalize_of_isAbsolute hmakefile, List.append_left_eq_self, hmakefile]
      simp
    · have hrelative : Anchor.ofText makefile.toList = .relative :=
        Decidable.not_not.mp fun hanchor ↦
          hmakefile (Path.isAbsolute_ofString_iff.mpr hanchor)
      exact iff_of_true (descend_normalize_of_relative hrelative)
        (.inr (.inl (Bool.eq_false_iff.mpr hmakefile)))
  · exact iff_of_true (descend_makefilePath_of_ne hne) (.inl hne)

end Makefile

/-! ### The entries -/

/-- An entry for a makefile is the variable and a path behind it, which make expands. With the open
directory in the place of the variable, it has the names of the makefile exactly if the directory
leads on, and then it is the same path if the slashes at the front are the same. -/
structure Locates (workingDirectory directory makefile entry path : String) : Prop where
  entry_eq : entry = directoryReference ++ path
  expand_eq : Lacks '$' path →
    expand (openDirectory directory).toList 0 entry.toList =
      some (openDirectory directory ++ path).toList
  parts_eq_iff : (resolved workingDirectory (openDirectory directory ++ path)).parts =
      (resolved workingDirectory makefile).parts ↔
    LeadsOn workingDirectory directory makefile
  eq_iff : resolved workingDirectory (openDirectory directory ++ path) =
      resolved workingDirectory makefile ↔
    LeadsOn workingDirectory directory makefile ∧
      (resolved workingDirectory directory).anchor = (resolved workingDirectory makefile).anchor

theorem locates_makefilePath {workingDirectory : String}
    (hworking : (ofString workingDirectory).isAbsolute) (directory makefile : String) :
    Locates workingDirectory directory makefile
      (directoryReference ++ makefilePath workingDirectory directory makefile)
      (makefilePath workingDirectory directory makefile) := by
  have hrelative : directory ≠ "" →
      Anchor.ofText (makefilePath workingDirectory directory makefile).toList = .relative :=
    anchor_makefilePath_of_ne
  have hparts : (resolved workingDirectory
      (openDirectory directory ++ makefilePath workingDirectory directory makefile)).parts =
        (resolved workingDirectory makefile).parts ↔
      LeadsOn workingDirectory directory makefile := by
    rw [Path.parts_resolved hworking, Path.parts_resolved hworking,
      Path.absoluteNames_openDirectory_append _ hrelative, descend_makefilePath_eq_iff hworking]
  have hanchor : (resolved workingDirectory
      (openDirectory directory ++ makefilePath workingDirectory directory makefile)).anchor =
        (resolved workingDirectory directory).anchor :=
    Path.anchor_resolved_congr _ (Path.anchor_openDirectory_append hrelative)
  refine ⟨rfl, fun hdollar ↦ ?_, hparts, ?_⟩
  · rw [String.toList_append, String.toList_append]
    exact (Expands.reference.append (.of_dollar_not_mem hdollar)).expand_eq
  · rw [Path.mk.injEq, hanchor, hparts, and_comm]

/-- There is one entry for every makefile, in order. It leads to the makefile, unless that is an
absolute path and no directory is given. -/
theorem relativeMakefiles_locate {workingDirectory : String}
    (hworking : (ofString workingDirectory).isAbsolute) (options : Options) :
    List.Forall₂
      (fun makefile entry ↦
        ∃ path, Locates workingDirectory options.directory makefile entry path)
      options.makefiles (relativeMakefiles workingDirectory options) := by
  rw [relativeMakefiles, List.forall₂_map_right_iff, List.forall₂_same]
  exact fun makefile _ ↦
    ⟨_, locates_makefilePath hworking options.directory makefile⟩

/-- A makefile of the directory, and one of the system that is given by an absolute path. -/
theorem relativeMakefiles_locate_build :
    (ofString "/p").isAbsolute ∧
      List.Forall₂ (fun makefile entry ↦ ∃ path, Locates "/p" "build" makefile entry path)
        ["build/Makefile", "/lib/../etc/rules.mk"]
        ["$(MAKE_HELP_DIR)Makefile", "$(MAKE_HELP_DIR)../../etc/rules.mk"] := by
  have hworking : (ofString "/p").isAbsolute = true := by decide
  have hentries : relativeMakefiles "/p"
      { makefiles := ["build/Makefile", "/lib/../etc/rules.mk"], directory := "build" } =
        ["$(MAKE_HELP_DIR)Makefile", "$(MAKE_HELP_DIR)../../etc/rules.mk"] := by
    decide +kernel
  have hlocate := relativeMakefiles_locate hworking
    { makefiles := ["build/Makefile", "/lib/../etc/rules.mk"], directory := "build" }
  rw [hentries] at hlocate
  exact ⟨hworking, hlocate⟩

/-- Without a directory, the entry for `/etc/Makefile` leads to `/p/etc/Makefile` from `/p`. -/
theorem not_forall_relativeMakefiles_locate :
    ¬ ∀ (workingDirectory : String) (options : Options), (ofString workingDirectory).isAbsolute →
      List.Forall₂
        (fun makefile entry ↦ ∃ path, entry = directoryReference ++ path ∧
          resolved workingDirectory (openDirectory options.directory ++ path) =
            resolved workingDirectory makefile)
        options.makefiles (relativeMakefiles workingDirectory options) := by
  intro hall
  have hlocate := hall "/p" { makefiles := ["/etc/Makefile"] } (by decide)
  have hentries : relativeMakefiles "/p" { makefiles := ["/etc/Makefile"] } =
      [directoryReference ++ "/etc/Makefile"] := by
    decide +kernel
  rw [hentries, List.forall₂_cons] at hlocate
  obtain ⟨path, hentry, hresolved⟩ := hlocate.1
  rw [← (String.append_right_inj directoryReference).mp hentry] at hresolved
  exact absurd hresolved (by decide +kernel)

end HelpSheet.Makefile
