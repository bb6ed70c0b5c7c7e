import HelpSheet.Proofs.Path.Places

/-!
# Resolved paths

A path is resolved by its text: it is joined to the directory where it is relative, and its double
dots are taken back (`resolved`). Below a root this gives the names that the path leads to
(`parts_resolved`). An absolute path that is shortened by a base leads from the base to the same
names, and the way goes back from the base only if it has to (`shorten_leadsToSource`).
-/

set_option autoImplicit false
set_option relaxedAutoImplicit false

namespace HelpSheet.Path

/-! ### Absolute paths -/

/-- A path from a directory: an absolute one stays as it is, but for its idle components. -/
def absolute (directory path : String) : String :=
  ((ofString directory).join (ofString path)).text

/-- A path from a directory, with its double dots taken back. -/
def resolved (directory path : String) : Path :=
  ofString (normalize (absolute directory path))

variable {directory path : String}

theorem isAbsolute_iff {path : Path} : path.isAbsolute = true ↔ path.anchor ≠ .relative := by
  rw [isAbsolute, decide_eq_true_eq]

theorem isAbsolute_ofString_iff :
    (ofString path).isAbsolute = true ↔ Anchor.ofText path.toList ≠ .relative :=
  isAbsolute_iff

theorem isPlain_join {first second : Path} (hfirst : first.IsPlain) (hsecond : second.IsPlain) :
    (first.join second).IsPlain := by
  unfold join
  split
  · exact hsecond
  · exact List.forall_mem_append.mpr ⟨hfirst, hsecond⟩

theorem isPlain_join_ofString (directory path : String) :
    ((ofString directory).join (ofString path)).IsPlain :=
  isPlain_join (isPlain_ofString directory) (isPlain_ofString path)

theorem anchor_absolute (directory path : String) :
    Anchor.ofText (absolute directory path).toList =
      if (ofString path).isAbsolute then (ofString path).anchor
      else (ofString directory).anchor := by
  rw [absolute, anchor_text (isPlain_join_ofString directory path), join]
  split <;> rfl

theorem isAbsolute_absolute (hdirectory : (ofString directory).isAbsolute) (path : String) :
    (ofString (absolute directory path)).isAbsolute := by
  rw [isAbsolute_ofString_iff, anchor_absolute]
  split
  · next hpath => exact isAbsolute_iff.mp hpath
  · exact isAbsolute_iff.mp hdirectory

/-- The components of an absolute path lead to the names of the path. -/
theorem descend_components_absolute (directory path : String) :
    descend [] (components (absolute directory path)) = absoluteNames directory path := by
  rw [absolute, descend_components_text [] (isPlain_join_ofString directory path),
    absoluteNames_eq, origin, join]
  split
  · next hpath =>
    have hanchor := isAbsolute_ofString_iff.mp hpath
    have hparts : descend [] (ofString path).parts = descend [] (components path) :=
      descend_filter [] _
    split
    · next hrelative => exact absurd hrelative hanchor
    · exact hparts
  · next hpath =>
    have hanchor : Anchor.ofText path.toList = .relative :=
      Decidable.not_not.mp fun hne ↦ hpath (isAbsolute_ofString_iff.mpr hne)
    have hfirst : descend [] (ofString directory).parts = descend [] (components directory) :=
      descend_filter [] _
    have hsecond : ∀ place : List String,
        descend place (ofString path).parts = descend place (components path) :=
      fun place ↦ descend_filter place _
    rw [hanchor, descend_append, hfirst, hsecond]

/-! ### Resolving -/

theorem ofString_normalize (path : String) : ofString (normalize path) = shortest path := by
  rw [normalize_eq_text, ofString_text (isPlain_shortest path)]

theorem anchor_shortest (path : String) : (shortest path).anchor = .ofText path.toList := rfl

/-- The shortest form of an absolute path has the names that its components lead to. -/
theorem parts_normalize (hpath : (ofString path).isAbsolute) :
    (ofString (normalize path)).parts = descend [] (components path) := by
  have hrooted : decide (Anchor.ofText path.toList ≠ .relative) = true :=
    decide_eq_true (isAbsolute_ofString_iff.mp hpath)
  rw [ofString_normalize, shortest, hrooted, collapse_true]

/-- Resolved from a root, a path has the names that it leads to. -/
theorem parts_resolved (hdirectory : (ofString directory).isAbsolute) (path : String) :
    (resolved directory path).parts = absoluteNames directory path := by
  rw [resolved, parts_normalize (isAbsolute_absolute hdirectory path),
    descend_components_absolute]

/-- Taking back double dots keeps the slashes that a path starts with. -/
theorem anchor_resolved (directory path : String) :
    (resolved directory path).anchor =
      if (ofString path).isAbsolute then (ofString path).anchor
      else (ofString directory).anchor := by
  rw [resolved, ofString_normalize, anchor_shortest, anchor_absolute]

theorem anchor_resolved_congr (directory : String) {first second : String}
    (hanchor : Anchor.ofText first.toList = Anchor.ofText second.toList) :
    (resolved directory first).anchor = (resolved directory second).anchor := by
  have hfirst : (ofString first).anchor = (ofString second).anchor := hanchor
  rw [anchor_resolved, anchor_resolved, isAbsolute, isAbsolute, hfirst]

/-- The empty path leads to the directory itself. -/
theorem absoluteNames_empty (directory : String) :
    absoluteNames directory "" = descend [] (components directory) := by
  rw [absoluteNames_eq]
  rfl

/-- An absolute path leads to the same names from every directory. -/
theorem absoluteNames_of_isAbsolute (hpath : (ofString path).isAbsolute) (directory : String) :
    absoluteNames directory path = descend [] (components path) := by
  rw [absoluteNames_eq, origin]
  split
  · next hrelative => exact absurd hrelative (isAbsolute_ofString_iff.mp hpath)
  · rfl

/-- From an absolute path, a relative one leads on. -/
theorem absoluteNames_absolute (directory path : String) {back : String}
    (hback : Anchor.ofText back.toList = .relative) :
    absoluteNames (absolute directory path) back =
      descend (absoluteNames directory path) (components back) := by
  rw [absoluteNames_eq, origin, hback, descend_components_absolute]

/-! ### Shortening -/

/-- The way from one place to another one goes back exactly if the other does not lie below. -/
theorem up_not_mem_wayBetween_iff {start goal : List String}
    (hgoal : ∀ name ∈ goal, LeadsDown name) : ".." ∉ wayBetween start goal ↔ start <+: goal := by
  constructor
  · intro hup
    obtain ⟨common, count, down, hway, hcommon, rfl⟩ := exists_wayBetween start goal
    have hcount : count = 0 := Decidable.byContradiction fun hne ↦
      hup (hway ▸ List.mem_append_left _ (List.mem_replicate.mpr ⟨hne, rfl⟩))
    rw [hcount, List.replicate_zero, descend_nil] at hcommon
    exact hcommon ▸ List.prefix_append common down
  · rintro ⟨names, rfl⟩
    rw [wayBetween_append]
    exact fun hmem ↦ (hgoal ".." (List.mem_append_right _ hmem)).2 rfl

/-- What is shown of a source path leads from the base to the names of the source, and back only
where the source does not lie below the base. -/
structure LeadsToSource (workingDirectory base source shown : String) : Prop where
  isRelative : (ofString shown).isAbsolute = false
  ne_empty : shown ≠ ""
  parts_eq : (resolved (absolute workingDirectory base) shown).parts =
    (ofString (normalize source)).parts
  staysBelow_iff : ".." ∉ (ofString shown).parts ↔
    (resolved workingDirectory base).parts <+: (ofString (normalize source)).parts

theorem relativeTo_leadsToSource {workingDirectory source : String}
    (hworking : (ofString workingDirectory).isAbsolute) (hsource : (ofString source).isAbsolute)
    (base : String) :
    LeadsToSource workingDirectory base source (relativeTo workingDirectory base source) := by
  have hplain := isPlain_way workingDirectory base source
  have hanchor := anchor_relativeTo workingDirectory base source
  have hgoal : (ofString (normalize source)).parts = absoluteNames workingDirectory source := by
    rw [parts_normalize hsource, absoluteNames_of_isAbsolute hsource]
  refine ⟨?_, ?_, ?_, ?_⟩
  · rw [← Bool.not_eq_true, isAbsolute_ofString_iff, Decidable.not_not]
    exact hanchor
  · rw [relativeTo_eq_text]
    exact text_ne_empty hplain
  · rw [parts_resolved (isAbsolute_absolute hworking base), absoluteNames_absolute _ _ hanchor,
      descend_relativeTo, hgoal]
  · rw [relativeTo_eq_text, ofString_text hplain, parts_resolved hworking, hgoal]
    exact up_not_mem_wayBetween_iff leadsDown_of_mem_absoluteNames

/-- A relative source path, an empty one among them, and one without a base are shown as they are.
An absolute one is shown by a relative path, which leads from the base to the names of the source,
and goes back from the base exactly if the source does not lie there or below. -/
theorem shorten_leadsToSource (workingDirectory source : String) :
    (∀ base, base = none ∨ (ofString source).isAbsolute = false →
      shorten workingDirectory base source = source) ∧
    ((ofString workingDirectory).isAbsolute → (ofString source).isAbsolute → ∀ base,
      LeadsToSource workingDirectory base source
        (shorten workingDirectory (some base) source)) := by
  constructor
  · intro base hbase
    unfold shorten
    split
    · rfl
    · rfl
    · next hanchor =>
      rcases hbase with hnone | hrelative
      · cases hnone
      · rw [← Bool.not_eq_true, isAbsolute_ofString_iff] at hrelative
        exact absurd hanchor hrelative
  · intro hworking hsource base
    have hshorten : shorten workingDirectory (some base) source =
        relativeTo workingDirectory base source := by
      unfold shorten
      split
      · next hnone => cases hnone
      · next hrelative _ => exact absurd hrelative (isAbsolute_ofString_iff.mp hsource)
      · next hbase _ => rw [Option.some_inj.mp hbase]
    rw [hshorten]
    exact relativeTo_leadsToSource hworking hsource base

/-- A base beside the working directory, and a source with two leading slashes beside the base. -/
theorem shorten_leadsToSource_beside :
    (ofString "/work/here").isAbsolute ∧
      (ofString "//work//mk/lint/../lint.mk").isAbsolute ∧
      shorten "/work/here" (some "../mk/./rules") "//work//mk/lint/../lint.mk" = "../lint.mk" ∧
      LeadsToSource "/work/here" "../mk/./rules" "//work//mk/lint/../lint.mk" "../lint.mk" := by
  have hworking : (ofString "/work/here").isAbsolute = true := by decide
  have hsource : (ofString "//work//mk/lint/../lint.mk").isAbsolute = true := by decide
  have hshown : shorten "/work/here" (some "../mk/./rules") "//work//mk/lint/../lint.mk" =
      "../lint.mk" := by
    decide +kernel
  have hleads := (shorten_leadsToSource "/work/here" "//work//mk/lint/../lint.mk").2 hworking
    hsource "../mk/./rules"
  rw [hshown] at hleads
  exact ⟨hworking, hsource, hshown, hleads⟩

end HelpSheet.Path
