import HelpSheet.Proofs.Path.Destination

/-!
# Places of a tree

A tree of files lies at a root, an absolute path without double dots. A file of the tree has a
relative path without double dots, and the path of the file is that of the root with the relative
path behind it (`inTree`). Shortened by the root it is the relative path again, wherever the tree
lies (`shorten_inTree`), while the whole path says where it lies (`opened_injective`).
-/

set_option autoImplicit false
set_option relaxedAutoImplicit false

namespace HelpSheet.Path

open HelpSheet.Text (joinWith)

/-! ### Roots and files of a tree -/

/-- An absolute path in its shortest form. -/
structure IsRoot (root : String) : Prop where
  isAbsolute : Anchor.ofText root.toList ≠ .relative
  isShortest : normalize root = root

/-- A relative path in its shortest form that does not lead out of its directory. -/
structure IsInside (source : String) : Prop where
  isRelative : Anchor.ofText source.toList = .relative
  isShortest : normalize source = source
  staysInside : ".." ∉ components source

/-- A directory with the slash behind which the names in it stand. -/
def opened (root : String) : String :=
  if (ofString root).parts = [] then root else root ++ "/"

/-- The path of a file of the tree at a root; an unknown file stays unknown. -/
def inTree (root source : String) : String :=
  if source = "" then "" else opened root ++ source

variable {root source : String}

/-- A path in its shortest form is written as it was read. -/
theorem text_ofString_of_normalize {path : String} (hshortest : normalize path = path) :
    (ofString path).text = path := by
  have hpath : (shortest path).text = path := (normalize_eq_text path).symm.trans hshortest
  have hread := ofString_text (isPlain_shortest path)
  rw [hpath] at hread
  rw [hread, hpath]

theorem IsInside.ne_empty (hsource : IsInside source) : source ≠ "" := by
  rintro rfl
  exact absurd hsource.isShortest (by decide)

theorem inTree_of_isInside (hsource : IsInside source) :
    inTree root source = opened root ++ source :=
  if_neg hsource.ne_empty

theorem IsRoot.eq_anchor_text (hroot : IsRoot root) (hbare : (ofString root).parts = []) :
    root = (ofString root).anchor.text := by
  have htext := text_ofString_of_normalize hroot.isShortest
  have habsolute : (ofString root).anchor ≠ .relative := hroot.isAbsolute
  rw [text, hbare] at htext
  simpa [habsolute, joinWith] using htext.symm

/-- A root without names is one slash or two. -/
theorem IsRoot.bare (hroot : IsRoot root) (hbare : (ofString root).parts = []) :
    root = "/" ∨ root = "//" := by
  have htext := hroot.eq_anchor_text hbare
  have habsolute : (ofString root).anchor ≠ .relative := hroot.isAbsolute
  cases hanchor : (ofString root).anchor with
  | relative => exact absurd hanchor habsolute
  | root => exact .inl (by rw [htext, hanchor]; rfl)
  | doubleRoot => exact .inr (by rw [htext, hanchor]; rfl)

/-! ### Shortening by the root -/

/-- What stands in an opened directory is found from the directory. -/
theorem descend_components_opened_append (hroot : IsRoot root) (back : String) :
    descend [] (components (opened root ++ back)) =
      descend (descend [] (components root)) (components back) := by
  rw [opened]
  split
  · next hbare =>
    rcases hroot.bare hbare with rfl | rfl
    · have hslash := components_append_slash "" back
      rw [String.empty_append] at hslash
      rw [hslash]
      rfl
    · have hslash := components_append_slash "/" back
      rw [show "//" = "/" ++ "/" from rfl, hslash, descend_append]
      rfl
  · rw [components_append_slash, descend_append]

theorem anchor_opened_append (hroot : IsRoot root) (back : String) :
    Anchor.ofText (opened root ++ back).toList ≠ .relative := by
  have hhead : root.toList.head? = some '/' :=
    Decidable.not_not.mp (mt (anchor_eq_relative_iff _).mpr hroot.isAbsolute)
  have hopened : (opened root ++ back).toList.head? = some '/' := by
    rw [opened]
    split
    · rw [String.toList_append, List.head?_append, hhead]
      rfl
    · rw [String.append_assoc, String.toList_append, List.head?_append, hhead]
      rfl
  rw [ne_eq, anchor_eq_relative_iff, hopened]
  exact fun hne ↦ hne rfl

theorem IsInside.leadsDown (hsource : IsInside source) :
    ∀ name ∈ (ofString source).parts, LeadsDown name := by
  intro name hname
  obtain ⟨hcomponent, hbusy⟩ := List.mem_filter.mp hname
  refine ⟨by simpa using hbusy, ?_⟩
  rintro rfl
  exact hsource.staysInside hcomponent

theorem wayBetween_append (start names : List String) :
    wayBetween start (start ++ names) = names := by
  have hcommon : dropCommon start (start ++ names) = ([], names) := by
    induction start with
    | nil => cases names <;> rfl
    | cons name start ih => rw [List.cons_append, dropCommon, if_pos rfl, ih]
  rw [wayBetween, hcommon]
  rfl

theorem shorten_opened_append (workingDirectory : String) (hroot : IsRoot root)
    (hsource : IsInside source) :
    shorten workingDirectory (some root) (opened root ++ source) = source := by
  have horigin : ∀ path : String, Anchor.ofText path.toList ≠ .relative →
      absoluteNames workingDirectory path = descend [] (components path) := by
    intro path hpath
    rw [absoluteNames_eq, origin]
    split
    · next hrelative => exact absurd hrelative hpath
    · rfl
  have hdown : descend (descend [] (components root)) (components source) =
      descend [] (components root) ++ (ofString source).parts := by
    rw [← descend_of_leadsDown _ hsource.leadsDown]
    exact (descend_filter _ _).symm
  have hway : way workingDirectory root (opened root ++ source) = ofString source := by
    rw [way, horigin root hroot.isAbsolute, horigin _ (anchor_opened_append hroot source),
      descend_components_opened_append hroot, hdown, wayBetween_append]
    exact congrArg (Path.mk · _) hsource.isRelative.symm
  unfold shorten
  split
  · next hnone => cases hnone
  · next hrelative _ => exact absurd hrelative (anchor_opened_append hroot source)
  · next base hbase _ =>
    obtain rfl := Option.some_inj.mp hbase
    rw [relativeTo_eq_text, hway, text_ofString_of_normalize hsource.isShortest]

/-- Shortened by the root, a file of the tree has its path in the tree. -/
theorem shorten_inTree (workingDirectory : String) (hroot : IsRoot root)
    (hsource : source = "" ∨ IsInside source) :
    shorten workingDirectory (some root) (inTree root source) = source := by
  rcases hsource with rfl | hsource
  · rfl
  · rw [inTree_of_isInside hsource]
    exact shorten_opened_append workingDirectory hroot hsource

/-! ### Where a tree lies -/

variable {other : String}

theorem append_slash_ne (hnames : (ofString root).parts ≠ []) (hother : IsRoot other)
    (hbare : (ofString other).parts = []) : root ++ "/" ≠ other := by
  intro heq
  rcases hother.bare hbare with rfl | rfl
  · have hempty : root = "" := String.append_left_inj "/" |>.mp heq
    rw [hempty] at hnames
    exact hnames (by decide)
  · have hslash : root = "/" := String.append_left_inj "/" |>.mp heq
    rw [hslash] at hnames
    exact hnames (by decide)

/-- A root is known from its opened form. -/
theorem opened_injective (hroot : IsRoot root) (hother : IsRoot other)
    (hopened : opened root = opened other) : root = other := by
  unfold opened at hopened
  split at hopened
  · next hbare =>
    split at hopened
    · exact hopened
    · next hnames => exact absurd hopened.symm (append_slash_ne hnames hroot hbare)
  · next hnames =>
    split at hopened
    · next hbare => exact absurd hopened (append_slash_ne hnames hother hbare)
    · exact String.append_left_inj "/" |>.mp hopened

end HelpSheet.Path
