import HelpSheet.Proofs.Path.Descent

/-!
# Paths that lead to the same place

Reading a path, writing it and taking back its double dots changes its text, never where it leads
(`absoluteNames_text_ofString`, `absoluteNames_normalize`), and the way from one directory to a path
leads there (`descend_relativeTo`).
-/

set_option autoImplicit false
set_option relaxedAutoImplicit false

namespace HelpSheet.Path

open HelpSheet.Text (Lacks joinWith)

/-! ### Texts of paths -/

/-- The parts of a path are components that are not idle. -/
def IsPlain (path : Path) : Prop :=
  ∀ part ∈ path.parts, isIdle part = false ∧ Lacks '/' part

theorem isPlain_ofString (text : String) : (ofString text).IsPlain := by
  intro part hpart
  obtain ⟨hcomponent, hbusy⟩ := List.mem_filter.mp hpart
  exact ⟨by simpa using hbusy, lacks_slash_of_mem_components hcomponent⟩

theorem IsPlain.parent {path : Path} (hpath : path.IsPlain) : path.parent.IsPlain :=
  fun part hpart ↦ hpath part (List.dropLast_subset _ hpart)

theorem ne_empty_of_isIdle_eq_false {part : String} (hpart : isIdle part = false) :
    part ≠ "" := by
  rintro rfl
  exact absurd hpart (by decide)

/-- What stands behind a text has no influence on its anchor, unless it begins with a slash. -/
theorem anchor_append (chars : List Char) {back : List Char} (hback : back.head? ≠ some '/') :
    Anchor.ofText (chars ++ back) = Anchor.ofText chars := by
  have hslashes : (chars ++ back).takeWhile (· = '/') = chars.takeWhile (· = '/') := by
    induction chars with
    | nil =>
      cases back with
      | nil => rfl
      | cons c rest =>
        have hc : c ≠ '/' := fun hc ↦ hback (congrArg some hc)
        simp [hc]
    | cons c chars ih =>
      rw [List.cons_append, List.takeWhile_cons, List.takeWhile_cons, ih]
  rw [Anchor.ofText, hslashes, Anchor.ofText]

theorem anchor_eq_relative_iff (chars : List Char) :
    Anchor.ofText chars = .relative ↔ chars.head? ≠ some '/' := by
  cases chars with
  | nil => simp [Anchor.ofText]
  | cons c rest =>
    by_cases hc : c = '/'
    · have hlength : ((c :: rest).takeWhile (· = '/')).length ≠ 0 := by simp [hc]
      simp only [hc, List.head?_cons, ne_eq, not_true_eq_false, iff_false]
      unfold Anchor.ofText
      split <;> simp_all
    · simp [Anchor.ofText, hc]

theorem head?_joinWith_ne_slash {parts : List String} (hparts : ∀ part ∈ parts,
    isIdle part = false ∧ Lacks '/' part) : (joinWith "/" parts).toList.head? ≠ some '/' := by
  cases parts with
  | nil => simp [joinWith]
  | cons first rest =>
    have hfirst := hparts first List.mem_cons_self
    have hne : first.toList ≠ [] := fun hnil ↦
      ne_empty_of_isIdle_eq_false hfirst.1 (String.toList_eq_nil_iff.mp hnil)
    have hhead : first.toList.head? ≠ some '/' := fun hhead ↦
      hfirst.2 (List.mem_of_mem_head? hhead)
    cases rest with
    | nil => simpa [joinWith] using hhead
    | cons second rest =>
      rw [Text.joinWith_cons_cons, String.toList_append, String.toList_append,
        List.append_assoc, List.head?_append, Option.or_of_isSome (by simpa using hne)]
      exact hhead

theorem text_eq_dot_or (path : Path) :
    (path.anchor = .relative ∧ path.parts = [] ∧ path.text = ".") ∨
      (¬(path.anchor = .relative ∧ path.parts = []) ∧
        path.text = path.anchor.text ++ joinWith "/" path.parts) := by
  by_cases hdot : path.anchor = .relative ∧ path.parts = []
  · exact .inl ⟨hdot.1, hdot.2, by simp [text, hdot.1, hdot.2]⟩
  · exact .inr ⟨hdot, by simp_all [text]⟩

theorem anchor_text {path : Path} (hpath : path.IsPlain) :
    Anchor.ofText path.text.toList = path.anchor := by
  rcases text_eq_dot_or path with ⟨hanchor, -, htext⟩ | ⟨-, htext⟩
  · rw [htext, hanchor]
    rfl
  · rw [htext, String.toList_append]
    rw [anchor_append _ (head?_joinWith_ne_slash hpath)]
    cases path.anchor <;> rfl

theorem joinWith_ne_empty {parts : List String} (hparts : ∀ part ∈ parts, isIdle part = false)
    (hne : parts ≠ []) : joinWith "/" parts ≠ "" := by
  cases parts with
  | nil => exact absurd rfl hne
  | cons first rest =>
    have hfirst := ne_empty_of_isIdle_eq_false (hparts first List.mem_cons_self)
    cases rest with
    | nil => simpa [joinWith] using hfirst
    | cons second rest => simp [Text.joinWith_cons_cons]

theorem text_ne_empty {path : Path} (hpath : path.IsPlain) : path.text ≠ "" := by
  rcases text_eq_dot_or path with ⟨-, -, htext⟩ | ⟨hdot, htext⟩
  · rw [htext]
    decide
  · rw [htext, ne_eq, String.append_eq_empty_iff]
    rintro ⟨hanchor, hparts⟩
    refine hdot ⟨?_, ?_⟩
    · cases hcase : path.anchor <;> simp_all [Anchor.text]
    · exact Decidable.byContradiction fun hne ↦
        joinWith_ne_empty (fun part hpart ↦ (hpath part hpart).1) hne hparts

/-- The text of a path has the parts of the path as its components, behind some idle ones. -/
theorem exists_components_text {path : Path} (hpath : path.IsPlain) :
    ∃ idle : List String, (∀ component ∈ idle, isIdle component = true) ∧
      components path.text = idle ++ path.parts := by
  have hslashes : ∀ anchor : Anchor, ∃ idle : List String,
      (∀ component ∈ idle, isIdle component = true) ∧
        ∀ back, components (anchor.text ++ back) = idle ++ components back := by
    intro anchor
    have hempty : isIdle "" = true := by decide
    cases anchor with
    | relative => exact ⟨[], by simp, fun back ↦ by simp [Anchor.text]⟩
    | root => exact ⟨[""], by simpa using hempty, components_append_slash ""⟩
    | doubleRoot =>
      refine ⟨["", ""], by simpa using hempty, fun back ↦ ?_⟩
      have hroot := components_append_slash "/" back
      rwa [show components "/" = ["", ""] by decide] at hroot
  obtain ⟨idle, hidle, hcomponents⟩ := hslashes path.anchor
  rcases text_eq_dot_or path with ⟨-, hparts, htext⟩ | ⟨-, htext⟩
  · exact ⟨["."], by decide, by rw [htext, hparts]; decide⟩
  · rw [htext, hcomponents]
    by_cases hparts : path.parts = []
    · refine ⟨idle ++ [""], ?_, ?_⟩
      · exact List.forall_mem_append.mpr ⟨hidle, by decide⟩
      · rw [hparts, List.append_nil]
        rfl
    · have hlacks : ∀ part ∈ path.parts, Lacks '/' part := fun part hpart ↦ (hpath part hpart).2
      exact ⟨idle, hidle, by rw [components_joinWith hlacks hparts]⟩

theorem descend_components_text (place : List String) {path : Path} (hpath : path.IsPlain) :
    descend place (components path.text) = descend place path.parts := by
  obtain ⟨idle, hidle, hcomponents⟩ := exists_components_text hpath
  rw [hcomponents, descend_append, descend_of_isIdle place hidle]

/-- Reading what was written gives the path back. -/
theorem ofString_text {path : Path} (hpath : path.IsPlain) : ofString path.text = path := by
  obtain ⟨idle, hidle, hcomponents⟩ := exists_components_text hpath
  have hdropped : idle.filter (fun component ↦ !isIdle component) = [] := by
    simpa using hidle
  have hkept : path.parts.filter (fun component ↦ !isIdle component) = path.parts := by
    rw [List.filter_eq_self]
    exact fun part hpart ↦ by simp [(hpath part hpart).1]
  rw [ofString, anchor_text hpath, hcomponents, List.filter_append, hdropped, hkept,
    List.nil_append]

/-! ### Absolute names -/

/-- The place where a path starts that is read in a directory. -/
def origin (directory path : String) : List String :=
  match Anchor.ofText path.toList with
  | .relative => descend [] (components directory)
  | _ => []

theorem absoluteNames_eq (directory path : String) :
    absoluteNames directory path = descend (origin directory path) (components path) := by
  unfold absoluteNames origin
  cases Anchor.ofText path.toList <;> simp [collapse_true]

theorem leadsDown_of_mem_absoluteNames {directory path : String} :
    ∀ name ∈ absoluteNames directory path, LeadsDown name := by
  have hroot : ∀ parts : List String, ∀ name ∈ descend [] parts, LeadsDown name := fun _ ↦
    leadsDown_of_mem_descend (List.forall_mem_nil _)
  unfold absoluteNames
  split <;> simpa only [collapse_true] using hroot _

theorem lacks_slash_of_mem_absoluteNames {directory path : String} :
    ∀ name ∈ absoluteNames directory path, Lacks '/' name := by
  intro name hname
  unfold absoluteNames at hname
  split at hname
  · rcases List.mem_append.mp (mem_of_mem_collapse hname) with hname | hname
    · exact lacks_slash_of_mem_components hname
    · exact lacks_slash_of_mem_components hname
  · exact lacks_slash_of_mem_components (mem_of_mem_collapse hname)

theorem origin_congr {directory first second : String}
    (hanchor : Anchor.ofText first.toList = Anchor.ofText second.toList) :
    origin directory first = origin directory second := by
  rw [origin, origin, hanchor]

/-- A path that was read and written again leads to the same place. -/
theorem absoluteNames_text_ofString (directory path : String) :
    absoluteNames directory (ofString path).text = absoluteNames directory path := by
  have hplain := isPlain_ofString path
  have horigin : origin directory (ofString path).text = origin directory path :=
    origin_congr (anchor_text hplain)
  rw [absoluteNames_eq, absoluteNames_eq, horigin, descend_components_text _ hplain]
  exact descend_filter _ _

/-- The shortest form of a path. -/
def shortest (path : String) : Path where
  anchor := .ofText path.toList
  parts := collapse (Anchor.ofText path.toList ≠ .relative) (components path)

theorem isPlain_shortest (path : String) : (shortest path).IsPlain := fun part hpart ↦
  ⟨isIdle_of_mem_collapse _ _ part hpart,
    lacks_slash_of_mem_components (mem_of_mem_collapse hpart)⟩

theorem normalize_eq_text (path : String) : normalize path = (shortest path).text := by
  have hplain := isPlain_shortest path
  have hnormal : normalize path =
      if (shortest path).anchor.text ++ joinWith "/" (shortest path).parts = "" then "."
      else (shortest path).anchor.text ++ joinWith "/" (shortest path).parts := rfl
  rcases text_eq_dot_or (shortest path) with ⟨hanchor, hparts, htext⟩ | ⟨hdot, htext⟩
  · rw [hnormal, htext, hanchor, hparts]
    rfl
  · rw [hnormal, ← htext, if_neg (text_ne_empty hplain)]

theorem anchor_normalize (path : String) :
    Anchor.ofText (normalize path).toList = Anchor.ofText path.toList := by
  rw [normalize_eq_text, anchor_text (isPlain_shortest path)]
  rfl

/-- Taking back double dots does not change where a path leads. -/
theorem absoluteNames_normalize (directory path : String) :
    absoluteNames directory (normalize path) = absoluteNames directory path := by
  have horigin : origin directory (normalize path) = origin directory path :=
    origin_congr (anchor_normalize path)
  rw [absoluteNames_eq, absoluteNames_eq, horigin, normalize_eq_text,
    descend_components_text _ (isPlain_shortest path)]
  by_cases hanchor : Anchor.ofText path.toList = .relative
  · have hparts : (shortest path).parts = collapse false (components path) := by
      simp [shortest, hanchor]
    rw [hparts, descend_collapse_false]
  · have hparts : (shortest path).parts = collapse true (components path) := by
      simp [shortest, hanchor]
    have hroot : origin directory path = [] := by
      unfold origin
      split
      · next hrelative => exact absurd hrelative hanchor
      · rfl
    have hdown : ∀ name ∈ descend [] (components path), LeadsDown name :=
      leadsDown_of_mem_descend (List.forall_mem_nil _)
    rw [hparts, collapse_true, hroot, descend_of_leadsDown _ hdown, List.nil_append]

/-! ### The way between two places -/

theorem exists_dropCommon (start goal : List String) :
    ∃ common, start = common ++ (dropCommon start goal).1 ∧
      goal = common ++ (dropCommon start goal).2 := by
  induction start generalizing goal with
  | nil => exact ⟨[], by simp [dropCommon], by simp [dropCommon]⟩
  | cons first start ih =>
    cases goal with
    | nil => exact ⟨[], by simp [dropCommon], by simp [dropCommon]⟩
    | cons second goal =>
      by_cases hnames : first = second
      · obtain ⟨common, hstart, hgoal⟩ := ih goal
        refine ⟨first :: common, ?_, ?_⟩
        · rw [dropCommon, if_pos hnames, List.cons_append, ← hstart]
        · rw [dropCommon, if_pos hnames, List.cons_append, ← hgoal, hnames]
      · exact ⟨[], by simp [dropCommon, hnames], by simp [dropCommon, hnames]⟩

theorem descend_replicate_up (place : List String) (count : Nat) :
    descend place (List.replicate count "..") = place.take (place.length - count) := by
  induction count generalizing place with
  | zero => simp
  | succ count ih =>
    rw [List.replicate_succ, descend_cons, follow_up, ih, List.length_dropLast,
      List.dropLast_eq_take, List.take_take]
    congr 1
    omega

/-- The way between two places leads up to a place above both, and then only down. -/
theorem exists_wayBetween (start goal : List String) :
    ∃ (common : List String) (count : Nat) (down : List String),
      wayBetween start goal = List.replicate count ".." ++ down ∧
        descend start (List.replicate count "..") = common ∧ goal = common ++ down := by
  obtain ⟨common, hstart, hgoal⟩ := exists_dropCommon start goal
  refine ⟨common, (dropCommon start goal).1.length, (dropCommon start goal).2, ?_, ?_, hgoal⟩
  · exact congrArg (· ++ _) List.map_const'
  · have hlength : start.length - (dropCommon start goal).1.length = common.length := by
      have hlengths := congrArg List.length hstart
      rw [List.length_append] at hlengths
      omega
    rw [descend_replicate_up, hlength]
    exact (congrArg (List.take common.length) hstart).trans List.take_left

theorem descend_wayBetween (start : List String) {goal : List String}
    (hgoal : ∀ name ∈ goal, LeadsDown name) : descend start (wayBetween start goal) = goal := by
  obtain ⟨common, count, down, hway, hup, rfl⟩ := exists_wayBetween start goal
  rw [hway, descend_append, hup,
    descend_of_leadsDown _ fun name hname ↦ hgoal name (List.mem_append_right _ hname)]

/-- The way from one directory to a path, as a path. -/
def way (directory start path : String) : Path where
  anchor := .relative
  parts := wayBetween (absoluteNames directory start) (absoluteNames directory path)

theorem isPlain_way (directory start path : String) : (way directory start path).IsPlain := by
  intro part hpart
  rcases mem_of_mem_wayBetween hpart with rfl | hpart
  · exact ⟨by decide, by decide⟩
  · exact ⟨(leadsDown_of_mem_absoluteNames part hpart).1,
      lacks_slash_of_mem_absoluteNames part hpart⟩

theorem relativeTo_eq_text (directory start path : String) :
    relativeTo directory start path = (way directory start path).text := by
  unfold relativeTo
  split
  · next hway => simp [way, text, hway]
  · next hway =>
    rcases text_eq_dot_or (way directory start path) with ⟨-, hparts, -⟩ | ⟨-, htext⟩
    · exact absurd hparts hway
    · rw [htext]
      exact (String.empty_append).symm

theorem anchor_relativeTo (directory start path : String) :
    Anchor.ofText (relativeTo directory start path).toList = .relative := by
  rw [relativeTo_eq_text, anchor_text (isPlain_way directory start path)]
  rfl

/-- A source path is shown as an empty text only if it is empty. -/
theorem shorten_eq_empty_iff {directory : String} {base : Option String} {source : String} :
    shorten directory base source = "" ↔ source = "" := by
  unfold shorten
  split
  · rfl
  · rfl
  · next start hanchor =>
    rw [relativeTo_eq_text]
    refine iff_of_false (text_ne_empty (isPlain_way directory start source)) ?_
    rintro rfl
    exact hanchor rfl

/-- The way from a directory to a path leads there. -/
theorem descend_relativeTo (directory start path : String) :
    descend (absoluteNames directory start) (components (relativeTo directory start path)) =
      absoluteNames directory path := by
  rw [relativeTo_eq_text, descend_components_text _ (isPlain_way directory start path)]
  exact descend_wayBetween _ leadsDown_of_mem_absoluteNames

/-- The way to a path depends only on where the path leads. -/
theorem relativeTo_congr {directory first second : String} (start : String)
    (hnames : absoluteNames directory first = absoluteNames directory second) :
    relativeTo directory start first = relativeTo directory start second := by
  rw [relativeTo, hnames, relativeTo]

/-! ### Settled paths -/

theorem collapse_append_of_isIdle (rooted : Bool) {idle : List String}
    (hidle : ∀ component ∈ idle, isIdle component = true) (parts : List String) :
    collapse rooted (idle ++ parts) = collapse rooted parts := by
  have hstay : ∀ names : List String, idle.foldl (pushComponent rooted) names = names := by
    induction idle with
    | nil => exact fun _ ↦ rfl
    | cons component idle ih =>
      rw [List.forall_mem_cons] at hidle
      intro names
      rw [List.foldl_cons, pushComponent_of_isIdle _ _ hidle.1, ih hidle.2]
  rw [collapse, collapse, List.foldl_append, hstay]

/-- What remains of a relative path goes back a number of times and then only down. -/
theorem exists_collapse_false (parts : List String) :
    ∃ (count : Nat) (names : List String), (∀ name ∈ names, LeadsDown name) ∧
      collapse false parts = List.replicate count ".." ++ names := by
  suffices hfold : ∀ (count : Nat) (names : List String), (∀ name ∈ names, LeadsDown name) →
      ∃ (count' : Nat) (names' : List String), (∀ name ∈ names', LeadsDown name) ∧
        parts.foldl (pushComponent false) (names ++ List.replicate count "..") =
          names' ++ List.replicate count' ".." by
    obtain ⟨count, names, hnames, hparts⟩ := hfold 0 [] (List.forall_mem_nil _)
    refine ⟨count, names.reverse, fun name hname ↦ hnames name (List.mem_reverse.mp hname), ?_⟩
    rw [List.replicate_zero, List.append_nil] at hparts
    rw [collapse, hparts, List.reverse_append, List.reverse_replicate]
  induction parts with
  | nil => exact fun count names hnames ↦ ⟨count, names, hnames, rfl⟩
  | cons part parts ih =>
    intro count names hnames
    rw [List.foldl_cons]
    rcases componentCases part with hidle | rfl | hdown
    · rw [pushComponent_of_isIdle _ _ hidle]
      exact ih count names hnames
    · cases names with
      | nil =>
        have hpushed : pushComponent false ([] ++ List.replicate count "..") ".." =
            [] ++ List.replicate (count + 1) ".." := by
          cases count <;> simp [pushComponent, isIdle, List.replicate_succ]
        rw [hpushed]
        exact ih (count + 1) [] hnames
      | cons name rest =>
        rw [List.forall_mem_cons] at hnames
        have hpushed : pushComponent false (name :: rest ++ List.replicate count "..") ".." =
            rest ++ List.replicate count ".." := by
          simp [pushComponent, isIdle, hnames.1.2]
        rw [hpushed]
        exact ih count rest hnames.2
    · rw [pushComponent_of_leadsDown _ _ hdown, ← List.cons_append]
      exact ih count (part :: names) (List.forall_mem_cons.mpr ⟨hdown, hnames⟩)

theorem collapse_false_replicate_up (count : Nat) {names : List String}
    (hnames : ∀ name ∈ names, LeadsDown name) :
    collapse false (List.replicate count ".." ++ names) = List.replicate count ".." ++ names := by
  have hup : (List.replicate count "..").foldl (pushComponent false) [] =
      List.replicate count ".." := by
    induction count with
    | zero => rfl
    | succ count ih =>
      rw [List.replicate_succ', List.foldl_append, ih, List.foldl_cons, List.foldl_nil,
        ← List.replicate_succ']
      cases count <;> simp [pushComponent, isIdle, List.replicate_succ]
  have hdown : ∀ stack : List String,
      names.foldl (pushComponent false) stack = names.reverse ++ stack := by
    induction names with
    | nil => exact fun _ ↦ rfl
    | cons name names ih =>
      rw [List.forall_mem_cons] at hnames
      intro stack
      rw [List.foldl_cons, pushComponent_of_leadsDown _ _ hnames.1, ih hnames.2]
      simp
  rw [collapse, List.foldl_append, hup, hdown, List.reverse_append, List.reverse_reverse,
    List.reverse_replicate]

/-- Behind components that are idle, the shortest text of a relative path is as short as can be. -/
theorem normalize_append_normalize {front path : String} {idle : List String}
    (hrelative : Anchor.ofText path.toList = .relative)
    (hfront : Anchor.ofText (front ++ normalize path).toList = .relative)
    (hidle : ∀ component ∈ idle, isIdle component = true)
    (hcomponents : components (front ++ normalize path) = idle ++ components (normalize path)) :
    normalize (front ++ normalize path) = normalize path := by
  have hparts : (shortest path).parts = collapse false (components path) := by
    simp [shortest, hrelative]
  obtain ⟨idle', hidle', htext⟩ := exists_components_text (isPlain_shortest path)
  have hshort : collapse false (components (front ++ normalize path)) =
      collapse false (components path) := by
    obtain ⟨count, names, hnames, hsettled⟩ := exists_collapse_false (components path)
    rw [hcomponents, collapse_append_of_isIdle false hidle, normalize_eq_text, htext,
      collapse_append_of_isIdle false hidle', hparts, hsettled,
      collapse_false_replicate_up count hnames]
  have hshortest : shortest (front ++ normalize path) = shortest path := by
    simp only [shortest, hfront, hrelative]
    exact congrArg (Path.mk .relative) hshort
  rw [normalize_eq_text, hshortest, ← normalize_eq_text]

end HelpSheet.Path
