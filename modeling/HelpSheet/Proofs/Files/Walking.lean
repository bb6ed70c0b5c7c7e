import HelpSheet.Files.Tree
import HelpSheet.Log.Traced
import HelpSheet.Proofs.Path.Directory

/-!
# Walking in a tree of files

A walk that succeeds ends where its components lead (`walk_eq_descend`), and in a tree without holes
whose directories can be entered the way between two places can be walked (`walk_relativeTo`). What
is written under a path is what is read under it (`read_write`), and nothing else changes.
-/

set_option autoImplicit false
set_option relaxedAutoImplicit false

namespace HelpSheet.Files.Tree

open HelpSheet.Path (IsPlain LeadsDown absoluteNames components descend follow isIdle)

variable {tree : Tree} {directory place goal : Place} {path : String}

/-! ### Walks -/

theorem node_of_enter (hplace : tree.enter place = .ok ()) :
    tree.node? place = some .directory := by
  unfold enter at hplace
  split at hplace
  · cases hplace
  · cases hplace
  · assumption

theorem walk_cons_of_enter (hplace : tree.enter place = .ok ()) (component : String)
    (rest : List String) :
    tree.walk place (component :: rest) = tree.walk (follow place component) rest := by
  rw [walk, hplace]
  rcases Path.componentCases component with hidle | rfl | hdown
  · simp [hidle, Path.follow_of_isIdle place hidle]
  · simp [isIdle]
  · simp [hdown.1, hdown.2, Path.follow_of_leadsDown place hdown]

theorem enter_of_walk_cons {component : String} {rest : List String}
    (hwalk : tree.walk place (component :: rest) = .ok goal) : tree.enter place = .ok () := by
  rw [walk] at hwalk
  split at hwalk
  · cases hwalk
  · assumption

/-- A walk along two lists goes on where the walk along the first one ends. -/
theorem walk_append (place : Place) (front back : List String) :
    tree.walk place (front ++ back) =
      (tree.walk place front).bind fun middle ↦ tree.walk middle back := by
  induction front generalizing place with
  | nil =>
    rw [List.nil_append, walk]
    cases hplace : tree.node? place with
    | none => cases back <;> simp [walk, enter, hplace, Except.bind]
    | some node => simp [Except.bind]
  | cons component front ih =>
    rw [List.cons_append]
    cases hplace : tree.enter place with
    | error fault => simp [walk, hplace, Except.bind]
    | ok _ => rw [walk_cons_of_enter hplace, walk_cons_of_enter hplace, ih]

theorem walk_append_ok {front back : List String} :
    tree.walk place (front ++ back) = .ok goal ↔
      ∃ middle, tree.walk place front = .ok middle ∧ tree.walk middle back = .ok goal := by
  rw [walk_append]
  cases tree.walk place front <;> simp [Except.bind]

/-- A walk ends where the components lead, and something lies there. -/
theorem walk_eq_descend {parts : List String} (hwalk : tree.walk place parts = .ok goal) :
    goal = descend place parts ∧ (tree.node? goal).isSome := by
  induction parts generalizing place with
  | nil =>
    rw [walk] at hwalk
    split at hwalk
    · next hplace =>
      cases hwalk
      exact ⟨rfl, hplace⟩
    · cases hwalk
  | cons component parts ih =>
    have hplace := enter_of_walk_cons hwalk
    rw [walk_cons_of_enter hplace] at hwalk
    exact ih hwalk

theorem walk_of_isIdle {idle : List String} (hidle : ∀ component ∈ idle, isIdle component = true)
    (hplace : tree.enter place = .ok ()) (parts : List String) :
    tree.walk place (idle ++ parts) = tree.walk place parts := by
  induction idle with
  | nil => rfl
  | cons component idle ih =>
    rw [List.forall_mem_cons] at hidle
    rw [List.cons_append, walk_cons_of_enter hplace, Path.follow_of_isIdle _ hidle.1,
      ih hidle.2]

/-- Without the idle components, a walk still succeeds. -/
theorem walk_filter {parts : List String} (hwalk : tree.walk place parts = .ok goal) :
    tree.walk place (parts.filter fun part ↦ !isIdle part) = .ok goal := by
  induction parts generalizing place with
  | nil => exact hwalk
  | cons component parts ih =>
    have hplace := enter_of_walk_cons hwalk
    rw [walk_cons_of_enter hplace] at hwalk
    cases hidle : isIdle component with
    | true =>
      rw [Path.follow_of_isIdle _ hidle] at hwalk
      rw [List.filter_cons_of_neg (by simp [hidle])]
      exact ih hwalk
    | false =>
      rw [List.filter_cons_of_pos (by simp [hidle]), walk_cons_of_enter hplace]
      exact ih hwalk

/-! ### Trees without holes -/

/-- What lies anywhere lies in a directory that can be entered. -/
def IsSound (tree : Tree) : Prop :=
  ∀ (place : Place) (name : String),
    (tree.node? (place ++ [name])).isSome → tree.enter place = .ok ()

/-- A tree is sound if each of its entries lies in a directory that can be entered. -/
theorem isSound_of_entries
    (hentries : ∀ entry ∈ tree.entries, tree.enter entry.1.dropLast = .ok ()) :
    tree.IsSound := by
  intro place name hnode
  have hlookup : (tree.entries.lookup (place ++ [name])).isSome := by simpa [node?] using hnode
  obtain ⟨node, hnode⟩ := Option.isSome_iff_exists.mp hlookup
  obtain ⟨front, back, heq, -⟩ := List.lookup_eq_some_iff.mp hnode
  have hentry : (place ++ [name], node) ∈ tree.entries := by simp [heq]
  simpa using hentries _ hentry

namespace IsSound

variable (htree : tree.IsSound)

include htree

theorem enter_of_append {names : List String} (hnode : (tree.node? (place ++ names)).isSome)
    (hnames : names ≠ []) : tree.enter place = .ok () := by
  induction names generalizing place with
  | nil => exact absurd rfl hnames
  | cons name names ih =>
    rw [← List.singleton_append, ← List.append_assoc] at hnode
    cases names with
    | nil => exact htree place name (by simpa using hnode)
    | cons second names =>
      have hchild : tree.enter (place ++ [name]) = .ok () := ih hnode (List.cons_ne_nil _ _)
      exact htree place name (by rw [node_of_enter hchild]; rfl)

theorem enter_dropLast (hplace : tree.enter place = .ok ()) :
    tree.enter place.dropLast = .ok () := by
  rcases List.eq_nil_or_concat place with rfl | ⟨above, name, rfl⟩
  · exact hplace
  · rw [List.concat_eq_append] at hplace ⊢
    rw [List.dropLast_concat]
    exact htree above name (by rw [node_of_enter hplace]; rfl)

theorem walk_replicate_up (hplace : tree.enter place = .ok ()) (count : Nat) :
    ∃ above, tree.walk place (List.replicate count "..") = .ok above ∧
      tree.enter above = .ok () := by
  induction count generalizing place with
  | zero => exact ⟨place, by simp [walk, node_of_enter hplace], hplace⟩
  | succ count ih =>
    have habove := htree.enter_dropLast hplace
    rw [List.replicate_succ, walk_cons_of_enter hplace, Path.follow_up]
    exact ih habove

theorem walk_names {names : List String} (hnames : ∀ name ∈ names, LeadsDown name)
    (hnode : (tree.node? (place ++ names)).isSome) :
    tree.walk place names = .ok (place ++ names) := by
  induction names generalizing place with
  | nil =>
    rw [List.append_nil] at hnode ⊢
    rw [walk, if_pos hnode]
  | cons name names ih =>
    rw [List.forall_mem_cons] at hnames
    have hplace := htree.enter_of_append hnode (List.cons_ne_nil _ _)
    rw [walk_cons_of_enter hplace, Path.follow_of_leadsDown _ hnames.1]
    have happend : place ++ name :: names = place ++ [name] ++ names := by simp
    rw [happend] at hnode ⊢
    exact ih hnames.2 hnode

/-- The way from a directory to a place where something lies can be walked. -/
theorem walk_wayBetween (hgoal : ∀ name ∈ goal, LeadsDown name)
    (hplace : tree.enter place = .ok ()) (hnode : (tree.node? goal).isSome) :
    tree.walk place (Path.wayBetween place goal) = .ok goal := by
  obtain ⟨common, count, down, hway, hcommon, rfl⟩ := Path.exists_wayBetween place goal
  obtain ⟨above, hup, -⟩ := htree.walk_replicate_up hplace count
  obtain rfl : above = common := (walk_eq_descend hup).1.trans hcommon
  have hdown : ∀ name ∈ down, LeadsDown name :=
    fun name hname ↦ hgoal name (List.mem_append_right _ hname)
  rw [hway, walk_append_ok]
  exact ⟨above, hup, htree.walk_names hdown hnode⟩

end IsSound

/-- A walk along the text of a path is a walk along its parts. -/
theorem walk_components_text {file : Path} (hfile : file.IsPlain)
    (hplace : tree.enter place = .ok ()) :
    tree.walk place (components file.text) = tree.walk place file.parts := by
  obtain ⟨idle, hidle, hcomponents⟩ := Path.exists_components_text hfile
  rw [hcomponents, walk_of_isIdle hidle hplace]

/-- The way from a directory to a path where something lies can be walked. -/
theorem walk_relativeTo (htree : tree.IsSound) {workingDirectory start path : String}
    (hstart : tree.enter (absoluteNames workingDirectory start) = .ok ())
    (hpath : (tree.node? (absoluteNames workingDirectory path)).isSome) :
    tree.walk (absoluteNames workingDirectory start)
        (components (Path.relativeTo workingDirectory start path)) =
      .ok (absoluteNames workingDirectory path) := by
  rw [Path.relativeTo_eq_text, walk_components_text (Path.isPlain_way _ _ _) hstart]
  exact htree.walk_wayBetween Path.leadsDown_of_mem_absoluteNames hstart hpath

/-! ### Paths -/

theorem startOf_congr {first second : String}
    (hanchor : Anchor.ofText first.toList = Anchor.ofText second.toList) :
    startOf directory first = startOf directory second := by
  rw [startOf, startOf, hanchor]

theorem components_ne_nil (path : String) : components path ≠ [] := fun hnil ↦
  Text.splitOnChar_ne_nil _ _ (List.map_eq_nil_iff.mp hnil)

theorem exists_components_eq (path : String) :
    ∃ (steps : List String) (base : String), components path = steps ++ [base] := by
  rcases List.eq_nil_or_concat (components path) with hnil | ⟨steps, base, hconcat⟩
  · exact absurd hnil (components_ne_nil path)
  · exact ⟨steps, base, by rw [hconcat, List.concat_eq_append]⟩

/-- The place that a path leads to, whatever lies there. -/
def destination (directory : Place) (path : String) : Place :=
  descend (startOf directory path) (components path)

theorem startOf_text_ofString (directory : Place) (path : String) :
    startOf directory (Path.ofString path).text = startOf directory path :=
  startOf_congr (Path.anchor_text (Path.isPlain_ofString path))

theorem destination_text_ofString (directory : Place) (path : String) :
    destination directory (Path.ofString path).text = destination directory path := by
  have hplain := Path.isPlain_ofString path
  rw [destination, startOf_text_ofString, Path.descend_components_text _ hplain]
  exact Path.descend_filter _ _

theorem resolve_eq_ok_iff :
    tree.resolve directory path = .ok place ↔
      path ≠ "" ∧ tree.walk (startOf directory path) (components path) = .ok place := by
  unfold resolve
  split <;> simp_all

theorem destination_of_resolve (hresolve : tree.resolve directory path = .ok place) :
    place = destination directory path :=
  (walk_eq_descend (resolve_eq_ok_iff.mp hresolve).2).1

theorem enter_startOf (hresolve : tree.resolve directory path = .ok place) :
    tree.enter (startOf directory path) = .ok () := by
  have hwalk := (resolve_eq_ok_iff.mp hresolve).2
  cases hcomponents : components path with
  | nil => exact absurd hcomponents (components_ne_nil path)
  | cons component rest => exact enter_of_walk_cons (hcomponents ▸ hwalk)

/-- A path leads to the same place after it was read and written again. -/
theorem resolve_text_ofString (hresolve : tree.resolve directory path = .ok place) :
    tree.resolve directory (Path.ofString path).text = .ok place := by
  have hplain := Path.isPlain_ofString path
  rw [resolve_eq_ok_iff, startOf_text_ofString,
    walk_components_text hplain (enter_startOf hresolve)]
  exact ⟨Path.text_ne_empty hplain, walk_filter (resolve_eq_ok_iff.mp hresolve).2⟩

theorem find?_of_resolve (hresolve : tree.resolve directory path = .ok place) :
    tree.find? directory path = tree.node? place := by
  rw [find?, hresolve]

theorem read_eq_ok_iff {content : List UInt8} :
    tree.read directory path = .ok content ↔
      ∃ place, tree.resolve directory path = .ok place ∧
        tree.node? place = some (.file content) ∧ tree.allow place .read = .ok () := by
  have hcontent (place : Place) : tree.contentAt place = .ok content ↔
      tree.node? place = some (.file content) ∧ tree.allow place .read = .ok () := by
    unfold contentAt
    cases tree.node? place with
    | none => simp [throw, throwThe, MonadExceptOf.throw]
    | some node =>
      cases hallow : tree.allow place .read with
      | error fault => simp [bind, Except.bind]
      | ok _ =>
        cases node <;>
          simp [bind, Except.bind, pure, Except.pure, throw, throwThe, MonadExceptOf.throw]
  unfold read
  cases tree.resolve directory path with
  | error fault => simp [Except.bind]
  | ok place =>
    simp only [Except.bind, Except.ok.injEq, exists_eq_left', ← hcontent]
    cases tree.contentAt place <;> simp

/-- In a sound tree, a path to a file leads to a directory and from there down by its base. -/
theorem base_of_resolve (htree : tree.IsSound) {content : List UInt8} {steps : List String}
    {base : String} (hcomponents : components path = steps ++ [base])
    (hresolve : tree.resolve directory path = .ok place)
    (hnode : tree.node? place = some (.file content)) :
    LeadsDown base ∧ ∃ above, tree.walk (startOf directory path) steps = .ok above ∧
      tree.enter above = .ok () ∧ place = above ++ [base] := by
  have hwalk := (resolve_eq_ok_iff.mp hresolve).2
  rw [hcomponents] at hwalk
  obtain ⟨above, hsteps, hbase⟩ := walk_append_ok.mp hwalk
  have habove := enter_of_walk_cons hbase
  have hplace : place = follow above base := (walk_eq_descend hbase).1
  rcases Path.componentCases base with hidle | rfl | hdown
  · rw [hplace, Path.follow_of_isIdle _ hidle, node_of_enter habove] at hnode
    cases hnode
  · rw [hplace, Path.follow_up, node_of_enter (htree.enter_dropLast habove)] at hnode
    cases hnode
  · exact ⟨hdown, above, hsteps, habove, hplace.trans (Path.follow_of_leadsDown _ hdown)⟩

/-- Behind the directory part of a path, a walk takes the steps of the path and goes on. -/
theorem resolve_directoryPart_append {steps : List String} {base back : String}
    (hcomponents : components path = steps ++ [base])
    (hback : Anchor.ofText back.toList = .relative)
    (hstart : tree.enter (startOf directory path) = .ok ()) :
    tree.resolve directory (Path.directoryPart path ++ back) =
      tree.walk (startOf directory path) (steps ++ components back) := by
  obtain ⟨idle, hidle, hparts⟩ := Path.exists_directoryPart hcomponents
  have hne : Path.directoryPart path ++ back ≠ "" := fun hempty ↦
    Path.directoryPart_ne_empty path (String.append_eq_empty_iff.mp hempty).1
  rw [resolve, if_neg hne, startOf_congr (Path.anchor_directoryPart_append path hback), hparts,
    List.append_assoc, walk_of_isIdle hidle hstart]

/-- What is read under a path is read under it after it was read and written again. -/
theorem read_text_ofString {content : List UInt8} (hread : tree.read directory path = .ok content) :
    tree.read directory (Path.ofString path).text = .ok content := by
  obtain ⟨place, hresolve, hplace⟩ := read_eq_ok_iff.mp hread
  exact read_eq_ok_iff.mpr ⟨place, resolve_text_ofString hresolve, hplace⟩

/-! ### Writing -/

theorem node_ne_of_allowWriting {above : Place} {name : String}
    (hallow : tree.allowWriting above name = .ok ()) :
    tree.node? (above ++ [name]) ≠ some .directory := by
  intro hnode
  rw [allowWriting, hnode] at hallow
  cases hallow

/-- A file can be written under a path that leads to a directory and from there down by its base,
where the directory can be entered and a file of this name may be written. -/
theorem writable_eq_ok_iff {steps : List String} {base : String}
    (hcomponents : components path = steps ++ [base]) :
    tree.writable directory path = .ok place ↔
      path ≠ "" ∧ LeadsDown base ∧ ∃ above, tree.walk (startOf directory path) steps = .ok above ∧
        tree.enter above = .ok () ∧ tree.allowWriting above base = .ok () ∧
        place = above ++ [base] := by
  have hsteps : (components path).dropLast = steps := by
    rw [hcomponents, List.dropLast_concat]
  have hbase : (components path).getLastD "" = base := by
    rw [hcomponents]
    simp
  have hdown : (isIdle base || decide (base = "..")) = false ↔ LeadsDown base := by
    simp [LeadsDown]
  simp only [writable, hsteps, hbase, bind, Except.bind, pure, Except.pure, throw, throwThe,
    MonadExceptOf.throw]
  by_cases hpath : path = ""
  · simp [hpath]
  · cases tree.walk (startOf directory path) steps with
    | error fault => simp [hpath]
    | ok above =>
      cases henter : tree.enter above with
      | error fault => simp [hpath, henter]
      | ok _ =>
        cases hidle : (isIdle base || decide (base = "..")) with
        | true => simp [hpath, henter, ← hdown, hidle]
        | false =>
          cases hallow : tree.allowWriting above base with
          | error fault => simp [hpath, henter, ← hdown, hidle, hallow]
          | ok _ => simp [hpath, henter, ← hdown, hidle, hallow, eq_comm]

theorem lookup_putEntry (node : Node) (entries : List (Place × Node)) (other : Place) :
    (putEntry place node entries).lookup other =
      if other = place then some node else entries.lookup other := by
  have hbeq : ∀ {key : Place}, other ≠ key → (other == key) = false := beq_false_of_ne
  induction entries with
  | nil =>
    by_cases hother : other = place
    · simp [putEntry, hother]
    · simp [putEntry, hother, List.lookup_cons, hbeq hother]
  | cons entry rest ih =>
    obtain ⟨key, kept⟩ := entry
    by_cases hkey : key = place
    · by_cases hother : other = place
      · simp [putEntry, hkey, hother]
      · simp [putEntry, hkey, hother, List.lookup_cons, hbeq hother]
    · by_cases hother : other = key
      · simp [putEntry, hkey, hother]
      · simp [putEntry, hkey, List.lookup_cons, hbeq hother, ih]

theorem node?_put {node : Node} (hplace : place ≠ []) (other : Place) :
    (tree.put place node).node? other = if other = place then some node else tree.node? other := by
  by_cases hroot : other = []
  · simp [node?, hroot, hplace.symm]
  · simp [node?, put, hroot, lookup_putEntry]

@[simp] theorem allow_put (node : Node) (other : Place) (access : Access) :
    (tree.put place node).allow other access = tree.allow other access := rfl

/-- Where a file is put, nothing can be entered; elsewhere nothing has changed. -/
theorem enter_put {content : List UInt8} (hplace : place ≠ []) (other : Place) :
    (tree.put place (.file content)).enter other =
      if other = place then .error .notDirectory else tree.enter other := by
  rw [enter, node?_put hplace]
  by_cases hother : other = place
  · simp only [hother, if_true]
  · simp only [hother, if_false]
    rfl

/-- What is put at a place last counts. -/
theorem put_put (first second : Node) :
    (tree.put place first).put place second = tree.put place second := by
  have hentries : ∀ entries : List (Place × Node),
      putEntry place second (putEntry place first entries) = putEntry place second entries := by
    intro entries
    induction entries with
    | nil => simp [putEntry]
    | cons entry rest ih => by_cases hentry : entry.1 = place <;> simp [putEntry, hentry, ih]
  simp only [put, hentries]

theorem extend_put (hplace : place ≠ []) (before content : List UInt8) :
    (tree.put place (.file before)).extend place content =
      tree.put place (.file (before ++ content)) := by
  rw [extend, node?_put hplace, if_pos rfl]
  exact put_put ..

/-- A file in the place of a file does not change where walks lead. -/
theorem walk_put {old new : List UInt8} (hplace : tree.node? place = some (.file old))
    (start : Place) (parts : List String) :
    (tree.put place (.file new)).walk start parts = tree.walk start parts := by
  have hne : place ≠ [] := by
    rintro rfl
    cases hplace
  induction parts generalizing start with
  | nil =>
    rw [walk, walk, node?_put hne]
    by_cases hstart : start = place <;> simp [hstart, hplace]
  | cons component parts ih =>
    have henter : (tree.put place (.file new)).enter start = tree.enter start := by
      rw [enter_put hne]
      split
      · next hstart => rw [enter, hstart, hplace]
      · rfl
    rw [walk, walk, henter]
    simp only [ih]

/-- The text of a path has the steps and the base of the path, the idle steps apart. -/
theorem exists_steps_text_ofString {steps : List String} {base : String}
    (hcomponents : components path = steps ++ [base]) (hbase : isIdle base = false) :
    ∃ idle : List String, (∀ component ∈ idle, isIdle component = true) ∧
      components (Path.ofString path).text =
        (idle ++ steps.filter fun step ↦ !isIdle step) ++ [base] := by
  obtain ⟨idle, hidle, htext⟩ := Path.exists_components_text (Path.isPlain_ofString path)
  refine ⟨idle, hidle, ?_⟩
  rw [htext, Path.ofString_of_components hcomponents hbase, List.append_assoc]

/-- The file that is read under a path can be written anew where it lies, unless writing to it is
refused. -/
theorem writable_of_resolve (htree : tree.IsSound) {old : List UInt8}
    (hresolve : tree.resolve directory path = .ok place)
    (hnode : tree.node? place = some (.file old)) :
    tree.writable directory (Path.ofString path).text =
      (tree.allow place .write).map fun _ ↦ place := by
  obtain ⟨steps, base, hcomponents⟩ := exists_components_eq path
  obtain ⟨hdown, above, hsteps, habove, hplace⟩ := base_of_resolve htree hcomponents hresolve hnode
  obtain ⟨idle, hidle, htext⟩ := exists_steps_text_ofString hcomponents hdown.1
  have hpath : (Path.ofString path).text ≠ "" := Path.text_ne_empty (Path.isPlain_ofString path)
  have hwalk : tree.walk (startOf directory (Path.ofString path).text)
      (idle ++ steps.filter fun step ↦ !isIdle step) = .ok above := by
    rw [startOf_text_ofString, walk_of_isIdle hidle (enter_startOf hresolve)]
    exact walk_filter hsteps
  have hallow : tree.allowWriting above base = tree.allow place .write := by
    rw [allowWriting, ← hplace, hnode]
  simp only [writable, htext, if_neg hpath, List.dropLast_concat, List.getLastD_concat, hwalk,
    habove, hdown.1, hdown.2, hallow, ← hplace, bind, Except.bind, pure, Except.pure,
    Bool.false_or, decide_false, Bool.false_eq_true, if_false]
  cases tree.allow place .write <;> rfl

/-- After a write over a file, the content is read under the same path. -/
theorem read_put {old new : List UInt8} (hresolve : tree.resolve directory path = .ok place)
    (hnode : tree.node? place = some (.file old)) (hallow : tree.allow place .read = .ok ()) :
    (tree.put place (.file new)).read directory path = .ok new := by
  have hne : place ≠ [] := by
    rintro rfl
    cases hnode
  rw [read_eq_ok_iff]
  refine ⟨place, ?_, by rw [node?_put hne, if_pos rfl], hallow⟩
  rw [resolve_eq_ok_iff, walk_put hnode]
  exact resolve_eq_ok_iff.mp hresolve

/-- A file is written where its path leads to, into a directory, and over no directory. -/
theorem write_eq_ok {changed : Tree} {content : List UInt8}
    (hwrite : tree.write directory path content = .ok changed) :
    ∃ (above : Place) (name : String), destination directory path = above ++ [name] ∧
      tree.enter above = .ok () ∧ tree.node? (above ++ [name]) ≠ some .directory ∧
      changed = tree.put (above ++ [name]) (.file content) := by
  obtain ⟨steps, base, hcomponents⟩ := exists_components_eq path
  unfold write at hwrite
  split at hwrite
  · next place hwritable =>
    obtain ⟨-, hdown, above, hsteps, habove, hallow, rfl⟩ :=
      (writable_eq_ok_iff hcomponents).mp hwritable
    refine ⟨above, base, ?_, habove, node_ne_of_allowWriting hallow,
      (Except.ok.inj hwrite).symm⟩
    rw [destination, hcomponents, Path.descend_append, ← (walk_eq_descend hsteps).1]
    exact Path.follow_of_leadsDown above hdown
  · cases hwrite

/-- What is read under a path after a file was written under it is what was written. -/
theorem read_write {changed : Tree} {content found : List UInt8}
    (hwrite : tree.write directory (Path.ofString path).text content = .ok changed)
    (hread : changed.read directory path = .ok found) : found = content := by
  obtain ⟨above, name, hplace, -, -, rfl⟩ := write_eq_ok hwrite
  obtain ⟨place, hresolve, hnode, -⟩ := read_eq_ok_iff.mp hread
  rw [destination_text_ofString, ← destination_of_resolve hresolve] at hplace
  rw [hplace, node?_put (by simp), if_pos rfl] at hnode
  cases hnode
  rfl

/-- A walk that ends elsewhere does not meet what is put in the place of no directory. -/
theorem walk_put_of_ne {content : List UInt8} {start : Place} {parts : List String}
    (hne : place ≠ []) (hplace : tree.node? place ≠ some .directory) (hgoal : goal ≠ place)
    (hwalk : tree.walk start parts = .ok goal) :
    (tree.put place (.file content)).walk start parts = .ok goal := by
  induction parts generalizing start with
  | nil =>
    obtain ⟨rfl, hnode⟩ := walk_eq_descend hwalk
    rw [walk, node?_put hne, if_neg hgoal, if_pos hnode]
  | cons component parts ih =>
    have hstart := enter_of_walk_cons hwalk
    have hother : start ≠ place := by
      rintro rfl
      exact hplace (node_of_enter hstart)
    rw [walk_cons_of_enter hstart] at hwalk
    rw [walk_cons_of_enter (by rw [enter_put hne, if_neg hother, hstart])]
    exact ih hwalk

theorem ne_nil_of_writable (hwritable : tree.writable directory path = .ok place) :
    place ≠ [] := by
  obtain ⟨steps, base, hcomponents⟩ := exists_components_eq path
  obtain ⟨-, -, above, -, -, -, rfl⟩ := (writable_eq_ok_iff hcomponents).mp hwritable
  simp

/-- Writing under one path leaves what is read under a path that leads elsewhere. -/
theorem read_write_of_ne {changed : Tree} {content found : List UInt8} {other : String}
    (hwrite : tree.write directory path content = .ok changed)
    (hother : destination directory other ≠ destination directory path)
    (hread : tree.read directory other = .ok found) : changed.read directory other = .ok found := by
  obtain ⟨above, name, hplace, -, hnode, rfl⟩ := write_eq_ok hwrite
  obtain ⟨place, hresolve, hfound, hallow⟩ := read_eq_ok_iff.mp hread
  obtain ⟨hpath, hwalk⟩ := resolve_eq_ok_iff.mp hresolve
  have hne : above ++ [name] ≠ [] := by simp
  have hgoal : place ≠ above ++ [name] := by
    rwa [← hplace, destination_of_resolve hresolve]
  refine read_eq_ok_iff.mpr ⟨place, ?_, by rw [node?_put hne, if_neg hgoal, hfound], hallow⟩
  exact resolve_eq_ok_iff.mpr ⟨hpath, walk_put_of_ne hne hnode hgoal hwalk⟩

/-- What is written over a file is read under every path that leads to the file. -/
theorem read_write_of_eq {changed : Tree} {content found : List UInt8} {other : String}
    (hwrite : tree.write directory path content = .ok changed)
    (hother : destination directory other = destination directory path)
    (hread : tree.read directory other = .ok found) :
    changed.read directory other = .ok content := by
  obtain ⟨above, name, hplace, -, -, rfl⟩ := write_eq_ok hwrite
  obtain ⟨place, hresolve, hfound, hallow⟩ := read_eq_ok_iff.mp hread
  rw [← hplace, ← hother, ← destination_of_resolve hresolve]
  exact read_put hresolve hfound hallow

/-- Writing a file makes no holes. -/
theorem IsSound.write (htree : tree.IsSound) {changed : Tree} {content : List UInt8}
    (hwrite : tree.write directory path content = .ok changed) : changed.IsSound := by
  obtain ⟨above, name, -, habove, hnode, rfl⟩ := write_eq_ok hwrite
  have hne : above ++ [name] ≠ [] := by simp
  intro place child hchild
  rw [node?_put hne] at hchild
  rw [enter_put hne]
  by_cases hplace : place ++ [child] = above ++ [name]
  · obtain ⟨rfl, -⟩ := List.append_singleton_inj.mp hplace
    rw [if_neg (by simp), habove]
  · rw [if_neg hplace] at hchild
    have hdirectory := htree place child hchild
    rw [if_neg, hdirectory]
    rintro rfl
    exact hnode (node_of_enter hdirectory)

end HelpSheet.Files.Tree
