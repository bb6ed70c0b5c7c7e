import HelpSheet.Proofs.Sgr.Painting

/-!
# Schemes from names of roles and colors

Assignments of colors to roles make a scheme exactly where each of them names a role and a color
(`exists_recolorAll_iff`). In the scheme a role has the color that the last assignment to it names,
and the painter of the scheme before if there is none (`recolors_of_recolorAll`). Where they make
none, the error quotes a name of an assignment that is no role or no color
(`isFoundIn_of_recolorAll`).
-/

set_option autoImplicit false
set_option relaxedAutoImplicit false

namespace HelpSheet.Sgr

/-! ### Names -/

/-- Whether a name is the name of a role, once its hyphens are underscores. -/
def IsRoleName (name : String) : Prop :=
  Role.plainName name ∈ Role.all.map Role.name

/-- Whether a name is empty or the name of a color. -/
def IsColorName (name : String) : Prop :=
  name = "" ∨ name ∈ Color.all.map Color.name

/-- The style that the name of a color stands for; the empty name sets nothing. -/
inductive NamesStyle : String → Style → Prop
  | nothing : NamesStyle "" {}
  | color (color : Color) : NamesStyle color.name { foreground := some color }

theorem Role.mem_all (role : Role) : role ∈ Role.all := by
  cases role <;> decide

theorem Role.ofName?_eq_some_iff {name : String} {role : Role} :
    Role.ofName? name = some role ↔ Role.plainName name = role.name := by
  constructor
  · intro hfound
    unfold Role.ofName? at hfound
    have hname := List.find?_some hfound
    exact (of_decide_eq_true hname).symm
  · intro hname
    unfold Role.ofName?
    rw [hname]
    cases role <;> rfl

theorem isRoleName_iff {name : String} :
    IsRoleName name ↔ ∃ role : Role, Role.plainName name = role.name := by
  unfold IsRoleName
  rw [List.mem_map]
  constructor
  · rintro ⟨role, -, hrole⟩
    exact ⟨role, hrole.symm⟩
  · rintro ⟨role, hrole⟩
    exact ⟨role, role.mem_all, hrole.symm⟩

theorem Color.mem_all (color : Color) : color ∈ Color.all := by
  cases color with
  | reset => decide
  | plain hue => cases hue <;> decide
  | bright hue => cases hue <;> decide

theorem Color.ofName?_name (color : Color) : Color.ofName? color.name = some color := by
  cases color with
  | reset => rfl
  | plain hue => cases hue <;> rfl
  | bright hue => cases hue <;> rfl

theorem Color.name_ne_empty (color : Color) : color.name ≠ "" := by
  cases color with
  | reset => decide
  | plain hue => cases hue <;> decide
  | bright hue => cases hue <;> decide

theorem isColorName_iff {name : String} : IsColorName name ↔ ∃ style, NamesStyle name style := by
  constructor
  · rintro (rfl | hname)
    · exact ⟨_, .nothing⟩
    · obtain ⟨color, -, rfl⟩ := List.mem_map.mp hname
      exact ⟨_, .color color⟩
  · rintro ⟨style, _ | color⟩
    · exact .inl rfl
    · exact .inr (List.mem_map.mpr ⟨color, color.mem_all, rfl⟩)

namespace Scheme

theorem styleOfName?_eq_some_iff {name : String} {style : Style} :
    styleOfName? name = some style ↔ NamesStyle name style := by
  unfold styleOfName?
  constructor
  · split
    · next hname =>
      rintro ⟨⟩
      exact hname ▸ .nothing
    · intro hstyle
      obtain ⟨color, hcolor, rfl⟩ := Option.map_eq_some_iff.mp hstyle
      unfold Color.ofName? at hcolor
      have hname := List.find?_some hcolor
      exact of_decide_eq_true hname ▸ .color color
  · rintro (_ | color)
    · rfl
    · rw [if_neg color.name_ne_empty, Color.ofName?_name]
      rfl

/-! ### One assignment -/

/-- An error quotes a name of an assignment, which is no role or no color. -/
def Error.IsFoundIn (assignments : List (String × String)) : Error → Prop
  | unknownRole name => ¬ IsRoleName name ∧ ∃ color, (name, color) ∈ assignments
  | unknownColor name => ¬ IsColorName name ∧ ∃ role, (role, name) ∈ assignments

variable {start next scheme : Scheme} {assignment : String × String}
  {assignments rest : List (String × String)} {error : Error}

theorem recolor_eq_ok_iff :
    start.recolor assignment = .ok next ↔
      ∃ role style, Role.plainName assignment.1 = role.name ∧
        NamesStyle assignment.2 style ∧ next = start.set role style.apply := by
  simp only [← Role.ofName?_eq_some_iff, ← styleOfName?_eq_some_iff]
  unfold recolor
  cases Role.ofName? assignment.1 with
  | none => simp
  | some role =>
    cases styleOfName? assignment.2 with
    | none => simp
    | some style => simp [eq_comm]

theorem isFoundIn_of_recolor (hrecolor : start.recolor assignment = .error error) :
    error.IsFoundIn (assignment :: rest) := by
  unfold recolor at hrecolor
  split at hrecolor
  · next hrole =>
    cases hrecolor
    refine ⟨fun hname ↦ ?_, assignment.2, List.mem_cons_self⟩
    obtain ⟨role, hname⟩ := isRoleName_iff.mp hname
    rw [Role.ofName?_eq_some_iff.mpr hname] at hrole
    cases hrole
  · next hstyle =>
    cases hrecolor
    refine ⟨fun hname ↦ ?_, assignment.1, List.mem_cons_self⟩
    obtain ⟨style, hname⟩ := isColorName_iff.mp hname
    rw [styleOfName?_eq_some_iff.mpr hname] at hstyle
    cases hstyle
  · cases hrecolor

/-! ### Several assignments -/

/-- The name of the color that the last assignment to a role gives it. -/
def lastColor? (role : Role) (assignments : List (String × String)) : Option String :=
  (assignments.reverse.find? fun assignment ↦ Role.plainName assignment.1 = role.name).map Prod.snd

/-- Each role is painted in the color that is assigned to it last, and as in the scheme before if
none is assigned to it. -/
def Recolors (start : Scheme) (assignments : List (String × String)) (scheme : Scheme) : Prop :=
  ∀ role, match lastColor? role assignments with
    | some name => ∃ style, NamesStyle name style ∧ scheme.get role = some style.apply
    | none => scheme.get role = start.get role

theorem lastColor?_cons (role : Role) (assignment : String × String)
    (rest : List (String × String)) :
    lastColor? role (assignment :: rest) =
      (lastColor? role rest <|>
        if Role.plainName assignment.1 = role.name then some assignment.2 else none) := by
  unfold lastColor?
  rw [List.reverse_cons, List.find?_append]
  cases rest.reverse.find? fun assignment ↦ Role.plainName assignment.1 = role.name with
  | some found => rfl
  | none =>
    by_cases hrole : Role.plainName assignment.1 = role.name <;> simp [hrole]

theorem Role.name_injective {first second : Role} (hname : first.name = second.name) :
    first = second := by
  revert hname
  cases first <;> cases second <;> decide

/-- The last assignments of all are those after the first one, and then the first one. -/
theorem Recolors.cons {role : Role} {style : Style}
    (hrole : Role.plainName assignment.1 = role.name) (hstyle : NamesStyle assignment.2 style)
    (hrest : Recolors (start.set role style.apply) rest scheme) :
    Recolors start (assignment :: rest) scheme := by
  intro other
  have hother := hrest other
  rw [lastColor?_cons]
  cases hlast : lastColor? other rest with
  | some name =>
    rw [hlast] at hother
    exact hother
  | none =>
    rw [hlast] at hother
    simp only [get_set] at hother
    rw [hrole]
    by_cases hsame : role.name = other.name
    · obtain rfl := Role.name_injective hsame
      rw [if_pos rfl] at hother ⊢
      exact ⟨style, hstyle, hother⟩
    · rw [if_neg fun hequal ↦ hsame (congrArg Role.name hequal.symm)] at hother
      rw [if_neg hsame]
      exact hother

theorem recolors_of_recolorAll (hrecolor : start.recolorAll assignments = .ok scheme) :
    Recolors start assignments scheme := by
  induction assignments generalizing start with
  | nil =>
    obtain rfl := Except.ok.inj hrecolor
    exact fun _ ↦ rfl
  | cons assignment rest ih =>
    rw [recolorAll] at hrecolor
    split at hrecolor
    · next next hnext =>
      obtain ⟨role, style, hrole, hstyle, rfl⟩ := recolor_eq_ok_iff.mp hnext
      exact (ih hrecolor).cons hrole hstyle
    · cases hrecolor

/-- Colors that are assigned by their names put sequences around a text and nothing else. -/
theorem Recolors.isGraphic (hrecolors : Recolors start assignments scheme)
    (hstart : start.IsGraphic) : scheme.IsGraphic := by
  intro role painter hget
  have hrole := hrecolors role
  split at hrole
  · obtain ⟨style, -, hstyle⟩ := hrole
    rw [hget] at hstyle
    obtain rfl := Option.some.inj hstyle
    exact style.isGraphic_apply
  · rw [hget] at hrole
    exact hstart role painter hrole.symm

theorem exists_recolorAll_iff :
    (∃ scheme, start.recolorAll assignments = .ok scheme) ↔
      ∀ assignment ∈ assignments, IsRoleName assignment.1 ∧ IsColorName assignment.2 := by
  induction assignments generalizing start with
  | nil => exact iff_of_true ⟨start, rfl⟩ nofun
  | cons assignment rest ih =>
    rw [List.forall_mem_cons, recolorAll, isRoleName_iff, isColorName_iff]
    cases hnext : start.recolor assignment with
    | ok next =>
      obtain ⟨role, style, hrole, hstyle, rfl⟩ := recolor_eq_ok_iff.mp hnext
      exact ih.trans (and_iff_right ⟨⟨role, hrole⟩, ⟨style, hstyle⟩⟩).symm
    | error error =>
      refine iff_of_false (fun ⟨_, hscheme⟩ ↦ by cases hscheme) ?_
      rintro ⟨⟨⟨role, hrole⟩, ⟨style, hstyle⟩⟩, -⟩
      have hok : start.recolor assignment = .ok (start.set role style.apply) :=
        recolor_eq_ok_iff.mpr ⟨role, style, hrole, hstyle, rfl⟩
      rw [hnext] at hok
      cases hok

theorem isFoundIn_of_recolorAll (hrecolor : start.recolorAll assignments = .error error) :
    error.IsFoundIn assignments := by
  induction assignments generalizing start with
  | nil => cases hrecolor
  | cons assignment rest ih =>
    rw [recolorAll] at hrecolor
    split at hrecolor
    · have hrest := ih hrecolor
      cases error with
      | unknownRole name => exact ⟨hrest.1, hrest.2.imp fun _ ↦ List.mem_cons_of_mem _⟩
      | unknownColor name => exact ⟨hrest.1, hrest.2.imp fun _ ↦ List.mem_cons_of_mem _⟩
    · next found hfound =>
      obtain rfl := Except.error.inj hrecolor
      exact isFoundIn_of_recolor hfound

end Scheme

end HelpSheet.Sgr
