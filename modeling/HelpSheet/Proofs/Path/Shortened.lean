import HelpSheet.Path.Relative
import HelpSheet.Proofs.Text.Lacking
import HelpSheet.Proofs.Text.Splitting

/-!
# The characters of a shortened path

A path that is shown from another directory has dots and slashes, and otherwise only characters of
the path itself (`lacks_shorten`): an absolute path does not depend on where the process works.
-/

set_option autoImplicit false
set_option relaxedAutoImplicit false

namespace HelpSheet.Path

open HelpSheet.Text (Lacks lacks_joinWith mem_of_mem_splitOnChar)

theorem mem_of_mem_pushComponent {rooted : Bool} {names : List String} {component name : String}
    (hname : name ∈ pushComponent rooted names component) :
    name ∈ names ∨ name = component := by
  unfold pushComponent at hname
  split at hname
  · exact .inl hname
  · split at hname
    · exact (List.mem_cons.mp hname).symm
    · rename_i hdots
      rw [ne_eq, Decidable.not_not] at hdots
      split at hname
      · cases rooted <;> simp_all
      · split at hname
        · exact (List.mem_cons.mp hname).symm.imp id (·.trans hdots.symm)
        · exact .inl (List.mem_cons_of_mem _ hname)

theorem mem_of_mem_foldl_pushComponent {rooted : Bool} {parts names : List String} {name : String}
    (hname : name ∈ parts.foldl (pushComponent rooted) names) :
    name ∈ names ∨ name ∈ parts := by
  induction parts generalizing names with
  | nil => exact .inl hname
  | cons part parts ih =>
    rcases ih hname with hname | hname
    · rcases mem_of_mem_pushComponent hname with hname | rfl
      · exact .inl hname
      · exact .inr List.mem_cons_self
    · exact .inr (List.mem_cons_of_mem _ hname)

/-- Only names of the path remain. -/
theorem mem_of_mem_collapse {rooted : Bool} {parts : List String} {name : String}
    (hname : name ∈ collapse rooted parts) : name ∈ parts := by
  rw [collapse, List.mem_reverse] at hname
  exact (mem_of_mem_foldl_pushComponent hname).resolve_left List.not_mem_nil

theorem mem_of_mem_dropCommon {start goal : List String} {name : String}
    (hname : name ∈ (dropCommon start goal).2) : name ∈ goal := by
  induction start generalizing goal with
  | nil => simpa [dropCommon] using hname
  | cons first start ih =>
    cases goal with
    | nil => simp [dropCommon] at hname
    | cons second goal =>
      rw [dropCommon] at hname
      split at hname
      · exact List.mem_cons_of_mem _ (ih hname)
      · exact hname

theorem mem_of_mem_wayBetween {start goal : List String} {name : String}
    (hname : name ∈ wayBetween start goal) : name = ".." ∨ name ∈ goal := by
  rcases List.mem_append.mp hname with hup | hdown
  · obtain ⟨_, -, rfl⟩ := List.mem_map.mp hup
    exact .inl rfl
  · exact .inr (mem_of_mem_dropCommon hdown)

theorem lacks_components {c : Char} {path : String} (hpath : Lacks c path) :
    ∀ component ∈ components path, Lacks c component := by
  intro component hcomponent
  obtain ⟨piece, hpiece, rfl⟩ := List.mem_map.mp hcomponent
  intro hc
  rw [String.toList_ofList] at hc
  exact hpath (mem_of_mem_splitOnChar hpiece hc)

theorem lacks_relativeTo {c : Char} (hdot : c ≠ '.') (hslash : c ≠ '/')
    {workingDirectory start path : String}
    (hnames : ∀ name ∈ absoluteNames workingDirectory path, Lacks c name) :
    Lacks c (relativeTo workingDirectory start path) := by
  have hway : ∀ name ∈ wayBetween (absoluteNames workingDirectory start)
      (absoluteNames workingDirectory path), Lacks c name := by
    intro name hname
    rcases mem_of_mem_wayBetween hname with rfl | hname
    · simpa [Lacks] using hdot
    · exact hnames name hname
  unfold relativeTo
  split
  · simpa [Lacks] using hdot
  · exact (lacks_joinWith (by simpa [Lacks] using hslash)).mpr hway

/-- What a source path lacks is not shown, but for the dots and slashes of the way to it. -/
theorem lacks_shorten {c : Char} (hdot : c ≠ '.') (hslash : c ≠ '/') {source : String}
    (hsource : Lacks c source) (workingDirectory : String) (base : Option String) :
    Lacks c (shorten workingDirectory base source) := by
  unfold shorten
  split
  · exact hsource
  · exact hsource
  · rename_i hanchor
    refine lacks_relativeTo hdot hslash fun name hname ↦ ?_
    unfold absoluteNames at hname
    split at hname
    · rename_i hrelative
      exact absurd hrelative hanchor
    · exact lacks_components hsource name (mem_of_mem_collapse hname)

end HelpSheet.Path
