import HelpSheet.Page.Delivery
import HelpSheet.Proofs.Page.Handlers
import HelpSheet.Proofs.Page.Sinks

/-!
# Pages written to sinks

A request whose model or target is there is written chunk by chunk until the page is complete or the
sink fails, and no step that makes a chunk fails (`WritesPage`), unless a line number on the page is
too long to be written (`View.HasShortNumbers`). Then nothing is written, as for a request without
its subject. Nothing else can go wrong (`writing_fails_at_sink_subject_or_number_only`).
-/

set_option autoImplicit false
set_option relaxedAutoImplicit false

namespace HelpSheet.Page

/-! ### Requests and their subjects -/

/-- The subject that a request lacks. -/
def ViewRequest.lacking? : ViewRequest → Option Subject
  | help none => some .model
  | detailed none => some .target
  | help (some _) | detailed (some _) | basic _ _ _ => none

/-- A request asks for a view, and the subject of the view is there. -/
inductive ViewRequest.AsksFor : ViewRequest → View → Prop
  | help (model : Model) : AsksFor (.help (some model)) (.help model)
  | detailed (target : Target) : AsksFor (.detailed (some target)) (.detailed target)
  | basic (name sourceFile : String) (lineNumber : Int) :
    AsksFor (.basic name sourceFile lineNumber) (.basic name sourceFile lineNumber)

section Requests

variable {request : ViewRequest} {format : Format} {view : View}

theorem view?_of_asksFor (hview : request.AsksFor view) : request.view? format = .ok view := by
  cases hview <;> rfl

theorem view?_of_lacking? {subject : Subject} (hlacking : request.lacking? = some subject) :
    request.view? format = .error ⟨format, subject⟩ := by
  unfold ViewRequest.lacking? at hlacking
  split at hlacking
  · cases hlacking; rfl
  · cases hlacking; rfl
  all_goals cases hlacking

theorem exists_asksFor (hlacking : request.lacking? = none) : ∃ view, request.AsksFor view := by
  unfold ViewRequest.lacking? at hlacking
  split at hlacking
  · cases hlacking
  · cases hlacking
  · exact ⟨_, .help _⟩
  · exact ⟨_, .detailed _⟩
  · exact ⟨_, .basic _ _ _⟩

end Requests

/-! ### Writing -/

section Writing

variable (renderer : Renderer) (workingDirectory : String)

/-- The request is written as the page of a view. Its records are made and no step on them fails. A
sink that never fails takes the whole page, and a sink that fails after `count` chunks has the first
`count` chunks of it; it is asked at most once more, and makes writing fail exactly where the page
has more chunks. -/
structure WritesPage (request : ViewRequest) (view : View) : Prop where
  exists_tokens : ∃ tokens,
    (view.outline (renderer.viewpoint workingDirectory)).tokens = .ok tokens ∧
      ∀ step ∈ renderer.steps (renderer.viewpoint workingDirectory) view tokens,
        ∃ chunk, step = .ok chunk
  complete : (renderer.write workingDirectory .unlimited request).ending = .complete
  render_eq : renderer.render workingDirectory view =
    .ok (String.join (renderer.write workingDirectory .unlimited request).written)
  join_written : String.join (renderer.write workingDirectory .unlimited request).written =
    renderer.page workingDirectory view
  written_limited : ∀ count, (renderer.write workingDirectory (.limited count) request).written =
    (renderer.write workingDirectory .unlimited request).written.take count
  attempts_le : ∀ count, (renderer.write workingDirectory (.limited count) request).attempts ≤
    (renderer.write workingDirectory (.limited count) request).written.length + 1
  refused_iff : ∀ count,
    (renderer.write workingDirectory (.limited count) request).ending = .refused ↔
      count < (renderer.write workingDirectory .unlimited request).written.length
  complete_iff : ∀ count,
    (renderer.write workingDirectory (.limited count) request).ending = .complete ↔
      (renderer.write workingDirectory .unlimited request).written.length ≤ count

/-- Writing the request fails before the sink is asked for anything, because a number is too long to
be written. -/
structure BreaksOnNumber (request : ViewRequest) (view : View) : Prop where
  render_eq : renderer.render workingDirectory view =
    .error (.number ⟨Text.Numeral.maxDigits⟩)
  written : ∀ capacity, (renderer.write workingDirectory capacity request).written = []
  attempts : ∀ capacity, (renderer.write workingDirectory capacity request).attempts = 0
  ending : ∀ capacity, (renderer.write workingDirectory capacity request).ending =
    .broken (.number ⟨Text.Numeral.maxDigits⟩)

variable {renderer workingDirectory} {request : ViewRequest} {view : View}

theorem write_of_asksFor (hview : request.AsksFor view) (capacity : Capacity) :
    renderer.write workingDirectory capacity request =
      renderer.deliver workingDirectory capacity view := by
  rw [Renderer.write, view?_of_asksFor hview]

theorem written_deliver_unlimited (hnumbers : view.HasShortNumbers renderer.format) :
    (renderer.deliver workingDirectory .unlimited view).written =
      (renderer.chunks workingDirectory view).map Chunk.text := by
  rw [deliver_of_hasShortNumbers hnumbers, deliver_unlimited]

theorem ending_deliver_unlimited (hnumbers : view.HasShortNumbers renderer.format) :
    (renderer.deliver workingDirectory .unlimited view).ending = .complete := by
  rw [deliver_of_hasShortNumbers hnumbers, deliver_unlimited]

/-- A page without numbers that are too long is rendered. -/
theorem render_eq_page (hnumbers : view.HasShortNumbers renderer.format) :
    renderer.render workingDirectory view = .ok (renderer.page workingDirectory view) := by
  rw [Renderer.render, ending_deliver_unlimited hnumbers, written_deliver_unlimited hnumbers]
  rfl

theorem render_of_not_hasShortNumbers (hnumbers : ¬ view.HasShortNumbers renderer.format) :
    renderer.render workingDirectory view = .error (.number ⟨Text.Numeral.maxDigits⟩) := by
  obtain ⟨-, -, hending⟩ :=
    @deliver_of_not_hasShortNumbers renderer workingDirectory view hnumbers .unlimited
  rw [Renderer.render, hending]

/-- A sink with an encoding takes a page exactly where it has all characters of the page. -/
theorem ending_deliver_encoded_eq_complete_iff (hnumbers : view.HasShortNumbers renderer.format)
    (workingDirectory : String) (encoding : Text.Encoding) :
    (renderer.deliver workingDirectory (.encoded encoding) view).ending = .complete ↔
      encoding.CanWrite (renderer.page workingDirectory view) := by
  rw [deliver_of_hasShortNumbers hnumbers, Renderer.page, Chunk.pageText,
    Text.Encoding.canWrite_join, List.forall_mem_map]
  exact ending_encoded_eq_complete_iff

theorem writesPage_of_asksFor (hview : request.AsksFor view)
    (hnumbers : view.HasShortNumbers renderer.format) :
    WritesPage renderer workingDirectory request view := by
  have hunlimited : renderer.write workingDirectory .unlimited request =
      renderer.deliver workingDirectory .unlimited view := write_of_asksFor hview .unlimited
  have hlimited (count : Nat) : renderer.write workingDirectory (.limited count) request =
      { deliver (.limited count) ((renderer.chunks workingDirectory view).map .ok) with
        notes := renderer.openingNotes workingDirectory view ++
          (deliver (.limited count) ((renderer.chunks workingDirectory view).map .ok)).notes } :=
    (write_of_asksFor hview (.limited count)).trans (deliver_of_hasShortNumbers hnumbers _)
  exact
    { exists_tokens := by
        refine ⟨_, tokens_outline _ hnumbers.hasShortPlace, fun step hstep ↦ ?_⟩
        rw [steps_records hnumbers] at hstep
        obtain ⟨chunk, -, hchunk⟩ := List.mem_map.mp hstep
        exact ⟨chunk, hchunk.symm⟩
      complete := by rw [hunlimited, ending_deliver_unlimited hnumbers]
      render_eq := by
        rw [render_eq_page hnumbers, hunlimited, written_deliver_unlimited hnumbers]
        rfl
      join_written := by
        rw [hunlimited, written_deliver_unlimited hnumbers]
        rfl
      written_limited := fun count ↦ by
        rw [hlimited, hunlimited, written_deliver_unlimited hnumbers, deliver_limited,
          List.map_take]
      attempts_le := fun count ↦ by
        rw [hlimited, deliver_limited]
        simp only [List.length_map, List.length_take]
        omega
      refused_iff := fun count ↦ by
        rw [hlimited, hunlimited, written_deliver_unlimited hnumbers, deliver_limited]
        simp
      complete_iff := fun count ↦ by
        rw [hlimited, hunlimited, written_deliver_unlimited hnumbers, deliver_limited]
        simp }

theorem breaksOnNumber_of_asksFor (hview : request.AsksFor view)
    (hnumbers : ¬ view.HasShortNumbers renderer.format) :
    BreaksOnNumber renderer workingDirectory request view where
  render_eq := render_of_not_hasShortNumbers hnumbers
  written capacity := by
    rw [write_of_asksFor hview, (deliver_of_not_hasShortNumbers hnumbers capacity).1]
  attempts capacity := by
    rw [write_of_asksFor hview, (deliver_of_not_hasShortNumbers hnumbers capacity).2.1]
  ending capacity := by
    rw [write_of_asksFor hview, (deliver_of_not_hasShortNumbers hnumbers capacity).2.2]

/-- Writing fails only at the sink, and before that only for want of a subject or because a line
number on the page is too long to be written. -/
theorem writing_fails_at_sink_subject_or_number_only (renderer : Renderer)
    (workingDirectory : String) (request : ViewRequest) :
    match request.lacking? with
    | some subject => ∀ capacity, renderer.write workingDirectory capacity request =
        { ending := .missing ⟨renderer.format, subject⟩ }
    | none => ∃ view, request.AsksFor view ∧
        (view.HasShortNumbers renderer.format →
          WritesPage renderer workingDirectory request view) ∧
        (¬ view.HasShortNumbers renderer.format →
          BreaksOnNumber renderer workingDirectory request view) := by
  cases hlacking : request.lacking? with
  | some subject =>
    intro capacity
    rw [Renderer.write, view?_of_lacking? hlacking]
  | none =>
    obtain ⟨view, hview⟩ := exists_asksFor hlacking
    exact ⟨view, hview, writesPage_of_asksFor hview, breaksOnNumber_of_asksFor hview⟩

/-- A target at a line whose number has one digit too many. -/
def farTarget : Target where
  name := "t"
  sourceFile := "Makefile"
  lineNumber := Nat.pow 10 Text.Numeral.maxDigits

/-- The text of the place of a target may be too long to be written. -/
theorem not_forall_writing_fails_at_sink_or_subject :
    ¬ ∀ (renderer : Renderer) (workingDirectory : String) (request : ViewRequest)
      (capacity : Capacity) (fault : Fault),
      (renderer.write workingDirectory capacity request).ending ≠ .broken fault := by
  intro hall
  have hnumbers : ¬ (View.detailed farTarget).HasShortNumbers .text :=
    fun hshort ↦ Text.Numeral.not_isShort_pow (hshort (by decide))
  have hbreaks : BreaksOnNumber ⟨.text, {}⟩ "/" (.detailed (some farTarget))
      (.detailed farTarget) := breaksOnNumber_of_asksFor (.detailed farTarget) hnumbers
  exact hall _ _ _ .unlimited _ (hbreaks.ending .unlimited)

end Writing

end HelpSheet.Page
