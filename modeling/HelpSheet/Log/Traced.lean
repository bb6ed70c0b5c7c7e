/-!
# Traced computations

A computation that takes notes on its way and ends with a value or an error. The notes taken before
an error stay.
-/

set_option autoImplicit false
set_option relaxedAutoImplicit false

namespace HelpSheet

/-! ### Outcomes -/

@[simp] theorem mapError_ok {ε ε' α : Type} (failure : ε → ε') (value : α) :
    (Except.ok value : Except ε α).mapError failure = .ok value := rfl

@[simp] theorem mapError_error {ε ε' α : Type} (failure : ε → ε') (error : ε) :
    (Except.error error : Except ε α).mapError failure = .error (failure error) := rfl

theorem mapError_eq_ok_iff {ε ε' α : Type} {failure : ε → ε'} {outcome : Except ε α} {value : α} :
    outcome.mapError failure = .ok value ↔ outcome = .ok value := by
  cases outcome <;> simp

theorem bind_eq_ok_iff {ε α β : Type} {first : Except ε α} {next : α → Except ε β} {value : β} :
    first.bind next = .ok value ↔ ∃ a, first = .ok a ∧ next a = .ok value := by
  cases first <;> simp [Except.bind]

theorem bind_eq_error_iff {ε α β : Type} {first : Except ε α} {next : α → Except ε β} {error : ε} :
    first.bind next = .error error ↔
      first = .error error ∨ ∃ a, first = .ok a ∧ next a = .error error := by
  cases first <;> simp [Except.bind]

theorem map_eq_ok_iff {ε α β : Type} {first : Except ε α} {next : α → β} {value : β} :
    first.map next = .ok value ↔ ∃ a, first = .ok a ∧ next a = value := by
  cases first <;> simp [Except.map]

namespace Log

/-! ### Computations with notes -/

/-- The notes of a computation and how it ends. -/
structure Traced (ν ε α : Type) where
  notes : List ν
  outcome : Except ε α

namespace Traced

variable {ν ε α β : Type}

/-- Ends with a value and takes no note. -/
def value (a : α) : Traced ν ε α :=
  ⟨[], .ok a⟩

/-- Ends with an error. -/
def fail (error : ε) : Traced ν ε α :=
  ⟨[], .error error⟩

/-- Takes one note. -/
def note (entry : ν) : Traced ν ε Unit :=
  ⟨[entry], .ok ()⟩

/-- Takes several notes. -/
def addNotes (entries : List ν) : Traced ν ε Unit :=
  ⟨entries, .ok ()⟩

/-- A computation without notes. -/
def ofExcept (outcome : Except ε α) : Traced ν ε α :=
  ⟨[], outcome⟩

/-- Goes on with the value, if there is one. -/
def andThen (first : Traced ν ε α) (next : α → Traced ν ε β) : Traced ν ε β :=
  match first.outcome with
  | .ok a => ⟨first.notes ++ (next a).notes, (next a).outcome⟩
  | .error error => ⟨first.notes, .error error⟩

instance : Monad (Traced ν ε) where
  pure := value
  bind := andThen

@[simp] theorem outcome_pure (a : α) : (pure a : Traced ν ε α).outcome = .ok a := rfl

@[simp] theorem notes_pure (a : α) : (pure a : Traced ν ε α).notes = [] := rfl

/-- Taking notes has no influence on how a computation ends. -/
@[simp] theorem outcome_bind (first : Traced ν ε α) (next : α → Traced ν ε β) :
    (first >>= next).outcome = first.outcome.bind fun a ↦ (next a).outcome := by
  change (andThen first next).outcome = _
  unfold andThen
  cases first.outcome <;> rfl

theorem outcome_bind_eq_ok {first : Traced ν ε α} {next : α → Traced ν ε β} {b : β} :
    (first >>= next).outcome = .ok b ↔
      ∃ a, first.outcome = .ok a ∧ (next a).outcome = .ok b := by
  rw [outcome_bind, bind_eq_ok_iff]

theorem outcome_bind_eq_error {first : Traced ν ε α} {next : α → Traced ν ε β} {error : ε} :
    (first >>= next).outcome = .error error ↔ first.outcome = .error error ∨
      ∃ a, first.outcome = .ok a ∧ (next a).outcome = .error error := by
  rw [outcome_bind, bind_eq_error_iff]

theorem notes_bind_of_ok {first : Traced ν ε α} {a : α} (hfirst : first.outcome = .ok a)
    (next : α → Traced ν ε β) : (first >>= next).notes = first.notes ++ (next a).notes := by
  change (andThen first next).notes = _
  rw [andThen, hfirst]

theorem notes_bind_of_error {first : Traced ν ε α} {error : ε}
    (hfirst : first.outcome = .error error) (next : α → Traced ν ε β) :
    (first >>= next).notes = first.notes := by
  change (andThen first next).notes = _
  rw [andThen, hfirst]

/-- What holds of the notes of two computations holds of the notes of one behind the other. -/
theorem forall_notes_bind {p : ν → Prop} {first : Traced ν ε α} {next : α → Traced ν ε β}
    (hfirst : ∀ entry ∈ first.notes, p entry) (hnext : ∀ a, ∀ entry ∈ (next a).notes, p entry) :
    ∀ entry ∈ (first >>= next).notes, p entry := by
  cases houtcome : first.outcome with
  | error error => rwa [notes_bind_of_error houtcome]
  | ok a =>
    rw [notes_bind_of_ok houtcome]
    intro entry hentry
    rcases List.mem_append.mp hentry with hmem | hmem
    · exact hfirst entry hmem
    · exact hnext a entry hmem

/-- Replaces the error. -/
def mapError {δ : Type} (f : ε → δ) (computation : Traced ν ε α) : Traced ν δ α :=
  ⟨computation.notes, computation.outcome.mapError f⟩

/-- Replaces every note. -/
def mapNotes {μ : Type} (f : ν → μ) (computation : Traced ν ε α) : Traced μ ε α :=
  ⟨computation.notes.map f, computation.outcome⟩

/-- Runs the computation on every element with its index, in order; the first error ends it. -/
def forIndexed (items : List α) (convert : Nat → α → Traced ν ε β) (start : Nat) :
    Traced ν ε (List β) :=
  match items with
  | [] => pure []
  | item :: rest => do
    let first ← convert start item
    let others ← forIndexed rest convert (start + 1)
    pure (first :: others)

end Traced

end Log

end HelpSheet
