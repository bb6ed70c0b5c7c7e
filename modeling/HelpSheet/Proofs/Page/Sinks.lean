import Mathlib.Data.List.TakeWhile
import HelpSheet.Page.Delivery

/-!
# What sinks take

A text can be written in an encoding exactly where the encoding has all its characters
(`fault?_eq_none_iff`). A sink takes a page chunk by chunk, so that what it holds in the end begins
the page (`written_prefix`), and is all of it where the delivery comes to its end
(`written_of_complete`). A sink with an encoding does so exactly where each chunk can be written in
it (`ending_encoded_eq_complete_iff`).
-/

set_option autoImplicit false
set_option relaxedAutoImplicit false

namespace HelpSheet

/-! ### Encodings -/

namespace Text.Encoding

variable {encoding : Encoding} {text : String}

theorem fault?_eq_none_iff : encoding.fault? text = none ↔ encoding.CanWrite text := by
  rw [fault?, CanWrite, ← List.dropWhile_eq_nil_iff]
  split <;> simp_all

theorem exists_fault?_iff :
    (∃ fault, encoding.fault? text = some fault) ↔ ¬ encoding.CanWrite text := by
  rw [← fault?_eq_none_iff, ← ne_eq, Option.ne_none_iff_exists']

@[simp] theorem canWrite_append {first second : String} :
    encoding.CanWrite (first ++ second) ↔ encoding.CanWrite first ∧ encoding.CanWrite second := by
  simp only [CanWrite, String.toList_append, List.forall_mem_append]

theorem canWrite_join {texts : List String} :
    encoding.CanWrite (String.join texts) ↔ ∀ text ∈ texts, encoding.CanWrite text := by
  induction texts with
  | nil => exact iff_of_true (List.forall_mem_nil _) (List.forall_mem_nil _)
  | cons text texts ih => rw [String.join_cons, canWrite_append, ih, List.forall_mem_cons]

end Text.Encoding

namespace Page

open HelpSheet.Text (Encoding)

variable {capacity : Capacity} {encoding : Encoding} {chunks : List Chunk}

/-! ### Deliveries -/

/-- After a delivery that comes to its end, a sink holds the whole page. -/
theorem written_of_complete (hending : (deliver capacity (chunks.map .ok)).ending = .complete) :
    (deliver capacity (chunks.map .ok)).written = chunks.map Chunk.text := by
  induction chunks generalizing capacity with
  | nil => rfl
  | cons chunk chunks ih =>
    rw [List.map_cons] at hending
    rw [List.map_cons, List.map_cons]
    cases htaken : capacity.afterChunk chunk with
    | error ending =>
      rw [deliver, htaken] at hending
      -- A sink that does not take a chunk does not say that all is done.
      unfold Capacity.afterChunk at htaken
      split at htaken
      · cases htaken
      · cases htaken
        cases hending
      · cases htaken
      · split at htaken <;> cases htaken
        cases hending
    | ok remaining =>
      rw [deliver_cons_of_ok htaken] at hending ⊢
      exact congrArg _ (ih hending)

/-- Chunks that are made fail at the sink only: it has no room, or an encoding without all their
characters. -/
theorem ending_cases (capacity : Capacity) (chunks : List Chunk) :
    (deliver capacity (chunks.map .ok)).ending = .complete ∨
      (∃ count, capacity = .limited count ∧
        (deliver capacity (chunks.map .ok)).ending = .refused) ∨
      ∃ encoding fault, capacity = .encoded encoding ∧
        (deliver capacity (chunks.map .ok)).ending = .unencodable fault := by
  cases capacity with
  | unlimited => exact .inl (by rw [deliver_unlimited])
  | limited count =>
    rw [deliver_limited]
    by_cases hcount : count < chunks.length
    · exact .inr (.inl ⟨count, rfl, if_pos hcount⟩)
    · exact .inl (if_neg hcount)
  | encoded encoding =>
    induction chunks with
    | nil => exact .inl rfl
    | cons chunk chunks ih =>
      rw [List.map_cons]
      cases hfault : encoding.fault? chunk.text with
      | some fault =>
        refine .inr (.inr ⟨encoding, fault, rfl, ?_⟩)
        rw [deliver, Capacity.afterChunk, hfault]
      | none =>
        rw [deliver_cons_of_ok (by rw [Capacity.afterChunk, hfault])]
        exact ih

theorem afterChunk_encoded {chunk : Chunk} (hchunk : encoding.CanWrite chunk.text) :
    (Capacity.encoded encoding).afterChunk chunk = .ok (.encoded encoding) := by
  rw [Capacity.afterChunk, Encoding.fault?_eq_none_iff.mpr hchunk]

/-- A sink with an encoding takes a page exactly where it has all characters of each chunk. -/
theorem ending_encoded_eq_complete_iff :
    (deliver (.encoded encoding) (chunks.map .ok)).ending = .complete ↔
      ∀ chunk ∈ chunks, encoding.CanWrite chunk.text := by
  induction chunks with
  | nil => exact iff_of_true rfl (List.forall_mem_nil _)
  | cons chunk chunks ih =>
    rw [List.map_cons, List.forall_mem_cons]
    by_cases hchunk : encoding.CanWrite chunk.text
    · rw [deliver_cons_of_ok (afterChunk_encoded hchunk), ← ih, and_iff_right hchunk]
      rfl
    · obtain ⟨fault, hfault⟩ := Encoding.exists_fault?_iff.mpr hchunk
      rw [deliver, Capacity.afterChunk, hfault]
      refine iff_of_false (fun hcomplete ↦ ?_) fun hall ↦ hchunk hall.1
      cases hcomplete

end Page

end HelpSheet
