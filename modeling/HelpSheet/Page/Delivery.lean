import HelpSheet.Page.Steps
import HelpSheet.Text.Encoding

/-!
# Delivery of pages

A page is handed to a sink chunk by chunk. Chunks are made one at a time, so a sink that fails, or a
chunk that cannot be made, leaves the chunks before in the sink; the last notes are then those of
the chunk that the sink did not take. A view without its model or target is refused before the sink
is asked for anything.
-/

set_option autoImplicit false
set_option relaxedAutoImplicit false

namespace HelpSheet.Page

/-! ### Sinks -/

/-- What a sink takes before it fails: everything, a number of chunks, or the chunks that an
encoding has all characters of. -/
inductive Capacity
  | unlimited
  | limited (count : Nat)
  | encoded (encoding : Text.Encoding)

/-- How the delivery of a page ends. -/
inductive Ending
  | complete
  | refused
  | unencodable (fault : Text.Encoding.Fault)
  | missing (missing : Missing)
  | broken (fault : Fault)
  deriving DecidableEq, Repr

/-- The capacity after one more chunk, or how the delivery ends where the sink fails instead of
taking it. -/
def Capacity.afterChunk (chunk : Chunk) : Capacity → Except Ending Capacity
  | unlimited => .ok unlimited
  | limited 0 => .error .refused
  | limited (count + 1) => .ok (limited count)
  | encoded encoding =>
    match encoding.fault? chunk.text with
    | none => .ok (encoded encoding)
    | some fault => .error (.unencodable fault)

/-- What has become of a page: the chunks that the sink has taken, how often it was asked to take
one, the notes and the end. -/
structure Delivery where
  written : List String := []
  attempts : Nat := 0
  notes : List Log.Note := []
  ending : Ending
  deriving DecidableEq, Repr

/-- Whether the sink has failed for want of room. -/
def Delivery.failed (delivery : Delivery) : Bool :=
  delivery.ending = .refused

/-! ### Delivery -/

/-- A delivery that begins with one more chunk, which the sink takes. -/
def Delivery.behind (chunk : Chunk) (delivery : Delivery) : Delivery where
  written := chunk.text :: delivery.written
  attempts := delivery.attempts + 1
  notes := chunk.notes ++ delivery.notes
  ending := delivery.ending

/-- Makes chunks and hands them to a sink until a step or the sink fails. -/
def deliver : Capacity → List Step → Delivery
  | _, [] => { ending := .complete }
  | _, .error fault :: _ => { ending := .broken fault }
  | capacity, .ok chunk :: rest =>
    match capacity.afterChunk chunk with
    | .error ending => { attempts := 1, notes := chunk.notes, ending }
    | .ok remaining => (deliver remaining rest).behind chunk

theorem deliver_cons_of_ok {capacity remaining : Capacity} {chunk : Chunk}
    (htaken : capacity.afterChunk chunk = .ok remaining) (rest : List Step) :
    deliver capacity (.ok chunk :: rest) = (deliver remaining rest).behind chunk := by
  rw [deliver, htaken]

/-- A sink that never fails takes every chunk. -/
theorem deliver_unlimited (chunks : List Chunk) :
    deliver .unlimited (chunks.map .ok) =
      { written := chunks.map Chunk.text, attempts := chunks.length,
        notes := Chunk.pageNotes chunks, ending := .complete } := by
  induction chunks with
  | nil => rfl
  | cons chunk rest ih =>
    rw [List.map_cons, deliver_cons_of_ok rfl, ih]
    rfl

/-- A sink that fails takes the chunks before, and is asked once more if there is another one. -/
theorem deliver_limited (count : Nat) (chunks : List Chunk) :
    deliver (.limited count) (chunks.map .ok) =
      { written := (chunks.take count).map Chunk.text
        attempts := min chunks.length (count + 1)
        notes := Chunk.pageNotes (chunks.take (count + 1))
        ending := if count < chunks.length then .refused else .complete } := by
  induction chunks generalizing count with
  | nil => simp [deliver, Chunk.pageNotes]
  | cons chunk rest ih =>
    cases count with
    | zero => simp [deliver, Capacity.afterChunk, Chunk.pageNotes]
    | succ count =>
      rw [List.map_cons, deliver_cons_of_ok rfl, ih]
      simp [Delivery.behind, Chunk.pageNotes]

/-- Renders a view to a sink. The records of the view are made before anything else. -/
def Renderer.deliver (renderer : Renderer) (workingDirectory : String) (capacity : Capacity)
    (view : View) : Delivery :=
  let viewpoint := renderer.viewpoint workingDirectory
  match (view.outline viewpoint).tokens with
  | .error fault => { ending := .broken (.number fault) }
  | .ok tokens =>
    let delivery := Page.deliver capacity (renderer.steps viewpoint view tokens)
    { delivery with notes := renderer.openingNotes workingDirectory view ++ delivery.notes }

/-- Renders a view to a text, unless a chunk of its page cannot be made. -/
def Renderer.render (renderer : Renderer) (workingDirectory : String) (view : View) :
    Except Fault String :=
  let delivery := renderer.deliver workingDirectory .unlimited view
  match delivery.ending with
  | .broken fault => .error fault
  | _ => .ok (String.join delivery.written)

/-! ### Requests -/

/-- A view that is asked for, perhaps without its model or target. -/
inductive ViewRequest
  | help (model : Option Model)
  | detailed (target : Option Target)
  | basic (name sourceFile : String) (lineNumber : Int)
  deriving DecidableEq, Repr

/-- The view that is asked for, if its subject is there. -/
def ViewRequest.view? (format : Format) : ViewRequest → Except Missing View
  | help model => View.ofSubject? format .model .help model
  | detailed target => View.ofSubject? format .target .detailed target
  | basic name sourceFile lineNumber => .ok (.basic name sourceFile lineNumber)

/-- Writes the view that is asked for to a sink. -/
def Renderer.write (renderer : Renderer) (workingDirectory : String) (capacity : Capacity)
    (request : ViewRequest) : Delivery :=
  match request.view? renderer.format with
  | .error missing => { ending := .missing missing }
  | .ok view => renderer.deliver workingDirectory capacity view

end HelpSheet.Page
