import HelpSheet.Outline.Assemble
import HelpSheet.Page.Format

/-!
# Views

What a page shows: the help on a model, the details of a target, or what is known of a target
without documentation. A view that is asked for without its model or target is refused before
anything is written.
-/

set_option autoImplicit false
set_option relaxedAutoImplicit false

namespace HelpSheet.Page

/-- What a page shows. -/
inductive View
  | help (model : Model)
  | detailed (target : Target)
  | basic (name sourceFile : String) (lineNumber : Int)
  deriving DecidableEq, Repr

namespace View

/-- The outline of a view. -/
def outline (viewpoint : Outline.Viewpoint) : View → Outline
  | help model => .ofModel model
  | detailed target => .ofTarget viewpoint target
  | basic name sourceFile lineNumber => .ofName viewpoint name sourceFile lineNumber

/-- The notes on the outline of a view; the basic view takes none. -/
def outlineNotes (viewpoint : Outline.Viewpoint) (view : View) : List Log.Note :=
  match view with
  | help _ => [Outline.modelNote (view.outline viewpoint)]
  | detailed target => [Outline.targetNote target.name (view.outline viewpoint)]
  | basic _ _ _ => []

/-- What is said of the page when it is begun. -/
def announcement : View → String
  | help model =>
    "rendering help for " ++ toString model.targetCount ++ " target(s) in " ++
      toString model.categories.length ++ " categor(ies)"
  | detailed target => "rendering detailed view of target " ++ Text.quoted target.name
  | basic name _ _ => "rendering basic view of target " ++ Text.quoted name

/-- The view of a target: the details if there is any documentation or variable. -/
def ofTarget (target : Target) : View :=
  if target.documentation.isEmpty && target.usedVariables.isEmpty then
    basic target.name target.sourceFile target.lineNumber
  else detailed target

end View

/-! ### Views without a subject -/

/-- What a view is a view of. -/
inductive Subject
  | model
  | target
  deriving DecidableEq, Repr

/-- A view was asked for without its subject. -/
structure Missing where
  format : Format
  subject : Subject
  deriving DecidableEq, Repr

def Missing.message (missing : Missing) : String :=
  missing.format.name ++ " renderer: " ++
    match missing.subject with
    | .model => "documentation model cannot be None"
    | .target => "target cannot be None"

/-- A view of the subject, if it is there. -/
def View.ofSubject? {α : Type} (format : Format) (subject : Subject) (view : α → View) :
    Option α → Except Missing View
  | some value => .ok (view value)
  | none => .error ⟨format, subject⟩

end HelpSheet.Page
