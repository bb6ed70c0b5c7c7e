import HelpSheet.Outline.Token
import HelpSheet.Page.Json
import HelpSheet.Page.View

/-!
# Objects folded from records

The object of a view is built record by record: a record sets a field, adds a value to a list
(`push?`), or adds it to a list in the last object of a list (`pushInLast?`). Only the kinds that a
table names are looked at (`foldedKinds`). A step fails where a record has not got what its kind
needs, or where the list or the object that it adds to is not there.
-/

set_option autoImplicit false
set_option relaxedAutoImplicit false

namespace HelpSheet.Page.Json

open HelpSheet.Json (field? setField)
open HelpSheet.Text (joinWith)

/-! ### Changes to values -/

/-- Changes the value of a field, which has to be there. -/
def change? (name : String) (change : HelpSheet.Json → Option HelpSheet.Json) (fields : Fields) :
    Option Fields := do
  let changed ← change (← field? fields name)
  pure (setField name changed fields)

/-- Changes the value of a field, if it is there. -/
def changeIfAny? (name : String) (change : HelpSheet.Json → Option HelpSheet.Json)
    (fields : Fields) : Option Fields :=
  if (field? fields name).isSome then change? name change fields else some fields

/-- Adds a value to the end of a list. -/
def append? (value : HelpSheet.Json) : HelpSheet.Json → Option HelpSheet.Json
  | .array items => some (.array (items ++ [value]))
  | _ => none

/-- Changes the last object of a list. -/
def changeLast? (change : Fields → Option Fields) : HelpSheet.Json → Option HelpSheet.Json
  | .array items =>
    match items.getLast? with
    | some (.object fields) => do
      let changed ← change fields
      pure (.array (items.dropLast ++ [.object changed]))
    | _ => none
  | _ => none

/-- Adds a value to a list, which is empty before if there is none. -/
def push? (name : String) (value : HelpSheet.Json) (fields : Fields) : Option Fields := do
  let longer ← append? value ((field? fields name).getD (.array []))
  pure (setField name longer fields)

/-- Adds a value to the list `inner` of the last object of the list `name`. -/
def pushInLast? (name inner : String) (value : HelpSheet.Json) : Fields → Option Fields :=
  change? name (changeLast? (change? inner (append? value)))

/-- Changes every item of a list. -/
def changeEach? (change : HelpSheet.Json → Option HelpSheet.Json) :
    HelpSheet.Json → Option HelpSheet.Json
  | .array items => do
    let changed ← items.mapM change
    pure (.array changed)
  | _ => none

/-! ### The help view -/

/-- What one item adds to the object of a help view. -/
def foldHelpItem? (viewpoint : Outline.Viewpoint) (fields : Fields) : Item → Option Fields
  | .usage line => some (setField "usage" (.string line) fields)
  | .descriptionLine line => push? "description" (.string line) fields
  | .includedFile path =>
    push? "includedFiles" (.object [("path", .string path), ("lines", .array [])]) fields
  | .includedFileLine line => pushInLast? "includedFiles" "lines" (.string line) fields
  | .categoryStart name =>
    push? "categories" (.object [("name", .string name), ("targets", .array [])]) fields
  | .target target =>
    pushInLast? "categories" "targets" (ofListedTarget viewpoint target) fields
  | _ => some fields

/-- The text of a string. -/
def text? : HelpSheet.Json → Option String
  | .string text => some text
  | _ => none

/-- A list of lines as one text. -/
def joinLines? : HelpSheet.Json → Option HelpSheet.Json
  | .array lines => do
    let texts ← lines.mapM text?
    pure (.string (joinWith "\n" texts))
  | _ => none

/-- An included file with its lines, if there are any, as its description. -/
def describeFile? : HelpSheet.Json → Option HelpSheet.Json
  | .object fields => do
    let lines ← field? fields "lines"
    let others := fields.filter fun field ↦ field.1 ≠ "lines"
    match lines with
    | .array [] => pure (.object others)
    | _ =>
      let description ← joinLines? lines
      pure (.object (setField "description" description others))
  | _ => none

/-- The object of a help view. -/
def foldHelp? (viewpoint : Outline.Viewpoint) (outline : Outline) : Option Fields := do
  let fields ← outline.foldlM (foldHelpItem? viewpoint) []
  let fields ← changeIfAny? "description" joinLines? fields
  changeIfAny? "includedFiles" (changeEach? describeFile?) fields

/-! ### Views of targets -/

/-- What one item adds to the object of a view of a target. -/
def foldTargetItem? (fields : Fields) : Item → Option Fields
  | .title name target? =>
    let fields := setField "name" (.string name) fields
    match target? with
    | none => some fields
    | some target =>
      let summary := Markup.RichText.plainText target.summary
      some (if summary = "" then fields else setField "summary" (.string summary) fields)
  | .aliases names => some (setField "aliases" (.array (names.map .string)) fields)
  | .variableEntry entry => push? "variables" (ofVariable entry) fields
  | .documentationLine line => push? "documentation" (.string line) fields
  | .source path line =>
    let fields := setField "sourceFile" (.string path) fields
    some (if line = 0 then fields else setField "lineNumber" (.int line) fields)
  | _ => some fields

/-- The names of the fields of a view of a target, in the order in which they are shown. -/
def shownNames : List String :=
  ["name", "summary", "documentation", "aliases", "variables", "sourceFile", "lineNumber"]

/-- The fields that are there, in the order of the given names. -/
def inOrder (names : List String) (fields : Fields) : Fields :=
  names.filterMap fun name ↦ (field? fields name).map fun value ↦ (name, value)

/-- The object of a view of a target. -/
def foldTarget? (outline : Outline) : Option Fields := do
  let fields ← outline.foldlM foldTargetItem? []
  pure (inOrder shownNames fields)

/-! ### Records -/

/-- The kinds of records that are folded into the object of a help view. -/
def helpKinds : List Item.Kind :=
  [.usage, .descriptionLine, .includedFile, .includedFileLine, .categoryStart, .target]

/-- The kinds of records that are folded into the object of a view of a target. -/
def targetKinds : List Item.Kind :=
  [.title, .aliases, .variableEntry, .documentationLine, .source]

/-- The kinds of records that are folded into the object of a view. -/
def foldedKinds : View → List Item.Kind
  | .help _ => helpKinds
  | .detailed _ | .basic _ _ _ => targetKinds

/-- The fields of a view, folded from its items. -/
def foldView? (viewpoint : Outline.Viewpoint) (view : View) (outline : Outline) : Option Fields :=
  match view with
  | .help _ => foldHelp? viewpoint outline
  | .detailed _ | .basic _ _ _ => foldTarget? outline

/-- The object of a view, folded from its records. -/
def object? (viewpoint : Outline.Viewpoint) (view : View) (tokens : List Token) :
    Option HelpSheet.Json :=
  let items? := (tokens.filter fun token ↦ token.kind ∈ foldedKinds view).mapM Token.item?
  (items?.bind (foldView? viewpoint view)).map .object

end HelpSheet.Page.Json
