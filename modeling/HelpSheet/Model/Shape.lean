import HelpSheet.Json.Value
import HelpSheet.Log.Traced
import HelpSheet.Markup.Summary
import HelpSheet.Model.Basic

/-!
# Models from JSON

The shape of the documents that describe a model. A field that is missing reads as its default, or
as null where it is required; fields of other names are ignored. The first value that does not have
the expected type is reported with its place in the document.
-/

set_option autoImplicit false
set_option relaxedAutoImplicit false

namespace HelpSheet.Shape

/-! ### Faults -/

/-- A step from a value to a part of it. -/
inductive Step
  | field (name : String)
  | item (index : Nat)
  deriving DecidableEq, Repr

/-- The place of a value: the steps that lead to it from the whole document. -/
abbrev Place := List Step

/-- The text of a place. -/
def placeText (place : Place) : String :=
  "$" ++ String.join (place.map fun step ↦
    match step with
    | .field name => "." ++ name
    | .item index => "[" ++ toString index ++ "]")

/-- The types that are expected. -/
inductive Expected
  | object
  | list
  | string
  | integer
  | boolean
  deriving DecidableEq, Repr

def Expected.phrase : Expected → String
  | object => "an object"
  | list => "list"
  | string => "str"
  | integer => "int"
  | boolean => "bool"

/-- A value of another type than the expected one. -/
structure Error where
  place : Place
  expected : Expected
  found : Json

def Error.message (error : Error) : String :=
  placeText error.place ++ ": expected " ++ error.expected.phrase ++ ", got " ++
    error.found.typeName

/-- A reader of values, which takes the notes of what it builds. -/
abbrev Reading (α : Type) := Log.Traced Log.Note Error α

/-! ### Values of a type -/

/-- The fields of an object. -/
def object (place : Place) : Json → Reading (List (String × Json))
  | .object fields => pure fields
  | found => .fail ⟨place, .object, found⟩

/-- The items of a list. -/
def list (place : Place) : Json → Reading (List Json)
  | .array items => pure items
  | found => .fail ⟨place, .list, found⟩

def string (place : Place) : Json → Reading String
  | .string content => pure content
  | found => .fail ⟨place, .string, found⟩

def integer (place : Place) : Json → Reading Int
  | .int value => pure value
  | found => .fail ⟨place, .integer, found⟩

def boolean (place : Place) : Json → Reading Bool
  | .bool value => pure value
  | found => .fail ⟨place, .boolean, found⟩

/-- Reads a field, `default` where it is missing. -/
def field {α : Type} (place : Place) (fields : List (String × Json)) (name : String)
    (default : Json) (read : Place → Json → Reading α) : Reading α :=
  read (place ++ [.field name]) ((Json.field? fields name).getD default)

/-- Reads every item of a list. -/
def listOf {α : Type} (read : Place → Json → Reading α) (place : Place) (value : Json) :
    Reading (List α) := do
  let items ← list place value
  Log.Traced.forIndexed items (fun index item ↦ read (place ++ [.item index]) item) 0

/-! ### Parts of a model -/

def readVariable (place : Place) (value : Json) : Reading Variable := do
  let fields ← object place value
  let name ← field place fields "name" .null string
  let description ← field place fields "description" (.string "") string
  pure { name, description }

def readTarget (place : Place) (value : Json) : Reading Target := do
  let fields ← object place value
  let name ← field place fields "name" .null string
  let documentation ← field place fields "documentation" (.array []) (listOf string)
  let aliases ← field place fields "aliases" (.array []) (listOf string)
  let usedVariables ← field place fields "variables" (.array []) (listOf readVariable)
  let sourceFile ← field place fields "sourceFile" (.string "") string
  let lineNumber ← field place fields "lineNumber" (.int 0) integer
  Log.Traced.addNotes (Markup.summaryNotes documentation)
  pure <| Target.summarized
    { name, aliases, documentation, usedVariables, sourceFile, lineNumber }

/-- The name of a group; null stands for no name. -/
def categoryName (place : Place) : Json → Reading String
  | .null => pure ""
  | value => string place value

def readCategory (place : Place) (value : Json) : Reading Category := do
  let fields ← object place value
  let name ← field place fields "name" (.string "") categoryName
  let targets ← field place fields "targets" (.array []) (listOf readTarget)
  pure { name, targets }

def readFileDoc (place : Place) (value : Json) : Reading FileDoc := do
  let fields ← object place value
  let sourceFile ← field place fields "sourceFile" .null string
  let documentation ← field place fields "documentation" (.array []) (listOf string)
  let isEntryPoint ← field place fields "isEntryPoint" (.bool false) boolean
  let discoveryOrder ← field place fields "discoveryOrder" (.int 0) integer
  pure { sourceFile, documentation, isEntryPoint, discoveryOrder }

/-- Whether targets are grouped; where the document does not say, they are if a group has a name. -/
def categorized (categories : List Category) (place : Place) : Json → Reading Bool
  | .null => pure (categories.any fun category ↦ !category.isUnnamed)
  | value => boolean place value

/-- The note on a model that was read. -/
def modelNote (model : Model) : Log.Note where
  level := .debug
  channel := .model
  line := 151
  message := "Loaded model: " ++ toString model.fileDocs.length ++ " file doc(s), " ++
    toString model.categories.length ++ " categor(ies), " ++ toString model.targetCount ++
    " target(s)"

/-- The model that a document describes. -/
def readModel (document : Json) : Reading Model := do
  let fields ← object [] document
  let categories ← field [] fields "categories" (.array []) (listOf readCategory)
  let hasCategories ← field [] fields "hasCategories" .null (categorized categories)
  let fileDocs ← field [] fields "fileDocs" (.array []) (listOf readFileDoc)
  let model : Model := { fileDocs, hasCategories, categories }
  Log.Traced.note (modelNote model)
  pure model

end HelpSheet.Shape
