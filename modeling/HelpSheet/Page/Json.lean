import HelpSheet.Json.Writer
import HelpSheet.Outline.Assemble
import HelpSheet.Page.Chunk
import HelpSheet.Text.Blank

/-!
# JSON pages

Views as JSON objects for programs. Markup is dropped from summaries and kept in documentation;
fields that are empty are left out. A page is written as one chunk.
-/

set_option autoImplicit false
set_option relaxedAutoImplicit false

namespace HelpSheet.Page.Json

open HelpSheet.Text (joinWith)

/-- The fields of an object. -/
abbrev Fields := List (String × HelpSheet.Json)

/-! ### Fields that may be left out -/

/-- A text, unless it is empty. -/
def textField (name value : String) : Fields :=
  if value = "" then [] else [(name, .string value)]

/-- A number, unless it is zero. -/
def numberField (name : String) (value : Int) : Fields :=
  if value = 0 then [] else [(name, .int value)]

/-- A list, unless it is empty. -/
def listField {α : Type} (name : String) (convert : α → HelpSheet.Json) (items : List α) : Fields :=
  if items.isEmpty then [] else [(name, .array (items.map convert))]

/-- Lines of documentation as one text, unless there are none. -/
def linesField (name : String) (lines : List String) : Fields :=
  if lines.isEmpty then [] else [(name, .string (joinWith "\n" lines))]

/-! ### Objects -/

def ofVariable (entry : Variable) : HelpSheet.Json :=
  .object (textField "name" entry.name ++ textField "description" entry.description)

/-- A target in the list of targets. -/
def ofListedTarget (viewpoint : Outline.Viewpoint) (target : Target) : HelpSheet.Json :=
  .object
    (textField "name" target.name ++
      textField "summary" (Markup.RichText.plainText target.summary) ++
      listField "aliases" HelpSheet.Json.string target.aliases ++
      listField "variables" ofVariable target.usedVariables ++
      textField "sourceFile" (viewpoint.shorten target.sourceFile) ++
      numberField "lineNumber" target.lineNumber)

def ofCategory (viewpoint : Outline.Viewpoint) (category : Category) : HelpSheet.Json :=
  .object
    [("name", .string category.name),
     ("targets", .array (category.targets.map (ofListedTarget viewpoint)))]

def ofIncludedFile (file : FileDoc) : HelpSheet.Json :=
  .object (("path", .string file.sourceFile) :: linesField "description" file.documentation)

/-- The help view of a model. -/
def ofModel (viewpoint : Outline.Viewpoint) (model : Model) : HelpSheet.Json :=
  .object
    (("usage", .string Outline.usageLine) ::
      (model.entryPoint?.toList.flatMap fun file ↦ linesField "description" file.documentation) ++
      listField "includedFiles" ofIncludedFile model.includedFiles ++
      listField "categories" (ofCategory viewpoint) model.categories)

/-- The place where a target is defined, if it is known. -/
def sourceFields (viewpoint : Outline.Viewpoint) (sourceFile : String) (lineNumber : Int) :
    Fields :=
  if sourceFile = "" then []
  else
    ("sourceFile", .string (viewpoint.shorten sourceFile)) :: numberField "lineNumber" lineNumber

/-- The detailed view of a target. -/
def ofTarget (viewpoint : Outline.Viewpoint) (target : Target) : HelpSheet.Json :=
  .object
    (("name", .string target.name) ::
      textField "summary" (Markup.RichText.plainText target.summary) ++
      listField "documentation" HelpSheet.Json.string target.documentation ++
      listField "aliases" HelpSheet.Json.string target.aliases ++
      listField "variables" ofVariable target.usedVariables ++
      sourceFields viewpoint target.sourceFile target.lineNumber)

/-- The view of a target that has no documentation. -/
def ofName (viewpoint : Outline.Viewpoint) (name sourceFile : String) (lineNumber : Int) :
    HelpSheet.Json :=
  .object (("name", .string name) :: sourceFields viewpoint sourceFile lineNumber)

/-! ### Pages -/

/-- The chunks of a JSON page. -/
def chunks (value : HelpSheet.Json) : List Chunk :=
  [{ text := HelpSheet.Json.document value }]

end HelpSheet.Page.Json
