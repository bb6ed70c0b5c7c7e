import HelpSheet.Log.Note
import HelpSheet.Outline.Item
import HelpSheet.Path.Relative
import HelpSheet.Text.Quoted

/-!
# The outlines of views

Three views: the help on a whole model, the details of a target, and the basic view of a target
without documentation. Sections without content are left out.
-/

set_option autoImplicit false
set_option relaxedAutoImplicit false

namespace HelpSheet.Outline

/-- How the build is called. -/
def usageLine : String := "make [<target>...] [<ENV_VAR>=<value>...]"

/-- The title of the help view. -/
def helpTitle : String := "Makefile Help"

/-- What is said of a target without documentation. -/
def noDocumentationNotice : String := "No documentation available."

/-- Where source paths are shown from: the working directory of the process, and the directory that
shortens absolute paths, if one is given. -/
structure Viewpoint where
  workingDirectory : String
  base : Option String := none
  deriving DecidableEq, Repr

/-- A source path as it is shown. -/
def Viewpoint.shorten (viewpoint : Viewpoint) (source : String) : String :=
  Path.shorten viewpoint.workingDirectory viewpoint.base source

/-! ### The help view -/

/-- The description of the build: the documentation of its entry point. -/
def descriptionSection : Option FileDoc → Outline
  | none => []
  | some file =>
    .descriptionStart file.sourceFile :: file.documentation.map .descriptionLine ++
      [.descriptionEnd]

/-- The documentation of one included file. -/
def includedFileSection (file : FileDoc) : Outline :=
  .includedFile file.sourceFile :: file.documentation.map .includedFileLine ++
    [.includedFileEnd file.sourceFile]

/-- The documentation of the included files. -/
def includedSection (files : List FileDoc) : Outline :=
  if files.isEmpty then []
  else .includedStart :: files.flatMap includedFileSection ++ [.includedEnd]

/-- The header of a group, unless it has no name. -/
def categoryHeader (category : Category) : Outline :=
  if category.isUnnamed then [] else [.categoryHeader category.name]

/-- One group of targets. -/
def categorySection (category : Category) : Outline :=
  .categoryStart category.name :: categoryHeader category ++
    (.targetListStart :: category.targets.map .target ++ [.targetListEnd]) ++
    [.categoryEnd category.name]

/-- The targets, group by group. -/
def targetsSection (categories : List Category) : Outline :=
  if categories.isEmpty then []
  else .targetsStart :: categories.flatMap categorySection ++ [.targetsEnd]

/-- The help view of a model. -/
def ofModel (model : Model) : Outline :=
  .usage usageLine :: descriptionSection model.entryPoint? ++ includedSection model.includedFiles ++
    targetsSection model.categories

/-! ### Views of targets -/

/-- The aliases of a target. -/
def aliasesSection (names : List String) : Outline :=
  if names.isEmpty then [] else [.aliases names]

/-- The variables of a target. -/
def variablesSection (usedVariables : List Variable) : Outline :=
  if usedVariables.isEmpty then []
  else .variablesStart :: usedVariables.map .variableEntry ++ [.variablesEnd]

/-- The documentation of a target, apart from its variables if there are both. -/
def documentationSection (target : Target) : Outline :=
  if target.documentation.isEmpty then []
  else
    (if target.usedVariables.isEmpty then [] else [.separator]) ++
      .documentationStart :: target.documentation.map .documentationLine ++ [.documentationEnd]

/-- The place where a target is defined, if it is known. -/
def sourceSection (viewpoint : Viewpoint) (sourceFile : String) (lineNumber : Int) : Outline :=
  if sourceFile = "" then [] else [.source (viewpoint.shorten sourceFile) lineNumber]

/-- The detailed view of a target. -/
def ofTarget (viewpoint : Viewpoint) (target : Target) : Outline :=
  .title target.name target :: aliasesSection target.aliases ++
    variablesSection target.usedVariables ++ documentationSection target ++
    sourceSection viewpoint target.sourceFile target.lineNumber

/-- The view of a target that has no documentation. -/
def ofName (viewpoint : Viewpoint) (name sourceFile : String) (lineNumber : Int) : Outline :=
  .title name none :: .noDocumentation noDocumentationNotice ::
    sourceSection viewpoint sourceFile lineNumber

/-! ### Notes -/

/-- The note on the help view. -/
def modelNote (outline : Outline) : Log.Note where
  level := .trace
  channel := .outline
  line := 208
  message := "Assembled help view: " ++ toString outline.length ++ " token(s)"

/-- The note on the detailed view of a target. -/
def targetNote (name : String) (outline : Outline) : Log.Note where
  level := .trace
  channel := .outline
  line := 250
  message := "Assembled detailed view of " ++ Text.quoted name ++ ": " ++
    toString outline.length ++ " token(s)"

end HelpSheet.Outline
