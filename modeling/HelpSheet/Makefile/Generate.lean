import HelpSheet.Escape.Recipe
import HelpSheet.Page.Steps
import HelpSheet.Time.Moment

/-!
# Help makefiles

A makefile to be included in the documented one. Options say where it lies and what it is called,
which makefiles it documents, and how the help it prints looks. It begins with a header on its
origin; its targets print the help view and the detailed view of every target, and generate it anew.
Paths are relative to its own directory, which make knows by a variable.
-/

set_option autoImplicit false
set_option relaxedAutoImplicit false

namespace HelpSheet.Makefile

open HelpSheet.Text (joinWith)

/-! ### Options -/

/-- The name of a help makefile. -/
def standardFileName : String := "help.mk"

/-- The group of the targets that a help makefile adds. -/
def standardCategory : String := "Help"

/-- The name of a model file. -/
def standardModelName : String := "help.json"

/-- The options of a help makefile. An empty directory stands for the working directory, an empty
command for the one that the other options make, and without a moment the present one counts. -/
structure Options where
  makefiles : List String := []
  directory : String := ""
  fileName : String := standardFileName
  category : String := standardCategory
  modelName : String := standardModelName
  useColor : Bool := false
  command : String := ""
  generatedAt : Option Time.Moment := none
  deriving DecidableEq, Repr

/-! ### Arguments of the command that generates the file -/

/-- The variable that holds the directory of the help makefile, as make expands it. -/
def directoryReference : String := "$(MAKE_HELP_DIR)"

/-- The color option of the command. -/
def colorFlag (options : Options) : String :=
  if options.useColor then " --color always" else " --color never"

/-- A text with every dollar sign doubled, as make reads it. -/
def doubleDollars (text : List Char) : List Char :=
  text.flatMap fun c ↦ if c = '$' then ['$', '$'] else [c]

/-- The category as a word of the shell; in a recipe, make reads it first. -/
def categoryWord (options : Options) (inRecipe : Bool) : String :=
  let word := Escape.Shell.quoted options.category
  if inRecipe then String.ofList (doubleDollars word.toList) else word

/-- The category option of the command, unless the category is the standard one. -/
def categoryFlag (options : Options) (inRecipe : Bool) : String :=
  if options.category = standardCategory then ""
  else " --help-category " ++ categoryWord options inRecipe

/-- A makefile as a path from the directory of the help makefile. -/
def relativeMakefile (workingDirectory : String) (options : Options) (makefile : String) :
    String :=
  directoryReference ++
    if options.directory = "" then Path.normalize makefile
    else
      Path.relativeTo workingDirectory (Path.normalize options.directory) (Path.normalize makefile)

/-- The documented makefiles as paths from the directory of the help makefile. -/
def relativeMakefiles (workingDirectory : String) (options : Options) : List String :=
  options.makefiles.map (relativeMakefile workingDirectory options)

/-! ### Sections -/

/-- The command in the header. -/
def commandText (options : Options) : String :=
  if options.command ≠ "" then options.command
  else
    "makehelp" ++ colorFlag options ++ " helpfile " ++ options.modelName ++ " --output " ++
      options.fileName ++ categoryFlag options false

/-- The lines of the header. -/
def headerLines (options : Options) (stamp : String) : List String :=
  ["# generated-by: makehelp",
   "# command: " ++ commandText options,
   "# date: " ++ stamp,
   "# ---",
   "# DO NOT EDIT",
   "",
   "MAKE_HELP_DIR := $(dir $(lastword $(MAKEFILE_LIST)))"]

/-- The line with the documented makefiles, if there are any. -/
def makefilesLines (makefiles : List String) : List String :=
  if makefiles.isEmpty then [] else ["MAKE_HELP_MAKEFILES := " ++ joinWith " " makefiles]

/-- The line that puts the next target into the category, where the model has categories. -/
def categoryLines (options : Options) (categorized : Bool) : List String :=
  if categorized then ["## !category " ++ options.category] else []

/-- The warning about a makefile that is newer than the help, as a format of the shell. -/
def staleWarning (options : Options) : String :=
  let warning :=
    "Warning: %s is newer than " ++ options.fileName ++ ". Run make update-help to refresh."
  if options.useColor then "\\033[0;33m" ++ warning ++ "\\033[0m" else warning

/-- The lines of the help target before the help it prints. -/
def helpTargetLines (options : Options) (categorized : Bool) : List String :=
  categoryLines options categorized ++
    [".PHONY: help",
     "## Displays help for available targets.",
     "help:",
     "\t@for f in $(MAKE_HELP_MAKEFILES); do \\",
     "\t  if [ \"$$f\" -nt \"" ++ directoryReference ++ options.fileName ++ "\" ]; then \\",
     "\t    printf '" ++ staleWarning options ++ "\\n' \"$$f\"; \\",
     "\t  fi; \\",
     "\tdone"]

/-- The command that generates the file anew. -/
def updateCommand (options : Options) (makefiles : List String) : String :=
  "makehelp" ++ colorFlag options ++ " helpfile " ++ directoryReference ++ options.modelName ++
    " --output " ++ directoryReference ++ options.fileName ++
    String.join (makefiles.map (" --makefile " ++ ·)) ++ categoryFlag options true

/-- The lines of the target that generates the file anew. -/
def updateTargetLines (options : Options) (categorized : Bool) (makefiles : List String) :
    List String :=
  categoryLines options categorized ++
    [".PHONY: update-help",
     "## Regenerates " ++ options.fileName ++ " from the documentation model.",
     "update-help:",
     "\t@" ++ updateCommand options makefiles]

/-- Lines with their line feeds. -/
def writeLines (lines : List String) : String :=
  String.join (lines.map (· ++ "\n"))

/-- Escaped lines as statements that print them. -/
def writeStatements (lines : List Page.Chunk) : String :=
  String.join (lines.map fun line ↦ Page.Text.statement line.text)

/-! ### The whole file -/

/-- The renderer of the help in the file. -/
def renderer (options : Options) : Page.Renderer where
  format := .make
  options :=
    { useColor := options.useColor
      base := if options.directory = "" then none else some (.ofString options.directory) }

/-- The escaped lines of the detailed view of a target. -/
def targetHelp (workingDirectory : String) (options : Options) (target : Target) :
    List Page.Chunk :=
  (renderer options).recipeLines workingDirectory (.detailed target)

/-- The rule of a target that prints escaped lines. -/
def printingRule (target : Target) (lines : List Page.Chunk) : String :=
  writeLines ["", ".PHONY: help-" ++ target.name, "help-" ++ target.name ++ ":"] ++
    writeStatements lines

/-- The rule that prints the detailed view of a target. -/
def targetRule (workingDirectory : String) (options : Options) (target : Target) : String :=
  printingRule target (targetHelp workingDirectory options target)

/-- The text of a help makefile with the given escaped lines and rules of targets. -/
def textAround (workingDirectory : String) (options : Options) (stamp : String) (model : Model)
    (lines : List Page.Chunk) (rules : List String) : String :=
  let makefiles := relativeMakefiles workingDirectory options
  writeLines (headerLines options stamp ++ makefilesLines makefiles ++ [""]) ++
    writeLines (helpTargetLines options model.hasCategories) ++ writeStatements lines ++
    String.join rules ++
    writeLines ("" :: updateTargetLines options model.hasCategories makefiles)

/-- The text of the help makefile for a model. -/
def fileText (workingDirectory : String) (options : Options) (stamp : String) (model : Model) :
    String :=
  textAround workingDirectory options stamp model
    ((renderer options).recipeLines workingDirectory (.help model))
    (model.targets.map (targetRule workingDirectory options))

/-! ### Generation -/

/-- Why a help makefile cannot be generated: its moment has no date, or a line of it cannot be
made. -/
inductive Fault
  | date (error : Time.Moment.OutOfRange)
  | line (fault : Page.Fault)
  deriving DecidableEq, Repr

def Fault.message : Fault → String
  | date error => error.message
  | line fault => fault.message

/-- The note on a file that was generated. -/
def generatedNote (options : Options) (model : Model) : Log.Note where
  level := .info
  channel := .makefile
  line := 218
  message := "Generated " ++ options.fileName ++ " with " ++ toString model.targetCount ++
    " detailed target(s)"

/-- Makes the escaped lines of a view. -/
def viewLines (workingDirectory : String) (options : Options) (view : Page.View) :
    Log.Traced Log.Note Fault (List Page.Chunk) := do
  Log.Traced.addNotes ((renderer options).recipeNotes workingDirectory view)
  let lines ← Log.Traced.ofExcept
    (((renderer options).recipeLines? workingDirectory view).mapError .line)
  Log.Traced.addNotes (Page.Chunk.pageNotes lines)
  pure lines

/-- Makes the rules of targets, one after the other. -/
def targetRules (workingDirectory : String) (options : Options) :
    List Target → Log.Traced Log.Note Fault (List String)
  | [] => pure []
  | target :: rest => do
    let lines ← viewLines workingDirectory options (.detailed target)
    let rules ← targetRules workingDirectory options rest
    pure (printingRule target lines :: rules)

/-- Generates the help makefile for a model, at the moment `now` unless the options give another
one. -/
def generate (workingDirectory : String) (now : Time.Moment) (options : Options) (model : Model) :
    Log.Traced Log.Note Fault String := do
  let stamp ← Log.Traced.ofExcept ((options.generatedAt.getD now).stamp.mapError .date)
  let lines ← viewLines workingDirectory options (.help model)
  let rules ← targetRules workingDirectory options model.targets
  Log.Traced.addNotes [generatedNote options model]
  pure (textAround workingDirectory options stamp model lines rules)

end HelpSheet.Makefile
