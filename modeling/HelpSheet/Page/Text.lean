import HelpSheet.Escape.Recipe
import HelpSheet.Markup.Summary
import HelpSheet.Outline.Assemble
import HelpSheet.Page.Chunk
import HelpSheet.Sgr.Scheme
import HelpSheet.Text.Blank

/-!
# Text pages and recipe pages

The two formats of lines. Both have the same lines; a text page writes each of them as it is, a
recipe page as a statement of its own that prints it. Markup is dropped from documentation, and
empty texts are never colored.
-/

set_option autoImplicit false
set_option relaxedAutoImplicit false

namespace HelpSheet.Page.Text

open HelpSheet.Text (joinWith)

/-! ### Lines -/

/-- A painted text, unless it is empty. -/
def painted (painter : Option Sgr.Painter) (text : String) : String :=
  if text = "" then "" else Sgr.paint painter text

/-- A line with the notes that reading `raw` takes. -/
def lineOf (raw text : String) : Chunk where
  text := text
  notes := Markup.readingNotes raw

/-- Lines without notes. -/
def plainLines (lines : List String) : List Chunk :=
  lines.map fun line ↦ { text := line }

/-- What follows a colon, if there is anything. -/
def afterColon (painter : Option Sgr.Painter) (text : String) : String :=
  if text = "" then "" else ": " ++ Sgr.paint painter text

/-- The aliases of a target in the list of targets. -/
def aliasList (scheme : Sgr.Scheme) (names : List String) : String :=
  if names.isEmpty then "" else " " ++ painted scheme.aliasName (joinWith ", " names)

/-- The lines of a target in the list of targets. -/
def targetLines (scheme : Sgr.Scheme) (target : Target) : List String :=
  ("  - " ++ painted scheme.targetName target.name ++ aliasList scheme target.aliases ++
      afterColon scheme.documentation (Markup.RichText.plainText target.summary)) ::
    if target.usedVariables.isEmpty then []
    else
      ["    Vars: " ++
        painted scheme.variableName (joinWith ", " (target.usedVariables.map Variable.name))]

/-- The line of a variable. -/
def variableLine (scheme : Sgr.Scheme) (entry : Variable) : Chunk :=
  let line := "  - " ++ painted scheme.variableName entry.name
  if entry.description = "" then { text := line }
  else
    lineOf entry.description
      (line ++ ": " ++ painted scheme.documentation (Markup.flatten entry.description))

/-- The lines of an item, with the place that it names. -/
def linesOf (scheme : Sgr.Scheme) (place : String) : Item → List Chunk
  | .usage line => plainLines ["Usage: " ++ line]
  | .descriptionStart _ => plainLines [""]
  | .descriptionLine line => [lineOf line (Markup.flatten line)]
  | .descriptionEnd => []
  | .includedStart => plainLines ["", "Included files:"]
  | .includedFile path => plainLines ["  " ++ path]
  | .includedFileLine line =>
    if line = "" then plainLines [""] else [lineOf line ("    " ++ Markup.flatten line)]
  | .includedFileEnd _ => plainLines [""]
  | .includedEnd => []
  | .targetsStart => plainLines ["", "Targets:"]
  | .categoryStart _ => []
  | .categoryHeader name => plainLines ["", painted scheme.categoryName (name ++ ":")]
  | .targetListStart => []
  | .target target => plainLines (targetLines scheme target)
  | .targetListEnd => []
  | .categoryEnd _ => []
  | .targetsEnd => []
  | .title name _ => plainLines [painted scheme.targetName ("Target: " ++ name)]
  | .aliases names => plainLines [painted scheme.aliasName ("Aliases: " ++ joinWith ", " names)]
  | .variablesStart => plainLines [painted scheme.variableName "Variables:"]
  | .variableEntry entry => [variableLine scheme entry]
  | .variablesEnd => []
  | .separator => plainLines [""]
  | .documentationStart => []
  | .documentationLine line =>
    [lineOf line (painted scheme.documentation (Markup.flatten line))]
  | .documentationEnd => []
  | .noDocumentation notice => plainLines ["", painted scheme.documentation notice]
  | .source _ _ => plainLines ["", "Source: " ++ place]

/-- The lines of an item. -/
def itemLines (scheme : Sgr.Scheme) (item : Item) : List Chunk :=
  linesOf scheme item.placeText item

/-- The lines of an outline. -/
def lines (scheme : Sgr.Scheme) (outline : Outline) : List Chunk :=
  outline.flatMap (itemLines scheme)

/-! ### Pages -/

/-- The chunks of a text page. -/
def chunks (scheme : Sgr.Scheme) (outline : Outline) : List Chunk :=
  (lines scheme outline).map (Chunk.mapText (· ++ "\n"))

/-- What stands before the text that a recipe statement prints. -/
def statementStart : String := "\t@printf '%b\\n' \""

/-- What stands after it. -/
def statementEnd : String := "\"\n"

/-- The statement of a recipe that prints an escaped text as a line. -/
def statement (escaped : String) : String :=
  statementStart ++ escaped ++ statementEnd

/-- The escaped lines of an outline. -/
def escapedLines (scheme : Sgr.Scheme) (outline : Outline) : List Chunk :=
  (lines scheme outline).map (Chunk.mapText Escape.Recipe.escaped)

/-- The chunks of a recipe page. -/
def recipeChunks (scheme : Sgr.Scheme) (outline : Outline) : List Chunk :=
  (escapedLines scheme outline).map (Chunk.mapText statement)

end HelpSheet.Page.Text
