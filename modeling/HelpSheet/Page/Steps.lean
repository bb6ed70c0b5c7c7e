import HelpSheet.Page.Json.Fold
import HelpSheet.Page.Renderer

/-!
# Pages step by step

A page is made of the records of its view, in steps that each come to a chunk or to a failure. A
table tells the kinds of records that are written, a record has to hold what its kind needs, and the
segments of its rich text are looked up in a table; a JSON page is folded from its records and made
in one step.
-/

set_option autoImplicit false
set_option relaxedAutoImplicit false

namespace HelpSheet.Page

/-- Why a chunk cannot be made: a number is too long to be written, or a record, a table or an
object has not got what is looked for in it. -/
inductive Fault
  | number (fault : Text.Numeral.TooGreat)
  | lack
  deriving DecidableEq, Repr

def Fault.message : Fault → String
  | number fault => fault.message
  | lack => ""

/-- What a step comes to. -/
abbrev Step := Except Fault Chunk

/-- The value that was looked for, if it is there. -/
def found {α : Type} : Option α → Except Fault α
  | some value => .ok value
  | none => .error .lack

/-! ### Records -/

/-- The kinds of records that are written; the other ones write nothing. -/
def handledKinds : Format → List Item.Kind
  | .make | .text =>
    [.usage, .descriptionStart, .descriptionLine, .includedStart, .includedFile,
     .includedFileLine, .includedFileEnd, .targetsStart, .categoryHeader, .target, .title,
     .aliases, .variablesStart, .variableEntry, .separator, .documentationLine,
     .noDocumentation, .source]
  | .html =>
    [.usage, .descriptionStart, .descriptionLine, .descriptionEnd, .includedStart,
     .includedFile, .includedFileLine, .includedFileEnd, .includedEnd, .targetsStart,
     .categoryStart, .categoryHeader, .targetListStart, .target, .targetListEnd, .categoryEnd,
     .targetsEnd, .title, .aliases, .variablesStart, .variableEntry, .variablesEnd,
     .documentationStart, .documentationLine, .documentationEnd, .noDocumentation, .source]
  | .markdown =>
    [.usage, .descriptionStart, .descriptionLine, .descriptionEnd, .includedStart,
     .includedFile, .includedFileLine, .includedFileEnd, .targetsStart, .categoryHeader, .target,
     .categoryEnd, .title, .aliases, .variablesStart, .variableEntry, .variablesEnd,
     .documentationStart, .documentationLine, .documentationEnd, .noDocumentation, .source]
  | .json => []

namespace Renderer

variable (renderer : Renderer)

/-- The lines of a record, before they are written as lines of a text or a recipe. -/
def lines? (token : Token) : Option (List Chunk) := do
  let item ← token.item?
  pure (Text.linesOf renderer.scheme token.text item)

/-- The chunks of a record. -/
def chunks? (token : Token) : Option (List Chunk) :=
  match renderer.format with
  | .text => do
    let lines ← renderer.lines? token
    pure (lines.map (Chunk.mapText (· ++ "\n")))
  | .make => do
    let lines ← renderer.lines? token
    pure ((lines.map (Chunk.mapText Escape.Recipe.escaped)).map (Chunk.mapText Text.statement))
  | .html => do
    let item ← token.item?
    let content ← Html.inlinePieces? item.richText
    pure ((Html.blockOf content token.text item).toList.map Html.Block.chunk)
  | .markdown => do
    let item ← token.item?
    let content ← Markdown.inlineText? item.richText
    pure (Markdown.chunkOf content token.text item).toList
  | .json => pure []

/-- The steps that write a record. -/
def tokenSteps (token : Token) : List Step :=
  if token.kind ∈ handledKinds renderer.format then
    match renderer.chunks? token with
    | some chunks => chunks.map .ok
    | none => [.error .lack]
  else []

/-- The escaped lines of a record. -/
def recordLines? (token : Token) : Except Fault (List Chunk) :=
  if token.kind ∈ handledKinds .make then
    (found (renderer.lines? token)).map (List.map (Chunk.mapText Escape.Recipe.escaped))
  else .ok []

/-- The escaped lines of the page that shows a view, unless one of its records cannot be made. -/
def recipeLines? (workingDirectory : String) (view : View) : Except Fault (List Chunk) := do
  let tokens ← (view.outline (renderer.viewpoint workingDirectory)).tokens.mapError .number
  let lines ← tokens.mapM renderer.recordLines?
  pure lines.flatten

/-! ### Pages -/

/-- The title of an HTML page; on the page of a target it is taken from the first record. -/
def title? (view : View) (tokens : List Token) : Option String :=
  match view with
  | .help _ => some Outline.helpTitle
  | .detailed _ | .basic _ _ _ => tokens.head?.map fun token ↦ "Target: " ++ token.text

/-- The blocks of an HTML page before those of the records. -/
def openingBlocks? (view : View) (tokens : List Token) : Option (List Html.Block) := do
  let title ← title? view tokens
  let opening := Html.openingBlocks renderer.options.useColor title
  match view with
  | .help _ => pure (opening ++ [Html.helpHeading])
  | .detailed _ | .basic _ _ _ => pure opening

/-- The steps before those of the records. -/
def openingSteps (view : View) (tokens : List Token) : List Step :=
  match renderer.format with
  | .html =>
    match renderer.openingBlocks? view tokens with
    | some blocks => blocks.map fun block ↦ .ok block.chunk
    | none => [.error .lack]
  | .markdown =>
    match view with
    | .help _ => [.ok Markdown.helpHeading]
    | .detailed _ | .basic _ _ _ => []
  | .make | .text | .json => []

/-- The steps after those of the records. -/
def closingSteps : List Step :=
  match renderer.format with
  | .html => [.ok Html.closingBlock.chunk]
  | .make | .text | .markdown | .json => []

/-- The only step of a JSON page. -/
def jsonStep (viewpoint : Outline.Viewpoint) (view : View) (tokens : List Token) : Step := do
  let value ← found (Json.object? viewpoint view tokens)
  let text ← (HelpSheet.Json.document? value).mapError .number
  pure { text }

/-- The steps that make the page of a view from its records, one after the other. -/
def steps (viewpoint : Outline.Viewpoint) (view : View) (tokens : List Token) : List Step :=
  match renderer.format with
  | .json => [jsonStep viewpoint view tokens]
  | .make | .text | .html | .markdown =>
    renderer.openingSteps view tokens ++ tokens.flatMap renderer.tokenSteps ++
      renderer.closingSteps

end Renderer

end HelpSheet.Page
