import HelpSheet.Log.Traced
import HelpSheet.Page.Html
import HelpSheet.Page.Json
import HelpSheet.Page.Markdown
import HelpSheet.Page.Options
import HelpSheet.Page.Text
import HelpSheet.Page.View

/-!
# Renderers

A renderer is a format with checked options; it makes the pages of views. The name of the format is
settled before the options are looked at.
-/

set_option autoImplicit false
set_option relaxedAutoImplicit false

namespace HelpSheet.Page

/-- A format and the options of its pages. -/
structure Renderer where
  format : Format
  options : Options

namespace Renderer

/-! ### Choosing a renderer -/

/-- Why there is no renderer. -/
inductive Refusal
  | unknownFormat (name : String)
  | options (error : Page.Error)

def Refusal.message : Refusal → String
  | unknownFormat name => Format.unknownMessage name Format.supportedNames
  | options error => error.message

/-- The note on a new renderer for the format that was asked for in the given words. -/
def creationNote (format : Format) (words : String) : Log.Note where
  level := .debug
  channel := .format
  line := 113
  message := "Created " ++ format.name ++ " renderer for format " ++ words

/-- The renderer of a format whose options are still to be checked. -/
def ofFormat (format : Format) (words : String) (request : Request) :
    Log.Traced Log.Note Refusal Renderer :=
  match request.check with
  | .error error => .fail (.options error)
  | .ok options => do
    Log.Traced.note (creationNote format words)
    pure { format, options }

/-- The renderer for a format name. -/
def ofName (name : String) (request : Request) : Log.Traced Log.Note Refusal Renderer :=
  match Format.ofName? name with
  | none => .fail (.unknownFormat name)
  | some format => ofFormat format (Text.quoted name) request

/-! ### Pages -/

/-- The scheme of the renderer's pages. -/
def scheme (renderer : Renderer) : Sgr.Scheme :=
  renderer.options.resolvedScheme

/-- Where source paths are shown from. -/
def viewpoint (renderer : Renderer) (workingDirectory : String) : Outline.Viewpoint where
  workingDirectory := workingDirectory
  base := renderer.options.base.map Path.text

/-- A view as a JSON value. -/
def value (viewpoint : Outline.Viewpoint) : View → HelpSheet.Json
  | .help model => Json.ofModel viewpoint model
  | .detailed target => Json.ofTarget viewpoint target
  | .basic name sourceFile lineNumber => Json.ofName viewpoint name sourceFile lineNumber

/-- The chunks of the page that shows a view. -/
def chunks (renderer : Renderer) (workingDirectory : String) (view : View) : List Chunk :=
  let viewpoint := renderer.viewpoint workingDirectory
  let outline := view.outline viewpoint
  match renderer.format with
  | .make => Text.recipeChunks renderer.scheme outline
  | .text => Text.chunks renderer.scheme outline
  | .html => Html.chunks renderer.options.useColor outline
  | .markdown => Markdown.chunks outline
  | .json => Json.chunks (value viewpoint view)

/-- The text of the page that shows a view. -/
def page (renderer : Renderer) (workingDirectory : String) (view : View) : String :=
  Chunk.pageText (renderer.chunks workingDirectory view)

/-- Where the note on the page of a view is taken. -/
def noteLine : View → Nat
  | .help _ => 115
  | .detailed _ => 132
  | .basic _ _ _ => 142

/-- The note on a page that is begun. -/
def pageNote (format : Format) (view : View) : Log.Note where
  level := .debug
  channel := .page
  line := noteLine view
  message := format.name ++ ": " ++ view.announcement

/-- The notes before the first chunk of a page. -/
def openingNotes (renderer : Renderer) (workingDirectory : String) (view : View) :
    List Log.Note :=
  view.outlineNotes (renderer.viewpoint workingDirectory) ++ [pageNote renderer.format view]

/-- The escaped lines of the page that shows a view, without the statements around them. -/
def recipeLines (renderer : Renderer) (workingDirectory : String) (view : View) : List Chunk :=
  Text.escapedLines renderer.scheme (view.outline (renderer.viewpoint workingDirectory))

/-- The notes before the first of the escaped lines. -/
def recipeNotes (renderer : Renderer) (workingDirectory : String) (view : View) : List Log.Note :=
  view.outlineNotes (renderer.viewpoint workingDirectory)

end Renderer

end HelpSheet.Page
