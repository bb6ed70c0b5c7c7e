import HelpSheet.Page.Renderer
import HelpSheet.Proofs.Recipe.Escaping
import HelpSheet.Proofs.Text.Splitting

/-!
# Recipe pages and text pages

A recipe page has one statement for each line of the text page of the same view and options. Since
no escaped line holds a line feed, the page falls apart at its line feeds into the statements, and
reading what a statement prints gives the line back, whatever the line holds
(`recipePage_prints_textPage`).
-/

set_option autoImplicit false
set_option relaxedAutoImplicit false

namespace HelpSheet.Page

open Escape.Recipe (controls escape unescape)
open HelpSheet.Text (splitOnChar_flatMap)

/-! ### Lines -/

/-- The lines in which a view is shown, as a text page has them. -/
def shownLines (options : Options) (workingDirectory : String) (view : View) : List String :=
  (Text.lines options.resolvedScheme
    (view.outline ((Renderer.mk .text options).viewpoint workingDirectory))).map Chunk.text

variable (options : Options) (workingDirectory : String) (view : View)

theorem textChunks_text :
    ((Renderer.mk .text options).chunks workingDirectory view).map Chunk.text =
      (shownLines options workingDirectory view).map (· ++ "\n") := by
  simp [Renderer.chunks, Renderer.scheme, Text.chunks, shownLines, Chunk.mapText]

theorem recipeLines_text :
    ((Renderer.mk .make options).recipeLines workingDirectory view).map Chunk.text =
      (shownLines options workingDirectory view).map Escape.Recipe.escaped := by
  simp [Renderer.recipeLines, Renderer.scheme, Renderer.viewpoint, Text.escapedLines, shownLines,
    Chunk.mapText]

theorem recipeChunks_text :
    ((Renderer.mk .make options).chunks workingDirectory view).map Chunk.text =
      (shownLines options workingDirectory view).map fun line ↦
        Text.statement (Escape.Recipe.escaped line) := by
  simp [Renderer.chunks, Renderer.scheme, Renderer.viewpoint, Text.recipeChunks,
    Text.escapedLines, shownLines, Chunk.mapText]

/-! ### Statements -/

/-- A statement without the line feed at its end. -/
def openStatement (payload : List Char) : List Char :=
  Text.statementStart.toList ++ payload ++ ['\x22']

theorem statement_toList (payload : String) :
    (Text.statement payload).toList = openStatement payload.toList ++ ['\n'] := by
  simp [Text.statement, Text.statementEnd, openStatement]

theorem lineFeed_not_mem_openStatement {payload : List Char} (hpayload : '\n' ∉ payload) :
    '\n' ∉ openStatement payload := by
  simp [openStatement, Text.statementStart, hpayload]

/-- The recipe page in characters: the statements, each followed by a line feed. -/
theorem recipePage_toList :
    ((Renderer.mk .make options).page workingDirectory view).toList =
      ((shownLines options workingDirectory view).map fun line ↦
        openStatement (escape line.toList)).flatMap fun piece ↦ piece ++ ['\n'] := by
  rw [Renderer.page, Chunk.pageText, recipeChunks_text, String.toList_join, List.flatMap_map,
    List.flatMap_map]
  congr 1
  funext line
  rw [statement_toList, Escape.Recipe.escaped, String.toList_ofList]

/-- The recipe page of a view prints the text page. At its line feeds it falls apart into one
statement for each shown line; what stands between the quotes of a statement holds no line feed,
carriage return, tab or escape character and reads back as the line; and the lines, each with a
line feed, are the text page. The escaped lines of the view in statements of their own are the
recipe page too. -/
theorem recipePage_prints_textPage :
    ∃ payloads : List (List Char),
      Text.splitOnChar '\n' ((Renderer.mk .make options).page workingDirectory view).toList =
          payloads.map openStatement ++ [[]] ∧
        (∀ payload ∈ payloads, ∀ c ∈ payload, c ∉ controls) ∧
        payloads.map unescape = (shownLines options workingDirectory view).map String.toList ∧
        (Renderer.mk .text options).page workingDirectory view =
          String.join ((shownLines options workingDirectory view).map (· ++ "\n")) ∧
        String.join (((Renderer.mk .make options).recipeLines workingDirectory view).map
            fun line ↦ Text.statement line.text) =
          (Renderer.mk .make options).page workingDirectory view := by
  have hcontrols : ∀ line : String, ∀ c ∈ escape line.toList, c ∉ controls :=
    fun line c hc ↦ Escape.Recipe.not_mem_controls_of_mem_escape hc
  refine ⟨(shownLines options workingDirectory view).map fun line ↦ escape line.toList,
    ?_, ?_, ?_, ?_, ?_⟩
  · rw [recipePage_toList, List.map_map]
    refine splitOnChar_flatMap fun piece hpiece ↦ ?_
    obtain ⟨line, -, rfl⟩ := List.mem_map.mp hpiece
    exact lineFeed_not_mem_openStatement fun hfeed ↦ hcontrols line '\n' hfeed (by decide)
  · intro payload hpayload
    obtain ⟨line, -, rfl⟩ := List.mem_map.mp hpayload
    exact hcontrols line
  · rw [List.map_map]
    exact List.map_congr_left fun line _ ↦ Escape.Recipe.unescape_escape line.toList
  · rw [Renderer.page, Chunk.pageText, textChunks_text]
  · have hlines := congrArg (fun texts ↦ String.join (texts.map Text.statement))
      (recipeLines_text options workingDirectory view)
    simp only [List.map_map, Function.comp_def] at hlines
    rw [hlines, Renderer.page, Chunk.pageText, recipeChunks_text]

end HelpSheet.Page
