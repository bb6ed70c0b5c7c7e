import HelpSheet.Proofs.Html.Targets
import HelpSheet.Proofs.Markup.Sentence
import HelpSheet.Proofs.Page.Colors
import HelpSheet.Proofs.Page.Json.Help
import HelpSheet.Proofs.Page.Json.Targets

/-!
# Summaries in all formats

All formats show the same words of documentation. A line of it in HTML shows the plain text of the
line, and the summary of a target is the same text on an HTML page, on a text page without color and
on the JSON pages; each of them leaves it out if it is empty (`exists_showsSummary`). An HTML page
leaves out a summary that is written with no character, which for the summary of documentation means
that there is no text to show (`writeAll_summarize_eq_empty_iff`).
-/

set_option autoImplicit false
set_option relaxedAutoImplicit false

namespace HelpSheet

open Markup (RichText summarize)

/-! ### Empty summaries -/

namespace Markup

/-- A first sentence that shows nothing has no segments. -/
theorem firstSentence_eq_nil {raw : String}
    (hempty : (firstSentence (parse raw)).plainText = "") : firstSentence (parse raw) = [] := by
  obtain ⟨index, hleast⟩ | hnone := exists_isLeast_or_forall_not (parse raw)
  · -- The terminator is shown.
    have hindex := (isLeast_endsAfter hleast).1.lt_length
    have hlength := congrArg String.length hempty
    rw [firstSentence_of_isLeast hleast, ← String.length_toList, plainText_takeVisible,
      List.length_take, String.length_toList, ← visibleChars_length, String.length_empty] at hlength
    omega
  · rw [firstSentence_of_forall_not hnone] at hempty ⊢
    cases hparsed : parse raw with
    | nil => rfl
    | cons segment rest =>
      have hsegment : segment ∈ parse raw := hparsed ▸ List.mem_cons_self
      rw [hparsed, RichText.plainText_cons, String.append_eq_empty_iff] at hempty
      exact absurd hempty.1 (content_ne_of_mem_parse hsegment)

theorem summarize_eq_nil {documentation : List String}
    (hempty : (summarize documentation).plainText = "") : summarize documentation = [] := by
  unfold summarize at hempty ⊢
  split
  · next line hline =>
    rw [hline] at hempty
    exact firstSentence_eq_nil hempty
  · rfl

end Markup

namespace Page

open HelpSheet.Json (field? field?_append)

theorem Html.writeAll_summarize_eq_empty_iff {documentation : List String} :
    Html.writeAll (Html.inlinePieces (summarize documentation)) = "" ↔
      (summarize documentation).plainText = "" := by
  constructor
  · intro hempty
    rw [← Html.visibleText_inlinePieces, hempty]
    rfl
  · intro hempty
    rw [Markup.summarize_eq_nil hempty]
    rfl

/-! ### Text pages -/

section Lines

variable (options : Options) (workingDirectory : String) (place : TargetPlace)

/-- The line of the variables of a target, if it has any. -/
def variablesLine (usedVariables : List Variable) : String :=
  if usedVariables.isEmpty then ""
  else "    Vars: " ++ HelpSheet.Text.joinWith ", " (usedVariables.map Variable.name) ++ "\n"

theorem Text.painted_none (text : String) : Text.painted none text = text := by
  unfold Text.painted
  split
  · next hempty => exact hempty.symm
  · rfl

/-- The lines of a target without color. -/
theorem join_targetLines_plain (target : Target) :
    String.join ((Text.targetLines .plain target).map (· ++ "\n")) =
      "  - " ++ target.name ++ Text.aliasList .plain target.aliases ++
        (if target.summary.plainText = "" then "" else ": " ++ target.summary.plainText) ++ "\n" ++
          variablesLine target.usedVariables := by
  have hsummary : Text.afterColon none target.summary.plainText =
      if target.summary.plainText = "" then "" else ": " ++ target.summary.plainText := rfl
  have hscheme : Sgr.Scheme.plain.targetName = none ∧ Sgr.Scheme.plain.documentation = none ∧
      Sgr.Scheme.plain.variableName = none := ⟨rfl, rfl, rfl⟩
  rw [Text.targetLines, hscheme.1, hscheme.2.1, hscheme.2.2, hsummary, Text.painted_none,
    Text.painted_none, variablesLine, List.map_cons, String.join_cons]
  cases target.usedVariables.isEmpty with
  | true => rfl
  | false => simp

/-- The text page of a model is the same around the lines of a target, whatever target it is. -/
theorem exists_textPage_put :
    ∃ front back : String, ∀ target,
      (Renderer.mk .text options).page workingDirectory (.help (place.put target)) =
        front ++ String.join ((Text.targetLines options.resolvedScheme target).map (· ++ "\n")) ++
          back := by
  obtain ⟨front, back, houtline⟩ := Outline.exists_ofModel_put place
  let write (outline : Outline) : String :=
    Chunk.pageText (Text.chunks options.resolvedScheme outline)
  refine ⟨write front, write back, fun target ↦ ?_⟩
  have hpage : (Renderer.mk .text options).page workingDirectory (.help (place.put target)) =
      write (Outline.ofModel (place.put target)) := rfl
  have happend : ∀ first second, write (first ++ second) = write first ++ write second := by
    intro first second
    simp only [write, Text.chunks, Text.lines, List.flatMap_append, List.map_append,
      pageText_append]
  have htarget : write [.target target] =
      String.join ((Text.targetLines options.resolvedScheme target).map (· ++ "\n")) := by
    simp [write, Text.chunks, Text.lines, Text.itemLines, Text.linesOf, Text.plainLines,
      Chunk.pageText, Chunk.mapText, Function.comp_def]
  rw [hpage, houtline, ← List.singleton_append, happend, happend, htarget, String.append_assoc]

end Lines

/-! ### JSON pages -/

section Objects

open HelpSheet.Page.Json

/-- The value under a name of an object. -/
def valueAt (name : String) : HelpSheet.Json → Option HelpSheet.Json
  | .object fields => field? fields name
  | _ => none

/-- The values of a list under a name of an object. -/
def valuesAt (name : String) (value : HelpSheet.Json) : List HelpSheet.Json :=
  match valueAt name value with
  | some (.array values) => values
  | _ => []

/-- The targets in the groups of a help page. -/
def listedObjects (value : HelpSheet.Json) : List HelpSheet.Json :=
  (valuesAt "categories" value).flatMap (valuesAt "targets")

theorem valuesAt_categories_ofModel (viewpoint : Outline.Viewpoint) (model : Model) :
    valuesAt "categories" (Json.ofModel viewpoint model) =
      model.categories.map (Json.ofCategory viewpoint) := by
  have hdescription := not_mem_description (show "categories" ≠ _ by decide) model
  have hfield : valueAt "categories" (Json.ofModel viewpoint model) =
      present? (.array (model.categories.map (Json.ofCategory viewpoint))) := by
    rw [Json.ofModel, valueAt, listField_eq _ model.categories,
      HelpSheet.Json.field?_append_of_not_mem, field?_optional_self]
    simp [hdescription, not_mem_listField]
  rw [valuesAt, hfield]
  cases model.categories <;> rfl

theorem listedObjects_ofModel (viewpoint : Outline.Viewpoint) (model : Model) :
    listedObjects (Json.ofModel viewpoint model) =
      model.targets.map (Json.ofListedTarget viewpoint) := by
  have htargets : ∀ category, valuesAt "targets" (Json.ofCategory viewpoint category) =
      category.targets.map (Json.ofListedTarget viewpoint) := by
    intro category
    rfl
  rw [listedObjects, valuesAt_categories_ofModel, List.flatMap_map, Model.targets, List.map_flatMap]
  simp only [htargets]

theorem present?_string (text : String) :
    present? (.string text) = if text = "" then none else some (.string text) := by
  simp [present?, isEmptyValue]

theorem valueAt_summary_ofListedTarget (viewpoint : Outline.Viewpoint) (target : Target) :
    valueAt "summary" (Json.ofListedTarget viewpoint target) =
      if target.summary.plainText = "" then none else some (.string target.summary.plainText) := by
  rw [Json.ofListedTarget_eq_listedFields, ← present?_string]
  simp [valueAt, listedFields, field?_append, field?_optional_self, field?_optional_of_ne]

theorem valueAt_summary_ofTarget (viewpoint : Outline.Viewpoint) (target : Target) :
    valueAt "summary" (Json.ofTarget viewpoint target) =
      if target.summary.plainText = "" then none else some (.string target.summary.plainText) := by
  rw [Json.ofTarget_eq, ← present?_string]
  simp [valueAt, detailedFields, field?_append, field?_optional_self, field?_optional_of_ne]

end Objects

/-! ### All formats -/

/-- The pages that show a target, as it is put in a place of a model and on its own, show the given
words as its summary, and nothing if there are no words. The text page is `front` and `back` around
the lines of the target. -/
structure ShowsSummary (options : Options) (workingDirectory : String) (place : TargetPlace)
    (front back : String) (target : Target) (words : String) : Prop where
  html :
    (Html.seenTargets ((Renderer.mk .html options).page workingDirectory
      (.help (place.put target))))[place.index]? =
        some ([target.name], if words = "" then [] else [words])
  text : options.resolvedScheme = .plain →
    (Renderer.mk .text options).page workingDirectory (.help (place.put target)) =
      front ++ ("  - " ++ target.name ++ Text.aliasList .plain target.aliases ++
        (if words = "" then "" else ": " ++ words) ++ "\n" ++
          variablesLine target.usedVariables) ++ back
  listed : ∃ value,
    HelpSheet.Json.parse
      ((Renderer.mk .json options).page workingDirectory (.help (place.put target))) = .ok value ∧
    ((listedObjects value)[place.index]?).map (valueAt "summary") =
      some (if words = "" then none else some (.string words))
  detailed : ∃ value,
    HelpSheet.Json.parse ((Renderer.mk .json options).page workingDirectory (.detailed target)) =
      .ok value ∧
    valueAt "summary" value = if words = "" then none else some (.string words)

/-- A target that has the summary of its own documentation is shown with it wherever it is put. -/
theorem showsSummary_summarized (options : Options) (workingDirectory : String)
    (place : TargetPlace) : ∃ front back, ∀ target : Target,
      ShowsSummary options workingDirectory place front back target.summarized
        (summarize target.documentation).plainText := by
  obtain ⟨front, back, htext⟩ := exists_textPage_put options workingDirectory place
  refine ⟨front, back, fun target ↦ ⟨?_, ?_, ?_, ?_⟩⟩
  · rw [Html.seenTargets_htmlPage, List.getElem?_map, place.targets_put_getElem?]
    simp only [Option.map_some, Target.summarized, Html.writeAll_summarize_eq_empty_iff]
  · intro hscheme
    rw [htext, hscheme, join_targetLines_plain]
    rfl
  · refine ⟨_, Json.parse_page options workingDirectory _, ?_⟩
    rw [Renderer.value, listedObjects_ofModel, List.getElem?_map, place.targets_put_getElem?,
      Option.map_some, Option.map_some, valueAt_summary_ofListedTarget]
    rfl
  · refine ⟨_, Json.parse_page options workingDirectory _, ?_⟩
    rw [Renderer.value, valueAt_summary_ofTarget]
    rfl

/-- The pages of a model show every target of it that has the summary of its own documentation. -/
theorem exists_showsSummary_of_mem {model : Model} {target : Target}
    (htarget : target ∈ model.targets) (hsummary : target.summarized = target)
    (options : Options) (workingDirectory : String) :
    ∃ place front back, place.put target = model ∧
      ShowsSummary options workingDirectory place front back target
        (summarize target.documentation).plainText := by
  obtain ⟨place, hplace⟩ := exists_put_eq htarget
  obtain ⟨front, back, hshows⟩ := showsSummary_summarized options workingDirectory place
  have htarget := hshows target
  rw [hsummary] at htarget
  exact ⟨place, front, back, hplace, htarget⟩

/-- Marked-up text shows its plain text in HTML, and every target that has the summary of its own
documentation is shown with the same words in all formats. -/
theorem exists_showsSummary (options : Options) (workingDirectory : String)
    (place : TargetPlace) :
    (∀ raw, Html.visibleText (Html.writeAll (Html.inlinePieces (Markup.parse raw))) =
      Markup.flatten raw) ∧
    ∃ front back, ∀ target : Target,
      ShowsSummary options workingDirectory place front back target.summarized
        (summarize target.documentation).plainText :=
  ⟨fun raw ↦ Html.visibleText_inlinePieces (Markup.parse raw),
    showsSummary_summarized options workingDirectory place⟩

theorem exists_showsSummary_lint :
    Options.resolvedScheme {} = .plain ∧ ∃ front back,
      ShowsSummary {} "/" ⟨[], false, [], "", [], [], []⟩ front back
        (Target.summarized { name := "lint", documentation := ["Run *all* checks. It is fast."] })
        "Run all checks." := by
  have hwords : (summarize ["Run *all* checks. It is fast."]).plainText = "Run all checks." := by
    decide +kernel
  obtain ⟨-, front, back, hshows⟩ := exists_showsSummary {} "/" ⟨[], false, [], "", [], [], []⟩
  have hlint := hshows { name := "lint", documentation := ["Run *all* checks. It is fast."] }
  rw [hwords] at hlint
  exact ⟨rfl, front, back, hlint⟩

end Page

end HelpSheet
