import HelpSheet.Proofs.Page.Json.Help
import HelpSheet.Proofs.Page.Streaming

/-!
# Decoding a JSON help page

A help page has no more than seven arrays and objects in each other (`height_ofModel_le`), and its
numbers are short enough to be read wherever they could be written. So a reader with usual limits
reads the page back as the facts of the model, and a page with a number that is too long is not made
in the first place (`helpPage_decodes`).
-/

set_option autoImplicit false
set_option relaxedAutoImplicit false

namespace HelpSheet

/-! ### Heights -/

namespace Json

theorem height_array_le {items : List Json} {bound : Nat} :
    (Json.array items).height ≤ bound + 1 ↔ ∀ item ∈ items, item.height ≤ bound := by
  rw [height, Nat.add_le_add_iff_right, itemsHeight_le_iff]

theorem height_object_le {fields : List (String × Json)} {bound : Nat} :
    (Json.object fields).height ≤ bound + 1 ↔ ∀ field ∈ fields, field.2.height ≤ bound := by
  rw [height, Nat.add_le_add_iff_right, fieldsHeight_le_iff]

theorem height_string_le (content : String) (bound : Nat) :
    (Json.string content).height ≤ bound :=
  Nat.zero_le _

theorem height_int_le (value : Int) (bound : Nat) : (Json.int value).height ≤ bound :=
  Nat.zero_le _

/-- A value with short integers keeps to the limits of a reader that takes all of these and as many
levels as the value has. -/
theorem allow_of_isShort {value : Json} {rules : Rules} (hvalue : value.IsShort)
    (hdigits : Text.Numeral.maxDigits ≤ rules.digits) (hlevels : value.height ≤ rules.levels) :
    rules.Allow value where
  digits number hnumber := by
    have hlength := Text.Numeral.isShort_iff_length_toDigits.mp (hvalue number hnumber)
    exact Nat.le_trans hlength hdigits
  levels := hlevels

end Json

namespace Page.Json

open HelpSheet.Json (Rules height_array_le height_object_le height_string_le height_int_le
  parseWithin)

theorem height_ofVariable_le (entry : Variable) : (ofVariable entry).height ≤ 1 :=
  height_object_le.mpr (List.forall_mem_append.mpr
    ⟨forall_mem_textField (height_string_le _ _), forall_mem_textField (height_string_le _ _)⟩)

theorem height_strings_le (texts : List String) (bound : Nat) :
    (HelpSheet.Json.array (texts.map .string)).height ≤ bound + 1 :=
  height_array_le.mpr (List.forall_mem_map.mpr fun text _ ↦ height_string_le text bound)

theorem height_ofListedTarget_le (viewpoint : Outline.Viewpoint) (target : Target) :
    (ofListedTarget viewpoint target).height ≤ 3 := by
  have hvariables : (HelpSheet.Json.array (target.usedVariables.map ofVariable)).height ≤ 2 :=
    height_array_le.mpr (List.forall_mem_map.mpr fun entry _ ↦ height_ofVariable_le entry)
  rw [ofListedTarget, height_object_le]
  simp only [List.forall_mem_append]
  exact ⟨⟨⟨⟨⟨forall_mem_textField (height_string_le _ _),
    forall_mem_textField (height_string_le _ _)⟩,
    forall_mem_listField (height_strings_le _ _)⟩, forall_mem_listField hvariables⟩,
    forall_mem_textField (height_string_le _ _)⟩, forall_mem_numberField (height_int_le _ _)⟩

theorem height_ofCategory_le (viewpoint : Outline.Viewpoint) (category : Category) :
    (ofCategory viewpoint category).height ≤ 5 := by
  have htargets :
      (HelpSheet.Json.array (category.targets.map (ofListedTarget viewpoint))).height ≤ 4 :=
    height_array_le.mpr
      (List.forall_mem_map.mpr fun target _ ↦ height_ofListedTarget_le viewpoint target)
  rw [ofCategory, height_object_le, List.forall_mem_cons, List.forall_mem_singleton]
  exact ⟨height_string_le _ _, htargets⟩

theorem height_ofModel_le (viewpoint : Outline.Viewpoint) (model : Model) :
    (ofModel viewpoint model).height ≤ 7 := by
  have hfile (file : FileDoc) : (ofIncludedFile file).height ≤ 5 :=
    height_object_le.mpr
      (List.forall_mem_cons.mpr
        ⟨height_string_le _ _, forall_mem_linesField (height_string_le _ _)⟩)
  have hincluded : (HelpSheet.Json.array (model.includedFiles.map ofIncludedFile)).height ≤ 6 :=
    height_array_le.mpr (List.forall_mem_map.mpr fun file _ ↦ hfile file)
  have hcategories :
      (HelpSheet.Json.array (model.categories.map (ofCategory viewpoint))).height ≤ 6 :=
    height_array_le.mpr
      (List.forall_mem_map.mpr fun category _ ↦ height_ofCategory_le viewpoint category)
  rw [ofModel, height_object_le]
  simp only [List.cons_append, List.forall_mem_cons, List.forall_mem_append,
    List.forall_mem_flatMap]
  exact ⟨height_string_le _ _,
    ⟨fun file _ ↦ forall_mem_linesField (height_string_le _ _), forall_mem_listField hincluded⟩,
    forall_mem_listField hcategories⟩

/-! ### Pages -/

/-- A help page in JSON is made unless the line number of a target is too long to be written, and
each item of the outline finds what it adds to. The page ends with one line feed, and a reader that
takes numbers up to this length and seven levels gives the facts of the model, with the included
files in the order of their discovery. -/
theorem helpPage_decodes (options : Options) (workingDirectory : String) (model : Model) :
    ∃ included fields, model.InDiscoveryOrder included ∧
      fields = helpFields ((renderer options).viewpoint workingDirectory)
        model.openingFiles.head? included model.categories ∧
      foldHelp? ((renderer options).viewpoint workingDirectory) (Outline.ofModel model) =
        some fields ∧
      if ∀ target ∈ model.targets, Text.Numeral.IsShort target.lineNumber then
        ∃ text front, (renderer options).render workingDirectory (.help model) = .ok text ∧
          text.toList = front ++ ['\x7d', '\n'] ∧
          ∀ rules : Rules, Text.Numeral.maxDigits ≤ rules.digits → 7 ≤ rules.levels →
            parseWithin rules text = .ok (.object fields)
      else
        (renderer options).render workingDirectory (.help model) =
          .error (.number ⟨Text.Numeral.maxDigits⟩) := by
  let viewpoint := (renderer options).viewpoint workingDirectory
  have hobject := ofModel_eq viewpoint model
  refine ⟨model.includedFiles, _, model.inDiscoveryOrder_includedFiles, rfl, ?_, ?_⟩
  · have hfolded := foldHelp?_ofModel viewpoint model
    rw [hobject] at hfolded
    obtain ⟨fields, hfields, hequal⟩ := Option.map_eq_some_iff.mp hfolded
    rw [hfields, HelpSheet.Json.object.inj hequal]
  · split
    · next hshort =>
      have hnumbers : (View.help model).HasShortNumbers .json := fun _ ↦ hshort
      have hpage : (renderer options).page workingDirectory (.help model) =
          HelpSheet.Json.document (ofModel viewpoint model) :=
        page_eq options workingDirectory _
      obtain ⟨front, hfront⟩ : ∃ front,
          (HelpSheet.Json.document (ofModel viewpoint model)).toList = front ++ ['\x7d', '\n'] := by
        rw [hobject]
        exact exists_document_object_eq _
      refine ⟨_, front, (render_eq_page hnumbers).trans (congrArg _ hpage), hfront,
        fun rules hdigits hlevels ↦ ?_⟩
      have hallow : rules.Allow (ofModel viewpoint model) :=
        HelpSheet.Json.allow_of_isShort (isShort_ofModel_iff.mpr hshort) hdigits
          (Nat.le_trans (height_ofModel_le viewpoint model) hlevels)
      rw [HelpSheet.Json.parseWithin_document (plain_ofModel viewpoint model) hallow, hobject]
    · next hlong =>
      exact render_of_not_hasShortNumbers fun hnumbers ↦ hlong (hnumbers rfl)

/-- A target whose line number is too long to be written, as the only one of a model. -/
def farModel : Model where
  categories := [{ name := "", targets := [farTarget] }]

/-- Rendering a help page may fail on a number. -/
theorem not_forall_helpPage_rendered :
    ¬ ∀ (options : Options) (workingDirectory : String) (model : Model),
      ∃ text, (renderer options).render workingDirectory (.help model) = .ok text := by
  intro hall
  have hmem : farTarget ∈ farModel.targets := List.mem_singleton_self farTarget
  have hnumbers : ¬ (View.help farModel).HasShortNumbers .json := fun hshort ↦
    Text.Numeral.not_isShort_pow (hshort rfl farTarget hmem)
  obtain ⟨text, htext⟩ := hall {} "/" farModel
  have hfails : (renderer {}).render "/" (.help farModel) =
      .error (.number ⟨Text.Numeral.maxDigits⟩) :=
    render_of_not_hasShortNumbers hnumbers
  rw [hfails] at htext
  cases htext

end Page.Json

end HelpSheet
