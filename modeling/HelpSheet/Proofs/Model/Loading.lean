import HelpSheet.Model.Load
import HelpSheet.Proofs.Json.Integers
import HelpSheet.Proofs.Model.Reading

/-!
# Loading a model

A model is decided by the content of its file (`load_of_read`), and a file that begins with a number
sign holds none (`load_numberSign`). No number in a loaded model is too long to be written
(`isShort_lineNumber_of_load`).
-/

set_option autoImplicit false
set_option relaxedAutoImplicit false

namespace HelpSheet.Model

section

variable {tree : Files.Tree} {directory : Files.Place} {path : Path} {machine : Machine}
  {model : Model}

/-- What a loaded model was read from: a document in the text of its file. -/
theorem exists_document_of_load (hload : (load tree directory path machine).outcome = .ok model) :
    '\x00' ∉ path.text.toList ∧ ∃ content chars document,
      tree.read directory path.text = .ok content ∧ Text.Utf8.decode content = .ok chars ∧
      Json.parseWithin (fileRules machine) (String.ofList (Text.unifyLineEndings chars)) =
        .ok document ∧
      (Shape.readModel document).outcome = .ok model := by
  simp only [load, Log.Traced.outcome_bind, Log.Traced.ofExcept, loadDocument,
    Files.Tree.readText] at hload
  by_cases hpath : '\x00' ∈ path.text.toList
  · simp [hpath, Except.bind] at hload
  · refine ⟨hpath, ?_⟩
    simp only [hpath, if_false] at hload
    cases hread : tree.read directory path.text with
    | error error => simp [hread, Except.bind] at hload
    | ok content =>
      cases hchars : Text.Utf8.decode content with
      | error error => simp [hread, hchars, Except.bind] at hload
      | ok chars =>
        simp only [hread, hchars] at hload
        cases hdocument : Json.parseWithin (fileRules machine)
            (String.ofList (Text.unifyLineEndings chars)) with
        | error error => cases error <;> simp [hdocument, Except.bind] at hload
        | ok document =>
          simp only [hdocument, Except.bind] at hload
          cases hshape : (Shape.readModel document).outcome with
          | error error =>
            simp [Log.Traced.mapError, hshape] at hload
          | ok found =>
            simp only [Log.Traced.mapError, hshape, mapError_ok, Except.ok.injEq] at hload
            exact ⟨content, chars, document, rfl, hchars, hdocument, by rw [hshape, hload]⟩

/-- A model that was loaded was read. -/
theorem exists_read_of_load (hload : (load tree directory path machine).outcome = .ok model) :
    ∃ content, tree.read directory path.text = .ok content := by
  obtain ⟨-, content, chars, document, hread, -⟩ := exists_document_of_load hload
  exact ⟨content, hread⟩

/-- A model is decided by the content of its file. -/
theorem load_of_read {other : Files.Tree} {directory' : Files.Place} {path' : Path}
    {content : List UInt8} (hload : (load tree directory path machine).outcome = .ok model)
    (hread : tree.read directory path.text = .ok content)
    (hpath : '\x00' ∉ path'.text.toList)
    (hother : other.read directory' path'.text = .ok content) :
    (load other directory' path' machine).outcome = .ok model := by
  obtain ⟨-, found, chars, document, hfound, hchars, hdocument, hshape⟩ :=
    exists_document_of_load hload
  obtain rfl := Except.ok.inj (hfound.symm.trans hread)
  simp only [load, Log.Traced.outcome_bind, Log.Traced.ofExcept, loadDocument,
    Files.Tree.readText, hpath, if_false, hother, hchars, hdocument, Except.bind,
    Log.Traced.mapError, hshape, mapError_ok]

end

/-! ### Numbers -/

section Numbers

open Shape

variable {fields : List (String × Json)}

theorem isShort_valueOf {name : String} {default : Json} (hfields : (Json.object fields).IsShort)
    (hdefault : default.IsShort) : (valueOf fields name default).IsShort := by
  rw [valueOf]
  cases hfield : Json.field? fields name with
  | none => exact hdefault
  | some value =>
    obtain ⟨front, back, heq, -⟩ := List.lookup_eq_some_iff.mp hfield
    exact Json.isShort_object.mp hfields (name, value) (by simp [heq])

/-- What follows of each item that says a part, where its numbers are short, holds of all parts. -/
theorem forall_mem_of_meansEach {α : Type} {means : Json → α → Prop} {p : α → Prop} {value : Json}
    {parts : List α} (hitem : ∀ item part, item.IsShort → means item part → p part)
    (hvalue : value.IsShort) (hparts : MeansEach means value parts) : ∀ part ∈ parts, p part := by
  obtain ⟨items, rfl, hmeans⟩ := hparts
  rw [Json.isShort_array] at hvalue
  induction hmeans with
  | nil => exact List.forall_mem_nil _
  | @cons item part items parts hfirst hrest ih =>
    rw [List.forall_mem_cons] at hvalue
    exact List.forall_mem_cons.mpr ⟨hitem item part hvalue.1 hfirst, ih hvalue.2⟩

theorem isShort_array_nil : (Json.array []).IsShort :=
  Json.isShort_array.mpr (List.forall_mem_nil _)

/-- The line numbers that a document gives are short if all its numbers are. -/
theorem isShort_lineNumber_of_readModel {document : Json} {model : Model}
    (hdocument : document.IsShort) (hread : (readModel document).outcome = .ok model) :
    ∀ target ∈ model.targets, Text.Numeral.IsShort target.lineNumber := by
  have htarget : ∀ (value : Json) (target : Target), value.IsShort →
      MeansObject DescribesTarget value target → Text.Numeral.IsShort target.lineNumber := by
    rintro value target hvalue ⟨fields, rfl, htarget⟩
    have hzero : (Json.int 0).IsShort := Json.isShort_int.mpr Text.Numeral.isShort_zero
    have hnumber : (valueOf fields "lineNumber" (.int 0)).IsShort := isShort_valueOf hvalue hzero
    rw [htarget.lineNumber] at hnumber
    exact Json.isShort_int.mp hnumber
  have hcategory : ∀ (value : Json) (category : Category), value.IsShort →
      MeansObject DescribesCategory value category →
        ∀ target ∈ category.targets, Text.Numeral.IsShort target.lineNumber := by
    rintro value category hvalue ⟨fields, rfl, hcategory⟩
    exact forall_mem_of_meansEach htarget (isShort_valueOf hvalue isShort_array_nil)
      hcategory.targets
  obtain ⟨fields, rfl, hmodel⟩ := readModel_ok_iff.mp hread
  exact List.forall_mem_flatMap.mpr (forall_mem_of_meansEach hcategory
    (isShort_valueOf hdocument isShort_array_nil) hmodel.categories)

/-- No line number in a model that was loaded is too long to be written. -/
theorem isShort_lineNumber_of_load {tree : Files.Tree} {directory : Files.Place} {path : Path}
    {machine : Machine} {model : Model}
    (hload : (load tree directory path machine).outcome = .ok model) :
    ∀ target ∈ model.targets, Text.Numeral.IsShort target.lineNumber := by
  obtain ⟨-, content, chars, document, -, -, hdocument, hshape⟩ := exists_document_of_load hload
  exact isShort_lineNumber_of_readModel (Json.isShort_of_parseWithin rfl hdocument) hshape

end Numbers

/-! ### Files that hold no model -/

theorem decode_numberSign {bytes : List UInt8} {chars : List Char}
    (hdecode : Text.Utf8.decode (35 :: bytes) = .ok chars) : ∃ rest, chars = '#' :: rest := by
  have hlead : Text.Utf8.lead? 35 = some ⟨35, 0, 0x80, 0xbf⟩ := rfl
  rw [Text.Utf8.decode, Text.Utf8.decodeFrom] at hdecode
  simp only [hlead, Text.Utf8.readTails] at hdecode
  split at hdecode
  · next text _ => exact ⟨text, (Except.ok.inj hdecode).symm⟩
  · cases hdecode

/-- No value begins with a number sign. -/
theorem exists_parseWithin_numberSign (rules : Json.Rules) {text : String} {rest : List Char}
    (htext : text.toList = '#' :: rest) :
    ∃ error, Json.parseWithin rules text = .error error := by
  have hspace : Json.skipSpace ('#' :: rest) = '#' :: rest := rfl
  have hword : (Json.words.find? fun word ↦ word.1.isPrefixOf ('#' :: rest)) = none := rfl
  have hdigits : Json.integerPart? ('#' :: rest) = none := rfl
  have hread : Json.readWhole rules text.toList =
      .error (.fault .expectingValue ('#' :: rest)) := by
    simp [Json.readWhole, htext, hspace, Json.readValue, Json.readScalar, hword, Json.readNumber,
      hdigits]
  rw [Json.parseWithin, hread]
  exact ⟨_, rfl⟩

/-- A file that begins with a number sign, such as a makefile with a comment on top, is no model. -/
theorem load_numberSign {tree : Files.Tree} {directory : Files.Place} {path : Path}
    {rest : List UInt8} (hread : tree.read directory path.text = .ok (35 :: rest))
    (machine : Machine) (model : Model) :
    (load tree directory path machine).outcome ≠ .ok model := by
  intro hload
  obtain ⟨-, content, chars, document, hcontent, hchars, hdocument, -⟩ :=
    exists_document_of_load hload
  obtain rfl := Except.ok.inj (hread.symm.trans hcontent)
  obtain ⟨after, rfl⟩ := decode_numberSign hchars
  have hunified : (String.ofList (Text.unifyLineEndings ('#' :: after))).toList =
      '#' :: Text.unifyLineEndings after := by
    simp [Text.unifyLineEndings]
  obtain ⟨error, herror⟩ := exists_parseWithin_numberSign (fileRules machine) hunified
  cases herror.symm.trans hdocument

end HelpSheet.Model
