import HelpSheet.Page.Json.Fold
import HelpSheet.Proofs.Page.Json.Fields

/-!
# Objects folded from outlines

A step that adds to a list or to an object fails where it is not there. Where it is there, a list
grows by one value at its end (`push?_listField`, `pushInLast?_listField`), so a section adds all
its parts in their order (`folds_flatMap`).
-/

set_option autoImplicit false
set_option relaxedAutoImplicit false

namespace HelpSheet.Page.Json

open HelpSheet.Json (field? setField field?_of_not_mem field?_append_of_not_mem
  field?_append_cons_self setField_append_of_not_mem setField_append_cons_self setField_of_not_mem)

/-! ### Single steps -/

section Steps

variable {name : String} {front : Fields}

theorem change?_append_cons {change : HelpSheet.Json → Option HelpSheet.Json}
    {value changed : HelpSheet.Json} (back : Fields) (hname : name ∉ front.map Prod.fst)
    (hchange : change value = some changed) :
    change? name change (front ++ (name, value) :: back) =
      some (front ++ (name, changed) :: back) := by
  rw [change?, field?_append_cons_self back value hname]
  simp [hchange, setField_append_cons_self back value changed hname]

theorem changeLast?_append {change : Fields → Option Fields} {fields changed : Fields}
    (items : List HelpSheet.Json) (hchange : change fields = some changed) :
    changeLast? change (.array (items ++ [.object fields])) =
      some (.array (items ++ [.object changed])) := by
  simp [changeLast?, hchange]

theorem listField_append_singleton {α : Type} (convert : α → HelpSheet.Json) (done : List α)
    (part : α) : listField name convert (done ++ [part]) =
      [(name, .array (done.map convert ++ [convert part]))] := by
  simp [listField]

/-- A value added to a list is the last one of it. -/
theorem push?_listField {α : Type} (hname : name ∉ front.map Prod.fst)
    (convert : α → HelpSheet.Json) (done : List α) (part : α) :
    push? name (convert part) (front ++ listField name convert done) =
      some (front ++ listField name convert (done ++ [part])) := by
  rw [listField_append_singleton]
  cases done with
  | nil => simp [push?, append?, listField, field?_of_not_mem hname, setField_of_not_mem _ hname]
  | cons first done =>
    let items := (first :: done).map convert
    have hlist : listField name convert (first :: done) = [(name, .array items)] := rfl
    have hset := setField_append_cons_self [] (.array items) (.array (items ++ [convert part]))
      hname
    rw [hlist, push?, field?_append_cons_self _ _ hname]
    simp only [Option.getD_some, append?, Option.bind_eq_bind, Option.bind_some, Option.pure_def]
    exact congrArg some hset

/-- A value added to a list of the last object of a list changes this object only. -/
theorem pushInLast?_listField {α : Type} {inner : String} (hname : name ∉ front.map Prod.fst)
    (convert : α → HelpSheet.Json) (done : List α) {part longer : α} {value : HelpSheet.Json}
    {before : Fields} {values : List HelpSheet.Json} (hinner : inner ∉ before.map Prod.fst)
    (hpart : convert part = .object (before ++ [(inner, .array values)]))
    (hlonger : convert longer = .object (before ++ [(inner, .array (values ++ [value]))])) :
    pushInLast? name inner value (front ++ listField name convert (done ++ [part])) =
      some (front ++ listField name convert (done ++ [longer])) := by
  have hobject : change? inner (append? value) (before ++ [(inner, .array values)]) =
      some (before ++ [(inner, .array (values ++ [value]))]) :=
    change?_append_cons [] hinner rfl
  rw [listField_append_singleton, listField_append_singleton, hpart, hlonger, pushInLast?]
  exact change?_append_cons [] hname (changeLast?_append _ hobject)

/-- Where a list is changed as a whole, its field is replaced, if it is there. -/
theorem changeIfAny?_listField {α : Type} {convert : α → HelpSheet.Json} {parts : List α}
    {change : HelpSheet.Json → Option HelpSheet.Json} {changed : HelpSheet.Json} {back : Fields}
    (hfront : name ∉ front.map Prod.fst) (hback : name ∉ back.map Prod.fst)
    (hchange : change (.array (parts.map convert)) = some changed) :
    changeIfAny? name change (front ++ listField name convert parts ++ back) =
      some (front ++ (if parts.isEmpty then [] else [(name, changed)]) ++ back) := by
  unfold changeIfAny? listField
  split
  · have habsent : field? (front ++ [] ++ back) name = none := by
      rw [List.append_nil, field?_append_of_not_mem _ hfront, field?_of_not_mem hback]
    simp only [habsent, Option.isSome_none, Bool.false_eq_true, if_false]
  · rw [List.append_assoc, List.append_assoc]
    have hpresent := field?_append_cons_self back (.array (parts.map convert)) hfront
    have hchanged := change?_append_cons back hfront hchange
    simp only [List.singleton_append, hpresent, Option.isSome_some, if_true, hchanged]

theorem mapM_map_eq {α β : Type} {convert : α → HelpSheet.Json} {changed : α → β}
    {change : HelpSheet.Json → Option β}
    (hchange : ∀ part, change (convert part) = some (changed part)) (parts : List α) :
    (parts.map convert).mapM change = some (parts.map changed) := by
  have hcomp : change ∘ convert = fun part ↦ pure (changed part) := funext hchange
  rw [List.mapM_map, hcomp]
  exact List.mapM_pure

theorem changeEach?_map {α : Type} {convert changed : α → HelpSheet.Json}
    {change : HelpSheet.Json → Option HelpSheet.Json}
    (hchange : ∀ part, change (convert part) = some (changed part)) (parts : List α) :
    changeEach? change (.array (parts.map convert)) = some (.array (parts.map changed)) := by
  rw [changeEach?, mapM_map_eq hchange]
  rfl

end Steps

/-! ### Runs -/

/-- Folding an outline onto fields fails nowhere and leads to the result. -/
def Folds (fold : Fields → Item → Option Fields) (outline : Outline) (before after : Fields) :
    Prop :=
  outline.foldlM fold before = some after

section Runs

variable {fold : Fields → Item → Option Fields} {before between after : Fields}

theorem folds_nil (fields : Fields) : Folds fold [] fields fields :=
  rfl

theorem folds_item {item : Item} (hitem : fold before item = some after) :
    Folds fold [item] before after := by
  simp [Folds, hitem]

theorem Folds.append {first second : Outline} (hfirst : Folds fold first before between)
    (hsecond : Folds fold second between after) : Folds fold (first ++ second) before after := by
  unfold Folds at *
  rw [List.foldlM_append, hfirst]
  exact hsecond

/-- A section whose closing item adds nothing. -/
theorem Folds.enclosed {opening closing : Item} {body : Outline}
    (hbody : Folds fold body between after) (hopening : fold before opening = some between)
    (hclosing : fold after closing = some after) :
    Folds fold (opening :: body ++ [closing]) before after :=
  ((folds_item hopening).append hbody).append (folds_item hclosing)

/-- Parts that are added one after another are added in their order. -/
theorem folds_flatMap {α : Type} {state : List α → Fields} {write : α → Outline}
    (hpart : ∀ done part, Folds fold (write part) (state done) (state (done ++ [part])))
    (done parts : List α) :
    Folds fold (parts.flatMap write) (state done) (state (done ++ parts)) := by
  induction parts generalizing done with
  | nil =>
    rw [List.append_nil]
    exact folds_nil _
  | cons part parts ih =>
    have hrest := ih (done ++ [part])
    rw [List.append_assoc] at hrest
    exact (hpart done part).append hrest

theorem folds_map {α : Type} {state : List α → Fields} {write : α → Item}
    (hpart : ∀ done part, fold (state done) (write part) = some (state (done ++ [part])))
    (done parts : List α) : Folds fold (parts.map write) (state done) (state (done ++ parts)) := by
  rw [List.map_eq_flatMap]
  exact folds_flatMap (fun done part ↦ folds_item (hpart done part)) done parts

variable {α : Type} {name : String} {convert : α → HelpSheet.Json} {front : Fields}

/-- Parts that are added to a list, one after another, are its values. -/
theorem folds_listField_flatMap {write : α → Outline}
    (hpart : ∀ done part, Folds fold (write part) (front ++ listField name convert done)
      (front ++ listField name convert (done ++ [part]))) (parts : List α) :
    Folds fold (parts.flatMap write) front (front ++ listField name convert parts) := by
  have hparts := folds_flatMap hpart [] parts
  have hbefore : front ++ listField name convert [] = front := List.append_nil front
  rwa [hbefore] at hparts

theorem folds_listField_map {write : α → Item}
    (hpart : ∀ done part, fold (front ++ listField name convert done) (write part) =
      some (front ++ listField name convert (done ++ [part]))) (parts : List α) :
    Folds fold (parts.map write) front (front ++ listField name convert parts) := by
  rw [List.map_eq_flatMap]
  exact folds_listField_flatMap (fun done part ↦ folds_item (hpart done part)) parts

/-- A section that is left out where there is nothing to list. -/
theorem Folds.unlessEmpty {parts : List α} {body : Outline}
    (hbody : Folds fold body front (front ++ listField name convert parts)) :
    Folds fold (if parts.isEmpty then [] else body) front
      (front ++ listField name convert parts) := by
  split
  · next hempty =>
    have hbefore : front ++ listField name convert [] = front := List.append_nil front
    rw [List.isEmpty_iff.mp hempty, hbefore]
    exact folds_nil front
  · exact hbody

end Runs

end HelpSheet.Page.Json
