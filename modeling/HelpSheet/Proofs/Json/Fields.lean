import HelpSheet.Json.Value

/-!
# Fields of objects

What is found under a name, and what is set, where the names before it are other ones.
-/

set_option autoImplicit false
set_option relaxedAutoImplicit false

namespace HelpSheet.Json

variable {name : String} {front : List (String × Json)} (back : List (String × Json))

theorem field?_of_not_mem (hname : name ∉ front.map Prod.fst) : field? front name = none := by
  rw [field?, List.lookup_eq_none_iff]
  intro field hfield
  have hne : name ≠ field.1 := by
    rintro rfl
    exact hname (List.mem_map_of_mem hfield)
  simpa using hne

theorem field?_append (first second : List (String × Json)) (name : String) :
    field? (first ++ second) name = (field? first name).or (field? second name) :=
  List.lookup_append

theorem field?_append_of_not_mem (hname : name ∉ front.map Prod.fst) :
    field? (front ++ back) name = field? back name := by
  rw [field?_append, field?_of_not_mem hname, Option.none_or]

theorem field?_append_cons_self (value : Json) (hname : name ∉ front.map Prod.fst) :
    field? (front ++ (name, value) :: back) name = some value := by
  rw [field?_append_of_not_mem _ hname]
  exact List.lookup_cons_self

theorem setField_append_of_not_mem (value : Json) (hname : name ∉ front.map Prod.fst) :
    setField name value (front ++ back) = front ++ setField name value back := by
  induction front with
  | nil => rfl
  | cons field front ih =>
    obtain ⟨other, old⟩ := field
    rw [List.map_cons, List.mem_cons, not_or] at hname
    rw [List.cons_append, setField, if_neg (Ne.symm hname.1), ih hname.2]
    rfl

theorem setField_append_cons_self (old value : Json) (hname : name ∉ front.map Prod.fst) :
    setField name value (front ++ (name, old) :: back) = front ++ (name, value) :: back := by
  rw [setField_append_of_not_mem _ value hname, setField, if_pos rfl]

/-- Setting a field of a new name puts it at the end. -/
theorem setField_of_not_mem (value : Json) (hname : name ∉ front.map Prod.fst) :
    setField name value front = front ++ [(name, value)] := by
  have hset := setField_append_of_not_mem [] value hname
  rwa [List.append_nil] at hset

end HelpSheet.Json
