import HelpSheet.Proofs.Json.Fields
import HelpSheet.Proofs.Json.Numerals
import HelpSheet.Proofs.Json.Strings

/-!
# Written values are read back

The reader gives back every written value that holds no fraction and no object with two fields of
one name, within all limits that the value itself keeps to (`parseWithin_document`); the length of
its text is such a limit (`parse_document`). The induction is on the value; the text after it, the
depth, the fuel and the rules are left open (`Plain.readsBack`).
-/

set_option autoImplicit false
set_option relaxedAutoImplicit false

namespace HelpSheet.Json

/-- The value holds no fraction and no object with two fields of one name. -/
inductive Plain : Json → Prop
  | null : Plain .null
  | bool (value : Bool) : Plain (.bool value)
  | int (value : Int) : Plain (.int value)
  | string (content : String) : Plain (.string content)
  | array {items : List Json} (hitems : ∀ item ∈ items, Plain item) : Plain (.array items)
  | object {fields : List (String × Json)} (hnames : (fields.map Prod.fst).Nodup)
      (hvalues : ∀ field ∈ fields, Plain field.2) : Plain (.object fields)

/-! ### Between tokens -/

/-- The text begins with a token that closes nothing. -/
def BeginsToken (text : List Char) : Prop :=
  ∃ c tail, text = c :: tail ∧ isSpace c = false ∧ c ≠ ']' ∧ c ≠ '\ufeff'

theorem BeginsToken.append {text : List Char} (htext : BeginsToken text) (rest : List Char) :
    BeginsToken (text ++ rest) := by
  obtain ⟨c, tail, rfl, hc⟩ := htext
  exact ⟨c, tail ++ rest, rfl, hc⟩

theorem BeginsToken.skipSpace_eq {text : List Char} (htext : BeginsToken text) :
    skipSpace text = text := by
  obtain ⟨c, tail, rfl, hspace, -⟩ := htext
  simp [skipSpace, hspace]

theorem skipSpace_newLine_append (depth : Nat) (text : List Char) :
    skipSpace (newLine depth ++ text) = skipSpace text := by
  have hspace : ∀ c ∈ newLine depth, isSpace c = true := by
    intro c hc
    obtain rfl | hc := List.mem_cons.mp hc
    · rfl
    · rw [List.eq_of_mem_replicate hc]
      rfl
  exact List.dropWhile_append_of_pos hspace

theorem endsNumber_newLine_append (depth : Nat) (text : List Char) :
    EndsNumber (newLine depth ++ text) :=
  endsNumber_cons (by decide)

theorem beginsToken_writeString (content : String) : BeginsToken (writeString content) :=
  ⟨'\x22', _, rfl, by decide⟩

theorem beginsToken_toString (value : Int) : BeginsToken (toString value).toList := by
  obtain ⟨c, digits, hwritten, hsign | hdigit⟩ := exists_toString_toList_eq_cons value
  · subst hsign
    exact ⟨'-', digits, hwritten, by decide⟩
  · refine ⟨c, digits, hwritten, ?_, ?_, ?_⟩
    · rw [Bool.eq_false_iff]
      intro hspace
      simp only [isSpace, Bool.or_eq_true, decide_eq_true_eq] at hspace
      obtain ((rfl | rfl) | rfl) | rfl := hspace
      all_goals exact absurd hdigit (by decide)
    · rintro rfl
      exact absurd hdigit (by decide)
    · rintro rfl
      exact absurd hdigit (by decide)

theorem Plain.beginsToken {value : Json} (hvalue : Plain value) (depth : Nat) :
    BeginsToken (writeValue depth value) := by
  cases hvalue with
  | null => exact ⟨'n', _, rfl, by decide⟩
  | bool value => cases value with
    | false => exact ⟨'f', _, rfl, by decide⟩
    | true => exact ⟨'t', _, rfl, by decide⟩
  | int value =>
    rw [writeValue]
    exact beginsToken_toString value
  | string content =>
    rw [writeValue]
    exact beginsToken_writeString content
  | @array items _ => cases items with
    | nil => exact ⟨'[', _, rfl, by decide⟩
    | cons item items =>
      rw [writeValue]
      exact ⟨'[', _, rfl, by decide⟩
  | @object fields _ _ => cases fields with
    | nil => exact ⟨'\x7b', _, rfl, by decide⟩
    | cons field fields =>
      rw [writeValue]
      exact ⟨'\x7b', _, rfl, by decide⟩

/-! ### Words and integers -/

/-- Neither of the first two characters of a word is a digit. -/
theorem exists_eq_of_mem_words {word : List Char × Json} (hword : word ∈ words) :
    ∃ first second tail, word.1 = first :: second :: tail ∧ first.isDigit = false ∧
      second.isDigit = false := by
  simp only [words, List.mem_cons, List.not_mem_nil, or_false] at hword
  obtain rfl | rfl | rfl | rfl | rfl | rfl := hword
  all_goals exact ⟨_, _, _, rfl, rfl, rfl⟩

/-- No word begins as an integer does. -/
theorem find?_words_toString_append (value : Int) (rest : List Char) :
    (words.find? fun word ↦ word.1.isPrefixOf ((toString value).toList ++ rest)) = none := by
  rw [List.find?_eq_none]
  intro word hword hbegins
  rw [List.isPrefixOf_iff_prefix] at hbegins
  obtain ⟨first, second, tail, hletters, hfirst, hsecond⟩ := exists_eq_of_mem_words hword
  rw [hletters] at hbegins
  cases value with
  | ofNat number =>
    obtain ⟨digit, digits, hdigits, hisDigit⟩ := exists_toDigits_eq_cons number
    rw [toString_ofNat_toList, hdigits, List.cons_append, List.cons_prefix_cons] at hbegins
    rw [hbegins.1, hisDigit] at hfirst
    exact Bool.noConfusion hfirst
  | negSucc number =>
    obtain ⟨digit, digits, hdigits, hisDigit⟩ := exists_toDigits_eq_cons (number + 1)
    rw [toString_negSucc_toList, hdigits, List.cons_append, List.cons_append,
      List.cons_prefix_cons, List.cons_prefix_cons] at hbegins
    rw [hbegins.2.1, hisDigit] at hsecond
    exact Bool.noConfusion hsecond

/-- A text that begins neither a string nor a container is read as a word or a number. -/
theorem readValue_eq_readScalar {fuel : Nat} {rules : Rules} {c : Char} {text : List Char}
    (hquote : c ≠ '\x22') (hbracket : c ≠ '[') (hbrace : c ≠ '\x7b') :
    readValue (fuel + 1) rules (c :: text) = readScalar rules (c :: text) := by
  simp [readValue, hquote, hbracket, hbrace]

theorem readValue_toString_append {fuel : Nat} {rules : Rules} {value : Int} {rest : List Char}
    (hdigits : (Nat.toDigits 10 value.natAbs).length ≤ rules.digits) (hrest : EndsNumber rest) :
    readValue (fuel + 1) rules ((toString value).toList ++ rest) = .ok (.int value, rest) := by
  have hnumber := readNumber_toString_append hdigits hrest
  have hscalar : readScalar rules ((toString value).toList ++ rest) = .ok (.int value, rest) := by
    rw [readScalar, find?_words_toString_append, hnumber]
  obtain ⟨c, digits, hwritten, hhead⟩ := exists_toString_toList_eq_cons value
  have hne : ∀ d : Char, d ≠ '-' → d.isDigit = false → c ≠ d := by
    rintro d hsign hdigit rfl
    obtain hhead | hhead := hhead
    · exact hsign hhead
    · rw [hdigit] at hhead
      exact Bool.noConfusion hhead
  rw [hwritten, List.cons_append] at hscalar ⊢
  rwa [readValue_eq_readScalar (hne _ (by decide) (by decide)) (hne _ (by decide) (by decide))
    (hne _ (by decide) (by decide))]

/-! ### Limits -/

mutual

/-- The number of arrays and objects that lie in each other in a value. -/
def height : Json → Nat
  | .array items => itemsHeight items + 1
  | .object fields => fieldsHeight fields + 1
  | _ => 0

/-- The greatest height in a list of values. -/
def itemsHeight : List Json → Nat
  | [] => 0
  | item :: items => max (height item) (itemsHeight items)

/-- The greatest height in the fields of an object. -/
def fieldsHeight : List (String × Json) → Nat
  | [] => 0
  | (_, value) :: fields => max (height value) (fieldsHeight fields)

end

theorem itemsHeight_le_iff {items : List Json} {bound : Nat} :
    itemsHeight items ≤ bound ↔ ∀ item ∈ items, item.height ≤ bound := by
  induction items with
  | nil => simp [itemsHeight]
  | cons item items ih => rw [itemsHeight, Nat.max_le, ih, List.forall_mem_cons]

theorem fieldsHeight_le_iff {fields : List (String × Json)} {bound : Nat} :
    fieldsHeight fields ≤ bound ↔ ∀ field ∈ fields, field.2.height ≤ bound := by
  induction fields with
  | nil => simp [fieldsHeight]
  | cons field fields ih => rw [fieldsHeight, Nat.max_le, ih, List.forall_mem_cons]

/-- No limit stops the reader in a value: its integers have no more digits, and its arrays and
objects lie no deeper, than the rules allow. -/
structure Rules.Allow (rules : Rules) (value : Json) : Prop where
  digits : ∀ number ∈ value.integers, (Nat.toDigits 10 number.natAbs).length ≤ rules.digits
  levels : value.height ≤ rules.levels

/-- In a container, the rules allow for what it holds. -/
theorem Rules.Allow.inside {rules : Rules} {outer : Json} {held : List Json}
    (hrules : rules.Allow outer) (hintegers : outer.integers = held.flatMap integers)
    (hheight : outer.height = itemsHeight held + 1) (container : Container) :
    ∃ inner, rules.inside container = .ok inner ∧ ∀ value ∈ held, inner.Allow value := by
  obtain ⟨digits, levels, surrogates⟩ := rules
  obtain ⟨hdigits, hlevels⟩ := hrules
  rw [hheight] at hlevels
  cases levels with
  | zero => exact absurd hlevels (Nat.not_succ_le_zero _)
  | succ levels =>
    refine ⟨⟨digits, levels, surrogates⟩, rfl, fun value hvalue ↦ ⟨fun number hnumber ↦ ?_, ?_⟩⟩
    · refine hdigits number ?_
      rw [hintegers]
      exact List.mem_flatMap.mpr ⟨value, hvalue, hnumber⟩
    · exact itemsHeight_le_iff.mp (Nat.le_of_succ_le_succ hlevels) value hvalue

theorem Rules.Allow.inside_array {rules : Rules} {items : List Json}
    (hrules : rules.Allow (.array items)) :
    ∃ inner, rules.inside .array = .ok inner ∧ ∀ item ∈ items, inner.Allow item :=
  hrules.inside (integers_array items) (by rw [height]) .array

theorem fieldsHeight_eq (fields : List (String × Json)) :
    fieldsHeight fields = itemsHeight (fields.map Prod.snd) := by
  induction fields with
  | nil => rfl
  | cons field fields ih => rw [fieldsHeight, List.map_cons, itemsHeight, ih]

theorem Rules.Allow.inside_object {rules : Rules} {fields : List (String × Json)}
    (hrules : rules.Allow (.object fields)) :
    ∃ inner, rules.inside .object = .ok inner ∧ ∀ field ∈ fields, inner.Allow field.2 := by
  have hintegers : (Json.object fields).integers = (fields.map Prod.snd).flatMap Json.integers := by
    rw [integers_object, List.flatMap_map]
  obtain ⟨inner, hinside, hinner⟩ :=
    hrules.inside hintegers (by rw [height, fieldsHeight_eq]) .object
  exact ⟨inner, hinside, fun field hfield ↦ hinner _ (List.mem_map_of_mem hfield)⟩

/-! ### Values -/

/-- The reader gives back the written value, whatever follows it and however deep it stands, where
the fuel allows for its length and the rules for its integers and its height. -/
def ReadsBack (value : Json) : Prop :=
  ∀ (depth fuel : Nat) (rules : Rules) (rest : List Char),
    2 * (writeValue depth value).length ≤ fuel → rules.Allow value → EndsNumber rest →
      readValue fuel rules (writeValue depth value ++ rest) = .ok (value, rest)

/-- A word is read back where no other word begins as it does. -/
theorem readsBack_of_word {value : Json} {c : Char} {letters : List Char}
    (hwritten : ∀ depth, writeValue depth value = c :: letters)
    (hc : c ≠ '\x22' ∧ c ≠ '[' ∧ c ≠ '\x7b')
    (hword : ∀ rest, (words.find? fun word ↦ word.1.isPrefixOf (c :: letters ++ rest)) =
      some (c :: letters, value)) : ReadsBack value := by
  intro depth fuel rules rest hfuel _ _
  rw [hwritten, List.length_cons] at hfuel
  obtain ⟨fuel, rfl⟩ := Nat.exists_eq_succ_of_ne_zero (by omega : fuel ≠ 0)
  rw [hwritten, List.cons_append, readValue_eq_readScalar hc.1 hc.2.1 hc.2.2, readScalar,
    ← List.cons_append, hword]
  simp

theorem readsBack_int (value : Int) : ReadsBack (.int value) := by
  intro depth fuel rules rest hfuel hrules hrest
  obtain ⟨c, digits, hwritten, -⟩ := exists_toString_toList_eq_cons value
  have hdigits := hrules.digits value (by simp [integers])
  rw [writeValue] at hfuel ⊢
  rw [hwritten, List.length_cons] at hfuel
  obtain ⟨fuel, rfl⟩ := Nat.exists_eq_succ_of_ne_zero (by omega : fuel ≠ 0)
  exact readValue_toString_append hdigits hrest

theorem readsBack_string (content : String) : ReadsBack (.string content) := by
  intro depth fuel rules rest hfuel _ _
  have hlength := length_toList_add_two_le content
  rw [writeValue] at hfuel ⊢
  obtain ⟨fuel, rfl⟩ := Nat.exists_eq_succ_of_ne_zero (by omega : fuel ≠ 0)
  have hread := readString_writeString_append rules.surrogates content rest
    (by omega : content.toList.length < fuel)
  rw [writeString, List.cons_append, List.cons_append] at hread ⊢
  rw [readValue, hread]

section Containers

variable {depth fuel : Nat} {rules : Rules} {rest : List Char}

/-- The items of an array are read back up to its closing bracket. -/
theorem readItems_writeItems_append (outer : Nat) {item : Json} {items : List Json}
    (hplain : ∀ given ∈ item :: items, Plain given)
    (hitems : ∀ given ∈ item :: items, ReadsBack given)
    (hfuel : 2 * ((writeValue depth item).length + (writeItems depth items).length) < fuel)
    (hrules : ∀ given ∈ item :: items, rules.Allow given) :
    readItems fuel rules
        (writeValue depth item ++ (writeItems depth items ++ (newLine outer ++ ']' :: rest))) =
      .ok (item :: items, rest) := by
  induction items generalizing item fuel with
  | nil =>
    obtain ⟨fuel, rfl⟩ := Nat.exists_eq_succ_of_ne_zero (Nat.ne_zero_of_lt hfuel)
    have hread := hitems item List.mem_cons_self depth fuel rules (newLine outer ++ ']' :: rest)
      (by omega) (hrules item List.mem_cons_self) (endsNumber_newLine_append outer _)
    have hclosing : skipSpace (newLine outer ++ ']' :: rest) = ']' :: rest :=
      skipSpace_newLine_append outer _
    simp only [writeItems, List.nil_append, readItems, hread, hclosing]
  | cons next items ih =>
    obtain ⟨fuel, rfl⟩ := Nat.exists_eq_succ_of_ne_zero (Nat.ne_zero_of_lt hfuel)
    let behind := writeItems depth items ++ (newLine outer ++ ']' :: rest)
    have hlength : (writeItems depth (next :: items)).length =
        (newLine depth).length +
          ((writeValue depth next).length + (writeItems depth items).length) + 1 := by
      simp [writeItems]
    have htext : writeItems depth (next :: items) ++ (newLine outer ++ ']' :: rest) =
        ',' :: (newLine depth ++ (writeValue depth next ++ behind)) := by
      simp [writeItems, behind]
    rw [List.forall_mem_cons] at hplain hitems hrules
    have hread := hitems.1 depth fuel rules
      (',' :: (newLine depth ++ (writeValue depth next ++ behind))) (by omega) hrules.1
      (endsNumber_cons (by decide))
    have hnext := (hplain.2 next List.mem_cons_self).beginsToken depth
    have hspace : skipSpace (newLine depth ++ (writeValue depth next ++ behind)) =
        writeValue depth next ++ behind := by
      rw [skipSpace_newLine_append, (hnext.append _).skipSpace_eq]
    have hcomma : ∀ text, skipSpace (',' :: text) = ',' :: text := fun _ ↦ rfl
    have hfollowing := ih hplain.2 hitems.2 (by omega : _ < fuel) hrules.2
    simp only [htext, readItems, hread, hcomma, hspace]
    rw [hfollowing]

/-- One field of a new name is read onto the fields before it. -/
theorem readFields_field_append {name : String} {value : Json} {before : List (String × Json)}
    (hname : name ∉ before.map Prod.fst) (hplain : Plain value) (hvalue : ReadsBack value)
    (hfuel : 2 * ((writeString name).length + (writeValue depth value).length) ≤ fuel)
    (hrules : rules.Allow value) (hrest : EndsNumber rest) :
    readFields (fuel + 1) rules before
        (writeString name ++ ':' :: ' ' :: (writeValue depth value ++ rest)) =
      match skipSpace rest with
      | '\x7d' :: rest => .ok (before ++ [(name, value)], rest)
      | ',' :: rest => readFields fuel rules (before ++ [(name, value)]) (skipSpace rest)
      | rest => .error (.fault .expectingComma rest) := by
  have hlength := length_toList_add_two_le name
  let behind := writeValue depth value ++ rest
  let text := ':' :: ' ' :: behind
  have hstring : readString rules.surrogates fuel (writeString name ++ text) = .ok (name, text) :=
    readString_writeString_append rules.surrogates name text (by omega)
  have hcolon : skipSpace text = text := rfl
  have hblank : skipSpace (' ' :: behind) = behind :=
    ((hplain.beginsToken depth).append rest).skipSpace_eq
  have hread := hvalue depth fuel rules rest (by omega) hrules hrest
  have hset := setField_of_not_mem value hname
  have hstep := readFields.eq_def (fuel + 1) rules before (writeString name ++ text)
  rw [writeString, List.cons_append, List.cons_append] at hstring hstep ⊢
  simp only [hstring, hcolon, hblank, hread, hset, text, behind] at hstep
  exact hstep

theorem not_mem_names_of_nodup {name : String} {value : Json} {before fields : List (String × Json)}
    (hnames : ((before ++ (name, value) :: fields).map Prod.fst).Nodup) :
    name ∉ before.map Prod.fst := by
  rw [List.map_append, List.nodup_append] at hnames
  intro hmem
  exact hnames.2.2 name hmem name List.mem_cons_self rfl

/-- The fields of an object are read back up to its closing brace, onto fields of other names. -/
theorem readFields_writeFields_append (outer : Nat) {name : String} {value : Json}
    (before : List (String × Json)) {fields : List (String × Json)}
    (hnames : ((before ++ (name, value) :: fields).map Prod.fst).Nodup)
    (hplain : ∀ field ∈ (name, value) :: fields, Plain field.2)
    (hvalues : ∀ field ∈ (name, value) :: fields, ReadsBack field.2)
    (hfuel : 2 * ((writeString name).length + (writeValue depth value).length +
      (writeFields depth fields).length) < fuel)
    (hrules : ∀ field ∈ (name, value) :: fields, rules.Allow field.2) :
    readFields fuel rules before
        (writeString name ++ ':' :: ' ' :: (writeValue depth value ++
          (writeFields depth fields ++ (newLine outer ++ '\x7d' :: rest)))) =
      .ok (before ++ (name, value) :: fields, rest) := by
  induction fields generalizing name value before fuel with
  | nil =>
    obtain ⟨fuel, rfl⟩ := Nat.exists_eq_succ_of_ne_zero (Nat.ne_zero_of_lt hfuel)
    have hvalue : Plain value ∧ ReadsBack value :=
      ⟨hplain _ List.mem_cons_self, hvalues _ List.mem_cons_self⟩
    have hname := not_mem_names_of_nodup hnames
    have hclosing : skipSpace (newLine outer ++ '\x7d' :: rest) = '\x7d' :: rest :=
      skipSpace_newLine_append outer _
    rw [writeFields, List.nil_append, readFields_field_append hname hvalue.1 hvalue.2 (by omega)
      (hrules _ List.mem_cons_self) (endsNumber_newLine_append outer _)]
    simp only [hclosing]
  | cons next fields ih =>
    obtain ⟨fuel, rfl⟩ := Nat.exists_eq_succ_of_ne_zero (Nat.ne_zero_of_lt hfuel)
    obtain ⟨nextName, nextValue⟩ := next
    have hvalue : Plain value ∧ ReadsBack value :=
      ⟨hplain _ List.mem_cons_self, hvalues _ List.mem_cons_self⟩
    rw [List.forall_mem_cons] at hplain hvalues hrules
    let behind := writeValue depth nextValue ++ (writeFields depth fields ++
      (newLine outer ++ '\x7d' :: rest))
    have hlength : (writeFields depth ((nextName, nextValue) :: fields)).length =
        (newLine depth).length + ((writeString nextName).length +
          (writeValue depth nextValue).length + (writeFields depth fields).length) + 3 := by
      simp [writeFields]
      omega
    have htext : writeFields depth ((nextName, nextValue) :: fields) ++
        (newLine outer ++ '\x7d' :: rest) =
          ',' :: (newLine depth ++ (writeString nextName ++ ':' :: ' ' :: behind)) := by
      simp [writeFields, behind]
    have hcomma : ∀ text, skipSpace (',' :: text) = ',' :: text := fun _ ↦ rfl
    have hspace : skipSpace (newLine depth ++ (writeString nextName ++ ':' :: ' ' :: behind)) =
        writeString nextName ++ ':' :: ' ' :: behind := by
      rw [skipSpace_newLine_append, ((beginsToken_writeString nextName).append _).skipSpace_eq]
    have hlonger : before ++ (name, value) :: (nextName, nextValue) :: fields =
        before ++ [(name, value)] ++ (nextName, nextValue) :: fields :=
      List.append_cons ..
    have hname := not_mem_names_of_nodup hnames
    -- The reader sets this field behind the others, where the next ones find it.
    rw [hlonger] at hnames ⊢
    have hfollowing := ih (before ++ [(name, value)]) hnames hplain.2 hvalues.2
      (by omega : _ < fuel) hrules.2
    rw [htext, readFields_field_append hname hvalue.1 hvalue.2 (by omega) hrules.1
      (endsNumber_cons (by decide)), hcomma]
    simp only [hspace]
    exact hfollowing

theorem readsBack_array {items : List Json} (hplain : ∀ item ∈ items, Plain item)
    (hitems : ∀ item ∈ items, ReadsBack item) : ReadsBack (.array items) := by
  intro depth fuel rules rest hfuel hrules _
  cases items with
  | nil =>
    have hempty : (writeValue depth (.array [])).length = 2 := by rw [writeValue]; rfl
    obtain ⟨fuel, rfl⟩ := Nat.exists_eq_succ_of_ne_zero (by omega : fuel ≠ 0)
    obtain ⟨inner, hinside, -⟩ := hrules.inside_array
    have hclosing : skipSpace (']' :: rest) = ']' :: rest := rfl
    simp [writeValue, readValue, hinside, hclosing]
  | cons item items =>
    let behind := writeValue (depth + 1) item ++ (writeItems (depth + 1) items ++
      (newLine depth ++ ']' :: rest))
    have hlength : (writeValue depth (.array (item :: items))).length =
        (newLine (depth + 1)).length + ((writeValue (depth + 1) item).length +
          (writeItems (depth + 1) items).length) + (newLine depth).length + 2 := by
      simp [writeValue]
      omega
    have htext : writeValue depth (.array (item :: items)) ++ rest =
        '[' :: (newLine (depth + 1) ++ behind) := by
      simp [writeValue, behind]
    rw [hlength] at hfuel
    obtain ⟨fuel, rfl⟩ := Nat.exists_eq_succ_of_ne_zero (by omega : fuel ≠ 0)
    obtain ⟨inner, hinside, hinner⟩ := hrules.inside_array
    have htoken : BeginsToken behind := ((hplain item List.mem_cons_self).beginsToken _).append _
    have hspace : skipSpace (newLine (depth + 1) ++ behind) = behind := by
      rw [skipSpace_newLine_append, htoken.skipSpace_eq]
    have hread : readItems fuel inner behind = .ok (item :: items, rest) :=
      readItems_writeItems_append depth hplain hitems (by omega) hinner
    obtain ⟨c, tail, hbehind, -, hclosing, -⟩ := htoken
    rw [hbehind] at hspace hread
    rw [htext, hbehind]
    simp [readValue, hinside, hspace, hclosing, hread]

theorem readsBack_object {fields : List (String × Json)} (hnames : (fields.map Prod.fst).Nodup)
    (hplain : ∀ field ∈ fields, Plain field.2) (hvalues : ∀ field ∈ fields, ReadsBack field.2) :
    ReadsBack (.object fields) := by
  intro depth fuel rules rest hfuel hrules _
  cases fields with
  | nil =>
    have hempty : (writeValue depth (.object [])).length = 2 := by rw [writeValue]; rfl
    obtain ⟨fuel, rfl⟩ := Nat.exists_eq_succ_of_ne_zero (by omega : fuel ≠ 0)
    obtain ⟨inner, hinside, -⟩ := hrules.inside_object
    have hclosing : skipSpace ('\x7d' :: rest) = '\x7d' :: rest := rfl
    simp [writeValue, readValue, hinside, hclosing]
  | cons field fields =>
    obtain ⟨name, value⟩ := field
    let behind := writeString name ++ ':' :: ' ' :: (writeValue (depth + 1) value ++
      (writeFields (depth + 1) fields ++ (newLine depth ++ '\x7d' :: rest)))
    have hlength : (writeValue depth (.object ((name, value) :: fields))).length =
        (newLine (depth + 1)).length + ((writeString name).length +
          (writeValue (depth + 1) value).length + (writeFields (depth + 1) fields).length) +
            (newLine depth).length + 2 + 2 := by
      simp [writeValue]
      omega
    have htext : writeValue depth (.object ((name, value) :: fields)) ++ rest =
        '\x7b' :: (newLine (depth + 1) ++ behind) := by
      simp [writeValue, behind]
    rw [hlength] at hfuel
    obtain ⟨fuel, rfl⟩ := Nat.exists_eq_succ_of_ne_zero (by omega : fuel ≠ 0)
    obtain ⟨inner, hinside, hinner⟩ := hrules.inside_object
    have hspace : skipSpace (newLine (depth + 1) ++ behind) = behind := by
      rw [skipSpace_newLine_append, ((beginsToken_writeString name).append _).skipSpace_eq]
    have hread : readFields fuel inner [] behind = .ok ((name, value) :: fields, rest) :=
      readFields_writeFields_append depth [] hnames hplain hvalues (by omega) hinner
    obtain ⟨tail, hbehind⟩ : ∃ tail, behind = '\x22' :: tail := ⟨_, rfl⟩
    rw [hbehind] at hspace hread
    rw [htext, hbehind]
    simp [readValue, hinside, hspace, hread]

end Containers

/-- The induction over the value: a container is read back when what it holds is read back. -/
theorem Plain.readsBack {value : Json} (hvalue : Plain value) : ReadsBack value := by
  induction hvalue with
  | null => exact readsBack_of_word (fun _ ↦ by rw [writeValue]; rfl) (by decide) fun _ ↦ rfl
  | bool value => cases value with
    | false => exact readsBack_of_word (fun _ ↦ by rw [writeValue]; rfl) (by decide) fun _ ↦ rfl
    | true => exact readsBack_of_word (fun _ ↦ by rw [writeValue]; rfl) (by decide) fun _ ↦ rfl
  | int value => exact readsBack_int value
  | string content => exact readsBack_string content
  | array hitems ih => exact readsBack_array hitems ih
  | object hnames hvalues ih => exact readsBack_object hnames hvalues ih

/-- A document is read back to the value that it was written for, within limits that the value keeps
to. -/
theorem parseWithin_document {value : Json} {rules : Rules} (hvalue : Plain value)
    (hrules : rules.Allow value) : parseWithin rules (document value) = .ok value := by
  let written := writeValue 0 value
  have htoken := hvalue.beginsToken 0
  have htext : (document value).toList = written ++ ['\n'] := String.toList_ofList ..
  have hread : readValue (2 * (written ++ ['\n']).length + 2) rules (written ++ ['\n']) =
      .ok (value, ['\n']) := by
    refine hvalue.readsBack 0 _ _ _ ?_ hrules (endsNumber_cons (by decide))
    have hle : written.length ≤ (written ++ ['\n']).length := by simp
    exact Nat.le_trans (Nat.mul_le_mul_left 2 hle) (Nat.le_add_right ..)
  have hspace : skipSpace (written ++ ['\n']) = written ++ ['\n'] := (htoken.append _).skipSpace_eq
  have hend : skipSpace ['\n'] = [] := rfl
  have hmark : (written ++ ['\n']).head? ≠ some '\ufeff' := by
    obtain ⟨c, tail, hwritten, -, -, hc⟩ := htoken.append ['\n']
    rw [hwritten]
    simpa using hc
  rw [parseWithin, readWhole, htext, if_neg hmark, hspace, hread]
  simp only [hend]
  rfl

/-! ### The length of a text as a limit -/

theorem length_le_writeItems {depth : Nat} {item : Json} {items : List Json}
    (hitem : item ∈ items) :
    (writeValue depth item).length ≤ (writeItems depth items).length := by
  induction items with
  | nil => cases hitem
  | cons first items ih =>
    simp only [writeItems, List.length_append, List.length_cons]
    rcases List.mem_cons.mp hitem with rfl | hmem
    · omega
    · have hrest := ih hmem
      omega

theorem length_le_writeFields {depth : Nat} {field : String × Json}
    {fields : List (String × Json)} (hfield : field ∈ fields) :
    (writeValue depth field.2).length ≤ (writeFields depth fields).length := by
  induction fields with
  | nil => cases hfield
  | cons first fields ih =>
    simp only [writeFields, List.length_append, List.length_cons]
    rcases List.mem_cons.mp hfield with rfl | hmem
    · omega
    · have hrest := ih hmem
      omega

/-- What an array holds is shorter by a character at least. -/
theorem length_lt_writeValue_array {depth : Nat} {item : Json} {items : List Json}
    (hitem : item ∈ items) :
    (writeValue (depth + 1) item).length < (writeValue depth (.array items)).length := by
  cases items with
  | nil => cases hitem
  | cons first items =>
    simp only [writeValue, List.length_append, List.length_cons]
    rcases List.mem_cons.mp hitem with rfl | hmem
    · omega
    · have hrest : (writeValue (depth + 1) item).length ≤ (writeItems (depth + 1) items).length :=
        length_le_writeItems hmem
      omega

theorem length_lt_writeValue_object {depth : Nat} {field : String × Json}
    {fields : List (String × Json)} (hfield : field ∈ fields) :
    (writeValue (depth + 1) field.2).length < (writeValue depth (.object fields)).length := by
  cases fields with
  | nil => cases hfield
  | cons first fields =>
    simp only [writeValue, List.length_append, List.length_cons]
    rcases List.mem_cons.mp hfield with rfl | hmem
    · omega
    · have hrest : (writeValue (depth + 1) field.2).length ≤
          (writeFields (depth + 1) fields).length :=
        length_le_writeFields hmem
      omega

/-- The length of the written value allows for it on both counts. -/
theorem Plain.allow_of_length_le {value : Json} (hvalue : Plain value) {depth : Nat} {rules : Rules}
    (hdigits : (writeValue depth value).length ≤ rules.digits)
    (hlevels : (writeValue depth value).length ≤ rules.levels) : rules.Allow value := by
  induction hvalue generalizing depth rules with
  | null => exact ⟨List.forall_mem_nil _, Nat.zero_le _⟩
  | bool value => exact ⟨List.forall_mem_nil _, Nat.zero_le _⟩
  | string content => exact ⟨List.forall_mem_nil _, Nat.zero_le _⟩
  | int value =>
    rw [writeValue] at hdigits
    refine ⟨List.forall_mem_singleton.mpr ?_, Nat.zero_le _⟩
    exact Nat.le_trans (length_toDigits_le value) hdigits
  | @array items _ ih =>
    have hheld : ∀ item ∈ items,
        ({ rules with levels := rules.levels - 1 } : Rules).Allow item := by
      intro item hitem
      have hlt : (writeValue (depth + 1) item).length < (writeValue depth (.array items)).length :=
        length_lt_writeValue_array hitem
      exact ih item hitem (Nat.le_trans (Nat.le_of_lt hlt) hdigits)
        (Nat.le_sub_one_of_lt (Nat.lt_of_lt_of_le hlt hlevels))
    have hpositive : 1 ≤ rules.levels := by
      refine Nat.le_trans ?_ hlevels
      cases items <;> simp [writeValue]
    refine ⟨fun number hnumber ↦ ?_, ?_⟩
    · rw [integers_array] at hnumber
      obtain ⟨item, hitem, hnumber⟩ := List.mem_flatMap.mp hnumber
      exact (hheld item hitem).digits number hnumber
    · rw [height, ← Nat.le_sub_iff_add_le hpositive, itemsHeight_le_iff]
      exact fun item hitem ↦ (hheld item hitem).levels
  | @object fields _ _ ih =>
    have hheld : ∀ field ∈ fields,
        ({ rules with levels := rules.levels - 1 } : Rules).Allow field.2 := by
      intro field hfield
      have hlt : (writeValue (depth + 1) field.2).length <
          (writeValue depth (.object fields)).length :=
        length_lt_writeValue_object hfield
      exact ih field hfield (Nat.le_trans (Nat.le_of_lt hlt) hdigits)
        (Nat.le_sub_one_of_lt (Nat.lt_of_lt_of_le hlt hlevels))
    have hpositive : 1 ≤ rules.levels := by
      refine Nat.le_trans ?_ hlevels
      cases fields <;> simp [writeValue]
    refine ⟨fun number hnumber ↦ ?_, ?_⟩
    · rw [integers_object] at hnumber
      obtain ⟨field, hfield, hnumber⟩ := List.mem_flatMap.mp hnumber
      exact (hheld field hfield).digits number hnumber
    · rw [height, ← Nat.le_sub_iff_add_le hpositive, fieldsHeight_le_iff]
      exact fun field hfield ↦ (hheld field hfield).levels

/-- A document is parsed to the value that it was written for. -/
theorem parse_document {value : Json} (hvalue : Plain value) :
    parse (document value) = .ok value := by
  have hlength : (writeValue 0 value).length ≤ (document value).length := by
    rw [← String.length_toList, document, String.toList_ofList, List.length_append]
    exact Nat.le_add_right ..
  exact parseWithin_document hvalue (hvalue.allow_of_length_le hlength hlength)

end HelpSheet.Json
