import Mathlib.Data.List.TakeDrop
import Mathlib.Data.List.TakeWhile
import HelpSheet.Json.Reader

/-!
# Limits of the reader

The reader takes its values from the front of a text and leaves an end of it (`ReadsFront`). On its
way it goes beyond a limit only in a text that does so itself (`Exceeds`): with more digits in a
row, or more brackets that open containers (`exceeds_of_parseWithin`).
-/

set_option autoImplicit false
set_option relaxedAutoImplicit false

namespace HelpSheet.Json

variable {α : Type} {beyond : Prop} {rules : Rules} {fuel : Nat} {string text rest : List Char}

/-! ### Texts beyond limits -/

/-- Whether a character opens a container. -/
def opens (c : Char) : Bool :=
  c = '[' || c = '\x7b'

/-- A text with more digits in a row than limits allow, or with more opening brackets. -/
def Exceeds (rules : Rules) (text : List Char) : Prop :=
  (∃ digits, digits <:+: text ∧ (∀ c ∈ digits, c.isDigit = true) ∧
    rules.digits < digits.length) ∨ rules.levels < text.countP opens

theorem Exceeds.mono (hrest : rest <:+ text) (hexceeds : Exceeds rules rest) :
    Exceeds rules text := by
  rcases hexceeds with ⟨digits, hinfix, hdigits, hlength⟩ | hlevels
  · exact .inl ⟨digits, hinfix.trans hrest.isInfix, hdigits, hlength⟩
  · exact .inr (Nat.lt_of_lt_of_le hlevels hrest.sublist.countP_le)

/-- Inside a container, a text goes beyond the limits if it does so together with the bracket. -/
theorem Exceeds.of_inside {inner : Rules} {container : Container} {c : Char} (hopens : opens c)
    (hinside : rules.inside container = .ok inner) (hexceeds : Exceeds inner rest) :
    Exceeds rules (c :: rest) := by
  unfold Rules.inside at hinside
  split at hinside
  · cases hinside
  · next levels hlevels =>
    obtain rfl := Except.ok.inj hinside
    rcases hexceeds with ⟨digits, hinfix, hdigits, hlength⟩ | hcount
    · exact .inl ⟨digits, hinfix.trans (List.suffix_cons c rest).isInfix, hdigits, hlength⟩
    · refine .inr ?_
      rw [List.countP_cons_of_pos hopens]
      have hcount' : levels < rest.countP opens := hcount
      omega

/-! ### Readers -/

/-- Whether a stop at a limit has a reason. -/
def Stop.HasReason (beyond : Prop) : Stop → Prop
  | excess _ => beyond
  | fault _ _ => True

/-- A reader leaves an end of its text, or goes beyond a limit for a reason, or finds a fault. -/
inductive ReadsFront (beyond : Prop) (text : List Char) : Reading α → Prop
  | ok {value : α} {rest : List Char} (hrest : rest <:+ text) :
      ReadsFront beyond text (.ok (value, rest))
  | error {found : Stop} (hreason : found.HasReason beyond) :
      ReadsFront beyond text (.error found)

theorem ReadsFront.fault {found : SyntaxFault} {place : List Char} :
    ReadsFront beyond text (.error (.fault found place) : Reading α) :=
  .error trivial

theorem Stop.HasReason.mono {beyond' : Prop} {found : Stop} (hbeyond : beyond → beyond')
    (hreason : found.HasReason beyond) : found.HasReason beyond' := by
  cases found with
  | excess _ => exact hbeyond hreason
  | fault _ _ => trivial

theorem ReadsFront.mono {beyond' : Prop} {reading : Reading α} (hrest : rest <:+ text)
    (hbeyond : beyond → beyond') (hreads : ReadsFront beyond rest reading) :
    ReadsFront beyond' text reading := by
  cases hreads with
  | ok hafter => exact .ok (hafter.trans hrest)
  | error hreason => exact .error (hreason.mono hbeyond)

/-- Without a level left, a bracket goes beyond the limits. -/
theorem hasReason_of_inside {container : Container} {c : Char} {found : Stop} (hopens : opens c)
    (hinside : rules.inside container = .error found) :
    found.HasReason (Exceeds rules (c :: rest)) := by
  unfold Rules.inside at hinside
  split at hinside
  · next hlevels =>
    obtain rfl := Except.error.inj hinside
    refine .inr ?_
    rw [hlevels, List.countP_cons_of_pos hopens]
    omega
  · cases hinside

/-! ### Strings -/

theorem readsFront_readHexQuad (text : List Char) : ReadsFront False text (readHexQuad text) := by
  unfold readHexQuad
  split
  · next first a b c d rest =>
    split
    · split
      · exact .fault
      · exact .ok ⟨[first, a, b, c, d], rfl⟩
    · exact .fault
  · exact .fault

theorem readsFront_readLowSurrogate (surrogates : Text.Surrogates) (high : Nat) (text : List Char) :
    ReadsFront False text (readLowSurrogate surrogates high text) := by
  unfold readLowSurrogate
  split
  · next rest =>
    split
    · exact .ok (List.suffix_refl _)
    · have hquad := readsFront_readHexQuad ('u' :: rest)
      generalize readHexQuad ('u' :: rest) = quad at hquad ⊢
      cases hquad with
      | ok hafter =>
        dsimp only
        split
        · exact .ok (hafter.trans (List.suffix_cons _ _))
        · exact .ok (List.suffix_refl _)
      | error hreason => exact .error hreason
  · exact .ok (List.suffix_refl _)

theorem readsFront_readUnicodeEscape (surrogates : Text.Surrogates) (text : List Char) :
    ReadsFront False text (readUnicodeEscape surrogates text) := by
  have hquad := readsFront_readHexQuad text
  unfold readUnicodeEscape
  generalize readHexQuad text = quad at hquad ⊢
  cases hquad with
  | @ok unit rest hrest =>
    dsimp only
    split
    · exact (readsFront_readLowSurrogate surrogates unit rest).mono hrest id
    · exact .ok hrest
  | error hreason => exact .error hreason

theorem readsFront_readEscape (surrogates : Text.Surrogates) (string text : List Char) :
    ReadsFront False text (readEscape surrogates string text) := by
  have hdrop := List.drop_suffix 1 text
  unfold readEscape
  generalize text.drop 1 = after at hdrop ⊢
  split
  · exact .fault
  · exact (readsFront_readUnicodeEscape surrogates _).mono hdrop id
  · next c rest _ =>
    split
    · exact .ok ((List.suffix_cons c rest).trans hdrop)
    · exact .fault

theorem readsFront_readChars (surrogates : Text.Surrogates) (fuel : Nat) (string text : List Char) :
    ReadsFront False text (readChars surrogates fuel string text) := by
  induction fuel generalizing text with
  | zero => exact .fault
  | succ fuel ih =>
    cases text with
    | nil => exact .fault
    | cons c rest =>
      have hrest := List.suffix_cons c rest
      have hescape := readsFront_readEscape surrogates string (c :: rest)
      have hplain := ih rest
      rw [readChars]
      generalize readEscape surrogates string (c :: rest) = escape at hescape ⊢
      generalize readChars surrogates fuel string rest = plain at hplain ⊢
      split
      · exact .ok hrest
      · split
        · cases hescape with
          | @ok meant after hafter =>
            have hchars := ih after
            dsimp only
            generalize readChars surrogates fuel string after = chars at hchars ⊢
            cases hchars with
            | ok hend => exact .ok (hend.trans hafter)
            | error hreason => exact .error hreason
          | error hreason => exact .error hreason
        · split
          · exact .fault
          · cases hplain with
            | ok hend => exact .ok (hend.trans hrest)
            | error hreason => exact .error hreason

theorem readsFront_readString (surrogates : Text.Surrogates) (fuel : Nat) (text : List Char) :
    ReadsFront False text (readString surrogates fuel text) := by
  have hchars := readsFront_readChars surrogates fuel text (text.drop 1)
  unfold readString
  generalize readChars surrogates fuel text (text.drop 1) = chars at hchars ⊢
  cases hchars with
  | ok hrest => exact .ok (hrest.trans (List.drop_suffix 1 text))
  | error hreason => exact .error hreason

/-! ### Numbers -/

theorem spanDigits_spec (text : List Char) :
    (spanDigits text).1 ++ (spanDigits text).2 = text ∧
      ∀ c ∈ (spanDigits text).1, c.isDigit = true := by
  rw [spanDigits, List.span_eq_takeWhile_dropWhile]
  exact ⟨List.takeWhile_append_dropWhile, fun c hc ↦ List.mem_takeWhile_imp hc⟩

theorem spanDigits_suffix (text : List Char) : (spanDigits text).2 <:+ text :=
  ⟨(spanDigits text).1, (spanDigits_spec text).1⟩

/-- The integer part is made of the digits at the front of the text. -/
theorem integerPart?_spec {digits : List Char} (hpart : integerPart? text = some (digits, rest)) :
    digits ++ rest = text ∧ ∀ c ∈ digits, c.isDigit = true := by
  have hspan := spanDigits_spec text
  unfold integerPart? at hpart
  split at hpart
  · cases hpart
    exact ⟨rfl, by simp⟩
  · split at hpart
    · cases hpart
    · rwa [Option.some.inj hpart] at hspan

theorem fractionPart_suffix (text : List Char) : (fractionPart text).2 <:+ text := by
  unfold fractionPart
  split
  · next rest =>
    have hspan := spanDigits_suffix rest
    split
    · exact List.suffix_refl _
    · next digits after hne hdigits =>
      rw [hdigits] at hspan
      exact hspan.trans (List.suffix_cons _ _)
  · exact List.suffix_refl _

theorem exponentPart_suffix (text : List Char) : (exponentPart text).2 <:+ text := by
  unfold exponentPart
  split
  · next e rest =>
    split
    · split
      next sign digits hsigned =>
        have hdigits : digits <:+ rest := by
          split at hsigned <;> cases hsigned
          · exact List.suffix_cons _ _
          · exact List.suffix_cons _ _
          · exact List.suffix_refl _
        have hspan := spanDigits_suffix digits
        split
        · exact List.suffix_refl _
        · next after hne hspanned =>
          rw [hspanned] at hspan
          exact (hspan.trans hdigits).trans (List.suffix_cons _ _)
    · exact List.suffix_refl _
  · exact List.suffix_refl _

/-- Only the digits of a number can be too many. -/
theorem readsFront_readNumber (rules : Rules) (text : List Char) :
    ReadsFront (Exceeds rules text) text (readNumber rules text) := by
  unfold readNumber
  split
  next negative unsigned hunsigned =>
    have hfront : unsigned <:+ text := by
      split at hunsigned <;> cases hunsigned
      · exact List.suffix_cons _ _
      · exact List.suffix_refl _
    split
    · exact .fault
    · next digits rest hpart =>
      obtain ⟨hsplit, hdigits⟩ := integerPart?_spec hpart
      have hrest : rest <:+ unsigned := ⟨digits, hsplit⟩
      have hend := (exponentPart_suffix (fractionPart rest).2).trans (fractionPart_suffix rest)
      have hend := (hend.trans hrest).trans hfront
      dsimp only
      split
      · split
        · next fault hfault =>
          refine .error (.inl ⟨digits, ?_, hdigits, ?_⟩)
          · exact (List.IsPrefix.isInfix ⟨rest, hsplit⟩).trans hfront.isInfix
          · unfold Text.Numeral.tooLong? at hfault
            split at hfault
            · cases hfault
            · next hlong => exact Nat.lt_of_not_le hlong
        · exact .ok hend
      · exact .ok hend

/-! ### Values -/

theorem readsFront_readScalar (rules : Rules) (text : List Char) :
    ReadsFront (Exceeds rules text) text (readScalar rules text) := by
  unfold readScalar
  split
  · exact .ok (List.drop_suffix _ _)
  · exact readsFront_readNumber rules text

theorem skipSpace_suffix (text : List Char) : skipSpace text <:+ text :=
  List.dropWhile_suffix isSpace

theorem suffix_of_skipSpace {c : Char} {after : List Char} (hskip : skipSpace rest = c :: after)
    (hrest : rest <:+ text) : after <:+ text :=
  ((List.suffix_cons c after).trans (hskip ▸ skipSpace_suffix rest)).trans hrest

/-- What is read behind spaces is read so in the whole text. -/
theorem ReadsFront.skipping {reading : Reading α} (hrest : rest <:+ text)
    (hreads : ReadsFront (Exceeds rules (skipSpace rest)) (skipSpace rest) reading) :
    ReadsFront (Exceeds rules text) text reading := by
  have hskipped := (skipSpace_suffix rest).trans hrest
  exact hreads.mono hskipped (Exceeds.mono hskipped)

/-- What is read inside a container is read so from its bracket on. -/
theorem ReadsFront.of_inside {inner : Rules} {container : Container} {c : Char}
    {reading : Reading α} (hopens : opens c) (hinside : rules.inside container = .ok inner)
    (hreads : ReadsFront (Exceeds inner (skipSpace rest)) (skipSpace rest) reading) :
    ReadsFront (Exceeds rules (c :: rest)) (c :: rest) reading :=
  (hreads.skipping (List.suffix_refl rest)).mono (List.suffix_cons c rest) fun hexceeds ↦
    hexceeds.of_inside hopens hinside

/-- With one step more, a value is read so if its parts are. -/
theorem readsFront_readValue_succ
    (hitems : ∀ rules text, ReadsFront (Exceeds rules text) text (readItems fuel rules text))
    (hfields : ∀ rules fields text,
      ReadsFront (Exceeds rules text) text (readFields fuel rules fields text))
    (rules : Rules) (text : List Char) :
    ReadsFront (Exceeds rules text) text (readValue (fuel + 1) rules text) := by
  rw [readValue.eq_def]
  dsimp only
  split
  · next rest =>
    have hstring := readsFront_readString rules.surrogates fuel ('\x22' :: rest)
    generalize readString rules.surrogates fuel ('\x22' :: rest) = string at hstring ⊢
    cases hstring with
    | ok hrest => exact .ok hrest
    | error hreason => exact .error (hreason.mono False.elim)
  · next rest =>
    split
    · next found hinside => exact .error (hasReason_of_inside rfl hinside)
    · next inner hinside =>
      split
      · next after hskip => exact .ok (suffix_of_skipSpace hskip (List.suffix_cons '[' rest))
      · have hread := ReadsFront.of_inside (c := '[') rfl hinside (hitems inner (skipSpace rest))
        generalize readItems fuel inner (skipSpace rest) = items at hread ⊢
        cases hread with
        | ok hrest => exact .ok hrest
        | error hreason => exact .error hreason
  · next rest =>
    split
    · next found hinside => exact .error (hasReason_of_inside rfl hinside)
    · next inner hinside =>
      split
      · next after hskip => exact .ok (suffix_of_skipSpace hskip (List.suffix_cons '\x7b' rest))
      · have hread := ReadsFront.of_inside (c := '\x7b') rfl hinside
          (hfields inner [] (skipSpace rest))
        generalize readFields fuel inner [] (skipSpace rest) = fields at hread ⊢
        cases hread with
        | ok hrest => exact .ok hrest
        | error hreason => exact .error hreason
  · exact readsFront_readScalar rules text

theorem readsFront_readItems_succ
    (hvalue : ∀ rules text, ReadsFront (Exceeds rules text) text (readValue fuel rules text))
    (hitems : ∀ rules text, ReadsFront (Exceeds rules text) text (readItems fuel rules text))
    (rules : Rules) (text : List Char) :
    ReadsFront (Exceeds rules text) text (readItems (fuel + 1) rules text) := by
  rw [readItems.eq_def]
  dsimp only
  have hitem := hvalue rules text
  generalize readValue fuel rules text = item at hitem ⊢
  cases hitem with
  | error hreason => exact .error hreason
  | @ok item rest hrest =>
    dsimp only
    split
    · next after hskip => exact .ok (suffix_of_skipSpace hskip hrest)
    · next after hskip =>
      have hread := (hitems rules (skipSpace after)).skipping (suffix_of_skipSpace hskip hrest)
      generalize readItems fuel rules (skipSpace after) = items at hread ⊢
      cases hread with
      | ok hend => exact .ok hend
      | error hreason => exact .error hreason
    · exact .fault

theorem readsFront_readFields_succ
    (hvalue : ∀ rules text, ReadsFront (Exceeds rules text) text (readValue fuel rules text))
    (hfields : ∀ rules fields text,
      ReadsFront (Exceeds rules text) text (readFields fuel rules fields text))
    (rules : Rules) (fields : List (String × Json)) (text : List Char) :
    ReadsFront (Exceeds rules text) text (readFields (fuel + 1) rules fields text) := by
  rw [readFields.eq_def]
  dsimp only
  split
  · next rest =>
    have hname := readsFront_readString rules.surrogates fuel ('\x22' :: rest)
    generalize readString rules.surrogates fuel ('\x22' :: rest) = name at hname ⊢
    cases hname with
    | error hreason => exact .error (hreason.mono False.elim)
    | @ok name rest hrest =>
      dsimp only
      split
      · next after hskip =>
        have hread := (hvalue rules (skipSpace after)).skipping (suffix_of_skipSpace hskip hrest)
        generalize readValue fuel rules (skipSpace after) = value at hread ⊢
        cases hread with
        | error hreason => exact .error hreason
        | @ok value rest hrest =>
          dsimp only
          split
          · next after hskip => exact .ok (suffix_of_skipSpace hskip hrest)
          · next after hskip =>
            exact (hfields rules _ (skipSpace after)).skipping (suffix_of_skipSpace hskip hrest)
          · exact .fault
      · exact .fault
  · exact .fault

/-- The readers of values, items and fields together, by induction on the fuel that they share. -/
theorem readsFront_values (fuel : Nat) :
    (∀ rules text, ReadsFront (Exceeds rules text) text (readValue fuel rules text)) ∧
      (∀ rules text, ReadsFront (Exceeds rules text) text (readItems fuel rules text)) ∧
      ∀ rules fields text,
        ReadsFront (Exceeds rules text) text (readFields fuel rules fields text) := by
  induction fuel with
  | zero =>
    refine ⟨fun rules text ↦ ?_, fun rules text ↦ ?_, fun rules fields text ↦ ?_⟩
    · rw [readValue.eq_def]
      exact .fault
    · rw [readItems.eq_def]
      exact .fault
    · rw [readFields.eq_def]
      exact .fault
  | succ fuel ih =>
    obtain ⟨hvalue, hitems, hfields⟩ := ih
    exact ⟨readsFront_readValue_succ hitems hfields, readsFront_readItems_succ hvalue hitems,
      readsFront_readFields_succ hvalue hfields⟩

/-- The reader goes beyond a limit only in a text that does so. -/
theorem exceeds_of_parseWithin {text : String} {excess : Excess}
    (hexcess : parseWithin rules text = .error (.excess excess)) :
    Exceeds rules text.toList := by
  have hread := ((readsFront_values (2 * text.toList.length + 2)).1 rules
    (skipSpace text.toList)).skipping (List.suffix_refl text.toList)
  unfold parseWithin readWhole at hexcess
  split at hexcess
  · cases hexcess
  · generalize readValue (2 * text.toList.length + 2) rules (skipSpace text.toList) = reading
      at hread hexcess
    cases hread with
    | ok hrest =>
      dsimp only at hexcess
      split at hexcess <;> cases hexcess
    | @error found hreason =>
      cases found with
      | excess found => exact hreason
      | fault found place => cases hexcess

end HelpSheet.Json
