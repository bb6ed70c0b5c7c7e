import Mathlib.Algebra.Ring.Parity
import Mathlib.Data.List.Chain
import Mathlib.Data.List.DropRight
import HelpSheet.Markup.Glyph
import HelpSheet.Proofs.Markdown.Reading

/-!
# Names in Markdown

Names, paths and headings are written with a backslash before every special character. A reader of
Markdown takes a backslash before punctuation away and with it the role of the character behind it.
The writer adds no backslash to the backslashes of the name itself, so the reader pairs these with
what follows: a special character is live exactly behind an odd number of backslashes of the name,
and a backslash is lost exactly before other punctuation (`glyphs_escaped_iff`).
-/

set_option autoImplicit false
set_option relaxedAutoImplicit false

namespace HelpSheet.Escape.Markdown

open Markup (Glyph)
open Markup.Glyph (bare)

/-! ### Reading literal text -/

/-- Reads text from left to right. A backslash before punctuation makes the punctuation literal; any
other character stands for itself. -/
def glyphs : List Char → List Glyph
  | [] => []
  | [c] => [bare c]
  | c :: d :: rest =>
    if c = '\\' && isPunctuation d then ⟨d, true⟩ :: glyphs rest else bare c :: glyphs (d :: rest)

theorem glyphs_cons_of_ne {c : Char} (hc : c ≠ '\\') (rest : List Char) :
    glyphs (c :: rest) = bare c :: glyphs rest := by
  cases rest with
  | nil => rfl
  | cons d rest => simp [glyphs, hc]

theorem glyphs_backslash_cons {d : Char} (hd : isPunctuation d) (rest : List Char) :
    glyphs ('\\' :: d :: rest) = ⟨d, true⟩ :: glyphs rest := by
  simp [glyphs, hd]

theorem isPunctuation_backslash : isPunctuation '\\' := by decide

theorem glyphs_backslash_cons_of_not {d : Char} (hd : ¬ isPunctuation d) (rest : List Char) :
    glyphs ('\\' :: d :: rest) = bare '\\' :: bare d :: glyphs rest := by
  have hne : d ≠ '\\' := by
    rintro rfl
    exact hd isPunctuation_backslash
  rw [← glyphs_cons_of_ne hne]
  simp [glyphs, hd]

theorem isPunctuation_of_isSpecial {c : Char} (hc : isSpecial c) : isPunctuation c := by
  simp only [isSpecial, Bool.or_eq_true, decide_eq_true_eq] at hc
  rcases hc with ((((((rfl | rfl) | rfl) | rfl) | rfl) | rfl) | rfl) | rfl <;> decide

theorem not_isSpecial_backslash : ¬ isSpecial '\\' := by decide

/-! ### Reading what was written -/

variable {rest : List Char}

theorem escape_cons (c : Char) (rest : List Char) :
    escape (c :: rest) = (if isSpecial c then ['\\', c] else [c]) ++ escape rest :=
  List.flatMap_cons

theorem escape_backslash_cons (rest : List Char) : escape ('\\' :: rest) = '\\' :: escape rest := by
  rw [escape_cons, if_neg not_isSpecial_backslash, List.singleton_append]

/-- Without a backslash before it a character is read as it was written. -/
theorem glyphs_escape_cons_of_ne {c : Char} (hc : c ≠ '\\') (rest : List Char) :
    glyphs (escape (c :: rest)) = ⟨c, isSpecial c⟩ :: glyphs (escape rest) := by
  rw [escape_cons]
  by_cases hspecial : isSpecial c
  · rw [if_pos hspecial, hspecial]
    exact glyphs_backslash_cons (isPunctuation_of_isSpecial hspecial) _
  · rw [if_neg hspecial, Bool.eq_false_iff.mpr hspecial]
    exact glyphs_cons_of_ne hc _

/-- The backslash that was added is read as the second one of a pair. -/
theorem glyphs_escape_backslash_special {d : Char} (hd : isSpecial d) (rest : List Char) :
    glyphs (escape ('\\' :: d :: rest)) = ⟨'\\', true⟩ :: bare d :: glyphs (escape rest) := by
  have hne : d ≠ '\\' := by
    rintro rfl
    exact not_isSpecial_backslash hd
  rw [escape_backslash_cons, escape_cons, if_pos hd]
  change glyphs ('\\' :: '\\' :: d :: escape rest) = _
  rw [glyphs_backslash_cons isPunctuation_backslash, glyphs_cons_of_ne hne]

theorem glyphs_escape_backslash_punctuation {d : Char} (hd : isPunctuation d)
    (hspecial : ¬ isSpecial d) (rest : List Char) :
    glyphs (escape ('\\' :: d :: rest)) = ⟨d, true⟩ :: glyphs (escape rest) := by
  rw [escape_backslash_cons, escape_cons, if_neg hspecial]
  exact glyphs_backslash_cons hd _

theorem glyphs_escape_backslash_other {d : Char} (hd : ¬ isPunctuation d) (rest : List Char) :
    glyphs (escape ('\\' :: d :: rest)) = bare '\\' :: bare d :: glyphs (escape rest) := by
  have hspecial : ¬ isSpecial d := fun h ↦ hd (isPunctuation_of_isSpecial h)
  rw [escape_backslash_cons, escape_cons, if_neg hspecial]
  exact glyphs_backslash_cons_of_not hd _

/-- A text goes on with a character that is no backslash, or with a backslash and the character
behind it. -/
@[elab_as_elim]
theorem pairs_induction {motive : List Char → Prop} (nil : motive []) (last : motive ['\\'])
    (char : ∀ c rest, c ≠ '\\' → motive rest → motive (c :: rest))
    (pair : ∀ d rest, motive rest → motive ('\\' :: d :: rest)) : ∀ text, motive text
  | [] => nil
  | [c] => by
    by_cases hc : c = '\\'
    · exact hc ▸ last
    · exact char c [] hc nil
  | c :: d :: rest => by
    by_cases hc : c = '\\'
    · exact hc ▸ pair d rest (pairs_induction nil last char pair rest)
    · exact char c (d :: rest) hc (pairs_induction nil last char pair (d :: rest))

theorem escape_concat (front : List Char) (c : Char) :
    escape (front ++ [c]) = escape front ++ if isSpecial c then ['\\', c] else [c] := by
  rw [escape, List.flatMap_append, List.flatMap_singleton]
  rfl

theorem getLast?_escape_concat (front : List Char) (c : Char) :
    (escape (front ++ [c])).getLast? = some c := by
  rw [escape_concat, List.getLast?_append]
  split <;> rfl

/-- The last character of a text is the last one of its escaped form, with a backslash before it or
not. -/
theorem escape_injective : Function.Injective escape := by
  intro first second hescape
  induction first using List.reverseRecOn generalizing second with
  | nil =>
    induction second using List.reverseRecOn with
    | nil => rfl
    | append_singleton second d _ =>
      have hlast := getLast?_escape_concat second d
      rw [← hescape] at hlast
      cases hlast
  | append_singleton first c ih =>
    have hlast := getLast?_escape_concat first c
    induction second using List.reverseRecOn with
    | nil =>
      rw [hescape] at hlast
      cases hlast
    | append_singleton second d _ =>
      rw [hescape, getLast?_escape_concat] at hlast
      obtain rfl := Option.some_inj.mp hlast
      rw [escape_concat, escape_concat] at hescape
      rw [ih (List.append_cancel_right hescape)]

/-! ### Live characters -/

/-- Whether a backslash at the end of the text is left over when backslashes are paired from the
left. -/
def endsUnpaired (front : List Char) : Bool :=
  front.foldl (fun unpaired c ↦ c = '\\' && !unpaired) false

theorem endsUnpaired_iff (front : List Char) :
    endsUnpaired front ↔ Odd (front.rtakeWhile (· = '\\')).length := by
  induction front using List.reverseRecOn with
  | nil => simp [endsUnpaired]
  | append_singleton front c ih =>
    have hstep : endsUnpaired (front ++ [c]) = (c = '\\' && !endsUnpaired front) := by
      simp [endsUnpaired]
    rw [hstep, List.rtakeWhile_concat]
    by_cases hc : c = '\\'
    · simp [hc, Nat.odd_add_one, ← ih]
    · simp [hc]

theorem endsUnpaired_cons_of_ne {c : Char} (hc : c ≠ '\\') (front : List Char) :
    endsUnpaired (c :: front) = endsUnpaired front := by
  simp [endsUnpaired, hc]

theorem endsUnpaired_backslash_cons (d : Char) (front : List Char) :
    endsUnpaired ('\\' :: d :: front) = endsUnpaired front := by
  simp [endsUnpaired]

/-- A special character of the text stands behind an odd number of backslashes. -/
def HasUnpaired (text : List Char) : Prop :=
  ∃ front d back, text = front ++ d :: back ∧ isSpecial d ∧ endsUnpaired front

theorem hasUnpaired_cons {c : Char} (hc : c ≠ '\\') :
    HasUnpaired (c :: rest) ↔ HasUnpaired rest := by
  constructor
  · rintro ⟨_ | ⟨first, front⟩, d, back, htext, hd, hfront⟩
    · cases hfront
    · obtain ⟨rfl, rfl⟩ := List.cons.inj htext
      exact ⟨front, d, back, rfl, hd, endsUnpaired_cons_of_ne hc front ▸ hfront⟩
  · rintro ⟨front, d, back, rfl, hd, hfront⟩
    exact ⟨c :: front, d, back, rfl, hd, (endsUnpaired_cons_of_ne hc front).trans hfront⟩

theorem not_hasUnpaired_last : ¬ HasUnpaired ['\\'] := by
  rintro ⟨_ | ⟨first, front⟩, d, back, htext, -, hfront⟩
  · cases hfront
  · obtain ⟨-, hrest⟩ := List.cons.inj htext
    exact absurd hrest.symm (by simp)

theorem hasUnpaired_backslash_special {d : Char} (hd : isSpecial d) :
    HasUnpaired ('\\' :: d :: rest) :=
  ⟨['\\'], d, rest, rfl, hd, rfl⟩

theorem hasUnpaired_backslash {d : Char} (hd : ¬ isSpecial d) :
    HasUnpaired ('\\' :: d :: rest) ↔ HasUnpaired rest := by
  constructor
  · rintro ⟨_ | ⟨first, _ | ⟨second, front⟩⟩, other, back, htext, hother, hfront⟩
    · cases hfront
    · obtain ⟨-, htext⟩ := List.cons.inj htext
      obtain ⟨rfl, -⟩ := List.cons.inj htext
      exact absurd hother hd
    · obtain ⟨hfirst, htext⟩ := List.cons.inj htext
      obtain ⟨rfl, rfl⟩ := List.cons.inj htext
      rw [← hfirst, endsUnpaired_backslash_cons] at hfront
      exact ⟨front, other, back, rfl, hother, hfront⟩
  · rintro ⟨front, other, back, rfl, hother, hfront⟩
    exact ⟨'\\' :: d :: front, other, back, rfl, hother,
      (endsUnpaired_backslash_cons d front).trans hfront⟩

/-- A special character that no backslash makes literal. -/
def IsLive (glyph : Glyph) : Prop :=
  isSpecial glyph.char ∧ ¬ glyph.escaped

theorem not_isLive_escaped (c : Char) (escaped : Bool) (h : isSpecial c → escaped) :
    ¬ IsLive ⟨c, escaped⟩ :=
  fun hlive ↦ hlive.2 (h hlive.1)

/-- What was written has a live character exactly where backslashes of the text are left over. -/
theorem exists_isLive_iff (text : List Char) :
    (∃ glyph ∈ glyphs (escape text), IsLive glyph) ↔ HasUnpaired text := by
  induction text using pairs_induction with
  | nil => simp [escape, glyphs, HasUnpaired]
  | last =>
    refine iff_of_false ?_ not_hasUnpaired_last
    rintro ⟨glyph, hglyph, hlive⟩
    obtain rfl := List.mem_singleton.mp hglyph
    exact not_isSpecial_backslash hlive.1
  | char c rest hc ih =>
    rw [glyphs_escape_cons_of_ne hc, List.exists_mem_cons_iff, hasUnpaired_cons hc, ← ih]
    exact or_iff_right (not_isLive_escaped c _ id)
  | pair d rest ih =>
    by_cases hspecial : isSpecial d
    · rw [glyphs_escape_backslash_special hspecial]
      refine iff_of_true ⟨bare d, ?_, hspecial, nofun⟩ (hasUnpaired_backslash_special hspecial)
      exact List.mem_cons_of_mem _ List.mem_cons_self
    rw [hasUnpaired_backslash hspecial, ← ih]
    by_cases hpunctuation : isPunctuation d
    · rw [glyphs_escape_backslash_punctuation hpunctuation hspecial, List.exists_mem_cons_iff]
      exact or_iff_right (not_isLive_escaped d _ fun _ ↦ rfl)
    · rw [glyphs_escape_backslash_other hpunctuation, List.exists_mem_cons_iff,
        List.exists_mem_cons_iff]
      exact (or_iff_right (not_isLive_escaped _ _ fun h ↦ absurd h not_isSpecial_backslash)).trans
        (or_iff_right (not_isLive_escaped d _ fun h ↦ absurd h hspecial))

/-! ### Lost characters -/

/-- The text that is read. -/
def readBack (text : List Char) : List Char :=
  (glyphs (escape text)).map Glyph.char

theorem readBack_cons {c : Char} (hc : c ≠ '\\') (rest : List Char) :
    readBack (c :: rest) = c :: readBack rest := by
  rw [readBack, glyphs_escape_cons_of_ne hc]
  rfl

/-- A backslash is lost before punctuation that gets no backslash of its own. -/
theorem readBack_backslash_cons (d : Char) (rest : List Char) :
    readBack ('\\' :: d :: rest) =
      if isPunctuation d ∧ ¬ isSpecial d then d :: readBack rest
      else '\\' :: d :: readBack rest := by
  unfold readBack
  by_cases hspecial : isSpecial d
  · rw [glyphs_escape_backslash_special hspecial, if_neg fun h ↦ h.2 hspecial]
    rfl
  by_cases hpunctuation : isPunctuation d
  · rw [glyphs_escape_backslash_punctuation hpunctuation hspecial, if_pos ⟨hpunctuation, hspecial⟩]
    rfl
  · rw [glyphs_escape_backslash_other hpunctuation, if_neg fun h ↦ hpunctuation h.1]
    rfl

theorem length_readBack_le (text : List Char) : (readBack text).length ≤ text.length := by
  induction text using pairs_induction with
  | nil => exact Nat.le_refl _
  | last => exact Nat.le_refl _
  | char c rest hc ih =>
    rw [readBack_cons hc]
    exact Nat.succ_le_succ ih
  | pair d rest ih =>
    rw [readBack_backslash_cons]
    split
    · exact Nat.le_succ_of_le (Nat.succ_le_succ ih)
    · exact Nat.succ_le_succ (Nat.succ_le_succ ih)

/-- A condition on what follows backslashes asks nothing of other characters. -/
theorem isChain_cons_of_ne {follows : Char → Char → Prop} {c : Char}
    (hc : ∀ d, follows c d) : (c :: rest).IsChain follows ↔ rest.IsChain follows := by
  rw [List.isChain_cons]
  exact and_iff_right fun d _ ↦ hc d

/-- The text is read as it is exactly when each of its backslashes stands at the end, before a
special character or before no punctuation. -/
theorem readBack_eq_self_iff (text : List Char) :
    readBack text = text ↔
      text.IsChain fun c d ↦ c = '\\' → isPunctuation d → isSpecial d := by
  induction text using pairs_induction with
  | nil => exact iff_of_true rfl List.isChain_nil
  | last => exact iff_of_true rfl (List.isChain_singleton _)
  | char c rest hc ih =>
    rw [readBack_cons hc, List.cons_inj_right, ih, isChain_cons_of_ne fun d h ↦ absurd h hc]
  | pair d rest ih =>
    rw [readBack_backslash_cons, List.isChain_cons_cons]
    split
    · next hlost =>
      refine iff_of_false (fun heq ↦ ?_) fun h ↦ hlost.2 (h.1 rfl hlost.1)
      have hlength := length_readBack_le rest
      have hsame := congrArg List.length heq
      simp only [List.length_cons] at hsame
      omega
    · next hkept =>
      have hd : d ≠ '\\' := by
        rintro rfl
        exact hkept ⟨isPunctuation_backslash, not_isSpecial_backslash⟩
      rw [List.cons_inj_right, List.cons_inj_right, ih, isChain_cons_of_ne fun _ h ↦ absurd h hd]
      refine (and_iff_right fun _ hpunctuation ↦ ?_).symm
      by_contra hspecial
      exact hkept ⟨hpunctuation, hspecial⟩

/-! ### Literal texts -/

/-- No backslash stands before punctuation exactly when none is lost and none is left over. -/
theorem isChain_iff (text : List Char) :
    text.IsChain (fun c d ↦ ¬ (c = '\\' ∧ isPunctuation d)) ↔
      ¬ HasUnpaired text ∧
        text.IsChain fun c d ↦ c = '\\' → isPunctuation d → isSpecial d := by
  induction text using pairs_induction with
  | nil => simp [HasUnpaired]
  | last => simp [not_hasUnpaired_last]
  | char c rest hc ih =>
    rw [isChain_cons_of_ne fun d h ↦ hc h.1, isChain_cons_of_ne fun d h ↦ absurd h hc,
      hasUnpaired_cons hc, ih]
  | pair d rest ih =>
    rw [List.isChain_cons_cons, List.isChain_cons_cons]
    by_cases hspecial : isSpecial d
    · refine iff_of_false (fun h ↦ ?_) fun h ↦ h.1 (hasUnpaired_backslash_special hspecial)
      exact h.1 ⟨rfl, isPunctuation_of_isSpecial hspecial⟩
    by_cases hpunctuation : isPunctuation d
    · refine iff_of_false (fun h ↦ h.1 ⟨rfl, hpunctuation⟩) fun h ↦ ?_
      exact hspecial (h.2.1 rfl hpunctuation)
    · have hd : d ≠ '\\' := by
        rintro rfl
        exact hpunctuation isPunctuation_backslash
      rw [isChain_cons_of_ne fun _ h ↦ hd h.1, isChain_cons_of_ne fun _ h ↦ absurd h hd,
        hasUnpaired_backslash hspecial, ih]
      simp [hpunctuation]

theorem not_hasUnpaired_iff (text : List Char) : ¬ HasUnpaired text ↔
    ∀ front d back, text = front ++ d :: back → isSpecial d →
      Even (front.rtakeWhile (· = '\\')).length := by
  constructor
  · intro hpaired front d back htext hd
    by_contra hodd
    rw [Nat.not_even_iff_odd, ← endsUnpaired_iff] at hodd
    exact hpaired ⟨front, d, back, htext, hd, hodd⟩
  · rintro heven ⟨front, d, back, htext, hd, hfront⟩
    exact Nat.not_even_iff_odd.mpr ((endsUnpaired_iff front).mp hfront)
      (heven front d back htext hd)

/-- In a name as it is written no special character is live exactly when each one stands behind an
even number of backslashes, and the name is read as it is exactly when its backslashes stand at the
end, before special characters or before no punctuation. So both hold exactly when no backslash
stands before punctuation. -/
theorem glyphs_escaped_iff (name : String) :
    ((∀ glyph ∈ glyphs (escaped name).toList, ¬ IsLive glyph) ↔
      ∀ front d back, name.toList = front ++ d :: back → isSpecial d →
        Even (front.rtakeWhile (· = '\\')).length) ∧
    ((glyphs (escaped name).toList).map Glyph.char = name.toList ↔
      name.toList.IsChain fun c d ↦ c = '\\' → isPunctuation d → isSpecial d) ∧
    ((∀ glyph ∈ glyphs (escaped name).toList, ¬ IsLive glyph) ∧
        (glyphs (escaped name).toList).map Glyph.char = name.toList ↔
      name.toList.IsChain fun c d ↦ ¬ (c = '\\' ∧ isPunctuation d)) := by
  have hlive : (∀ glyph ∈ glyphs (escaped name).toList, ¬ IsLive glyph) ↔
      ¬ HasUnpaired name.toList := by
    rw [escaped, String.toList_ofList, ← exists_isLive_iff]
    simp only [not_exists, not_and]
  have hread : (glyphs (escaped name).toList).map Glyph.char = name.toList ↔
      name.toList.IsChain fun c d ↦ c = '\\' → isPunctuation d → isSpecial d := by
    rw [escaped, String.toList_ofList, ← readBack_eq_self_iff]
    rfl
  refine ⟨?_, hread, ?_⟩
  · rw [hlive, not_hasUnpaired_iff]
  · rw [hlive, hread, isChain_iff]

/-- A backslash of the name takes the added one for itself and leaves the asterisk live. -/
theorem not_forall_glyphs_escaped :
    ¬ ∀ name : String, (∀ glyph ∈ glyphs (escaped name).toList, ¬ IsLive glyph) ∧
      (glyphs (escaped name).toList).map Glyph.char = name.toList := by
  intro hall
  have hglyphs : glyphs (escaped "\\*x\\*").toList =
      [⟨'\\', true⟩, bare '*', bare 'x', ⟨'\\', true⟩, bare '*'] := by decide
  refine (hall "\\*x\\*").1 (bare '*') ?_ ⟨rfl, nofun⟩
  rw [hglyphs]
  exact List.mem_cons_of_mem _ List.mem_cons_self

end HelpSheet.Escape.Markdown
