import Mathlib.Data.List.Infix
import HelpSheet.Markup.Glyph

/-!
# Texts and their glyphs

Escaped text is read as the glyphs it was written for, whatever follows it
(`ofText_escapeLiteral_append`), and so is text in which no backslash escapes anything
(`ofText_verbatim_append`). Reading is local: consecutive parts of what was read from a text are
read again, each from its own source (`Settled.ofText_source_parts`).
-/

set_option autoImplicit false
set_option relaxedAutoImplicit false

namespace HelpSheet.Markup.Glyph

/-! ### Written text -/

/-- A character that escapes nothing is a glyph of its own. -/
theorem ofText_bare_cons {c : Char} {text : List Char}
    (hc : c = '\\' → ∀ next ∈ text.head?, ¬ isEscapable next) :
    ofText (c :: text) = bare c :: ofText text := by
  cases text with
  | nil => rfl
  | cons next rest =>
    have hplain : ¬ (c = '\\' && isEscapable next) := by
      simpa using hc
    rw [ofText, if_neg hplain]

theorem ofText_cons {c : Char} (hc : c ≠ '\\') (rest : List Char) :
    ofText (c :: rest) = bare c :: ofText rest :=
  ofText_bare_cons fun h ↦ absurd h hc

theorem ofText_append_of_not_mem {text : List Char} (htext : '\\' ∉ text) (rest : List Char) :
    ofText (text ++ rest) = text.map bare ++ ofText rest := by
  induction text with
  | nil => rfl
  | cons c text ih =>
    rw [List.mem_cons, not_or] at htext
    rw [List.cons_append, ofText_cons (Ne.symm htext.1), ih htext.2, List.map_cons,
      List.cons_append]

theorem ofText_escape {c : Char} (hc : isEscapable c) (rest : List Char) :
    ofText ('\\' :: c :: rest) = ⟨c, true⟩ :: ofText rest := by
  simp [ofText, hc]

/-- The glyph that a character of literal text is written for. -/
def written (c : Char) : Glyph :=
  ⟨c, isEscapable c⟩

theorem ne_backslash_of_not_isEscapable {c : Char} (hc : ¬ isEscapable c) : c ≠ '\\' :=
  fun h ↦ hc (h ▸ rfl)

theorem written_eq_bare {c : Char} (hc : ¬ isEscapable c) : written c = bare c := by
  rw [written, bare, Bool.not_eq_true _ |>.mp hc]

theorem escapeLiteral_cons (c : Char) (rest : List Char) :
    escapeLiteral (c :: rest) = (written c).spelling ++ escapeLiteral rest := rfl

theorem ofText_spelling_written_append (c : Char) (rest : List Char) :
    ofText ((written c).spelling ++ rest) = written c :: ofText rest := by
  by_cases hc : isEscapable c
  · simp [written, spelling, hc, ofText_escape hc]
  · rw [written_eq_bare hc]
    exact ofText_cons (ne_backslash_of_not_isEscapable hc) rest

/-- Escaped text is read character by character, whatever follows it. -/
theorem ofText_escapeLiteral_append (text rest : List Char) :
    ofText (escapeLiteral text ++ rest) = text.map written ++ ofText rest := by
  induction text with
  | nil => rfl
  | cons c text ih =>
    rw [escapeLiteral_cons, List.append_assoc, ofText_spelling_written_append, ih, List.map_cons,
      List.cons_append]

theorem text_map_written (text : List Char) :
    Glyph.text (text.map written) = String.ofList text := by
  rw [Glyph.text, List.map_map]
  exact congrArg String.ofList (List.map_id text)

theorem text_map_bare (text : List Char) : Glyph.text (text.map bare) = String.ofList text := by
  rw [Glyph.text, List.map_map]
  exact congrArg String.ofList (List.map_id text)

/-- A mark is no character of escaped text. -/
theorem bare_not_mem_map_written {c : Char} (hc : isEscapable c) (text : List Char) :
    bare c ∉ text.map written := by
  intro hmem
  obtain ⟨d, -, hd⟩ := List.mem_map.mp hmem
  obtain ⟨rfl, hescaped⟩ := Glyph.mk.inj hd
  exact Bool.false_ne_true (hescaped.symm.trans hc)

end Glyph

/-- The text can stand between code marks as it is: it holds none, and no backslash in it escapes
anything there. -/
structure IsVerbatim (text : List Char) : Prop where
  codeMark_not_mem : codeMark ∉ text
  not_escapes : ∀ c, isEscapable c → ¬ ['\\', c] <:+: text
  getLast?_ne : text.getLast? ≠ some '\\'

namespace IsVerbatim

instance : DecidablePred IsVerbatim := fun text ↦
  decidable_of_iff
    (codeMark ∉ text ∧ (text.all fun c ↦ isEscapable c → ¬ ['\\', c] <:+: text) ∧
      text.getLast? ≠ some '\\') <| by
    simp only [List.all_eq_true, decide_eq_true_eq]
    exact
      ⟨fun h ↦ ⟨h.1, fun c hc hinside ↦ h.2.1 c (hinside.subset (by simp)) hc hinside, h.2.2⟩,
        fun h ↦ ⟨h.codeMark_not_mem, fun c _ ↦ h.not_escapes c, h.getLast?_ne⟩⟩

theorem tail {c : Char} {text : List Char} (hverbatim : IsVerbatim (c :: text)) :
    IsVerbatim text where
  codeMark_not_mem := fun hmem ↦ hverbatim.codeMark_not_mem (List.mem_cons_of_mem c hmem)
  not_escapes := fun d hd hinside ↦
    hverbatim.not_escapes d hd (List.IsInfix.trans hinside (List.suffix_cons c text).isInfix)
  getLast?_ne := by
    intro hlast
    apply hverbatim.getLast?_ne
    rw [List.getLast?_cons, hlast]
    rfl

end IsVerbatim

namespace Glyph

/-- Text between code marks is read character by character up to the closing mark. -/
theorem ofText_verbatim_append {text : List Char} (hverbatim : IsVerbatim text)
    (rest : List Char) :
    ofText (text ++ codeMark :: rest) = text.map bare ++ bare codeMark :: ofText rest := by
  induction text with
  | nil => exact ofText_cons (by decide) rest
  | cons c text ih =>
    have hplain : c = '\\' → ∀ next ∈ (text ++ codeMark :: rest).head?, ¬ isEscapable next := by
      rintro rfl next hnext hescapable
      cases text with
      | nil => exact hverbatim.getLast?_ne rfl
      | cons d text =>
        obtain rfl := Option.some_inj.mp hnext
        exact hverbatim.not_escapes d hescapable ⟨[], text, rfl⟩
    rw [List.cons_append, ofText_bare_cons hplain, ih hverbatim.tail, List.map_cons,
      List.cons_append]

/-! ### Slices -/

theorem source_append (front back : List Glyph) :
    source (front ++ back) = source front ++ source back :=
  List.flatMap_append

theorem source_flatten (parts : List (List Glyph)) :
    source parts.flatten = (parts.map source).flatten := by
  induction parts with
  | nil => rfl
  | cons part parts ih =>
    rw [List.flatten_cons, source_append, ih, List.map_cons, List.flatten_cons]

theorem source_map_bare (text : List Char) : source (text.map bare) = text := by
  rw [source, List.flatMap_map]
  exact List.flatMap_singleton' text

/-- The glyphs are read again from their source. -/
def Settled (glyphs : List Glyph) : Prop :=
  ofText (source glyphs) = glyphs

theorem settled_ofText (text : List Char) : Settled (ofText text) := by
  rw [Settled, source_ofText]

/-- Glyphs are read again exactly when an escaped glyph is one that a backslash can escape, and a
bare backslash stands before no such character. -/
theorem settled_cons_iff (glyph : Glyph) (rest : List Glyph) :
    Settled (glyph :: rest) ↔
      (glyph.escaped → isEscapable glyph.char) ∧
        (glyph = bare '\\' → ∀ next ∈ (source rest).head?, ¬ isEscapable next) ∧
        Settled rest := by
  obtain ⟨c, escaped⟩ := glyph
  have hsource : source (⟨c, escaped⟩ :: rest) = spelling ⟨c, escaped⟩ ++ source rest := rfl
  rw [Settled, hsource]
  cases escaped with
  | true =>
    by_cases hc : isEscapable c
    · simp [spelling, ofText_escape hc, hc, bare, Settled]
    · simp [spelling, ofText, hc, bare]
  | false =>
    by_cases hplain : c = '\\' → ∀ next ∈ (source rest).head?, ¬ isEscapable next
    · have hread : ofText (c :: source rest) = bare c :: ofText (source rest) :=
        ofText_bare_cons hplain
      simpa [spelling, hread, bare, Settled] using fun _ ↦ hplain
    · push Not at hplain
      obtain ⟨rfl, next, hnext, hescapable⟩ := hplain
      obtain ⟨tail, htail⟩ := List.head?_eq_some_iff.mp hnext
      simp [spelling, bare, htail, ofText_escape hescapable, hescapable]

theorem Settled.append_right {front back : List Glyph} (hsettled : Settled (front ++ back)) :
    Settled back := by
  induction front with
  | nil => exact hsettled
  | cons glyph front ih => exact ih ((settled_cons_iff _ _).mp hsettled).2.2

theorem Settled.append_left {front back : List Glyph} (hsettled : Settled (front ++ back)) :
    Settled front := by
  induction front with
  | nil => rfl
  | cons glyph front ih =>
    rw [List.cons_append, settled_cons_iff] at hsettled
    obtain ⟨hescaped, hnext, hrest⟩ := hsettled
    refine (settled_cons_iff _ _).mpr ⟨hescaped, fun hbare next hhead ↦ ?_, ih hrest⟩
    refine hnext hbare next ?_
    rw [source_append]
    exact List.mem_head?_append_of_mem_head? hhead

/-- Consecutive parts of what was read from a text are read again, each from its own source. -/
theorem Settled.ofText_source_parts {parts : List (List Glyph)}
    (hsettled : Settled parts.flatten) : (parts.map source).flatMap ofText = parts.flatten := by
  induction parts with
  | nil => rfl
  | cons part parts ih =>
    rw [List.flatten_cons] at hsettled
    have hpart : ofText (source part) = part := hsettled.append_left
    rw [List.map_cons, List.flatMap_cons, hpart, ih hsettled.append_right, List.flatten_cons]

end HelpSheet.Markup.Glyph
