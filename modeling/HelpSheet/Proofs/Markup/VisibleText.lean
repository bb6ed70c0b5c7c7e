import HelpSheet.Proofs.Markup.Slices
import HelpSheet.Proofs.Sgr.Sequences

/-!
# Sequences in visible text

Documentation text loses its terminal sequences before its markup is read, and then marks, URLs and
backslashes. Every sequence of the documentation itself is dropped whole. The visible text can still
hold one: it is put together of characters that did not stand together in the documentation, because
something between them was dropped (`flatten_hasGraphic_iff`).
-/

set_option autoImplicit false
set_option relaxedAutoImplicit false

namespace HelpSheet.Markup

open Sgr (Cut HasGraphic IsGraphic)

/-- Visible text is documentation of which some characters were dropped, among them each sequence
whole. It holds a sequence exactly when a part of the documentation that is no sequence itself shows
one. -/
theorem flatten_hasGraphic_iff (raw : String) :
    ∃ cut : Cut, cut.text = raw.toList ∧ cut.kept = (flatten raw).toList ∧ cut.DropsGraphic ∧
      (HasGraphic (flatten raw).toList ↔
        ∃ part : Cut, part <:+: cut ∧ IsGraphic part.kept ∧ ¬ IsGraphic part.text) := by
  obtain ⟨stripped, htext, hstripped, hdrops⟩ := Sgr.exists_cut_strip raw.toList
  have hvisible : (flatten raw).toList.Sublist stripped.kept :=
    hstripped ▸ plainText_parseChars_sublist _
  obtain ⟨cut, hcut, hkept⟩ := stripped.exists_refines hvisible
  have hwhole : cut.DropsGraphic := hcut.dropsGraphic hdrops
  refine ⟨cut, hcut.text_eq.symm.trans htext, hkept, hwhole, ?_⟩
  rw [← hkept]
  constructor
  · rintro ⟨sequence, hsequence, hinside⟩
    obtain ⟨part, hpart, rfl⟩ := Cut.exists_part_of_kept hinside
    refine ⟨part, hpart, hsequence, fun hgraphic ↦ ?_⟩
    obtain ⟨parameters, -, hparameters⟩ := hsequence
    rw [hwhole part hpart hgraphic] at hparameters
    cases hparameters
  · rintro ⟨part, hpart, hsequence, -⟩
    exact ⟨part.kept, hsequence, Cut.kept_isInfix hpart⟩

/-- A backslash before the bracket keeps a sequence from being found, and is then dropped. -/
theorem not_forall_flatten_without_sequences :
    ¬ ∀ raw : String, ¬ HasGraphic (flatten raw).toList := by
  intro hall
  have hvisible : flatten "\x1b\\[31mred" = "\x1b[31mred" := by decide +kernel
  refine hall "\x1b\\[31mred" ?_
  rw [hvisible]
  decide

end HelpSheet.Markup
