import HelpSheet.Proofs.Sgr.Sequences
import HelpSheet.Sgr.Scheme

/-!
# Painted texts

A painter may put whole sequences around a text and nothing else (`Painter.IsGraphic`), as styles do
(`Style.isGraphic_apply`). Stripping takes them away again and finds the text, whatever stands
before or behind it (`Painter.IsGraphic.stripsTo`).
-/

set_option autoImplicit false
set_option relaxedAutoImplicit false

namespace HelpSheet.Sgr

/-- Stripping turns the first text into the second one, whatever follows it. -/
def StripsTo (colored text : List Char) : Prop :=
  ∀ rest, strip .graphic (colored ++ rest) = text ++ strip .graphic rest

theorem strip_nil (sequences : SequenceClass) : strip sequences [] = [] := by
  rw [strip]

theorem StripsTo.strip_eq {colored text : List Char} (hstrips : StripsTo colored text) :
    strip .graphic colored = text := by
  have hstrip := hstrips []
  rwa [List.append_nil, strip_nil, List.append_nil] at hstrip

theorem StripsTo.append {colored text colored' text' : List Char}
    (hfirst : StripsTo colored text) (hsecond : StripsTo colored' text') :
    StripsTo (colored ++ colored') (text ++ text') := by
  intro rest
  rw [List.append_assoc, hfirst, hsecond, List.append_assoc]

/-- Text without the escape character is left alone. -/
theorem stripsTo_self {text : List Char} (hescape : escape ∉ text) : StripsTo text text := by
  intro rest
  induction text with
  | nil => rfl
  | cons c text ih =>
    rw [List.mem_cons, not_or] at hescape
    rw [List.cons_append, strip_cons_of_ne (Ne.symm hescape.1), ih hescape.2, List.cons_append]

theorem IsGraphic.stripsTo_nil {sequence : List Char} (hsequence : IsGraphic sequence) :
    StripsTo sequence [] :=
  fun rest ↦ strip_of_some (hsequence.afterSequence?_append rest)

/-! ### Painters -/

theorem isGraphic_attributeSequence (code : Nat) : IsGraphic (attributeSequence code).toList := by
  refine ⟨(toString code).toList, fun c hc ↦ .inl ?_, by simp [attributeSequence, escape]⟩
  have hdigits : c ∈ Nat.toDigits 10 code := by rwa [← Nat.toList_repr]
  exact Nat.isDigit_of_mem_toDigits (by decide) (by decide) hdigits

theorem isGraphic_clearAll : IsGraphic clearAll.toList :=
  isGraphic_attributeSequence 0

theorem stripsTo_join {sequences : List String}
    (hsequences : ∀ sequence ∈ sequences, IsGraphic sequence.toList) :
    StripsTo (String.join sequences).toList [] := by
  rw [String.toList_join]
  induction sequences with
  | nil => exact fun _ ↦ rfl
  | cons sequence rest ih =>
    rw [List.forall_mem_cons] at hsequences
    exact hsequences.1.stripsTo_nil.append (ih hsequences.2)

/-- A painter that puts whole sequences around a text and nothing else. -/
def Painter.IsGraphic (painter : Painter) : Prop :=
  ∀ text, ∃ front back : List String,
    (∀ sequence ∈ front ++ back, Sgr.IsGraphic sequence.toList) ∧
      painter text = String.join front ++ text ++ String.join back

theorem Style.isGraphic_apply (style : Style) : Painter.IsGraphic style.apply := by
  intro text
  have hcodes : ∀ sequence ∈ style.codes.map attributeSequence, Sgr.IsGraphic sequence.toList :=
    List.forall_mem_map.mpr fun code _ ↦ isGraphic_attributeSequence code
  have hclear : ∀ sequence ∈ [clearAll], Sgr.IsGraphic sequence.toList :=
    List.forall_mem_singleton.mpr isGraphic_clearAll
  exact ⟨_, [clearAll], List.forall_mem_append.mpr ⟨hcodes, hclear⟩, by simp [Style.apply]⟩

/-- A painted text is the text again once sequences are stripped. -/
theorem Painter.IsGraphic.stripsTo {painter : Painter} (hpainter : painter.IsGraphic)
    {text : String} (hescape : escape ∉ text.toList) :
    StripsTo (painter text).toList text.toList := by
  obtain ⟨front, back, hsequences, hpainted⟩ := hpainter text
  rw [List.forall_mem_append] at hsequences
  have hstrips := ((stripsTo_join hsequences.1).append (stripsTo_self hescape)).append
    (stripsTo_join hsequences.2)
  rw [List.nil_append, List.append_nil] at hstrips
  rwa [hpainted, String.toList_append, String.toList_append]

/-! ### Schemes -/

/-- A scheme with painters that put whole sequences around a text and nothing else. -/
def Scheme.IsGraphic (scheme : Scheme) : Prop :=
  ∀ role painter, scheme.get role = some painter → painter.IsGraphic

namespace Scheme.IsGraphic

variable {scheme : Scheme}

theorem plain : Scheme.plain.IsGraphic := by
  intro role painter hget
  cases role <;> cases hget

theorem ansi : Scheme.ansi.IsGraphic := by
  intro role painter hget
  cases role <;> cases hget <;> exact Style.isGraphic_apply _

theorem standard (useColor : Bool) : (Scheme.standard useColor).IsGraphic := by
  unfold Scheme.standard
  split
  · exact ansi
  · exact plain

theorem stripsTo (hscheme : scheme.IsGraphic) (role : Role) {text : String}
    (hescape : escape ∉ text.toList) :
    StripsTo (paint (scheme.get role) text).toList text.toList := by
  cases hget : scheme.get role with
  | none => exact stripsTo_self hescape
  | some painter => exact (hscheme role painter hget).stripsTo hescape

end Scheme.IsGraphic

end HelpSheet.Sgr
