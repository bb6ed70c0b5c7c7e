import Mathlib.Computability.RegularExpressions
import HelpSheet.Outline.Assemble
import HelpSheet.Outline.Token

/-!
# The grammar of outlines

The kinds of the items of a view, one after another, form a word of a regular language: the help
view is made of sections that hold groups (`follows_ofModel`), the detailed view of a target is made
of parts that may each be left out (`follows_ofTarget`). Every format relies on it, since items open
and close what stands between them.
-/

set_option autoImplicit false
set_option relaxedAutoImplicit false

namespace HelpSheet

namespace Outline

open RegularExpression (char star)

/-! ### The grammars -/

/-- A language of sequences of kinds. -/
abbrev Grammar := RegularExpression Item.Kind

/-- A part that may be left out. -/
def optional (part : Grammar) : Grammar :=
  1 + part

/-- A part between the items that open and close it. -/
def enclosed (opening : Item.Kind) (part : Grammar) (closing : Item.Kind) : Grammar :=
  char opening * part * char closing

/-- One included file. -/
def includedFileGrammar : Grammar :=
  enclosed .includedFile (star (char .includedFileLine)) .includedFileEnd

/-- What stands between the ends of a group of targets. -/
def categoryBodyGrammar : Grammar :=
  optional (char .categoryHeader) *
    enclosed .targetListStart (star (char .target)) .targetListEnd

/-- One group of targets. -/
def categoryGrammar : Grammar :=
  enclosed .categoryStart categoryBodyGrammar .categoryEnd

/-- The help view. -/
def helpGrammar : Grammar :=
  char .usage *
    optional (enclosed .descriptionStart (star (char .descriptionLine)) .descriptionEnd) *
    optional (enclosed .includedStart (star includedFileGrammar) .includedEnd) *
    optional (enclosed .targetsStart (star categoryGrammar) .targetsEnd)

/-- The detailed view of a target. -/
def detailedGrammar : Grammar :=
  char .title * optional (char .aliases) *
    optional (enclosed .variablesStart (star (char .variableEntry)) .variablesEnd) *
    (optional (char .separator) *
      optional (enclosed .documentationStart (star (char .documentationLine)) .documentationEnd)) *
    optional (char .source)

/-- The kinds of the items are a word of the grammar. -/
def Follows (outline : Outline) (grammar : Grammar) : Prop :=
  outline.map Item.kind ∈ grammar.matches'

/-! ### Putting words together -/

section Words

variable {outline rest : Outline} {grammar next : Grammar}

theorem follows_item (item : Item) : Follows [item] (char item.kind) :=
  Set.mem_singleton _

theorem Follows.append (houtline : Follows outline grammar) (hrest : Follows rest next) :
    Follows (outline ++ rest) (grammar * next) := by
  rw [Follows, List.map_append, RegularExpression.matches'_mul, Language.mem_mul]
  exact ⟨_, houtline, _, hrest, rfl⟩

theorem follows_nil_optional : Follows [] (optional grammar) := by
  rw [Follows, optional, RegularExpression.matches'_add, Language.mem_add]
  exact .inl rfl

theorem Follows.optional (houtline : Follows outline grammar) :
    Follows outline (optional grammar) := by
  rw [Follows, Outline.optional, RegularExpression.matches'_add, Language.mem_add]
  exact .inr houtline

theorem Follows.enclosed (opening : Item) (houtline : Follows outline grammar) (closing : Item) :
    Follows (opening :: outline ++ [closing]) (enclosed opening.kind grammar closing.kind) :=
  ((follows_item opening).append houtline).append (follows_item closing)

theorem follows_flatMap_star {α : Type} {parts : List α} {write : α → Outline}
    (hparts : ∀ part ∈ parts, Follows (write part) grammar) :
    Follows (parts.flatMap write) (star grammar) := by
  rw [Follows, RegularExpression.matches'_star, Language.mem_kstar]
  refine ⟨parts.map fun part ↦ (write part).map Item.kind, ?_, ?_⟩
  · rw [List.map_flatMap, List.flatMap]
  · intro word hword
    obtain ⟨part, hpart, rfl⟩ := List.mem_map.mp hword
    exact hparts part hpart

theorem follows_map_star {α : Type} {kind : Item.Kind} (parts : List α) {write : α → Item}
    (hkind : ∀ part, (write part).kind = kind) :
    Follows (parts.map write) (star (char kind)) := by
  rw [List.map_eq_flatMap]
  refine follows_flatMap_star fun part _ ↦ ?_
  rw [← hkind part]
  exact follows_item (write part)

/-- The kinds that a grammar mentions. -/
def kinds : Grammar → List Item.Kind
  | .zero => []
  | .epsilon => []
  | .char kind => [kind]
  | .plus first second => kinds first ++ kinds second
  | .comp first second => kinds first ++ kinds second
  | .star part => kinds part

theorem mem_kinds_of_mem {word : List Item.Kind} (hword : word ∈ grammar.matches') :
    ∀ kind ∈ word, kind ∈ kinds grammar := by
  induction grammar generalizing word with
  | zero => exact absurd hword (Set.notMem_empty word)
  | epsilon =>
    obtain rfl : word = [] := hword
    exact List.forall_mem_nil _
  | char symbol =>
    obtain rfl : word = [symbol] := hword
    exact fun _ ↦ id
  | plus first second ihFirst ihSecond =>
    intro kind hkind
    rcases hword with hword | hword
    · exact List.mem_append_left _ (ihFirst hword kind hkind)
    · exact List.mem_append_right _ (ihSecond hword kind hkind)
  | comp first second ihFirst ihSecond =>
    obtain ⟨front, hfront, back, hback, rfl⟩ := Language.mem_mul.mp hword
    intro kind hkind
    rcases List.mem_append.mp hkind with hkind | hkind
    · exact List.mem_append_left _ (ihFirst hfront kind hkind)
    · exact List.mem_append_right _ (ihSecond hback kind hkind)
  | star part ih =>
    obtain ⟨words, rfl, hwords⟩ := Language.mem_kstar.mp hword
    intro kind hkind
    obtain ⟨word, hmem, hkind⟩ := List.mem_flatten.mp hkind
    exact ih (hwords word hmem) kind hkind

/-- A word has only kinds that its grammar mentions. -/
theorem Follows.kind_ne (houtline : Follows outline grammar) (kind : Item.Kind)
    (hkind : kind ∉ kinds grammar) : ∀ item ∈ outline, item.kind ≠ kind := by
  rintro item hitem rfl
  exact hkind (mem_kinds_of_mem houtline item.kind (List.mem_map_of_mem hitem))

end Words

/-! ### The help view -/

theorem follows_descriptionSection (file? : Option FileDoc) :
    Follows (descriptionSection file?)
      (optional (enclosed .descriptionStart (star (char .descriptionLine)) .descriptionEnd)) := by
  cases file? with
  | none => exact follows_nil_optional
  | some file =>
    have hlines : Follows (file.documentation.map Item.descriptionLine)
        (star (char .descriptionLine)) := follows_map_star file.documentation fun _ ↦ rfl
    exact (hlines.enclosed (.descriptionStart file.sourceFile) .descriptionEnd).optional

theorem follows_includedFileSection (file : FileDoc) :
    Follows (includedFileSection file) includedFileGrammar := by
  have hlines : Follows (file.documentation.map Item.includedFileLine)
      (star (char .includedFileLine)) := follows_map_star file.documentation fun _ ↦ rfl
  exact hlines.enclosed (.includedFile file.sourceFile) (.includedFileEnd file.sourceFile)

theorem follows_includedSection (files : List FileDoc) :
    Follows (includedSection files)
      (optional (enclosed .includedStart (star includedFileGrammar) .includedEnd)) := by
  unfold includedSection
  split
  · exact follows_nil_optional
  · have hfiles : Follows (files.flatMap includedFileSection) (star includedFileGrammar) :=
      follows_flatMap_star fun file _ ↦ follows_includedFileSection file
    exact (hfiles.enclosed .includedStart .includedEnd).optional

theorem follows_categoryHeader (category : Category) :
    Follows (categoryHeader category) (optional (char .categoryHeader)) := by
  unfold categoryHeader
  split
  · exact follows_nil_optional
  · exact (follows_item (.categoryHeader category.name)).optional

/-- The list of the targets of a group. -/
def targetList (targets : List Target) : Outline :=
  .targetListStart :: targets.map .target ++ [.targetListEnd]

theorem follows_targetList (targets : List Target) :
    Follows (targetList targets)
      (enclosed .targetListStart (star (char .target)) .targetListEnd) := by
  have htargets : Follows (targets.map Item.target) (star (char .target)) :=
    follows_map_star targets fun _ ↦ rfl
  exact htargets.enclosed .targetListStart .targetListEnd

theorem follows_categoryBody (category : Category) :
    Follows (categoryHeader category ++ targetList category.targets) categoryBodyGrammar :=
  (follows_categoryHeader category).append (follows_targetList category.targets)

theorem follows_categorySection (category : Category) :
    Follows (categorySection category) categoryGrammar :=
  (follows_categoryBody category).enclosed (.categoryStart category.name)
    (.categoryEnd category.name)

theorem follows_targetsSection (categories : List Category) :
    Follows (targetsSection categories)
      (optional (enclosed .targetsStart (star categoryGrammar) .targetsEnd)) := by
  unfold targetsSection
  split
  · exact follows_nil_optional
  · have hcategories : Follows (categories.flatMap categorySection) (star categoryGrammar) :=
      follows_flatMap_star fun category _ ↦ follows_categorySection category
    exact (hcategories.enclosed .targetsStart .targetsEnd).optional

/-- The help view of every model is a word of its grammar. -/
theorem follows_ofModel (model : Model) : Follows (ofModel model) helpGrammar :=
  (((follows_item (.usage usageLine)).append (follows_descriptionSection model.entryPoint?)).append
    (follows_includedSection model.includedFiles)).append
      (follows_targetsSection model.categories)

/-! ### The detailed view of a target -/

theorem follows_aliasesSection (names : List String) :
    Follows (aliasesSection names) (optional (char .aliases)) := by
  unfold aliasesSection
  split
  · exact follows_nil_optional
  · exact (follows_item (.aliases names)).optional

theorem follows_variablesSection (entries : List Variable) :
    Follows (variablesSection entries)
      (optional (enclosed .variablesStart (star (char .variableEntry)) .variablesEnd)) := by
  unfold variablesSection
  split
  · exact follows_nil_optional
  · have hentries : Follows (entries.map Item.variableEntry) (star (char .variableEntry)) :=
      follows_map_star entries fun _ ↦ rfl
    exact (hentries.enclosed .variablesStart .variablesEnd).optional

theorem follows_documentationSection (target : Target) :
    Follows (documentationSection target)
      (optional (char .separator) *
        optional (enclosed .documentationStart (star (char .documentationLine))
          .documentationEnd)) := by
  have hlines : Follows (target.documentation.map Item.documentationLine)
      (star (char .documentationLine)) := follows_map_star target.documentation fun _ ↦ rfl
  have hbody := (hlines.enclosed .documentationStart .documentationEnd).optional
  unfold documentationSection
  split
  · exact follows_nil_optional.append follows_nil_optional
  · split
    · exact follows_nil_optional.append hbody
    · exact (follows_item .separator).optional.append hbody

theorem follows_sourceSection (viewpoint : Viewpoint) (sourceFile : String) (lineNumber : Int) :
    Follows (sourceSection viewpoint sourceFile lineNumber) (optional (char .source)) := by
  unfold sourceSection
  split
  · exact follows_nil_optional
  · exact (follows_item (.source (viewpoint.shorten sourceFile) lineNumber)).optional

/-- The detailed view of every target is a word of its grammar. -/
theorem follows_ofTarget (viewpoint : Viewpoint) (target : Target) :
    Follows (ofTarget viewpoint target) detailedGrammar := by
  have hnames := (follows_item (.title target.name target)).append
    (follows_aliasesSection target.aliases)
  have hbody := (hnames.append (follows_variablesSection target.usedVariables)).append
    (follows_documentationSection target)
  exact hbody.append (follows_sourceSection viewpoint target.sourceFile target.lineNumber)

end Outline

end HelpSheet
