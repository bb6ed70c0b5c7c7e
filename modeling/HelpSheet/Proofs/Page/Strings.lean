import HelpSheet.Page.View
import HelpSheet.Proofs.Path.Shortened

/-!
# The strings of a view

A view shows the strings of its model or target and a few texts of its own. A character that stands
in none of them stands nowhere in the outline, with the exception of the dots and slashes of
shortened paths (`lacks_of_mem_outline`).
-/

set_option autoImplicit false
set_option relaxedAutoImplicit false

namespace HelpSheet

open HelpSheet.Text (Lacks)

/-! ### What is given -/

def Variable.strings (entry : Variable) : List String :=
  [entry.name, entry.description]

def Target.strings (target : Target) : List String :=
  target.name :: target.sourceFile :: target.aliases ++ target.documentation ++
    target.summary.map Markup.Segment.content ++ target.usedVariables.flatMap Variable.strings

def Category.strings (category : Category) : List String :=
  category.name :: category.targets.flatMap Target.strings

def FileDoc.strings (file : FileDoc) : List String :=
  file.sourceFile :: file.documentation

def Model.strings (model : Model) : List String :=
  model.fileDocs.flatMap FileDoc.strings ++ model.categories.flatMap Category.strings

/-- The strings that a view is given, which are those of its subject. -/
def Page.View.strings : Page.View → List String
  | .help model => model.strings
  | .detailed target => target.strings
  | .basic name sourceFile _ => [name, sourceFile]

/-! ### What is shown -/

/-- The strings of an item. -/
@[simp] def Item.strings : Item → List String
  | .usage text | .descriptionStart text | .descriptionLine text | .includedFile text
  | .includedFileLine text | .includedFileEnd text | .categoryStart text | .categoryHeader text
  | .categoryEnd text | .title text _ | .documentationLine text | .noDocumentation text => [text]
  | .aliases names => names
  | .target entry => entry.strings
  | .variableEntry entry => entry.strings
  | .source path _ => [path]
  | _ => []

/-- No string of the item has the character. -/
def Item.Lacks (c : Char) (item : Item) : Prop :=
  ∀ text ∈ item.strings, Text.Lacks c text

namespace Outline

variable {c : Char}

theorem lacks_descriptionSection (file? : Option FileDoc)
    (hfile : ∀ file ∈ file?, ∀ text ∈ file.strings, Lacks c text) :
    ∀ item ∈ descriptionSection file?, item.Lacks c := by
  cases file? with
  | none => exact List.forall_mem_nil _
  | some file =>
    have hstrings := hfile file rfl
    simp only [FileDoc.strings, List.forall_mem_cons] at hstrings
    simpa only [descriptionSection, List.forall_mem_append, List.forall_mem_cons,
      List.forall_mem_map, Item.Lacks, Item.strings, List.not_mem_nil, false_implies, implies_true,
      and_true] using hstrings

theorem lacks_includedSection (files : List FileDoc)
    (hfiles : ∀ file ∈ files, ∀ text ∈ file.strings, Lacks c text) :
    ∀ item ∈ includedSection files, item.Lacks c := by
  unfold includedSection
  split
  · exact List.forall_mem_nil _
  · simp only [FileDoc.strings, List.forall_mem_cons] at hfiles
    simp only [includedFileSection, List.forall_mem_append, List.forall_mem_cons,
      List.forall_mem_map, List.forall_mem_flatMap, Item.Lacks, Item.strings,
      List.not_mem_nil, false_implies, implies_true, and_true, true_and]
    exact fun file hfile ↦ ⟨hfiles file hfile, (hfiles file hfile).1⟩

theorem lacks_targetsSection {categories : List Category}
    (hcategories : ∀ category ∈ categories, ∀ text ∈ category.strings, Lacks c text) :
    ∀ item ∈ targetsSection categories, item.Lacks c := by
  unfold targetsSection
  split
  · exact List.forall_mem_nil _
  · simp only [Category.strings, List.forall_mem_cons, List.forall_mem_flatMap] at hcategories
    simp only [categorySection, List.forall_mem_append, List.forall_mem_cons,
      List.forall_mem_map, List.forall_mem_flatMap, Item.Lacks, Item.strings,
      List.not_mem_nil, false_implies, implies_true, and_true, true_and]
    intro category hcategory
    obtain ⟨hname, htargets⟩ := hcategories category hcategory
    refine ⟨⟨⟨hname, ?_⟩, htargets⟩, hname⟩
    unfold categoryHeader
    split <;> simp [hname]

theorem lacks_aliasesSection {names : List String} (hnames : ∀ name ∈ names, Lacks c name) :
    ∀ item ∈ aliasesSection names, item.Lacks c := by
  unfold aliasesSection
  split
  · exact List.forall_mem_nil _
  · simpa [Item.Lacks, Item.strings] using hnames

theorem lacks_variablesSection {entries : List Variable}
    (hentries : ∀ entry ∈ entries, ∀ text ∈ entry.strings, Lacks c text) :
    ∀ item ∈ variablesSection entries, item.Lacks c := by
  unfold variablesSection
  split
  · exact List.forall_mem_nil _
  · simpa only [List.forall_mem_append, List.forall_mem_cons, List.forall_mem_map, Item.Lacks,
      Item.strings, List.not_mem_nil, false_implies, implies_true, and_true, true_and]
      using hentries

theorem lacks_documentationSection (target : Target)
    (hlines : ∀ line ∈ target.documentation, Lacks c line) :
    ∀ item ∈ documentationSection target, item.Lacks c := by
  unfold documentationSection
  split
  · exact List.forall_mem_nil _
  · simp only [List.forall_mem_append, List.forall_mem_cons, List.forall_mem_map, Item.Lacks,
      Item.strings, List.not_mem_nil, false_implies, implies_true, and_true, true_and]
    refine ⟨?_, hlines⟩
    split <;> simp

theorem lacks_sourceSection (hdot : c ≠ '.') (hslash : c ≠ '/') (viewpoint : Viewpoint)
    {sourceFile : String} (hsource : Lacks c sourceFile) (lineNumber : Int) :
    ∀ item ∈ sourceSection viewpoint sourceFile lineNumber, item.Lacks c := by
  unfold sourceSection
  split
  · exact List.forall_mem_nil _
  · simpa [Item.Lacks, Item.strings, Viewpoint.shorten] using
      Path.lacks_shorten hdot hslash hsource viewpoint.workingDirectory viewpoint.base

/-- The outline of a view has no character that neither its strings nor its own texts have. -/
theorem lacks_of_mem_outline {view : Page.View} (hview : ∀ text ∈ view.strings, Lacks c text)
    (husage : Lacks c usageLine) (hnotice : Lacks c noDocumentationNotice) (hdot : c ≠ '.')
    (hslash : c ≠ '/') (viewpoint : Viewpoint) :
    ∀ item ∈ view.outline viewpoint, item.Lacks c := by
  cases view with
  | help model =>
    simp only [Page.View.strings, Model.strings, List.forall_mem_append,
      List.forall_mem_flatMap] at hview
    have hentry := lacks_descriptionSection model.entryPoint? fun file hfile ↦
      hview.1 file (List.mem_of_find?_eq_some hfile)
    have hincluded := lacks_includedSection model.includedFiles fun file hfile ↦
      hview.1 file (List.mem_filter.mp (List.mem_mergeSort.mp hfile) |>.1)
    simp only [Page.View.outline, ofModel, List.forall_mem_append, List.forall_mem_cons]
    refine ⟨⟨⟨?_, hentry⟩, hincluded⟩, lacks_targetsSection hview.2⟩
    simpa [Item.Lacks, Item.strings] using husage
  | detailed target =>
    simp only [Page.View.strings, Target.strings, List.forall_mem_append, List.forall_mem_cons,
      List.forall_mem_flatMap] at hview
    obtain ⟨⟨⟨⟨hname, hsource, haliases⟩, hdocumentation⟩, -⟩, hvariables⟩ := hview
    simp only [Page.View.outline, ofTarget, List.forall_mem_append, List.forall_mem_cons]
    refine ⟨⟨⟨⟨?_, ?_⟩, ?_⟩, ?_⟩,
      lacks_sourceSection hdot hslash viewpoint hsource target.lineNumber⟩
    · simpa [Item.Lacks, Item.strings] using hname
    · exact lacks_aliasesSection haliases
    · exact lacks_variablesSection hvariables
    · exact lacks_documentationSection target hdocumentation
  | basic name sourceFile lineNumber =>
    simp only [Page.View.strings, List.forall_mem_cons] at hview
    simp only [Page.View.outline, ofName, List.forall_mem_cons]
    refine ⟨?_, ?_, lacks_sourceSection hdot hslash viewpoint hview.2.1 lineNumber⟩
    · simpa [Item.Lacks, Item.strings] using hview.1
    · simpa [Item.Lacks, Item.strings] using hnotice

end Outline

end HelpSheet
