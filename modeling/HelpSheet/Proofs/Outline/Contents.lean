import HelpSheet.Proofs.Model.FileDocs
import HelpSheet.Proofs.Outline.Grammar

/-!
# The contents of outlines

What a view shows can be read back from its items. A group of items is opened by an item of one kind
and goes on to the next item of another kind (`groups`), so the files, their lines and the targets
of a model, and the parts of a target, are recovered in their order (`outlines_carry_contents`).
-/

set_option autoImplicit false
set_option relaxedAutoImplicit false

namespace HelpSheet

/-- The path of a file and its documentation. -/
def FileDoc.block (file : FileDoc) : String × List String :=
  (file.sourceFile, file.documentation)

/-! ### What an item carries -/

namespace Item

/-- The text of an item: a line, a path, a name, or a place in a file. -/
def text : Item → String
  | .usage line | .descriptionLine line | .includedFileLine line | .documentationLine line => line
  | .descriptionStart path | .includedFile path | .includedFileEnd path => path
  | .categoryStart name | .categoryHeader name | .categoryEnd name | .title name _ => name
  | .target listed => listed.name
  | .variableEntry entry => entry.name
  | .noDocumentation notice => notice
  | .source path line => path ++ ":" ++ toString line
  | _ => ""

/-- The target in a list of targets. -/
def listed? : Item → Option Target
  | .target listed => some listed
  | _ => none

/-- The names in a list of aliases. -/
def aliasNames? : Item → Option (List String)
  | .aliases names => some names
  | _ => none

/-- The variable in a list of variables. -/
def usedVariable? : Item → Option Variable
  | .variableEntry entry => some entry
  | _ => none

/-- The path and the line of a place. -/
def place? : Item → Option (String × Int)
  | .source path line => some (path, line)
  | _ => none

end Item

namespace Outline

open RegularExpression (char star)

/-! ### Reading an outline -/

/-- The texts of the items of a kind. -/
def texts (kind : Item.Kind) (outline : Outline) : List String :=
  (outline.filter fun item ↦ item.kind = kind).map Item.text

/-- Every item of the kind `opening`, with the items of the kind `part` up to the next item of the
kind `closing`. -/
def groups (opening closing part : Item.Kind) : Outline → List (Item × Outline)
  | [] => []
  | item :: rest =>
    if item.kind = opening then
      (item, (rest.takeWhile fun next ↦ next.kind ≠ closing).filter fun next ↦ next.kind = part) ::
        groups opening closing part rest
    else groups opening closing part rest

/-- The groups as texts. -/
def textGroups (opening closing part : Item.Kind) (outline : Outline) :
    List (String × List String) :=
  (groups opening closing part outline).map fun group ↦ (group.1.text, group.2.map Item.text)

/-- What a help view shows. -/
structure HelpContents where
  descriptions : List (String × List String)
  includedFiles : List (String × List String)
  categories : List (String × List Target)
  headers : List String
  deriving DecidableEq

/-- The contents of a help view, read from its items. -/
def helpContents (outline : Outline) : HelpContents where
  descriptions := textGroups .descriptionStart .descriptionEnd .descriptionLine outline
  includedFiles := textGroups .includedFile .includedFileEnd .includedFileLine outline
  categories := (groups .categoryStart .categoryEnd .target outline).map fun group ↦
    (group.1.text, group.2.filterMap Item.listed?)
  headers := texts .categoryHeader outline

/-- What a detailed view of a target shows. -/
structure TargetContents where
  names : List String
  aliases : List String
  usedVariables : List Variable
  documentation : List String
  places : List (String × Int)
  deriving DecidableEq

/-- The contents of a detailed view, read from its items. -/
def targetContents (outline : Outline) : TargetContents where
  names := texts .title outline
  aliases := (outline.filterMap Item.aliasNames?).flatten
  usedVariables := outline.filterMap Item.usedVariable?
  documentation := texts .documentationLine outline
  places := outline.filterMap Item.place?

/-! ### Texts of a kind -/

section Texts

variable {kind : Item.Kind} {outline rest : Outline}

theorem texts_append : texts kind (outline ++ rest) = texts kind outline ++ texts kind rest := by
  rw [texts, List.filter_append, List.map_append, texts, texts]

theorem texts_cons (item : Item) :
    texts kind (item :: rest) =
      (if item.kind = kind then [item.text] else []) ++ texts kind rest := by
  by_cases hkind : item.kind = kind <;> simp [texts, hkind]

theorem texts_of_kind_ne (houtline : ∀ item ∈ outline, item.kind ≠ kind) :
    texts kind outline = [] := by
  rw [texts, List.map_eq_nil_iff, List.filter_eq_nil_iff]
  simpa using houtline

theorem filter_kind_map {α : Type} (write : α → Item) (parts : List α)
    (hkind : ∀ part, (write part).kind = kind) :
    ((parts.map write).filter fun item ↦ item.kind = kind) = parts.map write := by
  rw [List.filter_eq_self]
  intro item hitem
  obtain ⟨part, -, rfl⟩ := List.mem_map.mp hitem
  exact decide_eq_true (hkind part)

theorem texts_map {α : Type} (write : α → Item) (parts : List α)
    (hkind : ∀ part, (write part).kind = kind) :
    texts kind (parts.map write) = parts.map fun part ↦ (write part).text := by
  rw [texts, filter_kind_map write parts hkind, List.map_map]
  rfl

end Texts

/-! ### Groups -/

section Groups

variable (opening closing part : Item.Kind) {outline rest : Outline}

theorem groups_append_of_kind_ne (houtline : ∀ item ∈ outline, item.kind ≠ opening) :
    groups opening closing part (outline ++ rest) = groups opening closing part rest := by
  induction outline with
  | nil => rfl
  | cons item outline ih =>
    rw [List.forall_mem_cons] at houtline
    rw [List.cons_append, groups, if_neg houtline.1]
    exact ih houtline.2

theorem groups_of_kind_ne (houtline : ∀ item ∈ outline, item.kind ≠ opening) :
    groups opening closing part outline = [] := by
  rw [← List.append_nil outline, groups_append_of_kind_ne _ _ _ houtline]
  rfl

/-- A group is read up to its closing item. -/
theorem Follows.groups_enclosed {grammar : Grammar} (houtline : Follows outline grammar)
    {first last : Item} (hfirst : first.kind = opening) (hlast : last.kind = closing)
    (hopening : opening ∉ closing :: kinds grammar) (hclosing : closing ∉ kinds grammar) :
    groups opening closing part (first :: outline ++ [last] ++ rest) =
      (first, outline.filter fun item ↦ item.kind = part) ::
        groups opening closing part rest := by
  rw [List.mem_cons, not_or] at hopening
  have hbody : ∀ item ∈ outline ++ [last], item.kind ≠ opening := by
    rw [List.forall_mem_append, List.forall_mem_singleton, hlast]
    exact ⟨houtline.kind_ne opening hopening.2, Ne.symm hopening.1⟩
  have htake : ((outline ++ [last] ++ rest).takeWhile fun item ↦ item.kind ≠ closing) =
      outline := by
    have houtside : ∀ item ∈ outline, decide (item.kind ≠ closing) = true := fun item hitem ↦
      decide_eq_true (houtline.kind_ne closing hclosing item hitem)
    rw [List.append_assoc, List.takeWhile_append_of_pos houtside]
    simp [hlast]
  rw [List.cons_append, List.cons_append, groups, if_pos hfirst, htake,
    groups_append_of_kind_ne _ _ _ hbody]

/-- A group that holds items of one kind only is read with all of them. -/
theorem groups_map {α : Type} (write : α → Item) (parts : List α)
    (hkind : ∀ given, (write given).kind = part) {first last : Item} (hfirst : first.kind = opening)
    (hlast : last.kind = closing) (hopening : opening ∉ [closing, part])
    (hclosing : closing ∉ [part]) :
    groups opening closing part (first :: parts.map write ++ [last] ++ rest) =
      (first, parts.map write) :: groups opening closing part rest := by
  rw [(follows_map_star parts hkind).groups_enclosed _ _ _ hfirst hlast hopening hclosing,
    filter_kind_map write parts hkind]

/-- Groups that stand one after another are read one after another. -/
theorem groups_flatMap_append {α : Type} {parts : List α} {write : α → Outline}
    {group : α → Item × Outline}
    (hparts : ∀ given ∈ parts, ∀ rest, groups opening closing part (write given ++ rest) =
      group given :: groups opening closing part rest) (rest : Outline) :
    groups opening closing part (parts.flatMap write ++ rest) =
      parts.map group ++ groups opening closing part rest := by
  induction parts with
  | nil => rfl
  | cons first parts ih =>
    rw [List.forall_mem_cons] at hparts
    rw [List.flatMap_cons, List.append_assoc, hparts.1, ih hparts.2]
    rfl

end Groups

/-! ### The help view -/

theorem groups_descriptionSection_append (file? : Option FileDoc) (rest : Outline) :
    groups .descriptionStart .descriptionEnd .descriptionLine (descriptionSection file? ++ rest) =
      (file?.toList.map fun file ↦
          (.descriptionStart file.sourceFile, file.documentation.map .descriptionLine)) ++
        groups .descriptionStart .descriptionEnd .descriptionLine rest := by
  cases file? with
  | none => rfl
  | some file =>
    exact groups_map .descriptionStart .descriptionEnd .descriptionLine .descriptionLine
      file.documentation (fun _ ↦ rfl) rfl rfl (by decide) (by decide)

theorem groups_includedSection_append (files : List FileDoc) (rest : Outline) :
    groups .includedFile .includedFileEnd .includedFileLine (includedSection files ++ rest) =
      (files.map fun file ↦
          (.includedFile file.sourceFile, file.documentation.map .includedFileLine)) ++
        groups .includedFile .includedFileEnd .includedFileLine rest := by
  have hfile : ∀ file ∈ files, ∀ rest : Outline,
      groups .includedFile .includedFileEnd .includedFileLine (includedFileSection file ++ rest) =
        (.includedFile file.sourceFile, file.documentation.map .includedFileLine) ::
          groups .includedFile .includedFileEnd .includedFileLine rest := by
    intro file _ rest
    exact groups_map .includedFile .includedFileEnd .includedFileLine .includedFileLine
      file.documentation (fun _ ↦ rfl) rfl rfl (by decide) (by decide)
  unfold includedSection
  split
  · next hempty =>
    rw [List.isEmpty_iff.mp hempty]
    rfl
  · have hfiles := groups_flatMap_append _ _ _ hfile (.includedEnd :: rest)
    simpa [groups, Item.kind] using hfiles

theorem filter_target_categoryBody (category : Category) :
    ((categoryHeader category ++ targetList category.targets).filter fun item ↦
      item.kind = .target) = category.targets.map .target := by
  have hheader : ((categoryHeader category).filter fun item ↦ item.kind = .target) = [] := by
    simpa using (follows_categoryHeader category).kind_ne .target (by decide)
  have htargets : ((category.targets.map Item.target).filter fun item ↦ item.kind = .target) =
      category.targets.map .target := filter_kind_map .target _ fun _ ↦ rfl
  rw [List.filter_append, hheader, targetList, List.filter_append,
    List.filter_cons_of_neg (by decide), htargets]
  exact List.append_nil _

theorem groups_targetsSection (categories : List Category) :
    groups .categoryStart .categoryEnd .target (targetsSection categories) =
      categories.map fun category ↦
        (.categoryStart category.name, category.targets.map .target) := by
  have hcategory : ∀ category ∈ categories, ∀ rest : Outline,
      groups .categoryStart .categoryEnd .target (categorySection category ++ rest) =
        (.categoryStart category.name, category.targets.map .target) ::
          groups .categoryStart .categoryEnd .target rest := by
    intro category _ rest
    rw [← filter_target_categoryBody]
    exact (follows_categoryBody category).groups_enclosed _ _ _ rfl rfl (by decide) (by decide)
  unfold targetsSection
  split
  · next hempty =>
    rw [List.isEmpty_iff.mp hempty]
    rfl
  · have hcategories := groups_flatMap_append _ _ _ hcategory [.targetsEnd]
    simpa [groups, Item.kind] using hcategories

section Help

variable (model : Model)

theorem ofModel_eq_append : ofModel model = [.usage usageLine] ++
    (descriptionSection model.entryPoint? ++
      (includedSection model.includedFiles ++ targetsSection model.categories)) := by
  simp [ofModel]

theorem descriptions_ofModel :
    textGroups .descriptionStart .descriptionEnd .descriptionLine (ofModel model) =
      model.entryPoint?.toList.map FileDoc.block := by
  have husage : ∀ item ∈ [Item.usage usageLine], item.kind ≠ .descriptionStart := by decide
  have hincluded := (follows_includedSection model.includedFiles).kind_ne .descriptionStart
    (by decide)
  have htargets := (follows_targetsSection model.categories).kind_ne .descriptionStart (by decide)
  have hrest := groups_of_kind_ne .descriptionStart .descriptionEnd .descriptionLine
    (List.forall_mem_append.mpr ⟨hincluded, htargets⟩)
  rw [textGroups, ofModel_eq_append, groups_append_of_kind_ne _ _ _ husage,
    groups_descriptionSection_append, hrest, List.append_nil, List.map_map]
  refine List.map_congr_left fun file _ ↦ ?_
  simp [FileDoc.block, Item.text, Function.comp_def]

theorem includedFiles_ofModel :
    textGroups .includedFile .includedFileEnd .includedFileLine (ofModel model) =
      model.includedFiles.map FileDoc.block := by
  have husage : ∀ item ∈ [Item.usage usageLine], item.kind ≠ .includedFile := by decide
  have hdescription := (follows_descriptionSection model.entryPoint?).kind_ne .includedFile
    (by decide)
  have htargets := (follows_targetsSection model.categories).kind_ne .includedFile (by decide)
  rw [textGroups, ofModel_eq_append, groups_append_of_kind_ne _ _ _ husage,
    groups_append_of_kind_ne _ _ _ hdescription, groups_includedSection_append,
    groups_of_kind_ne _ _ _ htargets, List.append_nil, List.map_map]
  refine List.map_congr_left fun file _ ↦ ?_
  simp [FileDoc.block, Item.text, Function.comp_def]

theorem categories_ofModel :
    groups .categoryStart .categoryEnd .target (ofModel model) =
      model.categories.map fun category ↦
        (.categoryStart category.name, category.targets.map .target) := by
  have husage : ∀ item ∈ [Item.usage usageLine], item.kind ≠ .categoryStart := by decide
  have hdescription := (follows_descriptionSection model.entryPoint?).kind_ne .categoryStart
    (by decide)
  have hincluded := (follows_includedSection model.includedFiles).kind_ne .categoryStart
    (by decide)
  rw [ofModel_eq_append, groups_append_of_kind_ne _ _ _ husage,
    groups_append_of_kind_ne _ _ _ hdescription, groups_append_of_kind_ne _ _ _ hincluded,
    groups_targetsSection]

theorem headers_categorySection (category : Category) :
    texts .categoryHeader (categorySection category) =
      if category.isUnnamed then [] else [category.name] := by
  have hstart : texts .categoryHeader [.categoryStart category.name] = [] := rfl
  have hend : texts .categoryHeader [.categoryEnd category.name] = [] := rfl
  have hlist : texts .categoryHeader (targetList category.targets) = [] :=
    texts_of_kind_ne ((follows_targetList category.targets).kind_ne .categoryHeader (by decide))
  have hsection : categorySection category = [.categoryStart category.name] ++
      (categoryHeader category ++ targetList category.targets) ++ [.categoryEnd category.name] :=
    rfl
  rw [hsection, texts_append, texts_append, texts_append, hstart, hlist, hend, categoryHeader]
  split <;> rfl

theorem headers_ofModel : texts .categoryHeader (ofModel model) = model.categoryNames := by
  have husage : ∀ item ∈ [Item.usage usageLine], item.kind ≠ .categoryHeader := by decide
  have hdescription := (follows_descriptionSection model.entryPoint?).kind_ne .categoryHeader
    (by decide)
  have hincluded := (follows_includedSection model.includedFiles).kind_ne .categoryHeader
    (by decide)
  have hcategories : ∀ categories : List Category,
      texts .categoryHeader (categories.flatMap categorySection) =
        (categories.filter fun category ↦ !category.isUnnamed).map Category.name := by
    intro categories
    induction categories with
    | nil => rfl
    | cons category categories ih =>
      rw [List.flatMap_cons, texts_append, headers_categorySection, ih, List.filter_cons]
      cases category.isUnnamed <;> rfl
  rw [ofModel_eq_append, texts_append, texts_append, texts_append, texts_of_kind_ne husage,
    texts_of_kind_ne hdescription, texts_of_kind_ne hincluded, Model.categoryNames,
    targetsSection]
  split
  · next hempty => rw [List.isEmpty_iff.mp hempty]; rfl
  · rw [texts_append]
    exact (List.append_nil _).trans (hcategories model.categories)

/-- A help view shows what its model holds. -/
theorem helpContents_ofModel :
    helpContents (ofModel model) =
      { descriptions := model.entryPoint?.toList.map FileDoc.block
        includedFiles := model.includedFiles.map FileDoc.block
        categories := model.categories.map fun category ↦ (category.name, category.targets)
        headers := model.categoryNames } := by
  rw [helpContents, descriptions_ofModel, includedFiles_ofModel, categories_ofModel,
    headers_ofModel]
  simp [Item.text, List.filterMap_map, Item.listed?, Function.comp_def]

end Help

/-! ### The detailed view of a target -/

section Detailed

theorem filterMap_of_kind_ne {α : Type} {kind : Item.Kind} {read : Item → Option α}
    (hread : ∀ item : Item, item.kind ≠ kind → read item = none) {outline : Outline}
    (houtline : ∀ item ∈ outline, item.kind ≠ kind) : outline.filterMap read = [] :=
  List.filterMap_eq_nil_iff.mpr fun item hitem ↦ hread item (houtline item hitem)

theorem aliasNames?_of_kind_ne {item : Item} (hkind : item.kind ≠ .aliases) :
    item.aliasNames? = none := by
  cases item <;> first | rfl | exact absurd rfl hkind

theorem usedVariable?_of_kind_ne {item : Item} (hkind : item.kind ≠ .variableEntry) :
    item.usedVariable? = none := by
  cases item <;> first | rfl | exact absurd rfl hkind

theorem place?_of_kind_ne {item : Item} (hkind : item.kind ≠ .source) : item.place? = none := by
  cases item <;> first | rfl | exact absurd rfl hkind

theorem aliases_aliasesSection (names : List String) :
    ((aliasesSection names).filterMap Item.aliasNames?).flatten = names := by
  unfold aliasesSection
  split
  · next hempty => exact (List.isEmpty_iff.mp hempty).symm
  · exact List.append_nil names

theorem filterMap_variablesSection (entries : List Variable) :
    (variablesSection entries).filterMap Item.usedVariable? = entries := by
  unfold variablesSection
  split
  · next hempty => exact (List.isEmpty_iff.mp hempty).symm
  · simp [List.filterMap_cons, List.filterMap_map, Item.usedVariable?, Function.comp_def]

variable (viewpoint : Viewpoint) (target : Target)

theorem texts_documentationSection :
    texts .documentationLine (documentationSection target) = target.documentation := by
  have hlines : texts .documentationLine (target.documentation.map Item.documentationLine) =
      target.documentation :=
    (texts_map .documentationLine target.documentation fun _ ↦ rfl).trans (List.map_id _)
  have hbody : texts .documentationLine (.documentationStart ::
      target.documentation.map Item.documentationLine ++ [.documentationEnd]) =
        target.documentation := by
    rw [texts_append, texts_cons, hlines]
    exact List.append_nil _
  unfold documentationSection
  split
  · next hempty => exact (List.isEmpty_iff.mp hempty).symm
  · split
    · exact hbody
    · exact hbody

theorem filterMap_sourceSection (sourceFile : String) (lineNumber : Int) :
    (sourceSection viewpoint sourceFile lineNumber).filterMap Item.place? =
      if sourceFile = "" then [] else [(viewpoint.shorten sourceFile, lineNumber)] := by
  unfold sourceSection
  split <;> rfl

/-- A detailed view shows what its target holds. -/
theorem targetContents_ofTarget :
    targetContents (ofTarget viewpoint target) =
      { names := [target.name]
        aliases := target.aliases
        usedVariables := target.usedVariables
        documentation := target.documentation
        places :=
          if target.sourceFile = "" then []
          else [(viewpoint.shorten target.sourceFile, target.lineNumber)] } := by
  have haliases := follows_aliasesSection target.aliases
  have hvariables := follows_variablesSection target.usedVariables
  have hdocumentation := follows_documentationSection target
  have hsource := follows_sourceSection viewpoint target.sourceFile target.lineNumber
  have houtline : ofTarget viewpoint target = [.title target.name target] ++
      (aliasesSection target.aliases ++ (variablesSection target.usedVariables ++
        (documentationSection target ++
          sourceSection viewpoint target.sourceFile target.lineNumber))) := by
    simp [ofTarget]
  have hbody := (hvariables.append (hdocumentation.append hsource))
  have hnames : texts .title (ofTarget viewpoint target) = [target.name] := by
    have hrest := (haliases.append hbody).kind_ne .title (by decide)
    rw [houtline, texts_append, texts_of_kind_ne hrest]
    rfl
  have hlines : texts .documentationLine (ofTarget viewpoint target) = target.documentation := by
    rw [houtline, texts_append, texts_append, texts_append, texts_append,
      texts_of_kind_ne (haliases.kind_ne .documentationLine (by decide)),
      texts_of_kind_ne (hvariables.kind_ne .documentationLine (by decide)),
      texts_documentationSection,
      texts_of_kind_ne (hsource.kind_ne .documentationLine (by decide))]
    exact List.append_nil _
  have halias : ((ofTarget viewpoint target).filterMap Item.aliasNames?).flatten =
      target.aliases := by
    rw [houtline, List.filterMap_append, List.filterMap_append,
      filterMap_of_kind_ne (fun _ ↦ aliasNames?_of_kind_ne) (hbody.kind_ne .aliases (by decide)),
      List.append_nil]
    exact aliases_aliasesSection target.aliases
  have hentries : (ofTarget viewpoint target).filterMap Item.usedVariable? =
      target.usedVariables := by
    have hrest := (hdocumentation.append hsource).kind_ne .variableEntry (by decide)
    rw [houtline, List.filterMap_append, List.filterMap_append, List.filterMap_append,
      filterMap_of_kind_ne (fun _ ↦ usedVariable?_of_kind_ne)
        (haliases.kind_ne .variableEntry (by decide)),
      filterMap_variablesSection,
      filterMap_of_kind_ne (fun _ ↦ usedVariable?_of_kind_ne) hrest]
    exact List.append_nil _
  have hplaces : (ofTarget viewpoint target).filterMap Item.place? =
      if target.sourceFile = "" then []
      else [(viewpoint.shorten target.sourceFile, target.lineNumber)] := by
    have hfront := (haliases.append (hvariables.append hdocumentation)).kind_ne .source (by decide)
    have hassoc : ofTarget viewpoint target = [.title target.name target] ++
        (aliasesSection target.aliases ++ (variablesSection target.usedVariables ++
          documentationSection target)) ++
            sourceSection viewpoint target.sourceFile target.lineNumber := by
      simp [ofTarget]
    rw [hassoc, List.filterMap_append, List.filterMap_append,
      filterMap_of_kind_ne (fun _ ↦ place?_of_kind_ne) hfront, filterMap_sourceSection]
    rfl
  rw [targetContents, hnames, hlines, halias, hentries, hplaces]

theorem separator_mem_ofTarget_iff :
    .separator ∈ ofTarget viewpoint target ↔
      target.usedVariables ≠ [] ∧ target.documentation ≠ [] := by
  have hout : ∀ {outline : Outline} {grammar : Grammar}, Follows outline grammar →
      .separator ∉ kinds grammar → Item.separator ∉ outline := by
    intro outline grammar houtline hkind hmem
    exact houtline.kind_ne .separator hkind _ hmem rfl
  have haliases := hout (follows_aliasesSection target.aliases) (by decide)
  have hvariables := hout (follows_variablesSection target.usedVariables) (by decide)
  have hsource := hout (follows_sourceSection viewpoint target.sourceFile target.lineNumber)
    (by decide)
  have hdocumentation : .separator ∈ documentationSection target ↔
      target.usedVariables ≠ [] ∧ target.documentation ≠ [] := by
    unfold documentationSection
    split
    · next hempty => simp [List.isEmpty_iff.mp hempty]
    · next hlines =>
      have hlines : target.documentation ≠ [] := by simpa using hlines
      split
      · next hempty => simp [List.isEmpty_iff.mp hempty]
      · next hentries => simpa [hlines] using hentries
  simp [ofTarget, haliases, hvariables, hsource, hdocumentation]

end Detailed

/-! ### What outlines carry -/

/-- Outlines are words of their grammars, and what a model or a target holds is read back from them:
the first documented entry point, the included files in the order of their discovery, the groups
with their targets and headers; and the names, variables, lines and the place of a target. A
separator stands exactly between variables and documentation. -/
theorem outlines_carry_contents :
    (∀ model : Model, Follows (ofModel model) helpGrammar ∧
      ∃ included, model.InDiscoveryOrder included ∧
        helpContents (ofModel model) =
          { descriptions := model.openingFiles.head?.toList.map FileDoc.block
            includedFiles := included.map FileDoc.block
            categories := model.categories.map fun category ↦ (category.name, category.targets)
            headers := model.categoryNames }) ∧
    ∀ (viewpoint : Viewpoint) (target : Target),
      Follows (ofTarget viewpoint target) detailedGrammar ∧
        targetContents (ofTarget viewpoint target) =
          { names := [target.name]
            aliases := target.aliases
            usedVariables := target.usedVariables
            documentation := target.documentation
            places :=
              if target.sourceFile = "" then []
              else [(viewpoint.shorten target.sourceFile, target.lineNumber)] } ∧
        (.separator ∈ ofTarget viewpoint target ↔
          target.usedVariables ≠ [] ∧ target.documentation ≠ []) := by
  constructor
  · intro model
    have hcontents := helpContents_ofModel model
    rw [Model.entryPoint?_eq_head?] at hcontents
    exact ⟨follows_ofModel model, model.includedFiles, model.inDiscoveryOrder_includedFiles,
      hcontents⟩
  · intro viewpoint target
    exact ⟨follows_ofTarget viewpoint target, targetContents_ofTarget viewpoint target,
      separator_mem_ofTarget_iff viewpoint target⟩

end Outline

end HelpSheet
