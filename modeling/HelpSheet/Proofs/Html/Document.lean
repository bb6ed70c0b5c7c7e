import HelpSheet.Page.Renderer
import HelpSheet.Proofs.Html.Nesting

/-!
# HTML pages are well formed

Every group of pieces that an outline gives leaves no element open: the start and the end of a
section stand in different items, and between them stand items that leave nothing open
(`leads_section`). This holds for the outlines of the three views, so a page is its frame around
content that is nested properly (`htmlPage_wellFormed`).
-/

set_option autoImplicit false
set_option relaxedAutoImplicit false

namespace HelpSheet.Page.Html

/-! ### Items -/

/-- The pieces of an item. -/
def itemPieces (item : Item) : List Piece :=
  (itemBlock item).elim [] Block.pieces

/-- The pieces of an outline. -/
def outlinePieces (outline : Outline) : List Piece :=
  outline.flatMap itemPieces

theorem leads_paragraph (depth : Nat) (raw : String) :
    Leads [] [] (paragraph depth raw (inlinePieces (Markup.parse raw))).pieces := by
  unfold paragraph
  by_cases hraw : raw = ""
  · rw [if_pos hraw]
    exact leads_of_template rfl fun _ ↦ rfl
  · rw [if_neg hraw]
    exact ((leads_inlinePieces (Markup.parse raw)).inside rfl rfl).lineOf depth

theorem leads_commaSeparated {groups : List (List Piece)}
    (hgroups : ∀ group ∈ groups, Leads [] [] group) : Leads [] [] (commaSeparated groups) := by
  induction groups with
  | nil => exact .nil []
  | cons group groups ih =>
    rw [List.forall_mem_cons] at hgroups
    obtain ⟨hgroup, hgroups⟩ := hgroups
    cases groups with
    | nil => simpa [commaSeparated] using hgroup
    | cons next groups =>
      rw [commaSeparated, List.intersperse_cons_cons, List.flatten_cons, List.flatten_cons]
      exact hgroup.append ((leads_text [] ", ").append (ih hgroups))

theorem leads_aliasPieces (names : List String) : Leads [] [] (aliasPieces names) := by
  unfold aliasPieces
  cases names with
  | nil => exact .nil []
  | cons name names => exact leads_of_template rfl fun _ ↦ rfl

theorem leads_summaryPieces (summary : Markup.RichText) :
    Leads [] [] (summaryPieces (inlinePieces summary)) := by
  have hsummary : Leads [] [] (.text ": " :: insideOf .span "summary" (inlinePieces summary)) :=
    (leads_text [] ": ").append ((leads_inlinePieces summary).insideOf rfl rfl)
  unfold summaryPieces
  by_cases hempty : writeAll (inlinePieces summary) = ""
  · rw [if_pos hempty]
    exact .nil []
  · rw [if_neg hempty]
    exact hsummary

theorem leads_variableName (name : String) : Leads [] [] (variableName name) :=
  leads_of_template rfl fun _ ↦ rfl

theorem leads_variablesPieces (usedVariables : List Variable) :
    Leads [] [] (variablesPieces usedVariables) := by
  have hopen : Leads [] [.division] (lineOf 5 [startOf .division "variables"]) :=
    (leads_opening rfl).lineOf 5
  have hclose : Leads [.division] [] (lineOf 5 [.closing .division]) :=
    (leads_closing rfl).lineOf 5
  have hnames : Leads [] [] (.text "Variables: " ::
      commaSeparated (usedVariables.map fun entry ↦ variableName entry.name)) := by
    refine (leads_text [] "Variables: ").append (leads_commaSeparated fun group hgroup ↦ ?_)
    obtain ⟨entry, -, rfl⟩ := List.mem_map.mp hgroup
    exact leads_variableName entry.name
  unfold variablesPieces
  cases usedVariables with
  | nil => exact .nil []
  | cons entry rest => exact (hopen.append ((hnames.lineOf 6).within [.division])).append hclose

theorem leads_targetBlock (target : Target) :
    Leads [] [] (targetBlock target (inlinePieces target.summary)).pieces := by
  have hopen : Leads [] [.listItem] (lineOf 4 [startOf .listItem "target"]) :=
    (leads_opening rfl).lineOf 4
  have hclose : Leads [.listItem] [] (lineOf 4 [.closing .listItem]) :=
    (leads_closing rfl).lineOf 4
  have hname : Leads [] [] (insideOf .span "target-name" [.text target.name]) :=
    (leads_text [] target.name).insideOf rfl rfl
  have hline := ((hname.append (leads_aliasPieces target.aliases)).append
    (leads_summaryPieces target.summary)).lineOf 5
  exact ((hopen.append (hline.within [.listItem])).append
    ((leads_variablesPieces target.usedVariables).within [.listItem])).append hclose

theorem leads_variableBlock (entry : Variable) :
    Leads [] [] (variableBlock entry (inlinePieces (Markup.parse entry.description))).pieces := by
  have hdescription : Leads [] [] (.text ": " :: inlinePieces (Markup.parse entry.description)) :=
    (leads_text [] ": ").append (leads_inlinePieces (Markup.parse entry.description))
  have hitem : ∀ description, Leads [] [] description → Leads [] []
      (lineOf 3 (inside .listItem (variableName entry.name ++ description))) :=
    fun description hleads ↦
      (((leads_variableName entry.name).append hleads).inside rfl rfl).lineOf 3
  simp only [variableBlock]
  by_cases hempty : entry.description = ""
  · rw [if_pos hempty]
    exact hitem [] (.nil [])
  · rw [if_neg hempty]
    exact hitem _ hdescription

/-! ### Outlines -/

theorem outlinePieces_cons (item : Item) (outline : Outline) :
    outlinePieces (item :: outline) = itemPieces item ++ outlinePieces outline := rfl

theorem leads_outline {outline : Outline}
    (hitems : ∀ item ∈ outline, Leads [] [] (itemPieces item)) :
    Leads [] [] (outlinePieces outline) :=
  leads_flatMap hitems

theorem leads_outline_append {first second : Outline} (hfirst : Leads [] [] (outlinePieces first))
    (hsecond : Leads [] [] (outlinePieces second)) :
    Leads [] [] (outlinePieces (first ++ second)) := by
  rw [outlinePieces, List.flatMap_append]
  exact hfirst.append hsecond

theorem leads_outline_flatMap {α : Type} {parts : List α} {form : α → Outline}
    (hparts : ∀ part ∈ parts, Leads [] [] (outlinePieces (form part))) :
    Leads [] [] (outlinePieces (parts.flatMap form)) := by
  rw [outlinePieces, List.flatMap_assoc]
  exact leads_flatMap hparts

/-- The last item of a section closes what the first one opens, and what stands between them leaves
nothing open. -/
theorem leads_section {elements : List Element} {first last : Item} {content : Outline}
    (hfirst : Leads [] elements (itemPieces first))
    (hcontent : Leads [] [] (outlinePieces content))
    (hlast : Leads elements [] (itemPieces last)) :
    Leads [] [] (outlinePieces (first :: content ++ [last])) := by
  rw [List.cons_append, outlinePieces_cons, outlinePieces, List.flatMap_append,
    List.flatMap_singleton]
  exact hfirst.append ((hcontent.within elements).append hlast)

theorem leads_map {α : Type} (form : α → Item)
    (hform : ∀ value, Leads [] [] (itemPieces (form value))) (values : List α) :
    Leads [] [] (outlinePieces (values.map form)) := by
  refine leads_outline fun item hitem ↦ ?_
  obtain ⟨value, -, rfl⟩ := List.mem_map.mp hitem
  exact hform value

theorem leads_item {item : Item} (hitem : Leads [] [] (itemPieces item)) :
    Leads [] [] (outlinePieces [item]) :=
  leads_outline fun other hother ↦ by rwa [List.mem_singleton.mp hother]

theorem leads_descriptionSection (file : Option FileDoc) :
    Leads [] [] (outlinePieces (Outline.descriptionSection file)) := by
  cases file with
  | none => exact .nil []
  | some file =>
    have hfirst : Leads [] [.division, .part] (itemPieces (.descriptionStart file.sourceFile)) :=
      leads_of_template rfl fun _ ↦ rfl
    exact leads_section hfirst (leads_map _ (leads_paragraph 3) file.documentation)
      (leads_of_template rfl fun _ ↦ rfl)

theorem leads_includedFileSection (file : FileDoc) :
    Leads [] [] (outlinePieces (Outline.includedFileSection file)) := by
  have hfirst : Leads [] [.division] (itemPieces (.includedFile file.sourceFile)) :=
    leads_of_template rfl fun _ ↦ rfl
  exact leads_section hfirst (leads_map _ (leads_paragraph 3) file.documentation)
    (leads_of_template rfl fun _ ↦ rfl)

theorem leads_includedSection (files : List FileDoc) :
    Leads [] [] (outlinePieces (Outline.includedSection files)) := by
  have hfirst : Leads [] [.part] (itemPieces .includedStart) :=
    leads_of_template rfl fun _ ↦ rfl
  cases files with
  | nil => exact .nil []
  | cons file files =>
    exact leads_section hfirst
      (leads_outline_flatMap fun file _ ↦ leads_includedFileSection file)
      (leads_of_template rfl fun _ ↦ rfl)

theorem leads_categorySection (category : Category) :
    Leads [] [] (outlinePieces (Outline.categorySection category)) := by
  have hfirst : Leads [] [.division] (itemPieces (.categoryStart category.name)) :=
    leads_of_template rfl fun _ ↦ rfl
  have hlist : Leads [] [.list] (itemPieces .targetListStart) :=
    leads_of_template rfl fun _ ↦ rfl
  have hheader : Leads [] [] (outlinePieces (Outline.categoryHeader category)) := by
    unfold Outline.categoryHeader
    cases category.isUnnamed with
    | true => exact .nil []
    | false => exact leads_item (leads_of_template rfl fun _ ↦ rfl)
  have hlistEnd : Leads [.list] [] (itemPieces .targetListEnd) :=
    leads_of_template rfl fun _ ↦ rfl
  have htargets := leads_section hlist
    (leads_map .target leads_targetBlock category.targets) hlistEnd
  exact leads_section hfirst (leads_outline_append hheader htargets)
    (leads_of_template rfl fun _ ↦ rfl)

theorem leads_targetsSection (categories : List Category) :
    Leads [] [] (outlinePieces (Outline.targetsSection categories)) := by
  have hfirst : Leads [] [.part] (itemPieces .targetsStart) :=
    leads_of_template rfl fun _ ↦ rfl
  cases categories with
  | nil => exact .nil []
  | cons category categories =>
    exact leads_section hfirst
      (leads_outline_flatMap fun category _ ↦ leads_categorySection category)
      (leads_of_template rfl fun _ ↦ rfl)

theorem leads_ofModel (model : Model) : Leads [] [] (outlinePieces (Outline.ofModel model)) := by
  have husage : Leads [] [] (outlinePieces [.usage Outline.usageLine]) :=
    leads_item (leads_of_template rfl fun _ ↦ rfl)
  exact leads_outline_append
    (leads_outline_append
      (leads_outline_append husage (leads_descriptionSection model.entryPoint?))
      (leads_includedSection model.includedFiles))
    (leads_targetsSection model.categories)

theorem leads_aliasesSection (names : List String) :
    Leads [] [] (outlinePieces (Outline.aliasesSection names)) := by
  cases names with
  | nil => exact .nil []
  | cons name names => exact leads_item (leads_of_template rfl fun _ ↦ rfl)

theorem leads_variablesSection (usedVariables : List Variable) :
    Leads [] [] (outlinePieces (Outline.variablesSection usedVariables)) := by
  have hfirst : Leads [] [.list, .division] (itemPieces .variablesStart) :=
    leads_of_template rfl fun _ ↦ rfl
  cases usedVariables with
  | nil => exact .nil []
  | cons entry rest =>
    exact leads_section hfirst (leads_map _ leads_variableBlock (entry :: rest))
      (leads_of_template rfl fun _ ↦ rfl)

theorem leads_documentationSection (target : Target) :
    Leads [] [] (outlinePieces (Outline.documentationSection target)) := by
  have hfirst : Leads [] [.division] (itemPieces .documentationStart) :=
    leads_of_template rfl fun _ ↦ rfl
  have hlast : Leads [.division] [] (itemPieces .documentationEnd) :=
    leads_of_template rfl fun _ ↦ rfl
  have hlines := leads_section hfirst
    (leads_map .documentationLine (leads_paragraph 2) target.documentation) hlast
  have hseparator : ∀ absent : Bool,
      Leads [] [] (outlinePieces (if absent then [] else [.separator])) := by
    rintro (_ | _)
    · exact leads_item (.nil [])
    · exact .nil []
  unfold Outline.documentationSection
  cases target.documentation.isEmpty with
  | true => exact .nil []
  | false =>
    simp only [Bool.false_eq_true, if_false, List.append_assoc]
    exact leads_outline_append (hseparator target.usedVariables.isEmpty) hlines

theorem leads_sourceSection (viewpoint : Outline.Viewpoint) (sourceFile : String)
    (lineNumber : Int) :
    Leads [] [] (outlinePieces (Outline.sourceSection viewpoint sourceFile lineNumber)) := by
  unfold Outline.sourceSection
  by_cases hsource : sourceFile = ""
  · rw [if_pos hsource]
    exact .nil []
  · rw [if_neg hsource]
    exact leads_item (leads_of_template rfl fun _ ↦ rfl)

theorem leads_title (name : String) (target : Option Target) :
    Leads [] [] (outlinePieces [.title name target]) :=
  leads_item (leads_of_template rfl fun _ ↦ rfl)

theorem leads_ofTarget (viewpoint : Outline.Viewpoint) (target : Target) :
    Leads [] [] (outlinePieces (Outline.ofTarget viewpoint target)) :=
  leads_outline_append
    (leads_outline_append
      (leads_outline_append
        (leads_outline_append (leads_title target.name target)
          (leads_aliasesSection target.aliases))
        (leads_variablesSection target.usedVariables))
      (leads_documentationSection target))
    (leads_sourceSection viewpoint target.sourceFile target.lineNumber)

theorem leads_ofName (viewpoint : Outline.Viewpoint) (name sourceFile : String)
    (lineNumber : Int) :
    Leads [] [] (outlinePieces (Outline.ofName viewpoint name sourceFile lineNumber)) := by
  have hnotice : Leads [] [] (outlinePieces [.noDocumentation Outline.noDocumentationNotice]) :=
    leads_item (leads_of_template rfl fun _ ↦ rfl)
  exact leads_outline_append (leads_title name none)
    (leads_outline_append hnotice (leads_sourceSection viewpoint sourceFile lineNumber))

/-- The outline of every view leaves no element open. -/
theorem leads_view (viewpoint : Outline.Viewpoint) (view : View) :
    Leads [] [] (outlinePieces (view.outline viewpoint)) := by
  cases view with
  | help model => exact leads_ofModel model
  | detailed target => exact leads_ofTarget viewpoint target
  | basic name sourceFile lineNumber => exact leads_ofName viewpoint name sourceFile lineNumber

/-! ### Documents -/

/-- The names of the elements that a document has once. -/
def singleNames : List (List Char) :=
  ["html", "head", "body"].map String.toList

/-- The tags before the content of a document. -/
def openingTags (useColor : Bool) : List (List Char) :=
  (["!DOCTYPE html", "html", "head", "meta charset=\"UTF-8\"", "title", "/title"] ++
    (if useColor then ["style", "/style"] else []) ++ ["/head", "body"]).map String.toList

/-- The tags after the content of a document. -/
def closingTags : List (List Char) :=
  ["/body", "/html"].map String.toList

/-- The pieces before the content of a document. -/
def openingPieces (useColor : Bool) (title : String) : List Piece :=
  (openingBlocks useColor title).flatMap Block.pieces

/-- The pieces of the content of a document. -/
def contentPieces (outline : Outline) : List Piece :=
  (headingBlocks outline).flatMap Block.pieces ++ outlinePieces outline

/-- The pieces of a document. -/
def documentPieces (useColor : Bool) (outline : Outline) : List Piece :=
  openingPieces useColor (titleOf outline) ++ contentPieces outline ++ closingBlock.pieces

theorem flatMap_filterMap_itemBlock (outline : Outline) :
    (outline.filterMap itemBlock).flatMap Block.pieces = outlinePieces outline := by
  induction outline with
  | nil => rfl
  | cons item outline ih =>
    rw [outlinePieces_cons, ← ih, itemPieces]
    cases hitem : itemBlock item with
    | none => rw [List.filterMap_cons_none hitem, Option.elim_none, List.nil_append]
    | some block => rw [List.filterMap_cons_some hitem, List.flatMap_cons, Option.elim_some]

theorem flatMap_documentBlocks (useColor : Bool) (outline : Outline) :
    (documentBlocks useColor outline).flatMap Block.pieces = documentPieces useColor outline := by
  rw [documentBlocks, List.flatMap_append, List.flatMap_append, List.flatMap_append,
    flatMap_filterMap_itemBlock, List.flatMap_singleton, documentPieces, openingPieces,
    contentPieces, ← List.append_assoc]

/-- A page is written from the pieces of its document. -/
theorem htmlPage_toList (options : Options) (workingDirectory : String) (view : View) :
    ((Renderer.mk .html options).page workingDirectory view).toList =
      (writeAll (documentPieces options.useColor
        (view.outline ((Renderer.mk .html options).viewpoint workingDirectory)))).toList := by
  have hblock : ∀ block : Block,
      block.chunk.text.toList = block.pieces.flatMap fun piece ↦ piece.write.toList := by
    intro block
    rw [Block.chunk, writeAll_toList]
  rw [writeAll_toList, ← flatMap_documentBlocks, List.flatMap_assoc, Renderer.page, Chunk.pageText,
    String.toList_join, List.flatMap_map]
  simp only [← hblock]
  exact List.flatMap_map Block.chunk (fun chunk ↦ chunk.text.toList) _

theorem tags_openingPieces (useColor : Bool) (title : String) :
    tags (openingPieces useColor title) = openingTags useColor := by
  cases useColor <;> rfl

theorem tags_closingBlock : tags closingBlock.pieces = closingTags := by decide

theorem mem_frameTags_of_mem_openingTags (useColor : Bool) :
    ∀ tag ∈ openingTags useColor, tag ∈ frameTags := by
  cases useColor <;> decide

theorem mem_frameTags_of_mem_closingTags : ∀ tag ∈ closingTags, tag ∈ frameTags := by decide

theorem count_openingTags (useColor : Bool) :
    ∀ name ∈ singleNames, ((openingTags useColor).map nameOf).count name = 1 := by
  cases useColor <;> decide

theorem count_closingTags : ∀ name ∈ singleNames, (closingTags.map nameOf).count name = 0 := by
  decide

theorem leads_contentPieces {outline : Outline} (houtline : Leads [] [] (outlinePieces outline)) :
    Leads [] [] (contentPieces outline) := by
  have hheading : Leads [] [] ((headingBlocks outline).flatMap Block.pieces) := by
    unfold headingBlocks
    split
    · exact .nil []
    · exact leads_of_template rfl fun _ ↦ rfl
  exact hheading.append houtline

theorem nameOf_not_mem_singleNames {tag : List Char} (htag : IsContentTag tag) :
    nameOf tag ∉ singleNames := by
  have hcontent : ∀ tag ∈ contentTags, nameOf tag ∉ singleNames := by decide
  rcases htag with htag | ⟨value, rfl, -, -⟩
  · exact hcontent tag htag
  · have hname : nameOf ("a href=\"".toList ++ value ++ ['\x22']) = ['a'] := rfl
    rw [hname]
    decide

/-- The tags of a document: its frame around tags of the content. -/
theorem tags_documentPieces (useColor : Bool) (outline : Outline) :
    tags (documentPieces useColor outline) =
      openingTags useColor ++ tags (contentPieces outline) ++ closingTags := by
  rw [documentPieces, tags_append, tags_append, tags_openingPieces, tags_closingBlock]

theorem foldlM_move_documentPieces {useColor : Bool} {outline : Outline}
    (houtline : Leads [] [] (outlinePieces outline)) :
    (documentPieces useColor outline).foldlM move [] = some [] := by
  have hopening : (openingPieces useColor (titleOf outline)).foldlM move [] =
      some [.body, .document] := by
    cases useColor <;> rfl
  have hcontent := (leads_contentPieces houtline).opened [.body, .document]
  have hclosing : closingBlock.pieces.foldlM move [.body, .document] = some [] := by decide
  rw [List.nil_append] at hcontent
  rw [documentPieces, List.foldlM_append, List.foldlM_append, hopening, Option.bind_eq_bind,
    Option.bind_some, hcontent]
  exact hclosing

/-- The reader finds in the page the given tags, all of them known; every ampersand begins an
entity; every element is closed when it is the innermost open one, and none is left open; and the
elements that a document has once start once. -/
structure WellFormed (page : List Char) (found : List (List Char)) : Prop where
  read : readTags none page = some found
  known : ∀ tag ∈ found, tag ∈ frameTags ∨ IsContentTag tag
  entities : Escape.Html.EntitiesOnly page
  nested : found.foldlM track [] = some []
  single : ∀ name ∈ singleNames, (found.map nameOf).count name = 1

theorem wellFormed_writeAll {useColor : Bool} {outline : Outline}
    (houtline : Leads [] [] (outlinePieces outline)) :
    WellFormed (writeAll (documentPieces useColor outline)).toList
      (tags (documentPieces useColor outline)) where
  read := readTags_writeAll _
  known := by
    intro tag htag
    rw [tags_documentPieces, List.mem_append, List.mem_append] at htag
    rcases htag with (htag | htag) | htag
    · exact .inl (mem_frameTags_of_mem_openingTags useColor tag htag)
    · exact .inr ((leads_contentPieces houtline).content tag htag)
    · exact .inl (mem_frameTags_of_mem_closingTags tag htag)
  entities := entitiesOnly_writeAll _
  nested := track_tags (foldlM_move_documentPieces houtline)
  single := by
    intro name hname
    have hcontent : ((tags (contentPieces outline)).map nameOf).count name = 0 := by
      refine List.count_eq_zero.mpr fun hmem ↦ ?_
      obtain ⟨tag, htag, rfl⟩ := List.mem_map.mp hmem
      exact nameOf_not_mem_singleNames ((leads_contentPieces houtline).content tag htag) hname
    rw [tags_documentPieces, List.map_append, List.map_append, List.count_append,
      List.count_append, count_openingTags useColor name hname, hcontent,
      count_closingTags name hname]

/-- Every HTML page is well formed, whatever the view, the options and the working directory
are. -/
theorem htmlPage_wellFormed (options : Options) (workingDirectory : String) (view : View) :
    ∃ found, WellFormed ((Renderer.mk .html options).page workingDirectory view).toList found := by
  rw [htmlPage_toList]
  exact ⟨_, wellFormed_writeAll (leads_view _ view)⟩

end HelpSheet.Page.Html
