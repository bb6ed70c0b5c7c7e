import HelpSheet.Page.Renderer
import HelpSheet.Proofs.Html.Escaping
import HelpSheet.Proofs.Markdown.Names
import HelpSheet.Proofs.Outline.Relocation
import HelpSheet.Proofs.Page.Json.Help
import HelpSheet.Proofs.Recipe.Escaping
import HelpSheet.Proofs.Text.Slots

/-!
# Pages of a tree that was moved

The directory that shortens source paths is the root of the tree. A page then tells where the tree
lies only by the paths of the included files, which are not shortened (`chunks_inTree`). So the page
is the same wherever the tree lies if it shows no such path, and different for every two roots if
it shows one (`page_inTree_eq_iff`).
-/

set_option autoImplicit false
set_option relaxedAutoImplicit false

namespace HelpSheet.Page

open HelpSheet.Path (IsInside IsRoot)

/-! ### Chunks item by item -/

section Items

variable (renderer : Renderer)

/-- The chunks of an item; a JSON page is not written item by item. -/
def itemChunks (item : Item) : List Chunk :=
  match renderer.format with
  | .make =>
    ((Text.itemLines renderer.scheme item).map (Chunk.mapText Escape.Recipe.escaped)).map
      (Chunk.mapText Text.statement)
  | .text => (Text.itemLines renderer.scheme item).map (Chunk.mapText (· ++ "\n"))
  | .html => (Html.itemBlock item).toList.map Html.Block.chunk
  | .markdown => (Markdown.itemChunk item).toList
  | .json => []

/-- The chunks before those of the items. -/
def openingChunks (outline : Outline) : List Chunk :=
  match renderer.format with
  | .html =>
    (Html.openingBlocks renderer.options.useColor (Html.titleOf outline) ++
      Html.headingBlocks outline).map Html.Block.chunk
  | .markdown => Markdown.headingChunks outline
  | _ => []

/-- The chunks after those of the items. -/
def closingChunks : List Chunk :=
  match renderer.format with
  | .html => [Html.closingBlock.chunk]
  | _ => []

variable {renderer}

/-- A page that is no JSON page is written item by item. -/
theorem chunks_eq (hformat : renderer.format ≠ .json) (workingDirectory : String) (view : View) :
    renderer.chunks workingDirectory view =
      openingChunks renderer (view.outline (renderer.viewpoint workingDirectory)) ++
        (view.outline (renderer.viewpoint workingDirectory)).flatMap (itemChunks renderer) ++
        closingChunks renderer := by
  obtain ⟨format, options⟩ := renderer
  unfold itemChunks
  cases format with
  | make =>
    simp [Renderer.chunks, openingChunks, closingChunks, Text.recipeChunks,
      Text.escapedLines, Text.lines, List.map_flatMap]
  | text =>
    simp [Renderer.chunks, openingChunks, closingChunks, Text.chunks, Text.lines,
      List.map_flatMap]
  | html =>
    simp [Renderer.chunks, openingChunks, closingChunks, Html.chunks,
      Html.documentBlocks, List.filterMap_eq_flatMap_toList, List.map_flatMap]
  | markdown =>
    simp [Renderer.chunks, openingChunks, closingChunks, Markdown.chunks,
      List.filterMap_eq_flatMap_toList]
  | json => exact absurd rfl hformat

variable (renderer) (files targets : String → String)

/-- No item shows the source path of its target, and of the paths of files only that of an included
file is shown. -/
theorem itemChunks_mapSources (item : Item) :
    itemChunks renderer (item.mapSources files targets) =
      itemChunks renderer (item.mapSources files id) := by
  unfold itemChunks
  cases renderer.format <;> cases item <;> rfl

theorem openingChunks_map (outline : Outline) :
    openingChunks renderer (outline.map (Item.mapSources files targets)) =
      openingChunks renderer outline := by
  unfold openingChunks
  cases outline with
  | nil => rfl
  | cons item outline => cases renderer.format <;> cases item <;> rfl

end Items

/-! ### JSON pages -/

section Values

variable {viewpoint plain : Outline.Viewpoint} (files : String → String) {targets : String → String}

theorem ofListedTarget_mapSource {target : Target}
    (hshown : viewpoint.shorten (targets target.sourceFile) = plain.shorten target.sourceFile) :
    Json.ofListedTarget viewpoint (target.mapSource targets) =
      Json.ofListedTarget plain target := by
  unfold Json.ofListedTarget
  rw [← hshown]
  rfl

theorem ofCategory_mapSources {category : Category}
    (hshown : ∀ target ∈ category.targets,
      viewpoint.shorten (targets target.sourceFile) = plain.shorten target.sourceFile) :
    Json.ofCategory viewpoint (category.mapSources targets) = Json.ofCategory plain category := by
  have htargets : (category.targets.map (Target.mapSource targets)).map
      (Json.ofListedTarget viewpoint) = category.targets.map (Json.ofListedTarget plain) := by
    rw [List.map_map]
    exact List.map_congr_left fun target htarget ↦
      ofListedTarget_mapSource (hshown target htarget)
  rw [Json.ofCategory, Json.ofCategory, ← htargets]
  rfl

/-- The value of a help view, where each source path of a target is shortened to what the path
before it was shortened to. -/
theorem ofModel_mapSources {model : Model}
    (hshown : ∀ source ∈ model.sources,
      viewpoint.shorten (targets source) = plain.shorten source) :
    Json.ofModel viewpoint (model.mapSources files targets) =
      Json.ofModel plain (model.mapSources files id) := by
  have hcategories : (model.categories.map (Category.mapSources targets)).map
      (Json.ofCategory viewpoint) =
        (model.categories.map (Category.mapSources id)).map (Json.ofCategory plain) := by
    rw [List.map_map, List.map_map]
    refine List.map_congr_left fun category hcategory ↦ ?_
    have hmoved : Json.ofCategory viewpoint (category.mapSources targets) =
        Json.ofCategory plain category := by
      refine ofCategory_mapSources fun target htarget ↦ ?_
      refine hshown _ (List.mem_append_right _ (List.mem_map_of_mem ?_))
      exact List.mem_flatMap.mpr ⟨category, hcategory, htarget⟩
    have hkept : Json.ofCategory plain (category.mapSources id) = Json.ofCategory plain category :=
      ofCategory_mapSources fun _ _ ↦ rfl
    exact hmoved.trans hkept.symm
  have hlist : Json.listField "categories" (Json.ofCategory viewpoint)
      (model.categories.map (Category.mapSources targets)) =
        Json.listField "categories" (Json.ofCategory plain)
          (model.categories.map (Category.mapSources id)) := by
    rw [Json.listField_eq, Json.listField_eq, hcategories]
  rw [Json.ofModel, Json.ofModel, Model.entryPoint?_mapSources, Model.entryPoint?_mapSources,
    Model.includedFiles_mapSources, Model.includedFiles_mapSources]
  exact congrArg (fun fields ↦ HelpSheet.Json.object (_ ++ fields)) hlist

theorem sourceFields_of_shorten {source : String}
    (hshown : viewpoint.shorten (targets source) = plain.shorten source) (lineNumber : Int) :
    Json.sourceFields viewpoint (targets source) lineNumber =
      Json.sourceFields plain source lineNumber := by
  simp only [Json.sourceFields, Outline.eq_empty_iff_of_shorten hshown, hshown]

/-- The value of a view with other paths. -/
theorem value_mapSources {view : View}
    (hshown : ∀ source ∈ view.sources,
      viewpoint.shorten (targets source) = plain.shorten source) :
    Renderer.value viewpoint (view.mapSources files targets) =
      Renderer.value plain (view.mapSources files id) := by
  cases view with
  | help model => exact ofModel_mapSources files hshown
  | detailed target =>
    have hsource := sourceFields_of_shorten (hshown target.sourceFile List.mem_cons_self)
      target.lineNumber
    exact congrArg (fun fields ↦ HelpSheet.Json.object (_ ++ fields)) hsource
  | basic name sourceFile lineNumber =>
    have hsource := sourceFields_of_shorten (hshown sourceFile List.mem_cons_self) lineNumber
    exact congrArg (fun fields ↦ HelpSheet.Json.object (_ :: fields)) hsource

end Values

/-! ### What shows where the tree lies -/

/-- The options of a page whose source paths are shortened by a directory. -/
def Options.basedAt (options : Options) (root : String) : Options :=
  { options with base := some (Path.ofString root) }

/-- The options of a page whose source paths are shown as they are. -/
def Options.unbased (options : Options) : Options :=
  { options with base := none }

variable {root : String} {view : View}

theorem shorten_basedAt (hroot : IsRoot root) (hview : view.LiesInTree) (format : Format)
    (options : Options) (workingDirectory elsewhere : String) :
    ∀ source ∈ view.sources,
      ((Renderer.mk format (options.basedAt root)).viewpoint workingDirectory).shorten
          (Path.inTree root source) =
        ((Renderer.mk format options.unbased).viewpoint elsewhere).shorten source := by
  intro source hsource
  have hbase : (Path.ofString root).text = root :=
    Path.text_ofString_of_normalize hroot.isShortest
  have hplain : ((Renderer.mk format options.unbased).viewpoint elsewhere).shorten source =
      source := by
    simp [Outline.Viewpoint.shorten, Renderer.viewpoint, Options.unbased, Path.shorten]
  rw [hplain, ← Path.shorten_inTree workingDirectory hroot (hview source hsource)]
  simp only [Outline.Viewpoint.shorten, Renderer.viewpoint, Options.basedAt, Option.map_some,
    hbase, Path.shorten_inTree workingDirectory hroot (hview source hsource)]

/-- A page of a tree that lies at a root is the page without shortening of the view that has the
whole paths of its files and the paths in the tree of its targets. -/
theorem chunks_inTree (hroot : IsRoot root) (hview : view.LiesInTree) (format : Format)
    (options : Options) (workingDirectory elsewhere : String) :
    (Renderer.mk format (options.basedAt root)).chunks workingDirectory (view.inTree root) =
      (Renderer.mk format options.unbased).chunks elsewhere
        (view.mapSources (Path.inTree root) id) := by
  have hshown := shorten_basedAt hroot hview format options workingDirectory elsewhere
  by_cases hformat : format = .json
  · subst hformat
    exact congrArg Json.chunks (value_mapSources (Path.inTree root) hshown)
  · have hchunks : ∀ item, itemChunks (Renderer.mk format (options.basedAt root)) item =
        itemChunks (Renderer.mk format options.unbased) item := fun _ ↦ rfl
    rw [chunks_eq hformat, chunks_eq hformat, View.inTree, View.outline_mapSources _ _ hshown,
      View.outline_mapSources _ id fun _ _ ↦ rfl, openingChunks_map, openingChunks_map,
      List.flatMap_map, List.flatMap_map]
    simp only [itemChunks_mapSources _ (Path.inTree root) (Path.inTree root)]
    rfl

/-! ### The paths of included files -/

/-- The characters in which a format of items writes a path. -/
def writtenPath : Format → List Char → List Char
  | .make, path => Escape.Recipe.escape path
  | .html, path => Escape.Html.escape path
  | .markdown, path => Escape.Markdown.escape path
  | .text, path => path
  | .json, path => path

theorem writtenPath_append (format : Format) (front back : List Char) :
    writtenPath format (front ++ back) = writtenPath format front ++ writtenPath format back := by
  cases format with
  | make => exact List.flatMap_append
  | html => exact List.flatMap_append
  | markdown => exact List.flatMap_append
  | text => rfl
  | json => rfl

theorem writtenPath_injective (format : Format) : Function.Injective (writtenPath format) := by
  cases format with
  | make => exact Function.LeftInverse.injective Escape.Recipe.unescape_escape
  | html => exact Function.LeftInverse.injective Escape.Html.decodeEntities_escape
  | markdown => exact Escape.Markdown.escape_injective
  | text => exact Function.injective_id
  | json => exact Function.injective_id

/-- The characters of an item. -/
def itemChars (renderer : Renderer) (item : Item) : List Char :=
  (itemChunks renderer item).flatMap fun chunk ↦ chunk.text.toList

/-- The path of an included file is written between two fixed texts. -/
theorem exists_itemChars_includedFile {renderer : Renderer} (hformat : renderer.format ≠ .json) :
    ∃ before after, ∀ path, itemChars renderer (.includedFile path) =
      before ++ writtenPath renderer.format path.toList ++ after := by
  obtain ⟨format, options⟩ := renderer
  cases format with
  | make =>
    have hblanks : ∀ path : List Char, Escape.Recipe.escape (' ' :: ' ' :: path) =
        ' ' :: ' ' :: Escape.Recipe.escape path := fun _ ↦ rfl
    refine ⟨Text.statementStart.toList ++ "  ".toList, Text.statementEnd.toList, fun path ↦ ?_⟩
    simp [itemChars, itemChunks, Text.itemLines, Text.linesOf, Text.plainLines, Chunk.mapText,
      Text.statement, Escape.Recipe.escaped, writtenPath, hblanks]
  | text =>
    refine ⟨"  ".toList, "\n".toList, fun path ↦ ?_⟩
    simp [itemChars, itemChunks, Text.itemLines, Text.linesOf, Text.plainLines, Chunk.mapText,
      writtenPath]
  | html =>
    open Html in
    refine ⟨(writeAll (lineOf 2 [startOf .division "file"] ++ [indent 3, start .heading3])).toList,
      (writeAll [.closing .heading3, lineEnd]).toList, fun path ↦ ?_⟩
    have hpath : (Html.Piece.text path).write.toList = writtenPath .html path.toList := by
      rw [Html.Piece.write, Escape.Html.escaped, String.toList_ofList]
      rfl
    have hpieces : itemChars ⟨.html, options⟩ (.includedFile path) =
        (Html.writeAll (Html.lineOf 2 [Html.startOf .division "file"] ++
          Html.lineOf 3 (Html.around .heading3 path))).toList := by
      simp [itemChars, itemChunks, Html.itemBlock, Html.blockOf, Html.silent, Html.Block.chunk]
    rw [hpieces, ← hpath]
    simp [Html.writeAll, Html.lineOf, Html.around, Html.inside]
  | markdown =>
    refine ⟨"### ".toList, "\n\n".toList, fun path ↦ ?_⟩
    simp [itemChars, itemChunks, Markdown.itemChunk, Markdown.chunkOf, Markdown.silent,
      Escape.Markdown.escaped, writtenPath]
  | json => exact absurd rfl hformat

theorem itemChunks_of_not_namesFile (renderer : Renderer) {item : Item}
    (hitem : item.namesFile = false) {files : String → String} (hfiles : files "" = "") :
    itemChunks renderer (item.mapSources files id) = itemChunks renderer item := by
  unfold itemChunks
  cases item with
  | includedFile path =>
    have hpath : path = "" := by simpa [Item.namesFile] using hitem
    rw [Item.mapSources, hpath, hfiles]
  | _ => cases renderer.format <;> rfl

section Roots

variable {renderer : Renderer} (P Q : String)

/-- The paths of two roots. -/
def writtenRoot (format : Format) (root : String) : List Char :=
  writtenPath format (Path.opened root).toList

theorem filled_itemChars (hformat : renderer.format ≠ .json) (item : Item) :
    Text.Filled (writtenRoot renderer.format P) (writtenRoot renderer.format Q)
      (if item.namesFile then 1 else 0)
      (itemChars renderer (item.mapSources (Path.inTree P) id))
      (itemChars renderer (item.mapSources (Path.inTree Q) id)) := by
  by_cases hitem : item.namesFile
  · rw [if_pos hitem]
    cases item with
    | includedFile path =>
      have hpath : path ≠ "" := by simpa [Item.namesFile] using hitem
      obtain ⟨before, after, hwritten⟩ := exists_itemChars_includedFile hformat
      have hroot : ∀ root, itemChars renderer (.includedFile (Path.inTree root path)) =
          before ++ writtenRoot renderer.format root ++
            (writtenPath renderer.format path.toList ++ after) := by
        intro root
        rw [hwritten, Path.inTree, if_neg hpath, String.toList_append, writtenPath_append,
          writtenRoot]
        simp only [List.append_assoc]
      rw [Item.mapSources, Item.mapSources, hroot, hroot]
      exact Text.Filled.slot.between _ _
    | _ => cases hitem
  · rw [if_neg hitem]
    have hfalse : item.namesFile = false := by simpa using hitem
    have hsame : ∀ root, itemChars renderer (item.mapSources (Path.inTree root) id) =
        itemChars renderer item := by
      intro root
      rw [itemChars, itemChunks_of_not_namesFile renderer hfalse rfl, itemChars]
    rw [hsame, hsame]
    exact .same _

/-- The items of a view at two roots are alike but for the roots in the paths of files. -/
theorem filled_items (hformat : renderer.format ≠ .json) (outline : Outline) :
    Text.Filled (writtenRoot renderer.format P) (writtenRoot renderer.format Q)
      (outline.countP Item.namesFile)
      (outline.flatMap fun item ↦ itemChars renderer (item.mapSources (Path.inTree P) id))
      (outline.flatMap fun item ↦ itemChars renderer (item.mapSources (Path.inTree Q) id)) := by
  induction outline with
  | nil => exact .same []
  | cons item outline ih =>
    rw [List.countP_cons, Nat.add_comm, List.flatMap_cons, List.flatMap_cons]
    exact (filled_itemChars P Q hformat item).append ih

/-- The characters of a page at a root, where only those of the items depend on the root. -/
theorem exists_page_toList (hformat : renderer.format ≠ .json) (workingDirectory : String)
    (view : View) :
    ∃ before after : List Char, ∀ root,
      (renderer.page workingDirectory (view.mapSources (Path.inTree root) id)).toList =
        before ++ ((view.outline (renderer.viewpoint workingDirectory)).flatMap fun item ↦
          itemChars renderer (item.mapSources (Path.inTree root) id)) ++ after := by
  refine ⟨(openingChunks renderer (view.outline (renderer.viewpoint workingDirectory))).flatMap
    fun chunk ↦ chunk.text.toList, (closingChunks renderer).flatMap fun chunk ↦ chunk.text.toList,
    fun root ↦ ?_⟩
  rw [Renderer.page, Chunk.pageText, String.toList_join, List.flatMap_map, chunks_eq hformat,
    View.outline_mapSources _ id fun _ _ ↦ rfl, openingChunks_map, List.flatMap_append,
    List.flatMap_append, List.flatMap_map, List.flatMap_assoc]
  rfl

/-- A page of items that shows the path of a file tells the root. -/
theorem writtenRoot_eq_of_page_eq (hformat : renderer.format ≠ .json) {workingDirectory : String}
    {view : View} (hnames : view.NamesFile)
    (hpages : renderer.page workingDirectory (view.mapSources (Path.inTree P) id) =
      renderer.page workingDirectory (view.mapSources (Path.inTree Q) id)) :
    writtenRoot renderer.format P = writtenRoot renderer.format Q := by
  let outline := view.outline (renderer.viewpoint workingDirectory)
  obtain ⟨before, after, hpage⟩ := exists_page_toList hformat workingDirectory view
  have hfilled := (filled_items P Q hformat outline).between before after
  have hsame := congrArg String.toList hpages
  rw [hpage, hpage] at hsame
  have hcount : 0 < outline.countP Item.namesFile := by
    rw [List.countP_pos_iff]
    exact (View.exists_namesFile_iff _ view).mpr hnames
  exact hfilled.eq_of_eq hsame hcount

/-- A page of items that shows no path of a file is the same at every root. -/
theorem page_eq_of_not_namesFile (hformat : renderer.format ≠ .json) {workingDirectory : String}
    {view : View} (hnames : ¬ view.NamesFile) :
    renderer.page workingDirectory (view.mapSources (Path.inTree P) id) =
      renderer.page workingDirectory (view.mapSources (Path.inTree Q) id) := by
  obtain ⟨before, after, hpage⟩ := exists_page_toList hformat workingDirectory view
  have hitems : ∀ root, (view.outline (renderer.viewpoint workingDirectory)).flatMap
      (fun item ↦ itemChars renderer (item.mapSources (Path.inTree root) id)) =
        (view.outline (renderer.viewpoint workingDirectory)).flatMap (itemChars renderer) := by
    intro root
    refine List.flatMap_congr fun item hitem ↦ ?_
    have hother : item.namesFile = false := by
      rw [Bool.eq_false_iff]
      exact fun hitem' ↦ hnames ((View.exists_namesFile_iff _ view).mp ⟨item, hitem, hitem'⟩)
    rw [itemChars, itemChunks_of_not_namesFile renderer hother rfl, itemChars]
  rw [← String.toList_inj, hpage, hpage, hitems, hitems]

end Roots

/-! ### JSON pages at two roots -/

theorem exists_field?_includedFiles (viewpoint : Outline.Viewpoint) (model : Model) :
    ∃ fields, Json.ofModel viewpoint model = .object fields ∧
      HelpSheet.Json.field? fields "includedFiles" =
        Json.present? (.array (model.includedFiles.map Json.ofIncludedFile)) := by
  refine ⟨_, rfl, ?_⟩
  have hdescription := Json.not_mem_description (show "includedFiles" ≠ _ by decide) model
  have hcategories : "includedFiles" ∉ (Json.listField "categories" (Json.ofCategory viewpoint)
      model.categories).map Prod.fst := Json.not_mem_listField (by decide) _ _
  rw [List.append_assoc, HelpSheet.Json.field?_append_of_not_mem, HelpSheet.Json.field?_append,
    Json.listField_eq, Json.field?_optional_self, HelpSheet.Json.field?_of_not_mem hcategories,
    Option.or_none]
  rw [List.map_cons, List.mem_cons, not_or]
  exact ⟨by decide, hdescription⟩

theorem present?_array_inj {first second : List HelpSheet.Json}
    (hpresent : Json.present? (.array first) = Json.present? (.array second)) : first = second := by
  cases first with
  | nil =>
    cases second with
    | nil => rfl
    | cons value second => cases hpresent
  | cons value first =>
    cases second with
    | nil => cases hpresent
    | cons other second => exact HelpSheet.Json.array.inj (Option.some_inj.mp hpresent)

variable {P Q : String}

/-- A JSON page that shows the path of a file tells the root. -/
theorem opened_eq_of_json_page_eq {options : Options} {workingDirectory : String} {view : View}
    (hnames : view.NamesFile)
    (hpages : (Json.renderer options).page workingDirectory (view.mapSources (Path.inTree P) id) =
      (Json.renderer options).page workingDirectory (view.mapSources (Path.inTree Q) id)) :
    Path.opened P = Path.opened Q := by
  obtain ⟨file, hfile, hsource⟩ := hnames
  cases view with
  | help model =>
    let viewpoint := (Json.renderer options).viewpoint workingDirectory
    have hvalues := congrArg HelpSheet.Json.parse hpages
    rw [Json.parse_page, Json.parse_page] at hvalues
    obtain ⟨first, hfirst, hfirstFiles⟩ :=
      exists_field?_includedFiles viewpoint (model.mapSources (Path.inTree P) id)
    obtain ⟨second, hsecond, hsecondFiles⟩ :=
      exists_field?_includedFiles viewpoint (model.mapSources (Path.inTree Q) id)
    have hobjects : Json.ofModel viewpoint (model.mapSources (Path.inTree P) id) =
        Json.ofModel viewpoint (model.mapSources (Path.inTree Q) id) := Except.ok.inj hvalues
    rw [hfirst, hsecond] at hobjects
    rw [HelpSheet.Json.object.inj hobjects, hsecondFiles, Model.includedFiles_mapSources,
      Model.includedFiles_mapSources, List.map_map, List.map_map] at hfirstFiles
    have hfiles := List.map_inj_left.mp (present?_array_inj hfirstFiles) file hfile
    have hpaths := List.head_eq_of_cons_eq (HelpSheet.Json.object.inj hfiles)
    have hpath : Path.inTree Q file.sourceFile = Path.inTree P file.sourceFile :=
      HelpSheet.Json.string.inj (Prod.mk.inj hpaths).2
    rw [Path.inTree, Path.inTree, if_neg hsource, if_neg hsource] at hpath
    exact (String.append_left_inj _ |>.mp hpath).symm
  | detailed target => cases hfile
  | basic name sourceFile lineNumber => cases hfile

/-- A JSON page that shows no path of a file does not depend on the paths of files. -/
theorem value_mapSources_of_not_namesFile (viewpoint : Outline.Viewpoint) {view : View}
    (hnames : ¬ view.NamesFile) {files : String → String} (hfiles : files "" = "") :
    Renderer.value viewpoint (view.mapSources files id) = Renderer.value viewpoint view := by
  cases view with
  | help model =>
    have hincluded : (model.mapSources files id).includedFiles = model.includedFiles := by
      rw [Model.includedFiles_mapSources]
      refine (List.map_congr_left fun file hfile ↦ ?_).trans (List.map_id' _)
      have hunknown : file.sourceFile = "" := by
        by_contra hsource
        exact hnames ⟨file, hfile, hsource⟩
      obtain ⟨sourceFile, documentation, isEntryPoint, order⟩ := file
      obtain rfl : sourceFile = "" := hunknown
      rw [FileDoc.mapSource, hfiles]
    have hcategories : (model.mapSources files id).categories = model.categories := by
      refine List.map_id'' (fun category ↦ ?_) _
      have htargets : category.targets.map (Target.mapSource id) = category.targets :=
        List.map_id'' (fun _ ↦ rfl) _
      rw [Category.mapSources, htargets]
    have hdescription : ((model.mapSources files id).entryPoint?.toList.flatMap fun file ↦
        Json.linesField "description" file.documentation) =
          model.entryPoint?.toList.flatMap fun file ↦
            Json.linesField "description" file.documentation := by
      rw [Model.entryPoint?_mapSources]
      cases model.entryPoint? <;> rfl
    change Json.ofModel viewpoint (model.mapSources files id) = Json.ofModel viewpoint model
    rw [Json.ofModel, hincluded, hcategories, hdescription]
    rfl
  | detailed target => rfl
  | basic name sourceFile lineNumber => rfl

/-! ### Pages at two roots -/

/-- A JSON page that shows no path of a file is the same at every root. -/
theorem json_page_eq_of_not_namesFile (options : Options) (workingDirectory : String)
    (hnames : ¬ view.NamesFile) (root : String) :
    (Json.renderer options).page workingDirectory (view.mapSources (Path.inTree root) id) =
      (Json.renderer options).page workingDirectory view := by
  rw [Json.page_eq, Json.page_eq, value_mapSources_of_not_namesFile _ hnames rfl]

/-- Where paths are not shortened, the pages at two roots are the same exactly when the roots are or
no path of a file is shown. -/
theorem page_mapSources_eq_iff (renderer : Renderer) (workingDirectory : String) (hP : IsRoot P)
    (hQ : IsRoot Q) :
    renderer.page workingDirectory (view.mapSources (Path.inTree P) id) =
        renderer.page workingDirectory (view.mapSources (Path.inTree Q) id) ↔
      P = Q ∨ ¬ view.NamesFile := by
  obtain ⟨format, options⟩ := renderer
  constructor
  · intro hpages
    by_cases hnames : view.NamesFile
    · left
      refine Path.opened_injective hP hQ ?_
      by_cases hformat : format = .json
      · subst hformat
        exact opened_eq_of_json_page_eq hnames hpages
      · have hwritten := writtenRoot_eq_of_page_eq P Q hformat hnames hpages
        exact String.toList_inj.mp (writtenPath_injective _ hwritten)
    · right
      exact hnames
  · rintro (rfl | hnames)
    · rfl
    · by_cases hformat : format = .json
      · subst hformat
        exact (json_page_eq_of_not_namesFile options workingDirectory hnames P).trans
          (json_page_eq_of_not_namesFile options workingDirectory hnames Q).symm
      · exact page_eq_of_not_namesFile P Q hformat hnames

/-- The page of a tree that lies at a root is the page without shortening of the view that has the
whole paths of its files and the paths in the tree of its targets. So the pages of a tree at two
roots are the same exactly when the roots are or no path of a file is shown. -/
theorem page_inTree_eq_iff (format : Format) (options : Options) (view : View)
    (hview : view.LiesInTree) (P Q : String) (hP : IsRoot P) (hQ : IsRoot Q)
    (workingDirectory elsewhere : String) :
    (Renderer.mk format (options.basedAt P)).page workingDirectory (view.inTree P) =
        (Renderer.mk format options.unbased).page elsewhere
          (view.mapSources (Path.inTree P) id) ∧
      ((Renderer.mk format (options.basedAt P)).page workingDirectory (view.inTree P) =
          (Renderer.mk format (options.basedAt Q)).page elsewhere (view.inTree Q) ↔
        P = Q ∨ ¬ view.NamesFile) := by
  have hpage : ∀ root, IsRoot root → ∀ directory,
      (Renderer.mk format (options.basedAt root)).page directory (view.inTree root) =
        (Renderer.mk format options.unbased).page elsewhere
          (view.mapSources (Path.inTree root) id) := by
    intro root hroot directory
    rw [Renderer.page, chunks_inTree hroot hview format options directory elsewhere, Renderer.page]
  refine ⟨hpage P hP workingDirectory, ?_⟩
  rw [hpage P hP, hpage Q hQ]
  exact page_mapSources_eq_iff _ elsewhere hP hQ

/-- The help on a build with an included file and a target, by their paths in the tree. -/
def lintView : View :=
  .help
    { fileDocs := [{ sourceFile := "mk/lint.mk", documentation := ["Lint."] }]
      categories := [{ name := "", targets := [{ name := "lint", sourceFile := "mk/lint.mk" }] }] }

theorem isInside_lint : IsInside "mk/lint.mk" where
  isRelative := by decide
  isShortest := by decide
  staysInside := by decide

theorem liesInTree_lintView : lintView.LiesInTree := by
  intro source hsource
  have hmem : source ∈ ["mk/lint.mk", "mk/lint.mk"] := hsource
  right
  obtain rfl | hmem := List.mem_cons.mp hmem
  · exact isInside_lint
  · obtain rfl := List.mem_singleton.mp hmem
    exact isInside_lint

theorem isRoot_p : IsRoot "/p" where
  isAbsolute := by decide
  isShortest := by decide

theorem isRoot_q : IsRoot "/q" where
  isAbsolute := by decide
  isShortest := by decide

theorem page_inTree_eq_iff_lintView :
    lintView.LiesInTree ∧ IsRoot "/p" ∧ IsRoot "/q" ∧
      ((Renderer.mk .text (Options.basedAt {} "/p")).page "/" (lintView.inTree "/p") =
        (Renderer.mk .text (Options.basedAt {} "/q")).page "/" (lintView.inTree "/q") ↔
          "/p" = "/q" ∨ ¬ lintView.NamesFile) :=
  ⟨liesInTree_lintView, isRoot_p, isRoot_q,
    (page_inTree_eq_iff .text {} lintView liesInTree_lintView "/p" "/q" isRoot_p isRoot_q
      "/" "/").2⟩

/-- The path of the included file shows where the tree lies. -/
theorem not_forall_page_inTree :
    ¬ ∀ (format : Format) (options : Options) (view : View) (P Q workingDirectory : String),
      view.LiesInTree → IsRoot P → IsRoot Q →
        (Renderer.mk format (options.basedAt P)).page workingDirectory (view.inTree P) =
          (Renderer.mk format (options.basedAt Q)).page workingDirectory (view.inTree Q) := by
  intro hall
  have hpages := hall .text {} lintView "/p" "/q" "/" liesInTree_lintView isRoot_p isRoot_q
  have hp : (Renderer.mk .text (Options.basedAt {} "/p")).page "/" (lintView.inTree "/p") =
      "Usage: make [<target>...] [<ENV_VAR>=<value>...]\n\nIncluded files:\n  /p/mk/lint.mk\n" ++
        "    Lint.\n\n\nTargets:\n  - lint\n" := by decide +kernel
  have hq : (Renderer.mk .text (Options.basedAt {} "/q")).page "/" (lintView.inTree "/q") =
      "Usage: make [<target>...] [<ENV_VAR>=<value>...]\n\nIncluded files:\n  /q/mk/lint.mk\n" ++
        "    Lint.\n\n\nTargets:\n  - lint\n" := by decide +kernel
  rw [hp, hq] at hpages
  exact absurd hpages (by decide)

end HelpSheet.Page
