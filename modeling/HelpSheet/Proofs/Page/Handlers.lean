import HelpSheet.Page.Delivery
import HelpSheet.Proofs.Outline.Grammar
import HelpSheet.Proofs.Page.Json.Numbers
import HelpSheet.Proofs.Page.Json.Targets
import HelpSheet.Proofs.Page.Relocation

/-!
# Pages made of records

The records of a view can be made unless the view names the place of a target whose line number is
too long to be written (`tokens_outline`). A step that writes a record finds all that it looks for:
the record holds what its kind needs, and the table of a format has an entry for every kind of
segment (`tokenSteps_tokenAt`). The object of a JSON page is folded without a failure (`object?_eq`)
and can be written unless it holds such a number. So a page is delivered as its chunks, or not begun
at all (`deliver_of_hasShortNumbers`, `deliver_of_not_hasShortNumbers`).
-/

set_option autoImplicit false
set_option relaxedAutoImplicit false

namespace HelpSheet

open Text.Numeral (IsShort TooGreat maxDigits written?_of_isShort written?_of_not_isShort)

/-! ### Records of outlines -/

/-- The number of the line that an item names, if it names one, is short enough to be written. -/
def Item.HasShortLine : Item → Prop
  | .source _ line => IsShort line
  | _ => True

theorem Item.token_of_hasShortLine {item : Item} (hitem : item.HasShortLine) :
    item.token = .ok (item.tokenAt item.placeText) := by
  cases item with
  | source path line =>
    rw [token, placeText?, written?_of_isShort hitem]
    rfl
  | _ => rfl

theorem Item.token_of_not_hasShortLine {item : Item} (hitem : ¬ item.HasShortLine) :
    item.token = .error ⟨maxDigits⟩ := by
  cases item with
  | source path line =>
    rw [token, placeText?, written?_of_not_isShort hitem]
    rfl
  | _ => exact absurd trivial hitem

namespace Outline

variable {outline : Outline}

/-- The records of an outline, however long the numbers in it are. -/
def records (outline : Outline) : List Token :=
  outline.map fun item ↦ item.tokenAt item.placeText

theorem tokens_cons (item : Item) (outline : Outline) :
    tokens (item :: outline) =
      item.token.bind fun token ↦ (tokens outline).map fun rest ↦ token :: rest := by
  rw [tokens, List.mapM_cons]
  cases item.token with
  | error fault => rfl
  | ok token => rw [tokens]; cases outline.mapM Item.token <;> rfl

theorem tokens_of_hasShortLines (houtline : ∀ item ∈ outline, item.HasShortLine) :
    outline.tokens = .ok outline.records := by
  induction outline with
  | nil => rfl
  | cons item outline ih =>
    obtain ⟨hitem, houtline⟩ := List.forall_mem_cons.mp houtline
    rw [tokens_cons, Item.token_of_hasShortLine hitem, ih houtline]
    rfl

theorem tokens_of_not_hasShortLine {item : Item} (hmem : item ∈ outline)
    (hitem : ¬ item.HasShortLine) : outline.tokens = .error ⟨maxDigits⟩ := by
  induction outline with
  | nil => cases hmem
  | cons first outline ih =>
    rw [tokens_cons]
    by_cases hfirst : first.HasShortLine
    · have hrest : item ∈ outline := by
        obtain rfl | hrest := List.mem_cons.mp hmem
        · exact absurd hfirst hitem
        · exact hrest
      rw [Item.token_of_hasShortLine hfirst, ih hrest]
      rfl
    · rw [Item.token_of_not_hasShortLine hfirst]
      rfl

/-- Only the place of a target has a line number. -/
theorem hasShortLine_of_kind_ne {item : Item} (hkind : item.kind ≠ .source) :
    item.HasShortLine := by
  cases item with
  | source path line => exact absurd rfl hkind
  | _ => trivial

end Outline

namespace Page

open Markup (RichText Segment SegmentKind)

/-! ### Numbers of views -/

/-- The view names no place, or one whose line number is short enough to be written. -/
def View.HasShortPlace : View → Prop
  | .help _ => True
  | .detailed target => target.sourceFile ≠ "" → IsShort target.lineNumber
  | .basic _ sourceFile lineNumber => sourceFile ≠ "" → IsShort lineNumber

theorem View.HasShortNumbers.hasShortPlace {format : Format} {view : View}
    (hview : view.HasShortNumbers format) : view.HasShortPlace := by
  cases view with
  | help model => trivial
  | detailed target => exact hview
  | basic name sourceFile lineNumber => exact hview

theorem hasShortLine_of_mem_sourceSection {viewpoint : Outline.Viewpoint} {sourceFile : String}
    {lineNumber : Int} (hline : sourceFile ≠ "" → IsShort lineNumber) :
    ∀ item ∈ Outline.sourceSection viewpoint sourceFile lineNumber, item.HasShortLine := by
  unfold Outline.sourceSection
  split
  · exact List.forall_mem_nil _
  · next hsource => exact List.forall_mem_singleton.mpr (hline hsource)

/-- The records of a view are made at once, unless the number of the place that it names is too long
to be written. -/
theorem tokens_outline (viewpoint : Outline.Viewpoint) {view : View} (hview : view.HasShortPlace) :
    (view.outline viewpoint).tokens = .ok (view.outline viewpoint).records := by
  refine Outline.tokens_of_hasShortLines fun item hitem ↦ ?_
  cases view with
  | help model =>
    refine Outline.hasShortLine_of_kind_ne ?_
    exact (Outline.follows_ofModel model).kind_ne .source (by decide) item hitem
  | detailed target =>
    have htitle : Outline.Follows [.title target.name target] (.char .title) :=
      Outline.follows_item _
    have hfront := ((htitle.append (Outline.follows_aliasesSection target.aliases)).append
      (Outline.follows_variablesSection target.usedVariables)).append
        (Outline.follows_documentationSection target)
    rcases List.mem_append.mp hitem with hmem | hsource
    · exact Outline.hasShortLine_of_kind_ne (hfront.kind_ne .source (by decide) item hmem)
    · exact hasShortLine_of_mem_sourceSection hview item hsource
  | basic name sourceFile lineNumber =>
    rw [View.outline, Outline.ofName, List.mem_cons, List.mem_cons] at hitem
    obtain rfl | rfl | hsource := hitem
    · trivial
    · trivial
    · exact hasShortLine_of_mem_sourceSection hview item hsource

/-- Where the number is too long, no record is made. -/
theorem tokens_outline_of_not_hasShortPlace (viewpoint : Outline.Viewpoint) {view : View}
    (hview : ¬ view.HasShortPlace) :
    (view.outline viewpoint).tokens = .error ⟨maxDigits⟩ := by
  have hsource {sourceFile : String} {lineNumber : Int}
      (hline : ¬ (sourceFile ≠ "" → IsShort lineNumber)) :
      ∃ item ∈ Outline.sourceSection viewpoint sourceFile lineNumber, ¬ item.HasShortLine := by
    rw [Classical.not_imp] at hline
    rw [Outline.sourceSection, if_neg hline.1]
    exact ⟨_, List.mem_singleton_self _, hline.2⟩
  cases view with
  | help model => exact absurd trivial hview
  | detailed target =>
    obtain ⟨item, hmem, hitem⟩ := hsource hview
    exact Outline.tokens_of_not_hasShortLine (List.mem_append_right _ hmem) hitem
  | basic name sourceFile lineNumber =>
    obtain ⟨item, hmem, hitem⟩ := hsource hview
    exact Outline.tokens_of_not_hasShortLine
      (List.mem_cons_of_mem _ (List.mem_cons_of_mem _ hmem)) hitem

/-! ### Tables of segments -/

theorem throughTable?_eq {α : Type} {table : List (SegmentKind × (Segment → α))}
    {write : Segment → α}
    (htable : ∀ segment, ((table.lookup segment.kind).map fun write ↦ write segment) =
      some (write segment)) (text : RichText) :
    throughTable? table text = some (text.map write) := by
  rw [throughTable?, funext htable]
  exact List.mapM_pure

theorem Html.lookup_segmentTable (segment : Segment) :
    ((Html.segmentTable.lookup segment.kind).map fun write ↦ write segment) =
      some (Html.segmentPieces segment) := by
  obtain ⟨kind, content, url⟩ := segment
  cases kind <;> rfl

/-- Every segment of a text is found by an HTML page. -/
theorem Html.inlinePieces?_eq (text : RichText) :
    Html.inlinePieces? text = some (Html.inlinePieces text) := by
  rw [Html.inlinePieces?, throughTable?_eq Html.lookup_segmentTable, Option.map_some,
    Html.inlinePieces, List.flatMap]

theorem Markdown.lookup_segmentTable (segment : Segment) :
    ((Markdown.segmentTable.lookup segment.kind).map fun write ↦ write segment) =
      some (Markdown.segmentText segment) := by
  obtain ⟨kind, content, url⟩ := segment
  cases kind <;> rfl

/-- Every segment of a text is found by a Markdown page. -/
theorem Markdown.inlineText?_eq (text : RichText) :
    Markdown.inlineText? text = some (Markdown.inlineText text) := by
  rw [Markdown.inlineText?, throughTable?_eq Markdown.lookup_segmentTable, Option.map_some,
    Markdown.inlineText]

/-! ### Records as chunks -/

section Handlers

variable {renderer : Renderer}

theorem Text.linesOf_tokenAt (scheme : Sgr.Scheme) (item : Item) :
    Text.linesOf scheme (item.tokenAt item.placeText).text item = Text.itemLines scheme item := by
  cases item <;> rfl

theorem Html.blockOf_tokenAt (content : List Html.Piece) (item : Item) :
    Html.blockOf content (item.tokenAt item.placeText).text item =
      Html.blockOf content item.placeText item := by
  cases item <;> rfl

theorem Markdown.chunkOf_tokenAt (content : String) (item : Item) :
    Markdown.chunkOf content (item.tokenAt item.placeText).text item =
      Markdown.chunkOf content item.placeText item := by
  cases item <;> rfl

theorem chunks?_tokenAt (item : Item) :
    renderer.chunks? (item.tokenAt item.placeText) = some (itemChunks renderer item) := by
  obtain ⟨format, options⟩ := renderer
  have hitem := Token.item?_tokenAt item item.placeText
  cases format with
  | make => simp [Renderer.chunks?, Renderer.lines?, hitem, Text.linesOf_tokenAt, itemChunks]
  | text => simp [Renderer.chunks?, Renderer.lines?, hitem, Text.linesOf_tokenAt, itemChunks]
  | html =>
    simp [Renderer.chunks?, hitem, Html.inlinePieces?_eq, Html.blockOf_tokenAt, itemChunks,
      Html.itemBlock]
  | markdown =>
    simp [Renderer.chunks?, hitem, Markdown.inlineText?_eq, Markdown.chunkOf_tokenAt, itemChunks,
      Markdown.itemChunk]
  | json => rfl

theorem itemChunks_eq_nil {item : Item} (hkind : item.kind ∉ handledKinds renderer.format) :
    itemChunks renderer item = [] := by
  obtain ⟨format, options⟩ := renderer
  -- A kind that is in the table contradicts the hypothesis; of any other nothing is written.
  cases format <;> cases item <;> first | exact absurd (List.elem_iff.mp rfl) hkind | rfl

/-- The steps of a record find all that they look for and make the chunks of its item. -/
theorem tokenSteps_tokenAt (item : Item) :
    renderer.tokenSteps (item.tokenAt item.placeText) = (itemChunks renderer item).map .ok := by
  rw [Renderer.tokenSteps, Item.kind_tokenAt, chunks?_tokenAt]
  split
  · rfl
  · next hkind => rw [itemChunks_eq_nil hkind, List.map_nil]

theorem flatMap_tokenSteps (outline : Outline) :
    outline.records.flatMap renderer.tokenSteps =
      (outline.flatMap (itemChunks renderer)).map .ok := by
  rw [Outline.records, List.flatMap_map, List.map_flatMap]
  simp only [tokenSteps_tokenAt]

theorem title?_records (viewpoint : Outline.Viewpoint) (view : View) :
    Renderer.title? view (view.outline viewpoint).records =
      some (Html.titleOf (view.outline viewpoint)) := by
  cases view <;> rfl

theorem openingSteps_records (viewpoint : Outline.Viewpoint) (view : View) :
    renderer.openingSteps view (view.outline viewpoint).records =
      (openingChunks renderer (view.outline viewpoint)).map .ok := by
  obtain ⟨format, options⟩ := renderer
  cases format with
  | html =>
    simp only [Renderer.openingSteps, Renderer.openingBlocks?, title?_records, openingChunks]
    cases view with
    | help model =>
      have hheading : Html.headingBlocks (View.outline viewpoint (.help model)) =
          [Html.helpHeading] := rfl
      simp [hheading]
    | detailed target =>
      have hheading : Html.headingBlocks (View.outline viewpoint (.detailed target)) = [] := rfl
      simp [hheading]
    | basic name sourceFile lineNumber =>
      have hheading : Html.headingBlocks
          (View.outline viewpoint (.basic name sourceFile lineNumber)) = [] := rfl
      simp [hheading]
  | markdown => cases view <;> rfl
  | make => rfl
  | text => rfl
  | json => rfl

theorem closingSteps_eq : renderer.closingSteps = (closingChunks renderer).map .ok := by
  rw [Renderer.closingSteps, closingChunks]
  cases renderer.format <;> rfl

end Handlers

/-! ### Objects -/

theorem foldlM_filter_kinds {fold : Json.Fields → Item → Option Json.Fields}
    {kinds : List Item.Kind}
    (hneutral : ∀ fields item, item.kind ∉ kinds → fold fields item = some fields)
    (outline : Outline) (fields : Json.Fields) :
    (outline.filter fun item ↦ item.kind ∈ kinds).foldlM fold fields =
      outline.foldlM fold fields := by
  rw [List.foldlM_filter]
  congr 1
  funext fields item
  split
  · rfl
  · next hkind => exact (hneutral fields item (by simpa using hkind)).symm

theorem foldView?_filter (viewpoint : Outline.Viewpoint) (view : View) (outline : Outline) :
    Json.foldView? viewpoint view (outline.filter fun item ↦ item.kind ∈ Json.foldedKinds view) =
      Json.foldView? viewpoint view outline := by
  have hhelp (fields : Json.Fields) (item : Item)
      (hkind : item.kind ∉ Json.helpKinds) :
      Json.foldHelpItem? viewpoint fields item = some fields := by
    cases item <;> first | exact absurd (List.elem_iff.mp rfl) hkind | rfl
  have htarget (fields : Json.Fields) (item : Item)
      (hkind : item.kind ∉ Json.targetKinds) :
      Json.foldTargetItem? fields item = some fields := by
    cases item <;> first | exact absurd (List.elem_iff.mp rfl) hkind | rfl
  cases view with
  | help model => exact congrArg (· >>= _) (foldlM_filter_kinds hhelp outline [])
  | detailed target => exact congrArg (· >>= _) (foldlM_filter_kinds htarget outline [])
  | basic name sourceFile lineNumber =>
    exact congrArg (· >>= _) (foldlM_filter_kinds htarget outline [])

theorem mapM_item?_records (outline : Outline) :
    outline.records.mapM Token.item? = some outline := by
  have hitems : (Token.item? ∘ fun item ↦ item.tokenAt item.placeText) =
      fun item ↦ some (id item) :=
    funext fun item ↦ Token.item?_tokenAt item item.placeText
  rw [Outline.records, List.mapM_map, hitems]
  exact List.mapM_pure.trans (congrArg some (List.map_id outline))

/-- Folding the records of a view fails nowhere and leads to the object that its page shows. -/
theorem object?_eq (viewpoint : Outline.Viewpoint) (view : View) :
    Json.object? viewpoint view (view.outline viewpoint).records =
      some (Renderer.value viewpoint view) := by
  have hfold : (Json.foldView? viewpoint view (view.outline viewpoint)).map .object =
      some (Renderer.value viewpoint view) := by
    cases view with
    | help model => exact Json.foldHelp?_ofModel viewpoint model
    | detailed target =>
      exact (congrArg _ (Json.foldTarget?_ofTarget viewpoint target)).trans
        (congrArg some (Json.ofTarget_eq viewpoint target).symm)
    | basic name sourceFile lineNumber =>
      exact Json.foldTarget?_ofName viewpoint name sourceFile lineNumber
  have hkinds : (fun token : Token ↦ decide (token.kind ∈ Json.foldedKinds view)) ∘
      (fun item : Item ↦ item.tokenAt item.placeText) =
        fun item : Item ↦ decide (item.kind ∈ Json.foldedKinds view) :=
    funext fun item ↦ by rw [Function.comp, Item.kind_tokenAt]
  have hfilter : (view.outline viewpoint).records.filter
      (fun token ↦ token.kind ∈ Json.foldedKinds view) =
        Outline.records
          ((view.outline viewpoint).filter fun item ↦ item.kind ∈ Json.foldedKinds view) := by
    rw [Outline.records, List.filter_map, hkinds, Outline.records]
  rw [Json.object?, hfilter, mapM_item?_records, Option.bind_some, foldView?_filter, hfold]

/-! ### Delivery -/

section Delivery

variable {renderer : Renderer} {workingDirectory : String} {view : View}

theorem jsonStep_records (viewpoint : Outline.Viewpoint) :
    Renderer.jsonStep viewpoint view (view.outline viewpoint).records =
      ((HelpSheet.Json.document? (Renderer.value viewpoint view)).mapError Fault.number).map
        fun text ↦ { text } := by
  rw [Renderer.jsonStep, object?_eq]
  rfl

/-- No step of a page fails where its numbers are short, and the steps make its chunks. -/
theorem steps_records (hview : view.HasShortNumbers renderer.format) :
    renderer.steps (renderer.viewpoint workingDirectory) view
        (view.outline (renderer.viewpoint workingDirectory)).records =
      (renderer.chunks workingDirectory view).map .ok := by
  by_cases hjson : renderer.format = .json
  · rw [hjson] at hview
    have hvalue : (Renderer.value (renderer.viewpoint workingDirectory) view).IsShort :=
      Json.isShort_value_iff.mpr hview
    rw [Renderer.steps, hjson, jsonStep_records, HelpSheet.Json.document?, if_pos hvalue,
      Renderer.chunks, hjson]
    rfl
  · rw [chunks_eq hjson, List.map_append, List.map_append, ← openingSteps_records,
      ← flatMap_tokenSteps, ← closingSteps_eq, Renderer.steps]
    split
    · next hformat => exact absurd hformat hjson
    all_goals rfl

theorem recordLines?_tokenAt (item : Item) :
    renderer.recordLines? (item.tokenAt item.placeText) =
      .ok ((Text.itemLines renderer.scheme item).map (Chunk.mapText Escape.Recipe.escaped)) := by
  rw [Renderer.recordLines?, Item.kind_tokenAt]
  split
  · simp only [Renderer.lines?, Token.item?_tokenAt, Option.bind_eq_bind, Option.bind_some,
      Text.linesOf_tokenAt]
    rfl
  · next hkind =>
    -- What is not written has no lines.
    have hlines : Text.itemLines renderer.scheme item = [] := by
      cases item <;> first | exact absurd (List.elem_iff.mp rfl) hkind | rfl
    rw [hlines, List.map_nil]

/-- No escaped line of a page fails to be made where the number of its place is short. -/
theorem recipeLines?_of_hasShortPlace (hview : view.HasShortPlace) :
    renderer.recipeLines? workingDirectory view =
      .ok (renderer.recipeLines workingDirectory view) := by
  let outline := view.outline (renderer.viewpoint workingDirectory)
  have hlines : outline.records.mapM renderer.recordLines? =
      .ok (outline.map fun item ↦
        (Text.itemLines renderer.scheme item).map (Chunk.mapText Escape.Recipe.escaped)) := by
    rw [Outline.records, List.mapM_map]
    exact (congrArg (List.mapM · outline) (funext recordLines?_tokenAt)).trans List.mapM_pure
  have hflat : (outline.map fun item ↦
      (Text.itemLines renderer.scheme item).map (Chunk.mapText Escape.Recipe.escaped)).flatten =
        renderer.recipeLines workingDirectory view := by
    rw [Renderer.recipeLines, Text.escapedLines, Text.lines, List.map_flatMap, List.flatMap_def]
  rw [Renderer.recipeLines?, tokens_outline _ hview, ← hflat]
  exact congrArg (fun lines : Except Fault (List (List Chunk)) ↦ lines.map List.flatten) hlines

theorem recipeLines?_of_not_hasShortPlace (hview : ¬ view.HasShortPlace) :
    renderer.recipeLines? workingDirectory view = .error (.number ⟨maxDigits⟩) := by
  rw [Renderer.recipeLines?, tokens_outline_of_not_hasShortPlace _ hview]
  rfl

/-- A page whose numbers are short is delivered as its chunks. -/
theorem deliver_of_hasShortNumbers (hview : view.HasShortNumbers renderer.format)
    (capacity : Capacity) :
    renderer.deliver workingDirectory capacity view =
      { deliver capacity ((renderer.chunks workingDirectory view).map .ok) with
        notes := renderer.openingNotes workingDirectory view ++
          (deliver capacity ((renderer.chunks workingDirectory view).map .ok)).notes } := by
  rw [Renderer.deliver, tokens_outline _ hview.hasShortPlace]
  simp only [steps_records hview]

/-- Of a page with a number that is too long, no chunk is handed to the sink. -/
theorem deliver_of_not_hasShortNumbers (hview : ¬ view.HasShortNumbers renderer.format)
    (capacity : Capacity) :
    (renderer.deliver workingDirectory capacity view).written = [] ∧
      (renderer.deliver workingDirectory capacity view).attempts = 0 ∧
      (renderer.deliver workingDirectory capacity view).ending =
        .broken (.number ⟨maxDigits⟩) := by
  by_cases hplace : view.HasShortPlace
  · -- Only the help view in JSON has numbers apart from places.
    have hjson : renderer.format = .json := by
      by_contra hformat
      refine hview ?_
      cases view with
      | help model => exact fun h ↦ absurd h hformat
      | detailed target => exact hplace
      | basic name sourceFile lineNumber => exact hplace
    rw [hjson] at hview
    have hvalue : ¬ (Renderer.value (renderer.viewpoint workingDirectory) view).IsShort :=
      Json.isShort_value_iff.not.mpr hview
    have hsteps : renderer.steps (renderer.viewpoint workingDirectory) view
        (view.outline (renderer.viewpoint workingDirectory)).records =
          [.error (.number ⟨maxDigits⟩)] := by
      rw [Renderer.steps, hjson, jsonStep_records, HelpSheet.Json.document?, if_neg hvalue]
      rfl
    rw [Renderer.deliver, tokens_outline _ hplace]
    simp only [hsteps]
    exact ⟨rfl, rfl, rfl⟩
  · rw [Renderer.deliver, tokens_outline_of_not_hasShortPlace _ hplace]
    exact ⟨rfl, rfl, rfl⟩

end Delivery

end Page

end HelpSheet
