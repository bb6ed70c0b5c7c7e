import HelpSheet.Page.Html
import HelpSheet.Proofs.Html.Reading

/-!
# Nested elements

The content of a document is made of template tags and of links to safe URLs. `Leads` says that a
group of pieces holds no other tag and takes one stack of open elements to another, whatever is open
around them. Groups are put together with `Leads.append`; a group that leaves nothing open can stand
inside any element (`Leads.within`). A reader that sees the tags only, without the pieces, has the
names of the same elements on its stack (`track_tags`).
-/

set_option autoImplicit false
set_option relaxedAutoImplicit false

namespace HelpSheet.Page.Html

/-- The tags around the content of a document. -/
def frameTags : List (List Char) :=
  ["!DOCTYPE html", "html", "head", "meta charset=\"UTF-8\"", "title", "/title", "style", "/style",
    "/head", "body", "/body", "/html"].map String.toList

/-- The tags of the content of a document, apart from the start tags of links. -/
def contentTags : List (List Char) :=
  ["section class=\"usage\"", "section class=\"file-docs\"", "section class=\"included-files\"",
    "section class=\"targets\"", "/section",
    "div class=\"description\"", "div class=\"file\"", "div class=\"category\"",
    "div class=\"variables\"", "div class=\"aliases\"", "div class=\"documentation\"",
    "div class=\"source\"", "/div",
    "h1", "/h1", "h2", "/h2", "h3", "/h3", "p", "p class=\"no-docs\"", "/p", "br", "pre", "/pre",
    "ul", "/ul", "li", "li class=\"target\"", "/li",
    "span class=\"target-name\"", "span class=\"alias\"", "span class=\"summary\"", "/span",
    "strong", "/strong", "em", "/em", "code", "code class=\"variable\"", "/code",
    "/a"].map String.toList

/-- A tag that may stand in the content of a document. -/
def IsContentTag (tag : List Char) : Prop :=
  tag ∈ contentTags ∨ IsSafeAnchor tag

/-- The pieces of the content tags, in the same order. -/
def templates : List Piece :=
  [startOf .part "usage", startOf .part "file-docs", startOf .part "included-files",
    startOf .part "targets", .closing .part,
    startOf .division "description", startOf .division "file", startOf .division "category",
    startOf .division "variables", startOf .division "aliases", startOf .division "documentation",
    startOf .division "source", .closing .division,
    start .heading1, .closing .heading1, start .heading2, .closing .heading2,
    start .heading3, .closing .heading3,
    start .paragraph, startOf .paragraph "no-docs", .closing .paragraph, .lone .lineBreak [],
    start .preformatted, .closing .preformatted, start .list, .closing .list,
    start .listItem, startOf .listItem "target", .closing .listItem,
    startOf .span "target-name", startOf .span "alias", startOf .span "summary", .closing .span,
    start .strong, .closing .strong, start .emphasis, .closing .emphasis,
    start .code, startOf .code "variable", .closing .code, .closing .anchor]

theorem tags_templates : tags templates = contentTags := by decide +kernel

/-- Whether the piece is no tag or a template of the content. -/
def isTemplate (piece : Piece) : Bool :=
  piece.tag?.isNone || templates.contains piece

/-- The elements that are open after a piece, innermost first. An end tag must close the innermost
one. -/
def move (opened : List Element) : Piece → Option (List Element)
  | .opening element _ => some (element :: opened)
  | .closing element =>
    match opened with
    | innermost :: outer => if element = innermost then some outer else none
    | [] => none
  | _ => some opened

/-- The pieces hold tags of the content only, and take the open elements `before` to the open
elements `after`, whatever is open around them. -/
structure Leads (before after : List Element) (pieces : List Piece) : Prop where
  content : ∀ tag ∈ tags pieces, IsContentTag tag
  opened : ∀ outer, pieces.foldlM move (before ++ outer) = some (after ++ outer)

variable {before middle after : List Element} {pieces first second : List Piece}

theorem tags_append (first second : List Piece) :
    tags (first ++ second) = tags first ++ tags second :=
  List.filterMap_append

theorem Leads.append (hfirst : Leads before middle first) (hsecond : Leads middle after second) :
    Leads before after (first ++ second) where
  content := by
    intro tag htag
    rw [tags_append, List.mem_append] at htag
    exact htag.elim (hfirst.content tag) (hsecond.content tag)
  opened := by
    intro outer
    rw [List.foldlM_append, hfirst.opened outer]
    exact hsecond.opened outer

theorem Leads.nil (elements : List Element) : Leads elements elements [] where
  content := by
    intro tag htag
    cases htag
  opened := fun _ ↦ rfl

/-- What is open around a group stays open. -/
theorem Leads.within (hpieces : Leads before after pieces) (around : List Element) :
    Leads (before ++ around) (after ++ around) pieces where
  content := hpieces.content
  opened := by
    intro outer
    rw [List.append_assoc, List.append_assoc]
    exact hpieces.opened (around ++ outer)

/-- A group of templates needs only a look at its elements. -/
theorem leads_of_template (htemplate : pieces.all isTemplate)
    (hopened : ∀ outer, pieces.foldlM move (before ++ outer) = some (after ++ outer)) :
    Leads before after pieces where
  content := by
    intro tag htag
    obtain ⟨piece, hpiece, htag⟩ := List.mem_filterMap.mp htag
    have hlisted := List.all_eq_true.mp htemplate piece hpiece
    rw [isTemplate, htag, Option.isNone_some, Bool.false_or, List.contains_iff_mem] at hlisted
    rw [IsContentTag, ← tags_templates]
    exact .inl (List.mem_filterMap.mpr ⟨piece, hlisted, htag⟩)
  opened := hopened

theorem leads_text (elements : List Element) (content : String) :
    Leads elements elements [.text content] :=
  leads_of_template rfl fun _ ↦ rfl

theorem leads_flatMap {α : Type} {items : List α} {form : α → List Piece}
    (hitems : ∀ item ∈ items, Leads [] [] (form item)) : Leads [] [] (items.flatMap form) := by
  induction items with
  | nil => exact .nil []
  | cons item items ih =>
    rw [List.forall_mem_cons] at hitems
    rw [List.flatMap_cons]
    exact hitems.1.append (ih hitems.2)

/-! ### Elements -/

theorem leads_opening {element : Element} {attributes : List Attribute}
    (htemplate : isTemplate (.opening element attributes)) :
    Leads [] [element] [.opening element attributes] :=
  leads_of_template (by rw [List.all_cons, htemplate, List.all_nil, Bool.and_self]) fun _ ↦ rfl

theorem leads_closing {element : Element} (htemplate : isTemplate (.closing element)) :
    Leads [element] [] [.closing element] :=
  leads_of_template (by rw [List.all_cons, htemplate, List.all_nil, Bool.and_self])
    fun outer ↦ by simp [move]

theorem Leads.insideOf {element : Element} {group : String} {content : List Piece}
    (hcontent : Leads [] [] content) (hstart : isTemplate (startOf element group))
    (hend : isTemplate (.closing element)) : Leads [] [] (insideOf element group content) :=
  ((leads_opening hstart).append (hcontent.within [element])).append (leads_closing hend)

theorem Leads.inside {element : Element} {content : List Piece} (hcontent : Leads [] [] content)
    (hstart : isTemplate (start element)) (hend : isTemplate (.closing element)) :
    Leads [] [] (inside element content) :=
  ((leads_opening hstart).append (hcontent.within [element])).append (leads_closing hend)

theorem Leads.lineOf {content : List Piece} (hcontent : Leads before after content)
    (depth : Nat) : Leads before after (lineOf depth content) :=
  ((leads_text before _).append hcontent).append (leads_text after _)

/-! ### Inline text -/

/-- The tags of a link: its start tag with the escaped URL, and its end tag. -/
theorem tags_anchor (url content : String) :
    tags [.opening .anchor [⟨.destination, url⟩], .text content, .closing .anchor] =
      ["a href=\"".toList ++ Escape.Html.escape url.toList ++ ['\x22'], "/a".toList] := by
  have hstart : (Piece.opening .anchor [⟨.destination, url⟩]).tag? =
      some ("a href=\"".toList ++ Escape.Html.escape url.toList ++ ['\x22']) := by
    simp [Piece.tag?, attribute_write_toList, AttributeName.text, Element.name]
  rw [tags, List.filterMap_cons_some hstart]
  rfl

theorem isSafeAnchor_of_safe {url : String} (hsafe : Escape.Url.safe url) :
    IsSafeAnchor ("a href=\"".toList ++ Escape.Html.escape url.toList ++ ['\x22']) := by
  refine ⟨Escape.Html.escape url.toList, rfl,
    fun c hc ↦ Escape.Html.not_mem_marks_of_mem_escape hc, ?_⟩
  rw [Escape.Html.decodeEntities_escape]
  exact hsafe

theorem leads_anchor {url : String} (hsafe : Escape.Url.safe url) (content : String) :
    Leads [] [] [.opening .anchor [⟨.destination, url⟩], .text content, .closing .anchor] where
  content := by
    intro tag htag
    rw [tags_anchor] at htag
    rcases List.mem_cons.mp htag with rfl | htag
    · exact .inr (isSafeAnchor_of_safe hsafe)
    · rw [List.mem_singleton.mp htag]
      exact .inl (by decide)
  opened := fun _ ↦ rfl

theorem leads_segmentPieces (segment : Markup.Segment) : Leads [] [] (segmentPieces segment) := by
  unfold segmentPieces
  split
  · exact leads_text [] segment.content
  · exact leads_of_template rfl fun _ ↦ rfl
  · exact leads_of_template rfl fun _ ↦ rfl
  · exact leads_of_template rfl fun _ ↦ rfl
  · by_cases hsafe : Escape.Url.safe segment.url
    · rw [linkPieces, if_pos hsafe]
      exact leads_anchor hsafe segment.content
    · rw [linkPieces, if_neg hsafe]
      exact leads_text [] segment.content

/-- Rich text leaves no element open. -/
theorem leads_inlinePieces (text : Markup.RichText) : Leads [] [] (inlinePieces text) :=
  leads_flatMap fun segment _ ↦ leads_segmentPieces segment

/-! ### Open elements of the written page -/

/-- The names of elements in their tags. -/
def namesOf (elements : List Element) : List (List Char) :=
  elements.map fun element ↦ element.name.toList

theorem nameOf_append_attributes {name : List Char} (hname : ' ' ∉ name)
    (attributes : List Attribute) :
    nameOf (name ++ (attributes.map Attribute.write).flatMap String.toList) = name := by
  have hkeep : ∀ c ∈ name, decide (c ≠ ' ') = true :=
    fun c hc ↦ decide_eq_true (ne_of_mem_of_not_mem hc hname)
  rw [nameOf, List.takeWhile_append_of_pos hkeep]
  cases attributes with
  | nil => simp
  | cons entry rest =>
    rw [List.map_cons, List.flatMap_cons, attribute_write_toList]
    simp

theorem track_of_head_ne {tag : List Char} (hhead : tag.head? ≠ some '/')
    (opened : List (List Char)) :
    track opened tag = some (if nameOf tag ∈ unpaired then opened else nameOf tag :: opened) := by
  unfold track
  split
  · exact absurd rfl hhead
  · exact absurd rfl hhead
  · rfl

theorem track_start {name : List Char} (hname : name ≠ []) (hslash : '/' ∉ name)
    (hblank : ' ' ∉ name) (attributes : List Attribute) (opened : List (List Char)) :
    track opened (name ++ (attributes.map Attribute.write).flatMap String.toList) =
      some (if name ∈ unpaired then opened else name :: opened) := by
  have hhead : (name ++ (attributes.map Attribute.write).flatMap String.toList).head? ≠
      some '/' := by
    cases name with
    | nil => exact absurd rfl hname
    | cons c name =>
      rw [List.cons_append, List.head?_cons, ne_eq, Option.some_inj]
      exact fun hc ↦ hslash (hc ▸ List.mem_cons_self)
  rw [track_of_head_ne hhead, nameOf_append_attributes hblank]

/-- A start tag opens its element. -/
theorem track_opening (element : Element) (attributes : List Attribute)
    (opened : List (List Char)) :
    track opened (element.name.toList ++ (attributes.map Attribute.write).flatMap String.toList) =
      some (element.name.toList :: opened) := by
  have hpaired : element.name.toList ∉ unpaired := by cases element <;> decide
  rw [track_start (by cases element <;> decide) (by cases element <;> decide)
    (by cases element <;> decide), if_neg hpaired]

/-- A tag of a lone element opens nothing. -/
theorem track_lone (element : LoneElement) (attributes : List Attribute)
    (opened : List (List Char)) :
    track opened (element.name.toList ++ (attributes.map Attribute.write).flatMap String.toList) =
      some opened := by
  have hunpaired : element.name.toList ∈ unpaired := by cases element <;> decide
  rw [track_start (by cases element <;> decide) (by cases element <;> decide)
    (by cases element <;> decide), if_pos hunpaired]

/-- A reader keeps the names of the open elements. -/
theorem track_of_move {opened closed : List Element} {piece : Piece} {tag : List Char}
    (hmove : move opened piece = some closed) (htag : piece.tag? = some tag) :
    track (namesOf opened) tag = some (namesOf closed) := by
  cases piece with
  | declaration =>
    rw [← Option.some_inj.mp htag, ← Option.some_inj.mp hmove]
    rfl
  | opening element attributes =>
    rw [← Option.some_inj.mp htag, ← Option.some_inj.mp hmove]
    exact track_opening element attributes (namesOf opened)
  | closing element =>
    rw [← Option.some_inj.mp htag]
    cases opened with
    | nil => cases hmove
    | cons innermost outer =>
      by_cases hsame : element = innermost
      · rw [move, if_pos hsame] at hmove
        rw [← Option.some_inj.mp hmove, hsame]
        exact if_pos rfl
      · rw [move, if_neg hsame] at hmove
        cases hmove
  | lone element attributes =>
    rw [← Option.some_inj.mp htag, ← Option.some_inj.mp hmove]
    exact track_lone element attributes (namesOf opened)
  | text content => cases htag
  | stylesheet => cases htag

theorem move_of_tag?_none {opened : List Element} {piece : Piece} (htag : piece.tag? = none) :
    move opened piece = some opened := by
  cases piece with
  | text content => rfl
  | stylesheet => rfl
  | _ => cases htag

/-- A reader of the tags follows the open elements of the pieces. -/
theorem track_tags {opened closed : List Element}
    (hmove : pieces.foldlM move opened = some closed) :
    (tags pieces).foldlM track (namesOf opened) = some (namesOf closed) := by
  induction pieces generalizing opened with
  | nil =>
    rw [← Option.some_inj.mp hmove]
    rfl
  | cons piece pieces ih =>
    rw [List.foldlM_cons] at hmove
    obtain ⟨next, hnext, hrest⟩ := Option.bind_eq_some_iff.mp hmove
    cases htag : piece.tag? with
    | none =>
      rw [move_of_tag?_none htag] at hnext
      rw [tags, List.filterMap_cons_none htag, Option.some_inj.mp hnext]
      exact ih hrest
    | some tag =>
      rw [tags, List.filterMap_cons_some htag, List.foldlM_cons, track_of_move hnext htag]
      exact ih hrest

end HelpSheet.Page.Html
