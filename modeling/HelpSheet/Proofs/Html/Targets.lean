import HelpSheet.Proofs.Html.Document
import HelpSheet.Proofs.Html.Words
import HelpSheet.Proofs.Outline.Listing

/-!
# The targets that a page shows

A reader of an HTML page takes its list items of the class `target` for the targets, and what stands
in elements of other classes within them for their names and summaries (`seenTargets`). On the page
of a model these are the targets of the model in their order, each with its name and with the words
of its summary, unless the summary is written with no character at all (`seenTargets_htmlPage`).
-/

set_option autoImplicit false
set_option relaxedAutoImplicit false

namespace HelpSheet.Page.Html

open Markup (RichText Segment)

/-! ### Reading targets -/

/-- The start tag of an element that belongs to a class. -/
def startTag (element group : String) : List Char :=
  (element ++ " class=\"" ++ group ++ "\"").toList

/-- The parts of a page that show a target. -/
def targetParts (page : String) : List (List Mark) :=
  sections (startTag "li" "target") "/li".toList (readMarks none page.toList)

/-- The words in the spans of a class. -/
def wordsIn (group : String) (part : List Mark) : List String :=
  (sections (startTag "span" group) "/span".toList part).map wordsOf

/-- The names and the summaries in each part of a page that shows a target. -/
def seenTargets (page : String) : List (List String × List String) :=
  (targetParts page).map fun part ↦ (wordsIn "target-name" part, wordsIn "summary" part)

/-! ### Tags of pieces -/

variable {tag opening closing : List Char} {pieces : List Piece}

theorem tag_mem_marks_iff {piece : Piece} : .tag tag ∈ piece.marks ↔ piece.tag? = some tag := by
  unfold Piece.marks
  cases piece.tag? with
  | none => simp
  | some found => simp [eq_comm]

theorem tag_mem_marksOf_iff : .tag tag ∈ marksOf pieces ↔ tag ∈ tags pieces := by
  simp only [marksOf, tags, List.mem_flatMap, List.mem_filterMap, tag_mem_marks_iff]

/-- For fixed pieces it is enough to look at them. -/
theorem not_mem_tags_of_all (hpieces : pieces.all fun piece ↦ piece.tag? ≠ some tag) :
    tag ∉ tags pieces := by
  intro htag
  obtain ⟨piece, hpiece, hfound⟩ := List.mem_filterMap.mp htag
  have hother := List.all_eq_true.mp hpieces piece hpiece
  exact of_decide_eq_true hother hfound

/-- The tags of the elements of inline text, apart from the start tags of links. -/
def inlineTags : List (List Char) :=
  ["strong", "/strong", "em", "/em", "code", "/code", "/a"].map String.toList

/-- The tags of the aliases of a target. -/
def aliasTags : List (List Char) :=
  ["span class=\"alias\"", "/span"].map String.toList

/-- The tags of the variables of a target. -/
def variablesTags : List (List Char) :=
  ["div class=\"variables\"", "/div", "code class=\"variable\"", "/code"].map String.toList

theorem mem_of_mem_tags_segmentPieces {segment : Segment}
    (htag : tag ∈ tags (segmentPieces segment)) : tag ∈ inlineTags ∨ "a ".toList <+: tag := by
  have hstrong : ["strong", "/strong"].map String.toList ⊆ inlineTags := by decide
  have hemphasis : ["em", "/em"].map String.toList ⊆ inlineTags := by decide
  have hcode : ["code", "/code"].map String.toList ⊆ inlineTags := by decide
  unfold segmentPieces at htag
  split at htag
  · cases htag
  · exact .inl (hstrong htag)
  · exact .inl (hemphasis htag)
  · exact .inl (hcode htag)
  · unfold linkPieces at htag
    split at htag
    · rw [tags_anchor, List.mem_pair] at htag
      obtain rfl | rfl := htag
      · exact .inr ⟨_, rfl⟩
      · exact .inl (by decide)
    · cases htag

/-- Inline text has no other tags than those of its elements. -/
theorem mem_of_mem_tags_inlinePieces {text : RichText} (htag : tag ∈ tags (inlinePieces text)) :
    tag ∈ inlineTags ∨ "a ".toList <+: tag := by
  rw [inlinePieces, tags, List.filterMap_flatMap, List.mem_flatMap] at htag
  obtain ⟨segment, -, htag⟩ := htag
  exact mem_of_mem_tags_segmentPieces htag

theorem not_mem_tags_inlinePieces (hother : ¬ (tag ∈ inlineTags ∨ "a ".toList <+: tag))
    (text : RichText) : tag ∉ tags (inlinePieces text) :=
  mt mem_of_mem_tags_inlinePieces hother

theorem tags_commaSeparated_subset {known : List (List Char)} {groups : List (List Piece)}
    (hgroups : ∀ group ∈ groups, tags group ⊆ known) : tags (commaSeparated groups) ⊆ known := by
  induction groups with
  | nil => exact List.nil_subset known
  | cons group groups ih =>
    rw [List.forall_mem_cons] at hgroups
    obtain ⟨hgroup, hgroups⟩ := hgroups
    cases groups with
    | nil => simpa [commaSeparated] using hgroup
    | cons next groups =>
      rw [commaSeparated, List.intersperse_cons_cons, List.flatten_cons, List.flatten_cons,
        tags_append, tags_append]
      exact List.append_subset.mpr ⟨hgroup, List.append_subset.mpr
        ⟨List.nil_subset known, ih hgroups⟩⟩

theorem tags_lineOf (depth : Nat) (content : List Piece) :
    tags (lineOf depth content) = tags content := by
  have hline : tags (lineOf depth content) = tags content ++ [] := tags_append content [lineEnd]
  rw [hline, List.append_nil]

theorem tags_aliasPieces_subset (names : List String) : tags (aliasPieces names) ⊆ aliasTags := by
  unfold aliasPieces
  split
  · exact List.nil_subset aliasTags
  · exact List.Subset.refl aliasTags

theorem tags_variablesPieces_subset (usedVariables : List Variable) :
    tags (variablesPieces usedVariables) ⊆ variablesTags := by
  have hnames : tags (commaSeparated (usedVariables.map fun entry ↦ variableName entry.name)) ⊆
      variablesTags := by
    refine tags_commaSeparated_subset fun group hgroup ↦ ?_
    obtain ⟨entry, -, rfl⟩ := List.mem_map.mp hgroup
    show ["code class=\"variable\"", "/code"].map String.toList ⊆ variablesTags
    decide
  unfold variablesPieces
  split
  · exact List.nil_subset variablesTags
  · rw [tags_append, tags_append, tags_lineOf, tags_lineOf, tags_lineOf]
    refine List.append_subset.mpr ⟨List.append_subset.mpr ⟨?_, hnames⟩, ?_⟩
    · show ["div class=\"variables\"".toList] ⊆ variablesTags
      decide
    · show ["/div".toList] ⊆ variablesTags
      decide

/-! ### Parts of written pieces -/

theorem sections_marksOf_append (hpieces : opening ∉ tags pieces) (back : List Mark) :
    sections opening closing (marksOf pieces ++ back) = sections opening closing back :=
  sections_append_of_not_mem (mt tag_mem_marksOf_iff.mp hpieces) back

theorem sections_marksOf (hpieces : opening ∉ tags pieces) :
    sections opening closing (marksOf pieces) = [] :=
  sections_of_not_mem (mt tag_mem_marksOf_iff.mp hpieces)

/-- An element is found whole if its content has neither of its tags and no such element begins
before it. -/
theorem sections_insideOf {element : Element} {group : String} {front content : List Piece}
    (hopening : (startOf element group).tag? = some opening)
    (hclosing : (Piece.closing element).tag? = some closing) (hne : opening ≠ closing)
    (hfront : opening ∉ tags front) (hstart : opening ∉ tags content)
    (hstop : closing ∉ tags content) (back : List Mark) :
    sections opening closing (marksOf (front ++ insideOf element group content) ++ back) =
      marksOf content :: sections opening closing back := by
  have hmarks : marksOf (insideOf element group content) ++ back =
      .tag opening :: marksOf content ++ .tag closing :: back := by
    simp [insideOf, Piece.marks, hopening, hclosing]
  rw [marksOf_append, List.append_assoc, sections_marksOf_append hfront, hmarks,
    sections_part (mt tag_mem_marksOf_iff.mp hstart) (mt tag_mem_marksOf_iff.mp hstop) hne]

theorem wordsOf_text (content : String) : wordsOf (marksOf [.text content]) = content := by
  have hmarks : marksOf [.text content] = (Escape.Html.escape content.toList).map .char := by simp
  rw [wordsOf, hmarks, charsOf_map_char, Escape.Html.decodeEntities_escape, String.ofList_toList]

section Part

variable (target : Target)

/-- The pieces of a target before its summary. -/
def beforeSummary : List Piece :=
  [lineEnd, indent 5] ++ insideOf .span "target-name" [.text target.name] ++
    aliasPieces target.aliases

/-- The pieces of a target after its summary. -/
def afterSummary : List Piece :=
  [lineEnd] ++ variablesPieces target.usedVariables ++ [indent 4]

/-- What stands between the tags of a target. -/
def targetContent : List Piece :=
  beforeSummary target ++ summaryPieces (inlinePieces target.summary) ++ afterSummary target

theorem targetBlock_pieces :
    (targetBlock target (inlinePieces target.summary)).pieces =
      [indent 4] ++ insideOf .listItem "target" (targetContent target) ++ [lineEnd] := by
  simp [targetBlock, targetContent, beforeSummary, afterSummary, lineOf, insideOf]

theorem mem_of_mem_tags_summaryPieces {summary : RichText}
    (htag : tag ∈ tags (summaryPieces (inlinePieces summary))) :
    tag ∈ [startTag "span" "summary", "/span".toList] ∨ tag ∈ tags (inlinePieces summary) := by
  unfold summaryPieces at htag
  split at htag
  · cases htag
  · have hinside : tags (.text ": " :: insideOf .span "summary" (inlinePieces summary)) =
        startTag "span" "summary" :: tags (inlinePieces summary) ++ ["/span".toList] :=
      tags_append (.text ": " :: startOf .span "summary" :: inlinePieces summary) [.closing .span]
    rw [hinside, List.cons_append, List.mem_cons, List.mem_append, List.mem_singleton] at htag
    simp only [List.mem_cons, List.not_mem_nil, or_false]
    tauto

theorem tags_beforeSummary :
    tags (beforeSummary target) =
      [startTag "span" "target-name", "/span".toList] ++ tags (aliasPieces target.aliases) := by
  rw [beforeSummary, tags_append]
  rfl

theorem tags_afterSummary :
    tags (afterSummary target) = tags (variablesPieces target.usedVariables) := by
  rw [afterSummary, tags_append, tags_append]
  exact List.append_nil _

/-- The tags of a target, apart from those of inline text. -/
def targetTags : List (List Char) :=
  [startTag "span" "target-name", startTag "span" "summary", "/span".toList] ++ aliasTags ++
    variablesTags

/-- What a target shows has no other tags. -/
theorem mem_of_mem_tags_targetContent (htag : tag ∈ tags (targetContent target)) :
    tag ∈ targetTags ∨ tag ∈ inlineTags ∨ "a ".toList <+: tag := by
  have haliases := tags_aliasPieces_subset target.aliases
  have hvariables := tags_variablesPieces_subset target.usedVariables
  rw [targetContent, tags_append, tags_append, List.mem_append, List.mem_append,
    tags_beforeSummary, tags_afterSummary, List.mem_append] at htag
  obtain ((htag | htag) | htag) | htag := htag
  · have hname : [startTag "span" "target-name", "/span".toList] ⊆ targetTags := by decide
    exact .inl (hname htag)
  · exact .inl (List.mem_append_left _ (List.mem_append_right _ (haliases htag)))
  · obtain htag | htag := mem_of_mem_tags_summaryPieces htag
    · have hsummary : [startTag "span" "summary", "/span".toList] ⊆ targetTags := by decide
      exact .inl (hsummary htag)
    · exact .inr (mem_of_mem_tags_inlinePieces htag)
  · exact .inl (List.mem_append_right _ (hvariables htag))

/-- A span that is the only one of its class is read. -/
theorem wordsIn_span {group : String} {front content back : List Piece}
    (hgroup : (startOf .span group).tag? = some (startTag "span" group))
    (hfront : startTag "span" group ∉ tags front)
    (hstart : startTag "span" group ∉ tags content) (hstop : "/span".toList ∉ tags content)
    (hback : startTag "span" group ∉ tags back) :
    wordsIn group (marksOf (front ++ insideOf .span group content ++ back)) =
      [wordsOf (marksOf content)] := by
  have hne : startTag "span" group ≠ "/span".toList := by
    have hhead : (startTag "span" group).head? = some 's' := by
      simp [startTag]
    intro hequal
    rw [hequal] at hhead
    exact absurd hhead (by decide)
  have hspan : (Piece.closing .span).tag? = some "/span".toList := rfl
  rw [wordsIn, marksOf_append, sections_insideOf hgroup hspan hne hfront hstart hstop,
    sections_marksOf hback, List.map_singleton]

theorem wordsIn_name : wordsIn "target-name" (marksOf (targetContent target)) = [target.name] := by
  let rest := aliasPieces target.aliases ++ summaryPieces (inlinePieces target.summary) ++
    afterSummary target
  have hrest : startTag "span" "target-name" ∉ tags rest := by
    have haliases : startTag "span" "target-name" ∉ tags (aliasPieces target.aliases) :=
      fun htag ↦ absurd (tags_aliasPieces_subset _ htag) (by decide)
    have hsummary : startTag "span" "target-name" ∉
        tags (summaryPieces (inlinePieces target.summary)) := by
      intro htag
      obtain htag | htag := mem_of_mem_tags_summaryPieces htag
      · exact absurd htag (by decide)
      · exact not_mem_tags_inlinePieces (by decide) _ htag
    have hafter : startTag "span" "target-name" ∉ tags (afterSummary target) := by
      rw [tags_afterSummary]
      exact fun htag ↦ absurd (tags_variablesPieces_subset _ htag) (by decide)
    rw [tags_append, tags_append]
    exact List.not_mem_append (List.not_mem_append haliases hsummary) hafter
  have hcontent : targetContent target =
      [lineEnd, indent 5] ++ insideOf .span "target-name" [.text target.name] ++ rest := by
    simp [targetContent, beforeSummary, rest]
  rw [hcontent, wordsIn_span rfl (by decide) List.not_mem_nil List.not_mem_nil hrest, wordsOf_text]

theorem wordsIn_summary :
    wordsIn "summary" (marksOf (targetContent target)) =
      if writeAll (inlinePieces target.summary) = "" then [] else [target.summary.plainText] := by
  have hbefore : startTag "span" "summary" ∉ tags (beforeSummary target) := by
    rw [tags_beforeSummary]
    refine List.not_mem_append (by decide) fun htag ↦ ?_
    exact absurd (tags_aliasPieces_subset _ htag) (by decide)
  have hafter : startTag "span" "summary" ∉ tags (afterSummary target) := by
    rw [tags_afterSummary]
    exact fun htag ↦ absurd (tags_variablesPieces_subset _ htag) (by decide)
  have hstart : startTag "span" "summary" ∉ tags (inlinePieces target.summary) :=
    not_mem_tags_inlinePieces (by decide) _
  have hstop : "/span".toList ∉ tags (inlinePieces target.summary) :=
    not_mem_tags_inlinePieces (by decide) _
  rw [targetContent, summaryPieces]
  split
  · have hneither := List.not_mem_append hbefore hafter
    rw [← tags_append] at hneither
    rw [List.append_nil, wordsIn, sections_marksOf hneither, List.map_nil]
  · have hcontent : beforeSummary target ++
        (.text ": " :: insideOf .span "summary" (inlinePieces target.summary)) ++
          afterSummary target =
        (beforeSummary target ++ [.text ": "]) ++
          insideOf .span "summary" (inlinePieces target.summary) ++ afterSummary target := by
      simp
    have hfront : startTag "span" "summary" ∉ tags (beforeSummary target ++ [.text ": "]) := by
      rw [tags_append]
      exact List.not_mem_append hbefore List.not_mem_nil
    rw [hcontent, wordsIn_span rfl hfront hstart hstop hafter, wordsOf_inlinePieces]

end Part

/-! ### Targets of an outline -/

theorem not_mem_tags_inside {element : Element} {content : List Piece}
    (hname : tag ≠ element.name.toList ∧ tag ≠ '/' :: element.name.toList)
    (hcontent : tag ∉ tags content) : tag ∉ tags (inside element content) := by
  have htags : tags (inside element content) =
      element.name.toList :: tags content ++ ['/' :: element.name.toList] := by
    simp [inside, start, tags, Piece.tag?]
  rw [htags]
  simp [hname, hcontent]

theorem not_mem_tags_paragraph (depth : Nat) (raw : String) :
    startTag "li" "target" ∉
      tags (paragraph depth raw (inlinePieces (Markup.parse raw))).pieces := by
  have htext : startTag "li" "target" ∉ tags (inlinePieces (Markup.parse raw)) :=
    not_mem_tags_inlinePieces (by decide) _
  unfold paragraph
  split
  · exact not_mem_tags_of_all rfl
  · rw [tags_lineOf]
    exact not_mem_tags_inside (by decide) htext

theorem not_mem_tags_variableBlock (entry : Variable) :
    startTag "li" "target" ∉
      tags (variableBlock entry (inlinePieces (Markup.parse entry.description))).pieces := by
  have hname : startTag "li" "target" ∉ tags (variableName entry.name) := not_mem_tags_of_all rfl
  have htext : startTag "li" "target" ∉
      tags (.text ": " :: inlinePieces (Markup.parse entry.description)) :=
    not_mem_tags_inlinePieces (by decide) _
  have hitem : ∀ description, startTag "li" "target" ∉ tags description →
      startTag "li" "target" ∉
        tags (lineOf 3 (inside .listItem (variableName entry.name ++ description))) := by
    intro description hdescription
    rw [tags_lineOf]
    refine not_mem_tags_inside (by decide) ?_
    rw [tags_append]
    exact List.not_mem_append hname hdescription
  simp only [variableBlock]
  split
  · exact hitem [] List.not_mem_nil
  · exact hitem _ htext

/-- Only a target begins with the tag of a target. -/
theorem not_mem_tags_itemPieces {item : Item} (hitem : item.listed? = none) :
    startTag "li" "target" ∉ tags (itemPieces item) := by
  cases item with
  | descriptionLine line => exact not_mem_tags_paragraph 3 line
  | includedFileLine line => exact not_mem_tags_paragraph 3 line
  | documentationLine line => exact not_mem_tags_paragraph 2 line
  | variableEntry entry => exact not_mem_tags_variableBlock entry
  | target listed => cases hitem
  | separator => exact List.not_mem_nil
  | _ => exact not_mem_tags_of_all rfl

theorem sections_targetBlock (target : Target) (back : List Mark) :
    sections (startTag "li" "target") "/li".toList
        (marksOf (targetBlock target (inlinePieces target.summary)).pieces ++ back) =
      marksOf (targetContent target) ::
        sections (startTag "li" "target") "/li".toList back := by
  have hstart : startTag "li" "target" ∉ tags (targetContent target) :=
    fun htag ↦ absurd (mem_of_mem_tags_targetContent target htag) (by decide)
  have hstop : "/li".toList ∉ tags (targetContent target) :=
    fun htag ↦ absurd (mem_of_mem_tags_targetContent target htag) (by decide)
  have hopening : (startOf .listItem "target").tag? = some (startTag "li" "target") := rfl
  have hclosing : (Piece.closing .listItem).tag? = some "/li".toList := rfl
  have hend : startTag "li" "target" ∉ tags [lineEnd] := List.not_mem_nil
  rw [targetBlock_pieces, marksOf_append, List.append_assoc,
    sections_insideOf hopening hclosing (by decide) (by decide) hstart hstop,
    sections_marksOf_append hend]

/-- A reader of an outline finds its targets. -/
theorem sections_outlinePieces (outline : Outline) (back : List Mark) :
    sections (startTag "li" "target") "/li".toList (marksOf (outlinePieces outline) ++ back) =
      ((outline.filterMap Item.listed?).map fun target ↦ marksOf (targetContent target)) ++
        sections (startTag "li" "target") "/li".toList back := by
  induction outline with
  | nil => rfl
  | cons item outline ih =>
    rw [outlinePieces_cons, marksOf_append, List.append_assoc]
    cases hitem : item.listed? with
    | none =>
      rw [sections_marksOf_append (not_mem_tags_itemPieces hitem), ih,
        List.filterMap_cons_none hitem]
    | some target =>
      obtain rfl : item = .target target := by
        cases item <;> cases hitem
        rfl
      have hpieces : itemPieces (.target target) =
          (targetBlock target (inlinePieces target.summary)).pieces :=
        rfl
      rw [hpieces, sections_targetBlock, ih, List.filterMap_cons_some hitem, List.map_cons,
        List.cons_append]

/-- A reader of a help page sees the targets of its model in their order. -/
theorem seenTargets_htmlPage (options : Options) (workingDirectory : String) (model : Model) :
    seenTargets ((Renderer.mk .html options).page workingDirectory (.help model)) =
      model.targets.map fun target ↦
        ([target.name],
          if writeAll (inlinePieces target.summary) = "" then []
          else [target.summary.plainText]) := by
  have hopening : startTag "li" "target" ∉
      tags (openingPieces options.useColor (titleOf (Outline.ofModel model))) := by
    rw [tags_openingPieces]
    cases options.useColor <;> decide
  have hheading : startTag "li" "target" ∉
      tags ((headingBlocks (Outline.ofModel model)).flatMap Block.pieces) :=
    not_mem_tags_of_all rfl
  have hclosing : startTag "li" "target" ∉ tags closingBlock.pieces := by decide
  have hfront := List.not_mem_append hopening hheading
  rw [← tags_append] at hfront
  have hpieces : documentPieces options.useColor (Outline.ofModel model) =
      openingPieces options.useColor (titleOf (Outline.ofModel model)) ++
        (headingBlocks (Outline.ofModel model)).flatMap Block.pieces ++
          (outlinePieces (Outline.ofModel model) ++ closingBlock.pieces) := by
    simp [documentPieces, contentPieces]
  rw [seenTargets, targetParts, htmlPage_toList, readMarks_writeAll, View.outline, hpieces,
    marksOf_append, sections_marksOf_append hfront, marksOf_append, sections_outlinePieces,
    sections_marksOf hclosing, List.append_nil, Outline.listed_ofModel, List.map_map]
  refine List.map_congr_left fun target _ ↦ ?_
  rw [Function.comp_apply, wordsIn_name, wordsIn_summary]

end HelpSheet.Page.Html
