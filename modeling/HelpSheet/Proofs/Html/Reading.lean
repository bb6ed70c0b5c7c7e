import HelpSheet.Escape.Web
import HelpSheet.Page.Html.Piece
import HelpSheet.Proofs.Html.Escaping

/-!
# Reading the tags of a page

A reader of HTML sees tags between angle brackets (`readTags`) and keeps the elements that are open
on a stack (`track`). The tags of written pieces are those of the pieces themselves, since no text
and no attribute value can hold an angle bracket (`readTags_writeAll`), and every ampersand of
written pieces begins an entity (`entitiesOnly_writeAll`).
-/

set_option autoImplicit false
set_option relaxedAutoImplicit false

namespace HelpSheet.Page.Html

open Escape.Html (EntitiesOnly marks)

/-! ### Readers -/

/-- The tags of a page without their angle brackets, where `inside` holds what was read of a tag
that has not ended. A bracket that neither begins nor ends a tag has no reading. -/
def readTags (inside : Option (List Char)) : List Char → Option (List (List Char))
  | [] => if inside.isNone then some [] else none
  | c :: rest =>
    match inside with
    | none =>
      if c = '<' then readTags (some []) rest
      else if c = '>' then none
      else readTags none rest
    | some tag =>
      if c = '>' then (readTags none rest).map (tag :: ·)
      else if c = '<' then none
      else readTags (some (tag ++ [c])) rest

/-- The name that a tag begins with. -/
def nameOf (tag : List Char) : List Char :=
  tag.takeWhile (· ≠ ' ')

/-- The names of tags that open no element. -/
def unpaired : List (List Char) :=
  ["br", "meta", "!DOCTYPE"].map String.toList

/-- The names of the open elements after a tag, innermost first. An end tag must close the innermost
one. -/
def track (opened : List (List Char)) (tag : List Char) : Option (List (List Char)) :=
  match tag, opened with
  | '/' :: name, innermost :: outer => if name = innermost then some outer else none
  | '/' :: _, [] => none
  | _, _ => some (if nameOf tag ∈ unpaired then opened else nameOf tag :: opened)

/-- The start tag of a link to a URL that is safe to follow. -/
def IsSafeAnchor (tag : List Char) : Prop :=
  ∃ value, tag = "a href=\"".toList ++ value ++ ['\x22'] ∧ (∀ c ∈ value, c ∉ marks) ∧
    Escape.Url.isSafe (Escape.Html.decodeEntities value)

/-! ### Written pieces -/

/-- The tag of a piece, if it is one. -/
def Piece.tag? : Piece → Option (List Char)
  | .declaration => some "!DOCTYPE html".toList
  | .opening element attributes =>
    some (element.name.toList ++ (attributes.map Attribute.write).flatMap String.toList)
  | .closing element => some ('/' :: element.name.toList)
  | .lone element attributes =>
    some (element.name.toList ++ (attributes.map Attribute.write).flatMap String.toList)
  | .text _ => none
  | .stylesheet => none

/-- The tags of pieces. -/
def tags (pieces : List Piece) : List (List Char) :=
  pieces.filterMap Piece.tag?

theorem writeTag_toList (name : String) (attributes : List Attribute) :
    (writeTag name attributes).toList =
      '<' :: (name.toList ++ (attributes.map Attribute.write).flatMap String.toList) ++ ['>'] := by
  simp [writeTag, String.toList_join]

theorem write_toList_of_tag? {piece : Piece} {tag : List Char} (htag : piece.tag? = some tag) :
    piece.write.toList = '<' :: tag ++ ['>'] := by
  cases piece with
  | declaration =>
    rw [← Option.some_inj.mp htag]
    rfl
  | opening element attributes =>
    rw [← Option.some_inj.mp htag]
    exact writeTag_toList element.name attributes
  | closing element =>
    rw [← Option.some_inj.mp htag]
    simp [Piece.write]
  | lone element attributes =>
    rw [← Option.some_inj.mp htag]
    exact writeTag_toList element.name attributes
  | text content => cases htag
  | stylesheet => cases htag

theorem attribute_write_toList (entry : Attribute) :
    entry.write.toList =
      ' ' :: entry.name.text.toList ++ "=\"".toList ++ Escape.Html.escape entry.value.toList ++
        ['\x22'] := by
  simp [Attribute.write, Escape.Html.escaped]

/-- The angle brackets. -/
def brackets : List Char := ['<', '>']

theorem brackets_subset_marks : brackets ⊆ marks := by decide

theorem not_mem_brackets_of_mem_escape {text : List Char} {c : Char}
    (hc : c ∈ Escape.Html.escape text) : c ∉ brackets :=
  fun hbracket ↦ Escape.Html.not_mem_marks_of_mem_escape hc (brackets_subset_marks hbracket)

theorem not_mem_brackets_of_mem_attribute {entry : Attribute} {c : Char}
    (hc : c ∈ entry.write.toList) : c ∉ brackets := by
  have hname : ∀ c ∈ ' ' :: entry.name.text.toList, c ∉ brackets := by
    cases entry.name <;> exact List.all_iff_forall_prop.mp (by decide)
  have hequal : ∀ c ∈ "=\"".toList, c ∉ brackets := List.all_iff_forall_prop.mp (by decide)
  rw [attribute_write_toList, List.mem_append, List.mem_append, List.mem_append] at hc
  rcases hc with ((hc | hc) | hc) | hc
  · exact hname c hc
  · exact hequal c hc
  · exact not_mem_brackets_of_mem_escape hc
  · rw [List.mem_singleton.mp hc]
    decide

theorem not_mem_brackets_of_mem_attributes {attributes : List Attribute} {c : Char}
    (hc : c ∈ (attributes.map Attribute.write).flatMap String.toList) : c ∉ brackets := by
  rw [List.flatMap_map] at hc
  obtain ⟨entry, -, hentry⟩ := List.mem_flatMap.mp hc
  exact not_mem_brackets_of_mem_attribute hentry

/-- No tag of a piece holds an angle bracket. -/
theorem not_mem_brackets_of_mem_tag {piece : Piece} {tag : List Char} {c : Char}
    (htag : piece.tag? = some tag) (hc : c ∈ tag) : c ∉ brackets := by
  cases piece with
  | declaration =>
    have hname : ∀ c ∈ "!DOCTYPE html".toList, c ∉ brackets :=
      List.all_iff_forall_prop.mp (by decide)
    rw [← Option.some_inj.mp htag] at hc
    exact hname c hc
  | opening element attributes =>
    have hname : ∀ c ∈ element.name.toList, c ∉ brackets := by
      cases element <;> exact List.all_iff_forall_prop.mp (by decide)
    rw [← Option.some_inj.mp htag, List.mem_append] at hc
    exact hc.elim (hname c) not_mem_brackets_of_mem_attributes
  | closing element =>
    have hname : ∀ c ∈ '/' :: element.name.toList, c ∉ brackets := by
      cases element <;> exact List.all_iff_forall_prop.mp (by decide)
    rw [← Option.some_inj.mp htag] at hc
    exact hname c hc
  | lone element attributes =>
    have hname : ∀ c ∈ element.name.toList, c ∉ brackets := by
      cases element <;> exact List.all_iff_forall_prop.mp (by decide)
    rw [← Option.some_inj.mp htag, List.mem_append] at hc
    exact hc.elim (hname c) not_mem_brackets_of_mem_attributes
  | text content => cases htag
  | stylesheet => cases htag

/-- The text holds neither angle brackets nor ampersands. -/
def IsPlain (text : String) : Prop :=
  ∀ c ∈ text.toList, c ∉ '&' :: brackets

instance (text : String) : Decidable (IsPlain text) :=
  decidable_of_iff (text.toList.all fun c ↦ c ∉ '&' :: brackets) List.all_iff_forall_prop

theorem IsPlain.append {first second : String} (hfirst : IsPlain first)
    (hsecond : IsPlain second) : IsPlain (first ++ second) := by
  intro c hc
  rw [String.toList_append, List.mem_append] at hc
  exact hc.elim (hfirst c) (hsecond c)

theorem isPlain_join {texts : List String} (htexts : ∀ text ∈ texts, IsPlain text) :
    IsPlain (String.join texts) := by
  intro c hc
  rw [String.toList_join] at hc
  obtain ⟨text, htext, hmem⟩ := List.mem_flatMap.mp hc
  exact htexts text htext c hmem

theorem isPlain_pageRule : IsPlain pageRule.writeTall := by
  have hselector : IsPlain ("    " ++ pageRule.selector ++ " \x7b\n") := by decide
  have hdeclarations : ∀ declaration ∈ pageRule.declarations, IsPlain declaration := by decide
  refine (hselector.append (isPlain_join fun text htext ↦ ?_)).append (by decide)
  obtain ⟨declaration, hdeclaration, rfl⟩ := List.mem_map.mp htext
  have hstart : IsPlain "      " := by decide
  exact (hstart.append (hdeclarations declaration hdeclaration)).append (by decide)

theorem isPlain_partRule {rule : StyleRule} (hrule : rule ∈ partRules) :
    IsPlain rule.writeFlat := by
  have hselectors : ∀ rule ∈ partRules, IsPlain rule.selector := by decide
  have hdeclarations : ∀ rule ∈ partRules, ∀ declaration ∈ rule.declarations,
      IsPlain declaration := by decide +kernel
  have hindent : IsPlain "    " := by decide
  refine (((hindent.append (hselectors rule hrule)).append (by decide)).append
    (isPlain_join fun text htext ↦ ?_)).append (by decide)
  obtain ⟨declaration, hdeclaration, rfl⟩ := List.mem_map.mp htext
  have hblank : IsPlain " " := by decide
  exact (hblank.append (hdeclarations rule hrule declaration hdeclaration)).append (by decide)

theorem isPlain_stylesheet : IsPlain stylesheet := by
  refine isPlain_pageRule.append (isPlain_join fun text htext ↦ ?_)
  obtain ⟨rule, hrule, rfl⟩ := List.mem_map.mp htext
  exact isPlain_partRule hrule

theorem not_mem_brackets_of_mem_write {piece : Piece} {c : Char} (htag : piece.tag? = none)
    (hc : c ∈ piece.write.toList) : c ∉ brackets := by
  cases piece with
  | text content =>
    rw [Piece.write, Escape.Html.escaped, String.toList_ofList] at hc
    exact not_mem_brackets_of_mem_escape hc
  | stylesheet => exact fun hbracket ↦ isPlain_stylesheet c hc (List.mem_cons_of_mem _ hbracket)
  | _ => cases htag

/-! ### Reading written pieces -/

theorem readTags_none_append {text : List Char} (htext : ∀ c ∈ text, c ∉ brackets)
    (rest : List Char) : readTags none (text ++ rest) = readTags none rest := by
  induction text with
  | nil => rfl
  | cons c text ih =>
    rw [List.forall_mem_cons] at htext
    obtain ⟨hc, htext⟩ := htext
    simp only [brackets, List.mem_cons, List.not_mem_nil, or_false, not_or] at hc
    simp only [List.cons_append, readTags]
    rw [if_neg hc.1, if_neg hc.2]
    exact ih htext

theorem readTags_some_append {tag : List Char} (htag : ∀ c ∈ tag, c ∉ brackets)
    (read rest : List Char) :
    readTags (some read) (tag ++ '>' :: rest) =
      (readTags none rest).map ((read ++ tag) :: ·) := by
  induction tag generalizing read with
  | nil => simp [readTags]
  | cons c tag ih =>
    rw [List.forall_mem_cons] at htag
    obtain ⟨hc, htag⟩ := htag
    simp only [brackets, List.mem_cons, List.not_mem_nil, or_false, not_or] at hc
    simp only [List.cons_append, readTags]
    rw [if_neg hc.2, if_neg hc.1, ih htag, List.append_assoc, List.singleton_append]

theorem readTags_tag_append {tag : List Char} (htag : ∀ c ∈ tag, c ∉ brackets)
    (rest : List Char) :
    readTags none ('<' :: tag ++ ['>'] ++ rest) = (readTags none rest).map (tag :: ·) := by
  have hread := readTags_some_append htag [] rest
  rw [List.nil_append] at hread
  rw [List.append_assoc, List.singleton_append, List.cons_append, ← hread]
  rfl

theorem writeAll_toList (pieces : List Piece) :
    (writeAll pieces).toList = pieces.flatMap fun piece ↦ piece.write.toList := by
  rw [writeAll, String.toList_join, List.flatMap_map]

/-- A reader finds the tags of the pieces that were written, and nothing else. -/
theorem readTags_writeAll (pieces : List Piece) :
    readTags none (writeAll pieces).toList = some (tags pieces) := by
  induction pieces with
  | nil => rfl
  | cons piece rest ih =>
    rw [writeAll_toList, List.flatMap_cons, ← writeAll_toList]
    cases htag : piece.tag? with
    | none =>
      rw [readTags_none_append fun c ↦ not_mem_brackets_of_mem_write htag, ih, tags, tags,
        List.filterMap_cons_none htag]
    | some tag =>
      rw [write_toList_of_tag? htag,
        readTags_tag_append fun c ↦ not_mem_brackets_of_mem_tag htag, ih, tags, tags,
        List.filterMap_cons_some htag, Option.map_some]

/-! ### Entities of written pieces -/

theorem entitiesOnly_attribute (entry : Attribute) : EntitiesOnly entry.write.toList := by
  have hname : '&' ∉ ' ' :: entry.name.text.toList ++ "=\"".toList := by
    cases entry.name <;> decide
  rw [attribute_write_toList]
  exact ((Escape.Html.entitiesOnly_of_not_mem hname).append
    (Escape.Html.entitiesOnly_escape entry.value.toList)).append
      (Escape.Html.entitiesOnly_of_not_mem (by decide))

theorem entitiesOnly_flatMap {α : Type} {items : List α} {form : α → List Char}
    (hitems : ∀ item ∈ items, EntitiesOnly (form item)) : EntitiesOnly (items.flatMap form) := by
  induction items with
  | nil => exact Escape.Html.entitiesOnly_of_not_mem List.not_mem_nil
  | cons item items ih =>
    rw [List.forall_mem_cons] at hitems
    rw [List.flatMap_cons]
    exact hitems.1.append (ih hitems.2)

theorem entitiesOnly_writeTag {name : String} (hname : '&' ∉ '<' :: name.toList)
    (attributes : List Attribute) : EntitiesOnly (writeTag name attributes).toList := by
  rw [writeTag_toList, ← List.cons_append, List.flatMap_map]
  exact ((Escape.Html.entitiesOnly_of_not_mem hname).append
    (entitiesOnly_flatMap fun entry _ ↦ entitiesOnly_attribute entry)).append
      (Escape.Html.entitiesOnly_of_not_mem (by decide))

theorem entitiesOnly_write (piece : Piece) : EntitiesOnly piece.write.toList := by
  cases piece with
  | declaration => exact Escape.Html.entitiesOnly_of_not_mem (by decide)
  | opening element attributes =>
    exact entitiesOnly_writeTag (by cases element <;> decide) attributes
  | closing element =>
    exact Escape.Html.entitiesOnly_of_not_mem (by cases element <;> decide)
  | lone element attributes =>
    exact entitiesOnly_writeTag (by cases element <;> decide) attributes
  | text content =>
    rw [Piece.write, Escape.Html.escaped, String.toList_ofList]
    exact Escape.Html.entitiesOnly_escape content.toList
  | stylesheet =>
    exact Escape.Html.entitiesOnly_of_not_mem fun hmem ↦
      isPlain_stylesheet '&' hmem List.mem_cons_self

/-- Every ampersand of written pieces begins an entity. -/
theorem entitiesOnly_writeAll (pieces : List Piece) : EntitiesOnly (writeAll pieces).toList := by
  rw [writeAll_toList]
  exact entitiesOnly_flatMap fun piece _ ↦ entitiesOnly_write piece

end HelpSheet.Page.Html
