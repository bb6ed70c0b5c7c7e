import HelpSheet.Proofs.Markup.Slices
import HelpSheet.Proofs.Page.Strings
import HelpSheet.Proofs.Recipe.Layout
import HelpSheet.Proofs.Sgr.Painting

/-!
# Pages in different colors

Two pages of a view whose options have the same base directory differ in color only
(`pages_differ_in_color_only`). Stripped of sequences, every line of a text page is the line of the
plain page (`forall₂_strippedTo_itemLines`), if the view holds no escape character; a recipe page
has the same lines in its statements. Pages of the other formats have no color within them.
-/

set_option autoImplicit false
set_option relaxedAutoImplicit false

namespace HelpSheet

open HelpSheet.Text (Lacks joinWith)

/-! ### Painted strings -/

/-- Stripping turns the first string into the second one, whatever follows it. -/
def StrippedTo (colored plain : String) : Prop :=
  Sgr.StripsTo colored.toList plain.toList

namespace StrippedTo

theorem refl {text : String} (htext : Lacks Sgr.escape text) : StrippedTo text text :=
  Sgr.stripsTo_self htext

theorem append {colored plain colored' plain' : String} (hfront : StrippedTo colored plain)
    (hback : StrippedTo colored' plain') : StrippedTo (colored ++ colored') (plain ++ plain') := by
  rw [StrippedTo, String.toList_append, String.toList_append]
  exact Sgr.StripsTo.append hfront hback

end StrippedTo

/-- Visible text has no escape character that the raw text does not have. -/
theorem lacks_escape_flatten {raw : String} (hraw : Lacks Sgr.escape raw) :
    Lacks Sgr.escape (Markup.flatten raw) := fun hescape ↦
  hraw ((Sgr.strip_sublist _).subset ((Markup.plainText_parseChars_sublist _).subset hescape))

theorem lacks_plainText {c : Char} {text : Markup.RichText}
    (htext : ∀ segment ∈ text, Lacks c segment.content) :
    Lacks c (Markup.RichText.plainText text) := by
  rw [Markup.RichText.plainText, Text.lacks_join]
  simpa using htext

theorem lacks_escape_listed {names : List String} :
    Lacks Sgr.escape (joinWith ", " names) ↔ ∀ name ∈ names, Lacks Sgr.escape name := by
  have hseparator : Lacks Sgr.escape ", " := by decide
  exact Text.lacks_joinWith hseparator

namespace Page.Text

open Markup (flatten)

variable {scheme : Sgr.Scheme} (hscheme : scheme.IsGraphic)

include hscheme

theorem strippedTo_painted (role : Sgr.Role) {text : String} (htext : Lacks Sgr.escape text) :
    StrippedTo (painted (scheme.get role) text) (painted none text) := by
  unfold painted
  split
  · exact .refl Text.lacks_empty
  · exact hscheme.stripsTo role htext

theorem strippedTo_afterColon (role : Sgr.Role) {text : String} (htext : Lacks Sgr.escape text) :
    StrippedTo (afterColon (scheme.get role) text) (afterColon none text) := by
  unfold afterColon
  split
  · exact .refl Text.lacks_empty
  · exact .append (.refl (by decide)) (hscheme.stripsTo role htext)

theorem strippedTo_aliasList {names : List String}
    (hnames : ∀ name ∈ names, Lacks Sgr.escape name) :
    StrippedTo (aliasList scheme names) (aliasList .plain names) := by
  unfold aliasList
  split
  · exact .refl Text.lacks_empty
  · have hjoined := lacks_escape_listed.mpr hnames
    exact .append (.refl (by decide)) (strippedTo_painted hscheme .aliasName hjoined)

theorem strippedTo_targetLines {target : Target}
    (htarget : ∀ text ∈ target.strings, Lacks Sgr.escape text) :
    List.Forall₂ StrippedTo (targetLines scheme target) (targetLines .plain target) := by
  simp only [Target.strings, List.forall_mem_append, List.forall_mem_cons, List.forall_mem_map,
    List.forall_mem_flatMap] at htarget
  obtain ⟨⟨⟨⟨hname, -, haliases⟩, -⟩, hsummary⟩, hvariables⟩ := htarget
  have hstart : StrippedTo "  - " "  - " := .refl (by decide)
  have hline := ((hstart.append (strippedTo_painted hscheme .targetName hname)).append
    (strippedTo_aliasList hscheme haliases)).append
    (strippedTo_afterColon hscheme .documentation (lacks_plainText hsummary))
  refine .cons hline ?_
  split
  · exact .nil
  · have hnames : ∀ name ∈ target.usedVariables.map Variable.name, Lacks Sgr.escape name :=
      List.forall_mem_map.mpr fun entry hentry ↦
        hvariables entry hentry entry.name (by simp [Variable.strings])
    have hjoined := lacks_escape_listed.mpr hnames
    exact .cons (.append (.refl (by decide))
      (strippedTo_painted hscheme .variableName hjoined)) .nil

theorem strippedTo_variableLine {entry : Variable}
    (hentry : ∀ text ∈ entry.strings, Lacks Sgr.escape text) :
    StrippedTo (variableLine scheme entry).text (variableLine .plain entry).text := by
  simp only [Variable.strings, List.forall_mem_cons] at hentry
  obtain ⟨hname, hdescription, -⟩ := hentry
  have hstart : StrippedTo "  - " "  - " := .refl (by decide)
  have hline := hstart.append (strippedTo_painted hscheme .variableName hname)
  unfold variableLine
  split
  · exact hline
  · exact .append (hline.append (.refl (by decide)))
      (strippedTo_painted hscheme .documentation (lacks_escape_flatten hdescription))

/-- Stripping the colored lines of an item gives its plain lines. -/
theorem forall₂_strippedTo_itemLines {item : Item} (hitem : item.Lacks Sgr.escape) :
    List.Forall₂ (fun colored plain ↦ StrippedTo colored.text plain.text)
      (itemLines scheme item) (itemLines .plain item) := by
  cases item with
  | target entry =>
    simpa [itemLines, linesOf, plainLines] using strippedTo_targetLines hscheme hitem
  | variableEntry entry => exact .cons (strippedTo_variableLine hscheme hitem) .nil
  | categoryHeader name =>
    have hname : Lacks Sgr.escape (name ++ ":") :=
      Text.lacks_append.mpr ⟨hitem name List.mem_cons_self, by decide⟩
    exact .cons (.refl (by decide)) (.cons (strippedTo_painted hscheme .categoryName hname) .nil)
  | title name target =>
    have hname : Lacks Sgr.escape ("Target: " ++ name) :=
      Text.lacks_append.mpr ⟨by decide, hitem name List.mem_cons_self⟩
    exact .cons (strippedTo_painted hscheme .targetName hname) .nil
  | aliases names =>
    have hjoined := lacks_escape_listed.mpr hitem
    have hnames : Lacks Sgr.escape ("Aliases: " ++ joinWith ", " names) :=
      Text.lacks_append.mpr ⟨by decide, hjoined⟩
    exact .cons (strippedTo_painted hscheme .aliasName hnames) .nil
  | variablesStart => exact .cons (strippedTo_painted hscheme .variableName (by decide)) .nil
  | documentationLine line =>
    have hline := lacks_escape_flatten (hitem line List.mem_cons_self)
    exact .cons (strippedTo_painted hscheme .documentation hline) .nil
  | noDocumentation notice =>
    have hnotice := hitem notice List.mem_cons_self
    exact .cons (.refl (by decide)) (.cons (strippedTo_painted hscheme .documentation hnotice) .nil)
  | source path line =>
    have hplace : Lacks Sgr.escape ("Source: " ++ (path ++ ":" ++ toString line)) := by
      rw [Text.lacks_append, Text.lacks_append, Text.lacks_append]
      exact ⟨by decide, ⟨hitem path List.mem_cons_self, by decide⟩,
        Text.lacks_toString_int (by decide) (by decide) line⟩
    exact .cons (.refl (by decide)) (.cons (.refl hplace) .nil)
  | includedFileLine line =>
    have hline : Lacks Sgr.escape ("    " ++ flatten line) :=
      Text.lacks_append.mpr ⟨by decide, lacks_escape_flatten (hitem line List.mem_cons_self)⟩
    simp only [itemLines, linesOf]
    split
    · exact .cons (.refl (by decide)) .nil
    · exact .cons (.refl hline) .nil
  | descriptionLine line =>
    exact .cons (.refl (lacks_escape_flatten (hitem line List.mem_cons_self))) .nil
  | usage line =>
    have hline : Lacks Sgr.escape ("Usage: " ++ line) :=
      Text.lacks_append.mpr ⟨by decide, hitem line List.mem_cons_self⟩
    exact .cons (.refl hline) .nil
  | includedFile path =>
    have hpath : Lacks Sgr.escape ("  " ++ path) :=
      Text.lacks_append.mpr ⟨by decide, hitem path List.mem_cons_self⟩
    exact .cons (.refl hpath) .nil
  | _ =>
    -- the other lines are fixed texts
    simp +decide [itemLines, linesOf, plainLines, StrippedTo.refl]

end Page.Text

namespace Page

open Escape.Recipe (escape unescape)
open Sgr (strip)

/-! ### Pages of lines -/

/-- The options with every text left as it is. -/
def Options.plain (options : Options) : Options :=
  { options with useColor := false, scheme := some .plain }

variable (options : Options) (workingDirectory : String) {view : View}

/-- Stripping the colored lines of a view gives its plain lines. -/
theorem forall₂_strippedTo_shownLines (hscheme : options.resolvedScheme.IsGraphic)
    (hview : ∀ text ∈ view.strings, Lacks Sgr.escape text) :
    List.Forall₂ StrippedTo (shownLines options workingDirectory view)
      (shownLines options.plain workingDirectory view) := by
  have houtline := Outline.lacks_of_mem_outline hview (by decide) (by decide) (by decide)
    (by decide) ((Renderer.mk .text options).viewpoint workingDirectory)
  rw [shownLines, shownLines, List.forall₂_map_left_iff, List.forall₂_map_right_iff]
  refine List.rel_flatten (List.forall₂_map_left_iff.mpr (List.forall₂_map_right_iff.mpr ?_))
  exact List.forall₂_same.mpr fun item hitem ↦
    Text.forall₂_strippedTo_itemLines hscheme (houtline item hitem)

theorem map_strip_eq {colored plain : List String}
    (hlines : List.Forall₂ StrippedTo colored plain) :
    colored.map (fun line ↦ strip .graphic line.toList) = plain.map String.toList := by
  induction hlines with
  | nil => rfl
  | cons hline _ ih => rw [List.map_cons, List.map_cons, ih, Sgr.StripsTo.strip_eq hline]

/-- What the statements of a recipe page print has the plain lines in it. -/
theorem map_strip_unescape_shownLines (hscheme : options.resolvedScheme.IsGraphic)
    (hview : ∀ text ∈ view.strings, Lacks Sgr.escape text) :
    ((shownLines options workingDirectory view).map fun line ↦ escape line.toList).map
        (fun payload ↦ strip .graphic (unescape payload)) =
      (shownLines options.plain workingDirectory view).map String.toList := by
  rw [← map_strip_eq (forall₂_strippedTo_shownLines options workingDirectory hscheme hview),
    List.map_map]
  exact List.map_congr_left fun line _ ↦
    congrArg (strip .graphic) (Escape.Recipe.unescape_escape line.toList)

/-- Texts around each of two lists of lines keep what stripping makes of them. -/
theorem stripsTo_flatMap {front back : List Char} (hfront : Sgr.StripsTo front front)
    (hback : Sgr.StripsTo back back) {colored plain : List String}
    (hlines : List.Forall₂ StrippedTo colored plain) :
    Sgr.StripsTo (colored.flatMap fun line ↦ front ++ line.toList ++ back)
      (plain.flatMap fun line ↦ front ++ line.toList ++ back) := by
  induction hlines with
  | nil => exact fun _ ↦ rfl
  | cons hline _ ih =>
    rw [List.flatMap_cons, List.flatMap_cons]
    exact ((hfront.append hline).append hback).append ih

theorem textPage_toList (view : View) :
    ((Renderer.mk .text options).page workingDirectory view).toList =
      (shownLines options workingDirectory view).flatMap fun line ↦
        [] ++ line.toList ++ ['\n'] := by
  rw [Renderer.page, Chunk.pageText, textChunks_text, String.toList_join, List.flatMap_map]
  simp

theorem strip_textPage (hscheme : options.resolvedScheme.IsGraphic)
    (hview : ∀ text ∈ view.strings, Lacks Sgr.escape text) :
    strip .graphic ((Renderer.mk .text options).page workingDirectory view).toList =
      ((Renderer.mk .text options.plain).page workingDirectory view).toList := by
  rw [textPage_toList, textPage_toList]
  exact (stripsTo_flatMap (Sgr.stripsTo_self (by decide)) (Sgr.stripsTo_self (by decide))
    (forall₂_strippedTo_shownLines options workingDirectory hscheme hview)).strip_eq

/-! ### Recipe pages -/

/-- A recipe page falls apart into the statements of the shown lines. -/
theorem splitOnChar_recipePage (view : View) :
    HelpSheet.Text.splitOnChar '\n'
        ((Renderer.mk .make options).page workingDirectory view).toList =
      ((shownLines options workingDirectory view).map fun line ↦ escape line.toList).map
        openStatement ++ [[]] := by
  rw [recipePage_toList, List.map_map]
  refine HelpSheet.Text.splitOnChar_flatMap fun piece hpiece ↦ ?_
  obtain ⟨line, -, rfl⟩ := List.mem_map.mp hpiece
  exact lineFeed_not_mem_openStatement fun hfeed ↦
    Escape.Recipe.not_mem_controls_of_mem_escape hfeed (by decide)

theorem unescape_escape_append (text rest : List Char) :
    unescape (escape text ++ rest) = text ++ unescape rest := by
  induction text with
  | nil => rfl
  | cons c text ih =>
    rw [Escape.Recipe.escape_cons, List.append_assoc, Escape.Recipe.unescape_escapeChar_append, ih,
      List.cons_append]

/-- Reading a whole recipe page as one escaped text finds the lines in their statements. -/
theorem unescape_recipePage (view : View) :
    unescape ((Renderer.mk .make options).page workingDirectory view).toList =
      (shownLines options workingDirectory view).flatMap fun line ↦
        unescape Text.statementStart.toList ++ line.toList ++ ['\x22', '\n'] := by
  rw [recipePage_toList, List.flatMap_map]
  induction shownLines options workingDirectory view with
  | nil => rfl
  | cons line lines ih =>
    rw [List.flatMap_cons, List.flatMap_cons, ← ih]
    simp [openStatement, Text.statementStart, unescape, unescape_escape_append]

theorem strip_unescape_recipePage (hscheme : options.resolvedScheme.IsGraphic)
    (hview : ∀ text ∈ view.strings, Lacks Sgr.escape text) :
    strip .graphic (unescape ((Renderer.mk .make options).page workingDirectory view).toList) =
      unescape ((Renderer.mk .make options.plain).page workingDirectory view).toList := by
  rw [unescape_recipePage, unescape_recipePage]
  exact (stripsTo_flatMap (Sgr.stripsTo_self (by decide)) (Sgr.stripsTo_self (by decide))
    (forall₂_strippedTo_shownLines options workingDirectory hscheme hview)).strip_eq

/-! ### Documents -/

/-- The part of a document that only colored pages have. -/
def Html.styleElement : String :=
  Html.writeAll
    (Html.lineOf 1 [Html.start .style, Html.lineEnd, .stylesheet, Html.indent 1, .closing .style])

theorem pageText_append (front back : List Chunk) :
    Chunk.pageText (front ++ back) = Chunk.pageText front ++ Chunk.pageText back := by
  rw [Chunk.pageText, List.map_append, String.join_append]
  rfl

/-- Color adds a style element to the head of a document and changes nothing else. -/
theorem exists_around_styleElement (outline : Outline) :
    ∃ front back : String, ∀ useColor : Bool,
      Chunk.pageText (Html.chunks useColor outline) =
        front ++ (if useColor then Html.styleElement else "") ++ back := by
  have hblocks : ∃ front back : List Html.Block, ∀ useColor : Bool,
      Html.documentBlocks useColor outline = front ++ (Html.styleBlocks useColor ++ back) := by
    refine ⟨?front, ?back, fun useColor ↦ ?assembled⟩
    case assembled =>
      rw [Html.documentBlocks, Html.openingBlocks, List.append_assoc, List.append_assoc,
        List.append_assoc, List.append_assoc]
  obtain ⟨front, back, hblocks⟩ := hblocks
  refine ⟨Chunk.pageText (front.map Html.Block.chunk), Chunk.pageText (back.map Html.Block.chunk),
    fun useColor ↦ ?_⟩
  have hstyle : Chunk.pageText ((Html.styleBlocks useColor).map Html.Block.chunk) =
      if useColor then Html.styleElement else "" := by
    cases useColor <;>
      simp [Html.styleBlocks, Chunk.pageText, Html.Block.chunk, Html.styleElement]
  rw [Html.chunks, hblocks, List.map_append, List.map_append, pageText_append, pageText_append,
    hstyle, String.append_assoc]

/-! ### Two pages -/

/-- Two pages of a view differ in color only, if the painters of their schemes put whole sequences
around a text and nothing else. If no string of the view holds an escape character, stripping both
text pages gives the plain one, the recipe pages print the same lines one for one, and reading a
whole recipe page and stripping it gives the same text. Markdown and JSON pages are the same
whatever the strings are; documents differ at most by the style element, which is there exactly with
color. -/
theorem pages_differ_in_color_only (first second : Options) (hbase : first.base = second.base)
    (hfirst : first.resolvedScheme.IsGraphic) (hsecond : second.resolvedScheme.IsGraphic)
    (workingDirectory : String) (view : View) :
    ((∀ text ∈ view.strings, Lacks Sgr.escape text) →
      (∀ options ∈ [first, second],
        strip .graphic ((Renderer.mk .text options).page workingDirectory view).toList =
          ((Renderer.mk .text first.plain).page workingDirectory view).toList) ∧
      (∃ payloads payloads' : List (List Char),
        HelpSheet.Text.splitOnChar '\n'
            ((Renderer.mk .make first).page workingDirectory view).toList =
          payloads.map openStatement ++ [[]] ∧
        HelpSheet.Text.splitOnChar '\n'
            ((Renderer.mk .make second).page workingDirectory view).toList =
          payloads'.map openStatement ++ [[]] ∧
        payloads.length = payloads'.length ∧
        payloads.map (fun payload ↦ strip .graphic (unescape payload)) =
          payloads'.map fun payload ↦ strip .graphic (unescape payload)) ∧
      strip .graphic (unescape ((Renderer.mk .make first).page workingDirectory view).toList) =
        strip .graphic
          (unescape ((Renderer.mk .make second).page workingDirectory view).toList)) ∧
    (Renderer.mk .markdown first).page workingDirectory view =
      (Renderer.mk .markdown second).page workingDirectory view ∧
    (Renderer.mk .json first).page workingDirectory view =
      (Renderer.mk .json second).page workingDirectory view ∧
    ∃ front back : String, ∀ options ∈ [first, second],
      (Renderer.mk .html options).page workingDirectory view =
        front ++ (if options.useColor then Html.styleElement else "") ++ back := by
  have hplain : second.plain = first.plain := by
    rw [Options.plain, Options.plain, hbase]
  have hviewpoint (format : Format) : (Renderer.mk format second).viewpoint workingDirectory =
      (Renderer.mk format first).viewpoint workingDirectory := by
    rw [Renderer.viewpoint, Renderer.viewpoint, hbase]
  refine ⟨fun hview ↦ ⟨?_, ⟨_, _, splitOnChar_recipePage first workingDirectory view,
    splitOnChar_recipePage second workingDirectory view, ?_⟩, ?_⟩, ?_, ?_, ?_⟩
  · have hpage := strip_textPage second workingDirectory hsecond hview
    rw [hplain] at hpage
    simpa using ⟨strip_textPage first workingDirectory hfirst hview, hpage⟩
  · have hlines := map_strip_unescape_shownLines second workingDirectory hsecond hview
    rw [hplain, ← map_strip_unescape_shownLines first workingDirectory hfirst hview] at hlines
    exact ⟨by simpa using (congrArg List.length hlines).symm, hlines.symm⟩
  · rw [strip_unescape_recipePage first workingDirectory hfirst hview,
      strip_unescape_recipePage second workingDirectory hsecond hview, hplain]
  · rw [Renderer.page, Renderer.page, Renderer.chunks, Renderer.chunks, hviewpoint]
  · rw [Renderer.page, Renderer.page, Renderer.chunks, Renderer.chunks, hviewpoint]
  · obtain ⟨front, back, haround⟩ := exists_around_styleElement
      (view.outline ((Renderer.mk .html first).viewpoint workingDirectory))
    have hpage := haround second.useColor
    rw [← hviewpoint] at hpage
    exact ⟨front, back, by simpa using ⟨haround first.useColor, hpage⟩⟩

/-- A colored page with an alias, a variable and documentation, stripped. -/
theorem pages_differ_in_color_only_target :
    ∃ view : View, ∃ options : Options,
      (Renderer.mk .text options).page "/" view ≠ (Renderer.mk .text options.plain).page "/" view ∧
      strip .graphic ((Renderer.mk .text options).page "/" view).toList =
        ((Renderer.mk .text options.plain).page "/" view).toList := by
  let target : Target :=
    { name := "build", documentation := ["Builds `all`."], aliases := ["b"]
      usedVariables := [{ name := "CC", description := "The compiler" }] }
  refine ⟨.detailed target, { useColor := true }, by decide +kernel, ?_⟩
  have hstrings : ∀ text ∈ target.strings, Lacks Sgr.escape text := by decide
  have hpages := pages_differ_in_color_only { useColor := true } {} rfl (.standard true)
    (.standard false) "/" (.detailed target)
  exact (hpages.1 hstrings).1 _ List.mem_cons_self

end Page

end HelpSheet
