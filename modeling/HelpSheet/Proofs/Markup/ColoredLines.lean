import HelpSheet.Markup.Summary
import HelpSheet.Proofs.Markup.Slices
import HelpSheet.Proofs.Sgr.Painting
import HelpSheet.Proofs.Text.Trimming

/-!
# Summaries of colored lines

The line to summarize is chosen, trimmed and freed of its heading mark before its sequences are
stripped. Stripping first gives the same text to summarize exactly where the chosen line keeps its
shape (`KeepsShape`): without sequences it still shows something, has no blank at its ends, and
begins with the same heading mark; or it holds sequences only, in a documentation that shows
nothing at all (`summaryText_eq_iff_keepsHeadline`).
-/

set_option autoImplicit false
set_option relaxedAutoImplicit false

namespace HelpSheet

namespace Sgr

/-! ### Blanks around sequences -/

theorem escape_notMem_of_blank {text : List Char} (hblank : ∀ c ∈ text, Text.isBlank c) :
    escape ∉ text :=
  fun hmem ↦ absurd (hblank escape hmem) (by decide)

/-- A sequence ends with a letter, so it does not reach into blanks behind the text. -/
theorem afterSequence?_append_eq_none {text back : List Char}
    (hback : ∀ c ∈ back, Text.isBlank c) (hnone : afterSequence? .graphic text = none) :
    afterSequence? .graphic (text ++ back) = none := by
  rw [Option.eq_none_iff_forall_ne_some]
  intro after hafter
  obtain ⟨sequence, hsequence, hsplit⟩ := afterSequence?_graphic_eq_some_iff.mp hafter
  have hstart : ∀ rest, text ≠ sequence ++ rest := by
    rintro rest rfl
    rw [hsequence.afterSequence?_append] at hnone
    cases hnone
  obtain ⟨inside, hinside, hblanks⟩ | ⟨rest, hrest, -⟩ := List.append_eq_append_iff.mp hsplit
  · obtain ⟨parameters, -, hparts⟩ := hsequence
    have hlast : sequence.getLast? = some 'm' := by
      rw [hparts, ← List.cons_append, ← List.cons_append, List.getLast?_concat]
    cases inside using List.reverseRecOn with
    | nil => exact hstart [] (by rw [hinside, List.append_nil, List.append_nil])
    | append_singleton inside c =>
      rw [hinside, ← List.append_assoc, List.getLast?_concat, Option.some_inj] at hlast
      refine absurd (hback c ?_) (by rw [hlast]; decide)
      rw [hblanks]
      simp
  · exact hstart rest hrest

theorem strip_append_of_blank (text : List Char) {back : List Char}
    (hback : ∀ c ∈ back, Text.isBlank c) :
    strip .graphic (text ++ back) = strip .graphic text ++ back := by
  induction text using strip.induct SequenceClass.graphic with
  | case1 =>
    rw [strip_nil]
    exact (stripsTo_self (escape_notMem_of_blank hback)).strip_eq
  | case2 c rest after hafter ih =>
    obtain ⟨sequence, hsequence, hsplit⟩ := afterSequence?_graphic_eq_some_iff.mp hafter
    rw [strip_of_some hafter, hsplit, List.append_assoc, hsequence.stripsTo_nil, ih,
      List.nil_append]
  | case3 c rest hnone ih =>
    have hlonger := afterSequence?_append_eq_none hback hnone
    rw [List.cons_append] at hlonger ⊢
    rw [strip_cons_of_none hlonger, strip_cons_of_none hnone, ih, List.cons_append]

/-- Trimming a stripped text takes away the blanks at the ends of the text itself, and those that
sequences stood in front of or behind. -/
theorem trim_strip_trim (text : List Char) :
    Text.trim (strip .graphic (Text.trim text)) = Text.trim (strip .graphic text) := by
  obtain ⟨front, back, hfront, hback, hsplit⟩ := Text.exists_append_trim text
  have hstrip : strip .graphic text = front ++ strip .graphic (Text.trim text) ++ back := by
    conv_lhs => rw [hsplit, strip_append_of_blank _ hback]
    rw [stripsTo_self (escape_notMem_of_blank hfront)]
  rw [hstrip, Text.trim_append_append hfront hback]

end Sgr

namespace Markup

/-! ### Heading marks -/

/-- The heading mark of a line: its number signs and the blanks after them, where there are
both. -/
def headingMark (line : List Char) : List Char :=
  let signs := line.takeWhile (· = '#')
  let blanks := (line.dropWhile (· = '#')).takeWhile Text.isBlank
  if signs ≠ [] ∧ blanks ≠ [] then signs ++ blanks else []

theorem length_dropWhile_lt_iff (p : Char → Bool) (text : List Char) :
    (text.dropWhile p).length < text.length ↔ text.takeWhile p ≠ [] := by
  have hlengths := congrArg List.length (List.takeWhile_append_dropWhile (p := p) (l := text))
  rw [List.length_append] at hlengths
  rw [← List.length_pos_iff]
  omega

theorem withoutHeadingMark_eq_ite (line : List Char) :
    withoutHeadingMark line =
      if line.takeWhile (· = '#') ≠ [] ∧
          (line.dropWhile (· = '#')).takeWhile Text.isBlank ≠ [] then
        (line.dropWhile (· = '#')).dropWhile Text.isBlank
      else line := by
  simp only [withoutHeadingMark, Bool.and_eq_true, decide_eq_true_eq, length_dropWhile_lt_iff]

/-- A line has no heading mark, or is number signs, blanks, and what no blank begins. -/
theorem headingMark_cases (line : List Char) :
    (headingMark line = [] ∧ withoutHeadingMark line = line) ∨
      ∃ signs blanks, headingMark line = signs ++ blanks ∧ signs ≠ [] ∧ blanks ≠ [] ∧
        (∀ c ∈ signs, c = '#') ∧ (∀ c ∈ blanks, Text.isBlank c) ∧
        (∀ c ∈ (withoutHeadingMark line).head?, ¬ Text.isBlank c) ∧
        line = signs ++ blanks ++ withoutHeadingMark line := by
  rw [withoutHeadingMark_eq_ite, headingMark]
  split
  · next hmark =>
    refine .inr ⟨_, _, rfl, hmark.1, hmark.2, ?_, List.all_eq_true.mp List.all_takeWhile, ?_, ?_⟩
    · intro c hc
      simpa using List.all_eq_true.mp List.all_takeWhile c hc
    · intro c hc
      have hhead := List.head?_dropWhile_not Text.isBlank (line.dropWhile (· = '#'))
      rw [hc] at hhead
      simpa using hhead
    · rw [List.append_assoc, List.takeWhile_append_dropWhile, List.takeWhile_append_dropWhile]
  · exact .inl ⟨rfl, rfl⟩

theorem headingMark_append_withoutHeadingMark (line : List Char) :
    headingMark line ++ withoutHeadingMark line = line := by
  obtain ⟨hmark, hline⟩ | ⟨signs, blanks, hmark, -, -, -, -, -, hline⟩ := headingMark_cases line
  · rw [hmark, hline, List.nil_append]
  · rw [hmark, ← hline]

theorem head?_headingMark {line : List Char} {c : Char} (hc : c ∈ (headingMark line).head?) :
    c = '#' := by
  obtain ⟨hmark, -⟩ | ⟨signs, blanks, hmark, hne, -, hsigns, -⟩ := headingMark_cases line
  · rw [hmark] at hc
    cases hc
  · rw [hmark, List.head?_append_of_ne_nil _ hne] at hc
    exact hsigns c (List.mem_of_mem_head? hc)

theorem escape_notMem_headingMark (line : List Char) : Sgr.escape ∉ headingMark line := by
  obtain ⟨hmark, -⟩ | ⟨signs, blanks, hmark, -, -, hsigns, hblanks, -⟩ := headingMark_cases line
  · simp [hmark]
  · rw [hmark, List.mem_append, not_or]
    exact ⟨fun hmem ↦ absurd (hsigns _ hmem) (by decide), Sgr.escape_notMem_of_blank hblanks⟩

/-- Stripping leaves the heading mark of a line where it is. -/
theorem strip_eq_headingMark_append (line : List Char) :
    Sgr.strip .graphic line =
      headingMark line ++ Sgr.strip .graphic (withoutHeadingMark line) := by
  conv_lhs => rw [← headingMark_append_withoutHeadingMark line]
  exact Sgr.stripsTo_self (escape_notMem_headingMark line) _

theorem isTrimmed_headingMark_append (line : List Char) {text : List Char}
    (htrimmed : Text.IsTrimmed text) (hne : text ≠ []) :
    Text.IsTrimmed (headingMark line ++ text) where
  head := by
    intro c hc
    rw [List.head?_append, Option.mem_def, Option.or_eq_some_iff] at hc
    rcases hc with hmark | ⟨-, htext⟩
    · rw [head?_headingMark hmark]
      decide
    · exact htrimmed.head c htext
  last := by
    intro c hc
    rw [List.getLast?_append_of_ne_nil _ hne] at hc
    exact htrimmed.last c hc

/-- A line that shows something shows something behind its heading mark. -/
theorem isTrimmed_withoutHeadingMark {line : List Char} (htrimmed : Text.IsTrimmed line)
    (hne : line ≠ []) :
    withoutHeadingMark line ≠ [] ∧ Text.IsTrimmed (withoutHeadingMark line) := by
  obtain ⟨-, hline⟩ | ⟨signs, blanks, -, -, hblank, -, hblanks, hhead, hline⟩ :=
    headingMark_cases line
  · rw [hline]
    exact ⟨hne, htrimmed⟩
  · have hrest : withoutHeadingMark line ≠ [] := by
      intro hnil
      -- The line would end with a blank of its heading mark.
      rw [hnil, List.append_nil] at hline
      refine htrimmed.last (blanks.getLast hblank) ?_ (hblanks _ (List.getLast_mem hblank))
      rw [hline, List.getLast?_append_of_ne_nil _ hblank]
      exact List.getLast?_eq_getLast_of_ne_nil hblank
    refine ⟨hrest, hhead, fun c hc ↦ htrimmed.last c ?_⟩
    rwa [hline, List.getLast?_append_of_ne_nil _ hrest]

/-! ### The shape of a line -/

/-- A text still shows something without its sequences, has no blank at its ends, and begins with
the same heading mark. -/
structure KeepsShape (text : List Char) : Prop where
  ne_nil : Sgr.strip .graphic text ≠ []
  isTrimmed : Text.IsTrimmed (Sgr.strip .graphic text)
  mark_eq : headingMark (Sgr.strip .graphic text) = headingMark text

/-- A text still shows something without its sequences, is trimmed then but for the given blanks
behind it, and begins with the same heading mark. -/
structure KeepsShapeBefore (blanks text : List Char) : Prop where
  ne_nil : Text.trim (Sgr.strip .graphic text) ≠ []
  strip_eq : Sgr.strip .graphic text = Text.trim (Sgr.strip .graphic text) ++ blanks
  mark_eq : headingMark (Text.trim (Sgr.strip .graphic text)) = headingMark text

theorem keepsShapeBefore_nil_iff {text : List Char} :
    KeepsShapeBefore [] text ↔ KeepsShape text := by
  constructor
  · rintro ⟨hne, hstrip, hmark⟩
    rw [List.append_nil] at hstrip
    rw [← hstrip] at hne hmark
    exact ⟨hne, hstrip ▸ Text.isTrimmed_trim _, hmark⟩
  · rintro ⟨hne, htrimmed, hmark⟩
    have htrim := Text.trim_eq_self htrimmed
    exact ⟨by rwa [htrim], by rw [htrim, List.append_nil], by rwa [htrim]⟩

/-- Stripping a line behind its heading mark gives the same text as stripping it first, then
trimming it and dropping its heading mark, and the given blanks behind it, exactly where the line
keeps its shape before these blanks. -/
theorem strip_withoutHeadingMark_eq_append_iff {text blanks : List Char}
    (hblanks : ∀ c ∈ blanks, Text.isBlank c)
    (hshown : Text.trim (Sgr.strip .graphic text) ≠ []) :
    Sgr.strip .graphic (withoutHeadingMark text) =
        withoutHeadingMark (Text.trim (Sgr.strip .graphic text)) ++ blanks ↔
      KeepsShapeBefore blanks text := by
  have hmark := strip_eq_headingMark_append text
  constructor
  · intro heq
    obtain ⟨hne, htrimmed⟩ :=
      isTrimmed_withoutHeadingMark (Text.isTrimmed_trim (Sgr.strip .graphic text)) hshown
    rw [heq, ← List.append_assoc] at hmark
    have htrim : Text.trim (Sgr.strip .graphic text) =
        headingMark text ++ withoutHeadingMark (Text.trim (Sgr.strip .graphic text)) := by
      conv_lhs => rw [hmark, ← List.nil_append (headingMark text ++ _)]
      rw [Text.trim_append_append (List.forall_mem_nil _) hblanks,
        Text.trim_eq_self (isTrimmed_headingMark_append text htrimmed hne)]
    refine ⟨hshown, by rw [htrim, ← hmark], ?_⟩
    rw [← List.append_left_inj (withoutHeadingMark (Text.trim (Sgr.strip .graphic text))), ← htrim,
      headingMark_append_withoutHeadingMark]
  · rintro ⟨-, hstrip, hsame⟩
    rw [← List.append_right_inj (headingMark text), ← hmark, ← List.append_assoc, ← hsame,
      headingMark_append_withoutHeadingMark, ← hstrip]

theorem strip_withoutHeadingMark_eq_iff {text : List Char}
    (hshown : Text.trim (Sgr.strip .graphic text) ≠ []) :
    Sgr.strip .graphic (withoutHeadingMark text) =
        withoutHeadingMark (Text.trim (Sgr.strip .graphic text)) ↔ KeepsShape text := by
  rw [← keepsShapeBefore_nil_iff,
    ← strip_withoutHeadingMark_eq_append_iff (List.forall_mem_nil _) hshown, List.append_nil]

/-! ### The text that is summarized -/

/-- The first line that shows something besides blanks. -/
def firstShown? (documentation : List String) : Option String :=
  documentation.find? fun line ↦ Text.trimmed line ≠ ""

/-- The text whose first sentence is the summary. -/
def summaryText (documentation : List String) : List Char :=
  match firstShown? documentation with
  | some line => Sgr.strip .graphic (withoutHeadingMark (Text.trim line.toList))
  | none => []

variable {documentation : List String} {line : String}

theorem summaryText_of_firstShown? (hline : firstShown? documentation = some line) :
    summaryText documentation =
      Sgr.strip .graphic (withoutHeadingMark (Text.trim line.toList)) := by
  rw [summaryText, hline]

theorem summaryText_of_firstShown?_eq_none (hnone : firstShown? documentation = none) :
    summaryText documentation = [] := by
  rw [summaryText, hnone]

theorem headline?_eq_map (documentation : List String) :
    headline? documentation = (firstShown? documentation).map fun line ↦
      String.ofList (withoutHeadingMark (Text.trim line.toList)) := rfl

theorem summarize_eq_firstSentence (documentation : List String) :
    summarize documentation = firstSentence (parseChars (summaryText documentation)) := by
  rw [summarize, headline?_eq_map]
  cases hline : firstShown? documentation with
  | none =>
    rw [summaryText_of_firstShown?_eq_none hline, parseChars_nil]
    rfl
  | some line =>
    rw [summaryText_of_firstShown? hline, Option.map_some]
    simp only [parse, String.toList_ofList]

/-- The documentation keeps the line that is summarized: the first line that shows something keeps
its shape, or it holds sequences only and no line shows anything without its sequences. -/
def KeepsHeadline (documentation : List String) : Prop :=
  ∀ line, firstShown? documentation = some line →
    KeepsShape (Text.trim line.toList) ∨
      Sgr.strip .graphic (Text.trim line.toList) = [] ∧
        ∀ other ∈ documentation, Text.trimmed (Sgr.withoutGraphics other) = ""

theorem keepsHeadline_iff (hline : firstShown? documentation = some line) :
    KeepsHeadline documentation ↔
      KeepsShape (Text.trim line.toList) ∨
        Sgr.strip .graphic (Text.trim line.toList) = [] ∧
          ∀ other ∈ documentation, Text.trimmed (Sgr.withoutGraphics other) = "" := by
  simp [KeepsHeadline, hline]

theorem keepsHeadline_of_firstShown?_eq_none (hnone : firstShown? documentation = none) :
    KeepsHeadline documentation := by
  intro line hline
  rw [hnone] at hline
  cases hline

/-! ### Lines without their sequences -/

theorem trimmed_eq_empty_iff : Text.trimmed line = "" ↔ Text.trim line.toList = [] := by
  rw [Text.trimmed, String.ofList_eq_empty_iff]

theorem trimmed_withoutGraphics_eq_empty_iff :
    Text.trimmed (Sgr.withoutGraphics line) = "" ↔
      Text.trim (Sgr.strip .graphic (Text.trim line.toList)) = [] := by
  rw [trimmed_eq_empty_iff, Sgr.withoutGraphics, String.toList_ofList, Sgr.trim_strip_trim]

/-- A blank line is blank without its sequences. -/
theorem trimmed_withoutGraphics_of_blank (hblank : Text.trimmed line = "") :
    Text.trimmed (Sgr.withoutGraphics line) = "" := by
  rw [trimmed_withoutGraphics_eq_empty_iff, trimmed_eq_empty_iff.mp hblank, Sgr.strip_nil]
  rfl

theorem firstShown?_eq_none_iff :
    firstShown? documentation = none ↔ ∀ line ∈ documentation, Text.trimmed line = "" := by
  simp [firstShown?]

theorem firstShown?_map_eq_none_iff :
    firstShown? (documentation.map Sgr.withoutGraphics) = none ↔
      ∀ line ∈ documentation, Text.trimmed (Sgr.withoutGraphics line) = "" := by
  rw [firstShown?_eq_none_iff, List.forall_mem_map]

theorem trimmed_ne_empty_of_firstShown? (hline : firstShown? documentation = some line) :
    Text.trimmed line ≠ "" := by
  simpa using List.find?_some hline

/-- Without sequences the same line is the first one to show something, if it still does. -/
theorem firstShown?_map_withoutGraphics (hline : firstShown? documentation = some line)
    (hshown : Text.trimmed (Sgr.withoutGraphics line) ≠ "") :
    firstShown? (documentation.map Sgr.withoutGraphics) = some (Sgr.withoutGraphics line) := by
  obtain ⟨-, front, back, rfl, hfront⟩ := List.find?_eq_some_iff_append.mp hline
  refine List.find?_eq_some_iff_append.mpr
    ⟨decide_eq_true hshown, front.map Sgr.withoutGraphics, back.map Sgr.withoutGraphics,
      by rw [List.map_append, List.map_cons], ?_⟩
  intro _ hmem
  obtain ⟨other, hother, rfl⟩ := List.mem_map.mp hmem
  have hblank : Text.trimmed other = "" := by simpa using hfront other hother
  simpa using trimmed_withoutGraphics_of_blank hblank

/-- Stripping every line leaves no sequence behind. -/
def StripsOnce (documentation : List String) : Prop :=
  ∀ line ∈ documentation, ¬ Sgr.HasGraphic (Sgr.withoutGraphics line).toList

/-- A line that is stripped already is not stripped again when it is read. -/
theorem summaryText_map_withoutGraphics (honce : StripsOnce documentation)
    (hmem : line ∈ documentation)
    (hline : firstShown? (documentation.map Sgr.withoutGraphics) =
      some (Sgr.withoutGraphics line)) :
    summaryText (documentation.map Sgr.withoutGraphics) =
      withoutHeadingMark (Text.trim (Sgr.strip .graphic (Text.trim line.toList))) := by
  have hgraphic := honce line hmem
  rw [summaryText_of_firstShown? hline, Sgr.trim_strip_trim]
  rw [Sgr.withoutGraphics, String.toList_ofList] at hgraphic ⊢
  refine Sgr.strip_eq_self fun hleft ↦ hgraphic (hleft.mono ?_)
  obtain ⟨front, back, -, -, hsplit⟩ := Text.exists_append_trim (Sgr.strip .graphic line.toList)
  refine List.IsInfix.trans ?_ ⟨front, back, hsplit.symm⟩
  exact ⟨headingMark _, [], by rw [List.append_nil, headingMark_append_withoutHeadingMark]⟩

theorem isTrimmed_summaryText_map_withoutGraphics (honce : StripsOnce documentation)
    {shown : String}
    (hshown : firstShown? (documentation.map Sgr.withoutGraphics) = some shown) :
    summaryText (documentation.map Sgr.withoutGraphics) ≠ [] ∧
      Text.IsTrimmed (summaryText (documentation.map Sgr.withoutGraphics)) := by
  obtain ⟨line, hmem, rfl⟩ := List.mem_map.mp (List.mem_of_find?_eq_some hshown)
  have hne := trimmed_ne_empty_of_firstShown? hshown
  rw [summaryText_map_withoutGraphics honce hmem hshown]
  exact isTrimmed_withoutHeadingMark (Text.isTrimmed_trim _)
    (mt trimmed_withoutGraphics_eq_empty_iff.mpr hne)

/-! ### Coloring and the summary -/

/-- A text that is blank without its sequences has no heading mark to lose. -/
theorem strip_eq_nil_of_blank {text : List Char}
    (hblank : Text.trim (Sgr.strip .graphic text) = [])
    (hrest : Sgr.strip .graphic (withoutHeadingMark text) = []) :
    Sgr.strip .graphic text = [] := by
  rw [strip_eq_headingMark_append, hrest, List.append_nil] at hblank ⊢
  cases hmark : headingMark text with
  | nil => rfl
  | cons c rest =>
    have hsign : c = '#' := head?_headingMark (by rw [hmark]; rfl)
    have hc := Text.trim_eq_nil_iff.mp hblank c (by rw [hmark]; exact List.mem_cons_self)
    exact absurd hc (by rw [hsign]; decide)

/-- The first line that shows something may be blank without its sequences. What is read of it is
blank then, and stripping first finds a line that is not, unless there is none. -/
theorem summaryText_eq_iff_of_blank (honce : StripsOnce documentation)
    (hline : firstShown? documentation = some line)
    (hblank : Text.trimmed (Sgr.withoutGraphics line) = "") :
    summaryText documentation = summaryText (documentation.map Sgr.withoutGraphics) ↔
      Sgr.strip .graphic (Text.trim line.toList) = [] ∧
        ∀ other ∈ documentation, Text.trimmed (Sgr.withoutGraphics other) = "" := by
  have hstripped := trimmed_withoutGraphics_eq_empty_iff.mp hblank
  have hmark := strip_eq_headingMark_append (Text.trim line.toList)
  rw [← firstShown?_map_eq_none_iff, summaryText_of_firstShown? hline]
  cases hshown : firstShown? (documentation.map Sgr.withoutGraphics) with
  | none =>
    rw [summaryText_of_firstShown?_eq_none hshown]
    refine ⟨fun hrest ↦ ⟨strip_eq_nil_of_blank hstripped hrest, rfl⟩, fun hnil ↦ ?_⟩
    rw [hnil.1] at hmark
    exact (List.append_eq_nil_iff.mp hmark.symm).2
  | some shown =>
    obtain ⟨hne, htrimmed⟩ := isTrimmed_summaryText_map_withoutGraphics honce hshown
    refine iff_of_false (fun heq ↦ hne ?_) (by simp)
    rw [← Text.trim_eq_self htrimmed, ← heq, Text.trim_eq_nil_iff]
    intro c hc
    refine Text.trim_eq_nil_iff.mp hstripped c ?_
    rw [hmark]
    exact List.mem_append_right _ hc

theorem summaryText_eq_iff (honce : StripsOnce documentation) :
    summaryText documentation = summaryText (documentation.map Sgr.withoutGraphics) ↔
      KeepsHeadline documentation := by
  cases hline : firstShown? documentation with
  | none =>
    have hblank := firstShown?_eq_none_iff.mp hline
    have hstripped := firstShown?_map_eq_none_iff.mpr fun other hother ↦
      trimmed_withoutGraphics_of_blank (hblank other hother)
    rw [summaryText_of_firstShown?_eq_none hline, summaryText_of_firstShown?_eq_none hstripped]
    exact iff_of_true rfl (keepsHeadline_of_firstShown?_eq_none hline)
  | some line =>
    rw [keepsHeadline_iff hline]
    by_cases hblank : Text.trimmed (Sgr.withoutGraphics line) = ""
    · have hshapeless : ¬ KeepsShape (Text.trim line.toList) := by
        rintro ⟨hne, htrimmed, -⟩
        rw [trimmed_withoutGraphics_eq_empty_iff, Text.trim_eq_self htrimmed] at hblank
        exact hne hblank
      rw [summaryText_eq_iff_of_blank honce hline hblank, or_iff_right hshapeless]
    · have hmem := List.mem_of_find?_eq_some hline
      have hshown := mt trimmed_withoutGraphics_eq_empty_iff.mpr hblank
      have hnonempty : ¬ (Sgr.strip .graphic (Text.trim line.toList) = [] ∧
          ∀ other ∈ documentation, Text.trimmed (Sgr.withoutGraphics other) = "") :=
        fun h ↦ hblank (h.2 line hmem)
      rw [summaryText_of_firstShown? hline, summaryText_map_withoutGraphics honce hmem
        (firstShown?_map_withoutGraphics hline hblank), or_iff_left hnonempty]
      exact strip_withoutHeadingMark_eq_iff hshown

/-- Colors make no difference to the text that is summarized exactly where the documentation keeps
the line that is summarized, and then they make none to the summary. -/
theorem summaryText_eq_iff_keepsHeadline
    (honce : ∀ line ∈ documentation, ¬ Sgr.HasGraphic (Sgr.withoutGraphics line).toList) :
    (summaryText documentation = summaryText (documentation.map Sgr.withoutGraphics) ↔
        KeepsHeadline documentation) ∧
      (KeepsHeadline documentation →
        summarize documentation = summarize (documentation.map Sgr.withoutGraphics)) := by
  refine ⟨summaryText_eq_iff honce, fun hkeeps ↦ ?_⟩
  rw [summarize_eq_firstSentence, summarize_eq_firstSentence,
    (summaryText_eq_iff honce).mpr hkeeps]

/-- A heading that is colored behind its mark keeps its shape. -/
theorem summarize_colored_heading :
    KeepsHeadline ["", "## \x1b[1mBuild\x1b[0m it. \x1b[2mFast.\x1b[0m"] ∧
      summarize ["", "## \x1b[1mBuild\x1b[0m it. \x1b[2mFast.\x1b[0m"] =
        summarize ["", "## Build it. Fast."] := by
  have honce : ∀ line ∈ ["", "## \x1b[1mBuild\x1b[0m it. \x1b[2mFast.\x1b[0m"],
      ¬ Sgr.HasGraphic (Sgr.withoutGraphics line).toList := by decide +kernel
  have hcolors := summaryText_eq_iff_keepsHeadline honce
  have hkeeps := hcolors.1.mp (by decide +kernel)
  exact ⟨hkeeps, (hcolors.2 hkeeps).trans (by decide +kernel)⟩

/-- A heading mark behind a sequence is kept. -/
theorem not_forall_summarize_withoutGraphics :
    ¬ ∀ documentation : List String,
      (∀ line ∈ documentation, ¬ Sgr.HasGraphic (Sgr.withoutGraphics line).toList) →
        summarize documentation = summarize (documentation.map Sgr.withoutGraphics) := by
  intro hall
  have hcolored : summarize ["\x1b[1m# Build.\x1b[0m"] = [.plain "# Build."] := by decide +kernel
  have hstripped : summarize (["\x1b[1m# Build.\x1b[0m"].map Sgr.withoutGraphics) =
      [.plain "Build."] := by decide +kernel
  have hequal := hall ["\x1b[1m# Build.\x1b[0m"] (by decide +kernel)
  rw [hcolored, hstripped] at hequal
  exact absurd hequal (by decide)

example : summarize ["\x1b[0m", "Builds."] = [] := by decide +kernel

end Markup

end HelpSheet
