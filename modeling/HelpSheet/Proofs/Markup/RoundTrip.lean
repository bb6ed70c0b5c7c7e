import HelpSheet.Markup.Segment
import HelpSheet.Proofs.Markup.Slices
import HelpSheet.Proofs.Sgr.Sequences

/-!
# Writing and reading markup

Each segment is read back from its own source, whatever follows it: escaped text holds no mark, so
the first closing mark is the one that was written (`pieces_source_append`). Written text is
therefore read as its segments again, with plain neighbours merged (`parseChars_source`); where no
plain segments are neighbours it is read as it was (`parse_source`).
-/

set_option autoImplicit false
set_option relaxedAutoImplicit false

namespace HelpSheet.Markup

open Glyph (bare ofText written)

/-- A segment that can be written as markup: it is in normal form, and code can stand between code
marks as it is. -/
structure Segment.IsWritable (segment : Segment) : Prop where
  isNormal : segment.IsNormal
  isVerbatim : segment.kind = .code → IsVerbatim segment.content.toList

/-! ### The end of a written span -/

theorem splitAtMark?_append {first : Glyph} {mark content : List Glyph} (hfree : first ∉ content)
    (rest : List Glyph) :
    splitAtMark? (first :: mark) (content ++ first :: mark ++ rest) = some (content, rest) := by
  induction content with
  | nil =>
    have hfirst : (first :: mark).isPrefixOf (first :: (mark ++ rest)) :=
      List.isPrefixOf_iff_prefix.mpr (List.prefix_append (first :: mark) rest)
    rw [List.nil_append, List.cons_append, splitAtMark?, if_pos hfirst]
    simp
  | cons glyph content ih =>
    rw [List.mem_cons, not_or] at hfree
    have hfirst : ¬ (first :: mark).isPrefixOf (glyph :: (content ++ first :: mark ++ rest)) := by
      simp [hfree.1]
    rw [List.cons_append, List.cons_append, splitAtMark?, if_neg hfirst, ih hfree.2]
    rfl

theorem splitAtClosing?_append {url : List Glyph} (hopening : bare '(' ∉ url)
    (hclosing : bare ')' ∉ url) (rest : List Glyph) :
    splitAtClosing? 0 (url ++ bare ')' :: rest) = some (url, rest) := by
  induction url with
  | nil => rfl
  | cons glyph url ih =>
    rw [List.mem_cons, not_or] at hopening hclosing
    rw [List.cons_append, splitAtClosing?, if_neg (Ne.symm hclosing.1),
      if_neg (Ne.symm hopening.1), ih hopening.2 hclosing.2]
    rfl

/-! ### One segment -/

theorem pieces_cons {glyph : Glyph} {rest after : List Glyph} {piece : Piece}
    (h : readPiece glyph rest = (piece, after)) :
    pieces (glyph :: rest) = piece :: pieces after := by
  rw [pieces, h]

section Spans

variable {kind : SegmentKind} {mark : List Char} {content : List Glyph}

theorem readSpan?_append (hmark : kind.mark? = some mark) (hcontent : isSpanContent content)
    (hfree : ∀ c ∈ mark, bare c ∉ content) (rest : List Glyph) :
    readSpan? kind (mark.map bare) (content ++ mark.map bare ++ rest) =
      some ({ kind, content := Glyph.text content }, rest) := by
  obtain ⟨c, others, rfl⟩ := List.exists_cons_of_ne_nil (mark_ne_nil hmark)
  rw [readSpan?, List.map_cons, splitAtMark?_append (hfree c List.mem_cons_self)]
  exact if_pos hcontent

/-- A span is read from its two marks and what stands between them. -/
theorem pieces_span_append (hmark : kind.mark? = some mark) (hcontent : isSpanContent content)
    (hfree : ∀ c ∈ mark, bare c ∉ content) (rest : List Glyph) :
    pieces (mark.map bare ++ (content ++ mark.map bare ++ rest)) =
      .span { kind, content := Glyph.text content } :: pieces rest := by
  have hread := readSpan?_append hmark hcontent hfree rest
  cases kind with
  | plain => cases hmark
  | link => cases hmark
  | code =>
    obtain rfl := Option.some_inj.mp hmark
    refine pieces_cons ?_
    rw [readPiece.eq_def, if_pos rfl]
    exact congrArg (spanOr [codeMark] _) hread
  | bold =>
    obtain rfl := Option.some_inj.mp hmark
    refine pieces_cons ?_
    rw [readPiece.eq_def, if_neg (by decide), if_pos rfl]
    exact congrArg (spanOr ['*', '*'] _) hread
  | italic =>
    obtain rfl := Option.some_inj.mp hmark
    -- The content is no asterisk, or the two asterisks would open a bold span.
    obtain ⟨first, others, rfl⟩ := List.exists_cons_of_ne_nil (isSpanContent_iff.mp hcontent).1
    have hfirst : first ≠ bare '*' := fun h ↦
      hfree '*' List.mem_cons_self (h ▸ List.mem_cons_self)
    refine pieces_cons ?_
    rw [readPiece.eq_def, if_neg (by decide), if_pos rfl]
    exact (if_neg hfirst).trans (congrArg (spanOr ['*'] _) hread)

/-- A link is read from its text in brackets and its URL in parentheses. -/
theorem pieces_link_append {url : List Glyph} (hcontent : isSpanContent content)
    (hbracket : bare ']' ∉ content) (hopening : bare '(' ∉ url) (hclosing : bare ')' ∉ url)
    (rest : List Glyph) :
    pieces (bare '[' :: (content ++ [bare ']'] ++ bare '(' :: (url ++ bare ')' :: rest))) =
      .span { kind := .link, content := Glyph.text content,
              url := Text.trimmed (Glyph.text url) } :: pieces rest := by
  refine pieces_cons ?_
  have hread : readLink? (content ++ [bare ']'] ++ bare '(' :: (url ++ bare ')' :: rest)) =
      some ({ kind := .link, content := Glyph.text content,
              url := Text.trimmed (Glyph.text url) }, rest) := by
    rw [readLink?, splitAtMark?_append hbracket]
    simp only [hcontent, decide_true, Bool.and_self, if_true,
      splitAtClosing?_append hopening hclosing]
  rw [readPiece.eq_def, if_neg (by decide), if_neg (by decide), if_pos rfl, hread]
  rfl

end Spans

theorem isSpanContent_map {segment : Segment} (hnormal : segment.IsNormal)
    (hspan : segment.kind ≠ .plain) (glyphOf : Char → Glyph) :
    isSpanContent (segment.content.toList.map glyphOf) := by
  rw [isSpanContent_iff, Ne, List.map_eq_nil_iff, List.length_map, String.length_toList]
  exact ⟨fun h ↦ hnormal.content_ne (String.toList_inj.mp h), hnormal.length_le hspan⟩

theorem mark_escapable {kind : SegmentKind} {mark : List Char} (hmark : kind.mark? = some mark) :
    mark.all isEscapable ∧ '\\' ∉ mark := by
  cases kind <;> cases hmark <;> decide

/-- Escaped text between two marks is read back as a span. -/
theorem pieces_escaped_span {kind : SegmentKind} {mark : List Char}
    (hmark : kind.mark? = some mark) {content : List Char}
    (hcontent : isSpanContent (content.map written)) (rest : List Char) :
    pieces (ofText (mark ++ (escapeLiteral content ++ (mark ++ rest)))) =
      .span { kind, content := String.ofList content } :: pieces (ofText rest) := by
  obtain ⟨hescapable, hbackslash⟩ := mark_escapable hmark
  have hfree : ∀ c ∈ mark, bare c ∉ content.map written := fun c hc ↦
    Glyph.bare_not_mem_map_written (List.all_eq_true.mp hescapable c hc) content
  rw [Glyph.ofText_append_of_not_mem hbackslash, Glyph.ofText_escapeLiteral_append,
    Glyph.ofText_append_of_not_mem hbackslash, ← List.append_assoc (content.map written),
    pieces_span_append hmark hcontent hfree, Glyph.text_map_written]

/-- Text between code marks is read back as it is. -/
theorem pieces_code_span {content : List Char} (hverbatim : IsVerbatim content)
    (hcontent : isSpanContent (content.map bare)) (rest : List Char) :
    pieces (ofText (codeMark :: (content ++ codeMark :: rest))) =
      .span { kind := .code, content := String.ofList content } :: pieces (ofText rest) := by
  have hfree : ∀ c ∈ [codeMark], bare c ∉ content.map bare := by
    intro c hc hmem
    obtain ⟨d, hd, hequal⟩ := List.mem_map.mp hmem
    rw [List.mem_singleton.mp hc] at hequal
    exact hverbatim.codeMark_not_mem ((Glyph.mk.inj hequal).1 ▸ hd)
  have hspan := pieces_span_append SegmentKind.mark?_code hcontent hfree (ofText rest)
  rw [Glyph.ofText_cons (by decide), Glyph.ofText_verbatim_append hverbatim]
  rw [Glyph.text_map_bare] at hspan
  simpa using hspan

/-- Escaped text in brackets is read back as a link to the escaped URL behind it. -/
theorem pieces_escaped_link {content url : List Char}
    (hcontent : isSpanContent (content.map written)) (hurl : Text.IsTrimmed url)
    (rest : List Char) :
    pieces (ofText ('[' :: (escapeLiteral content ++
        ']' :: '(' :: (escapeLiteral url ++ ')' :: rest)))) =
      .span { kind := .link, content := String.ofList content, url := String.ofList url } ::
        pieces (ofText rest) := by
  rw [Glyph.ofText_cons (by decide), Glyph.ofText_escapeLiteral_append,
    Glyph.ofText_cons (by decide), Glyph.ofText_cons (by decide),
    Glyph.ofText_escapeLiteral_append, Glyph.ofText_cons (by decide)]
  have hbracket : bare ']' ∉ content.map written := Glyph.bare_not_mem_map_written rfl content
  have hopening : bare '(' ∉ url.map written := Glyph.bare_not_mem_map_written rfl url
  have hclosing : bare ')' ∉ url.map written := Glyph.bare_not_mem_map_written rfl url
  have hlink := pieces_link_append hcontent hbracket hopening hclosing (ofText rest)
  rw [Glyph.text_map_written, Glyph.text_map_written, Text.trimmed, String.toList_ofList,
    Text.trim_eq_self hurl] at hlink
  simpa using hlink

/-- Every span is read back from its own source, whatever follows it. -/
theorem pieces_source_append {segment : Segment} (hwritable : segment.IsWritable)
    (hspan : segment.kind ≠ .plain) (rest : List Char) :
    pieces (ofText (segment.source.toList ++ rest)) = .span segment :: pieces (ofText rest) := by
  have hwritten := isSpanContent_map hwritable.isNormal hspan written
  have hbare := isSpanContent_map hwritable.isNormal hspan bare
  obtain ⟨kind, content, url⟩ := segment
  cases kind with
  | plain => exact absurd rfl hspan
  | bold =>
    obtain rfl : url = "" := hwritable.isNormal.url_eq nofun
    simpa [Segment.source, literal] using pieces_escaped_span SegmentKind.mark?_bold hwritten rest
  | italic =>
    obtain rfl : url = "" := hwritable.isNormal.url_eq nofun
    simpa [Segment.source, literal] using pieces_escaped_span SegmentKind.mark?_italic hwritten rest
  | code =>
    obtain rfl : url = "" := hwritable.isNormal.url_eq nofun
    simpa [Segment.source, codeMarkString] using
      pieces_code_span (hwritable.isVerbatim rfl) hbare rest
  | link =>
    simpa [Segment.source, literal] using
      pieces_escaped_link hwritten hwritable.isNormal.isTrimmed_url rest

/-- A glyph that is no opening mark is literal. -/
theorem readPiece_of_ne {glyph : Glyph} (hcode : glyph ≠ bare codeMark) (hstar : glyph ≠ bare '*')
    (hbracket : glyph ≠ bare '[') (rest : List Glyph) :
    readPiece glyph rest = (.literal [glyph.char], rest) := by
  rw [readPiece.eq_def, if_neg hcode, if_neg hstar, if_neg hbracket]

theorem readPiece_written (c : Char) (rest : List Glyph) :
    readPiece (written c) rest = (.literal [c], rest) := by
  have hmark : ∀ mark, isEscapable mark → written c ≠ bare mark := fun mark hmark h ↦
    Glyph.bare_not_mem_map_written hmark [c] (h ▸ List.mem_singleton_self _)
  exact readPiece_of_ne (hmark codeMark rfl) (hmark '*' rfl) (hmark '[' rfl) rest

/-- Escaped text is read back as literal text, whatever follows it. -/
theorem pieces_escapeLiteral_append (content rest : List Char) :
    pieces (ofText (escapeLiteral content ++ rest)) =
      content.map (fun c ↦ .literal [c]) ++ pieces (ofText rest) := by
  rw [Glyph.ofText_escapeLiteral_append]
  induction content with
  | nil => rfl
  | cons c content ih =>
    rw [List.map_cons, List.cons_append, pieces_cons (readPiece_written c _), ih, List.map_cons,
      List.cons_append]

/-! ### Whole texts -/

theorem joinPieces_literals (pending content : List Char) (rest : List Piece) :
    joinPieces pending (content.map (fun c ↦ .literal [c]) ++ rest) =
      joinPieces (content.reverse ++ pending) rest := by
  induction content generalizing pending with
  | nil => rfl
  | cons c content ih => simp [joinPieces, ih]

theorem source_cons_toList (segment : Segment) (rest : RichText) :
    (RichText.source (segment :: rest)).toList = segment.source.toList ++ rest.source.toList := by
  simp [RichText.source, String.toList_join]

theorem Segment.IsNormal.eq_plain {segment : Segment} (hnormal : segment.IsNormal)
    (hplain : segment.kind = .plain) : segment = .plain segment.content := by
  obtain ⟨kind, content, url⟩ := segment
  obtain rfl : kind = .plain := hplain
  obtain rfl : url = "" := hnormal.url_eq nofun
  rfl

theorem source_plain_toList (content : String) :
    (Segment.plain content).source.toList = escapeLiteral content.toList := by
  simp [Segment.plain, Segment.source, literal]

theorem source_mergeFront (first : Segment) (rest : RichText) :
    RichText.source (RichText.mergeFront first rest) = RichText.source (first :: rest) := by
  cases rest with
  | nil => rfl
  | cons second rest =>
    rw [RichText.mergeFront]
    split
    · rename_i hplain
      rw [← String.toList_inj]
      simp [source_cons_toList, Segment.source, hplain, literal, escapeLiteral,
        List.flatMap_append]
    · rfl

/-- Merging keeps the markup. -/
theorem source_merged (text : RichText) : text.merged.source = text.source := by
  induction text with
  | nil => rfl
  | cons first rest ih =>
    rw [RichText.merged_cons, source_mergeFront, ← String.toList_inj, source_cons_toList, ih,
      source_cons_toList]

/-- Behind plain text under way, written text is read as its segments, plain neighbours merged. -/
theorem joinPieces_source (pending : List Char) {text : RichText}
    (hwritable : ∀ segment ∈ text, segment.IsWritable) :
    joinPieces pending (pieces (ofText text.source.toList)) =
      RichText.merged (plainSegment pending ++ text) := by
  induction text generalizing pending with
  | nil =>
    have hnothing := joinPieces_eq_merged pending (List.forall_mem_nil Piece.IsProper)
    simpa [RichText.source, ofText, pieces] using hnothing
  | cons segment rest ih =>
    rw [List.forall_mem_cons] at hwritable
    obtain ⟨hsegment, hrest⟩ := hwritable
    rw [source_cons_toList]
    by_cases hplain : segment.kind = .plain
    · have hne : segment.content.toList ≠ [] := fun h ↦
        hsegment.isNormal.content_ne (String.toList_inj.mp h)
      have hmerged := merged_plainSegment_append_plain pending hne rest
      rw [String.ofList_toList] at hmerged
      rw [hsegment.isNormal.eq_plain hplain, source_plain_toList, pieces_escapeLiteral_append,
        joinPieces_literals, ih _ hrest, hmerged]
    · rw [pieces_source_append hsegment hplain, joinPieces, ih [] hrest,
        merged_plainSegment_append_span pending hplain]
      rfl

/-- Written text that is not too long is read as its segments, plain neighbours merged. -/
theorem parseChars_source {text : RichText} (hwritable : ∀ segment ∈ text, segment.IsWritable)
    (hlength : text.source.length ≤ maxTextLength) :
    parseChars text.source.toList = text.merged := by
  rw [← String.length_toList] at hlength
  rw [parseChars, if_pos hlength, joinPieces_source [] hwritable]
  rfl

/-- Reading gives written text back: rich text in normal form, whose code can stand between code
marks as it is, and whose source is not too long and holds no terminal sequence. -/
theorem parse_source {text : RichText} (hnormal : text.IsNormal)
    (hverbatim : ∀ segment ∈ text, segment.kind = .code → IsVerbatim segment.content.toList)
    (hlength : text.source.length ≤ maxTextLength)
    (hgraphic : ¬ Sgr.HasGraphic text.source.toList) : parse text.source = text := by
  have hwritable : ∀ segment ∈ text, segment.IsWritable := fun segment hsegment ↦
    ⟨hnormal.segments segment hsegment, hverbatim segment hsegment⟩
  rw [parse, Sgr.strip_eq_self hgraphic, parseChars_source hwritable hlength,
    RichText.merged_eq_self hnormal.isChain]

/-- Spans next to each other, a link with parentheses in its URL, and plain text that ends in a
backslash. -/
def neighbours : RichText :=
  [.plain "a*\\", { kind := .italic, content := "b" }, { kind := .italic, content := "*" },
    { kind := .bold, content := "c\\" }, { kind := .italic, content := "d" },
    { kind := .link, content := "[e]", url := "/f(g" }, { kind := .code, content := "h\\i*" }]

/-- They are read back. -/
theorem parse_source_neighbours :
    neighbours.IsNormal ∧
      (∀ segment ∈ neighbours, segment.kind = .code → IsVerbatim segment.content.toList) ∧
      neighbours.source.length ≤ maxTextLength ∧ ¬ Sgr.HasGraphic neighbours.source.toList ∧
      parse neighbours.source = neighbours := by
  have hnormal : neighbours.IsNormal := by decide
  have hverbatim : ∀ segment ∈ neighbours, segment.kind = .code →
      IsVerbatim segment.content.toList := by decide
  have hlength : neighbours.source.length ≤ maxTextLength := by decide
  have hgraphic : ¬ Sgr.HasGraphic neighbours.source.toList := by decide
  exact ⟨hnormal, hverbatim, hlength, hgraphic, parse_source hnormal hverbatim hlength hgraphic⟩

end HelpSheet.Markup
