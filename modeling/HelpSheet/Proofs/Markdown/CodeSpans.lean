import HelpSheet.Proofs.Markdown.Links
import HelpSheet.Proofs.Markdown.Reading

/-!
# Code spans in documentation

A documentation line is written in Markdown segment by segment, each code segment with fences of its
own. A reader of the line finds the segments exactly when no two code segments are neighbours
(`readInline_inlineText_iff`): the fences of neighbours are one run, which closes neither span.
Where there are no such neighbours, the code spans are the code segments and every link outside code
was let through as safe (`bodyText_codeSpans`).
-/

set_option autoImplicit false
set_option relaxedAutoImplicit false

namespace HelpSheet.Page.Markdown

open Escape.Markdown (backtick codeContents codeSpan readInline spanContent)
open Markup (RichText Segment escapeLiteral isEscapable)

/-! ### The tokens of segments -/

/-- The token of a literal character. -/
def literalToken (c : Char) : Escape.Markdown.Token :=
  if isEscapable c then .escaped c else .char c

/-- The tokens of literal text. -/
def literalTokens (text : String) : List Escape.Markdown.Token :=
  text.toList.map literalToken

/-- The tokens that a segment should be read as. -/
def segmentTokens (segment : Segment) : List Escape.Markdown.Token :=
  match segment.kind with
  | .plain => literalTokens segment.content
  | .bold => .char '*' :: .char '*' :: literalTokens segment.content ++ [.char '*', .char '*']
  | .italic => .char '*' :: literalTokens segment.content ++ [.char '*']
  | .code => [.code (spanContent segment.content.toList)]
  | .link =>
    if Escape.Url.safe segment.url then
      .char '[' :: literalTokens segment.content ++ .char ']' :: .char '(' ::
        literalTokens segment.url ++ [.char ')']
    else literalTokens segment.content

/-- Two segments that are not both code. -/
def NotBothCode (first second : Segment) : Prop :=
  ¬ (first.kind = .code ∧ second.kind = .code)

instance : DecidableRel NotBothCode := fun _ _ ↦ inferInstanceAs (Decidable (¬ _))

theorem isPunctuation_of_isEscapable {c : Char} (hc : isEscapable c) :
    Escape.Markdown.isPunctuation c := by
  simp only [isEscapable, Bool.or_eq_true, decide_eq_true_eq] at hc
  rcases hc with (((((rfl | rfl) | rfl) | rfl) | rfl) | rfl) | rfl <;> decide

theorem readInline_escapeLiteral_append (text rest : List Char) :
    readInline (escapeLiteral text ++ rest) = text.map literalToken ++ readInline rest := by
  induction text with
  | nil => rfl
  | cons c text ih =>
    by_cases hc : isEscapable c
    · have hspelling : escapeLiteral (c :: text) = '\\' :: c :: escapeLiteral text := by
        simp [escapeLiteral, hc]
      rw [hspelling, List.cons_append, List.cons_append,
        Escape.Markdown.readInline_escaped_cons (isPunctuation_of_isEscapable hc), ih]
      simp [literalToken, hc]
    · have hspelling : escapeLiteral (c :: text) = c :: escapeLiteral text := by
        simp [escapeLiteral, hc]
      have hbackslash : c ≠ '\\' := fun h ↦ hc (h ▸ by decide)
      have hbacktick : c ≠ backtick := fun h ↦ hc (h ▸ by decide)
      rw [hspelling, List.cons_append,
        Escape.Markdown.readInline_char_cons hbackslash hbacktick, ih]
      simp [literalToken, hc]

/-- A segment that is not code is read as what it is, whatever follows. -/
theorem readInline_segmentText_append {segment : Segment} (hcode : segment.kind ≠ .code)
    (rest : List Char) :
    readInline ((segmentText segment).toList ++ rest) =
      segmentTokens segment ++ readInline rest := by
  have hmark : ∀ {mark : Char}, mark ∈ ['*', '[', ']', '(', ')'] → ∀ after : List Char,
      readInline (mark :: after) = .char mark :: readInline after := by
    intro mark hmark
    exact Escape.Markdown.readInline_char_cons (ne_of_mem_of_not_mem hmark (by decide))
      (ne_of_mem_of_not_mem hmark (by decide))
  have hliteral : ∀ (text : String) (after : List Char),
      readInline ((Markup.literal text).toList ++ after) =
        literalTokens text ++ readInline after := by
    intro text after
    rw [Markup.literal, String.toList_ofList, readInline_escapeLiteral_append]
    rfl
  obtain ⟨kind, content, url⟩ := segment
  cases kind with
  | code => exact absurd rfl hcode
  | plain => exact hliteral content rest
  | bold => simp [segmentText, segmentTokens, hliteral, hmark]
  | italic => simp [segmentText, segmentTokens, hliteral, hmark]
  | link =>
    simp only [segmentText, linkText, segmentTokens]
    split
    · simp [hliteral, hmark]
    · exact hliteral content rest

/-! ### Neighbours -/

theorem head?_literal_append_ne {text : String} (htext : text ≠ "") (rest : List Char) :
    ((Markup.literal text).toList ++ rest).head? ≠ some backtick := by
  obtain ⟨c, chars, hchars⟩ := List.exists_cons_of_ne_nil (String.toList_eq_nil_iff.not.mpr htext)
  rw [Markup.literal, String.toList_ofList, hchars]
  by_cases hc : isEscapable c
  · simp [escapeLiteral, hc, backtick]
  · have hbacktick : c ≠ backtick := fun h ↦ hc (h ▸ by decide)
    simpa [escapeLiteral, hc] using hbacktick

/-- Only code begins with a backtick. -/
theorem head?_segmentText_append_ne {segment : Segment} (hcode : segment.kind ≠ .code)
    (hcontent : segment.content ≠ "") (rest : List Char) :
    ((segmentText segment).toList ++ rest).head? ≠ some backtick := by
  obtain ⟨kind, content, url⟩ := segment
  cases kind with
  | code => exact absurd rfl hcode
  | plain => exact head?_literal_append_ne hcontent rest
  | bold => simp [segmentText, backtick]
  | italic => simp [segmentText, backtick]
  | link =>
    simp only [segmentText, linkText]
    split
    · simp [backtick]
    · exact head?_literal_append_ne hcontent rest

theorem segmentText_code {segment : Segment} (hcode : segment.kind = .code) :
    (segmentText segment).toList = codeSpan segment.content.toList := by
  rw [segmentText, hcode]
  exact String.toList_ofList

theorem inlineText_cons_toList (segment : Segment) (rest : RichText) :
    (inlineText (segment :: rest)).toList =
      (segmentText segment).toList ++ (inlineText rest).toList := by
  simp [inlineText, String.toList_join]

theorem segmentTokens_code {segment : Segment} (hcode : segment.kind = .code) :
    segmentTokens segment = [.code (spanContent segment.content.toList)] := by
  rw [segmentTokens, hcode]

/-- A reader finds the segments of a text exactly when no two code segments are neighbours. -/
theorem readInline_inlineText_iff {text : RichText}
    (htext : ∀ segment ∈ text, segment.content ≠ "") :
    readInline (inlineText text).toList = text.flatMap segmentTokens ↔
      text.IsChain NotBothCode := by
  induction text with
  | nil => exact iff_of_true Escape.Markdown.readInline_nil .nil
  | cons segment rest ih =>
    rw [List.forall_mem_cons] at htext
    rw [inlineText_cons_toList, List.flatMap_cons]
    by_cases hcode : segment.kind = .code
    · have hcontent : segment.content.toList ≠ [] := String.toList_eq_nil_iff.not.mpr htext.1
      rw [segmentText_code hcode, segmentTokens_code hcode]
      rcases rest with _ | ⟨next, rest⟩
      · have hend : (inlineText []).toList.head? ≠ some backtick := by simp [inlineText]
        rw [Escape.Markdown.readInline_codeSpan_append hcontent hend, List.singleton_append,
          List.cons_inj_right, ih htext.2]
        exact iff_of_true .nil (.singleton segment)
      by_cases hnext : next.kind = .code
      · have hnextContent : next.content.toList ≠ [] :=
          String.toList_eq_nil_iff.not.mpr (htext.2 next List.mem_cons_self)
        rw [inlineText_cons_toList, segmentText_code hnext]
        refine iff_of_false (Escape.Markdown.readInline_codeSpan_codeSpan_ne hcontent hnextContent
          _ _) fun hchain ↦ ?_
        exact (List.isChain_cons_cons.mp hchain).1 ⟨hcode, hnext⟩
      · have hrest := head?_segmentText_append_ne hnext (htext.2 next List.mem_cons_self)
          (inlineText rest).toList
        rw [← inlineText_cons_toList] at hrest
        rw [Escape.Markdown.readInline_codeSpan_append hcontent hrest, List.singleton_append,
          List.cons_inj_right, ih htext.2, List.isChain_cons_cons]
        exact (and_iff_right fun hboth ↦ hnext hboth.2).symm
    · rw [readInline_segmentText_append hcode, List.append_cancel_left_eq, ih htext.2,
        List.isChain_cons]
      exact (and_iff_right fun _ _ hboth ↦ hcode hboth.1).symm

/-! ### Spans and links among the tokens -/

theorem codeContents_append (first second : List Escape.Markdown.Token) :
    codeContents (first ++ second) = codeContents first ++ codeContents second :=
  List.filterMap_append

theorem codeContents_literalTokens (text : String) : codeContents (literalTokens text) = [] := by
  rw [codeContents, List.filterMap_eq_nil_iff]
  intro token htoken
  obtain ⟨c, -, rfl⟩ := List.mem_map.mp htoken
  by_cases hc : isEscapable c <;> simp [literalToken, hc]

/-- The code spans among the tokens of segments are the code segments. -/
theorem codeContents_flatMap_segmentTokens (text : RichText) :
    codeContents (text.flatMap segmentTokens) =
      (text.filter fun segment ↦ segment.kind = .code).map fun segment ↦
        spanContent segment.content.toList := by
  induction text with
  | nil => rfl
  | cons segment rest ih =>
    rw [List.flatMap_cons, codeContents_append, ih]
    obtain ⟨kind, content, url⟩ := segment
    have hchar : ∀ c tokens, codeContents (.char c :: tokens) = codeContents tokens :=
      fun _ _ ↦ rfl
    have hnil : codeContents [] = [] := rfl
    cases kind with
    | code => rfl
    | link =>
      by_cases hsafe : Escape.Url.safe url <;>
        simp [segmentTokens, hsafe, hchar, codeContents_append, codeContents_literalTokens, hnil]
    | _ =>
      simp [segmentTokens, hchar, codeContents_append, codeContents_literalTokens, hnil]

theorem bracket_not_mem_literalTokens (text : String) : .char ']' ∉ literalTokens text := by
  intro hmem
  obtain ⟨c, -, hc⟩ := List.mem_map.mp hmem
  unfold literalToken at hc
  split at hc
  · cases hc
  · next hescapable =>
    cases hc
    exact hescapable (by decide)

/-- A closing bracket is read in links only. -/
theorem isLink_of_bracket_mem (segment : Segment) (hmem : .char ']' ∈ segmentTokens segment) :
    segment.kind = .link ∧ Escape.Url.safe segment.url := by
  obtain ⟨kind, content, url⟩ := segment
  have hcontent := bracket_not_mem_literalTokens content
  cases kind with
  | link =>
    by_cases hsafe : Escape.Url.safe url
    · exact ⟨rfl, hsafe⟩
    · simp [segmentTokens, hsafe, hcontent] at hmem
  | _ => simp [segmentTokens, hcontent] at hmem

theorem segmentTokens_link {segment : Segment} (hlink : segment.kind = .link)
    (hsafe : Escape.Url.safe segment.url) :
    segmentTokens segment =
      (.char '[' :: literalTokens segment.content) ++
        .char ']' :: (.char '(' :: literalTokens segment.url ++ [.char ')']) := by
  simp [segmentTokens, hlink, hsafe]

/-- Each link among the tokens, where a closing bracket stands before an opening parenthesis, is the
link of a segment whose URL is safe. -/
def LinksSafely (text : RichText) (tokens : List Escape.Markdown.Token) : Prop :=
  ∀ before after, tokens = before ++ .char ']' :: .char '(' :: after →
    ∃ front segment back, text = front ++ segment :: back ∧ segment.kind = .link ∧
      Escape.Url.safe segment.url ∧
      before = front.flatMap segmentTokens ++ .char '[' :: literalTokens segment.content ∧
      after = literalTokens segment.url ++ .char ')' :: back.flatMap segmentTokens

theorem linksSafely_flatMap_segmentTokens (text : RichText) :
    LinksSafely text (text.flatMap segmentTokens) := by
  induction text with
  | nil => exact fun before _ htokens ↦ absurd htokens.symm (by simp)
  | cons segment rest ih =>
    intro before after htokens
    rw [List.flatMap_cons, List.append_eq_append_iff] at htokens
    have hlater : ∀ inner, before = segmentTokens segment ++ inner →
        rest.flatMap segmentTokens = inner ++ .char ']' :: .char '(' :: after →
        ∃ front link back, segment :: rest = front ++ link :: back ∧ link.kind = .link ∧
          Escape.Url.safe link.url ∧
          before = front.flatMap segmentTokens ++ .char '[' :: literalTokens link.content ∧
          after = literalTokens link.url ++ .char ')' :: back.flatMap segmentTokens := by
      rintro inner rfl hinner
      obtain ⟨front, link, back, rfl, hlink, hsafe, rfl, hafter⟩ := ih inner after hinner
      exact ⟨segment :: front, link, back, rfl, hlink, hsafe, by simp, hafter⟩
    rcases htokens with ⟨inner, hbefore, hrest⟩ | ⟨inner, hsegment, hrest⟩
    · exact hlater inner hbefore hrest
    · cases inner with
      | nil => exact hlater [] (by simpa using hsegment.symm) hrest.symm
      | cons token inner =>
        obtain ⟨rfl, hrest⟩ := List.cons.inj hrest
        obtain ⟨hlink, hsafe⟩ := isLink_of_bracket_mem segment (by simp [hsegment])
        rw [segmentTokens_link hlink hsafe] at hsegment
        obtain ⟨rfl, -, rfl⟩ := (List.append_cons_inj_of_notMem
          (by simp [bracket_not_mem_literalTokens])
          (by simp [bracket_not_mem_literalTokens])).mp hsegment
        refine ⟨[], segment, rest, rfl, hlink, hsafe, rfl, ?_⟩
        simpa using hrest

/-- The body of a documentation line is read as its segments exactly when no two code segments are
neighbours. Then the code spans are the code segments, each with at most one blank of padding on
either side, and every link outside code was let through as safe. -/
theorem bodyText_codeSpans (raw : String) :
    (readInline (bodyText raw).toList = (Markup.parse raw).flatMap segmentTokens ↔
        (Markup.parse raw).IsChain NotBothCode) ∧
      ((Markup.parse raw).IsChain NotBothCode →
        codeContents (readInline (bodyText raw).toList) =
            ((Markup.parse raw).filter fun segment ↦ segment.kind = .code).map
              (fun segment ↦ spanContent segment.content.toList) ∧
          LinksSafely (Markup.parse raw) (readInline (bodyText raw).toList)) := by
  have hcontent : ∀ segment ∈ Markup.parse raw, segment.content ≠ "" := fun segment hsegment ↦
    ((Markup.isNormal_parseChars _).segments segment hsegment).content_ne
  have hread := readInline_inlineText_iff hcontent
  refine ⟨hread, fun hchain ↦ ?_⟩
  rw [bodyText, hread.mpr hchain]
  exact ⟨codeContents_flatMap_segmentTokens _, linksSafely_flatMap_segmentTokens _⟩

/-- The second of two code spans holds a link to a script. The fences between the spans are read as
content, so that only one span is found and the link stands outside it. -/
theorem exists_codeSpans_open :
    ∃ raw : String,
      ¬ List.Forall₂
          (fun found (segment : Segment) ↦
            found = segment.content.toList ∨ found = ' ' :: segment.content.toList ++ [' '])
          (codeContents (readInline (bodyText raw).toList))
          ((Markup.parse raw).filter fun segment ↦ segment.kind = .code) ∧
        ¬ LinksSafely (Markup.parse raw) (readInline (bodyText raw).toList) := by
  let raw := "\x60a\x60\x60b\\\x60[x](javascript:y)\x60"
  have hbody : bodyText raw = "\x60a\x60\x60\x60b\x60[x](javascript:y)\x60\x60" := by
    decide +kernel
  have hparse : (Markup.parse raw).map Segment.kind = [.code, .code] := by decide +kernel
  have hread : readInline (bodyText raw).toList =
      [.code "a\x60\x60\x60b".toList, .char '[', .char 'x'] ++ .char ']' :: .char '(' ::
        "javascript:y)\x60\x60".toList.map Escape.Markdown.Token.char := by
    rw [hbody]
    decide +kernel
  have hkinds : ∀ segment ∈ Markup.parse raw, segment.kind = .code := by
    intro segment hsegment
    have hkind := List.mem_map_of_mem (f := Segment.kind) hsegment
    rw [hparse] at hkind
    simpa using hkind
  refine ⟨raw, fun hspans ↦ ?_, fun hlinks ↦ ?_⟩
  · have hlength := hspans.length_eq
    have hcount : (Markup.parse raw).length = 2 := by simpa using congrArg List.length hparse
    rw [hread, List.filter_eq_self.mpr (by simpa using hkinds), hcount] at hlength
    revert hlength
    decide
  · obtain ⟨front, segment, back, htext, hlink, -⟩ := hlinks _ _ hread
    rw [hkinds segment (by simp [htext])] at hlink
    cases hlink

end HelpSheet.Page.Markdown
