import HelpSheet.Page.Html
import HelpSheet.Page.Markdown
import HelpSheet.Proofs.Markup.Sentence

/-!
# Summaries cut between two segments

A first sentence may end inside a segment, with the last segment, or with a segment that another one
follows. In the last case the summary keeps the segment that follows, with no content
(`LeavesOver`); in every other case it is in normal form like the text that it was cut from. Two
plain segments never meet in a summary. Pages in Markdown and HTML write empty markup for a summary
exactly where it keeps a span in this way that is not refused as a link
(`summarize_shows_iff`).
-/

set_option autoImplicit false
set_option relaxedAutoImplicit false

namespace HelpSheet

namespace Markup

/-! ### Where a text is cut -/

/-- The segments that are taken all show something unless the cut falls between two segments. -/
theorem takeVisible_shows_iff {text : RichText} (hcontent : ∀ segment ∈ text, segment.content ≠ "")
    (count : Nat) :
    (∀ segment ∈ takeVisible count text, segment.content ≠ "") ↔
      ∀ front next back, text = front ++ next :: back →
        (RichText.plainText front).length ≠ count := by
  induction text generalizing count with
  | nil => simp [takeVisible]
  | cons segment rest ih =>
    rw [List.forall_mem_cons] at hcontent
    have hpos : 0 < segment.content.length :=
      Nat.pos_of_ne_zero (mt String.length_eq_zero_iff.mp hcontent.1)
    rw [takeVisible]
    split
    · next hfits =>
      rw [List.forall_mem_cons, ih hcontent.2]
      constructor
      · rintro ⟨-, hrest⟩ (_ | ⟨first, front⟩) next back htext hlength
        · rw [plainText_length_nil] at hlength
          omega
        · obtain ⟨rfl, rfl⟩ := List.cons.inj htext
          rw [plainText_length_cons] at hlength
          exact hrest front next back rfl (by omega)
      · intro htext
        refine ⟨hcontent.1, ?_⟩
        rintro front next back rfl hlength
        refine htext (segment :: front) next back rfl ?_
        rw [plainText_length_cons]
        omega
    · next hcut =>
      rw [List.forall_mem_singleton, Ne, String.ofList_eq_empty_iff, List.take_eq_nil_iff,
        String.toList_eq_nil_iff, or_iff_left hcontent.1]
      constructor
      · rintro hcount (_ | ⟨first, front⟩) next back htext hlength
        · exact hcount hlength.symm
        · obtain ⟨rfl, -⟩ := List.cons.inj htext
          rw [plainText_length_cons] at hlength
          omega
      · rintro htext rfl
        exact htext [] segment rest rfl rfl

theorem kinds_takeVisible (count : Nat) (text : RichText) :
    (takeVisible count text).map Segment.kind <+: text.map Segment.kind := by
  induction text generalizing count with
  | nil => exact List.nil_prefix
  | cons segment rest ih =>
    rw [takeVisible]
    split
    · exact List.cons_prefix_cons.mpr ⟨rfl, ih _⟩
    · exact List.cons_prefix_cons.mpr ⟨rfl, List.nil_prefix⟩

/-- Where no two plain segments meet in a text, none do in what is taken of it. -/
theorem isChain_takeVisible {text : RichText} (hchain : text.IsChain RichText.Apart) (count : Nat) :
    (takeVisible count text).IsChain RichText.Apart := by
  have hkinds : ∀ part : RichText, part.IsChain RichText.Apart ↔
      (part.map Segment.kind).IsChain fun first second ↦ ¬ (first = .plain ∧ second = .plain) :=
    fun part ↦ by rw [List.isChain_map]; rfl
  rw [hkinds] at hchain ⊢
  exact hchain.prefix (kinds_takeVisible count text)

/-! ### First sentences -/

/-- The first sentence of the text ends with a segment, and `next` follows that segment. -/
def EndsBefore (text : RichText) (next : Segment) : Prop :=
  ∃ (front back : RichText) (index : Nat), text = front ++ next :: back ∧
    IsLeast {i | EndsSentence text i} index ∧ front.plainText.length = index + 1

theorem firstSentence_shows_iff {text : RichText}
    (hcontent : ∀ segment ∈ text, segment.content ≠ "") :
    (∀ segment ∈ firstSentence text, segment.content ≠ "") ↔ ∀ next, ¬ EndsBefore text next := by
  obtain ⟨index, hleast⟩ | hnone := exists_isLeast_or_forall_not text
  · rw [firstSentence_of_isLeast hleast, takeVisible_shows_iff hcontent]
    constructor
    · rintro hcut next ⟨front, back, other, htext, hother, hlength⟩
      rw [← hleast.unique hother] at hlength
      exact hcut front next back htext hlength
    · intro hends front next back htext hlength
      exact hends next ⟨front, back, index, htext, hleast, hlength⟩
  · rw [firstSentence_of_forall_not hnone]
    refine iff_of_true hcontent ?_
    rintro next ⟨-, -, index, -, hleast, -⟩
    exact hnone index hleast.1

/-- A first sentence that ends before a segment keeps it with no content. -/
theorem EndsBefore.firstSentence_eq {text : RichText} {next : Segment}
    (hcontent : ∀ segment ∈ text, segment.content ≠ "") (hends : EndsBefore text next) :
    ∃ front, front <+: text ∧ firstSentence text = front ++ [{ next with content := "" }] := by
  obtain ⟨front, back, index, htext, hleast, hlength⟩ := hends
  refine ⟨front, ⟨next :: back, htext.symm⟩, ?_⟩
  have hnext : next ∈ text := htext ▸ List.mem_append_right front List.mem_cons_self
  rw [firstSentence_of_isLeast hleast, ← hlength]
  rw [htext]
  exact takeVisible_append_cons (hcontent next hnext) back

theorem isChain_firstSentence {text : RichText} (hchain : text.IsChain RichText.Apart) :
    (firstSentence text).IsChain RichText.Apart := by
  obtain ⟨index, hleast⟩ | hnone := exists_isLeast_or_forall_not text
  · rw [firstSentence_of_isLeast hleast]
    exact isChain_takeVisible hchain _
  · rwa [firstSentence_of_forall_not hnone]

/-! ### Summaries -/

/-- The summary of the documentation ends with a segment, and `next` follows that segment in the
line that is summarized. -/
def LeavesOver (documentation : List String) (next : Segment) : Prop :=
  ∃ line, headline? documentation = some line ∧ EndsBefore (parse line) next

variable {documentation : List String} {next : Segment}

theorem summarize_of_headline {line : String} (hline : headline? documentation = some line) :
    summarize documentation = firstSentence (parse line) := by
  rw [summarize, hline]

theorem summarize_of_headline_eq_none (hline : headline? documentation = none) :
    summarize documentation = [] := by
  rw [summarize, hline]

theorem isChain_summarize (documentation : List String) :
    (summarize documentation).IsChain RichText.Apart := by
  cases hline : headline? documentation with
  | none => rw [summarize_of_headline_eq_none hline]; exact .nil
  | some line =>
    rw [summarize_of_headline hline]
    exact isChain_firstSentence (isNormal_parseChars _).isChain

theorem summarize_shows_iff_forall_not :
    (∀ segment ∈ summarize documentation, segment.content ≠ "") ↔
      ∀ next, ¬ LeavesOver documentation next := by
  cases hline : headline? documentation with
  | none =>
    rw [summarize_of_headline_eq_none hline]
    simp [LeavesOver, hline]
  | some line =>
    rw [summarize_of_headline hline, firstSentence_shows_iff fun _ ↦ content_ne_of_mem_parse]
    simp [LeavesOver, hline]

theorem LeavesOver.summarize_eq (hleaves : LeavesOver documentation next) :
    ∃ front : RichText, front.IsNormal ∧
      summarize documentation = front ++ [{ next with content := "" }] := by
  obtain ⟨line, hline, hends⟩ := hleaves
  obtain ⟨front, hfront, hsentence⟩ := hends.firstSentence_eq fun _ ↦ content_ne_of_mem_parse
  have hnormal : (parse line).IsNormal := isNormal_parseChars _
  refine ⟨front, ⟨fun segment hsegment ↦ hnormal.segments segment (hfront.subset hsegment),
    hnormal.isChain.prefix hfront⟩, ?_⟩
  rw [summarize_of_headline hline, hsentence]

/-- What the summary leaves over is the only thing in it that shows nothing. -/
theorem exists_mem_summarize_iff {property : Segment → Prop} :
    (∃ segment ∈ summarize documentation, segment.content = "" ∧ property segment) ↔
      ∃ next, LeavesOver documentation next ∧ property { next with content := "" } := by
  constructor
  · rintro ⟨segment, hsegment, hempty, hproperty⟩
    obtain ⟨next, hleaves⟩ : ∃ next, LeavesOver documentation next := by
      by_contra hnone
      rw [not_exists] at hnone
      exact summarize_shows_iff_forall_not.mpr hnone segment hsegment hempty
    refine ⟨next, hleaves, ?_⟩
    obtain ⟨front, hnormal, hsummary⟩ := hleaves.summarize_eq
    rw [hsummary, List.mem_append, List.mem_singleton] at hsegment
    rcases hsegment with hfront | rfl
    · exact absurd hempty (hnormal.segments segment hfront).content_ne
    · exact hproperty
  · rintro ⟨next, hleaves, hproperty⟩
    obtain ⟨front, -, hsummary⟩ := hleaves.summarize_eq
    refine ⟨_, ?_, rfl, hproperty⟩
    rw [hsummary]
    exact List.mem_append_right front List.mem_cons_self

end Markup

namespace Page

open Markup (RichText Segment summarize LeavesOver)

/-! ### Empty markup -/

/-- Something is written for a segment of the text that shows nothing. -/
def WritesEmptyMarkup (write : Segment → String) (text : RichText) : Prop :=
  ∃ segment ∈ text, segment.content = "" ∧ write segment ≠ ""

theorem Markdown.segmentText_ne_empty_iff (segment : Segment) :
    Markdown.segmentText { segment with content := "" } ≠ "" ↔
      segment.kind ≠ .plain ∧ ¬ isRefused segment := by
  obtain ⟨kind, content, url⟩ := segment
  cases kind with
  | plain => exact iff_of_false (not_not.mpr rfl) fun h ↦ h.1 rfl
  | bold =>
    refine iff_of_true ?_ ⟨nofun, by simp [isRefused]⟩
    exact (by decide : "**" ++ Markup.literal "" ++ "**" ≠ "")
  | italic =>
    refine iff_of_true ?_ ⟨nofun, by simp [isRefused]⟩
    exact (by decide : "*" ++ Markup.literal "" ++ "*" ≠ "")
  | code =>
    refine iff_of_true ?_ ⟨nofun, by simp [isRefused]⟩
    exact (by decide : Escape.Markdown.codeSpanned "" ≠ "")
  | link =>
    by_cases hsafe : Escape.Url.safe url
    · simp [Markdown.segmentText, Markdown.linkText, isRefused, hsafe]
    · simp [Markdown.segmentText, Markdown.linkText, isRefused, hsafe, Markup.literal,
        Markup.escapeLiteral]

theorem Html.writeAll_opening_ne_empty (element : Html.Element) (attributes : List Html.Attribute)
    (rest : List Html.Piece) : Html.writeAll (.opening element attributes :: rest) ≠ "" := by
  intro hempty
  have hchars := congrArg String.toList hempty
  simp [Html.writeAll, String.toList_join, Html.Piece.write, Html.writeTag] at hchars

theorem Html.writeAll_segmentPieces_ne_empty_iff (segment : Segment) :
    Html.writeAll (Html.segmentPieces { segment with content := "" }) ≠ "" ↔
      segment.kind ≠ .plain ∧ ¬ isRefused segment := by
  obtain ⟨kind, content, url⟩ := segment
  cases kind with
  | plain => exact iff_of_false (not_not.mpr rfl) fun h ↦ h.1 rfl
  | bold | italic | code =>
    exact iff_of_true (Html.writeAll_opening_ne_empty _ _ _) ⟨nofun, by simp [isRefused]⟩
  | link =>
    by_cases hsafe : Escape.Url.safe url
    · refine iff_of_true ?_ ⟨nofun, by simp [isRefused, hsafe]⟩
      rw [Html.segmentPieces, Html.linkPieces, if_pos hsafe]
      exact Html.writeAll_opening_ne_empty _ _ _
    · refine iff_of_false (not_not.mpr ?_) fun h ↦ h.2 (by simp [isRefused, hsafe])
      rw [Html.segmentPieces, Html.linkPieces, if_neg hsafe]
      rfl

/-- No two plain segments meet in a summary. All of its segments show something unless its sentence
ends with a segment that another one follows; then it is a text in normal form and the segment that
follows, with no content. Pages in Markdown and HTML write empty markup for it exactly where the
segment that follows is a span and not a refused link. -/
theorem summarize_shows_iff (documentation : List String) :
    (summarize documentation).IsChain RichText.Apart ∧
      ((∀ segment ∈ summarize documentation, segment.content ≠ "") ↔
        ∀ next, ¬ LeavesOver documentation next) ∧
      (∀ next, LeavesOver documentation next → ∃ front : RichText, front.IsNormal ∧
        summarize documentation = front ++ [{ next with content := "" }]) ∧
      ∀ write ∈ [Markdown.segmentText, fun segment ↦ Html.writeAll (Html.segmentPieces segment)],
        WritesEmptyMarkup write (summarize documentation) ↔
          ∃ next, LeavesOver documentation next ∧ next.kind ≠ .plain ∧ ¬ isRefused next := by
  refine ⟨Markup.isChain_summarize documentation, Markup.summarize_shows_iff_forall_not,
    fun next ↦ LeavesOver.summarize_eq, ?_⟩
  simp only [List.forall_mem_cons, List.not_mem_nil, false_imp_iff, implies_true, and_true,
    WritesEmptyMarkup, Markup.exists_mem_summarize_iff, Markdown.segmentText_ne_empty_iff,
    Html.writeAll_segmentPieces_ne_empty_iff]

/-- A bold span that begins with the blank behind a full stop is kept with no content, and written
as four asterisks. -/
theorem not_forall_summarize_shows :
    ¬ ∀ documentation, ∀ segment ∈ summarize documentation, segment.content ≠ "" := by
  intro hall
  have hsummary : summarize ["Stop.** x**"] =
      [.plain "Stop.", { kind := .bold, content := "" }] := by decide +kernel
  refine hall ["Stop.** x**"] { kind := .bold, content := "" } ?_ rfl
  rw [hsummary]
  exact List.mem_cons_of_mem _ List.mem_cons_self

example : Markdown.inlineText (summarize ["Stop.** x**"]) = "Stop.****" := by decide +kernel

end Page

end HelpSheet
