import HelpSheet.Escape.Markdown

/-!
# Reading a line of Markdown

A reader goes through a line from left to right. A backslash before punctuation takes the role of
the next character away. A run of backticks begins a code span, which ends with the next run of the
same length; without one, the run is literal. Inside a span nothing has a role but runs of
backticks. So a written code span is read as one, whatever its content is, unless a backtick follows
(`readInline_codeSpan_append`).
-/

set_option autoImplicit false
set_option relaxedAutoImplicit false

namespace HelpSheet.Escape.Markdown

/-! ### Runs of backticks -/

variable {size run : Nat} {content rest : List Char}

/-- The text up to the end of the next run of `size` backticks, without that run, and what follows
it. Just before the text stand `run` backticks. -/
def closeSpan? (size : Nat) : Nat → List Char → Option (List Char × List Char)
  | run, [] => if run = size then some ([], []) else none
  | run, c :: rest =>
    if c = backtick then closeSpan? size (run + 1) rest
    else if run = size then some ([], c :: rest)
    else
      (closeSpan? size 0 rest).map fun found ↦
        (List.replicate run backtick ++ c :: found.1, found.2)

theorem closeSpan?_replicate_append (size run count : Nat) (rest : List Char) :
    closeSpan? size run (List.replicate count backtick ++ rest) =
      closeSpan? size (run + count) rest := by
  induction count generalizing run with
  | zero => rfl
  | succ count ih =>
    rw [List.replicate_succ, List.cons_append, closeSpan?, if_pos rfl, ih, Nat.add_right_comm,
      Nat.add_assoc]

theorem closeSpan?_self (hrest : rest.head? ≠ some backtick) :
    closeSpan? size size rest = some ([], rest) := by
  cases rest with
  | nil => rw [closeSpan?, if_pos rfl]
  | cons c rest =>
    have hc : c ≠ backtick := fun h ↦ hrest (congrArg some h)
    rw [closeSpan?, if_neg hc, if_pos rfl]

/-- A run of another length goes on with the span. -/
theorem ne_nil_of_closeSpan? (hrun : run ≠ size) (hrest : rest.head? ≠ some backtick)
    {found : List Char × List Char} (hfound : closeSpan? size run rest = some found) :
    found.1 ≠ [] := by
  cases rest with
  | nil =>
    rw [closeSpan?, if_neg hrun] at hfound
    cases hfound
  | cons c rest =>
    have hc : c ≠ backtick := fun h ↦ hrest (congrArg some h)
    rw [closeSpan?, if_neg hc, if_neg hrun, Option.map_eq_some_iff] at hfound
    obtain ⟨inner, -, rfl⟩ := hfound
    simp

theorem longestRun_eq_max (current longest : Nat) (text : List Char) :
    longestRun current longest text = max longest (longestRun current 0 text) := by
  induction text generalizing current longest with
  | nil => simp [longestRun, Nat.max_comm]
  | cons c text ih =>
    simp only [longestRun]
    split
    · exact ih (current + 1) longest
    · rw [ih 0 (max current longest), ih 0 (max current 0)]
      omega

/-- A text whose runs are shorter than that of the span, and which does not end within a run,
belongs to the span. -/
theorem closeSpan?_append (hshort : longestRun run 0 content < size)
    (hlast : content.getLast? ≠ some backtick) (hrun : content = [] → run = 0)
    (rest : List Char) :
    closeSpan? size run (content ++ rest) =
      (closeSpan? size 0 rest).map fun found ↦
        (List.replicate run backtick ++ content ++ found.1, found.2) := by
  induction content generalizing run with
  | nil => simp [hrun rfl]
  | cons c content ih =>
    rw [List.cons_append, closeSpan?]
    rw [longestRun] at hshort
    split at hshort
    · next hc =>
      subst hc
      have hne : content ≠ [] := by
        rintro rfl
        exact hlast rfl
      have hlast' : content.getLast? ≠ some backtick := by
        rwa [List.getLast?_cons_of_ne_nil hne] at hlast
      rw [if_pos rfl, ih hshort hlast' fun h ↦ absurd h hne, List.replicate_succ']
      simp
    · next hc =>
      rw [longestRun_eq_max] at hshort
      have hlt : run ≠ size := by omega
      have hlast' : content.getLast? ≠ some backtick := by
        cases content with
        | nil => exact nofun
        | cons d content => rwa [List.getLast?_cons_cons] at hlast
      rw [if_neg hc, if_neg hlt, ih (by omega) hlast' fun _ ↦ rfl, Option.map_map]
      simp [Function.comp_def]

theorem length_of_closeSpan? {found : List Char × List Char}
    (hfound : closeSpan? size run rest = some found) : found.2.length ≤ rest.length := by
  induction rest generalizing run found with
  | nil =>
    rw [closeSpan?] at hfound
    split at hfound
    · cases hfound
      exact Nat.le_refl _
    · cases hfound
  | cons c rest ih =>
    rw [closeSpan?] at hfound
    split at hfound
    · exact Nat.le_succ_of_le (ih hfound)
    · split at hfound
      · cases hfound
        exact Nat.le_refl _
      · obtain ⟨inner, hinner, rfl⟩ := Option.map_eq_some_iff.mp hfound
        have hlength := ih hinner
        exact Nat.le_succ_of_le hlength

/-! ### The reader -/

/-- What a reader finds in a line: a character, a character whose role a backslash takes away, or a
code span. -/
inductive Token
  | char (c : Char)
  | escaped (c : Char)
  | code (content : List Char)
  deriving DecidableEq, Repr

/-- The punctuation of ASCII. -/
def isPunctuation (c : Char) : Bool :=
  ('!' ≤ c && c ≤ '/') || (':' ≤ c && c ≤ '@') || ('[' ≤ c && c ≤ backtick) || ('{' ≤ c && c ≤ '~')

/-- The character after a backslash that takes its role away, and what follows. -/
def escape? : List Char → Option (Char × List Char)
  | '\\' :: c :: rest => if isPunctuation c then some (c, rest) else none
  | _ => none

/-- The number of backticks at the beginning of a text. -/
def runLength (text : List Char) : Nat :=
  (text.takeWhile (· = backtick)).length

theorem length_of_escape? {c d : Char} {after : List Char}
    (hescape : escape? (c :: rest) = some (d, after)) : after.length ≤ rest.length := by
  unfold escape? at hescape
  split at hescape
  · next heq =>
    obtain ⟨-, rfl⟩ := List.cons.inj heq
    split at hescape
    · cases hescape
      exact Nat.le_succ _
    · cases hescape
  · cases hescape

/-- The tokens at the beginning of a text and what follows them. -/
def readToken (c : Char) (rest : List Char) : List Token × List Char :=
  match escape? (c :: rest) with
  | some (d, after) => ([.escaped d], after)
  | none =>
    if c = backtick then
      let size := runLength (c :: rest)
      let after := (c :: rest).drop size
      match closeSpan? size 0 after with
      | some (content, after) => ([.code content], after)
      | none => (List.replicate size (.char backtick), after)
    else ([.char c], rest)

theorem runLength_backtick_cons (rest : List Char) :
    runLength (backtick :: rest) = runLength rest + 1 := by
  simp [runLength]

theorem length_readToken_le (c : Char) (rest : List Char) :
    (readToken c rest).2.length ≤ rest.length := by
  unfold readToken
  split
  · next hescape => exact length_of_escape? hescape
  · split
    · next hc =>
      subst hc
      have hdrop : ((backtick :: rest).drop (runLength (backtick :: rest))).length ≤
          rest.length := by
        rw [runLength_backtick_cons, List.drop_succ_cons, List.length_drop]
        exact Nat.sub_le _ _
      dsimp only
      split
      · next hclose => exact Nat.le_trans (length_of_closeSpan? hclose) hdrop
      · exact hdrop
    · exact Nat.le_refl _

/-- Reads a line. -/
def readInline (text : List Char) : List Token :=
  match text with
  | [] => []
  | c :: rest => (readToken c rest).1 ++ readInline (readToken c rest).2
termination_by text.length
decreasing_by exact Nat.lt_succ_of_le (length_readToken_le c rest)

/-- The contents of the code spans in what was read. -/
def codeContents (tokens : List Token) : List (List Char) :=
  tokens.filterMap fun token ↦
    match token with
    | .code content => some content
    | _ => none

/-! ### Text and spans in front of a rest -/

theorem readInline_nil : readInline [] = [] := by
  rw [readInline]

theorem readInline_char_cons {c : Char} (hbackslash : c ≠ '\\') (hbacktick : c ≠ backtick)
    (rest : List Char) : readInline (c :: rest) = .char c :: readInline rest := by
  have hescape : escape? (c :: rest) = none := by
    unfold escape?
    split
    · next heq => exact absurd (List.cons.inj heq).1 hbackslash
    · rfl
  rw [readInline]
  simp [readToken, hescape, hbacktick]

theorem readInline_escaped_cons {c : Char} (hc : isPunctuation c) (rest : List Char) :
    readInline ('\\' :: c :: rest) = .escaped c :: readInline rest := by
  rw [readInline]
  simp [readToken, escape?, hc]

theorem escape?_backtick_cons (rest : List Char) : escape? (backtick :: rest) = none := by
  unfold escape?
  split
  · next heq => exact absurd (List.cons.inj heq).1 (by decide)
  · rfl

theorem runLength_replicate_append (count : Nat) (hrest : rest.head? ≠ some backtick) :
    runLength (List.replicate count backtick ++ rest) = count := by
  have hstop : rest.takeWhile (· = backtick) = [] := by
    cases rest with
    | nil => rfl
    | cons c rest =>
      have hc : c ≠ backtick := fun h ↦ hrest (congrArg some h)
      simp [hc]
  rw [runLength, List.takeWhile_append_of_pos (by simp), hstop]
  simp

/-- A run of backticks is read up to its end. -/
theorem readInline_run_append (count : Nat) (hrest : rest.head? ≠ some backtick) :
    readInline (List.replicate (count + 1) backtick ++ rest) =
      match closeSpan? (count + 1) 0 rest with
      | some (content, after) => .code content :: readInline after
      | none => List.replicate (count + 1) (.char backtick) ++ readInline rest := by
  have hrun := runLength_replicate_append (count + 1) hrest
  rw [List.replicate_succ, List.cons_append] at hrun ⊢
  have hdrop : (backtick :: (List.replicate count backtick ++ rest)).drop (count + 1) = rest := by
    simp
  rw [readInline]
  simp only [readToken, escape?_backtick_cons, if_true, hrun, hdrop]
  split <;> simp

/-! ### Written code spans -/

theorem longestRun_append_of_ne {c : Char} (hc : c ≠ backtick) (current longest : Nat)
    (text : List Char) : longestRun current longest (text ++ [c]) =
      longestRun current longest text := by
  induction text generalizing current longest with
  | nil => simp [longestRun, hc]
  | cons d text ih => simp only [List.cons_append, longestRun, ih]

/-- The padding of a span makes no longer run. -/
theorem longestRun_spanContent (text : List Char) :
    longestRun 0 0 (spanContent text) = longestRun 0 0 text := by
  have hspace : ' ' ≠ backtick := by decide
  unfold spanContent
  split
  · rw [List.cons_append, longestRun, if_neg hspace, longestRun_append_of_ne hspace]
    rfl
  · rfl

theorem head?_spanContent_ne (text : List Char) :
    (spanContent text).head? ≠ some backtick := by
  unfold spanContent
  split
  · simp [backtick]
  · next htouches =>
    rw [touchesFence, Bool.or_eq_true, not_or] at htouches
    simpa using htouches.1

theorem getLast?_spanContent_ne (text : List Char) :
    (spanContent text).getLast? ≠ some backtick := by
  unfold spanContent
  split
  · rw [List.getLast?_append]
    simp [backtick]
  · next htouches =>
    rw [touchesFence, Bool.or_eq_true, not_or] at htouches
    simpa using htouches.2

theorem spanContent_ne_nil {text : List Char} (htext : text ≠ []) : spanContent text ≠ [] := by
  unfold spanContent
  split
  · simp
  · exact htext

/-- What a reader finds after the opening fence of a span. -/
theorem closeSpan?_spanContent_append (text rest : List Char) :
    closeSpan? (longestRun 0 0 text + 1) 0 (spanContent text ++ rest) =
      (closeSpan? (longestRun 0 0 text + 1) 0 rest).map fun found ↦
        (spanContent text ++ found.1, found.2) := by
  have hshort : longestRun 0 0 (spanContent text) < longestRun 0 0 text + 1 := by
    rw [longestRun_spanContent]
    exact Nat.lt_succ_self _
  rw [closeSpan?_append hshort (getLast?_spanContent_ne text) fun _ ↦ rfl]
  rfl

theorem head?_spanContent_append_ne {text : List Char} (htext : text ≠ []) (rest : List Char) :
    (spanContent text ++ rest).head? ≠ some backtick := by
  obtain ⟨c, content, hcontent⟩ := List.exists_cons_of_ne_nil (spanContent_ne_nil htext)
  have hhead := head?_spanContent_ne text
  rw [hcontent] at hhead ⊢
  exact hhead

theorem codeSpan_append (text rest : List Char) :
    codeSpan text ++ rest =
      List.replicate (longestRun 0 0 text + 1) backtick ++
        (spanContent text ++ (fence text ++ rest)) := by
  simp [codeSpan, fence]

/-- A written code span is read as one in front of any text that begins with no backtick. -/
theorem readInline_codeSpan_append {text : List Char} (htext : text ≠ [])
    (hrest : rest.head? ≠ some backtick) :
    readInline (codeSpan text ++ rest) = .code (spanContent text) :: readInline rest := by
  have hclosing : closeSpan? (longestRun 0 0 text + 1) 0 (fence text ++ rest) =
      some ([], rest) := by
    rw [fence, closeSpan?_replicate_append, Nat.zero_add, closeSpan?_self hrest]
  rw [codeSpan_append, readInline_run_append _ (head?_spanContent_append_ne htext _),
    closeSpan?_spanContent_append, hclosing]
  simp

/-- Two code spans without anything between them are not read as the first one and something else:
the fences between them are a longer run, which closes no span. -/
theorem readInline_codeSpan_codeSpan_ne {text next : List Char} (htext : text ≠ [])
    (hnext : next ≠ []) (rest : List Char) (tokens : List Token) :
    readInline (codeSpan text ++ (codeSpan next ++ rest)) ≠
      .code (spanContent text) :: tokens := by
  have hrun : longestRun 0 0 text + 1 + (longestRun 0 0 next + 1) ≠ longestRun 0 0 text + 1 := by
    omega
  rw [codeSpan_append, readInline_run_append _ (head?_spanContent_append_ne htext _),
    closeSpan?_spanContent_append, codeSpan_append, fence, closeSpan?_replicate_append,
    closeSpan?_replicate_append, Nat.zero_add]
  cases hclose : closeSpan? (longestRun 0 0 text + 1)
      (longestRun 0 0 text + 1 + (longestRun 0 0 next + 1))
      (spanContent next ++ (fence next ++ rest)) with
  | none => simp [List.replicate_succ]
  | some found =>
    have hlonger := ne_nil_of_closeSpan? hrun (head?_spanContent_append_ne hnext _) hclose
    simp [hlonger]

end HelpSheet.Escape.Markdown
