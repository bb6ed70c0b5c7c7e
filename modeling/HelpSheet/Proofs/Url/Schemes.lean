import Mathlib
import HelpSheet.Escape.Web

/-!
# Schemes that a browser sees

A browser drops control characters and spaces at both ends of a URL, and tabs and line breaks
anywhere, and looks for a scheme only then (`cleaned`). What it drops is no slash, so a URL whose
first colon comes after a slash stays one (`isPathReference_cleaned`), and it drops nothing of a
web scheme (`exists_cleaned_append`). A browser therefore sees no scheme but the web schemes in a
safe URL, whatever characters hide in it (`safe_schemes`).
-/

set_option autoImplicit false
set_option relaxedAutoImplicit false

namespace HelpSheet.Escape.Url

/-! ### Browsers -/

/-- A control character or a space, which a browser drops at both ends of a URL. -/
def isEdge (c : Char) : Bool :=
  c ≤ ' '

/-- A tab or a line break, which a browser drops anywhere in a URL. -/
def isBreak (c : Char) : Bool :=
  c = '\t' || c = '\n' || c = '\r'

/-- A URL as a browser reads it. -/
def cleaned (url : List Char) : List Char :=
  ((url.dropWhile isEdge).rdropWhile isEdge).filter (!isBreak ·)

/-- The text is a scheme: an ASCII letter, then ASCII letters, digits, plus signs, minus signs and
full stops. -/
def IsScheme : List Char → Prop
  | [] => False
  | c :: rest => c.isAlpha ∧ ∀ d ∈ rest, d.isAlphanum ∨ d = '+' ∨ d = '-' ∨ d = '.'

/-- The text is one of the two web schemes, in any case of its ASCII letters. -/
def IsWebScheme (text : List Char) : Prop :=
  text.map Char.toLower = "http".toList ∨ text.map Char.toLower = "https".toList

theorem IsScheme.isAlphanum_or {scheme : List Char} (hscheme : IsScheme scheme) :
    ∀ c ∈ scheme, c.isAlphanum ∨ c = '+' ∨ c = '-' ∨ c = '.' := by
  cases scheme with
  | nil => exact hscheme.elim
  | cons c rest =>
    refine List.forall_mem_cons.mpr ⟨.inl ?_, hscheme.2⟩
    rw [Char.isAlphanum, hscheme.1, Bool.true_or]

theorem IsScheme.not_mem {scheme : List Char} (hscheme : IsScheme scheme) {c : Char}
    (hc : c ∈ [':', '/']) : c ∉ scheme := by
  intro hmem
  have hchar := hscheme.isAlphanum_or c hmem
  simp only [List.mem_cons, List.not_mem_nil, or_false] at hc
  rcases hc with rfl | rfl <;> exact absurd hchar (by decide)

/-! ### Colons after slashes -/

theorem isPathReference_eq_true_iff {url : List Char} :
    isPathReference url ↔ ':' ∉ url.takeWhile (· ≠ '/') := by
  simp [isPathReference]

/-- Every colon comes after a slash where there is no colon, or a slash before the first one. -/
theorem isPathReference_iff {url : List Char} :
    isPathReference url ↔
      ':' ∉ url ∨ ∃ before after, url = before ++ '/' :: after ∧ ':' ∉ before := by
  rw [isPathReference_eq_true_iff]
  constructor
  · intro hcolon
    have hurl : url.takeWhile (· ≠ '/') ++ url.dropWhile (· ≠ '/') = url :=
      List.takeWhile_append_dropWhile
    cases hrest : url.dropWhile (· ≠ '/') with
    | nil =>
      rw [hrest, List.append_nil] at hurl
      exact .inl (hurl ▸ hcolon)
    | cons c after =>
      have hc : c = '/' := by
        have hhead := List.head?_dropWhile_not (fun c ↦ decide (c ≠ '/')) url
        rw [hrest, List.head?_cons] at hhead
        simpa using hhead
      rw [hrest, hc] at hurl
      exact .inr ⟨_, after, hurl.symm, hcolon⟩
  · rintro (hcolon | ⟨before, after, rfl, hcolon⟩) hmem
    · exact hcolon (List.takeWhile_subset _ hmem)
    · refine hcolon (List.takeWhile_subset (· ≠ '/') ?_)
      rw [List.takeWhile_append] at hmem
      split at hmem
      · next hwhole =>
        rw [List.takeWhile_cons_of_neg (by simp), List.append_nil] at hmem
        rwa [List.IsPrefix.eq_of_length (List.takeWhile_prefix _) hwhole]
      · exact hmem

theorem isPathReference_dropWhile {url : List Char} {dropped : Char → Bool}
    (hslash : dropped '/' = false) (hurl : isPathReference url) :
    isPathReference (url.dropWhile dropped) := by
  rw [isPathReference_eq_true_iff] at hurl ⊢
  intro hmem
  have hfront : ∀ c ∈ url.takeWhile dropped, decide (c ≠ '/') := by
    intro c hc
    have hdropped := List.all_eq_true.mp List.all_takeWhile c hc
    rw [decide_eq_true_iff]
    rintro rfl
    rw [hslash] at hdropped
    cases hdropped
  rw [← List.takeWhile_append_dropWhile (p := dropped) (l := url),
    List.takeWhile_append_of_pos hfront] at hurl
  exact hurl (List.mem_append_right _ hmem)

theorem isPathReference_of_prefix {front url : List Char} (hfront : front <+: url)
    (hurl : isPathReference url) : isPathReference front := by
  rw [isPathReference_eq_true_iff] at hurl ⊢
  obtain ⟨back, rfl⟩ := hfront
  intro hmem
  rw [List.takeWhile_append] at hurl
  split at hurl
  · exact hurl (List.mem_append_left _ (List.takeWhile_subset _ hmem))
  · exact hurl hmem

theorem isPathReference_filter {url : List Char} {kept : Char → Bool} (hslash : kept '/' = true)
    (hurl : isPathReference url) : isPathReference (url.filter kept) := by
  rw [isPathReference_eq_true_iff] at hurl ⊢
  have hstop : (fun c ↦ !kept c || decide (c ≠ '/')) = fun c ↦ decide (c ≠ '/') := by
    funext c
    by_cases hc : c = '/' <;> simp [hc, hslash]
  rw [List.takeWhile_filter, hstop]
  exact fun hmem ↦ hurl (List.mem_of_mem_filter hmem)

/-- A browser drops no slash, so a colon never comes to stand before all of them. -/
theorem isPathReference_cleaned {url : List Char} (hurl : isPathReference url) :
    isPathReference (cleaned url) := by
  refine isPathReference_filter (by decide) ?_
  refine isPathReference_of_prefix (List.rdropWhile_prefix _ _) ?_
  exact isPathReference_dropWhile (by decide) hurl

/-- A URL in which every colon comes after a slash begins with no scheme. -/
theorem not_isPathReference_of_isScheme {scheme : List Char} (hscheme : IsScheme scheme)
    (rest : List Char) : ¬ isPathReference (scheme ++ ':' :: rest) := by
  have hslash : ∀ c ∈ scheme, decide (c ≠ '/') := by
    intro c hc
    rw [decide_eq_true_iff]
    rintro rfl
    exact hscheme.not_mem (by decide) hc
  rw [isPathReference_eq_true_iff, List.takeWhile_append_of_pos hslash]
  simp

/-! ### Web schemes -/

/-- The Kelvin sign becomes a letter that a word without that letter does not show. -/
theorem lower_eq_iff {text word : List Char} (hletter : 'k' ∉ word) (hsign : '\u212a' ∉ word) :
    Text.lower text = word ↔ text.map Char.toLower = word := by
  have hchar : ∀ c, c ≠ '\u212a' → Text.lowerChar c = c.toLower := fun c hc ↦ if_neg hc
  constructor
  · rintro rfl
    refine List.map_congr_left fun c hc ↦ (hchar c ?_).symm
    rintro rfl
    exact hletter (List.mem_map.mpr ⟨_, hc, by decide⟩)
  · rintro rfl
    refine List.map_congr_left fun c hc ↦ hchar c ?_
    rintro rfl
    exact hsign (List.mem_map.mpr ⟨_, hc, by decide⟩)

/-- Nothing but a lower-case letter is the lower case of another character. -/
theorem toLower_eq_self {c : Char} (hc : c.toLower.isLower = false) : c.toLower = c := by
  rw [Char.isLower_toLower_eq_isAlpha, Char.isAlpha, Bool.or_eq_false_iff] at hc
  exact Char.toLower_eq_of_not_isUpper (Bool.eq_false_iff.mp hc.1)

theorem eq_of_map_toLower_eq {text word : List Char} (hword : ∀ d ∈ word, d.isLower = false)
    (htext : text.map Char.toLower = word) : text = word := by
  rw [← htext] at hword ⊢
  rw [List.forall_mem_map] at hword
  have hself : text.map Char.toLower = text.map id :=
    List.map_congr_left fun c hc ↦ toLower_eq_self (hword c hc)
  rw [hself, List.map_id]

/-- The colon and the two slashes behind a web scheme. -/
def authorityMark : List Char :=
  [':', '/', '/']

theorem isPrefixOf_lower_iff {word url : List Char} (hletter : 'k' ∉ word)
    (hsign : '\u212a' ∉ word) :
    (word ++ authorityMark).isPrefixOf (Text.lower url) ↔
      ∃ scheme rest, scheme.map Char.toLower = word ∧ url = scheme ++ authorityMark ++ rest := by
  rw [List.isPrefixOf_iff_prefix]
  constructor
  · rintro ⟨rest, hrest⟩
    obtain ⟨front, back, rfl, hfront, -⟩ := List.map_eq_append_iff.mp hrest.symm
    obtain ⟨scheme, mark, rfl, hscheme, hmark⟩ := List.map_eq_append_iff.mp hfront
    have hscheme : scheme.map Char.toLower = word := (lower_eq_iff hletter hsign).mp hscheme
    have hmark : mark.map Char.toLower = authorityMark :=
      (lower_eq_iff (by decide) (by decide)).mp hmark
    have hlower : ∀ d ∈ authorityMark, d.isLower = false :=
      List.all_iff_forall_prop.mp (by decide)
    exact ⟨scheme, back, hscheme, by rw [eq_of_map_toLower_eq hlower hmark]⟩
  · rintro ⟨scheme, rest, hscheme, rfl⟩
    refine ⟨Text.lower rest, ?_⟩
    rw [← (lower_eq_iff hletter hsign).mpr hscheme]
    simp [Text.lower, authorityMark, Text.lowerChar]

theorem hasWebScheme_iff {url : List Char} :
    hasWebScheme url ↔
      ∃ scheme rest, IsWebScheme scheme ∧ url = scheme ++ authorityMark ++ rest := by
  have hweb : hasWebScheme url ↔
      ("http".toList ++ authorityMark).isPrefixOf (Text.lower url) ∨
        ("https".toList ++ authorityMark).isPrefixOf (Text.lower url) := by
    rw [← Bool.or_eq_true]
    rfl
  rw [hweb, isPrefixOf_lower_iff (by decide) (by decide),
    isPrefixOf_lower_iff (by decide) (by decide)]
  simp only [IsWebScheme, or_and_right, exists_or]

theorem isEdge_of_isBreak {c : Char} (hc : isBreak c) : isEdge c := by
  simp only [isBreak, Bool.or_eq_true, decide_eq_true_eq] at hc
  rcases hc with (rfl | rfl) | rfl <;> decide

/-- A browser drops nothing of a text that a URL begins with if there is nothing to drop in it. -/
theorem exists_cleaned_append {front : List Char} (hne : front ≠ [])
    (hfront : ∀ c ∈ front, ¬ isEdge c) (back : List Char) :
    ∃ rest, cleaned (front ++ back) = front ++ rest := by
  have hbreak : ∀ c ∈ front, !isBreak c := by
    intro c hc
    rw [Bool.not_eq_true', ← Bool.not_eq_true]
    exact fun h ↦ hfront c hc (isEdge_of_isBreak h)
  have hhead : (front ++ back).dropWhile isEdge = front ++ back := by
    cases front with
    | nil => exact absurd rfl hne
    | cons c front => exact List.dropWhile_cons_of_neg (hfront c List.mem_cons_self)
  have hself : front.rdropWhile isEdge = front :=
    List.rdropWhile_eq_self_iff.mpr fun h ↦ hfront _ (List.getLast_mem h)
  have hlast : ∃ kept, (front ++ back).rdropWhile isEdge = front ++ kept := by
    rw [List.rdropWhile, List.reverse_append, List.dropWhile_append]
    split
    · exact ⟨[], by rw [List.append_nil]; exact hself⟩
    · exact ⟨_, by rw [List.reverse_append, List.reverse_reverse]⟩
  obtain ⟨kept, hkept⟩ := hlast
  refine ⟨kept.filter (!isBreak ·), ?_⟩
  rw [cleaned, hhead, hkept, List.filter_append, List.filter_eq_self.mpr hbreak]

theorem toLower_of_isEdge {c : Char} (hc : isEdge c) : c.toLower = c := by
  refine Char.toLower_eq_of_not_isUpper fun hupper ↦ ?_
  simp [isEdge, Char.isUpper, Char.le_def, UInt32.le_iff_toNat_le] at hc hupper
  omega

theorem IsWebScheme.toLower_mem {scheme : List Char} (hweb : IsWebScheme scheme) {c : Char}
    (hc : c ∈ scheme) : c.toLower ∈ "https".toList := by
  have hmem : c.toLower ∈ scheme.map Char.toLower := List.mem_map_of_mem hc
  rcases hweb with hweb | hweb
  · rw [hweb] at hmem
    exact (by decide : "http".toList ⊆ "https".toList) hmem
  · rwa [hweb] at hmem

theorem IsWebScheme.not_isEdge {scheme : List Char} (hweb : IsWebScheme scheme) :
    ∀ c ∈ scheme ++ authorityMark, ¬ isEdge c := by
  have hletters : ∀ d ∈ "https".toList, ¬ isEdge d := List.all_iff_forall_prop.mp (by decide)
  have hmarks : ∀ d ∈ authorityMark, ¬ isEdge d := List.all_iff_forall_prop.mp (by decide)
  intro c hc hedge
  rcases List.mem_append.mp hc with hc | hc
  · have hmem := hweb.toLower_mem hc
    rw [toLower_of_isEdge hedge] at hmem
    exact hletters c hmem hedge
  · exact hmarks c hc hedge

theorem IsWebScheme.colon_not_mem {scheme : List Char} (hweb : IsWebScheme scheme) :
    ':' ∉ scheme :=
  fun hmem ↦ absurd (hweb.toLower_mem hmem) (by decide)

/-- The text before the first colon is the scheme. -/
theorem eq_of_append_colon_eq {first second rest after : List Char} (hfirst : ':' ∉ first)
    (hsecond : ':' ∉ second) (htext : first ++ ':' :: rest = second ++ ':' :: after) :
    first = second ∧ rest = after := by
  have hbefore : ∀ {text : List Char}, ':' ∉ text → ∀ back : List Char,
      (text ++ ':' :: back).takeWhile (· ≠ ':') = text := by
    intro text htext back
    rw [List.takeWhile_append_of_pos, List.takeWhile_cons_of_neg (by simp), List.append_nil]
    intro c hc
    rw [decide_eq_true_iff]
    rintro rfl
    exact htext hc
  have hsame : first = second := by
    rw [← hbefore hfirst rest, htext, hbefore hsecond]
  subst hsame
  exact ⟨rfl, (List.cons.inj (List.append_cancel_left htext)).2⟩

/-- A browser sees a web scheme and two slashes where a URL begins with them. -/
theorem eq_of_cleaned_eq {web after scheme rest : List Char} (hweb : IsWebScheme web)
    (hscheme : IsScheme scheme)
    (hcleaned : cleaned (web ++ authorityMark ++ after) = scheme ++ ':' :: rest) :
    scheme = web ∧ ['/', '/'] <+: rest := by
  obtain ⟨kept, hkept⟩ := exists_cleaned_append (by simp [authorityMark]) hweb.not_isEdge after
  rw [hkept, List.append_assoc] at hcleaned
  obtain ⟨hsame, hrest⟩ :=
    eq_of_append_colon_eq hweb.colon_not_mem (hscheme.not_mem (by decide)) hcleaned
  exact ⟨hsame.symm, hrest ▸ List.prefix_append ['/', '/'] kept⟩

theorem isSafe_iff {url : List Char} :
    isSafe url ↔ url ≠ [] ∧ (hasWebScheme url ∨ isPathReference url) := by
  simp [isSafe]

/-- The safe URLs are the ones without a colon, the ones with a slash before their first colon, and
the ones that begin with a web scheme and two slashes; the empty URL is not safe. Where a browser
sees a scheme in a safe URL, it is a web scheme, and two slashes follow it. -/
theorem safe_schemes (url : String) :
    (safe url ↔ url ≠ "" ∧
      (':' ∉ url.toList ∨ (∃ before after, url.toList = before ++ '/' :: after ∧ ':' ∉ before) ∨
        ∃ scheme rest, IsWebScheme scheme ∧ url.toList = scheme ++ authorityMark ++ rest)) ∧
    (safe url → ∀ scheme rest, IsScheme scheme → cleaned url.toList = scheme ++ ':' :: rest →
      IsWebScheme scheme ∧ ['/', '/'] <+: rest) := by
  have hsafe : safe url ↔ url ≠ "" ∧ (hasWebScheme url.toList ∨ isPathReference url.toList) := by
    rw [safe, isSafe_iff, Ne, String.toList_eq_nil_iff]
  rw [hsafe]
  constructor
  · rw [hasWebScheme_iff, isPathReference_iff, or_comm, or_assoc]
  · rintro ⟨-, hurl⟩ scheme rest hscheme hcleaned
    rcases hurl with hweb | hpath
    · obtain ⟨web, after, hweb, htext⟩ := hasWebScheme_iff.mp hweb
      rw [htext] at hcleaned
      obtain ⟨rfl, hslashes⟩ := eq_of_cleaned_eq hweb hscheme hcleaned
      exact ⟨hweb, hslashes⟩
    · have hreference := isPathReference_cleaned hpath
      rw [hcleaned] at hreference
      exact absurd hreference (not_isPathReference_of_isScheme hscheme rest)

/-- A scheme that shows only once the tab in it is dropped is refused. -/
example : cleaned "\x01 java\tscript:x ".toList = "javascript:x".toList ∧
    safe "\x01 java\tscript:x " = false := by decide

end HelpSheet.Escape.Url
