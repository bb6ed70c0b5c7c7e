import HelpSheet.Proofs.Path.Destination

/-!
# The directory of a path

The directory of a path is its text up to the last slash. Behind it the base leads to where the path
leads (`ofString_directoryPart_append`), and a relative path to where it leads from the parent of
the path (`absoluteNames_directoryPart_append`). A directory is opened by a slash at its end, and a
relative path behind it leads on from it (`absoluteNames_openDirectory_append`). Taking paths apart
brings no characters in.
-/

set_option autoImplicit false
set_option relaxedAutoImplicit false

namespace HelpSheet.Path

open HelpSheet.Text (Lacks)

/-- The part of a path up to its last slash; a dot and a slash for a path without slashes. -/
def directoryPart (path : String) : String :=
  let front := (path.toList.reverse.dropWhile fun c ↦ !decide (c = '/')).reverse
  if front.isEmpty then "./" else String.ofList front

theorem directoryPart_cases (path : String) :
    (Lacks '/' path ∧ directoryPart path = "./") ∨
      ∃ front base, Lacks '/' base ∧ path = front ++ "/" ++ base ∧
        directoryPart path = front ++ "/" := by
  have hparts := List.takeWhile_append_dropWhile (p := fun c ↦ !decide (c = '/'))
    (l := path.toList.reverse)
  have hbase := List.all_takeWhile (p := fun c ↦ !decide (c = '/')) (l := path.toList.reverse)
  have hhead := List.head?_dropWhile_not (fun c ↦ !decide (c = '/')) path.toList.reverse
  generalize path.toList.reverse.takeWhile (fun c ↦ !decide (c = '/')) = base at *
  have hslash : '/' ∉ base := fun hmem ↦ by simpa using List.all_eq_true.mp hbase '/' hmem
  cases hfront : path.toList.reverse.dropWhile (fun c ↦ !decide (c = '/')) with
  | nil =>
    rw [hfront, List.append_nil] at hparts
    refine .inl ⟨fun hmem ↦ hslash (hparts ▸ List.mem_reverse.mpr hmem), ?_⟩
    rw [directoryPart, hfront]
    rfl
  | cons c rest =>
    have hc : c = '/' := by simpa [hfront] using hhead
    have hreverse := congrArg List.reverse hparts
    rw [List.reverse_reverse, hfront, hc] at hreverse
    refine .inr ⟨String.ofList rest.reverse, String.ofList base.reverse, ?_, ?_, ?_⟩
    · rw [Lacks, String.toList_ofList, List.mem_reverse]
      exact hslash
    · rw [← String.toList_inj, ← hreverse]
      simp
    · rw [← String.toList_inj, directoryPart, hfront, hc]
      simp

theorem slash_mem_directoryPart (path : String) : '/' ∈ (directoryPart path).toList := by
  rcases directoryPart_cases path with ⟨-, hdirectory⟩ | ⟨front, -, -, -, hdirectory⟩
  · simp [hdirectory]
  · simp [hdirectory]

theorem directoryPart_ne_empty (path : String) : directoryPart path ≠ "" := fun hempty ↦ by
  simpa [hempty] using slash_mem_directoryPart path

/-- What stands behind the directory part of a path starts where the path starts. -/
theorem anchor_directoryPart_append (path : String) {back : String}
    (hback : Anchor.ofText back.toList = .relative) :
    Anchor.ofText (directoryPart path ++ back).toList = Anchor.ofText path.toList := by
  have hlacks : ∀ {text : String}, Lacks '/' text → text.toList.head? ≠ some '/' :=
    fun htext hhead ↦ htext (List.mem_of_mem_head? hhead)
  have hdirectory : Anchor.ofText (directoryPart path ++ back).toList =
      Anchor.ofText (directoryPart path).toList := by
    rw [String.toList_append, anchor_append _ ((anchor_eq_relative_iff _).mp hback)]
  rw [hdirectory]
  rcases directoryPart_cases path with ⟨hpath, hpart⟩ | ⟨front, base, hbase, hpath, hpart⟩
  · rw [hpart, (anchor_eq_relative_iff _).mpr (hlacks hpath)]
    rfl
  · have happend : path.toList = (front ++ "/").toList ++ base.toList := by
      rw [hpath, String.toList_append]
    rw [hpart, happend, anchor_append _ (hlacks hbase)]

section Base

variable {path base : String} {steps : List String}

theorem lacks_slash_of_components_eq (hcomponents : components path = steps ++ [base]) :
    Lacks '/' base :=
  lacks_slash_of_mem_components (hcomponents ▸ List.mem_append_right _ (List.mem_singleton_self _))

/-- The directory part of a path takes the steps of the path up to its base. -/
theorem exists_directoryPart (hcomponents : components path = steps ++ [base]) :
    ∃ idle : List String, (∀ component ∈ idle, isIdle component = true) ∧
      ∀ back, components (directoryPart path ++ back) = idle ++ steps ++ components back := by
  rcases directoryPart_cases path with ⟨hpath, hpart⟩ | ⟨front, name, hname, hpath, hpart⟩
  · rw [components_of_lacks hpath] at hcomponents
    have hsteps : steps = [] := by
      have hlength := congrArg List.length hcomponents
      simpa using hlength
    refine ⟨["."], by decide, fun back ↦ ?_⟩
    rw [hpart, hsteps]
    exact components_append_slash "." back
  · rw [hpath, components_append_slash, components_of_lacks hname] at hcomponents
    have hsteps : components front = steps := (List.append_inj' hcomponents rfl).1
    refine ⟨[], List.forall_mem_nil _, fun back ↦ ?_⟩
    rw [hpart, components_append_slash, hsteps, List.nil_append]

theorem ofString_of_components (hcomponents : components path = steps ++ [base])
    (hbase : isIdle base = false) :
    ofString path =
      ⟨.ofText path.toList, (steps.filter fun step ↦ !isIdle step) ++ [base]⟩ := by
  rw [ofString, hcomponents, List.filter_append, List.filter_cons_of_pos (by simp [hbase]),
    List.filter_nil]

theorem name_ofString (hcomponents : components path = steps ++ [base])
    (hbase : isIdle base = false) : (ofString path).name = base := by
  rw [ofString_of_components hcomponents hbase, name, List.getLastD_concat]

/-- The directory part of a path and its base are the path again. -/
theorem ofString_directoryPart_append (hcomponents : components path = steps ++ [base])
    (hbase : isIdle base = false) : ofString (directoryPart path ++ base) = ofString path := by
  obtain ⟨idle, hidle, hparts⟩ := exists_directoryPart hcomponents
  have hlacks := lacks_slash_of_components_eq hcomponents
  have hrelative : Anchor.ofText base.toList = .relative :=
    (anchor_eq_relative_iff _).mpr fun hhead ↦ hlacks (List.mem_of_mem_head? hhead)
  have hdropped : idle.filter (fun step ↦ !isIdle step) = [] := by simpa using hidle
  have hbehind : components (directoryPart path ++ base) = (idle ++ steps) ++ [base] := by
    rw [hparts, components_of_lacks hlacks]
  rw [ofString_of_components hbehind hbase, ofString_of_components hcomponents hbase,
    anchor_directoryPart_append path hrelative, List.filter_append, hdropped, List.nil_append]

theorem absoluteNames_parent (hcomponents : components path = steps ++ [base])
    (hbase : isIdle base = false) (directory : String) :
    absoluteNames directory (ofString path).parent.text =
      descend (origin directory path) steps := by
  have hplain := (isPlain_ofString path).parent
  have hparent : (ofString path).parent.parts = steps.filter fun step ↦ !isIdle step := by
    rw [ofString_of_components hcomponents hbase, parent, List.dropLast_concat]
  have horigin : origin directory (ofString path).parent.text = origin directory path :=
    origin_congr (anchor_text hplain)
  rw [absoluteNames_eq, horigin, descend_components_text _ hplain, hparent, descend_filter]

/-- Behind the directory part, a relative path leads on from the parent of the path. -/
theorem absoluteNames_directoryPart_append (hcomponents : components path = steps ++ [base])
    (hbase : isIdle base = false) (directory : String) {back : String}
    (hback : Anchor.ofText back.toList = .relative) :
    absoluteNames directory (directoryPart path ++ back) =
      descend (absoluteNames directory (ofString path).parent.text) (components back) := by
  obtain ⟨idle, hidle, hparts⟩ := exists_directoryPart hcomponents
  rw [absoluteNames_eq, origin_congr (anchor_directoryPart_append path hback), hparts,
    descend_append, descend_append, descend_of_isIdle _ hidle,
    absoluteNames_parent hcomponents hbase]

end Base

/-! ### Open directories -/

/-- A directory with a slash at its end; a dot and a slash for the working directory. -/
def openDirectory (directory : String) : String :=
  if directory = "" then "./"
  else if directory.toList.getLast? = some '/' then directory
  else directory ++ "/"

theorem openDirectory_empty : openDirectory "" = "./" := rfl

/-- A directory that is not empty ends with its slash already, or it gets one behind some other
character. -/
theorem openDirectory_cases {directory : String} (hne : directory ≠ "") :
    (∃ front, directory = front ++ "/" ∧ openDirectory directory = front ++ "/") ∨
      (∃ c ∈ directory.toList, c ≠ '/') ∧ openDirectory directory = directory ++ "/" := by
  rw [openDirectory, if_neg hne]
  split
  · next hlast =>
    obtain ⟨front, hfront⟩ := List.getLast?_eq_some_iff.mp hlast
    have hdirectory : directory = String.ofList front ++ "/" := by
      rw [← String.toList_inj, hfront]
      simp
    exact .inl ⟨String.ofList front, hdirectory, hdirectory⟩
  · next hlast =>
    have hchars : directory.toList ≠ [] := mt String.toList_eq_nil_iff.mp hne
    refine .inr ⟨⟨directory.toList.getLast hchars, List.getLast_mem hchars, fun hslash ↦ ?_⟩, rfl⟩
    exact hlast (hslash ▸ List.getLast?_eq_some_getLast hchars)

/-- What stands behind an open directory leads on from the directory. -/
theorem descend_openDirectory_append (place : List String) (directory path : String) :
    descend place (components (openDirectory directory ++ path)) =
      descend (descend place (components directory)) (components path) := by
  by_cases hne : directory = ""
  · rw [hne, openDirectory_empty, show "./" = "." ++ "/" from rfl, components_append_slash]
    rfl
  · rcases openDirectory_cases hne with ⟨front, hdirectory, hopen⟩ | ⟨-, hopen⟩
    · have hslash : components directory = components front ++ components "" := by
        rw [hdirectory, ← components_append_slash, String.append_empty]
      rw [hopen, hslash, components_append_slash, descend_append, descend_append]
      rfl
    · rw [hopen, components_append_slash, descend_append]

/-- Behind a character other than a slash, nothing has an influence on the anchor. -/
theorem anchor_append_of_mem {chars : List Char} (hchars : ∃ c ∈ chars, c ≠ '/')
    (back : List Char) : Anchor.ofText (chars ++ back) = Anchor.ofText chars := by
  obtain ⟨c, hc, hslash⟩ := hchars
  have htake : (chars.takeWhile (· = '/')).length ≠ chars.length := fun hlength ↦ by
    have hall := List.all_takeWhile (p := fun c ↦ decide (c = '/')) (l := chars)
    rw [(List.takeWhile_prefix _).eq_of_length hlength] at hall
    exact hslash (of_decide_eq_true (List.all_eq_true.mp hall c hc))
  rw [Anchor.ofText, List.takeWhile_append, if_neg htake, Anchor.ofText]

/-- A relative path behind an open directory starts where the directory starts; behind the working
directory, every path does. -/
theorem anchor_openDirectory_append {directory path : String}
    (hpath : directory ≠ "" → Anchor.ofText path.toList = .relative) :
    Anchor.ofText (openDirectory directory ++ path).toList =
      Anchor.ofText directory.toList := by
  rw [String.toList_append]
  by_cases hne : directory = ""
  · rw [hne, openDirectory_empty, anchor_append_of_mem ⟨'.', by decide, by decide⟩]
    rfl
  · rcases openDirectory_cases hne with ⟨front, hdirectory, hopen⟩ | ⟨hchars, hopen⟩
    · rw [hopen, ← hdirectory]
      exact anchor_append _ ((anchor_eq_relative_iff _).mp (hpath hne))
    · rw [hopen, String.toList_append, List.append_assoc, anchor_append_of_mem hchars]

theorem absoluteNames_openDirectory_append (workingDirectory : String) {directory path : String}
    (hpath : directory ≠ "" → Anchor.ofText path.toList = .relative) :
    absoluteNames workingDirectory (openDirectory directory ++ path) =
      descend (absoluteNames workingDirectory directory) (components path) := by
  rw [absoluteNames_eq, origin_congr (anchor_openDirectory_append hpath),
    descend_openDirectory_append, absoluteNames_eq]

/-! ### Characters -/

section Characters

variable {c : Char} {directory path : String}

theorem lacks_of_mem_absoluteNames (hdirectory : Lacks c directory) (hpath : Lacks c path) :
    ∀ name ∈ absoluteNames directory path, Lacks c name := by
  intro name hname
  unfold absoluteNames at hname
  split at hname
  · rcases List.mem_append.mp (mem_of_mem_collapse hname) with hname | hname
    · exact lacks_components hdirectory name hname
    · exact lacks_components hpath name hname
  · exact lacks_components hpath name (mem_of_mem_collapse hname)

theorem lacks_text {found : Path} (hdot : c ≠ '.') (hslash : c ≠ '/')
    (hparts : ∀ part ∈ found.parts, Lacks c part) : Lacks c found.text := by
  rcases text_eq_dot_or found with ⟨-, -, htext⟩ | ⟨-, htext⟩
  · rw [htext]
    simpa [Lacks] using hdot
  · have hanchor : Lacks c found.anchor.text := by
      cases found.anchor <;> simp [Lacks, Anchor.text, hslash]
    rw [htext, Text.lacks_append, Text.lacks_joinWith (by simpa [Lacks] using hslash)]
    exact ⟨hanchor, hparts⟩

theorem lacks_normalize (hdot : c ≠ '.') (hslash : c ≠ '/') (hpath : Lacks c path) :
    Lacks c (normalize path) := by
  rw [normalize_eq_text]
  exact lacks_text hdot hslash fun part hpart ↦
    lacks_components hpath part (mem_of_mem_collapse hpart)

theorem lacks_text_ofString (hdot : c ≠ '.') (hslash : c ≠ '/') (hpath : Lacks c path) :
    Lacks c (ofString path).text :=
  lacks_text hdot hslash fun part hpart ↦ lacks_components hpath part (List.mem_filter.mp hpart).1

theorem lacks_directoryPart (hdot : c ≠ '.') (hslash : c ≠ '/') (hpath : Lacks c path) :
    Lacks c (directoryPart path) := by
  rcases directoryPart_cases path with ⟨-, hpart⟩ | ⟨front, base, -, rfl, hpart⟩
  · rw [hpart]
    simp [Lacks, hdot, hslash]
  · rw [hpart]
    exact (Text.lacks_append.mp hpath).1

theorem lacks_name (hpath : Lacks c path) : Lacks c (ofString path).name := by
  rcases List.eq_nil_or_concat (ofString path).parts with hnil | ⟨parts, last, hparts⟩
  · rw [name, hnil]
    exact Text.lacks_empty
  · rw [List.concat_eq_append] at hparts
    have hlast : last ∈ (ofString path).parts := hparts ▸ List.mem_append_right _ (by simp)
    rw [name, hparts, List.getLastD_concat]
    exact lacks_components hpath last (List.mem_filter.mp hlast).1

end Characters

end HelpSheet.Path
