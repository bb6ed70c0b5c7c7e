import HelpSheet.Proofs.Command.HelpfileArguments
import HelpSheet.Proofs.Makefile.CategoryFlag
import HelpSheet.Proofs.Makefile.Lines
import HelpSheet.Proofs.Path.Directory

/-!
# The recipe that generates a help makefile anew

The last recipe of a help makefile runs the program again. After make and the shell its arguments
name the color, the model, the output, the makefiles and the category of the file
(`updateArguments?_fileText`), the paths behind the directory that the file was included from. The
paths are not quoted, so that every path is one argument exactly if the shell reads all its
characters as themselves (`updateCommand_arguments_iff`).
-/

set_option autoImplicit false
set_option relaxedAutoImplicit false

namespace HelpSheet.Makefile

open HelpSheet.Text (Lacks splitOnChar)
open Command (commandLine makefileArguments categoryArguments)
open Escape.Shell (IsInnerText IsLiteral words)

/-! ### The recipe -/

/-- The recipe of the last target of a help makefile, which generates the file anew. -/
def updateRecipe? (text : String) : Option (List Char) :=
  match (splitOnChar '\n' text.toList).reverse with
  | [] :: ('\t' :: '@' :: recipe) :: target :: _ =>
    if target = "update-help:".toList then some recipe else none
  | _ => none

theorem updateRecipe?_fileText {workingDirectory : String} {options : Options} (stamp : String)
    (model : Model)
    (hcommand : Lacks '\n' (updateCommand options (relativeMakefiles workingDirectory options))) :
    updateRecipe? (fileText workingDirectory options stamp model) =
      some (updateCommand options (relativeMakefiles workingDirectory options)).toList := by
  obtain ⟨body, hbody⟩ : ∃ body, fileLines workingDirectory options stamp model =
      body ++ ("" :: updateTargetLines options model.hasCategories
        (relativeMakefiles workingDirectory options)).map String.toList := ⟨_, rfl⟩
  obtain ⟨front, htext⟩ : ∃ front, (fileText workingDirectory options stamp model).toList =
      front ++ '\n' :: ("update-help:".toList ++ '\n' :: (('\t' :: '@' :: (updateCommand options
        (relativeMakefiles workingDirectory options)).toList) ++ '\n' :: [])) := by
    refine ⟨ended (body ++ ("" :: categoryLines options model.hasCategories ++
      [".PHONY: update-help"]).map String.toList) ++ ("## Regenerates " ++ options.fileName ++
        " from the documentation model.").toList, ?_⟩
    rw [fileText_toList, hbody]
    simp [updateTargetLines, ended]
  generalize updateCommand options (relativeMakefiles workingDirectory options) = command at *
  have htarget : '\n' ∉ "update-help:".toList := by decide
  have hrecipe : '\n' ∉ '\t' :: '@' :: command.toList := by
    simpa [Lacks] using hcommand
  rw [updateRecipe?, htext, Text.splitOnChar_append_separator, Text.splitOnChar_append_separator,
    Text.splitOnChar_append_separator, Text.splitOnChar_of_not_mem htarget,
    Text.splitOnChar_of_not_mem hrecipe]
  simp [splitOnChar]

/-! ### The arguments of the command -/

/-- The color mode of a file. -/
def modeOf (options : Options) : Terminal.ColorMode :=
  if options.useColor then .always else .never

theorem colorFlag_eq (options : Options) :
    colorFlag options = " --color " ++ (modeOf options).name := by
  unfold colorFlag modeOf
  split <;> rfl

theorem isFixed_name (mode : Terminal.ColorMode) : IsOrdinaryText mode.name ∧ mode.name ≠ "" := by
  cases mode <;> decide

/-- The makefiles as arguments, each behind the name of its option. -/
def makefileOptions (paths : List String) : List Argument :=
  paths.flatMap fun path ↦ [.word "--makefile" (by decide), .path path]

/-- The arguments of the command, the name of the program first. -/
def updateOptions (options : Options) (paths : List String) : List Argument :=
  .word "makehelp" (by decide) :: .word "--color" (by decide) ::
    .word (modeOf options).name (isFixed_name _) :: .word "helpfile" (by decide) ::
    .path options.modelName :: .word "--output" (by decide) :: .path options.fileName ::
    (makefileOptions paths ++ categoryOption options.category)

theorem written_makefileOptions (paths : List String) :
    written (makefileOptions paths) =
      (String.join ((paths.map (directoryReference ++ ·)).map (" --makefile " ++ ·))).toList := by
  simp [written, makefileOptions, String.toList_join, List.flatMap_map, List.flatMap_assoc]

theorem written_updateOptions (options : Options) (paths : List String) :
    written (updateOptions options paths) =
      ' ' :: (updateCommand options (paths.map (directoryReference ++ ·))).toList := by
  simp [updateOptions, updateCommand, colorFlag_eq, written_makefileOptions,
    written_categoryOption]

variable (directory : String)

theorem map_value_updateOptions (options : Options) (paths : List String) :
    (updateOptions options paths).map (Argument.value directory.toList) =
      ("makehelp" :: commandLine (modeOf options) (directory ++ options.modelName)
        (directory ++ options.fileName) (paths.map (directory ++ ·)) options.category).map
          String.toList := by
  have hcategory : (categoryOption options.category).map (Argument.value directory.toList) =
      (categoryArguments options.category).map String.toList := by
    unfold categoryOption categoryArguments
    split <;> rfl
  simp [updateOptions, commandLine, Command.helpfileArguments, makefileOptions, makefileArguments,
    hcategory, Argument.value, List.map_flatMap, List.flatMap_map]

theorem passes_makefileOptions_iff (paths : List String) :
    (∀ argument ∈ makefileOptions paths, argument.Passes) ↔
      ∀ path ∈ paths, IsInnerText path := by
  simp only [makefileOptions, List.forall_mem_flatMap, List.forall_mem_cons, Argument.passes_word,
    Argument.passes_path, List.not_mem_nil, false_implies, implies_true, true_and, and_true]

theorem passes_categoryOption (category : String) :
    ∀ argument ∈ categoryOption category, argument.Passes := by
  unfold categoryOption
  split <;> simp

theorem passes_updateOptions_iff (options : Options) (paths : List String) :
    (∀ argument ∈ updateOptions options paths, argument.Passes) ↔
      ∀ path ∈ options.modelName :: options.fileName :: paths, IsInnerText path := by
  simp only [updateOptions, List.forall_mem_cons, List.forall_mem_append,
    passes_makefileOptions_iff, Argument.passes_word, Argument.passes_path, true_and]
  rw [and_iff_left (passes_categoryOption options.category)]

/-- Make and the shell take the command apart into its arguments exactly if the shell reads every
character of the paths as itself. -/
theorem words_updateCommand_iff (hne : directory ≠ "")
    (hdirectory : ∀ c ∈ directory.toList, IsLiteral c) (options : Options) (paths : List String) :
    (expand directory.toList 0
        (updateCommand options (paths.map (directoryReference ++ ·))).toList).bind words =
      some (("makehelp" :: commandLine (modeOf options) (directory ++ options.modelName)
        (directory ++ options.fileName) (paths.map (directory ++ ·)) options.category).map
          String.toList) ↔
      ∀ path ∈ options.modelName :: options.fileName :: paths, IsInnerText path := by
  have hblank : words ∘ (' ' :: ·) = words := funext Escape.Shell.words_blank
  have hreceived := received_eq_some_iff (mt String.toList_eq_nil_iff.mp hne) hdirectory
    (updateOptions options paths)
  rwa [received, written_updateOptions, expand_blank, Option.bind_map, hblank,
    map_value_updateOptions, passes_updateOptions_iff] at hreceived

/-! ### The arguments of an update -/

/-- The arguments that the last recipe of a help makefile gives the program, in a make that included
the file under the path `output`. -/
def updateArguments? (output text : String) : Option (List String) := do
  let recipe ← updateRecipe? text
  let line ← expand (Path.directoryPart output).toList 0 recipe
  match ← Escape.Shell.words line with
  | program :: arguments =>
    if program = "makehelp".toList then some (arguments.map String.ofList) else none
  | [] => none

/-- The last recipe of a help makefile runs the program with the color of the file, its category,
and its model, its own name and its makefiles behind the directory it was included from. -/
theorem updateArguments?_fileText {workingDirectory output : String} {options : Options}
    {paths : List String}
    (hrelative : relativeMakefiles workingDirectory options =
      paths.map (directoryReference ++ ·))
    (houtput : IsOrdinaryText (Path.directoryPart output))
    (hmodelName : IsOrdinaryText options.modelName) (hfileName : IsOrdinaryText options.fileName)
    (hpaths : ∀ path ∈ paths, IsOrdinaryText path) (hcategory : Lacks '\n' options.category)
    (stamp : String) (model : Model) :
    updateArguments? output (fileText workingDirectory options stamp model) =
      some (commandLine (modeOf options) (Path.directoryPart output ++ options.modelName)
        (Path.directoryPart output ++ options.fileName)
        (paths.map (Path.directoryPart output ++ ·)) options.category) := by
  have hfeed : ¬ IsOrdinary '\n' := by decide
  have hdollar : ¬ IsOrdinary '$' := by decide
  have hcommand : Lacks '\n'
      (updateCommand options (relativeMakefiles workingDirectory options)) := by
    rw [hrelative, lacks_updateCommand_iff, List.forall_mem_map]
    refine ⟨hmodelName.lacks hfeed, hfileName.lacks hfeed, fun path hpath ↦ ?_, hcategory⟩
    exact Text.lacks_append.mpr ⟨by decide, (hpaths path hpath).lacks hfeed⟩
  have hinner : ∀ {text : String}, IsOrdinaryText text → IsInnerText text :=
    Escape.Shell.isInnerText_of_isOrdinaryText
  have hwords := (words_updateCommand_iff _ (Path.directoryPart_ne_empty output)
    (Escape.Shell.isLiteral_of_isOrdinaryText houtput) options paths).mpr
    (List.forall_mem_cons.mpr ⟨hinner hmodelName, List.forall_mem_cons.mpr
      ⟨hinner hfileName, fun path hpath ↦ hinner (hpaths path hpath)⟩⟩)
  obtain ⟨line, hline, hread⟩ := Option.bind_eq_some_iff.mp hwords
  simp only [updateArguments?, updateRecipe?_fileText stamp model hcommand, hrelative, hline,
    hread, Option.bind_eq_bind, Option.bind_some, List.map_cons, if_true, List.map_map]
  simp

/-! ### The makefiles -/

/-- A makefile as it is seen from the directory of the help makefile. -/
def makefilePath (workingDirectory directory makefile : String) : String :=
  if directory = "" then Path.normalize makefile
  else Path.relativeTo workingDirectory (Path.normalize directory) (Path.normalize makefile)

theorem relativeMakefiles_eq (workingDirectory : String) (options : Options) :
    relativeMakefiles workingDirectory options =
      (options.makefiles.map (makefilePath workingDirectory options.directory)).map
        (directoryReference ++ ·) := by
  rw [List.map_map]
  rfl

theorem anchor_makefilePath (workingDirectory directory : String) {makefile : String}
    (hmakefile : Anchor.ofText makefile.toList = .relative) :
    Anchor.ofText (makefilePath workingDirectory directory makefile).toList = .relative := by
  unfold makefilePath
  split
  · rw [Path.anchor_normalize, hmakefile]
  · exact Path.anchor_relativeTo _ _ _

/-- The path of a makefile stays the same when it is written behind the directory that the help
makefile was included from, and read again. -/
theorem makefilePath_behind_directoryPart {output base : String} {steps : List String}
    (hcomponents : Path.components output = steps ++ [base]) (hbase : Path.isIdle base = false)
    (workingDirectory : String) {makefile : String}
    (hmakefile : Anchor.ofText makefile.toList = .relative) :
    makefilePath workingDirectory (Command.makefileDirectory (.ofString output))
        (Path.directoryPart output ++ makefilePath workingDirectory
          (Command.makefileDirectory (.ofString output)) makefile) =
      makefilePath workingDirectory (Command.makefileDirectory (.ofString output)) makefile := by
  have hrelative := anchor_makefilePath workingDirectory
    (Command.makefileDirectory (.ofString output)) hmakefile
  have hplain := (Path.isPlain_ofString output).parent
  have hparent : (Path.ofString output).parent =
      ⟨.ofText output.toList, steps.filter fun step ↦ !Path.isIdle step⟩ := by
    rw [Path.ofString_of_components hcomponents hbase, Path.parent, List.dropLast_concat]
  by_cases hdot : (Path.ofString output).parent.text = "."
  · have hhere : (Path.ofString output).parent = Path.ofString "." := by
      rw [← hdot, Path.ofString_text hplain]
    rw [hparent, Path.ofString, Path.mk.injEq] at hhere
    have hsteps : ∀ step ∈ steps, Path.isIdle step = true := by
      have hnone : steps.filter (fun step ↦ !Path.isIdle step) = [] := hhere.2.trans (by decide)
      simpa using hnone
    obtain ⟨idle, hidle, hparts⟩ := Path.exists_directoryPart hcomponents
    rw [Command.makefileDirectory, if_pos hdot] at hrelative ⊢
    simp only [makefilePath, if_true] at hrelative ⊢
    refine Path.normalize_append_normalize hmakefile ?_
      (List.forall_mem_append.mpr ⟨hidle, hsteps⟩) (hparts _)
    rw [Path.anchor_directoryPart_append output hrelative, hhere.1]
    decide
  · rw [Command.makefileDirectory, if_neg hdot] at hrelative ⊢
    simp only [makefilePath, if_neg (Path.text_ne_empty hplain)] at hrelative ⊢
    refine Path.relativeTo_congr _ ?_
    rw [Path.absoluteNames_normalize,
      Path.absoluteNames_directoryPart_append hcomponents hbase workingDirectory hrelative,
      ← Path.absoluteNames_normalize workingDirectory (Path.ofString output).parent.text,
      Path.descend_relativeTo]

/-! ### Paths as arguments -/

/-- The command that generates a help makefile anew gives the model, the file itself and every
makefile as one argument each, behind the directory of the file, exactly if the shell reads every
character of their paths as itself: the category is quoted, the paths are not. -/
theorem updateCommand_arguments_iff (hne : directory ≠ "")
    (hdirectory : ∀ c ∈ directory.toList, IsLiteral c) (workingDirectory : String)
    (options : Options) :
    (expand directory.toList 0
        (updateCommand options (relativeMakefiles workingDirectory options)).toList).bind words =
      some (("makehelp" :: commandLine (modeOf options) (directory ++ options.modelName)
        (directory ++ options.fileName)
        ((options.makefiles.map (makefilePath workingDirectory options.directory)).map
          (directory ++ ·)) options.category).map String.toList) ↔
      ∀ path ∈ options.modelName :: options.fileName ::
        options.makefiles.map (makefilePath workingDirectory options.directory),
        IsInnerText path := by
  rw [relativeMakefiles_eq]
  exact words_updateCommand_iff directory hne hdirectory options _

/-- Options with signs in the paths that mean something to the shell at the beginning of a word
only, and with quotes, blanks and dollar signs in the category. -/
def unusualOptions : Options where
  makefiles := ["build/Makefile", "rules/c#.mk"]
  directory := "build"
  category := "Dev's $HOME"
  modelName := "../m~1.json"

theorem updateCommand_arguments_unusual :
    "build/" ≠ "" ∧ (∀ c ∈ "build/".toList, IsLiteral c) ∧
      (expand "build/".toList 0 (updateCommand unusualOptions
          (relativeMakefiles "/p" unusualOptions)).toList).bind words =
        some (["makehelp", "--color", "never", "helpfile", "build/../m~1.json", "--output",
          "build/help.mk", "--makefile", "build/Makefile", "--makefile", "build/../rules/c#.mk",
          "--help-category", "Dev's $HOME"].map String.toList) := by
  have hdirectory : ∀ c ∈ "build/".toList, IsLiteral c :=
    Escape.Shell.isLiteral_of_isOrdinaryText (by decide)
  have hmakefiles : unusualOptions.makefiles.map (makefilePath "/p" unusualOptions.directory) =
      ["Makefile", "../rules/c#.mk"] := by
    decide +kernel
  have hwords := updateCommand_arguments_iff "build/" (by decide) hdirectory "/p" unusualOptions
  rw [hmakefiles] at hwords
  have hpaths : ∀ path ∈ unusualOptions.modelName :: unusualOptions.fileName ::
      ["Makefile", "../rules/c#.mk"], IsInnerText path := by
    decide
  exact ⟨by decide, hdirectory, hwords.mpr hpaths⟩

/-- A blank in the name of the model cuts its path into two arguments. -/
theorem not_forall_updateCommand_arguments :
    ¬ ∀ (directory workingDirectory : String) (options : Options), directory ≠ "" →
      (∀ c ∈ directory.toList, IsLiteral c) →
      (∀ path ∈ options.modelName :: options.fileName :: options.makefiles, Lacks '\n' path) →
      (expand directory.toList 0
          (updateCommand options (relativeMakefiles workingDirectory options)).toList).bind words =
        some (("makehelp" :: commandLine (modeOf options) (directory ++ options.modelName)
          (directory ++ options.fileName)
          ((options.makefiles.map (makefilePath workingDirectory options.directory)).map
            (directory ++ ·)) options.category).map String.toList) := by
  intro hall
  have hwords := hall "./" "/p" { modelName := "my help.json" } (by decide)
    (Escape.Shell.isLiteral_of_isOrdinaryText (by decide)) (by decide)
  exact absurd hwords (by decide +kernel)

/-! ### Ordinary paths -/

section Ordinary

variable {workingDirectory path : String}

theorem isOrdinaryText_of_lacks {text : String}
    (htext : ∀ c, c ≠ '.' → c ≠ '/' → ¬ IsOrdinary c → Lacks c text) : IsOrdinaryText text := by
  intro c hmem
  by_contra hc
  refine htext c ?_ ?_ hc hmem
  · rintro rfl
    exact hc (by decide)
  · rintro rfl
    exact hc (by decide)

theorem isOrdinaryText_relativeTo (hdirectory : IsOrdinaryText workingDirectory)
    (hpath : IsOrdinaryText path) (start : String) :
    IsOrdinaryText (Path.relativeTo workingDirectory start path) :=
  isOrdinaryText_of_lacks fun _ hdot hslash hc ↦ Path.lacks_relativeTo hdot hslash
    (Path.lacks_of_mem_absoluteNames (hdirectory.lacks hc) (hpath.lacks hc))

theorem isOrdinaryText_normalize (hpath : IsOrdinaryText path) :
    IsOrdinaryText (Path.normalize path) :=
  isOrdinaryText_of_lacks fun _ hdot hslash hc ↦
    Path.lacks_normalize hdot hslash (hpath.lacks hc)

theorem isOrdinaryText_name (hpath : IsOrdinaryText path) :
    IsOrdinaryText (Path.ofString path).name :=
  isOrdinaryText_of_lacks fun _ _ _ hc ↦ Path.lacks_name (hpath.lacks hc)

theorem isOrdinaryText_makefilePath (hdirectory : IsOrdinaryText workingDirectory)
    (hpath : IsOrdinaryText path) (directory : String) :
    IsOrdinaryText (makefilePath workingDirectory directory path) := by
  unfold makefilePath
  split
  · exact isOrdinaryText_normalize hpath
  · exact isOrdinaryText_relativeTo hdirectory (isOrdinaryText_normalize hpath) _

theorem isOrdinaryText_directoryPart (hpath : IsOrdinaryText path) :
    IsOrdinaryText (Path.directoryPart path) :=
  isOrdinaryText_of_lacks fun _ hdot hslash hc ↦
    Path.lacks_directoryPart hdot hslash (hpath.lacks hc)

end Ordinary

end HelpSheet.Makefile
