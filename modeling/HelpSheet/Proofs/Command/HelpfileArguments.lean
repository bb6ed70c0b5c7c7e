import HelpSheet.Proofs.Command.Arguments
import HelpSheet.Proofs.Command.WrittenFiles

/-!
# Arguments of the command that writes a help makefile

A command line with the color, the model, the output, any number of makefiles and a category asks
for the help makefile with these (`readHelpfile_arguments`), and the program then does nothing else
than to write it (`outcome_run_commandLine`). The model stands where an option could stand, so it
must not look like one.
-/

set_option autoImplicit false
set_option relaxedAutoImplicit false

namespace HelpSheet.Command

/-! ### The arguments -/

/-- The arguments that name the documented makefiles. -/
def makefileArguments (makefiles : List String) : List String :=
  makefiles.flatMap fun makefile ↦ ["--makefile", makefile]

/-- The arguments that name the category, unless it is the standard one. -/
def categoryArguments (category : String) : List String :=
  if category = Makefile.standardCategory then [] else ["--help-category", category]

/-- The arguments behind the name of the command. -/
def helpfileArguments (model output : String) (makefiles : List String) (category : String) :
    List String :=
  model :: "--output" :: output :: (makefileArguments makefiles ++ categoryArguments category)

/-- The options of the category. -/
def categoryOptions (category : String) : List (HelpfileOption × String) :=
  if category = Makefile.standardCategory then [] else [(.category, category)]

/-- The options that are read from the arguments. -/
def readOptions (output : String) (makefiles : List String) (category : String) :
    List (HelpfileOption × String) :=
  (.output, output) :: (makefiles.map (HelpfileOption.makefile, ·) ++ categoryOptions category)

section Reader

variable {read : List String → Except UsageFault (Arguments HelpfileOption)}

theorem read_makefileArguments (hread : ReadsForms helpfileForms true read)
    (makefiles : List String) (category : String) :
    read (makefileArguments makefiles ++ categoryArguments category) =
      .ok { options :=
              makefiles.map (HelpfileOption.makefile, ·) ++ categoryOptions category } := by
  induction makefiles with
  | nil =>
    have hcategory := hread.value { key := .category, long := "--help-category" }
      (by simp [helpfileForms]) rfl category []
    simp only [makefileArguments, categoryArguments, categoryOptions, List.flatMap_nil,
      List.map_nil, List.nil_append]
    by_cases hstandard : category = Makefile.standardCategory
    · rw [if_pos hstandard, if_pos hstandard]
      exact hread.nil
    · rw [if_neg hstandard, if_neg hstandard, hcategory, hread.nil]
      rfl
  | cons makefile makefiles ih =>
    have hmakefile := hread.value { key := .makefile, long := "--makefile" }
      (by simp [helpfileForms]) rfl makefile
    rw [makefileArguments, List.flatMap_cons, List.append_assoc, List.cons_append,
      List.singleton_append, hmakefile]
    exact congrArg (Except.map (Arguments.addOptions [(.makefile, makefile)])) ih

theorem read_outputArguments (hread : ReadsForms helpfileForms true read) (output : String)
    (makefiles : List String) (category : String) :
    read ("--output" :: output :: (makefileArguments makefiles ++ categoryArguments category)) =
      .ok { options := readOptions output makefiles category } := by
  have houtput := hread.value { key := .output, long := "--output", short := some 'o' }
    (by simp [helpfileForms]) rfl output
  rw [houtput, read_makefileArguments hread]
  rfl

theorem read_helpfileArguments (hread : ReadsForms helpfileForms true read) {model : String}
    (hmodel : model.toList.head? ≠ some '-') (output : String) (makefiles : List String)
    (category : String) :
    read (helpfileArguments model output makefiles category) =
      .ok { options := readOptions output makefiles category, positional := [model] } := by
  rw [helpfileArguments, hread.positional model _ hmodel, if_pos rfl, read_outputArguments hread]
  rfl

/-- Behind a model that looks like an option, no positional argument is left. -/
theorem read_helpfileArguments_slash (hread : ReadsForms helpfileForms true read)
    {model : String} {rest : List Char} (hmodel : model.toList = '-' :: rest)
    (hslash : '/' ∈ rest) (hequals : '=' ∉ rest) (output : String) (makefiles : List String)
    (category : String) :
    (∃ fault, read (helpfileArguments model output makefiles category) = .error fault) ∨
      ∃ options, read (helpfileArguments model output makefiles category) =
        .ok { options := options } := by
  rcases hread.slash model rest hmodel hslash hequals with ⟨fault, hfault⟩ | ⟨given, hgiven⟩
  · exact .inl ⟨fault, hfault _⟩
  · refine .inr ⟨given ++ readOptions output makefiles category, ?_⟩
    rw [helpfileArguments, hgiven, read_outputArguments hread]
    rfl

end Reader

theorem readsForms_helpfileForms :
    ReadsForms helpfileForms true (readArguments helpfileForms true none) :=
  readsForms_readArguments wellNamed_helpfileForms true

section Values

variable (output : String) (makefiles : List String) (category : String)

theorem ne_of_mem_categoryOptions {key : HelpfileOption} (hkey : key ≠ .category) :
    ∀ entry ∈ categoryOptions category, entry.1 ≠ key := by
  intro entry hentry
  unfold categoryOptions at hentry
  split at hentry
  · cases hentry
  · rw [List.mem_singleton.mp hentry]
    exact Ne.symm hkey

theorem has_help (positional : List String) :
    (Arguments.mk (readOptions output makefiles category) positional).has .help = false := by
  simpa [Arguments.has, readOptions] using ne_of_mem_categoryOptions category (by decide)

theorem value?_output (positional : List String) :
    (Arguments.mk (readOptions output makefiles category) positional).value? .output =
      some output := by
  have hcategory : (categoryOptions category).reverse.find? (fun entry ↦ entry.1 = .output) =
      none := by
    simpa using ne_of_mem_categoryOptions category (by decide)
  have hmakefiles : (makefiles.map (HelpfileOption.makefile, ·)).reverse.find?
      (fun entry ↦ entry.1 = .output) = none := by
    simp
  simp [Arguments.value?, readOptions, List.find?_append, hcategory, hmakefiles]

theorem values_makefile (positional : List String) :
    (Arguments.mk (readOptions output makefiles category) positional).values .makefile =
      makefiles := by
  have hcategory : (categoryOptions category).filter (fun entry ↦ entry.1 = .makefile) = [] := by
    simpa using ne_of_mem_categoryOptions category (by decide)
  have hmakefiles : (makefiles.map (HelpfileOption.makefile, ·)).filter
      (fun entry ↦ entry.1 = .makefile) = makefiles.map (HelpfileOption.makefile, ·) := by
    simp
  simp [Arguments.values, readOptions, hcategory, hmakefiles, Function.comp_def]

theorem value?_category (positional : List String) :
    ((Arguments.mk (readOptions output makefiles category) positional).value? .category).getD
      Makefile.standardCategory = category := by
  have hmakefiles : (makefiles.map (HelpfileOption.makefile, ·)).reverse.find?
      (fun entry ↦ entry.1 = .category) = none := by
    simp
  unfold Arguments.value? readOptions categoryOptions
  split
  · next hstandard => simp [List.find?_append, hmakefiles, hstandard]
  · simp

end Values

/-- The arguments ask for the help makefile that they describe. -/
theorem readHelpfile_arguments {world : World} {model output : String}
    (hmodel : model.toList.head? ≠ some '-')
    (hmodelFile : checkFile world modelArgument model = .ok (.ofString model))
    (houtputFile : checkFile world "--output" output = .ok (.ofString output))
    (makefiles : List String) (category : String) :
    readHelpfile world (helpfileArguments model output makefiles category) =
      .ok (.work
        { model := .ofString model, output := .ofString output, makefiles, category }) := by
  rw [readHelpfile, read_helpfileArguments readsForms_helpfileForms hmodel]
  simp [has_help, value?_output, values_makefile, value?_category, hmodelFile, houtputFile,
    onlyArgument, bind, Except.bind, pure, Except.pure]

/-! ### The whole command line -/

/-- The command line that writes a help makefile in a color mode. -/
def commandLine (mode : Terminal.ColorMode) (model output : String) (makefiles : List String)
    (category : String) : List String :=
  "--color" :: mode.name :: "helpfile" :: helpfileArguments model output makefiles category

theorem readInvocation_commandLine (world : World) (mode : Terminal.ColorMode)
    (model output : String) (makefiles : List String) (category : String) :
    readInvocation world (commandLine mode model output makefiles category) =
      .ok (.command { color := some mode, config := none } .helpfile
        (helpfileArguments model output makefiles category)) := by
  have hreads := readsForms_readArguments wellNamed_programForms false
  have hcolor := hreads.value { key := .color, long := "--color" } (by simp [programForms]) rfl
  have hread : readArguments programForms false none
      (commandLine mode model output makefiles category) =
        .ok { options := [(.color, mode.name)]
              positional := "helpfile" :: helpfileArguments model output makefiles category } := by
    rw [commandLine, hcolor, hreads.positional "helpfile" _ (by decide)]
    rfl
  rw [readInvocation, hread]
  cases mode <;> rfl

/-- The program does nothing else than to write the help makefile. -/
theorem outcome_run_commandLine {world : World} {model output category : String}
    {makefiles : List String} {request : HelpfileRequest}
    (hread : readHelpfile world (helpfileArguments model output makefiles category) =
      .ok (.work request)) (mode : Terminal.ColorMode) :
    (run world (commandLine mode model output makefiles category)).outcome =
      (makeContext world { color := some mode, config := none }).outcome.bind fun context ↦
        (helpfile world context request).outcome := by
  rw [run, readInvocation_commandLine]
  simp only [invoke, Log.Traced.outcome_bind, runCommand, serve, hread]

/-- The request is the one that the arguments make, in their color mode. -/
theorem eq_of_requestsHelpfile {world : World} {model output category : String}
    {makefiles : List String} {request made : HelpfileRequest} {context : Context}
    {mode : Terminal.ColorMode}
    (hread : readHelpfile world (helpfileArguments model output makefiles category) =
      .ok (.work request))
    (hrequests : RequestsHelpfile world (commandLine mode model output makefiles category) context
      made) : made = request ∧ context.colorMode = some mode := by
  obtain ⟨hinvocation, hcontext, hmade⟩ := hrequests
  rw [readInvocation_commandLine] at hinvocation
  cases hinvocation
  rw [hread] at hmade
  cases hmade
  exact ⟨rfl, colorMode_of_makeContext hcontext⟩

theorem commandName?_commandLine (world : World) (mode : Terminal.ColorMode)
    (model output : String) (makefiles : List String) (category : String) :
    commandName? world (commandLine mode model output makefiles category) = some .helpfile := by
  rw [commandName?, readInvocation_commandLine]

/-! ### A model that looks like an option -/

/-- Behind a model that looks like an option, no help makefile is asked for. -/
theorem readHelpfile_ne_work (world : World) {model : String} {rest : List Char}
    (hmodel : model.toList = '-' :: rest) (hslash : '/' ∈ rest) (hequals : '=' ∉ rest)
    (output : String) (makefiles : List String) (category : String) (request : HelpfileRequest) :
    readHelpfile world (helpfileArguments model output makefiles category) ≠
      .ok (.work request) := by
  rcases read_helpfileArguments_slash readsForms_helpfileForms hmodel hslash hequals output
    makefiles category with ⟨fault, hfault⟩ | ⟨options, hoptions⟩
  · rw [readHelpfile, hfault]
    simp [bind, Except.bind]
  · rw [readHelpfile, hoptions]
    let read : Arguments HelpfileOption := { options := options }
    simp only [bind, Except.bind, pure, Except.pure, onlyArgument]
    split
    · simp
    · cases checkFile world "--output" ((read.value? .output).getD Makefile.standardFileName) <;>
        simp

/-- Behind a model that looks like an option, the program changes no file. -/
theorem files_run_commandLine {world : World} {model : String} {rest : List Char}
    (hmodel : model.toList = '-' :: rest) (hslash : '/' ∈ rest) (hequals : '=' ∉ rest)
    (mode : Terminal.ColorMode) (output : String) (makefiles : List String) (category : String) :
    (run world (commandLine mode model output makefiles category)).files world = world.tree := by
  have hne := readHelpfile_ne_work world hmodel hslash hequals output makefiles category
  refine (conclusion_run world _).files_eq_of_none ?_
  rw [outputFile?, readInvocation_commandLine]
  cases hasked : readHelpfile world (helpfileArguments model output makefiles category) with
  | error fault => simp only [hasked]
  | ok asked =>
    cases asked with
    | help => simp only [hasked]
    | work request => exact absurd hasked (hne request)

end HelpSheet.Command
