import HelpSheet.Proofs.Command.UpdateRecipe

/-!
# One update of a help makefile

The arguments of the update recipe are read from the file itself (`updateArguments?_eq`). Where the
help makefile and the model lie where they lay, the recipe finds both of them (`reads_updateLine`),
asks for the same file (`fileText_updateRequest`) and writes it (`reads_of_run`), provided that the
model is not taken for an option (`files_run_updateLine`).
-/

set_option autoImplicit false
set_option relaxedAutoImplicit false

namespace HelpSheet.Command

open HelpSheet.Text (Lacks)
open Files.Tree (destination)
open Makefile (fileText modeOf relativeMakefiles updateArguments?)

/-! ### Places -/

/-- The names of the working directory lead down. -/
def World.IsPlaced (world : World) : Prop :=
  ∀ name ∈ world.directory, Path.LeadsDown name ∧ Lacks '/' name

theorem workingDirectory_eq_text (world : World) :
    world.workingDirectory = Path.text ⟨.root, world.directory⟩ := rfl

theorem workingDirectory_congr {world later : World}
    (hdirectory : later.directory = world.directory) :
    later.workingDirectory = world.workingDirectory := by
  rw [World.workingDirectory, hdirectory, World.workingDirectory]

theorem origin_workingDirectory {world : World} (hplaced : world.IsPlaced) (path : String) :
    Path.origin world.workingDirectory path = Files.Tree.startOf world.directory path := by
  have hplain : Path.IsPlain ⟨.root, world.directory⟩ :=
    fun name hname ↦ ⟨(hplaced name hname).1.1, (hplaced name hname).2⟩
  have hdirectory : Path.descend [] (Path.components world.workingDirectory) = world.directory := by
    rw [workingDirectory_eq_text, Path.descend_components_text _ hplain,
      Path.descend_of_leadsDown _ fun name hname ↦ (hplaced name hname).1, List.nil_append]
  rw [Path.origin, hdirectory]
  rfl

theorem absoluteNames_workingDirectory {world : World} (hplaced : world.IsPlaced)
    (path : String) :
    Path.absoluteNames world.workingDirectory path = destination world.directory path := by
  rw [Path.absoluteNames_eq, origin_workingDirectory hplaced, destination]

/-! ### Where the update finds its files -/

/-- Behind the directory part of the output, its base leads to the output, and the way to the model
leads to the model. -/
theorem resolve_behind_directoryPart {world : World} (hplaced : world.IsPlaced)
    (htree : world.tree.IsSound) {output base model : String} {steps : List String}
    (hcomponents : Path.components output = steps ++ [base]) {place modelPlace : Files.Place}
    {content modelContent : List UInt8}
    (houtput : world.tree.resolve world.directory output = .ok place)
    (hplace : world.tree.node? place = some (.file content))
    (hmodel : world.tree.resolve world.directory model = .ok modelPlace)
    (hmodelPlace : world.tree.node? modelPlace = some (.file modelContent)) :
    world.tree.resolve world.directory (Path.directoryPart output ++ base) = .ok place ∧
      world.tree.resolve world.directory (Path.directoryPart output ++
        Path.relativeTo world.workingDirectory (Path.ofString output).parent.text model) =
          .ok modelPlace := by
  have hstart := Files.Tree.enter_startOf houtput
  have hlacks := Path.lacks_slash_of_components_eq hcomponents
  obtain ⟨hdown, above, hsteps, habove, -⟩ :=
    Files.Tree.base_of_resolve htree hcomponents houtput hplace
  have hparent : Path.absoluteNames world.workingDirectory (Path.ofString output).parent.text =
      above := by
    rw [Path.absoluteNames_parent hcomponents hdown.1, origin_workingDirectory hplaced]
    exact (Files.Tree.walk_eq_descend hsteps).1.symm
  have hgoal : Path.absoluteNames world.workingDirectory model = modelPlace := by
    rw [absoluteNames_workingDirectory hplaced, Files.Tree.destination_of_resolve hmodel]
  have hbase : Anchor.ofText base.toList = .relative :=
    (Path.anchor_eq_relative_iff _).mpr fun hhead ↦ hlacks (List.mem_of_mem_head? hhead)
  constructor
  · rw [Files.Tree.resolve_directoryPart_append hcomponents hbase hstart,
      Path.components_of_lacks hlacks, ← hcomponents]
    exact (Files.Tree.resolve_eq_ok_iff.mp houtput).2
  · have hway := Files.Tree.walk_relativeTo htree (hparent.symm ▸ habove)
      (hgoal.symm ▸ Option.isSome_of_eq_some hmodelPlace)
    rw [Files.Tree.resolve_directoryPart_append hcomponents (Path.anchor_relativeTo _ _ _) hstart,
      Files.Tree.walk_append_ok]
    rw [hparent, hgoal] at hway
    exact ⟨above, hsteps, hway⟩

/-! ### What the update is asked for -/

section Request

variable {world later : World} {context context' : Context} {request : HelpfileRequest}
  {output base : String} {steps : List String}

theorem helpfileColor_eq {options : Makefile.Options}
    (hmode : context.colorMode = some (modeOf options)) :
    helpfileColor world context = options.useColor := by
  have hformat : Terminal.isMachineFormat (some Format.make.name) = false := by decide
  rw [helpfileColor, Terminal.useColor, Terminal.decision?, hformat, hmode]
  cases hcolor : options.useColor <;> simp [modeOf, hcolor, Terminal.ColorMode.decision?]

/-- The request that the update recipe makes of a file that was written to a path for a request. -/
def updateRequest (world : World) (context : Context) (request : HelpfileRequest)
    (output : String) : HelpfileRequest where
  model := .ofString (Path.directoryPart output ++ (writtenOptions world context request).modelName)
  output := .ofString (Path.directoryPart output ++ (writtenOptions world context request).fileName)
  makefiles := request.makefiles.map fun makefile ↦ Path.directoryPart output ++
    Makefile.makefilePath world.workingDirectory (writtenOptions world context request).directory
      makefile
  category := request.category

/-- The command line of the update recipe. -/
def updateLine (world : World) (context : Context) (request : HelpfileRequest)
    (output : String) : List String :=
  commandLine (modeOf (writtenOptions world context request))
    (Path.directoryPart output ++ (writtenOptions world context request).modelName)
    (Path.directoryPart output ++ (writtenOptions world context request).fileName)
    (updateRequest world context request output).makefiles request.category

theorem fileText_congr {workingDirectory : String} {options : Makefile.Options}
    {makefiles : List String}
    (hrelative : relativeMakefiles workingDirectory { options with makefiles } =
      relativeMakefiles workingDirectory options) (stamp : String) (model : Model) :
    fileText workingDirectory { options with makefiles } stamp model =
      fileText workingDirectory options stamp model := by
  simp only [fileText, Makefile.textAround, hrelative]
  rfl

theorem modelName_writtenOptions (world : World) (context : Context) (request : HelpfileRequest) :
    (writtenOptions world context request).modelName =
      Path.relativeTo world.workingDirectory request.output.parent.text request.model.text := by
  rw [writtenOptions, makefileOptions]

theorem makefiles_writtenOptions (world : World) (context : Context) (request : HelpfileRequest) :
    (writtenOptions world context request).makefiles = request.makefiles := rfl

theorem fileName_writtenOptions (hrequest : request.output = .ofString output)
    (hcomponents : Path.components output = steps ++ [base]) (hbase : Path.isIdle base = false) :
    (writtenOptions world context request).fileName = base := by
  rw [← Path.name_ofString hcomponents hbase, ← hrequest]
  rfl

theorem output_updateRequest (hrequest : request.output = .ofString output)
    (hcomponents : Path.components output = steps ++ [base]) (hbase : Path.isIdle base = false) :
    (updateRequest world context request output).output = .ofString output := by
  rw [updateRequest, fileName_writtenOptions hrequest hcomponents hbase,
    Path.ofString_directoryPart_append hcomponents hbase]

/-- The way to the model is the same for the update. -/
theorem modelName_updateRequest (hrequest : request.output = .ofString output)
    (hcomponents : Path.components output = steps ++ [base]) (hbase : Path.isIdle base = false) :
    Path.relativeTo world.workingDirectory request.output.parent.text
        (updateRequest world context request output).model.text =
      (writtenOptions world context request).modelName := by
  rw [modelName_writtenOptions]
  refine Path.relativeTo_congr _ ?_
  rw [updateRequest, modelName_writtenOptions, Path.absoluteNames_text_ofString,
    Path.absoluteNames_directoryPart_append hcomponents hbase _ (Path.anchor_relativeTo _ _ _),
    ← hrequest]
  exact Path.descend_relativeTo _ _ _

/-- The ways to the makefiles are the same for the update. -/
theorem makefiles_updateRequest (world : World) (context : Context)
    (hrequest : request.output = .ofString output)
    (hcomponents : Path.components output = steps ++ [base]) (hbase : Path.isIdle base = false)
    (hmakefiles : ∀ makefile ∈ request.makefiles, Anchor.ofText makefile.toList = .relative) :
    (updateRequest world context request output).makefiles.map
        (Makefile.makefilePath world.workingDirectory
          (writtenOptions world context request).directory) =
      (writtenOptions world context request).makefiles.map
        (Makefile.makefilePath world.workingDirectory
          (writtenOptions world context request).directory) := by
  have hdirectory : (writtenOptions world context request).directory =
      makefileDirectory (.ofString output) := congrArg makefileDirectory hrequest
  rw [updateRequest, makefiles_writtenOptions, hdirectory, List.map_map]
  refine List.map_congr_left fun makefile hmakefile ↦ ?_
  rw [Function.comp_apply]
  exact Makefile.makefilePath_behind_directoryPart hcomponents hbase _
    (hmakefiles makefile hmakefile)

/-- The update writes the file that it was written in, but for the stamp. -/
theorem fileText_updateRequest (hrequest : request.output = .ofString output)
    (hcomponents : Path.components output = steps ++ [base]) (hbase : Path.isIdle base = false)
    (hmakefiles : ∀ makefile ∈ request.makefiles, Anchor.ofText makefile.toList = .relative)
    (hworking : later.workingDirectory = world.workingDirectory)
    (hmode : context'.colorMode = some (modeOf (writtenOptions world context request)))
    (stamp : String) (model : Model) :
    fileText later.workingDirectory
        (writtenOptions later context' (updateRequest world context request output)) stamp model =
      fileText world.workingDirectory (writtenOptions world context request) stamp model := by
  have houtput : (updateRequest world context request output).output = request.output :=
    (output_updateRequest hrequest hcomponents hbase).trans hrequest.symm
  have hsame : writtenOptions later context' (updateRequest world context request output) =
      { writtenOptions world context request with
        makefiles := (updateRequest world context request output).makefiles } := by
    rw [writtenOptions, makefileOptions, houtput, hworking,
      modelName_updateRequest hrequest hcomponents hbase, helpfileColor_eq hmode]
    rfl
  have hmakefiles' :=
    makefiles_updateRequest world context hrequest hcomponents hbase hmakefiles
  rw [hsame, hworking]
  refine fileText_congr ?_ stamp model
  rw [Makefile.relativeMakefiles_eq, Makefile.relativeMakefiles_eq]
  exact congrArg (List.map (Makefile.directoryReference ++ ·)) hmakefiles'

end Request

/-! ### One update -/

/-- The request writes to the path `output`; its makefiles are relative, and all its paths and the
working directory are made of characters that are special neither to make nor to the shell. -/
structure HelpfileRequest.IsOrdinary (request : HelpfileRequest) (world : World)
    (output : String) : Prop where
  output_eq : request.output = .ofString output
  placed : world.IsPlaced
  directory : IsOrdinaryText world.workingDirectory
  output : IsOrdinaryText output
  model : IsOrdinaryText request.model.text
  makefiles : ∀ makefile ∈ request.makefiles,
    IsOrdinaryText makefile ∧ Anchor.ofText makefile.toList = .relative
  category : Lacks '\n' request.category

/-- A later world with the working directory and the machine of an earlier one, in which nothing
lies outside of directories that can be entered and two paths lead to files with given contents: the
help makefile and the model. -/
structure World.Has (later world : World) (output model : String) (text content : List UInt8) :
    Prop where
  directory_eq : later.directory = world.directory
  machine_eq : later.machine = world.machine
  sound : later.tree.IsSound
  output : later.tree.read later.directory output = .ok text
  model : later.tree.read later.directory model = .ok content

section Update

variable {world later : World} {context : Context} {request : HelpfileRequest} {output : String}
  {old content : List UInt8}

theorem isOrdinaryText_modelName (hrequest : request.IsOrdinary world output) :
    IsOrdinaryText (writtenOptions world context request).modelName := by
  rw [modelName_writtenOptions]
  exact Makefile.isOrdinaryText_relativeTo hrequest.directory hrequest.model _

/-- The update recipe of a file that was written for an ordinary request. -/
theorem updateArguments?_eq (hrequest : request.IsOrdinary world output) (stamp : String)
    (model : Model) :
    updateArguments? output (fileText world.workingDirectory
        (writtenOptions world context request) stamp model) =
      some (updateLine world context request output) := by
  have hfileName : IsOrdinaryText (writtenOptions world context request).fileName := by
    change IsOrdinaryText request.output.name
    rw [hrequest.output_eq]
    exact Makefile.isOrdinaryText_name hrequest.output
  have hpaths : ∀ path ∈ (writtenOptions world context request).makefiles.map
      (Makefile.makefilePath world.workingDirectory
        (writtenOptions world context request).directory), IsOrdinaryText path :=
    List.forall_mem_map.mpr fun makefile hmakefile ↦ Makefile.isOrdinaryText_makefilePath
      hrequest.directory (hrequest.makefiles makefile hmakefile).1 _
  rw [Makefile.updateArguments?_fileText (Makefile.relativeMakefiles_eq _ _)
    (Makefile.isOrdinaryText_directoryPart hrequest.output) (isOrdinaryText_modelName hrequest)
    hfileName hpaths hrequest.category, List.map_map]
  rfl

/-! ### Files of the update -/

/-- The output has a base, since there is a file. -/
theorem exists_base (hlater : later.Has world output request.model.text old content) :
    ∃ (steps : List String) (base : String), Path.components output = steps ++ [base] ∧
      Path.isIdle base = false := by
  obtain ⟨steps, base, hcomponents⟩ := Files.Tree.exists_components_eq output
  obtain ⟨place, hresolve, hplace, -⟩ := Files.Tree.read_eq_ok_iff.mp hlater.output
  exact ⟨steps, base, hcomponents,
    (Files.Tree.base_of_resolve hlater.sound hcomponents hresolve hplace).1.1⟩

/-- In a world with the file and the model, the paths of the recipe lead to them. -/
theorem reads_updateLine (context : Context) (hrequest : request.IsOrdinary world output)
    (hlater : later.Has world output request.model.text old content) :
    later.tree.read later.directory (Path.directoryPart output ++
        (writtenOptions world context request).fileName) = .ok old ∧
      later.tree.read later.directory (Path.directoryPart output ++
        (writtenOptions world context request).modelName) = .ok content := by
  obtain ⟨steps, base, hcomponents, hbase⟩ := exists_base hlater
  have hplaced : later.IsPlaced := by
    rw [World.IsPlaced, hlater.directory_eq]
    exact hrequest.placed
  obtain ⟨place, hresolve, hplace⟩ := Files.Tree.read_eq_ok_iff.mp hlater.output
  obtain ⟨modelPlace, hmodelResolve, hmodelPlace⟩ := Files.Tree.read_eq_ok_iff.mp hlater.model
  obtain ⟨hway, hmodelWay⟩ := resolve_behind_directoryPart hplaced hlater.sound hcomponents
    hresolve hplace.1 hmodelResolve hmodelPlace.1
  have hfileName : (writtenOptions world context request).fileName = base :=
    fileName_writtenOptions hrequest.output_eq hcomponents hbase
  have hmodelName : (writtenOptions world context request).modelName =
      Path.relativeTo later.workingDirectory (Path.ofString output).parent.text
        request.model.text := by
    rw [workingDirectory_congr hlater.directory_eq, ← hrequest.output_eq, modelName_writtenOptions]
  rw [hfileName, hmodelName]
  exact ⟨Files.Tree.read_eq_ok_iff.mpr ⟨place, hway, hplace⟩,
    Files.Tree.read_eq_ok_iff.mpr ⟨modelPlace, hmodelWay, hmodelPlace⟩⟩

/-- A file that can be read passes for an argument. -/
theorem checkFile_of_read {option path : String}
    (hread : later.tree.read later.directory path = .ok content) :
    checkFile later option path = .ok (.ofString path) := by
  obtain ⟨place, hresolve, hplace, hallow⟩ := Files.Tree.read_eq_ok_iff.mp hread
  simp [checkFile, checkReadable, Files.Tree.hasDirectory, Files.Tree.contains,
    Files.Tree.canRead, Files.Tree.find?_of_resolve hresolve, hresolve, hplace, hallow,
    Except.isOk, Except.toBool]

/-- The model that the recipe names is the one that the file was made of. -/
theorem load_updateRequest (context : Context) (hrequest : request.IsOrdinary world output)
    (hlater : later.Has world output request.model.text old content) {model : Model}
    (hload : (Model.load world.tree world.directory request.model world.machine).outcome =
      .ok model)
    (hcontent : world.tree.read world.directory request.model.text = .ok content) :
    (Model.load later.tree later.directory (updateRequest world context request output).model
      later.machine).outcome = .ok model := by
  have hordinary : IsOrdinaryText (Path.directoryPart output ++
      (writtenOptions world context request).modelName) :=
    isOrdinaryText_append.mpr ⟨Makefile.isOrdinaryText_directoryPart hrequest.output,
      isOrdinaryText_modelName hrequest⟩
  have hpath : Lacks '\x00' (updateRequest world context request output).model.text :=
    Path.lacks_text_ofString (by decide) (by decide) (hordinary.lacks (by decide))
  rw [hlater.machine_eq]
  exact Model.load_of_read hload hcontent hpath
    (Files.Tree.read_text_ofString (reads_updateLine context hrequest hlater).2)

/-- UTF-8 has all characters of ASCII. -/
theorem canWrite_of_ascii (surrogates : Text.Surrogates) {text : String}
    (htext : ∀ c ∈ text.toList, c.toNat < 0x80) :
    (Text.Encoding.utf8 surrogates).CanWrite text := by
  intro c hmem
  have hsmall := htext c hmem
  have hfirst := surrogates.isPrivate.1
  simp [Text.Encoding.utf8, Text.Surrogates.isStandIn]
  omega

theorem toNat_lt_of_utf8EncodeChar {c : Char}
    (hbytes : ∀ byte ∈ String.utf8EncodeChar c, byte.toNat < 0x80) : c.toNat < 0x80 := by
  change c.val.toNat < 0x80
  unfold String.utf8EncodeChar at hbytes
  simp only at hbytes
  split_ifs at hbytes
  · omega
  · have hlead := hbytes _ List.mem_cons_self
    simp at hlead
    omega
  · have hlead := hbytes _ List.mem_cons_self
    simp at hlead
    omega
  · have hlead := hbytes _ List.mem_cons_self
    simp at hlead
    omega

/-- The bytes of a text show that it is in ASCII. -/
theorem ascii_of_encoded {text : String} (hbytes : ∀ byte ∈ encoded text, byte.toNat < 0x80) :
    ∀ c ∈ text.toList, c.toNat < 0x80 := by
  rw [encoded_eq, List.forall_mem_flatMap] at hbytes
  exact fun c hmem ↦ toNat_lt_of_utf8EncodeChar (hbytes c hmem)

theorem ascii_stamp {moment : Time.Moment} {stamp : String} (hstamp : moment.stamp = .ok stamp) :
    ∀ c ∈ stamp.toList, c.toNat < 0x80 := by
  intro c hmem
  by_contra hlarge
  have hdigit : ¬ c.isDigit := by
    intro hdigit
    have hsmall : c.toNat ≤ 57 := (Char.isDigit_iff_toNat.mp hdigit).2
    omega
  have hsigns : ∀ c ∈ ['-', 'T', ':', ' ', 'U', 'C'], c.toNat < 0x80 := by simp
  exact Makefile.lacks_stamp hstamp hdigit (fun hsign ↦ hlarge (hsigns c hsign)) hmem

/-- Which moment a help makefile shows has no influence on whether it can be written. -/
theorem canWrite_fileText {surrogates : Text.Surrogates} {workingDirectory : String}
    {options : Makefile.Options} {model : Model} {moment : Time.Moment} {date stamp : String}
    (hdate : (Text.Encoding.utf8 surrogates).CanWrite
      (fileText workingDirectory options date model))
    (hstamp : moment.stamp = .ok stamp) :
    (Text.Encoding.utf8 surrogates).CanWrite (fileText workingDirectory options stamp model) := by
  obtain ⟨front, back, htext⟩ := Makefile.exists_fileText_eq workingDirectory options model
  rw [htext] at hdate ⊢
  simp only [Text.Encoding.canWrite_append] at hdate ⊢
  have hnow := canWrite_of_ascii surrogates (ascii_stamp hstamp)
  exact ⟨⟨⟨hdate.1.1.1, hnow⟩, hdate.1.2⟩, hdate.2⟩

/-! ### One update -/

/-- The model of a help makefile: it was loaded from the content of its file, and the help makefile
could be written, with whatever stamp. -/
structure IsModelOf (world : World) (context : Context) (request : HelpfileRequest) (model : Model)
    (content : List UInt8) : Prop where
  load : (Model.load world.tree world.directory request.model world.machine).outcome = .ok model
  read : world.tree.read world.directory request.model.text = .ok content
  canWrite : ∀ (moment : Time.Moment) (stamp : String), moment.stamp = .ok stamp →
    (Text.Encoding.utf8 world.machine.surrogates).CanWrite (fileText world.workingDirectory
      (writtenOptions world context request) stamp model)

/-- An update makes one request, unless the directory of the file looks like an option. -/
theorem readHelpfile_updateLine (context : Context) (hrequest : request.IsOrdinary world output)
    (hhyphen : (Path.directoryPart output).toList.head? ≠ some '-')
    (hlater : later.Has world output request.model.text old content) :
    readHelpfile later (helpfileArguments
        (Path.directoryPart output ++ (writtenOptions world context request).modelName)
        (Path.directoryPart output ++ (writtenOptions world context request).fileName)
        (updateRequest world context request output).makefiles request.category) =
      .ok (.work (updateRequest world context request output)) := by
  obtain ⟨hfile, hmodel⟩ := reads_updateLine context hrequest hlater
  have hfirst : (Path.directoryPart output ++
      (writtenOptions world context request).modelName).toList.head? ≠ some '-' := by
    rw [String.toList_append, List.head?_append, Option.or_of_isSome]
    · exact hhyphen
    · simpa using Path.directoryPart_ne_empty output
  exact readHelpfile_arguments hfirst (checkFile_of_read hmodel) (checkFile_of_read hfile) _ _

/-- An update makes the text that the file holds, but for the stamp. -/
theorem fileText_updateRequest_of_has {context' : Context} {model : Model}
    (hrequest : request.IsOrdinary world output)
    (hlater : later.Has world output request.model.text old content)
    (hmode : context'.colorMode = some (modeOf (writtenOptions world context request)))
    (stamp : String) :
    fileText later.workingDirectory
        (writtenOptions later context' (updateRequest world context request output)) stamp model =
      fileText world.workingDirectory (writtenOptions world context request) stamp model := by
  obtain ⟨steps, base, hcomponents, hbase⟩ := exists_base hlater
  exact fileText_updateRequest hrequest.output_eq hcomponents hbase
    (fun makefile hmakefile ↦ (hrequest.makefiles makefile hmakefile).2)
    (workingDirectory_congr hlater.directory_eq) hmode stamp model

theorem output_eq_of_has (context : Context) (hrequest : request.IsOrdinary world output)
    (hlater : later.Has world output request.model.text old content) :
    (updateRequest world context request output).output = .ofString output := by
  obtain ⟨steps, base, hcomponents, hbase⟩ := exists_base hlater
  exact output_updateRequest hrequest.output_eq hcomponents hbase

/-- What an update writes is the file that it was written in, but for the stamp; and the model stays
what it was. -/
theorem reads_of_write {tree : Files.Tree} {text : String}
    (hother : destination world.directory request.model.text ≠ destination world.directory output)
    (hlater : later.Has world output request.model.text old content)
    (hwrite : later.tree.write later.directory (Path.ofString output).text (encoded text) =
      .ok tree) :
    tree.read later.directory output = .ok (encoded text) ∧
      tree.read later.directory request.model.text = .ok content := by
  have hplace := Files.Tree.destination_text_ofString later.directory output
  refine ⟨Files.Tree.read_write_of_eq hwrite hplace.symm hlater.output,
    Files.Tree.read_write_of_ne hwrite ?_ hlater.model⟩
  rwa [hplace, hlater.directory_eq]

/-- However an update ends, it has changed no file, or written the file that it was written in, but
for the stamp. -/
theorem files_run_updateLine_cases {model : Model} (hrequest : request.IsOrdinary world output)
    (hhyphen : (Path.directoryPart output).toList.head? ≠ some '-')
    (hlater : later.Has world output request.model.text old content)
    (hmodel : IsModelOf world context request model content) :
    (run later (updateLine world context request output)).files later = later.tree ∨
      ∃ stamp, later.now.stamp = .ok stamp ∧
        later.tree.write later.directory (Path.ofString output).text (encoded (fileText
            world.workingDirectory (writtenOptions world context request) stamp model)) =
          .ok ((run later (updateLine world context request output)).files later) := by
  have hread := readHelpfile_updateLine context hrequest hhyphen hlater
  rcases (conclusion_run later (updateLine world context request output)).files_cases
    (commandName?_commandLine ..) with
    hsame | ⟨context', made, text, bytes, hrequests, htext, hwrite, hbytes⟩
  · exact .inl hsame
  · obtain ⟨rfl, hmode⟩ := eq_of_requestsHelpfile hread hrequests
    obtain ⟨model', stamp, hload, hnow, rfl⟩ :=
      outcome_makeHelpfile_eq_ok_iff.mp (isHelpfileFor_iff_makeHelpfile.mp htext)
    have hagain := load_updateRequest context hrequest hlater hmodel.load hmodel.read
    obtain rfl : model' = model := Except.ok.inj (hload.symm.trans hagain)
    rw [fileText_updateRequest_of_has hrequest hlater hmode] at hbytes
    rw [output_eq_of_has context hrequest hlater,
      hbytes (hlater.machine_eq ▸ hmodel.canWrite _ _ hnow)] at hwrite
    exact .inr ⟨stamp, hnow, hwrite⟩

/-- An update that succeeds has written the file with the stamp of its own moment. -/
theorem write_of_run {model : Model} (hrequest : request.IsOrdinary world output)
    (hhyphen : (Path.directoryPart output).toList.head? ≠ some '-')
    (hlater : later.Has world output request.model.text old content)
    (hmodel : IsModelOf world context request model content) {success : Success}
    (hrun : (run later (updateLine world context request output)).outcome = .ok success) :
    ∃ stamp, later.now.stamp = .ok stamp ∧
      later.tree.write later.directory (Path.ofString output).text (encoded (fileText
        world.workingDirectory (writtenOptions world context request) stamp model)) =
          .ok success.tree := by
  rw [updateLine, outcome_run_commandLine (readHelpfile_updateLine context hrequest hhyphen hlater),
    bind_eq_ok_iff] at hrun
  obtain ⟨context', hcontext, hhelpfile⟩ := hrun
  obtain ⟨-, model', stamp, hload, hstamp, -, hwrite⟩ :=
    exists_success_iff.mp ⟨success, hhelpfile, rfl⟩
  have hagain := load_updateRequest context hrequest hlater hmodel.load hmodel.read
  obtain rfl : model' = model := Except.ok.inj (hload.symm.trans hagain)
  rw [output_eq_of_has context hrequest hlater,
    fileText_updateRequest_of_has hrequest hlater (colorMode_of_makeContext hcontext)] at hwrite
  exact ⟨stamp, hstamp, hwrite⟩

/-- An update succeeds in a world that is ready for it. -/
theorem exists_success_of_isReady {model : Model} (hrequest : request.IsOrdinary world output)
    (hhyphen : (Path.directoryPart output).toList.head? ≠ some '-')
    (hlater : later.Has world output request.model.text old content)
    (hmodel : IsModelOf world context request model content) (hready : later.IsReady output) :
    ∃ success, (run later (updateLine world context request output)).outcome = .ok success := by
  obtain ⟨context', hcontext, hmode⟩ :=
    hready.exists_context (modeOf (writtenOptions world context request))
  obtain ⟨stamp, hstamp⟩ := hready.moment
  obtain ⟨place, hresolve, hplace, -⟩ := Files.Tree.read_eq_ok_iff.mp hlater.output
  have hwritable := Files.Tree.writable_of_resolve hlater.sound hresolve hplace
  have hallow : later.tree.allow place .write = .ok () := by
    cases hrefusal : later.tree.refusals.lookup (place, .write) with
    | none => rw [Files.Tree.allow, hrefusal]
    | some refusal =>
      rw [Files.Tree.allow, hrefusal] at hwritable
      exact absurd hwritable (hready.unrefused refusal)
  have hcan := hlater.machine_eq ▸ hmodel.canWrite _ _ hstamp
  obtain ⟨success, hsuccess, -⟩ := exists_success_iff.mpr
    ⟨(output_eq_of_has context hrequest hlater).symm ▸ hready.notice context'.console, model, stamp,
      load_updateRequest context hrequest hlater hmodel.load hmodel.read, hstamp,
      (fileText_updateRequest_of_has hrequest hlater hmode stamp).symm ▸ hcan, by
        rw [output_eq_of_has context hrequest hlater, Files.Tree.write, hwritable, hallow]
        rfl⟩
  refine ⟨success, ?_⟩
  rw [updateLine, outcome_run_commandLine (readHelpfile_updateLine context hrequest hhyphen hlater),
    hcontext]
  exact hsuccess

/-- Where the directory of the file looks like an option, an update changes no file. -/
theorem files_run_updateLine (hrequest : request.IsOrdinary world output)
    (hhyphen : (Path.directoryPart output).toList.head? = some '-') :
    (run later (updateLine world context request output)).files later = later.tree := by
  obtain ⟨rest, hdirectory⟩ := List.head?_eq_some_iff.mp hhyphen
  have hslash : '/' ∈ rest := by simpa [hdirectory] using Path.slash_mem_directoryPart output
  have hordinary : IsOrdinaryText (Path.directoryPart output ++
      (writtenOptions world context request).modelName) :=
    isOrdinaryText_append.mpr ⟨Makefile.isOrdinaryText_directoryPart hrequest.output,
      isOrdinaryText_modelName hrequest⟩
  have hmodel : (Path.directoryPart output ++
      (writtenOptions world context request).modelName).toList =
        '-' :: (rest ++ (writtenOptions world context request).modelName.toList) := by
    rw [String.toList_append, hdirectory, List.cons_append]
  have hequals := hordinary.lacks (c := '=') (by decide)
  rw [Lacks, hmodel, List.mem_cons, not_or] at hequals
  exact files_run_commandLine hmodel (List.mem_append_left _ hslash) hequals.2 _ _ _ _

/-- Where the model is no model any more, but a text that begins with a number sign, an update
changes no file. -/
theorem files_run_updateLine_of_numberSign {rest : List UInt8}
    (hrequest : request.IsOrdinary world output)
    (hlater : later.Has world output request.model.text old (35 :: rest)) :
    (run later (updateLine world context request output)).files later = later.tree := by
  by_cases hhyphen : (Path.directoryPart output).toList.head? = some '-'
  · exact files_run_updateLine hrequest hhyphen
  · rcases (conclusion_run later (updateLine world context request output)).files_cases
      (commandName?_commandLine ..) with
        hsame | ⟨context', made, text, bytes, hrequests, ⟨model, hload, -⟩, -⟩
    · exact hsame
    · obtain ⟨rfl, -⟩ := eq_of_requestsHelpfile
        (readHelpfile_updateLine context hrequest hhyphen hlater) hrequests
      have hread := Files.Tree.read_text_ofString (reads_updateLine context hrequest hlater).2
      exact absurd hload (Model.load_numberSign hread _ model)

end Update

end HelpSheet.Command
