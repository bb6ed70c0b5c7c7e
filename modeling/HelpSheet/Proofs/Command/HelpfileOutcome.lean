import HelpSheet.Proofs.Command.Effects
import HelpSheet.Proofs.Makefile.Lines
import HelpSheet.Proofs.Model.Loading

/-!
# The outcome of generating a help makefile

The command succeeds where the model can be loaded, the clock has a stamp, the output can be written
and a notice of it printed, and the file that it leaves is made of the request, the model and the
stamp (`exists_success_iff`). The settings and the environment have a say in its color mode only.
-/

set_option autoImplicit false
set_option relaxedAutoImplicit false

namespace HelpSheet.Command

open Makefile (fileText)

/-! ### What the command writes -/

/-- A help makefile begins with a comment. -/
theorem exists_encoded_fileText (workingDirectory : String) (options : Makefile.Options)
    (stamp : String) (model : Model) :
    ∃ rest, encoded (fileText workingDirectory options stamp model) = 35 :: rest := by
  obtain ⟨back, hback⟩ : ∃ back, (fileText workingDirectory options stamp model).toList =
      '#' :: back := ⟨_, Makefile.fileText_toList ..⟩
  have htext : fileText workingDirectory options stamp model = "#" ++ String.ofList back := by
    rw [← String.toList_inj, hback]
    simp
  have hsign : encoded "#" = [35] := by decide
  exact ⟨encoded (String.ofList back), by rw [htext, encoded_append, hsign]; rfl⟩

/-- Whether the command uses color. -/
def helpfileColor (world : World) (context : Context) : Bool :=
  Terminal.useColor context.colorMode (some Format.make.name) context.settings.color
    world.environment false

/-- The options of the file that the command writes. -/
def writtenOptions (world : World) (context : Context) (request : HelpfileRequest) :
    Makefile.Options :=
  makefileOptions world request (helpfileColor world context)

/-! ### The command -/

theorem hasShortPlaces_of_load {world : World} {path : Path} {model : Model}
    (hload : (Model.load world.tree world.directory path world.machine).outcome = .ok model) :
    Makefile.HasShortPlaces model.targets :=
  fun target htarget _ ↦ Model.isShort_lineNumber_of_load hload target htarget

/-- Warnings and notes apart, the text is made of the model and the time. -/
theorem outcome_makeHelpfile (world : World) (context : Context) (request : HelpfileRequest) :
    (makeHelpfile world context request).outcome =
      (requireModel world request.model).outcome.bind fun _ ↦
        (loadModel world request.model).outcome.bind fun model ↦
          (world.now.stamp.mapError fun error ↦ .breakdown (.date error)).map fun stamp ↦
            fileText world.workingDirectory (writtenOptions world context request) stamp model := by
  have hcolor : (chooseColor world context .make false).outcome =
      .ok (helpfileColor world context) := rfl
  have hwarn : ∀ text, (warn context.console text).outcome = .ok () := fun _ ↦ rfl
  have htail : ∀ rest : Run String, (if request.makefiles.isEmpty then
      warn context.console noMakefileWarning >>= fun _ ↦ rest else rest).outcome =
        rest.outcome := by
    intro rest
    split
    · rw [Log.Traced.outcome_bind, hwarn]
      rfl
    · rfl
  unfold makeHelpfile
  simp only [Log.Traced.outcome_bind]
  congr 1
  funext _
  refine (htail _).trans ?_
  simp only [Log.Traced.outcome_bind, hcolor, outcome_lift, Except.bind, ← writtenOptions.eq_def,
    loadModel]
  cases hload : (Model.load world.tree world.directory request.model world.machine).outcome with
  | error error => rfl
  | ok model =>
    have hgenerate := Makefile.outcome_generate world.workingDirectory world.now
      (writtenOptions world context request) (hasShortPlaces_of_load hload)
    have hmoment : (writtenOptions world context request).generatedAt.getD world.now = world.now :=
      rfl
    simp only [mapError_ok, hgenerate, hmoment]
    cases world.now.stamp <;> rfl

theorem look_of_read {tree : Files.Tree} {directory : Files.Place} {path : String}
    {content : List UInt8} (hread : tree.read directory path = .ok content) :
    tree.look directory path = .ok (some (.file content)) := by
  obtain ⟨place, hresolve, hnode, -⟩ := Files.Tree.read_eq_ok_iff.mp hread
  rw [Files.Tree.look, hresolve]
  exact congrArg _ hnode

theorem requireModel_of_load {world : World} {path : Path} {model : Model}
    (hload : (Model.load world.tree world.directory path world.machine).outcome = .ok model) :
    (requireModel world path).outcome = .ok () := by
  obtain ⟨content, hread⟩ := Model.exists_read_of_load hload
  rw [requireModel, look_of_read hread]
  rfl

/-- The text is made where the model can be loaded and the clock has a stamp. -/
theorem outcome_makeHelpfile_eq_ok_iff {world : World} {context : Context}
    {request : HelpfileRequest} {text : String} :
    (makeHelpfile world context request).outcome = .ok text ↔
      ∃ model stamp,
        (Model.load world.tree world.directory request.model world.machine).outcome = .ok model ∧
        world.now.stamp = .ok stamp ∧
        fileText world.workingDirectory (writtenOptions world context request) stamp model =
          text := by
  simp only [outcome_makeHelpfile, bind_eq_ok_iff, map_eq_ok_iff, mapError_eq_ok_iff,
    loadModel, outcome_lift]
  constructor
  · rintro ⟨-, -, model, hload, stamp, hstamp, htext⟩
    exact ⟨model, stamp, hload, hstamp, htext⟩
  · rintro ⟨model, stamp, hload, hstamp, htext⟩
    exact ⟨(), requireModel_of_load hload, model, hload, stamp, hstamp, htext⟩

/-- Notes apart, the command makes the text, writes it and prints a notice. -/
theorem outcome_helpfile (world : World) (context : Context) (request : HelpfileRequest) :
    (helpfile world context request).outcome =
      (makeHelpfile world context request).outcome.bind fun text ↦
        (writeFile world request.output (deliverTexts world.fileSink [text])).outcome.bind
          fun tree ↦
            (finish (deliverTexts world.notices
              [writtenNotice context.console request.output]).ending).outcome.map fun _ ↦
                { tree } := by
  unfold helpfile
  simp only [Log.Traced.outcome_bind, outcome_print]
  rfl

/-- The command succeeds where the model can be loaded, the clock has a stamp, UTF-8 has all
characters of the text, the output can be written and the notice can be printed; and then it writes
the file with the model and the stamp. -/
theorem exists_success_iff {world : World} {context : Context} {request : HelpfileRequest}
    {tree : Files.Tree} :
    (∃ success, (helpfile world context request).outcome = .ok success ∧ success.tree = tree) ↔
      Takes world.notices [writtenNotice context.console request.output] ∧
        ∃ model stamp,
          (Model.load world.tree world.directory request.model world.machine).outcome =
            .ok model ∧
          world.now.stamp = .ok stamp ∧
          (Text.Encoding.utf8 world.machine.surrogates).CanWrite (fileText
            world.workingDirectory (writtenOptions world context request) stamp model) ∧
          world.tree.write world.directory request.output.text (encoded (fileText
            world.workingDirectory (writtenOptions world context request) stamp model)) =
              .ok tree := by
  have hnotice : ∀ tree success, (finish (deliverTexts world.notices
      [writtenNotice context.console request.output]).ending).outcome.map
        (fun _ ↦ ({ tree } : Success)) = .ok success ↔
          Takes world.notices [writtenNotice context.console request.output] ∧
            { tree } = success := by
    intro tree success
    rw [outcome_finish, Takes]
    split <;> simp_all [Except.map]
  simp only [outcome_helpfile, bind_eq_ok_iff, hnotice, outcome_makeHelpfile_eq_ok_iff,
    outcome_writeFile_text_eq_ok_iff]
  constructor
  · rintro ⟨success, ⟨text, ⟨model, stamp, hload, hstamp, rfl⟩, written, ⟨hencodes, hwrite⟩,
      htakes, rfl⟩, rfl⟩
    exact ⟨htakes, model, stamp, hload, hstamp, hencodes, hwrite⟩
  · rintro ⟨htakes, model, stamp, hload, hstamp, hencodes, hwrite⟩
    exact ⟨_, ⟨_, ⟨model, stamp, hload, hstamp, rfl⟩, tree, ⟨hencodes, hwrite⟩, htakes, rfl⟩, rfl⟩

/-! ### Contexts -/

/-- A world in which nothing around a command keeps it from writing a file: the environment asks for
a level that there is, the settings can be loaded, the clock has a stamp, nothing refuses the
output, and the notice of it can be printed. -/
structure World.IsReady (world : World) (output : String) : Prop where
  level : (checkLevel world).outcome = .ok ()
  settings : ∃ settings, (loadSettings world none).outcome = .ok settings
  moment : ∃ stamp, world.now.stamp = .ok stamp
  unrefused : ∀ refusal, world.tree.writable world.directory (Path.ofString output).text ≠
    .error (.refused refusal)
  notice : ∀ console, Takes world.notices [writtenNotice console (.ofString output)]

theorem World.IsReady.exists_context {world : World} {output : String}
    (hready : world.IsReady output) (mode : Terminal.ColorMode) :
    ∃ context, (makeContext world { color := some mode, config := none }).outcome = .ok context ∧
      context.colorMode = some mode := by
  obtain ⟨settings, hsettings⟩ := hready.settings
  have hnotes : ∀ notes, (addNotes notes : Run Unit).outcome = .ok () := fun _ ↦ rfl
  let color :=
    Terminal.useColor (some mode) none none world.environment world.outputIsTerminal
  refine ⟨{ colorMode := some mode, settings, console := ⟨color⟩ }, ?_, rfl⟩
  simp only [makeContext, Log.Traced.outcome_bind, hready.level, hnotes, hsettings, Except.bind]
  rfl

theorem colorMode_of_makeContext {world : World} {choices : ProgramChoices} {context : Context}
    (hcontext : (makeContext world choices).outcome = .ok context) :
    context.colorMode = choices.color := by
  simp only [makeContext, Log.Traced.outcome_bind] at hcontext
  cases hlevel : (checkLevel world).outcome with
  | error failure => simp [hlevel, Except.bind] at hcontext
  | ok _ =>
    cases hsettings : (loadSettings world choices.config).outcome with
    | error failure =>
      simp [hlevel, hsettings, addNotes, Log.Traced.addNotes, Except.bind] at hcontext
    | ok settings =>
      simp only [hlevel, hsettings, addNotes, Log.Traced.addNotes, Except.bind,
        Log.Traced.outcome_pure, Except.ok.injEq] at hcontext
      rw [← hcontext]

end HelpSheet.Command
