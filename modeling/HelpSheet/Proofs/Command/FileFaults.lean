import Mathlib.Logic.Unique
import HelpSheet.Proofs.Command.InputFiles
import HelpSheet.Proofs.Command.WrittenFiles

/-!
# Faults of input files

A run comes upon settings files, first those that it looks into on its way, and then upon a model
(`Meets`). One that cannot be loaded ends the run with its failure (`run_of_meets`). So where a file
has a documented error, the exit code is the one of its kind; where its content is unforeseen, the
run fails on it in another way, and it does so for no other file (`exists_failure_of_file_iff`). A
model that was loaded still makes the run fail if it holds characters that the text made of it
cannot be written with (`IsUnencodable`).
-/

set_option autoImplicit false
set_option relaxedAutoImplicit false

namespace HelpSheet

/-! ### Looking for settings -/

namespace Settings

variable {tree : Files.Tree} {directory : Files.Place} {machine : Machine}
  {candidates : List Path} {path : Path} {error : LoadError}

/-- The settings files that are looked into in a list of directories: the file of the settings alone
in the first directory that has one, and the shared files before it. -/
inductive Visits (tree : Files.Tree) (directory : Files.Place) (machine : Machine) :
    List Path → Path → Prop
  | own {candidate : Path} {rest : List Path}
      (hown : seesFile tree directory (candidate.child ownFileName) = .ok true) :
      Visits tree directory machine (candidate :: rest) (candidate.child ownFileName)
  | shared {candidate : Path} {rest : List Path}
      (hown : seesFile tree directory (candidate.child ownFileName) = .ok false)
      (hshared : seesFile tree directory (candidate.child sharedFileName) = .ok true) :
      Visits tree directory machine (candidate :: rest) (candidate.child sharedFileName)
  | later {candidate : Path} {rest : List Path} {path : Path}
      (hnone : fileIn tree directory candidate machine = .ok none)
      (hvisits : Visits tree directory machine rest path) :
      Visits tree directory machine (candidate :: rest) path

/-- What a directory holds: the file of the settings alone, or a shared file, which fails, has no
settings table or has one, or no settings file at all, or what cannot be seen. -/
inductive Holds (tree : Files.Tree) (directory : Files.Place) (machine : Machine)
    (candidate : Path) : Prop
  | own (hown : seesFile tree directory (candidate.child ownFileName) = .ok true)
      (hfile : fileIn tree directory candidate machine = .ok (some (candidate.child ownFileName)))
  | failing {error : LoadError}
      (hown : seesFile tree directory (candidate.child ownFileName) = .ok false)
      (hshared : seesFile tree directory (candidate.child sharedFileName) = .ok true)
      (htable : findTable tree directory (candidate.child sharedFileName) machine = .error error)
      (hfile : fileIn tree directory candidate machine = .error error)
  | without (hown : seesFile tree directory (candidate.child ownFileName) = .ok false)
      (htable : findTable tree directory (candidate.child sharedFileName) machine = .ok none)
      (hfile : fileIn tree directory candidate machine = .ok none)
  | shared (hown : seesFile tree directory (candidate.child ownFileName) = .ok false)
      (hshared : seesFile tree directory (candidate.child sharedFileName) = .ok true)
      (hfile : fileIn tree directory candidate machine =
        .ok (some (candidate.child sharedFileName)))
  | neither (hown : seesFile tree directory (candidate.child ownFileName) = .ok false)
      (hshared : seesFile tree directory (candidate.child sharedFileName) = .ok false)
      (hfile : fileIn tree directory candidate machine = .ok none)
  | unseen {cause : Files.Error}
      (hnot : seesFile tree directory (candidate.child ownFileName) ≠ .ok true ∧
        (seesFile tree directory (candidate.child ownFileName) = .ok false →
          seesFile tree directory (candidate.child sharedFileName) ≠ .ok true))
      (hfile : fileIn tree directory candidate machine = .error (.unseen cause))

theorem exists_unseen_of_seesFile (hfails : seesFile tree directory path = .error error) :
    ∃ cause, error = .unseen cause := by
  unfold seesFile at hfails
  split at hfails
  · next cause _ => exact ⟨cause, (Except.error.inj hfails).symm⟩
  · cases hfails
  · cases hfails

theorem holds (tree : Files.Tree) (directory : Files.Place) (machine : Machine)
    (candidate : Path) : Holds tree directory machine candidate := by
  cases hown : seesFile tree directory (candidate.child ownFileName) with
  | error error =>
    obtain ⟨cause, rfl⟩ := exists_unseen_of_seesFile hown
    have hfile : fileIn tree directory candidate machine = .error (.unseen cause) := by
      simp [fileIn, hown, bind, Except.bind]
    exact .unseen (by simp [hown]) hfile
  | ok own =>
    cases own with
    | true => exact .own hown (by simp [fileIn, hown, bind, Except.bind, pure, Except.pure])
    | false =>
      cases hshared : seesFile tree directory (candidate.child sharedFileName) with
      | error error =>
        obtain ⟨cause, rfl⟩ := exists_unseen_of_seesFile hshared
        have hfile : fileIn tree directory candidate machine = .error (.unseen cause) := by
          simp [fileIn, hown, hshared, bind, Except.bind]
        exact .unseen (by simp [hown, hshared]) hfile
      | ok shared =>
        cases shared with
        | false =>
          exact .neither hown hshared
            (by simp [fileIn, hown, hshared, bind, Except.bind, pure, Except.pure])
        | true =>
          cases htable : findTable tree directory (candidate.child sharedFileName) machine with
          | error error =>
            exact .failing hown hshared htable
              (by simp [fileIn, hown, hshared, htable, bind, Except.bind, Except.map])
          | ok found =>
            cases found with
            | none =>
              exact .without hown htable
                (by simp [fileIn, hown, hshared, htable, bind, Except.bind, Except.map])
            | some table =>
              exact .shared hown hshared
                (by simp [fileIn, hown, hshared, htable, bind, Except.bind, Except.map])

/-- The file that is found was looked into. -/
theorem visits_of_firstFileIn
    (hfound : firstFileIn tree directory machine candidates = .ok (some path)) :
    Visits tree directory machine candidates path := by
  induction candidates with
  | nil => cases hfound
  | cons candidate rest ih =>
    rw [firstFileIn] at hfound
    cases holds tree directory machine candidate with
    | own hown hfile =>
      rw [hfile] at hfound
      cases hfound
      exact .own hown
    | failing hown hshared htable hfile =>
      rw [hfile] at hfound
      cases hfound
    | without hown htable hfile =>
      rw [hfile] at hfound
      exact .later hfile (ih hfound)
    | shared hown hshared hfile =>
      rw [hfile] at hfound
      cases hfound
      exact .shared hown hshared
    | neither hown hshared hfile =>
      rw [hfile] at hfound
      exact .later hfile (ih hfound)
    | unseen hnot hfile =>
      rw [hfile] at hfound
      cases hfound

/-- A search that fails has looked into a file that cannot be loaded, or come to one that cannot be
seen. -/
theorem exists_visits_of_firstFileIn_error
    (hfails : firstFileIn tree directory machine candidates = .error error) :
    (∃ cause, error = .unseen cause) ∨
      ∃ path, Visits tree directory machine candidates path ∧
        (load tree directory path machine).outcome = .error error := by
  induction candidates with
  | nil => cases hfails
  | cons candidate rest ih =>
    have hlater (hfile : fileIn tree directory candidate machine = .ok none)
        (hrest : firstFileIn tree directory machine rest = .error error) :
        (∃ cause, error = .unseen cause) ∨
          ∃ path, Visits tree directory machine (candidate :: rest) path ∧
            (load tree directory path machine).outcome = .error error := by
      rcases ih hrest with hunseen | ⟨path, hvisits, hload⟩
      · exact .inl hunseen
      · exact .inr ⟨path, .later hfile hvisits, hload⟩
    rw [firstFileIn] at hfails
    cases holds tree directory machine candidate with
    | own hown hfile =>
      rw [hfile] at hfails
      cases hfails
    | failing hown hshared htable hfile =>
      rw [hfile] at hfails
      obtain rfl := Except.error.inj hfails
      exact .inr ⟨_, .shared hown hshared, load_of_findTable_error htable⟩
    | without hown htable hfile =>
      rw [hfile] at hfails
      exact hlater hfile hfails
    | shared hown hshared hfile =>
      rw [hfile] at hfails
      cases hfails
    | neither hown hshared hfile =>
      rw [hfile] at hfails
      exact hlater hfile hfails
    | unseen hnot hfile =>
      rw [hfile] at hfails
      exact .inl ⟨_, (Except.error.inj hfails).symm⟩

/-- The search fails on a file that cannot be loaded, or ends with it. -/
theorem firstFileIn_of_visits (hvisits : Visits tree directory machine candidates path)
    (hload : (load tree directory path machine).outcome = .error error) :
    firstFileIn tree directory machine candidates = .error error ∨
      firstFileIn tree directory machine candidates = .ok (some path) := by
  induction hvisits with
  | @own candidate rest hown =>
    right
    simp [firstFileIn, fileIn, hown, bind, Except.bind, pure, Except.pure]
  | @shared candidate rest hown hshared =>
    rw [firstFileIn]
    cases holds tree directory machine candidate with
    | own hown' => simp [hown] at hown'
    | failing hown hshared htable hfile =>
      rw [load_of_findTable_error htable] at hload
      rw [hfile, Except.error.inj hload]
      exact .inl rfl
    | without hown htable hfile =>
      rw [load, Log.Traced.outcome_bind, htable] at hload
      cases hload
    | shared hown hshared hfile =>
      rw [hfile]
      exact .inr rfl
    | neither hown hshared' => simp [hshared] at hshared'
    | unseen hnot => exact absurd hshared (hnot.2 hown)
  | later hnone hvisits ih =>
    rw [firstFileIn, hnone]
    exact ih hload

end Settings

namespace Command

/-! ### Files that cannot be loaded -/

/-- A file that the program reads. -/
inductive InputFile
  | model (path : Path)
  | settings (path : Path)

namespace InputFile

/-- The exit status of the documented errors of a file. -/
def status : InputFile → ExitStatus
  | model _ => .data
  | settings _ => .settings

/-- The failure to load a file, if it cannot be loaded. -/
def failure? (world : World) : InputFile → Option Failure
  | model path =>
    match (Model.load world.tree world.directory path world.machine).outcome with
    | .ok _ => none
    | .error error => some (modelFailure error)
  | settings path =>
    match (Settings.load world.tree world.directory path world.machine).outcome with
    | .ok _ => none
    | .error error => some (settingsFailure error)

/-- Whether no documented error covers a file: its path holds a null character, or its content is
unforeseen. -/
def IsUnforeseen (world : World) : InputFile → Prop
  | model path => '\x00' ∈ path.text.toList ∨
      ∃ content, world.tree.read world.directory path.text = .ok content ∧
        Model.IsUnforeseen world.machine content
  | settings path => '\x00' ∈ path.text.toList ∨
      ∃ content, world.tree.read world.directory path.text = .ok content ∧
        Settings.IsUnforeseen world.machine content

end InputFile

/-- Whether a breakdown lies in a file, rather than in the environment or the clock. -/
def Breakdown.IsOfFile : Breakdown → Prop
  | notText _ => True
  | excess _ => True
  | conflict _ => True
  | level _ => False
  | date _ => False

/-- Whether a failure without an exit status of its own lies in a file that is read, or in what is
made of it. The others lie in the environment, in the clock, in what the system refuses, and in the
sinks. -/
def Failure.IsOfFile : Failure → Prop
  | breakdown cause => cause.IsOfFile
  | notPath _ => True
  | givenUp _ => True
  | unmade _ => True
  | unwritten (.broken _) => True
  | unwritten (.missing _) => True
  | _ => False

variable {world : World} {arguments : List String} {file : InputFile} {failure : Failure}
  {path : Path}

/-- A documented error of a model file is a problem with its data. -/
theorem modelFailure_cases (error : Model.LoadError) :
    (error.IsDocumented ∧ ∃ message, modelFailure error = .problem .data message) ∨
      (¬ error.IsDocumented ∧ (modelFailure error).IsOfFile) := by
  cases error with
  | unreadable path error => exact .inl ⟨trivial, _, rfl⟩
  | notJson path error => exact .inl ⟨trivial, _, rfl⟩
  | shape error => exact .inl ⟨trivial, _, rfl⟩
  | notPath fault => exact .inr ⟨id, trivial⟩
  | notText error => exact .inr ⟨id, trivial⟩
  | excess found => exact .inr ⟨id, trivial⟩

theorem settingsFailure_cases (error : Settings.LoadError) :
    (error.IsDocumented ∧ ∃ message, settingsFailure error = .problem .settings message) ∨
      (∃ cause, error = .unseen cause) ∨
      (¬ error.IsDocumented ∧ (settingsFailure error).IsOfFile) := by
  cases error with
  | unreadable path error => exact .inl ⟨trivial, _, rfl⟩
  | notToml path => exact .inl ⟨trivial, _, rfl⟩
  | notTable path => exact .inl ⟨trivial, _, rfl⟩
  | invalid error => exact .inl ⟨trivial, _, rfl⟩
  | unseen cause => exact .inr (.inl ⟨cause, rfl⟩)
  | notPath fault => exact .inr (.inr ⟨id, trivial⟩)
  | notText error => exact .inr (.inr ⟨id, trivial⟩)
  | conflict cause => exact .inr (.inr ⟨id, trivial⟩)
  | givenUp message => exact .inr (.inr ⟨id, trivial⟩)

/-- A file is loaded, or there is a documented error, or no documented error covers it. -/
theorem InputFile.failure_cases (world : World) (file : InputFile) :
    (¬ file.IsUnforeseen world ∧ file.failure? world = none) ∨
      (¬ file.IsUnforeseen world ∧
        ∃ message, file.failure? world = some (.problem file.status message)) ∨
      (file.IsUnforeseen world ∧
        ∃ failure, failure.IsOfFile ∧ file.failure? world = some failure) := by
  cases file with
  | model path =>
    rw [IsUnforeseen, ← Model.exists_undocumented_iff, failure?]
    cases (Model.load world.tree world.directory path world.machine).outcome with
    | ok model => simp
    | error error =>
      rcases modelFailure_cases error with ⟨hdocumented, message, hfailure⟩ | ⟨hother, hfailure⟩
      · exact .inr (.inl ⟨by simpa using hdocumented, message, congrArg some hfailure⟩)
      · exact .inr (.inr ⟨⟨error, rfl, hother⟩, _, hfailure, rfl⟩)
  | settings path =>
    rw [IsUnforeseen, ← Settings.exists_undocumented_iff, failure?]
    cases hload : (Settings.load world.tree world.directory path world.machine).outcome with
    | ok settings => simp
    | error error =>
      rcases settingsFailure_cases error with
        ⟨hdocumented, message, hfailure⟩ | ⟨cause, rfl⟩ | ⟨hother, hfailure⟩
      · exact .inr (.inl ⟨by simpa using hdocumented, message, congrArg some hfailure⟩)
      · exact absurd hload (Settings.load_ne_unseen cause)
      · exact .inr (.inr ⟨⟨error, rfl, hother⟩, _, hfailure, rfl⟩)

/-! ### Files that are met -/

/-- The settings files that the program looks into: the one asked for, or those on the way up from
the working directory. -/
inductive Consults (world : World) : Option Path → Path → Prop
  | asked (path : Path) : Consults world (some path) path
  | found {path : Path} (hvisits : Settings.Visits world.tree world.directory world.machine
      (Path.ofString world.workingDirectory).andParents path) : Consults world none path

/-- The choices before the command, where settings count. -/
def Invocation.choices? : Invocation → Option ProgramChoices
  | help => none
  | hint choices => some choices
  | command choices _ _ => some choices

/-- The files that a run comes upon: settings once the arguments are read, and a model once the
context is made, the request is read, the model is there and a format is chosen. -/
inductive Meets (world : World) (arguments : List String) : InputFile → Prop
  | settings {invocation : Invocation} {choices : ProgramChoices} {path : Path}
      (hread : readInvocation world arguments = .ok invocation)
      (hchoices : invocation.choices? = some choices)
      (hlevel : (checkLevel world).outcome = .ok ())
      (hconsults : Consults world choices.config path) : Meets world arguments (.settings path)
  | render {context : Context} {request : RenderRequest} {format : Format}
      (hrequests : RequestsPage world arguments context request)
      (hmodel : (requireModel world request.model).outcome = .ok ())
      (hformat : (chooseFormat context.settings request.format).outcome = .ok format) :
      Meets world arguments (.model request.model)
  | helpfile {context : Context} {request : HelpfileRequest}
      (hrequests : RequestsHelpfile world arguments context request)
      (hmodel : (requireModel world request.model).outcome = .ok ()) :
      Meets world arguments (.model request.model)

theorem loadModel_eq_error_iff :
    (loadModel world path).outcome = .error failure ↔
      (InputFile.model path).failure? world = some failure := by
  rw [loadModel, outcome_lift, InputFile.failure?]
  cases (Model.load world.tree world.directory path world.machine).outcome <;> simp

theorem loadSettings_of_settingsFile {asked : Option Path}
    (hfile : (settingsFile world asked).outcome = .ok (some path)) :
    (loadSettings world asked).outcome = .error failure ↔
      (InputFile.settings path).failure? world = some failure := by
  rw [loadSettings, Log.Traced.outcome_bind, hfile, InputFile.failure?]
  change (lift settingsFailure
    (Settings.load world.tree world.directory path world.machine) >>= _).outcome = _ ↔ _
  rw [Log.Traced.outcome_bind, outcome_lift]
  cases (Settings.load world.tree world.directory path world.machine).outcome with
  | error error => simp [Except.bind]
  | ok settings => simp [Except.bind, addNotes, Log.Traced.addNotes]

theorem outcome_settingsFile_none (world : World) :
    (settingsFile world none).outcome =
      (Settings.firstFileIn world.tree world.directory world.machine
        (Path.ofString world.workingDirectory).andParents).mapError settingsFailure := by
  rw [settingsFile, outcome_lift]
  rfl

/-- Settings fail on a file that was looked into, or because a file cannot be seen. -/
theorem exists_consults_of_loadSettings {asked : Option Path}
    (hfails : (loadSettings world asked).outcome = .error failure) :
    (∃ cause, failure = .unseen cause) ∨
      ∃ path, Consults world asked path ∧
        (InputFile.settings path).failure? world = some failure := by
  cases asked with
  | some path => exact .inr ⟨path, .asked path, (loadSettings_of_settingsFile rfl).mp hfails⟩
  | none =>
    have hfile := outcome_settingsFile_none world
    cases hfirst : Settings.firstFileIn world.tree world.directory world.machine
        (Path.ofString world.workingDirectory).andParents with
    | error error =>
      rw [hfirst, mapError_error] at hfile
      rw [loadSettings, Log.Traced.outcome_bind, hfile] at hfails
      obtain rfl := Except.error.inj hfails
      rcases Settings.exists_visits_of_firstFileIn_error hfirst with
        ⟨cause, rfl⟩ | ⟨path, hvisits, hload⟩
      · exact .inl ⟨cause, rfl⟩
      · exact .inr ⟨path, .found hvisits, by rw [InputFile.failure?, hload]⟩
    | ok found =>
      rw [hfirst, mapError_ok] at hfile
      cases found with
      | none =>
        rw [loadSettings, Log.Traced.outcome_bind, hfile] at hfails
        cases hfails
      | some path =>
        exact .inr ⟨path, .found (Settings.visits_of_firstFileIn hfirst),
          (loadSettings_of_settingsFile hfile).mp hfails⟩

theorem loadSettings_of_consults {asked : Option Path} (hconsults : Consults world asked path)
    (hfailure : (InputFile.settings path).failure? world = some failure) :
    (loadSettings world asked).outcome = .error failure := by
  cases hconsults with
  | asked => exact (loadSettings_of_settingsFile rfl).mpr hfailure
  | found hvisits =>
    have hfile := outcome_settingsFile_none world
    cases hload : (Settings.load world.tree world.directory path world.machine).outcome with
    | ok settings =>
      rw [InputFile.failure?, hload] at hfailure
      cases hfailure
    | error error =>
      rcases Settings.firstFileIn_of_visits hvisits hload with hfirst | hfirst
      · rw [hfirst, mapError_error] at hfile
        rw [InputFile.failure?, hload] at hfailure
        rw [loadSettings, Log.Traced.outcome_bind, hfile, ← Option.some.inj hfailure]
        rfl
      · rw [hfirst, mapError_ok] at hfile
        exact (loadSettings_of_settingsFile hfile).mpr hfailure

/-- A context fails where the level does or, behind it, the settings do. -/
theorem makeContext_eq_error_iff {choices : ProgramChoices} :
    (makeContext world choices).outcome = .error failure ↔
      (checkLevel world).outcome = .error failure ∨ (checkLevel world).outcome = .ok () ∧
        (loadSettings world choices.config).outcome = .error failure := by
  have houtcome : (makeContext world choices).outcome = (checkLevel world).outcome.bind fun _ ↦
      (loadSettings world choices.config).outcome.bind fun settings ↦
        .ok
          { colorMode := choices.color, settings
            console := ⟨Terminal.useColor choices.color none none world.environment
              world.outputIsTerminal⟩ } := by
    simp only [makeContext, Log.Traced.outcome_bind]
    rfl
  simp [houtcome, bind_eq_error_iff, Unique.exists_iff]

/-- A run of a command fails where its context or the command does. -/
theorem outcome_run_command {choices : ProgramChoices} {name : CommandName} {rest : List String}
    (hread : readInvocation world arguments = .ok (.command choices name rest)) :
    (run world arguments).outcome =
      (makeContext world choices).outcome.bind fun context ↦
        (runCommand world context name rest).outcome := by
  rw [run, hread]
  exact Log.Traced.outcome_bind ..

theorem outcome_run_of_requestsPage {context : Context} {request : RenderRequest}
    (hrequests : RequestsPage world arguments context request) :
    (run world arguments).outcome = (render world context request).outcome := by
  obtain ⟨hread, hcontext, hrequest⟩ := hrequests
  rw [outcome_run_command hread, hcontext]
  change (serve world .render (readRender world _) (render world context)).outcome = _
  rw [hrequest]
  rfl

theorem outcome_run_of_requestsHelpfile {context : Context} {request : HelpfileRequest}
    (hrequests : RequestsHelpfile world arguments context request) :
    (run world arguments).outcome = (helpfile world context request).outcome := by
  obtain ⟨hread, hcontext, hrequest⟩ := hrequests
  rw [outcome_run_command hread, hcontext]
  change (serve world .helpfile (readHelpfile world _) (helpfile world context)).outcome = _
  rw [hrequest]
  rfl

/-- Notes apart, a page is chosen and delivered. -/
theorem outcome_render (world : World) (context : Context) (request : RenderRequest) :
    (render world context request).outcome =
      (choosePage world context request).outcome.bind fun page ↦
        (deliver world page.1 page.2 request.output).outcome :=
  Log.Traced.outcome_bind ..

/-- Notes apart, a page on the standard output is concluded as its delivery is. -/
theorem outcome_deliver_none (world : World) (renderer : Page.Renderer) (view : Page.View) :
    (deliver world renderer view none).outcome =
      concluded (renderer.deliver world.workingDirectory world.pages view).ending world.tree :=
  Log.Traced.outcome_bind ..

/-- A file that cannot be loaded ends a run that comes upon it. -/
theorem run_of_meets (hmeets : Meets world arguments file)
    (hfailure : file.failure? world = some failure) :
    (run world arguments).outcome = .error failure := by
  cases hmeets with
  | @settings invocation choices path hread hchoices hlevel hconsults =>
    have hcontext : (makeContext world choices).outcome = .error failure :=
      makeContext_eq_error_iff.mpr
        (.inr ⟨hlevel, loadSettings_of_consults hconsults hfailure⟩)
    rw [run, hread]
    cases invocation with
    | help => cases hchoices
    | hint given =>
      obtain rfl := Option.some.inj hchoices
      exact Log.Traced.outcome_bind_eq_error.mpr (.inl hcontext)
    | command given name rest =>
      obtain rfl := Option.some.inj hchoices
      exact Log.Traced.outcome_bind_eq_error.mpr (.inl hcontext)
  | render hrequests hmodel hformat =>
    rw [outcome_run_of_requestsPage hrequests, outcome_render, outcome_choosePage, hmodel, hformat,
      loadModel_eq_error_iff.mpr hfailure]
    rfl
  | helpfile hrequests hmodel =>
    rw [outcome_run_of_requestsHelpfile hrequests, outcome_helpfile, outcome_makeHelpfile, hmodel,
      loadModel_eq_error_iff.mpr hfailure]
    rfl

/-! ### Where failures come from -/

/-- A run that may fail, but not because of a file that is read. -/
def IsSteady {α : Type} (run : Run α) : Prop :=
  ∀ failure, run.outcome = .error failure → ¬ failure.IsOfFile

theorem isSteady_requireModel (world : World) (path : Path) :
    IsSteady (requireModel world path) := by
  intro failure hfails
  unfold requireModel at hfails
  split at hfails
  · cases hfails
    exact id
  · cases hfails
    exact id
  · cases hfails

theorem isSteady_chooseFormat (settings : Settings) (asked : Option String) :
    IsSteady (chooseFormat settings asked) := by
  intro failure hfails
  unfold chooseFormat at hfails
  split at hfails
  · cases hfails
  · split at hfails
    · cases hfails
    · cases hfails
      exact id

theorem isSteady_chooseView (model : Model) (asked : Option String) :
    IsSteady (chooseView model asked) := by
  intro failure hfails
  unfold chooseView at hfails
  split at hfails
  · cases hfails
  · split at hfails
    · cases hfails
    · cases hfails
      exact id

theorem isSteady_checkLevel (world : World) : IsSteady (checkLevel world) := by
  intro failure hfails
  unfold checkLevel at hfails
  split at hfails
  · cases hfails
  · cases hfails
    exact id

/-- A delivery of chunks that are made fails at the sink only. -/
theorem isSteady_finish_deliver (capacity : Page.Capacity) (chunks : List Page.Chunk) :
    IsSteady (finish (Page.deliver capacity (chunks.map .ok)).ending) := by
  intro failure hfails
  rw [outcome_finish] at hfails
  rcases Page.ending_cases capacity chunks with
    hending | ⟨count, -, hending⟩ | ⟨encoding, fault, -, hending⟩
  · rw [if_pos hending] at hfails
    cases hfails
  · rw [hending, if_neg (by simp)] at hfails
    cases hfails
    exact id
  · rw [hending, if_neg (by simp)] at hfails
    cases hfails
    exact id

theorem isSteady_finish_deliverTexts (sink : Page.Capacity) (texts : List String) :
    IsSteady (finish (deliverTexts sink texts).ending) := by
  rw [deliverTexts_eq]
  exact isSteady_finish_deliver _ _

theorem isSteady_finish_page {renderer : Page.Renderer} {view : Page.View}
    (hnumbers : view.HasShortNumbers renderer.format) (workingDirectory : String)
    (capacity : Page.Capacity) :
    IsSteady (finish (renderer.deliver workingDirectory capacity view).ending) := by
  rw [Page.deliver_of_hasShortNumbers hnumbers]
  exact isSteady_finish_deliver _ _

theorem IsSteady.writeFile {delivery : Page.Delivery} (hfinish : IsSteady (finish delivery.ending))
    (path : Path) : IsSteady (writeFile world path delivery) := by
  intro failure hfails
  rw [outcome_writeFile, bind_eq_error_iff] at hfails
  rcases hfails with hfails | ⟨tree, -, hfails⟩
  · cases hwrite : world.tree.write world.directory path.text
      (delivery.written.flatMap encoded) with
    | ok tree => simp [hwrite] at hfails
    | error error =>
      rw [hwrite, mapError_error] at hfails
      cases hfails
      exact id
  · cases houtcome : (finish delivery.ending).outcome with
    | ok _ => simp [houtcome, Except.map] at hfails
    | error found =>
      rw [houtcome] at hfails
      cases hfails
      exact hfinish _ houtcome

theorem isSteady_tell (world : World) (sink : Page.Capacity) (texts : List String) :
    IsSteady (tell world sink texts) := by
  intro failure hfails
  rcases Log.Traced.outcome_bind_eq_error.mp hfails with hfails | ⟨_, -, hfails⟩
  · exact isSteady_finish_deliverTexts sink texts failure hfails
  · cases hfails

theorem isSteady_deliver (world : World) {renderer : Page.Renderer} {view : Page.View}
    (hnumbers : view.HasShortNumbers renderer.format) (output : Option Path) :
    IsSteady (deliver world renderer view output) := by
  intro failure hfails
  cases output with
  | none =>
    rcases Log.Traced.outcome_bind_eq_error.mp hfails with hfails | ⟨_, -, hfails⟩
    · exact isSteady_finish_page hnumbers _ _ failure hfails
    · cases hfails
  | some path =>
    rcases Log.Traced.outcome_bind_eq_error.mp hfails with hfails | ⟨_, -, hfails⟩
    · exact (isSteady_finish_page hnumbers _ _).writeFile path failure hfails
    · cases hfails

/-- Where a page fails because of a file, the model could not be loaded. -/
theorem loadModel_of_render {context : Context} {request : RenderRequest}
    (hfile : failure.IsOfFile)
    (hrender : (render world context request).outcome = .error failure) :
    (requireModel world request.model).outcome = .ok () ∧
      (∃ format, (chooseFormat context.settings request.format).outcome = .ok format) ∧
      (loadModel world request.model).outcome = .error failure := by
  rw [outcome_render, bind_eq_error_iff] at hrender
  rcases hrender with hchoose | ⟨⟨renderer, view⟩, hpage, hdeliver⟩
  · simp only [outcome_choosePage, bind_eq_error_iff] at hchoose
    rcases hchoose with hfails | ⟨⟨⟩, hmodel, hfails | ⟨format, hformat, hrest⟩⟩
    · exact absurd hfile (isSteady_requireModel world _ _ hfails)
    · exact absurd hfile (isSteady_chooseFormat _ _ _ hfails)
    · rcases hrest with hfails | ⟨model, -, hview⟩
      · exact ⟨hmodel, ⟨format, hformat⟩, hfails⟩
      · cases houtcome : (chooseView model request.target).outcome with
        | ok view => simp [houtcome, Except.map] at hview
        | error found =>
          rw [houtcome] at hview
          cases hview
          exact absurd hfile (isSteady_chooseView _ _ _ houtcome)
  · have hnumbers := hasShortNumbers_of_isPageFor (isPageFor_of_choosePage hpage)
    exact absurd hfile (isSteady_deliver world hnumbers _ _ hdeliver)

/-- Where a help makefile fails because of a file, the model could not be loaded. -/
theorem loadModel_of_helpfile {context : Context} {request : HelpfileRequest}
    (hfile : failure.IsOfFile)
    (hhelpfile : (helpfile world context request).outcome = .error failure) :
    (requireModel world request.model).outcome = .ok () ∧
      (loadModel world request.model).outcome = .error failure := by
  rw [outcome_helpfile, bind_eq_error_iff] at hhelpfile
  rcases hhelpfile with hmake | ⟨text, -, hwrite⟩
  · simp only [outcome_makeHelpfile, bind_eq_error_iff] at hmake
    rcases hmake with hfails | ⟨⟨⟩, hmodel, hfails | ⟨model, -, hstamp⟩⟩
    · exact absurd hfile (isSteady_requireModel world _ _ hfails)
    · exact ⟨hmodel, hfails⟩
    · cases houtcome : world.now.stamp with
      | ok stamp => simp [houtcome, Except.map] at hstamp
      | error error =>
        rw [houtcome] at hstamp
        cases hstamp
        exact hfile.elim
  · rw [bind_eq_error_iff] at hwrite
    rcases hwrite with hfails | ⟨tree, -, hnotice⟩
    · exact absurd hfile ((isSteady_finish_deliverTexts _ _).writeFile _ _ hfails)
    · cases houtcome : (finish (deliverTexts world.notices
        [writtenNotice context.console request.output]).ending).outcome with
      | ok _ => simp [houtcome, Except.map] at hnotice
      | error found =>
        rw [houtcome] at hnotice
        cases hnotice
        exact absurd hfile (isSteady_finish_deliverTexts _ _ _ houtcome)

/-- A command fails because of a file at its work only. -/
theorem work_of_serve {α : Type} {name : CommandName} {asked : Except UsageFault (Asked α)}
    {work : α → Run Success} (hfile : failure.IsOfFile)
    (hserve : (serve world name asked work).outcome = .error failure) :
    ∃ request, asked = .ok (.work request) ∧ (work request).outcome = .error failure := by
  unfold serve at hserve
  split at hserve
  · cases hserve
    exact hfile.elim
  · exact absurd hfile (isSteady_tell _ _ _ _ hserve)
  · next request => exact ⟨request, rfl, hserve⟩

theorem meets_of_runCommand {choices : ProgramChoices} {context : Context} {name : CommandName}
    {rest : List String} (hfile : failure.IsOfFile)
    (hread : readInvocation world arguments = .ok (.command choices name rest))
    (hcontext : (makeContext world choices).outcome = .ok context)
    (hrun : (runCommand world context name rest).outcome = .error failure) :
    ∃ file, Meets world arguments file ∧ file.failure? world = some failure := by
  cases name with
  | formats =>
    obtain ⟨_, -, hwork⟩ := work_of_serve hfile hrun
    rcases Log.Traced.outcome_bind_eq_error.mp hwork with hfails | ⟨_, -, htell⟩
    · cases hfails
    · exact absurd hfile (isSteady_tell _ _ _ _ htell)
  | version =>
    obtain ⟨_, -, hwork⟩ := work_of_serve hfile hrun
    exact absurd hfile (isSteady_tell _ _ _ _ hwork)
  | render =>
    obtain ⟨request, hrequest, hwork⟩ := work_of_serve hfile hrun
    obtain ⟨hmodel, ⟨format, hformat⟩, hload⟩ := loadModel_of_render hfile hwork
    exact ⟨.model request.model, .render ⟨hread, hcontext, hrequest⟩ hmodel hformat,
      loadModel_eq_error_iff.mp hload⟩
  | helpfile =>
    obtain ⟨request, hrequest, hwork⟩ := work_of_serve hfile hrun
    obtain ⟨hmodel, hload⟩ := loadModel_of_helpfile hfile hwork
    exact ⟨.model request.model, .helpfile ⟨hread, hcontext, hrequest⟩ hmodel,
      loadModel_eq_error_iff.mp hload⟩

theorem meets_of_makeContext {invocation : Invocation} {choices : ProgramChoices}
    (hfile : failure.IsOfFile) (hread : readInvocation world arguments = .ok invocation)
    (hchoices : invocation.choices? = some choices)
    (hcontext : (makeContext world choices).outcome = .error failure) :
    ∃ file, Meets world arguments file ∧ file.failure? world = some failure := by
  rcases makeContext_eq_error_iff.mp hcontext with hlevel | ⟨hlevel, hsettings⟩
  · exact absurd hfile (isSteady_checkLevel world _ hlevel)
  · rcases exists_consults_of_loadSettings hsettings with ⟨cause, rfl⟩ | ⟨path, hconsults, hfailure⟩
    · exact hfile.elim
    · exact ⟨.settings path, .settings hread hchoices hlevel hconsults, hfailure⟩

/-- A run that fails because of a file came upon one that cannot be loaded. -/
theorem exists_meets_of_run (hfile : failure.IsOfFile)
    (hrun : (run world arguments).outcome = .error failure) :
    ∃ file, Meets world arguments file ∧ file.failure? world = some failure := by
  cases hread : readInvocation world arguments with
  | error fault =>
    rw [run, hread] at hrun
    cases hrun
    exact hfile.elim
  | ok invocation =>
    rw [run, hread] at hrun
    change (invoke world invocation).outcome = _ at hrun
    cases invocation with
    | help => exact absurd hfile (isSteady_tell _ _ _ _ hrun)
    | hint choices =>
      rcases Log.Traced.outcome_bind_eq_error.mp hrun with hcontext | ⟨context, -, htell⟩
      · exact meets_of_makeContext hfile hread rfl hcontext
      · exact absurd hfile (isSteady_tell _ _ _ _ htell)
    | command choices name rest =>
      rcases Log.Traced.outcome_bind_eq_error.mp hrun with hcontext | ⟨context, hcontext, hrun⟩
      · exact meets_of_makeContext hfile hread rfl hcontext
      · exact meets_of_runCommand hfile hread hcontext hrun

/-! ### Characters that cannot be written -/

/-- The text that is made of the model has a character that the encoding of its sink has not got:
the encoding of the standard output for a page that is printed, and UTF-8 for a text that goes to a
file that can be opened. -/
inductive IsUnencodable (world : World) (arguments : List String) : Prop
  | printed {encoding : Text.Encoding} {text : String}
      (outputFile_eq : outputFile? world arguments = none)
      (pages_eq : world.pages = .encoded encoding) (makes : Makes world arguments text)
      (not_canWrite : ¬ encoding.CanWrite text)
  | stored {path : Path} {place : Files.Place} {text : String}
      (outputFile_eq : outputFile? world arguments = some path)
      (writable_eq : world.tree.writable world.directory path.text = .ok place)
      (makes : Makes world arguments text)
      (not_canWrite : ¬ (Text.Encoding.utf8 world.machine.surrogates).CanWrite text)

/-- What is printed does not come from a model: the program tells something about itself, or the
notice of a file cannot be printed. -/
inductive IsSpeechless (world : World) (arguments : List String) : Prop
  | information (onlyTells : OnlyTells world arguments)
  | notice {path : Path} {console : Terminal.Console}
      (outputFile_eq : outputFile? world arguments = some path)
      (not_takes : ¬ Takes world.notices [writtenNotice console path])

section Pages

variable {renderer : Page.Renderer} {view : Page.View}

theorem exists_unencodable_iff (hnumbers : view.HasShortNumbers renderer.format)
    (workingDirectory : String) (capacity : Page.Capacity) :
    (∃ fault, (renderer.deliver workingDirectory capacity view).ending = .unencodable fault) ↔
      ∃ encoding, capacity = .encoded encoding ∧
        ¬ encoding.CanWrite (renderer.page workingDirectory view) := by
  have hcomplete := Page.ending_deliver_encoded_eq_complete_iff hnumbers workingDirectory
  have hcases := Page.ending_cases capacity (renderer.chunks workingDirectory view)
  have hending : (renderer.deliver workingDirectory capacity view).ending =
      (Page.deliver capacity ((renderer.chunks workingDirectory view).map .ok)).ending := by
    rw [Page.deliver_of_hasShortNumbers hnumbers]
  rw [← hending] at hcases
  constructor
  · rintro ⟨fault, hfault⟩
    rcases hcases with hdone | ⟨count, -, hrefused⟩ | ⟨encoding, found, rfl, -⟩
    · simp [hfault] at hdone
    · simp [hfault] at hrefused
    · exact ⟨encoding, rfl, by simp [← hcomplete, hfault]⟩
  · rintro ⟨encoding, rfl, hcan⟩
    rcases hcases with hdone | ⟨count, hcapacity, -⟩ | ⟨-, fault, -, hfault⟩
    · exact absurd ((hcomplete encoding).mp hdone) hcan
    · cases hcapacity
    · exact ⟨fault, hfault⟩

theorem exists_unencodable_text {encoding : Text.Encoding} {text : String}
    (hcan : ¬ encoding.CanWrite text) :
    ∃ fault, (deliverTexts (.encoded encoding) [text]).ending = .unencodable fault := by
  have hcases := Page.ending_cases (.encoded encoding) [{ text }]
  rcases hcases with hdone | ⟨count, hcapacity, -⟩ | ⟨-, fault, -, hfault⟩
  · exact absurd (takes_encoded_iff.mp hdone) hcan
  · cases hcapacity
  · exact ⟨fault, hfault⟩

end Pages

/-- A run that stops at a character that cannot be written has met it in the text that was made of
the model, or in what does not come from a model. -/
theorem Conclusion.isUnencodable_or_isSpeechless {outcome : Except Failure Success}
    {printed : String} {files : Files.Tree} {fault : Text.Encoding.Fault}
    (hend : Conclusion world arguments outcome printed files)
    (hfails : outcome = .error (.unwritten (.unencodable fault))) :
    IsUnencodable world arguments ∨ IsSpeechless world arguments := by
  cases hend with
  | early hearly => exact absurd (Except.error.inj hfails) (hearly _)
  | information htells => exact .inr (.information htells)
  | page hrequests houtput hpage hdelivery =>
    subst hdelivery
    have hnumbers := hasShortNumbers_of_isPageFor hpage
    obtain ⟨encoding, hpages, hcan⟩ := (exists_unencodable_iff hnumbers _ _).mp
      ⟨fault, (concluded_eq_error_iff.mp hfails).1⟩
    exact .inl (.printed ((outputFile?_of_requestsPage hrequests).trans houtput) hpages
      (.page hrequests hpage (Page.render_eq_page hnumbers)) hcan)
  | pageFile hrequests houtput hpage hwritable hdelivery =>
    subst hdelivery
    have hnumbers := hasShortNumbers_of_isPageFor hpage
    obtain ⟨encoding, hpages, hcan⟩ := (exists_unencodable_iff hnumbers _ _).mp
      ⟨fault, (concluded_eq_error_iff.mp hfails).1⟩
    cases hpages
    exact .inl (.stored ((outputFile?_of_requestsPage hrequests).trans houtput) hwritable
      (.page hrequests hpage (Page.render_eq_page hnumbers)) hcan)
  | brokenHelpfile hrequests hhelpfile hwritable hnot =>
    exact .inl (.stored (outputFile?_of_requestsHelpfile hrequests) hwritable
      (.helpfile hrequests hhelpfile) (mt takes_encoded_iff.mpr hnot))
  | helpfile hrequests _ _ _ _ hdelivery =>
    subst hdelivery
    obtain ⟨hending, hne⟩ := concluded_eq_error_iff.mp hfails
    exact .inr (.notice (outputFile?_of_requestsHelpfile hrequests) (hending ▸ hne))

/-- Where a text that was made of a model cannot be written, the run stops at a character of it. -/
theorem exists_unencodable_of_isUnencodable (hunencodable : IsUnencodable world arguments) :
    ∃ fault, (run world arguments).outcome = .error (.unwritten (.unencodable fault)) := by
  cases hunencodable with
  | printed hnone hpages hmakes hcan =>
    cases hmakes with
    | page hrequests hpage hrender =>
      have hnumbers := hasShortNumbers_of_isPageFor hpage
      rw [Page.render_eq_page hnumbers] at hrender
      cases hrender
      obtain ⟨fault, hending⟩ := (exists_unencodable_iff hnumbers _ _).mpr ⟨_, hpages, hcan⟩
      rw [outputFile?_of_requestsPage hrequests] at hnone
      rw [outcome_run_of_requestsPage hrequests, outcome_render, choosePage_of_isPageFor hpage,
        hnone]
      exact ⟨fault, (outcome_deliver_none world _ _).trans
        (concluded_eq_error_iff.mpr ⟨hending, by simp⟩)⟩
    | helpfile hrequests =>
      rw [outputFile?_of_requestsHelpfile hrequests] at hnone
      cases hnone
  | stored hsome hwritable hmakes hcan =>
    cases hmakes with
    | page hrequests hpage hrender =>
      have hnumbers := hasShortNumbers_of_isPageFor hpage
      rw [Page.render_eq_page hnumbers] at hrender
      cases hrender
      obtain ⟨fault, hending⟩ := (exists_unencodable_iff hnumbers _ _).mpr ⟨_, rfl, hcan⟩
      rw [outputFile?_of_requestsPage hrequests] at hsome
      rw [outcome_run_of_requestsPage hrequests, outcome_render, choosePage_of_isPageFor hpage,
        hsome]
      have hwrite := outcome_writeFile_of_ne_complete hwritable (by rw [hending]; simp)
      rw [hending] at hwrite
      exact ⟨fault, Log.Traced.outcome_bind_eq_error.mpr (.inl hwrite)⟩
    | helpfile hrequests hhelpfile =>
      obtain ⟨fault, hending⟩ := exists_unencodable_text hcan
      rw [outputFile?_of_requestsHelpfile hrequests] at hsome
      obtain rfl := Option.some.inj hsome
      rw [outcome_run_of_requestsHelpfile hrequests, outcome_helpfile,
        isHelpfileFor_iff_makeHelpfile.mp hhelpfile]
      have hwrite := outcome_writeFile_of_ne_complete hwritable (by rw [hending]; simp)
      rw [hending] at hwrite
      exact ⟨fault, bind_eq_error_iff.mpr (.inr ⟨_, rfl, bind_eq_error_iff.mpr (.inl hwrite)⟩)⟩

/-! ### The program -/

/-- A run fails because of a file exactly where it comes upon one that no documented error
covers. -/
theorem exists_failure_of_file_iff :
    (∃ failure, failure.IsOfFile ∧ (run world arguments).outcome = .error failure) ↔
      ∃ file, Meets world arguments file ∧ file.IsUnforeseen world := by
  constructor
  · rintro ⟨failure, hfile, hrun⟩
    obtain ⟨file, hmeets, hfailure⟩ := exists_meets_of_run hfile hrun
    refine ⟨file, hmeets, ?_⟩
    rcases file.failure_cases world with ⟨-, hnone⟩ | ⟨-, message, hproblem⟩ | ⟨hunforeseen, -⟩
    · rw [hnone] at hfailure
      cases hfailure
    · rw [hproblem] at hfailure
      cases hfailure
      exact hfile.elim
    · exact hunforeseen
  · rintro ⟨file, hmeets, hunforeseen⟩
    rcases file.failure_cases world with ⟨hnot, -⟩ | ⟨hnot, -⟩ | ⟨-, failure, hfile, hfailure⟩
    · exact absurd hunforeseen hnot
    · exact absurd hunforeseen hnot
    · exact ⟨failure, hfile, run_of_meets hmeets hfailure⟩

/-- Every other file that a run comes upon is loaded, or ends the run with the exit code of its
kind. -/
theorem loads_or_exits (hmeets : Meets world arguments file) (hnot : ¬ file.IsUnforeseen world) :
    file.failure? world = none ∨ (run world arguments).exitCode = file.status.code := by
  rcases file.failure_cases world with ⟨-, hnone⟩ | ⟨-, message, hfailure⟩ | ⟨hunforeseen, -⟩
  · exact .inl hnone
  · right
    rw [Report.exitCode, run_of_meets hmeets hfailure]
  · exact absurd hunforeseen hnot

/-- The loaders end in other errors than the documented ones exactly on paths with a null character
and on files with an unforeseen content: one that is the encoding of no text, JSON beyond the limits
of its reader, or TOML that its reader refuses for another reason than its form. The text of such a
model has too many digits in a row or too many brackets. A run fails because of a file exactly where
it comes upon such a one; every other file that it comes upon is loaded, or the exit code is 65 for
a model and 78 for settings. Of the models that are loaded, those make a run fail whose page or help
makefile cannot be written for one of its characters; a character stops no other run but one that
tells something that does not come from a model. -/
theorem files_fail_as_documented_unless_unforeseen (world : World) (arguments : List String) :
    (∀ path,
      (∃ error, (Model.load world.tree world.directory path world.machine).outcome =
        .error error ∧ ¬ error.IsDocumented) ↔ (InputFile.model path).IsUnforeseen world) ∧
    (∀ path,
      (∃ error, (Settings.load world.tree world.directory path world.machine).outcome =
        .error error ∧ ¬ error.IsDocumented) ↔ (InputFile.settings path).IsUnforeseen world) ∧
    (∀ text, Model.IsUnforeseen world.machine (encoded text) →
      Json.Exceeds (Model.fileRules world.machine) (Files.withLineFeeds text).toList) ∧
    ((∃ failure, failure.IsOfFile ∧ (run world arguments).outcome = .error failure) ↔
      ∃ file, Meets world arguments file ∧ file.IsUnforeseen world) ∧
    (∀ file, Meets world arguments file → ¬ file.IsUnforeseen world →
      file.failure? world = none ∨ (run world arguments).exitCode = file.status.code) ∧
    (IsUnencodable world arguments →
      ∃ fault, (run world arguments).outcome = .error (.unwritten (.unencodable fault))) ∧
    ((∃ fault, (run world arguments).outcome = .error (.unwritten (.unencodable fault))) →
      IsUnencodable world arguments ∨ IsSpeechless world arguments) := by
  refine ⟨fun path ↦ ?_, fun path ↦ ?_, fun text ↦ ?_, ?_, fun file ↦ ?_, ?_, ?_⟩
  · exact Model.exists_undocumented_iff _ _ path _
  · exact Settings.exists_undocumented_iff _ _ path _
  · exact Model.exceeds_of_isUnforeseen
  · exact exists_failure_of_file_iff
  · exact loads_or_exits
  · exact exists_unencodable_of_isUnencodable
  · rintro ⟨fault, hfails⟩
    exact (conclusion_run world arguments).isUnencodable_or_isSpeechless hfails

/-- A directory with a single file, whose only byte begins no character. -/
def strayByteWorld : World where
  tree := { entries := [(["p"], .directory), (["p", "m.json"], .file [0xff])] }
  directory := ["p"]
  environment := .empty
  now := .epoch

/-- A byte that begins no character makes both loaders and a run end in other errors than the
documented ones. -/
theorem not_forall_files_fail_as_documented :
    (¬ ∀ (world : World) (path : Path) (error : Model.LoadError),
      (Model.load world.tree world.directory path world.machine).outcome = .error error →
        error.IsDocumented) ∧
    (¬ ∀ (world : World) (path : Path) (error : Settings.LoadError),
      (Settings.load world.tree world.directory path world.machine).outcome = .error error →
        error.IsDocumented) ∧
    ¬ ∀ (world : World) (arguments : List String) (failure : Failure),
      (run world arguments).outcome = .error failure → ¬ failure.IsOfFile := by
  have hread : strayByteWorld.tree.read strayByteWorld.directory (Path.ofString "m.json").text =
      .ok [0xff] := rfl
  have hnone : ∀ text, encoded text ≠ [0xff] := by
    intro text htext
    have hdecode := Files.decode_encoded text
    rw [htext, Text.Utf8.decode, Text.Utf8.decodeFrom] at hdecode
    cases hdecode
  have hmodel : (InputFile.model (.ofString "m.json")).IsUnforeseen strayByteWorld :=
    .inr ⟨_, hread, .inl hnone⟩
  refine ⟨fun hall ↦ ?_, fun hall ↦ ?_, fun hall ↦ ?_⟩
  · obtain ⟨error, hload, hother⟩ := (Model.exists_undocumented_iff _ _ _ _).mpr hmodel
    exact hother (hall _ _ error hload)
  · obtain ⟨error, hload, hother⟩ :=
      (Settings.exists_undocumented_iff _ _ _ _).mpr (.inr ⟨_, hread, .inl hnone⟩)
    exact hother (hall _ _ error hload)
  · have hinvocation : readInvocation strayByteWorld ["render", "m.json"] =
        .ok (.command ⟨none, none⟩ .render ["m.json"]) := rfl
    have hcontext : (makeContext strayByteWorld ⟨none, none⟩).outcome =
        .ok ⟨none, {}, ⟨false⟩⟩ := rfl
    have hrequest : readRender strayByteWorld ["m.json"] =
        .ok (.work ⟨.ofString "m.json", none, none, none, none⟩) := rfl
    obtain ⟨failure, hfile, hrun⟩ := exists_failure_of_file_iff.mpr
      ⟨_, .render ⟨hinvocation, hcontext, hrequest⟩ rfl rfl, hmodel⟩
    exact hall _ _ failure hrun hfile

end Command

end HelpSheet
