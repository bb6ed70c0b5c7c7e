import HelpSheet.Proofs.Command.Update

/-!
# Generating a help makefile anew

A help makefile has a recipe that generates it anew. `Regenerated` are the worlds that come about
when this recipe is run any number of times, while the environment, the settings, the clock and all
other files may change. Each run keeps the help makefile current (`World.IsCurrent.update`), so that
all of them together change its date only (`regeneration_changes_date_only`). The runs succeed
unless the directory of the file looks like an option (`not_forall_regeneration_succeeds`).
-/

set_option autoImplicit false
set_option relaxedAutoImplicit false

namespace HelpSheet.Command

open HelpSheet.Text (Lacks)
open Files.Tree (destination)
open Makefile (fileText updateArguments?)

/-- The text with another date in one of its lines. -/
def Redated (text stamp redated : String) : Prop :=
  ∃ front date back : String, Lacks '\n' date ∧ Lacks '\n' stamp ∧
    text = front ++ "\n# date: " ++ date ++ "\n" ++ back ∧
    redated = front ++ "\n# date: " ++ stamp ++ "\n" ++ back

theorem redated_fileText {workingDirectory : String} {options : Makefile.Options}
    {date stamp : String} (hdate : Lacks '\n' date) (hstamp : Lacks '\n' stamp) (model : Model) :
    Redated (fileText workingDirectory options date model) stamp
      (fileText workingDirectory options stamp model) := by
  obtain ⟨front, back, htext⟩ := Makefile.exists_fileText_eq workingDirectory options model
  exact ⟨front, date, back, hdate, hstamp, htext date, htext stamp⟩

/-- A later world in which the working directory, the machine, the help makefile and the model are
as they were, whatever else has changed. -/
structure World.Keeps (later earlier : World) (output model : String) : Prop where
  directory_eq : later.directory = earlier.directory
  machine_eq : later.machine = earlier.machine
  sound : later.tree.IsSound
  output : later.tree.read later.directory output = earlier.tree.read earlier.directory output
  model : later.tree.read later.directory model = earlier.tree.read earlier.directory model

/-- The worlds that come about when a help makefile is generated anew by its own recipe, any number
of times; between the runs the world may change. -/
inductive Regenerated (output model : String) (first : World) : World → Prop
  | start : Regenerated output model first first
  | again {world later : World} {text : String} {arguments : List String}
      (hworld : Regenerated output model first world) (hlater : later.Keeps world output model)
      (htext : later.tree.read later.directory output = .ok (encoded text))
      (harguments : updateArguments? output text = some arguments) :
      Regenerated output model first { later with tree := (run later arguments).files later }

section Regeneration

variable {world first later reached : World} {context : Context} {request : HelpfileRequest}
  {output : String} {model : Model} {content : List UInt8}

/-- A world in which the help makefile is the one that was written for a request, with any stamp,
and the file of the model has the given content. -/
structure World.IsCurrent (reached world : World) (context : Context) (request : HelpfileRequest)
    (output : String) (model : Model) (content : List UInt8) : Prop where
  directory_eq : reached.directory = world.directory
  machine_eq : reached.machine = world.machine
  output : ∃ stamp, Lacks '\n' stamp ∧ reached.tree.read reached.directory output =
    .ok (encoded (fileText world.workingDirectory (writtenOptions world context request) stamp
      model))
  model : reached.tree.read reached.directory request.model.text = .ok content

/-- The content is the one that the model was loaded from, in another file than the help makefile;
or the help makefile was written over it, and the content begins with its number sign. -/
def HasModel (world : World) (context : Context) (request : HelpfileRequest) (output : String)
    (model : Model) (content : List UInt8) : Prop :=
  if destination world.directory request.model.text = destination world.directory output then
    ∃ rest, content = 35 :: rest
  else IsModelOf world context request model content

/-- An update keeps the help makefile current. -/
theorem World.IsCurrent.update
    (hcurrent : later.IsCurrent world context request output model content)
    (hsound : later.tree.IsSound) (hrequest : request.IsOrdinary world output)
    (hmodel : HasModel world context request output model content) :
    World.IsCurrent
      { later with tree := (run later (updateLine world context request output)).files later }
      world context request output model content := by
  obtain ⟨hdirectory, hmachine, ⟨stamp, hstamp, houtput⟩, hcontent⟩ := hcurrent
  have hhas : later.Has world output request.model.text _ content :=
    ⟨hdirectory, hmachine, hsound, houtput, hcontent⟩
  have hunchanged : later.IsCurrent world context request output model content :=
    ⟨hdirectory, hmachine, ⟨stamp, hstamp, houtput⟩, hcontent⟩
  unfold HasModel at hmodel
  split at hmodel
  · obtain ⟨rest, rfl⟩ := hmodel
    rw [files_run_updateLine_of_numberSign hrequest hhas]
    exact hunchanged
  · next hother =>
    by_cases hhyphen : (Path.directoryPart output).toList.head? = some '-'
    · rw [files_run_updateLine hrequest hhyphen]
      exact hunchanged
    · rcases files_run_updateLine_cases hrequest hhyphen hhas hmodel with
        hsame | ⟨now, hnow, hwrite⟩
      · rw [hsame]
        exact hunchanged
      · -- The file is written even if the run fails afterwards, for want of a notice.
        obtain ⟨hwritten, hkept⟩ := reads_of_write hother hhas hwrite
        exact ⟨hdirectory, hmachine, ⟨now, Makefile.lacks_lineFeed_stamp hnow, hwritten⟩, hkept⟩

/-- Any number of updates keeps the help makefile current. -/
theorem isCurrent_of_regenerated (hrequest : request.IsOrdinary world output)
    (hmodel : HasModel world context request output model content)
    (hfirst : first.IsCurrent world context request output model content)
    (hreached : Regenerated output request.model.text first reached) :
    reached.IsCurrent world context request output model content := by
  -- `HasModel` speaks of the first world only, so that it holds before each of the updates
  induction hreached with
  | start => exact hfirst
  | @again earlier later text arguments hearlier hlater htext harguments ih =>
    obtain ⟨hdirectory, hmachine, ⟨stamp, hstamp, houtput⟩, hcontent⟩ := ih
    have hcurrent : later.IsCurrent world context request output model content :=
      ⟨hlater.directory_eq.trans hdirectory, hlater.machine_eq.trans hmachine,
        ⟨stamp, hstamp, hlater.output.trans houtput⟩, hlater.model.trans hcontent⟩
    obtain rfl := encoded_injective
      (Except.ok.inj (htext.symm.trans (hlater.output.trans houtput)))
    rw [updateArguments?_eq hrequest] at harguments
    obtain rfl := Option.some.inj harguments
    exact hcurrent.update hlater.sound hrequest hmodel

/-- The first run leaves the help makefile current. -/
theorem exists_isCurrent_of_helpfile {success : Success} {text : String}
    (hfirst : (helpfile world context request).outcome = .ok success)
    (hrequest : request.IsOrdinary world output)
    (htext : success.tree.read world.directory output = .ok (encoded text)) :
    ∃ model content date, Lacks '\n' date ∧ HasModel world context request output model content ∧
      text = fileText world.workingDirectory (writtenOptions world context request) date model ∧
      World.IsCurrent { world with tree := success.tree } world context request output model
        content := by
  obtain ⟨-, model, date, hload, hdate, hcan, hwrite⟩ :=
    exists_success_iff.mp ⟨success, hfirst, rfl⟩
  obtain ⟨content, hcontent⟩ := Model.exists_read_of_load hload
  rw [hrequest.output_eq] at hwrite
  obtain rfl := encoded_injective (Files.Tree.read_write hwrite htext)
  have hlines := Makefile.lacks_lineFeed_stamp hdate
  have hplace := Files.Tree.destination_text_ofString world.directory output
  have hcurrent : ∀ {content : List UInt8},
      success.tree.read world.directory request.model.text = .ok content →
        World.IsCurrent { world with tree := success.tree } world context request output model
          content :=
    fun hread ↦ ⟨rfl, rfl, ⟨date, hlines, htext⟩, hread⟩
  by_cases hother :
      destination world.directory request.model.text = destination world.directory output
  · have hread := Files.Tree.read_write_of_eq hwrite (hother.trans hplace.symm) hcontent
    refine ⟨model, _, date, hlines, ?_, rfl, hcurrent hread⟩
    rw [HasModel, if_pos hother]
    exact exists_encoded_fileText ..
  · have hread := Files.Tree.read_write_of_ne hwrite (fun hsame ↦ hother (hsame.trans hplace))
      hcontent
    refine ⟨model, content, date, hlines, ?_, rfl, hcurrent hread⟩
    rw [HasModel, if_neg hother]
    exact ⟨hload, hcontent, fun _ _ ↦ canWrite_fileText hcan⟩

/-- However often a help makefile is generated anew by its own recipe, and whatever the settings and
the environment then say, only its date changes. As long as the settings can be loaded, the clock
has a stamp, and nothing refuses the file or the notice of it, each update succeeds and gives it the
date of its own moment. But no update does anything where the file was written over the model, or
where the directory that it is included from begins with a hyphen, since its path is then read as an
option. -/
theorem regeneration_changes_date_only {success : Success} {text : String}
    (hfirst : (helpfile world context request).outcome = .ok success)
    (hrequest : request.IsOrdinary world output)
    (htext : success.tree.read world.directory output = .ok (encoded text))
    (hreached : Regenerated output request.model.text { world with tree := success.tree }
      reached) :
    ∃ (current stamp : String) (arguments : List String),
      reached.tree.read reached.directory output = .ok (encoded current) ∧
      Redated text stamp current ∧ updateArguments? output current = some arguments ∧
      ∀ later : World, later.Keeps reached output request.model.text →
        if destination world.directory request.model.text = destination world.directory output ∨
            (Path.directoryPart output).toList.head? = some '-' then
          (run later arguments).files later = later.tree
        else later.IsReady output → ∃ (success' : Success) (date updated : String),
          (run later arguments).outcome = .ok success' ∧ later.now.stamp = .ok date ∧
          success'.tree.read later.directory output = .ok (encoded updated) ∧
          Redated text date updated := by
  obtain ⟨model, content, date, hlines, hmodel, rfl, hwritten⟩ :=
    exists_isCurrent_of_helpfile hfirst hrequest htext
  obtain ⟨hdirectory, hmachine, ⟨stamp, hstamp, houtput⟩, hcontent⟩ :=
    isCurrent_of_regenerated hrequest hmodel hwritten hreached
  refine ⟨_, stamp, _, houtput, redated_fileText hlines hstamp model,
    updateArguments?_eq hrequest stamp model, fun later hlater ↦ ?_⟩
  have hhas : later.Has world output request.model.text _ content :=
    ⟨hlater.directory_eq.trans hdirectory, hlater.machine_eq.trans hmachine, hlater.sound,
      hlater.output.trans houtput, hlater.model.trans hcontent⟩
  unfold HasModel at hmodel
  split
  · next hidle =>
    rcases hidle with hsame | hhyphen
    · rw [if_pos hsame] at hmodel
      obtain ⟨rest, rfl⟩ := hmodel
      exact files_run_updateLine_of_numberSign hrequest hhas
    · exact files_run_updateLine hrequest hhyphen
  · next hactive =>
    obtain ⟨hother, hhyphen⟩ := not_or.mp hactive
    rw [if_neg hother] at hmodel
    intro hready
    obtain ⟨success', hrun⟩ := exists_success_of_isReady hrequest hhyphen hhas hmodel hready
    obtain ⟨now, hnow, hwrite⟩ := write_of_run hrequest hhyphen hhas hmodel hrun
    obtain ⟨hupdated, -⟩ := reads_of_write hother hhas hwrite
    exact ⟨success', now, _, hrun, hnow, hupdated,
      redated_fileText hlines (Makefile.lacks_lineFeed_stamp hnow) model⟩

end Regeneration

/-! ### A project -/

/-- A project with a model, which works beside a directory for its help makefile. -/
def projectWorld (name : String) : World where
  tree :=
    { entries :=
        [(["p"], .directory), (["p", name], .directory), (["p", "m.json"], .file [123, 125])] }
  directory := ["p"]
  environment := .empty
  now := .epoch

/-- The help makefile of the project. -/
def projectOutput (name : String) : String :=
  name ++ "/help.mk"

/-- What the project is asked for. -/
def projectRequest (name : String) : HelpfileRequest where
  model := .ofString "m.json"
  output := .ofString (projectOutput name)
  makefiles := ["Makefile"]
  category := "About $x"

/-- Without any choices. -/
def plainContext : Context where
  colorMode := none
  settings := {}
  console := ⟨false⟩

/-- The text of the help makefile. -/
def projectText (name : String) : String :=
  fileText (projectWorld name).workingDirectory
    (writtenOptions (projectWorld name) plainContext (projectRequest name))
    "1970-01-01T00:00:00 UTC" {}

/-- The help makefile is in ASCII. -/
theorem canWrite_projectText (surrogates : Text.Surrogates) {name : String}
    (hname : name ∈ ["build", "-d"]) :
    (Text.Encoding.utf8 surrogates).CanWrite (projectText name) := by
  -- A quantifier over bytes would be decided by going through all there are.
  have hall : ∀ name ∈ ["build", "-d"],
      (encoded (projectText name)).all (fun byte ↦ byte.toNat < 0x80) = true := by
    decide +kernel
  have hbytes := List.all_eq_true.mp (hall name hname)
  exact canWrite_of_ascii surrogates
    (ascii_of_encoded fun byte hbyte ↦ of_decide_eq_true (hbytes byte hbyte))

theorem stamp_epoch : Time.Moment.epoch.stamp = .ok "1970-01-01T00:00:00 UTC" := rfl

theorem isSound_projectWorld (name : String) : (projectWorld name).tree.IsSound := by
  refine Files.Tree.isSound_of_entries ?_
  simp [projectWorld, Files.Tree.enter, Files.Tree.node?, Files.Tree.allow]

theorem exists_success_project :
    ∀ name ∈ ["build", "-d"], ∃ success,
      (helpfile (projectWorld name) plainContext (projectRequest name)).outcome = .ok success ∧
        success.tree = (projectWorld name).tree.put ["p", name, "help.mk"]
          (.file (encoded (projectText name))) := by
  intro name hname
  have hfiles : ∀ name ∈ ["build", "-d"],
      Takes (projectWorld name).notices
          [writtenNotice plainContext.console (projectRequest name).output] ∧
        (Model.load (projectWorld name).tree (projectWorld name).directory
          (projectRequest name).model).outcome.toOption = some {} ∧
        (projectWorld name).tree.writable (projectWorld name).directory
          (projectRequest name).output.text = .ok ["p", name, "help.mk"] := by
    decide +kernel
  obtain ⟨htakes, hoption, hwritable⟩ := hfiles name hname
  have hcan := canWrite_projectText (projectWorld name).machine.surrogates hname
  have hload : (Model.load (projectWorld name).tree (projectWorld name).directory
      (projectRequest name).model).outcome = .ok {} := by
    generalize (Model.load (projectWorld name).tree (projectWorld name).directory
      (projectRequest name).model).outcome = outcome at hoption
    cases outcome with
    | error error => cases hoption
    | ok model => rw [Option.some.inj hoption]
  have hwrite : (projectWorld name).tree.write (projectWorld name).directory
      (projectRequest name).output.text (encoded (projectText name)) =
        .ok ((projectWorld name).tree.put ["p", name, "help.mk"]
          (.file (encoded (projectText name)))) := by
    rw [Files.Tree.write, hwritable]
  rw [exists_success_iff]
  exact ⟨htakes, {}, "1970-01-01T00:00:00 UTC", hload, stamp_epoch, hcan, hwrite⟩

theorem isOrdinary_projectRequest : ∀ name ∈ ["build", "-d"],
    (projectRequest name).IsOrdinary (projectWorld name) (projectOutput name) := by
  have hpaths : ∀ name ∈ ["build", "-d"], IsOrdinaryText (projectWorld name).workingDirectory ∧
      IsOrdinaryText (projectOutput name) ∧ IsOrdinaryText (projectRequest name).model.text := by
    decide +kernel
  intro name hname
  obtain ⟨hdirectory, houtput, hmodel⟩ := hpaths name hname
  have hcategory : Lacks '\n' "About $x" := by decide
  refine ⟨rfl, ?_, hdirectory, houtput, hmodel, ?_, hcategory⟩
  · simp [World.IsPlaced, projectWorld, Path.LeadsDown, Path.isIdle, Lacks]
  · simp [projectRequest]
    decide

/-- The project after its help makefile was written, at another time and with a color setting. -/
def laterWorld (name : String) : World where
  tree := (projectWorld name).tree.put ["p", name, "help.mk"] (.file (encoded (projectText name)))
  directory := ["p"]
  environment := ⟨[("FORCE_COLOR", "1")]⟩
  now := .afterEpoch 1000000000

theorem isReady_laterWorld :
    ∀ name ∈ ["build", "-d"], (laterWorld name).IsReady (projectOutput name) := by
  intro name hname
  have hlevel : ∀ name ∈ ["build", "-d"], (checkLevel (laterWorld name)).outcome = .ok () := by
    decide +kernel
  have hsettings : ∀ name ∈ ["build", "-d"],
      (loadSettings (laterWorld name) none).outcome.isOk = true := by
    decide +kernel
  have hwritable : ∀ name ∈ ["build", "-d"], (laterWorld name).tree.writable
      (laterWorld name).directory (Path.ofString (projectOutput name)).text =
        .ok ["p", name, "help.mk"] := by
    decide +kernel
  have hnotice : ∀ name ∈ ["build", "-d"], ∀ color : Bool, Takes (laterWorld name).notices
      [writtenNotice ⟨color⟩ (.ofString (projectOutput name))] := by
    decide +kernel
  exact
    { level := hlevel name hname
      settings := by
        have hloaded := hsettings name hname
        cases hload : (loadSettings (laterWorld name) none).outcome with
        | ok settings => exact ⟨settings, rfl⟩
        | error failure => simp [hload, Except.isOk, Except.toBool] at hloaded
      moment := ⟨_, rfl⟩
      unrefused := fun refusal ↦ by simp [hwritable name hname]
      notice := fun console ↦ hnotice name hname console.color }

/-- Nothing that matters has changed in the later world. -/
theorem keeps_laterWorld {name : String} {success : Success}
    (hsuccess : (helpfile (projectWorld name) plainContext (projectRequest name)).outcome =
      .ok success)
    (htree : success.tree = (laterWorld name).tree) :
    (laterWorld name).Keeps { projectWorld name with tree := success.tree } (projectOutput name)
      (projectRequest name).model.text := by
  obtain ⟨-, model, stamp, -, -, -, hwrite⟩ := exists_success_iff.mp ⟨success, hsuccess, rfl⟩
  have hsound : (laterWorld name).tree.IsSound := htree ▸ (isSound_projectWorld name).write hwrite
  exact ⟨rfl, rfl, hsound, by rw [htree]; rfl, by rw [htree]; rfl⟩

/-- The help makefile of a project in a directory of its own is generated anew at another time. -/
theorem regeneration_changes_date_only_build :
    ∃ (success success' : Success) (current stamp updated : String) (arguments : List String),
      (helpfile (projectWorld "build") plainContext (projectRequest "build")).outcome =
        .ok success ∧
      Redated (projectText "build") stamp current ∧
      updateArguments? (projectOutput "build") current = some arguments ∧
      (run (laterWorld "build") arguments).outcome = .ok success' ∧
      success'.tree.read ["p"] (projectOutput "build") = .ok (encoded updated) ∧
      Redated (projectText "build") "2001-09-09T01:46:40 UTC" updated := by
  have hname : "build" ∈ ["build", "-d"] := by decide
  obtain ⟨success, hsuccess, htree⟩ := exists_success_project "build" hname
  have hread : success.tree.read ["p"] (projectOutput "build") =
      .ok (encoded (projectText "build")) := by
    rw [htree]
    decide +kernel
  obtain ⟨current, stamp, arguments, -, hcurrent, harguments, hupdate⟩ :=
    regeneration_changes_date_only hsuccess (isOrdinary_projectRequest "build" hname) hread .start
  have hlater := hupdate (laterWorld "build") (keeps_laterWorld hsuccess htree)
  have hactive : ¬ (destination (projectWorld "build").directory
        (projectRequest "build").model.text =
          destination (projectWorld "build").directory (projectOutput "build") ∨
      (Path.directoryPart (projectOutput "build")).toList.head? = some '-') := by
    decide +kernel
  rw [if_neg hactive] at hlater
  obtain ⟨success', date, updated, hrun, hdate, hwritten, hupdated⟩ :=
    hlater (isReady_laterWorld "build" hname)
  have hmoment : (laterWorld "build").now.stamp = .ok "2001-09-09T01:46:40 UTC" := rfl
  obtain rfl := Except.ok.inj (hdate.symm.trans hmoment)
  exact ⟨success, success', current, stamp, updated, arguments, hsuccess, hcurrent, harguments,
    hrun, hwritten, hupdated⟩

/-- Where the help makefile lies in a directory whose name begins with a hyphen, its own recipe
cannot generate it anew. -/
theorem not_forall_regeneration_succeeds :
    ¬ ∀ (world later : World) (context : Context) (request : HelpfileRequest) (output text : String)
      (success : Success) (arguments : List String),
      (helpfile world context request).outcome = .ok success → request.IsOrdinary world output →
      destination world.directory request.model.text ≠ destination world.directory output →
      success.tree.read world.directory output = .ok (encoded text) →
      updateArguments? output text = some arguments →
      later.Keeps { world with tree := success.tree } output request.model.text →
      later.IsReady output →
      ∃ success', (run later arguments).outcome = .ok success' := by
  intro hall
  have hname : "-d" ∈ ["build", "-d"] := by decide
  obtain ⟨success, hsuccess, htree⟩ := exists_success_project "-d" hname
  have hrequest := isOrdinary_projectRequest "-d" hname
  have hread : success.tree.read ["p"] (projectOutput "-d") = .ok (encoded (projectText "-d")) := by
    rw [htree]
    decide +kernel
  have hother : destination ["p"] "m.json" ≠ destination ["p"] (projectOutput "-d") := by
    decide +kernel
  obtain ⟨success', hrun⟩ := hall _ (laterWorld "-d") _ _ _ _ _ _ hsuccess hrequest hother hread
    (updateArguments?_eq hrequest _ _) (keeps_laterWorld hsuccess htree)
    (isReady_laterWorld "-d" hname)
  have hfails : (run (laterWorld "-d") (updateLine (projectWorld "-d") plainContext
      (projectRequest "-d") (projectOutput "-d"))).exitCode = 2 := by
    decide +kernel
  rw [Report.exitCode, hrun] at hfails
  cases hfails

end HelpSheet.Command
