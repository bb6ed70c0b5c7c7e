import HelpSheet.Proofs.Command.HelpfileOutcome
import HelpSheet.Proofs.Page.Streaming

/-!
# Written files

A run of the program comes to its end in one of a few ways (`Conclusion`, `conclusion_run`). If it
succeeds, it has changed at most the file that its arguments ask for (`outputFile?`), and that file
then holds the page or the help makefile for the model (`Makes`), encoded, and nothing else. If it
fails before anything is delivered, it has printed nothing and changed no file. What else it may
leave is the part of a delivery that was finished when the delivery failed
(`run_changes_output_file_only`).
-/

set_option autoImplicit false
set_option relaxedAutoImplicit false

namespace HelpSheet.Command

variable {world : World} {arguments : List String}

/-! ### What is asked for -/

/-- The command that the arguments name. -/
def commandName? (world : World) (arguments : List String) : Option CommandName :=
  match readInvocation world arguments with
  | .ok (.command _ name _) => some name
  | _ => none

/-- The file that the arguments ask to be written, if they ask for one. -/
def outputFile? (world : World) (arguments : List String) : Option Path :=
  match readInvocation world arguments with
  | .ok (.command _ .render rest) =>
    match readRender world rest with
    | .ok (.work request) => request.output
    | _ => none
  | .ok (.command _ .helpfile rest) =>
    match readHelpfile world rest with
    | .ok (.work request) => some request.output
    | _ => none
  | _ => none

/-- The arguments make a request of a command, and the command works under the context. -/
inductive Requests {α : Type} (world : World) (arguments : List String) (name : CommandName)
    (read : World → List String → Except UsageFault (Asked α)) (context : Context)
    (request : α) : Prop
  | intro {choices : ProgramChoices} {rest : List String}
      (invocation_eq : readInvocation world arguments = .ok (.command choices name rest))
      (context_eq : (makeContext world choices).outcome = .ok context)
      (request_eq : read world rest = .ok (.work request))

/-- The arguments ask for a page. -/
abbrev RequestsPage (world : World) (arguments : List String) : Context → RenderRequest → Prop :=
  Requests world arguments .render readRender

/-- The arguments ask for a help makefile. -/
abbrev RequestsHelpfile (world : World) (arguments : List String) :
    Context → HelpfileRequest → Prop :=
  Requests world arguments .helpfile readHelpfile

/-- The renderer of a page that is asked for, once its format is chosen. -/
def pageRenderer (world : World) (context : Context) (request : RenderRequest) (format : Format) :
    Page.Renderer where
  format := format
  options := context.settings.pageOptions
    (Terminal.useColor context.colorMode (some format.name) context.settings.color
      world.environment (request.output.isNone && world.outputIsTerminal)) request.base

/-- The view is the one that a request asks for of the model in its file, and the renderer is for
the format that the request and the settings choose. -/
def IsPageFor (world : World) (context : Context) (request : RenderRequest)
    (renderer : Page.Renderer) (view : Page.View) : Prop :=
  ∃ format model, (chooseFormat context.settings request.format).outcome = .ok format ∧
    (Model.load world.tree world.directory request.model world.machine).outcome = .ok model ∧
    (chooseView model request.target).outcome = .ok view ∧
    renderer = pageRenderer world context request format

/-- The help makefile for the model in the file of a request, with the time of the command. -/
def IsHelpfileFor (world : World) (context : Context) (request : HelpfileRequest) (text : String) :
    Prop :=
  ∃ model,
    (Model.load world.tree world.directory request.model world.machine).outcome = .ok model ∧
    (Makefile.generate world.workingDirectory world.now (writtenOptions world context request)
      model).outcome = .ok text

/-- What the program makes of the model that its arguments name. -/
inductive Makes (world : World) (arguments : List String) (text : String) : Prop
  | page {context : Context} {request : RenderRequest} {renderer : Page.Renderer}
      {view : Page.View} (requests : RequestsPage world arguments context request)
      (isPageFor : IsPageFor world context request renderer view)
      (render_eq : renderer.render world.workingDirectory view = .ok text)
  | helpfile {context : Context} {request : HelpfileRequest}
      (requests : RequestsHelpfile world arguments context request)
      (isHelpfileFor : IsHelpfileFor world context request text)

theorem outputFile?_of_requestsPage {context : Context} {request : RenderRequest}
    (hrequests : RequestsPage world arguments context request) :
    outputFile? world arguments = request.output := by
  obtain ⟨hinvocation, -, hrequest⟩ := hrequests
  simp [outputFile?, hinvocation, hrequest]

theorem outputFile?_of_requestsHelpfile {context : Context} {request : HelpfileRequest}
    (hrequests : RequestsHelpfile world arguments context request) :
    outputFile? world arguments = some request.output := by
  obtain ⟨hinvocation, -, hrequest⟩ := hrequests
  simp [outputFile?, hinvocation, hrequest]

/-- The arguments ask neither for a page nor for a help makefile: the program tells something about
itself at most. -/
structure OnlyTells (world : World) (arguments : List String) : Prop where
  outputFile_eq : outputFile? world arguments = none
  not_makes : ∀ text, ¬ Makes world arguments text

theorem onlyTells_of_ne_work
    (hpage : ∀ choices rest request,
      readInvocation world arguments = .ok (.command choices .render rest) →
      readRender world rest ≠ .ok (.work request))
    (hhelpfile : ∀ choices rest request,
      readInvocation world arguments = .ok (.command choices .helpfile rest) →
      readHelpfile world rest ≠ .ok (.work request)) : OnlyTells world arguments where
  outputFile_eq := by
    unfold outputFile?
    split
    · next hinvocation =>
      split
      · next request hrequest => exact absurd hrequest (hpage _ _ request hinvocation)
      · rfl
    · next hinvocation =>
      split
      · next request hrequest => exact absurd hrequest (hhelpfile _ _ request hinvocation)
      · rfl
    · rfl
  not_makes text hmakes := by
    cases hmakes with
    | page requests =>
      obtain ⟨hinvocation, -, hrequest⟩ := requests
      exact hpage _ _ _ hinvocation hrequest
    | helpfile requests =>
      obtain ⟨hinvocation, -, hrequest⟩ := requests
      exact hhelpfile _ _ _ hinvocation hrequest

/-! ### What is made -/

section Pages

variable {context : Context} {request : RenderRequest} {renderer : Page.Renderer}
  {view : Page.View}

/-- Notes apart, the page is chosen by its format, the model and the view. -/
theorem outcome_choosePage (world : World) (context : Context) (request : RenderRequest) :
    (choosePage world context request).outcome =
      (requireModel world request.model).outcome.bind fun _ ↦
        (chooseFormat context.settings request.format).outcome.bind fun format ↦
          (loadModel world request.model).outcome.bind fun model ↦
            (chooseView model request.target).outcome.map fun view ↦
              (pageRenderer world context request format, view) := by
  unfold choosePage
  simp only [Log.Traced.outcome_bind]
  rfl

theorem isPageFor_of_choosePage
    (hpage : (choosePage world context request).outcome = .ok (renderer, view)) :
    IsPageFor world context request renderer view := by
  simp only [outcome_choosePage, bind_eq_ok_iff, map_eq_ok_iff, loadModel, outcome_lift,
    mapError_eq_ok_iff, Prod.mk.injEq] at hpage
  obtain ⟨-, -, format, hformat, model, hload, view, hview, rfl, rfl⟩ := hpage
  exact ⟨format, model, hformat, hload, hview, rfl⟩

theorem choosePage_of_isPageFor (hpage : IsPageFor world context request renderer view) :
    (choosePage world context request).outcome = .ok (renderer, view) := by
  obtain ⟨format, model, hformat, hload, hview, rfl⟩ := hpage
  have hmodel : (loadModel world request.model).outcome = .ok model := by
    rw [loadModel, outcome_lift, hload, mapError_ok]
  simp only [outcome_choosePage, bind_eq_ok_iff, map_eq_ok_iff]
  exact ⟨(), requireModel_of_load hload, format, hformat, model, hmodel, view, hview, rfl⟩

theorem mem_of_findTarget? {model : Model} {name : String} {target : Target}
    (hfound : model.findTarget? name = some target) : target ∈ model.targets := by
  rw [Model.findTarget?, Option.orElse_eq_orElse, Option.orElse_eq_or,
    Option.or_eq_some_iff] at hfound
  rcases hfound with hname | ⟨-, halias⟩
  · exact List.mem_of_find?_eq_some hname
  · exact List.mem_of_find?_eq_some halias

/-- No number on a page for a model from a file is too long to be written. -/
theorem hasShortNumbers_of_isPageFor (hpage : IsPageFor world context request renderer view) :
    view.HasShortNumbers renderer.format := by
  obtain ⟨format, model, -, hload, hview, -⟩ := hpage
  have hshort := Model.isShort_lineNumber_of_load hload
  unfold chooseView at hview
  split at hview
  · obtain rfl := Except.ok.inj hview
    exact fun _ ↦ hshort
  · split at hview
    · next target hfound =>
      obtain rfl := Except.ok.inj hview
      unfold Page.View.ofTarget
      split
      · exact fun _ ↦ hshort target (mem_of_findTarget? hfound)
      · exact fun _ ↦ hshort target (mem_of_findTarget? hfound)
    · cases hview

end Pages

theorem isHelpfileFor_iff_makeHelpfile {context : Context} {request : HelpfileRequest}
    {text : String} :
    IsHelpfileFor world context request text ↔
      (makeHelpfile world context request).outcome = .ok text := by
  rw [outcome_makeHelpfile_eq_ok_iff]
  constructor
  · rintro ⟨model, hload, hgenerate⟩
    rw [Makefile.outcome_generate _ _ _ (hasShortPlaces_of_load hload), map_eq_ok_iff] at hgenerate
    obtain ⟨stamp, hstamp, htext⟩ := hgenerate
    exact ⟨model, stamp, hload, mapError_eq_ok_iff.mp hstamp, htext⟩
  · rintro ⟨model, stamp, hload, hstamp, rfl⟩
    have hmoment : ((writtenOptions world context request).generatedAt.getD world.now).stamp =
        .ok stamp := hstamp
    exact ⟨model, hload,
      Makefile.outcome_generate_of_stamp _ hmoment (hasShortPlaces_of_load hload)⟩

/-! ### How a run ends -/

/-- The ways in which a run ends, with its outcome, what it has printed, and the files after it. -/
inductive Conclusion (world : World) (arguments : List String) :
    Except Failure Success → String → Files.Tree → Prop
  | early {failure : Failure} (isEarly : failure.IsEarly) :
    Conclusion world arguments (.error failure) "" world.tree
  | information {sink : Page.Capacity} {texts : List String}
      (onlyTells : OnlyTells world arguments)
      (single : commandName? world arguments = some .render ∨
        commandName? world arguments = some .helpfile → ∃ text, texts = [text]) :
    Conclusion world arguments (concluded (deliverTexts sink texts).ending world.tree)
      (String.join (deliverTexts sink texts).written) world.tree
  | page {context : Context} {request : RenderRequest} {renderer : Page.Renderer}
      {view : Page.View} (requests : RequestsPage world arguments context request)
      (output_eq : request.output = none)
      (isPageFor : IsPageFor world context request renderer view) {delivery : Page.Delivery}
      (delivery_eq : delivery = renderer.deliver world.workingDirectory world.pages view) :
    Conclusion world arguments (concluded delivery.ending world.tree)
      (String.join delivery.written) world.tree
  | pageFile {context : Context} {request : RenderRequest} {renderer : Page.Renderer}
      {view : Page.View} {path : Path} {place : Files.Place}
      (requests : RequestsPage world arguments context request)
      (output_eq : request.output = some path)
      (isPageFor : IsPageFor world context request renderer view)
      (writable_eq : world.tree.writable world.directory path.text = .ok place)
      {delivery : Page.Delivery}
      (delivery_eq : delivery = renderer.deliver world.workingDirectory world.fileSink view)
      {after : Files.Tree}
      (after_eq : after = world.tree.put place (.file (delivery.written.flatMap encoded))) :
    Conclusion world arguments (concluded delivery.ending after) "" after
  | brokenHelpfile {context : Context} {request : HelpfileRequest} {text : String}
      {place : Files.Place} (requests : RequestsHelpfile world arguments context request)
      (isHelpfileFor : IsHelpfileFor world context request text)
      (writable_eq : world.tree.writable world.directory request.output.text = .ok place)
      (not_takes : ¬ Takes world.fileSink [text]) {ending : Page.Ending} :
    Conclusion world arguments (.error (.unwritten ending)) "" (world.tree.put place (.file []))
  | helpfile {context : Context} {request : HelpfileRequest} {text : String}
      {place : Files.Place} (requests : RequestsHelpfile world arguments context request)
      (isHelpfileFor : IsHelpfileFor world context request text)
      (writable_eq : world.tree.writable world.directory request.output.text = .ok place)
      (takes : Takes world.fileSink [text]) {after : Files.Tree}
      (after_eq : after = world.tree.put place (.file (encoded text))) {delivery : Page.Delivery}
      (delivery_eq : delivery =
        deliverTexts world.notices [writtenNotice context.console request.output]) :
    Conclusion world arguments (concluded delivery.ending after) (String.join delivery.written)
      after

/-- Of a single text that a sink does not take, nothing is written. -/
theorem written_deliverTexts_singleton {sink : Page.Capacity} {text : String}
    (htakes : ¬ Takes sink [text]) : (deliverTexts sink [text]).written = [] := by
  unfold Takes deliverTexts at *
  rw [List.map_singleton, Page.deliver] at *
  cases htaken : sink.afterChunk { text } with
  | error ending => rfl
  | ok remaining =>
    rw [htaken] at htakes
    exact absurd rfl htakes

section Commands

variable {context : Context}

theorem endsAs_tell {sink : Page.Capacity} {texts : List String}
    (htells : OnlyTells world arguments)
    (hsingle : commandName? world arguments = some .render ∨
      commandName? world arguments = some .helpfile → ∃ text, texts = [text]) :
    EndsAs world.tree (Conclusion world arguments) (tell world sink texts) :=
  endsAs_print_bind (.information htells hsingle)

theorem endsAs_render {request : RenderRequest}
    (hrequests : RequestsPage world arguments context request) :
    EndsAs world.tree (Conclusion world arguments) (render world context request) := by
  refine (isQuiet_choosePage world context request).endsAs_bind (fun _ _ ↦ .early)
    fun page hpage ↦ ?_
  have hpageFor := isPageFor_of_choosePage hpage
  cases houtput : request.output with
  | none => exact endsAs_print_bind (.page hrequests houtput hpageFor rfl)
  | some path =>
    refine endsAs_writeFile_bind (fun fault _ ↦ .early (by simp [Failure.IsEarly, writeFailure]))
      fun place after hwritable hafter ↦ ?_
    have hfile := Conclusion.pageFile hrequests houtput hpageFor hwritable rfl hafter
    split
    · next hending =>
      rw [hending, concluded_complete] at hfile
      exact IsQuiet.endsAs_addNotes_bind ((IsQuiet.pure _).endsAs hfile)
    · next hending =>
      rwa [concluded_of_ne_complete hending] at hfile

theorem endsAs_helpfile {request : HelpfileRequest}
    (hrequests : RequestsHelpfile world arguments context request) :
    EndsAs world.tree (Conclusion world arguments) (helpfile world context request) := by
  refine (isQuiet_makeHelpfile world context request).endsAs_bind (fun _ _ ↦ .early)
    fun text htext ↦ ?_
  have hhelpfile := isHelpfileFor_iff_makeHelpfile.mpr htext
  refine endsAs_writeFile_bind (fun fault _ ↦ .early (by simp [Failure.IsEarly, writeFailure]))
    fun place after hwritable hafter ↦ ?_
  split
  · next htakes =>
    rw [written_of_takes htakes, List.flatMap_singleton] at hafter
    have hend := Conclusion.helpfile hrequests hhelpfile hwritable htakes hafter rfl
    subst hafter
    exact IsQuiet.endsAs_addNotes_bind (endsAs_print_bind hend)
  · next htakes =>
    rw [hafter, written_deliverTexts_singleton htakes]
    exact .brokenHelpfile hrequests hhelpfile hwritable htakes

theorem endsAs_serve {α : Type} {name : CommandName} {choices : ProgramChoices}
    {rest : List String} {work : α → Run Success}
    (read : World → List String → Except UsageFault (Asked α))
    (hinvocation : readInvocation world arguments = .ok (.command choices name rest))
    (hcontext : (makeContext world choices).outcome = .ok context)
    (htells : read world rest = .ok .help → OnlyTells world arguments)
    (hwork : ∀ request, Requests world arguments name read context request →
      EndsAs world.tree (Conclusion world arguments) (work request)) :
    EndsAs world.tree (Conclusion world arguments) (serve world name (read world rest) work) := by
  unfold serve
  split
  · exact (IsQuiet.fail (by simp [Failure.IsEarly])).endsAs (.early (by simp [Failure.IsEarly]))
  · next hhelp => exact endsAs_tell (htells hhelp) fun _ ↦ ⟨_, rfl⟩
  · next request hrequest => exact hwork request ⟨hinvocation, hcontext, hrequest⟩

theorem endsAs_runCommand {name : CommandName} {choices : ProgramChoices} {rest : List String}
    (hinvocation : readInvocation world arguments = .ok (.command choices name rest))
    (hcontext : (makeContext world choices).outcome = .ok context) :
    EndsAs world.tree (Conclusion world arguments) (runCommand world context name rest) := by
  have hname : commandName? world arguments = some name := by
    rw [commandName?, hinvocation]
  cases name with
  | formats =>
    have htells : OnlyTells world arguments :=
      onlyTells_of_ne_work (by simp [hinvocation]) (by simp [hinvocation])
    have hformats : IsQuiet (formats context.console) :=
      (IsQuiet.addNotes _).bind fun _ ↦ .pure _
    exact endsAs_serve (fun _ ↦ readFormats) hinvocation hcontext (fun _ ↦ htells) fun _ _ ↦
      hformats.endsAs_bind (fun _ _ ↦ .early) fun _ _ ↦ endsAs_tell htells (by simp [hname])
  | version =>
    have htells : OnlyTells world arguments :=
      onlyTells_of_ne_work (by simp [hinvocation]) (by simp [hinvocation])
    exact endsAs_serve (fun _ ↦ readVersion) hinvocation hcontext (fun _ ↦ htells)
      fun _ _ ↦ endsAs_tell htells (by simp [hname])
  | render =>
    refine endsAs_serve readRender hinvocation hcontext (fun hhelp ↦ ?_) fun _ ↦ endsAs_render
    refine onlyTells_of_ne_work (fun _ _ request hread ↦ ?_) (by simp [hinvocation])
    cases hinvocation.symm.trans hread
    simp [hhelp]
  | helpfile =>
    refine endsAs_serve readHelpfile hinvocation hcontext (fun hhelp ↦ ?_) fun _ ↦ endsAs_helpfile
    refine onlyTells_of_ne_work (by simp [hinvocation]) fun _ _ request hread ↦ ?_
    cases hinvocation.symm.trans hread
    simp [hhelp]

end Commands

/-- A run of the program ends in one of these ways. -/
theorem conclusion_run (world : World) (arguments : List String) :
    Conclusion world arguments (run world arguments).outcome (run world arguments).output
      ((run world arguments).files world) := by
  unfold run
  split
  · exact .early (by simp [Failure.IsEarly])
  · next invocation hread =>
    change EndsAs world.tree (Conclusion world arguments) (invoke world invocation)
    cases invocation with
    | help =>
      exact endsAs_tell (onlyTells_of_ne_work (by simp [hread]) (by simp [hread])) fun _ ↦ ⟨_, rfl⟩
    | hint choices =>
      refine (isQuiet_makeContext world choices).endsAs_bind (fun _ _ ↦ .early) fun context _ ↦ ?_
      exact endsAs_tell (onlyTells_of_ne_work (by simp [hread]) (by simp [hread]))
        (by simp [commandName?, hread])
    | command choices name rest =>
      exact (isQuiet_makeContext world choices).endsAs_bind (fun _ _ ↦ .early)
        fun context hcontext ↦ endsAs_runCommand hread hcontext

/-- The files of a success are those after the run. -/
theorem Conclusion.files_eq {outcome : Except Failure Success} {printed : String}
    {files : Files.Tree} {success : Success}
    (hend : Conclusion world arguments outcome printed files) (hok : outcome = .ok success) :
    files = success.tree := by
  have htree : ∀ {ending : Page.Ending} {tree : Files.Tree},
      concluded ending tree = .ok success → tree = success.tree := by
    intro ending tree hsuccess
    obtain ⟨-, -, rfl⟩ := map_eq_ok_iff.mp hsuccess
    rfl
  cases hend with
  | early => cases hok
  | brokenHelpfile => cases hok
  | information => exact htree hok
  | page => exact htree hok
  | pageFile => exact htree hok
  | helpfile => exact htree hok

/-- The files of a run that succeeds are those of its outcome. -/
theorem files_run_of_ok {success : Success} (hrun : (run world arguments).outcome = .ok success) :
    (run world arguments).files world = success.tree :=
  (conclusion_run world arguments).files_eq hrun

/-- Where no output file is asked for, all files are as before. -/
theorem Conclusion.files_eq_of_none {outcome : Except Failure Success} {printed : String}
    {files : Files.Tree} (hend : Conclusion world arguments outcome printed files)
    (houtput : outputFile? world arguments = none) : files = world.tree := by
  cases hend with
  | early => rfl
  | information => rfl
  | page => rfl
  | pageFile hrequests hpath =>
    rw [outputFile?_of_requestsPage hrequests, hpath] at houtput
    cases houtput
  | brokenHelpfile hrequests =>
    rw [outputFile?_of_requestsHelpfile hrequests] at houtput
    cases houtput
  | helpfile hrequests =>
    rw [outputFile?_of_requestsHelpfile hrequests] at houtput
    cases houtput

/-- The command that writes help makefiles changes no file, or writes what it has made of the
model. -/
theorem Conclusion.files_cases {outcome : Except Failure Success} {printed : String}
    {files : Files.Tree} (hend : Conclusion world arguments outcome printed files)
    (hname : commandName? world arguments = some .helpfile) :
    files = world.tree ∨ ∃ context request text content,
      RequestsHelpfile world arguments context request ∧
      IsHelpfileFor world context request text ∧
      world.tree.write world.directory request.output.text content = .ok files ∧
      ((Text.Encoding.utf8 world.machine.surrogates).CanWrite text → content = encoded text) := by
  cases hend with
  | early => exact .inl rfl
  | information => exact .inl rfl
  | page => exact .inl rfl
  | pageFile hrequests =>
    obtain ⟨hinvocation, -, -⟩ := hrequests
    rw [commandName?, hinvocation] at hname
    cases hname
  | brokenHelpfile hrequests hhelpfile hwritable hnot =>
    refine .inr ⟨_, _, _, [], hrequests, hhelpfile, ?_, fun hcan ↦ ?_⟩
    · rw [Files.Tree.write, hwritable]
    · exact absurd (takes_encoded_iff.mpr hcan) hnot
  | helpfile hrequests hhelpfile hwritable _ hafter =>
    refine .inr ⟨_, _, _, _, hrequests, hhelpfile, ?_, fun _ ↦ rfl⟩
    rw [Files.Tree.write, hwritable, hafter]

/-! ### Files that are written -/

end HelpSheet.Command
