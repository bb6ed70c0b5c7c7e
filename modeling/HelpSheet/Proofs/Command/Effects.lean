import HelpSheet.Command.Program
import HelpSheet.Proofs.Files.Walking
import HelpSheet.Proofs.Page.Sinks

/-!
# Effects of commands

Nothing takes back what a command has printed and written, so what is left of a command that fails
depends on how far it has come. All parts of a command but its last ones are quiet (`IsQuiet`):
however they end, they leave no trace, and they deliver nothing. What holds of the end of a command
is therefore what holds of the end of its deliveries (`EndsAs`), behind quiet parts
(`IsQuiet.endsAs_bind`), to the standard output (`endsAs_print_bind`) and to files
(`endsAs_writeFile_bind`).
-/

set_option autoImplicit false
set_option relaxedAutoImplicit false

namespace HelpSheet.Command

variable {α β : Type} {world : World}

theorem outcome_lift {ε α : Type} (failure : ε → Failure)
    (computation : Log.Traced Log.Note ε α) :
    (lift failure computation).outcome = computation.outcome.mapError failure := rfl

/-! ### What a run leaves -/

/-- What a run has printed on the standard output. -/
def printedBy (run : Run α) : String :=
  String.join (run.notes.map Event.printed)

/-- The files after a run. -/
def filesAfter (tree : Files.Tree) (run : Run α) : Files.Tree :=
  run.notes.foldl Event.change tree

/-- A run ends in the given way, as to its outcome, what it has printed, and the files after it. -/
def EndsAs (tree : Files.Tree) (Way : Except Failure α → String → Files.Tree → Prop)
    (run : Run α) : Prop :=
  Way run.outcome (printedBy run) (filesAfter tree run)

theorem printedBy_bind_of_ok {first : Run α} {a : α} (hfirst : first.outcome = .ok a)
    (next : α → Run β) : printedBy (first >>= next) = printedBy first ++ printedBy (next a) := by
  rw [printedBy, Log.Traced.notes_bind_of_ok hfirst, List.map_append, String.join_append]
  rfl

theorem filesAfter_bind_of_ok {first : Run α} {a : α} (hfirst : first.outcome = .ok a)
    (next : α → Run β) (tree : Files.Tree) :
    filesAfter tree (first >>= next) = filesAfter (filesAfter tree first) (next a) := by
  rw [filesAfter, Log.Traced.notes_bind_of_ok hfirst, List.foldl_append]
  rfl

theorem outcome_bind_of_ok {first : Run α} {a : α} (hfirst : first.outcome = .ok a)
    (next : α → Run β) : (first >>= next).outcome = (next a).outcome := by
  rw [Log.Traced.outcome_bind, hfirst]
  rfl

theorem join_printed_eq_empty {events : List Event}
    (hevents : ∀ event ∈ events, event.printed = "") :
    String.join (events.map Event.printed) = "" := by
  rw [List.map_congr_left hevents]
  induction events with
  | nil => rfl
  | cons event events ih =>
    rw [List.map_cons, String.join_cons, ih (List.forall_mem_cons.mp hevents).2,
      String.append_empty]

/-! ### Quiet runs -/

/-- An event that shows neither on the standard output nor in the files. -/
def Event.IsQuiet : Event → Prop
  | note _ => True
  | message _ => True
  | _ => False

/-- A failure that does not come in the middle of a delivery. -/
def Failure.IsEarly (failure : Failure) : Prop :=
  ∀ ending, failure ≠ .unwritten ending

/-- A run that neither prints nor writes, however it ends, and that does not stop in the middle of a
delivery. -/
structure IsQuiet (run : Run α) : Prop where
  events : ∀ event ∈ run.notes, event.IsQuiet
  isEarly : ∀ failure, run.outcome = .error failure → failure.IsEarly

namespace IsQuiet

theorem of_ok {run : Run α} {a : α} (hevents : ∀ event ∈ run.notes, event.IsQuiet)
    (houtcome : run.outcome = .ok a) : IsQuiet run where
  events := hevents
  isEarly failure hfails := by
    rw [houtcome] at hfails
    cases hfails

theorem pure (a : α) : IsQuiet (pure a : Run α) :=
  of_ok (List.forall_mem_nil _) rfl

theorem fail {failure : Failure} (hearly : failure.IsEarly) :
    IsQuiet (Log.Traced.fail failure : Run α) where
  events := List.forall_mem_nil _
  isEarly _ hfails := Except.error.inj hfails ▸ hearly

theorem addNotes (notes : List Log.Note) : IsQuiet (addNotes notes) :=
  of_ok (List.forall_mem_map.mpr fun _ _ ↦ trivial) rfl

theorem warn (console : Terminal.Console) (text : String) : IsQuiet (warn console text) :=
  of_ok (List.forall_mem_singleton.mpr trivial) rfl

/-- The library takes notes only. -/
theorem lift {ε : Type} {failure : ε → Failure} (hearly : ∀ error, (failure error).IsEarly)
    (computation : Log.Traced Log.Note ε α) : IsQuiet (lift failure computation) where
  events := List.forall_mem_map.mpr fun _ _ ↦ trivial
  isEarly found hfails := by
    change computation.outcome.mapError failure = .error found at hfails
    cases houtcome : computation.outcome with
    | error error =>
      rw [houtcome] at hfails
      exact Except.error.inj hfails ▸ hearly error
    | ok a =>
      rw [houtcome] at hfails
      cases hfails

theorem bind {first : Run α} {next : α → Run β} (hfirst : IsQuiet first)
    (hnext : ∀ a, IsQuiet (next a)) : IsQuiet (first >>= next) where
  events := Log.Traced.forall_notes_bind hfirst.events fun a ↦ (hnext a).events
  isEarly failure hfails := by
    rcases Log.Traced.outcome_bind_eq_error.mp hfails with hfails | ⟨a, -, hfails⟩
    · exact hfirst.isEarly failure hfails
    · exact (hnext a).isEarly failure hfails

theorem printedBy_eq {run : Run α} (hrun : IsQuiet run) : printedBy run = "" := by
  have hprinted : ∀ event ∈ run.notes, event.printed = "" := by
    intro event hevent
    have hquiet := hrun.events event hevent
    cases event <;> first | rfl | exact hquiet.elim
  exact join_printed_eq_empty hprinted

theorem filesAfter_eq {run : Run α} (hrun : IsQuiet run) (tree : Files.Tree) :
    filesAfter tree run = tree := by
  have hchange : ∀ event ∈ run.notes, ∀ tree, event.change tree = tree := by
    intro event hevent tree
    have hquiet := hrun.events event hevent
    cases event <;> first | rfl | exact hquiet.elim
  rw [filesAfter]
  exact List.foldlRecOn _ _ (motive := (· = tree)) rfl
    fun before hbefore event hevent ↦ (hchange event hevent before).trans hbefore

/-- What comes before a run may fail without a trace as long as it is quiet. -/
theorem endsAs_bind {tree : Files.Tree} {Way : Except Failure β → String → Files.Tree → Prop}
    {first : Run α} {next : α → Run β} (hfirst : IsQuiet first)
    (hearly : ∀ failure, first.outcome = .error failure → failure.IsEarly →
      Way (.error failure) "" tree)
    (hnext : ∀ a, first.outcome = .ok a → EndsAs tree Way (next a)) :
    EndsAs tree Way (first >>= next) := by
  cases houtcome : first.outcome with
  | error failure =>
    have hrun : (first >>= next).outcome = .error failure := by
      rw [Log.Traced.outcome_bind, houtcome]
      rfl
    have hnotes := Log.Traced.notes_bind_of_error houtcome next
    rw [EndsAs, hrun, printedBy, filesAfter, hnotes]
    have hfailure := hearly failure houtcome (hfirst.isEarly failure houtcome)
    rwa [← hfirst.printedBy_eq, ← hfirst.filesAfter_eq tree] at hfailure
  | ok a =>
    rw [EndsAs, outcome_bind_of_ok houtcome, printedBy_bind_of_ok houtcome,
      filesAfter_bind_of_ok houtcome, hfirst.printedBy_eq, hfirst.filesAfter_eq,
      String.empty_append]
    exact hnext a houtcome

/-- Notes before a run leave its end as it is. -/
theorem endsAs_addNotes_bind {tree : Files.Tree}
    {Way : Except Failure β → String → Files.Tree → Prop} {notes : List Log.Note}
    {next : Unit → Run β} (hnext : EndsAs tree Way (next ())) :
    EndsAs tree Way (Command.addNotes notes >>= next) :=
  (IsQuiet.addNotes notes).endsAs_bind (fun _ hfails ↦ by cases hfails) fun _ _ ↦ hnext

theorem endsAs {tree : Files.Tree} {Way : Except Failure α → String → Files.Tree → Prop}
    {run : Run α} (hrun : IsQuiet run) (hway : Way run.outcome "" tree) : EndsAs tree Way run := by
  rw [EndsAs, hrun.printedBy_eq, hrun.filesAfter_eq]
  exact hway

end IsQuiet

/-! ### Deliveries -/

/-- A sink takes texts one after the other, all of them. -/
def Takes (sink : Page.Capacity) (texts : List String) : Prop :=
  (deliverTexts sink texts).ending = .complete

instance (sink : Page.Capacity) (texts : List String) : Decidable (Takes sink texts) :=
  inferInstanceAs (Decidable (_ = _))

theorem deliverTexts_eq (sink : Page.Capacity) (texts : List String) :
    deliverTexts sink texts =
      Page.deliver sink ((texts.map fun text ↦ ({ text } : Page.Chunk)).map .ok) := by
  rw [deliverTexts, List.map_map]
  rfl

theorem written_of_takes {sink : Page.Capacity} {texts : List String} (htakes : Takes sink texts) :
    (deliverTexts sink texts).written = texts := by
  rw [Takes, deliverTexts_eq] at htakes
  rw [deliverTexts_eq, Page.written_of_complete htakes, List.map_map]
  exact List.map_id texts

theorem takes_encoded_iff {encoding : Text.Encoding} {text : String} :
    Takes (.encoded encoding) [text] ↔ encoding.CanWrite text :=
  (@Page.ending_encoded_eq_complete_iff encoding [{ text }]).trans List.forall_mem_singleton

theorem outcome_finish (ending : Page.Ending) :
    (finish ending).outcome =
      if ending = .complete then .ok () else .error (.unwritten ending) := by
  unfold finish
  split
  · rfl
  · next hending => rw [if_neg hending]; rfl

theorem outcome_print (delivery : Page.Delivery) :
    (print delivery).outcome = (finish delivery.ending).outcome := rfl

/-- What is delivered to a file is written as one content; then the delivery has to be complete. -/
theorem outcome_writeFile (world : World) (path : Path) (delivery : Page.Delivery) :
    (writeFile world path delivery).outcome =
      ((world.tree.write world.directory path.text (delivery.written.flatMap encoded)).mapError
        (writeFailure path)).bind fun tree ↦ (finish delivery.ending).outcome.map fun _ ↦ tree := by
  unfold writeFile Files.Tree.write
  cases world.tree.writable world.directory path.text with
  | error fault => rfl
  | ok place =>
    simp only [Log.Traced.outcome_bind, mapError_ok, Except.bind]
    cases (finish delivery.ending).outcome <;> rfl

/-- A file that can be opened is written as far as the delivery gets. -/
theorem outcome_writeFile_of_ne_complete {world : World} {path : Path} {place : Files.Place}
    {delivery : Page.Delivery}
    (hwritable : world.tree.writable world.directory path.text = .ok place)
    (hending : delivery.ending ≠ .complete) :
    (writeFile world path delivery).outcome = .error (.unwritten delivery.ending) := by
  rw [outcome_writeFile, Files.Tree.write, hwritable, outcome_finish, if_neg hending]
  rfl

/-- A text is written to a file where the file can be written and UTF-8 has all its characters. -/
theorem outcome_writeFile_text_eq_ok_iff {world : World} {path : Path} {text : String}
    {tree : Files.Tree} :
    (writeFile world path (deliverTexts world.fileSink [text])).outcome = .ok tree ↔
      (Text.Encoding.utf8 world.machine.surrogates).CanWrite text ∧
        world.tree.write world.directory path.text (encoded text) = .ok tree := by
  rw [outcome_writeFile, outcome_finish, ← takes_encoded_iff]
  by_cases htakes : Takes world.fileSink [text]
  · have hending : (deliverTexts world.fileSink [text]).ending = .complete := htakes
    have htaken : Takes (.encoded (.utf8 world.machine.surrogates)) [text] := htakes
    rw [written_of_takes htakes, hending, if_pos rfl, List.flatMap_singleton, and_iff_right htaken]
    cases world.tree.write world.directory path.text (encoded text) <;>
      simp [Except.bind, Except.map]
  · have hending : (deliverTexts world.fileSink [text]).ending ≠ .complete := htakes
    have hrefused : ¬ Takes (.encoded (.utf8 world.machine.surrogates)) [text] := htakes
    rw [if_neg hending]
    refine iff_of_false (fun hok ↦ ?_) fun hall ↦ hrefused hall.1
    obtain ⟨written, -, hfinish⟩ := bind_eq_ok_iff.mp hok
    cases hfinish

theorem encoded_eq (text : String) : encoded text = text.toList.flatMap String.utf8EncodeChar := by
  rw [encoded, String.toUTF8_eq_toByteArray, ← String.utf8Encode_toList, List.utf8Encode,
    List.data_toByteArray]

theorem encoded_injective {first second : String} (hbytes : encoded first = encoded second) :
    first = second :=
  String.toByteArray_inj.mp (ByteArray.ext (Array.toList_inj.mp hbytes))

theorem encoded_append (first second : String) :
    encoded (first ++ second) = encoded first ++ encoded second := by
  simp [encoded, String.toUTF8]

/-- The outcome of a command whose last step is a delivery, with the files that it leaves. -/
def concluded (ending : Page.Ending) (tree : Files.Tree) : Except Failure Success :=
  (finish ending).outcome.map fun _ ↦ { tree }

theorem concluded_complete (tree : Files.Tree) : concluded .complete tree = .ok { tree } := rfl

theorem concluded_of_ne_complete {ending : Page.Ending} (hending : ending ≠ .complete)
    (tree : Files.Tree) : concluded ending tree = .error (.unwritten ending) := by
  rw [concluded, outcome_finish, if_neg hending]
  rfl

theorem concluded_eq_error_iff {ending found : Page.Ending} {tree : Files.Tree} :
    concluded ending tree = .error (.unwritten found) ↔ ending = found ∧ found ≠ .complete := by
  by_cases hending : ending = .complete
  · rw [hending, concluded_complete]
    refine iff_of_false (by simp) ?_
    rintro ⟨rfl, hne⟩
    exact hne rfl
  · rw [concluded_of_ne_complete hending]
    constructor
    · intro heq
      cases heq
      exact ⟨rfl, hending⟩
    · rintro ⟨rfl, -⟩
      rfl

theorem notes_finish (ending : Page.Ending) : (finish ending).notes = [] := by
  unfold finish
  split <;> rfl

theorem printedBy_print (delivery : Page.Delivery) :
    printedBy (print delivery) = String.join delivery.written := by
  have hprinted : printedBy (Log.Traced.addNotes (delivery.written.map .print) : Run Unit) =
      String.join delivery.written := by
    simp [printedBy, Log.Traced.addNotes, Function.comp_def, Event.printed]
  have hfinish : printedBy (finish delivery.ending) = "" := by
    rw [printedBy, notes_finish]
    rfl
  rw [print, printedBy_bind_of_ok rfl, printedBy_bind_of_ok rfl, hprinted, hfinish,
    (IsQuiet.addNotes delivery.notes).printedBy_eq, String.empty_append, String.append_empty]

theorem filesAfter_print (tree : Files.Tree) (delivery : Page.Delivery) :
    filesAfter tree (print delivery) = tree := by
  have hprinted : filesAfter tree (Log.Traced.addNotes (delivery.written.map .print) : Run Unit) =
      tree := by
    rw [filesAfter, Log.Traced.addNotes, List.foldl_map]
    exact List.foldlRecOn _ _ (motive := (· = tree)) rfl fun _ hbefore _ _ ↦ hbefore
  rw [print, filesAfter_bind_of_ok rfl, filesAfter_bind_of_ok rfl,
    (IsQuiet.addNotes delivery.notes).filesAfter_eq, hprinted, filesAfter, notes_finish]
  rfl

/-- A command that ends with printing leaves what its last delivery has brought. -/
theorem endsAs_print_bind {tree : Files.Tree}
    {Way : Except Failure Success → String → Files.Tree → Prop} {delivery : Page.Delivery}
    (hway : Way (concluded delivery.ending tree) (String.join delivery.written) tree) :
    EndsAs tree Way (print delivery >>= fun _ ↦ pure { tree }) := by
  have houtcome : (print delivery >>= fun _ ↦ (pure { tree } : Run Success)).outcome =
      concluded delivery.ending tree := by
    rw [Log.Traced.outcome_bind, outcome_print]
    rfl
  have hnotes : (print delivery >>= fun _ ↦ (pure { tree } : Run Success)).notes =
      (print delivery).notes := by
    cases hprint : (print delivery).outcome with
    | error failure => rw [Log.Traced.notes_bind_of_error hprint]
    | ok _ => rw [Log.Traced.notes_bind_of_ok hprint, Log.Traced.notes_pure, List.append_nil]
  have hprinted : printedBy (print delivery >>= fun _ ↦ (pure { tree } : Run Success)) =
      String.join delivery.written := by
    rw [printedBy, hnotes]
    exact printedBy_print delivery
  have hfiles : filesAfter tree (print delivery >>= fun _ ↦ (pure { tree } : Run Success)) =
      tree := by
    rw [filesAfter, hnotes]
    exact filesAfter_print tree delivery
  rw [EndsAs, houtcome, hprinted, hfiles]
  exact hway

/-- Texts that are written one after the other stand in the file one behind the other. -/
theorem foldl_change_extend {place : Files.Place} (hplace : place ≠ []) (tree : Files.Tree)
    (texts : List String) (before : List UInt8) :
    (texts.map fun text ↦ Event.extend place (encoded text)).foldl Event.change
        (tree.put place (.file before)) =
      tree.put place (.file (before ++ texts.flatMap encoded)) := by
  induction texts generalizing before with
  | nil => simp
  | cons text texts ih =>
    rw [List.map_cons, List.foldl_cons, Event.change, Files.Tree.extend_put hplace, ih,
      List.flatMap_cons, List.append_assoc]

section Writing

variable {path : Path} {delivery : Page.Delivery} {place : Files.Place}

theorem notes_writeFile (hwritable : world.tree.writable world.directory path.text = .ok place) :
    (writeFile world path delivery).notes =
      .create place :: delivery.written.map (fun text ↦ .extend place (encoded text)) ++
        delivery.notes.map .note := by
  have hrest : ((do
      finish delivery.ending
      pure (world.tree.put place (.file (delivery.written.flatMap encoded)))) :
        Run Files.Tree).notes = [] := by
    cases hfinish : (finish delivery.ending).outcome with
    | error failure => rw [Log.Traced.notes_bind_of_error hfinish, notes_finish]
    | ok _ => rw [Log.Traced.notes_bind_of_ok hfinish, notes_finish, Log.Traced.notes_pure]; rfl
  rw [writeFile, hwritable]
  simp only
  rw [Log.Traced.notes_bind_of_ok rfl, Log.Traced.notes_bind_of_ok rfl, hrest, List.append_nil]
  rfl

theorem printedBy_writeFile
    (hwritable : world.tree.writable world.directory path.text = .ok place) :
    printedBy (writeFile world path delivery) = "" := by
  have hprinted : ∀ event ∈ (writeFile world path delivery).notes, event.printed = "" := by
    simp [notes_writeFile hwritable, or_imp, forall_and, Event.printed]
  exact join_printed_eq_empty hprinted

theorem filesAfter_writeFile
    (hwritable : world.tree.writable world.directory path.text = .ok place) :
    filesAfter world.tree (writeFile world path delivery) =
      world.tree.put place (.file (delivery.written.flatMap encoded)) := by
  rw [filesAfter, notes_writeFile hwritable, List.foldl_append, List.foldl_cons, Event.change,
    foldl_change_extend (Files.Tree.ne_nil_of_writable hwritable)]
  exact (IsQuiet.addNotes delivery.notes).filesAfter_eq _

/-- The file is not opened, or what is delivered to it makes its content, and the command goes on
where the delivery comes to its end. -/
theorem endsAs_writeFile_bind {Way : Except Failure Success → String → Files.Tree → Prop}
    {next : Files.Tree → Run Success}
    (hclosed : ∀ fault, world.tree.writable world.directory path.text = .error fault →
      Way (.error (writeFailure path ⟨fault, path.text⟩)) "" world.tree)
    (hopen : ∀ place after, world.tree.writable world.directory path.text = .ok place →
      after = world.tree.put place (.file (delivery.written.flatMap encoded)) →
      if delivery.ending = .complete then EndsAs after Way (next after)
      else Way (.error (.unwritten delivery.ending)) "" after) :
    EndsAs world.tree Way (writeFile world path delivery >>= next) := by
  cases hwritable : world.tree.writable world.directory path.text with
  | error fault =>
    have hfails : (writeFile world path delivery >>= next) =
        .fail (writeFailure path ⟨fault, path.text⟩) := by
      rw [writeFile, hwritable]
      rfl
    rw [hfails]
    exact hclosed fault hwritable
  | ok place =>
    let after := world.tree.put place (.file (delivery.written.flatMap encoded))
    have hway := hopen place after hwritable rfl
    have hprinted : printedBy (writeFile world path delivery) = "" :=
      printedBy_writeFile hwritable
    have hfiles : filesAfter world.tree (writeFile world path delivery) = after :=
      filesAfter_writeFile hwritable
    have houtcome : (writeFile world path delivery).outcome =
        (finish delivery.ending).outcome.map fun _ ↦ after := by
      rw [outcome_writeFile, Files.Tree.write, hwritable]
      rfl
    rw [outcome_finish] at houtcome
    by_cases hending : delivery.ending = .complete
    · rw [if_pos hending] at hway houtcome
      rw [EndsAs, outcome_bind_of_ok houtcome, printedBy_bind_of_ok houtcome,
        filesAfter_bind_of_ok houtcome, hprinted, hfiles, String.empty_append]
      exact hway
    · rw [if_neg hending] at hway houtcome
      have hfails : (writeFile world path delivery >>= next).outcome =
          .error (.unwritten delivery.ending) := by
        rw [Log.Traced.outcome_bind, houtcome]
        rfl
      have hnotes := Log.Traced.notes_bind_of_error houtcome next
      rw [printedBy, ← hnotes] at hprinted
      rw [filesAfter, ← hnotes] at hfiles
      rw [EndsAs, hfails, printedBy, hprinted, filesAfter, hfiles]
      exact hway

end Writing

/-! ### The parts of commands -/

theorem settingsFailure_isEarly (error : Settings.LoadError) : (settingsFailure error).IsEarly := by
  intro ending
  cases error <;> simp [settingsFailure, Failure.ofProblem]

theorem modelFailure_isEarly (error : Model.LoadError) : (modelFailure error).IsEarly := by
  intro ending
  cases error <;> simp [modelFailure, Failure.ofProblem]

theorem generateFailure_isEarly (fault : Makefile.Fault) : (generateFailure fault).IsEarly := by
  intro ending
  cases fault <;> simp [generateFailure]

theorem isQuiet_checkLevel (world : World) : IsQuiet (checkLevel world) := by
  unfold checkLevel
  split
  · exact .pure _
  · exact .fail (by simp [Failure.IsEarly])

theorem isQuiet_loadSettings (world : World) (asked : Option Path) :
    IsQuiet (loadSettings world asked) := by
  have hfile : IsQuiet (settingsFile world asked) := by
    cases asked with
    | none => exact .lift settingsFailure_isEarly _
    | some path => exact .pure _
  refine hfile.bind fun found ↦ ?_
  cases found with
  | none => exact .pure _
  | some path =>
    exact (IsQuiet.lift settingsFailure_isEarly _).bind fun settings ↦
      (IsQuiet.addNotes _).bind fun _ ↦ .pure _

theorem isQuiet_makeContext (world : World) (choices : ProgramChoices) :
    IsQuiet (makeContext world choices) :=
  (isQuiet_checkLevel world).bind fun _ ↦ (IsQuiet.addNotes _).bind fun _ ↦
    (isQuiet_loadSettings world _).bind fun _ ↦ .pure _

theorem isQuiet_requireModel (world : World) (path : Path) :
    IsQuiet (requireModel world path) := by
  unfold requireModel
  split
  · exact .fail (by simp [Failure.IsEarly])
  · exact .fail (by simp [Failure.IsEarly])
  · exact .pure _

theorem isQuiet_chooseFormat (settings : Settings) (asked : Option String) :
    IsQuiet (chooseFormat settings asked) := by
  unfold chooseFormat
  split
  · exact .pure _
  · split
    · exact .pure _
    · exact .fail (by simp [Failure.IsEarly, Failure.ofProblem])

theorem isQuiet_chooseView (model : Model) (asked : Option String) :
    IsQuiet (chooseView model asked) := by
  unfold chooseView
  split
  · exact .pure _
  · split
    · exact .pure _
    · exact .fail (by simp [Failure.IsEarly])

theorem isQuiet_chooseColor (world : World) (context : Context) (format : Format)
    (isTerminal : Bool) : IsQuiet (chooseColor world context format isTerminal) :=
  (IsQuiet.addNotes _).bind fun _ ↦ .pure _

theorem isQuiet_loadModel (world : World) (path : Path) : IsQuiet (loadModel world path) :=
  .lift modelFailure_isEarly _

theorem isQuiet_choosePage (world : World) (context : Context) (request : RenderRequest) :
    IsQuiet (choosePage world context request) :=
  (isQuiet_requireModel world _).bind fun _ ↦ (isQuiet_chooseFormat _ _).bind fun _ ↦
    (isQuiet_loadModel world _).bind fun _ ↦ (isQuiet_chooseView _ _).bind fun _ ↦
      (isQuiet_chooseColor world _ _ _).bind fun _ ↦ (IsQuiet.addNotes _).bind fun _ ↦ .pure _

theorem isQuiet_makeHelpfile (world : World) (context : Context) (request : HelpfileRequest) :
    IsQuiet (makeHelpfile world context request) := by
  have hwork : IsQuiet (do
      let useColor ← chooseColor world context .make false
      let options := makefileOptions world request useColor
      let model ← loadModel world request.model
      lift generateFailure (Makefile.generate world.workingDirectory world.now options model)) :=
    (isQuiet_chooseColor world _ _ _).bind fun _ ↦ (isQuiet_loadModel world _).bind fun _ ↦
      .lift generateFailure_isEarly _
  refine (isQuiet_requireModel world _).bind fun _ ↦ ?_
  split
  · exact (IsQuiet.warn _ _).bind fun _ ↦ hwork
  · exact hwork

end HelpSheet.Command
