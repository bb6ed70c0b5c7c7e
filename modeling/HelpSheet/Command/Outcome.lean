import HelpSheet.Command.Arguments
import HelpSheet.Json.Reader
import HelpSheet.Log.Level
import HelpSheet.Log.Session
import HelpSheet.Page.Delivery
import HelpSheet.Problem
import HelpSheet.Terminal.Console
import HelpSheet.Time.Moment

/-!
# Outcomes of commands

A command is a function of the world it is called in. What it does on its way, it does step by step:
it takes notes and gives warnings, prints, and opens and writes files. Printing and writing may fail
in the middle, and a failure undoes nothing of what was done before.
-/

set_option autoImplicit false
set_option relaxedAutoImplicit false

namespace HelpSheet.Command

/-- What a command can see, and what it runs on. The standard output takes pages and other messages
by two ways, which may have different encodings. -/
structure World where
  tree : Files.Tree
  directory : Files.Place
  environment : Environment
  now : Time.Moment
  outputIsTerminal : Bool := false
  errorIsTerminal : Bool := false
  machine : Machine := {}
  pages : Page.Capacity := .encoded (.utf8 machine.surrogates)
  notices : Page.Capacity := .encoded (.utf8 machine.surrogates)

/-- The working directory as a path. -/
def World.workingDirectory (world : World) : String :=
  "/" ++ Text.joinWith "/" world.directory

/-- What a file takes. -/
def World.fileSink (world : World) : Page.Capacity :=
  .encoded (.utf8 world.machine.surrogates)

/-- A step of a command that can be seen from outside: a note, a message on the standard error
stream, a text on the standard output, a file that is opened for writing and is empty then, or bytes
at the end of an open file. -/
inductive Event
  | note (note : Log.Note)
  | message (text : String)
  | print (text : String)
  | create (place : Files.Place)
  | extend (place : Files.Place) (content : List UInt8)
  deriving DecidableEq, Repr

/-- Faults that no exit status describes. -/
inductive Breakdown
  | level (fault : Log.LevelFault)
  | notText (error : Text.Utf8.Error)
  | excess (excess : Json.Excess)
  | conflict (conflict : Toml.Conflict)
  | date (error : Time.Moment.OutOfRange)
  deriving DecidableEq, Repr

def Breakdown.message : Breakdown → String
  | level fault => fault.message
  | notText error => error.message
  | excess found => found.message
  | conflict cause => cause.message
  | date error => error.message

/-- Why a command fails: in one of the ways that have an exit status of their own, or because of
something that it does not expect. Unexpected are a breakdown, a place that cannot be seen, a path
that is none, a reader of TOML that gives up, a line that cannot be made, and a delivery that does
not come to its end. -/
inductive Failure
  | misuse (fault : UsageFault)
  | problem (status : ExitStatus) (message : String)
  | breakdown (cause : Breakdown)
  | unseen (error : Files.Error)
  | notPath (fault : Files.NullInPath)
  | givenUp (message : String)
  | unmade (fault : Page.Fault)
  | unwritten (ending : Page.Ending)
  deriving DecidableEq, Repr

/-- The failure that a problem causes. -/
def Failure.ofProblem (problem : Problem) : Failure :=
  .problem problem.status problem.message

/-- The files as a command that succeeds leaves them. -/
structure Success where
  tree : Files.Tree

/-- A command, or a part of one. -/
abbrev Run (α : Type) := Log.Traced Event Failure α

/-- Takes notes. -/
def addNotes (notes : List Log.Note) : Run Unit :=
  Log.Traced.addNotes (notes.map .note)

/-- Gives a warning. -/
def warn (console : Terminal.Console) (text : String) : Run Unit :=
  Log.Traced.note (.message (console.warning text))

/-- Fails unless a delivery has come to its end. -/
def finish : Page.Ending → Run Unit
  | .complete => pure ()
  | ending => .fail (.unwritten ending)

/-- Prints what is delivered on the standard output. -/
def print (delivery : Page.Delivery) : Run Unit := do
  addNotes delivery.notes
  Log.Traced.addNotes (delivery.written.map .print)
  finish delivery.ending

/-- Texts that are handed to a sink one after the other. -/
def deliverTexts (sink : Page.Capacity) (texts : List String) : Page.Delivery :=
  Page.deliver sink (texts.map fun text ↦ .ok { text })

/-- Runs a computation of the library as a part of a command. -/
def lift {ε α : Type} (failure : ε → Failure) (computation : Log.Traced Log.Note ε α) : Run α :=
  (computation.mapError failure).mapNotes .note

/-! ### Reports -/

/-- What an event adds to the standard output. -/
def Event.printed : Event → String
  | print text => text
  | _ => ""

/-- The files after an event. -/
def Event.change (tree : Files.Tree) : Event → Files.Tree
  | create place => tree.put place (.file [])
  | extend place content => tree.extend place content
  | _ => tree

/-- How a command went. -/
structure Report where
  events : List Event
  outcome : Except Failure Success

namespace Report

def exitCode (report : Report) : Nat :=
  match report.outcome with
  | .ok _ => ExitStatus.success.code
  | .error (.misuse _) => 2
  | .error (.problem status _) => status.code
  | .error _ => ExitStatus.failure.code

/-- What is written to the standard output. -/
def output (report : Report) : String :=
  String.join (report.events.map Event.printed)

/-- The files after the command. -/
def files (world : World) (report : Report) : Files.Tree :=
  report.events.foldl Event.change world.tree

/-- The least level of the notes that are shown. -/
def shownLevel (environment : Environment) : Log.Level :=
  match Log.levelOfEnvironment? environment with
  | .ok (some level) => level
  | _ => .critical

/-- A note or a message as it is shown, if it is. -/
def diagnosticText (level : Log.Level) : Event → String
  | .note note => if level ≤ note.level then (Log.LineForm.ofLevel level).write note.entry else ""
  | .message text => text
  | _ => ""

/-- The last word on a failure. Control sequences in it are meant for terminals only. -/
def failureText (world : World) : Failure → String
  | .misuse fault => "Error: " ++ fault.message ++ "\n"
  | .problem _ message => Terminal.Console.line ⟨world.errorIsTerminal⟩ ("Error: " ++ message)
  | _ => ""

/-- What is written to the standard error stream. -/
def errors (world : World) (report : Report) : String :=
  let level := shownLevel world.environment
  String.join (report.events.map (diagnosticText level)) ++
    match report.outcome with
    | .ok _ => ""
    | .error failure => failureText world failure

end Report

end HelpSheet.Command
