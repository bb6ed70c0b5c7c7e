import HelpSheet.Log.Level
import HelpSheet.Log.Note
import HelpSheet.Log.Template
import HelpSheet.Sgr.Pen

/-!
# Log lines and sessions

A log line names the level of a note and gives its message; where notes below the level of
information are shown, it also says where the note was taken. The whole line is written in the color
of its level.

A session is the state of the log while it is set up again and again: the least level shown, and the
output that was connected last. Each setup opens a new stream before it looks for a level, so after
a setup that failed, lines still go to the stream before it.
-/

set_option autoImplicit false
set_option relaxedAutoImplicit false

namespace HelpSheet.Log

/-! ### Lines -/

/-- What is written of a note: its level, the place where it was taken, and its message. -/
structure Entry where
  level : Level
  place : String
  line : Int
  message : String
  deriving DecidableEq, Repr

/-- The entry of a note. -/
def Note.entry (note : Note) : Entry where
  level := note.level
  place := note.channel.name
  line := note.line
  message := note.message

/-- The two forms of lines. -/
inductive LineForm
  | brief
  | located
  deriving DecidableEq, Repr

/-- The form of lines where notes from `level` on are shown. -/
def LineForm.ofLevel (level : Level) : LineForm :=
  if level ≥ .info then brief else located

/-- The text of a line. -/
def LineForm.text (form : LineForm) (entry : Entry) : String :=
  match form with
  | brief => "[" ++ entry.level.name ++ "] " ++ entry.message
  | located =>
    "[" ++ entry.level.name ++ "] [" ++ entry.place ++ ":" ++ toString entry.line ++ "] " ++
      entry.message

/-- The pen for a level: that of the highest named level that it reaches. -/
def penOf (level : Level) : Sgr.Pen :=
  if level ≥ .critical then [Sgr.Pen.foreground 91]
  else if level ≥ .error then [Sgr.Pen.foreground 31]
  else if level ≥ .warning then [Sgr.Pen.foreground 33]
  else if level ≥ .info then [Sgr.Pen.foreground 32]
  else if level ≥ .debug then [Sgr.Pen.foreground 90]
  else if level ≥ .trace then [Sgr.Pen.foreground 34]
  else [Sgr.Pen.dimming, Sgr.Pen.foreground 31]

/-- The written line, with its line feed. -/
def LineForm.write (form : LineForm) (entry : Entry) : String :=
  String.ofList ((penOf entry.level).write (form.text entry).toList) ++ "\n"

/-! ### Sessions -/

/-- An output: the form of its lines, and the number of the stream they go to. -/
structure Output where
  form : LineForm
  stream : Nat
  deriving DecidableEq, Repr

/-- The state of the log. `streams` counts the streams opened so far. -/
structure Session where
  level : Level
  output : Option Output
  streams : Nat
  deriving DecidableEq, Repr

namespace Session

/-- The log before any setup shows nothing that matters and has no output. -/
def initial : Session where
  level := 100
  output := none
  streams := 0

/-- Connects the log to a new stream and sets its level. -/
def setup (session : Session) (given : Option Level) (environment : Environment) :
    Except LevelFault Level × Session :=
  let opened := { session with streams := session.streams + 1 }
  match effectiveLevel given environment with
  | .ok level =>
    (.ok level, { opened with level, output := some ⟨.ofLevel level, opened.streams⟩ })
  | .error fault => (.error fault, opened)

/-- The number of connected outputs. -/
def outputs (session : Session) : Nat :=
  session.output.toList.length

/-- Whether notes of a level are shown. Levels up to zero never are. -/
def shows (session : Session) (level : Level) : Bool :=
  0 < level && session.level ≤ level

/-- The name of the place where a note was taken; the place without a name is the root. -/
def placeName (place : String) : String :=
  if place = "" then "root" else place

/-- What the newest stream receives of a note with a template and its arguments. -/
def write (session : Session) (level : Level) (place : String) (line : Int) (template : String)
    (arguments : List Argument) : String :=
  match session.output, fillTemplate template arguments with
  | some output, some message =>
    if session.shows level && output.stream = session.streams then
      output.form.write { level, place := placeName place, line, message }
    else ""
  | _, _ => ""

end Session

end HelpSheet.Log
