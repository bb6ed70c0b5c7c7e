import HelpSheet.Command.Program
import Std.Time.DateTime.Timestamp

/-!
# The command line

Looks at the files a command may need, runs the command, and does what its report says. Which paths
the command can look at is known beforehand: whatever an argument may name, the standard output, and
the settings files at and above the working directory.
-/

set_option autoImplicit false
set_option relaxedAutoImplicit false

/-! ### What a command can look at -/

namespace HelpSheet.Command

/-- The paths that an argument may name: itself, a value joined to a long name, or a value joined to
one letter. -/
def pathsOfArgument (argument : String) : List String :=
  [argument, String.ofList (argument.toList.drop 2)] ++
    (splitJoined argument.toList).2.toList

/-- The settings files that may be looked at. -/
def settingsPaths (workingDirectory : String) : List String :=
  (Path.ofString workingDirectory).andParents.flatMap fun directory ↦
    [(directory.child Settings.ownFileName).text, (directory.child Settings.sharedFileName).text]

/-- The paths that lead to a path: those of its first components, one after the other. -/
def leadingPaths (path : String) : List String :=
  let components := Path.components path
  (List.range components.length).map fun count ↦
    Text.joinWith "/" (components.take (count + 1))

/-- The paths to look at before a command runs. -/
def snapshotPaths (workingDirectory : String) (arguments : List String) : List String :=
  ((arguments.flatMap pathsOfArgument ++ [Makefile.standardFileName] ++
      settingsPaths workingDirectory).flatMap leadingPaths).eraseDups.filter (· ≠ "")

/-- The place of a path that is seen from the working directory. -/
def placeOf (workingDirectory path : String) : Files.Place :=
  Path.absoluteNames workingDirectory path

/-- The entries of a tree that another tree does not have. -/
def changedEntries (before after : Files.Tree) : List (Files.Place × Files.Node) :=
  after.entries.filter fun entry ↦ before.entries.lookup entry.1 ≠ some entry.2

end HelpSheet.Command

/-! ### Running a command -/

namespace HelpSheet.Main

open Command

/-- The code by which the system refuses to read a directory as a file. -/
def directoryCode : UInt32 := 21

/-- What lies under a path, if anything does. -/
def look (path : String) : IO (Option Files.Node) := do
  try
    let content ← IO.FS.readBinFile path
    pure (some (.file content.data.toList))
  catch error =>
    match error with
    | .inappropriateType _ code _ =>
      pure (if code = directoryCode then some .directory else none)
    | _ => pure none

/-- A tree with what lies under the given paths. -/
def snapshot (workingDirectory : String) (paths : List String) : IO Files.Tree :=
  paths.foldlM
    (fun tree path ↦ do
      match ← look path with
      | some node => pure (tree.grow (placeOf workingDirectory path) node)
      | none => pure tree)
    (Files.Tree.empty.grow (placeOf workingDirectory workingDirectory) .directory)

/-- The variables of the environment that matter. -/
def readEnvironment : IO Environment := do
  let names := [Log.levelVariable, Terminal.forceVariable, Terminal.refuseVariable]
  let found ← names.filterMapM fun name ↦ do
    let value ← IO.getEnv name
    pure (value.map fun value ↦ (name, value))
  pure ⟨found⟩

/-- The world in which the command runs. -/
def readWorld (arguments : List String) : IO World := do
  let workingDirectory := (← IO.currentDir).toString
  let tree ← snapshot workingDirectory (snapshotPaths workingDirectory arguments)
  let environment ← readEnvironment
  let now ← Std.Time.Timestamp.now
  pure
    { tree
      directory := placeOf workingDirectory workingDirectory
      environment
      now := Time.Moment.afterEpoch now.toSecondsSinceUnixEpoch.val
      outputIsTerminal := ← (← IO.getStdout).isTty
      errorIsTerminal := ← (← IO.getStderr).isTty }

/-- Writes the files that a command has changed. -/
def writeChanges (before after : Files.Tree) : IO Unit :=
  (changedEntries before after).forM fun entry ↦
    match entry.2 with
    | .file content => IO.FS.writeBinFile ("/" ++ Text.joinWith "/" entry.1) ⟨content.toArray⟩
    | .directory => pure ()

/-- Does what a report says. -/
def carryOut (world : World) (report : Report) : IO UInt32 := do
  writeChanges world.tree (report.files world)
  IO.print report.output
  IO.eprint (report.errors world)
  match report.outcome with
  | .error (.breakdown cause) => IO.eprintln cause.message
  | _ => pure ()
  pure (UInt32.ofNat report.exitCode)

end HelpSheet.Main

/-- Runs the program on the arguments of the process. -/
def main (arguments : List String) : IO UInt32 := do
  let world ← HelpSheet.Main.readWorld arguments
  HelpSheet.Main.carryOut world (HelpSheet.Command.run world arguments)
