import HelpSheet.Environment
import HelpSheet.Files.Tree
import HelpSheet.Settings.Basic

/-!
# Settings files

Settings are kept in a file of their own or as one table of the file that describes a whole project.
The nearest such file at or above a directory counts; in one directory the file of their own comes
first.
-/

set_option autoImplicit false
set_option relaxedAutoImplicit false

namespace HelpSheet.Settings

/-- The file of the settings alone. -/
def ownFileName : String := "makehelp.toml"

/-- The file that holds the settings among others. -/
def sharedFileName : String := "pyproject.toml"

/-- The key of the settings table in the shared file. -/
def sharedKey : Toml.Key := ["tool", "makehelp"]

/-- The header of the settings table in the shared file. -/
def sharedHeader : String :=
  "[" ++ String.intercalate "." sharedKey ++ "]"

/-! ### Faults -/

/-- Why settings cannot be had from a file. -/
inductive LoadError
  | unseen (error : Files.Error)
  | notPath (fault : Files.NullInPath)
  | unreadable (path : Path) (error : Files.Error)
  | notText (error : Text.Utf8.Error)
  | notToml (path : Path)
  | conflict (conflict : Toml.Conflict)
  | givenUp (message : String)
  | notTable (path : Path)
  | invalid (error : Error)
  deriving DecidableEq, Repr

def LoadError.message : LoadError → String
  | unseen error => error.message
  | notPath fault => fault.message
  | unreadable path error => "cannot read config file " ++ path.text ++ ": " ++ error.message
  | notText error => error.message
  | notToml path => path.text ++ ": invalid TOML"
  | conflict cause => cause.message
  | givenUp message => message
  | notTable path => path.text ++ ": " ++ sharedHeader ++ " must be a table"
  | invalid error => error.message

/-! ### Loading -/

mutual

/-- What settings can tell of a TOML value. -/
def ofValue : Toml.Value → Setting
  | .boolean value => .truth value
  | .text content => .text content
  | .table entries => .table (ofEntries entries)
  | _ => .other

/-- What settings can tell of the entries of a table. -/
def ofEntries : List (String × Toml.Value) → List (String × Setting)
  | [] => []
  | (name, value) :: rest => (name, ofValue value) :: ofEntries rest

end

/-- The table in a file. -/
def loadTable (tree : Files.Tree) (directory : Files.Place) (path : Path) (machine : Machine) :
    Except LoadError Table :=
  match tree.readText directory path.text with
  | .error (.notPath fault) => .error (.notPath fault)
  | .error (.unreadable error) => .error (.unreadable path error)
  | .error (.notText error) => .error (.notText error)
  | .ok text =>
    match machine.readToml text with
    | .ok entries => .ok (ofEntries entries)
    | .error .malformed => .error (.notToml path)
    | .error (.conflict conflict) => .error (.conflict conflict)
    | .error (.givenUp message) => .error (.givenUp message)

/-- What a table says under a key with dots; nothing where a name is missing or leads to no
table. -/
def descend : Toml.Key → Setting → Option Setting
  | [], setting => some setting
  | name :: rest, .table entries => (entries.lookup name).bind (descend rest)
  | _ :: _, _ => none

/-- The settings table in a file, if the file has one: the whole of a file of its own, or one table
of a shared file. -/
def findTable (tree : Files.Tree) (directory : Files.Place) (path : Path) (machine : Machine) :
    Except LoadError (Option Table) := do
  let table ← loadTable tree directory path machine
  if path.name ≠ sharedFileName then pure (some table)
  else
    match descend sharedKey (.table table) with
    | none => pure none
    | some (.table entries) => pure (some entries)
    | some _ => throw (.notTable path)

/-- The note on a shared file without settings. -/
def noTableNote (path : Path) : Log.Note where
  level := .debug
  channel := .settings
  line := 219
  message := path.text ++ " has no " ++ sharedHeader ++ " table"

/-- A path in the words of notes. -/
def pathWords : Option Path → String
  | some path => "PosixPath(" ++ Text.quoted path.text ++ ")"
  | none => "None"

/-- A choice between true and false in the words of notes. -/
def truthWords : Option Bool → String
  | some true => "True"
  | some false => "False"
  | none => "None"

/-- Settings in the words of notes. -/
def words (settings : Settings) : String :=
  "FileConfig(path=" ++ pathWords settings.path ++ ", format=" ++
    (settings.format.map Format.memberWords).getD "None" ++ ", color=" ++
    truthWords settings.color ++ ", base_source_path=" ++ pathWords settings.base ++
    ", color_scheme=" ++ (if settings.scheme.isSome then "ColorScheme" else "None") ++ ")"

/-- The note on settings that were loaded. -/
def loadedNote (path : Path) (settings : Settings) : Log.Note where
  level := .debug
  channel := .settings
  line := 222
  message := "Loaded config from " ++ path.text ++ ": " ++ settings.words

/-- The settings in a file; a shared file without a settings table chooses nothing. -/
def load (tree : Files.Tree) (directory : Files.Place) (path : Path) (machine : Machine := {}) :
    Log.Traced Log.Note LoadError Settings := do
  let table ← Log.Traced.ofExcept (findTable tree directory path machine)
  match table with
  | none =>
    Log.Traced.note (noTableNote path)
    pure { path := some path }
  | some table =>
    let settings ← (ofTable (some path) table).mapError .invalid
    Log.Traced.note (loadedNote path settings)
    pure settings

/-! ### Finding -/

/-- Whether there is a file under a path; fails where this cannot be seen. -/
def seesFile (tree : Files.Tree) (directory : Files.Place) (path : Path) :
    Except LoadError Bool :=
  match tree.look directory path.text with
  | .error error => .error (.unseen error)
  | .ok (some (.file _)) => .ok true
  | .ok _ => .ok false

/-- The settings file in a directory. -/
def fileIn (tree : Files.Tree) (directory : Files.Place) (candidate : Path)
    (machine : Machine) : Except LoadError (Option Path) := do
  let own := candidate.child ownFileName
  let shared := candidate.child sharedFileName
  if ← seesFile tree directory own then pure (some own)
  else if ← seesFile tree directory shared then
    (findTable tree directory shared machine).map fun table ↦ table.map fun _ ↦ shared
  else pure none

/-- The first settings file in a list of directories. -/
def firstFileIn (tree : Files.Tree) (directory : Files.Place) (machine : Machine) :
    List Path → Except LoadError (Option Path)
  | [] => .ok none
  | candidate :: rest =>
    match fileIn tree directory candidate machine with
    | .ok none => firstFileIn tree directory machine rest
    | found => found

/-- The nearest settings file at or above a path. -/
def findFile (tree : Files.Tree) (directory : Files.Place) (start : Path)
    (machine : Machine := {}) : Except LoadError (Option Path) :=
  firstFileIn tree directory machine start.andParents

end HelpSheet.Settings
