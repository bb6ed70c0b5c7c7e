import HelpSheet.Path.Basic
import HelpSheet.Text.Blank
import HelpSheet.Text.Quoted
import HelpSheet.Text.Utf8

/-!
# Files

A tree of files as a value: what lies at each place, what the system does not let a process do with
it, and the ways in which looking up a path can fail. A place is the list of names from the root.
Reading a path walks from name to name; a double dot leads back to the directory before, and only
directories that may be searched lead on.
-/

set_option autoImplicit false
set_option relaxedAutoImplicit false

namespace HelpSheet.Files

/-- What a process may want of what lies at a place: to go on from it, to read it, or to write to
it. -/
inductive Access
  | search
  | read
  | write
  deriving DecidableEq, Repr

/-- Why the system refuses an access: for want of permission, or for a reason of its own. -/
structure Refusal where
  number : Nat
  description : String
  deriving DecidableEq, Repr

/-- Why a file operation fails. -/
inductive Fault
  | missing
  | notDirectory
  | isDirectory
  | refused (refusal : Refusal)
  deriving DecidableEq, Repr

namespace Fault

def number : Fault → Nat
  | missing => 2
  | notDirectory => 20
  | isDirectory => 21
  | refused refusal => refusal.number

def description : Fault → String
  | missing => "No such file or directory"
  | notDirectory => "Not a directory"
  | isDirectory => "Is a directory"
  | refused refusal => refusal.description

/-- The errors that tell that nothing lies where a path leads to: there is no such file, a file or a
stale handle in the place of a directory, or links lead round in a circle. -/
def absenceNumbers : List Nat :=
  [2, 9, 20, 40]

end Fault

/-- A failure and the path that was asked for. -/
structure Error where
  fault : Fault
  path : String
  deriving DecidableEq, Repr

def Error.message (error : Error) : String :=
  "[Errno " ++ toString error.fault.number ++ "] " ++ error.fault.description ++ ": " ++
    Text.quoted error.path

/-- What lies at a place. -/
inductive Node
  | file (content : List UInt8)
  | directory
  deriving DecidableEq

/-- The names from the root to a place. -/
abbrev Place := List String

/-- A tree of files, with the accesses that are refused. The root is always a directory. -/
structure Tree where
  entries : List (Place × Node)
  refusals : List ((Place × Access) × Refusal) := []
  deriving DecidableEq

namespace Tree

/-- The tree with nothing but the root. -/
def empty : Tree := { entries := [] }

/-- What lies at a place. -/
def node? (tree : Tree) (place : Place) : Option Node :=
  if place.isEmpty then some .directory else tree.entries.lookup place

/-- Fails where the system refuses an access. -/
def allow (tree : Tree) (place : Place) (access : Access) : Except Fault Unit :=
  match tree.refusals.lookup (place, access) with
  | some refusal => .error (.refused refusal)
  | none => .ok ()

/-- Fails unless a process can go on from a place. -/
def enter (tree : Tree) (place : Place) : Except Fault Unit :=
  match tree.node? place with
  | none => .error .missing
  | some (.file _) => .error .notDirectory
  | some .directory => tree.allow place .search

/-- The entries with a node put at a place. -/
def putEntry (place : Place) (node : Node) : List (Place × Node) → List (Place × Node)
  | [] => [(place, node)]
  | entry :: rest =>
    if entry.1 = place then (place, node) :: rest else entry :: putEntry place node rest

/-- Puts a node at a place. -/
def put (tree : Tree) (place : Place) (node : Node) : Tree :=
  { tree with entries := putEntry place node tree.entries }

/-- Makes a directory of a place that holds nothing. -/
def putDirectory (tree : Tree) (place : Place) : Tree :=
  match tree.node? place with
  | some _ => tree
  | none => tree.put place .directory

/-- Puts a node at a place, below directories. -/
def grow (tree : Tree) (place : Place) (node : Node) : Tree :=
  let above := (List.range place.length).map place.take
  (above.foldl putDirectory tree).put place node

/-- Walks from a place along the components of a path. -/
def walk (tree : Tree) (place : Place) : List String → Except Fault Place
  | [] => if (tree.node? place).isSome then .ok place else .error .missing
  | component :: rest =>
    match tree.enter place with
    | .error fault => .error fault
    | .ok () =>
      if Path.isIdle component then tree.walk place rest
      else if component = ".." then tree.walk place.dropLast rest
      else tree.walk (place ++ [component]) rest

/-- The place where a path starts, for a process that works in `directory`. -/
def startOf (directory : Place) (path : String) : Place :=
  match Anchor.ofText path.toList with
  | .relative => directory
  | _ => []

/-- The place that a path leads to. The empty path leads nowhere. -/
def resolve (tree : Tree) (directory : Place) (path : String) : Except Fault Place :=
  if path = "" then .error .missing
  else tree.walk (startOf directory path) (Path.components path)

/-- Adds to the end of the file at a place. -/
def extend (tree : Tree) (place : Place) (content : List UInt8) : Tree :=
  match tree.node? place with
  | some (.file before) => tree.put place (.file (before ++ content))
  | _ => tree

/-- What a path leads to. -/
def find? (tree : Tree) (directory : Place) (path : String) : Option Node :=
  match tree.resolve directory path with
  | .ok place => tree.node? place
  | .error _ => none

/-- Whether a path leads anywhere. -/
def contains (tree : Tree) (directory : Place) (path : String) : Bool :=
  (tree.find? directory path).isSome

/-- Whether a path leads to a file. -/
def hasFile (tree : Tree) (directory : Place) (path : String) : Bool :=
  match tree.find? directory path with
  | some (.file _) => true
  | _ => false

/-- Whether a path leads to a directory. -/
def hasDirectory (tree : Tree) (directory : Place) (path : String) : Bool :=
  match tree.find? directory path with
  | some .directory => true
  | _ => false

/-- Whether what a path leads to may be read. -/
def canRead (tree : Tree) (directory : Place) (path : String) : Bool :=
  match tree.resolve directory path with
  | .ok place => (tree.allow place .read).isOk
  | .error _ => false

/-- What a path leads to, if anything; fails where the system does not let a process see it. -/
def look (tree : Tree) (directory : Place) (path : String) : Except Error (Option Node) :=
  match tree.resolve directory path with
  | .ok place => .ok (tree.node? place)
  | .error fault =>
    if fault.number ∈ Fault.absenceNumbers then .ok none else .error ⟨fault, path⟩

/-- What lies at a place as the bytes of a file. -/
def contentAt (tree : Tree) (place : Place) : Except Fault (List UInt8) := do
  match tree.node? place with
  | none => throw .missing
  | some node =>
    tree.allow place .read
    match node with
    | .file content => pure content
    | .directory => throw .isDirectory

/-- The content of the file that a path leads to. -/
def read (tree : Tree) (directory : Place) (path : String) : Except Error (List UInt8) :=
  ((tree.resolve directory path).bind tree.contentAt).mapError fun fault ↦ ⟨fault, path⟩

/-- Fails unless a file of a name may be written in a directory: over a file that may be written to,
or as a new one if the directory may be written to. -/
def allowWriting (tree : Tree) (above : Place) (name : String) : Except Fault Unit :=
  match tree.node? (above ++ [name]) with
  | some .directory => .error .isDirectory
  | some (.file _) => tree.allow (above ++ [name]) .write
  | none => tree.allow above .write

/-- The place at which a file can be written under a path. -/
def writable (tree : Tree) (directory : Place) (path : String) : Except Fault Place := do
  if path = "" then throw .missing
  let components := Path.components path
  let place ← tree.walk (startOf directory path) components.dropLast
  tree.enter place
  let name := components.getLastD ""
  if Path.isIdle name || name = ".." then throw .isDirectory
  tree.allowWriting place name
  pure (place ++ [name])

/-- Writes a file under a path, over the one that is there. -/
def write (tree : Tree) (directory : Place) (path : String) (content : List UInt8) :
    Except Error Tree :=
  match tree.writable directory path with
  | .ok place => .ok (tree.put place (.file content))
  | .error fault => .error ⟨fault, path⟩

end Tree

/-- A path cannot hold a null character. -/
structure NullInPath where
  path : String
  deriving DecidableEq, Repr

def NullInPath.message (_ : NullInPath) : String :=
  "embedded null byte"

/-- Why a text file cannot be read. -/
inductive TextError
  | notPath (fault : NullInPath)
  | unreadable (error : Error)
  | notText (error : Text.Utf8.Error)
  deriving DecidableEq, Repr

/-- The text of the file that a path leads to, with line feeds for all its line endings. -/
def Tree.readText (tree : Tree) (directory : Place) (path : String) : Except TextError String :=
  if '\x00' ∈ path.toList then .error (.notPath ⟨path⟩)
  else
    match tree.read directory path with
    | .error error => .error (.unreadable error)
    | .ok content =>
      match Text.Utf8.decode content with
      | .error error => .error (.notText error)
      | .ok chars => .ok (String.ofList (Text.unifyLineEndings chars))

end HelpSheet.Files
