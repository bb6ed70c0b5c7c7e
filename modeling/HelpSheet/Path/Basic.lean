import HelpSheet.Text.Blank

/-!
# Paths

A path is where it starts and the names on the way. Empty names and single dots are dropped when a
path is read, double dots are kept; two leading slashes are kept apart from one, more than two count
as one.
-/

set_option autoImplicit false
set_option relaxedAutoImplicit false

namespace HelpSheet

/-- Where a path starts. -/
inductive Anchor
  | relative
  | root
  | doubleRoot
  deriving DecidableEq, Repr

namespace Anchor

/-- The slashes of an anchor. -/
def text : Anchor → String
  | relative => ""
  | root => "/"
  | doubleRoot => "//"

/-- The anchor that the slashes at the front of a text give. -/
def ofText (chars : List Char) : Anchor :=
  match (chars.takeWhile (· = '/')).length with
  | 0 => relative
  | 2 => doubleRoot
  | _ => root

end Anchor

/-- A path. -/
structure Path where
  anchor : Anchor
  parts : List String
  deriving DecidableEq, Repr

namespace Path

/-- The pieces of a text between its slashes. -/
def components (text : String) : List String :=
  (Text.splitOnChar '/' text.toList).map String.ofList

/-- Whether a component adds nothing to a path. -/
def isIdle (component : String) : Bool :=
  component = "" || component = "."

/-- Reads a path. -/
def ofString (text : String) : Path where
  anchor := .ofText text.toList
  parts := (components text).filter fun component ↦ !isIdle component

/-- The text of a path; a single dot for the path without anchor and parts. -/
def text (path : Path) : String :=
  if path.anchor = .relative && path.parts.isEmpty then "."
  else path.anchor.text ++ Text.joinWith "/" path.parts

/-- Whether the path starts at a root. -/
def isAbsolute (path : Path) : Bool :=
  path.anchor ≠ .relative

/-- The path without its last name. -/
def parent (path : Path) : Path :=
  { path with parts := path.parts.dropLast }

/-- The last name, empty where there is none. -/
def name (path : Path) : String :=
  path.parts.getLastD ""

/-- A relative path below another path; an absolute path stays as it is. -/
def join (directory path : Path) : Path :=
  if path.isAbsolute then path
  else { directory with parts := directory.parts ++ path.parts }

/-- A file of the given name in a directory. -/
def child (directory : Path) (name : String) : Path :=
  directory.join (ofString name)

/-- The path and the paths above it, from the lowest one up. -/
def andParents (path : Path) : List Path :=
  (List.range (path.parts.length + 1)).reverse.map fun count ↦
    { path with parts := path.parts.take count }

end Path

end HelpSheet
