import HelpSheet.Path.Basic

/-!
# Relative paths

Paths taken by their text alone, without looking at files: a double dot takes back the name before
it. The way from one directory to a path leads up to the deepest directory above both and down
again.
-/

set_option autoImplicit false
set_option relaxedAutoImplicit false

namespace HelpSheet.Path

/-- Adds a component to the names of a path, the last name first. Nothing lies above a root. -/
def pushComponent (rooted : Bool) (names : List String) (component : String) : List String :=
  if isIdle component then names
  else if component ≠ ".." then component :: names
  else
    match names with
    | [] => if rooted then [] else [".."]
    | name :: rest => if name = ".." then ".." :: names else rest

/-- The names that remain when double dots are taken back. -/
def collapse (rooted : Bool) (parts : List String) : List String :=
  (parts.foldl (pushComponent rooted) []).reverse

/-- The shortest text of a path. -/
def normalize (path : String) : String :=
  let anchor := Anchor.ofText path.toList
  let normal := anchor.text ++ Text.joinWith "/" (collapse (anchor ≠ .relative) (components path))
  if normal = "" then "." else normal

/-- The names from the root to a path, which starts from a directory if it is relative. -/
def absoluteNames (directory path : String) : List String :=
  match Anchor.ofText path.toList with
  | .relative => collapse true (components directory ++ components path)
  | _ => collapse true (components path)

/-- The names that two lists begin with alike are dropped from both. -/
def dropCommon : List String → List String → List String × List String
  | first :: restFirst, second :: restSecond =>
    if first = second then dropCommon restFirst restSecond
    else (first :: restFirst, second :: restSecond)
  | first, second => (first, second)

/-- The names on the way from one list of names to another one. -/
def wayBetween (start goal : List String) : List String :=
  let (up, down) := dropCommon start goal
  up.map (fun _ ↦ "..") ++ down

/-- The way from the directory `start` to `path`; a relative one of the two starts from the working
directory. -/
def relativeTo (workingDirectory start path : String) : String :=
  match wayBetween (absoluteNames workingDirectory start) (absoluteNames workingDirectory path) with
  | [] => "."
  | names => Text.joinWith "/" names

/-- The path of a source file as it is shown: an absolute path is shortened by a base directory,
if there is one. -/
def shorten (workingDirectory : String) (base : Option String) (source : String) : String :=
  match base, Anchor.ofText source.toList with
  | none, _ => source
  | _, .relative => source
  | some base, _ => relativeTo workingDirectory base source

end HelpSheet.Path
