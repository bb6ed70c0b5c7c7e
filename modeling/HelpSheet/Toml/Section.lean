import HelpSheet.Toml.Assembly

/-!
# Sections

A header opens a section: the pairs after it, and then the sections of the tables below its own. The
sections of one array that follow each other make its items. What stands before the first header
belongs to the document itself.
-/

set_option autoImplicit false
set_option relaxedAutoImplicit false

namespace HelpSheet.Toml

/-- Whether a key leads to a table below that of another key. -/
def isBelow (key parent : Key) : Bool :=
  parent.length < key.length && key.take parent.length = parent

/-- Whether the next section is that of a table below the table of a key. -/
def nextIsBelow (parent : Key) : List Statement → Bool
  | .header header :: _ => isBelow header.key parent
  | .fault (some header) _ :: _ => isBelow header.key parent
  | _ => false

/-- Whether the next section is one more item of the array of a key. -/
def nextIsItem (key : Key) : List Statement → Bool
  | .header header :: _ => header = ⟨key, true⟩
  | .fault (some header) _ :: _ => header = ⟨key, true⟩
  | _ => false

/-- The part of the last of some names, inside the tables that the others imply. -/
def implied (part : Part) : Key → Part
  | [] => part
  | name :: rest => .table .implied [(name, implied part rest)]

/-- Enters a part of a section, which must stand together with the others of its name. -/
def place (name : String) (part : Part) (entries : Entries) : Except Conflict Entries := do
  let entries ← enter stepLimit false name part entries
  settle stepLimit name entries
  pure entries

/-- Enters a pair of a section. -/
def placePair (key : Key) (value : Value) (entries : Entries) : Except Conflict Entries := do
  let entries ← enterPair false key value entries
  match key with
  | [] => pure entries
  | name :: _ =>
    settle stepLimit name entries
    pure entries

mutual

/-- Reads what is left of the section of a key. A fault that hides which section comes next counts
before the check of what was read; one in the next section counts after it. -/
def readBody (fuel : Nat) (key : Key) (entries : Entries) (statements : List Statement) :
    Except Error (Entries × List Statement) :=
  match fuel with
  | 0 => .error .malformed
  | fuel + 1 =>
    match statements with
    | .pair pairKey value :: rest => do
      let entries ← (placePair pairKey value entries).mapError .conflict
      readBody fuel key entries rest
    | .fault none error :: _ => .error error
    | _ =>
      if nextIsBelow key statements then do
        let ((name, part), rest) ← readSection fuel key.length statements
        let entries ← (place name part entries).mapError .conflict
        readBody fuel key entries rest
      else do
        (checkScattered stepLimit entries).mapError .conflict
        pure (entries, statements)

/-- Reads a section inside the table whose key has `depth` names, with the sections of further items
of its array. -/
def readSection (fuel depth : Nat) (statements : List Statement) :
    Except Error ((String × Part) × List Statement) :=
  match fuel with
  | 0 => .error .malformed
  | fuel + 1 =>
    match statements with
    | .header header :: rest => do
      let (entries, rest) ← readBody fuel header.key [] rest
      match header.key.drop depth, header.item with
      | [name], true => do
        let (items, rest) ← readMore fuel header.key rest
        pure ((name, .tables (entries :: items)), rest)
      | name :: below, item =>
        let part := if item then .tables [entries] else .table .header entries
        pure ((name, implied part below), rest)
      | [], _ => .error .malformed
    | .fault _ error :: _ => .error error
    | _ => .error .malformed

/-- Reads the sections of further items of the array of a key. -/
def readMore (fuel : Nat) (key : Key) (statements : List Statement) :
    Except Error (List Entries × List Statement) :=
  match fuel with
  | 0 => .error .malformed
  | fuel + 1 =>
    match statements with
    | .fault none error :: _ => .error error
    | statement :: rest =>
      if nextIsItem key statements then
        match statement with
        | .fault _ error => .error error
        | _ => do
          let (entries, rest) ← readBody fuel key [] rest
          let (items, rest) ← readMore fuel key rest
          pure (entries :: items, rest)
      else pure ([], statements)
    | [] => pure ([], [])

end

/-- Reads all statements. What conflicts with a part of the document itself counts as malformed. -/
def readRoot (fuel : Nat) (entries : Entries) (statements : List Statement) :
    Except Error Entries :=
  match fuel with
  | 0 => .error .malformed
  | fuel + 1 =>
    match statements with
    | [] => .ok entries
    | .pair key value :: rest =>
      match enterPair true key value entries with
      | .ok entries => readRoot fuel entries rest
      | .error _ => .error .malformed
    | _ => do
      let ((name, part), rest) ← readSection fuel 0 statements
      match enter stepLimit true name part entries with
      | .ok entries => readRoot fuel entries rest
      | .error _ => .error .malformed

/-- The entries of the table that statements describe. Every statement takes at most two steps that
lie inside each other. -/
def evaluate (statements : List Statement) : Except Error (List (String × Value)) := do
  let entries ← readRoot (2 * statements.length + 2) [] statements
  (finished entries).mapError .conflict

end HelpSheet.Toml
