import HelpSheet.Toml.Value

/-!
# Assembling tables

A document may speak of a table in several places. Each place is a part; parts of one name that
cannot be put into one list stay scattered among the entries of the table around them, and are
looked at together when something depends on them. A table has one header; the tables above it are
implied and may get headers of their own; a key with dots makes tables that no header opens, and
adds nothing to a table that has one. No value is given twice.
-/

set_option autoImplicit false
set_option relaxedAutoImplicit false

namespace HelpSheet.Toml

/-- What makes a table: its own header, the header of a table below it, or a key with dots. -/
inductive Origin
  | header
  | implied
  | dotted
  deriving DecidableEq, Repr

/-- What one place of a document says of a name. -/
inductive Part
  | value (value : Value)
  | table (origin : Origin) (entries : List (String × Part))
  | tables (items : List (List (String × Part)))
  deriving Repr, Inhabited

/-- What the places say of the names of a table, in the order of the document. -/
abbrev Entries := List (String × Part)

/-! ### Looking at entries -/

/-- Whether a part is a single table. -/
def Part.isTable : Part → Bool
  | .table _ _ => true
  | _ => false

/-- The entries of a single table. -/
def Part.entries : Part → Entries
  | .table _ entries => entries
  | _ => []

/-- The parts of a name. -/
def partsOf (name : String) (entries : Entries) : List Part :=
  (entries.filter fun entry ↦ entry.1 = name).map Prod.snd

/-- Whether a name has more parts than one. -/
def isScattered (name : String) (entries : Entries) : Bool :=
  2 ≤ (partsOf name entries).length

/-- The names in the order of their first mention. -/
def namesOf (entries : Entries) : List String :=
  (entries.map Prod.fst).eraseDups

/-- The name of the last single table. -/
def lastTable? (entries : Entries) : Option String :=
  (entries.reverse.find? fun entry ↦ entry.2.isTable).map Prod.fst

/-- The entries with another last part of a name. -/
def replaceLast (name : String) (part : Part) : Entries → Entries
  | [] => []
  | entry :: rest =>
    if entry.1 = name && (partsOf name rest).isEmpty then (name, part) :: rest
    else entry :: replaceLast name part rest

/-! ### Meeting an earlier part -/

/-- Whether a part has a header of its own, or more than one. -/
def Part.hasHeader : Part → Bool
  | .table .header _ => true
  | .tables _ => true
  | _ => false

mutual

/-- Whether a part leads by dots into a table that has a header among the earlier parts of its
name, or below them. -/
def Part.reopens (earlier : List Part) : Part → Bool
  | .table .dotted entries =>
    earlier.any Part.hasHeader || reopensAny (earlier.flatMap Part.entries) entries
  | _ => false

/-- Whether one of some entries leads by dots into a table that has a header in earlier entries. -/
def reopensAny (earlier : Entries) : List (String × Part) → Bool
  | [] => false
  | (name, part) :: rest =>
    part.reopens (partsOf name earlier) || reopensAny earlier rest

end

/-- What comes of a part that meets an earlier one: a part in place of both, entries of two tables
to be merged and the part that holds the result, or two parts. `checked` tells that the parts must
make one table. -/
inductive Meeting
  | replaced (part : Part)
  | merged (earlier later : Entries) (holder : Entries → Part)
  | apart (checked : Bool)

/-- What comes of two parts of a name; `adjacent` tells that no other table stands between them. A
header below an array of tables belongs to its last item. -/
def meet (name : String) (adjacent : Bool) : Part → Part → Except Conflict Meeting
  | .tables earlier, .tables later => .ok (.replaced (.tables (earlier ++ later)))
  | .tables items, .table .implied later =>
    match items.getLast? with
    | some last => .ok (.merged last later fun merged ↦ .tables (items.dropLast ++ [merged]))
    | none => .error (.taken name)
  | .tables _, .table .dotted _ => .error .closed
  | .table .header _, .table .header _ => .error (.taken name)
  | .table .dotted _, .table .header _ => .error .closed
  | .table .implied earlier, .table .header later =>
    if reopensAny earlier later then .error .closed else .ok (.apart false)
  | .table .header _, .table _ _ => .ok (.apart false)
  | .table .implied earlier, .table .implied later =>
    if adjacent then .ok (.merged earlier later (.table .implied)) else .ok (.apart true)
  | .table _ _, .table _ _ => .ok (.apart true)
  | _, _ => .error (.taken name)

/-- Puts entries after others. What is repeated must be a table. -/
def joinAfter (before : Entries) : Entries → Except Conflict Entries
  | [] => .ok before
  | (name, part) :: rest =>
    match (partsOf name before).getLast?, part with
    | none, _ => joinAfter (before ++ [(name, part)]) rest
    | some (.table _ _), _ => joinAfter (before ++ [(name, part)]) rest
    | some (.tables _), .table .dotted _ => .error .closed
    | some _, _ => .error (.taken name)

/-! ### Entering -/

/-- A bound on the steps of what follows, which no document reaches: a table lies below at most the
names of a header and those of a key with dots, and five functions call each other for every
name. -/
def stepLimit : Nat := 12 * depthLimit

mutual

/-- Enters a part of a name after the others. Where `strict` holds, parts that stay apart must make
one table at once. -/
def enter (fuel : Nat) (strict : Bool) (name : String) (part : Part) (entries : Entries) :
    Except Conflict Entries :=
  match fuel with
  | 0 => .error .closed
  | fuel + 1 => do
    settle fuel name entries
    match (partsOf name entries).getLast? with
    | none => pure (entries ++ [(name, part)])
    | some earlier =>
      match ← meet name (lastTable? entries = some name) earlier part with
      | .replaced part => pure (replaceLast name part entries)
      | .merged earlier later holder =>
        let merged ← later.foldlM (fun entries entry ↦ do
          let entries ← enter fuel true entry.1 entry.2 entries
          settle fuel entry.1 entries
          pure entries) earlier
        pure (replaceLast name (holder merged) entries)
      | .apart checked =>
        let entries := entries ++ [(name, part)]
        if strict && checked then checkTogether fuel (partsOf name entries)
        pure entries

/-- Checks a name; if it is scattered, its parts have to stand together. -/
def settle (fuel : Nat) (name : String) (entries : Entries) : Except Conflict Unit :=
  match fuel with
  | 0 => .error .closed
  | fuel + 1 =>
    if isScattered name entries then (together fuel (partsOf name entries)).map fun _ ↦ ()
    else .ok ()

/-- The entries of the tables among some parts, put together. -/
def together (fuel : Nat) (parts : List Part) : Except Conflict Entries :=
  match fuel with
  | 0 => .error .closed
  | fuel + 1 => do
    let entries ← joinAfter [] (parts.flatMap Part.entries)
    checkScattered fuel entries
    pure entries

/-- Checks that the parts of every scattered name make one table. -/
def checkScattered (fuel : Nat) (entries : Entries) : Except Conflict Unit :=
  match fuel with
  | 0 => .error .closed
  | fuel + 1 =>
    (namesOf entries).forM fun name ↦
      if isScattered name entries then checkTogether fuel (partsOf name entries) else pure ()

/-- Checks that the tables among some parts make one table: that their entries can be entered into
it one after the other. -/
def checkTogether (fuel : Nat) (parts : List Part) : Except Conflict Unit :=
  match fuel with
  | 0 => .error .closed
  | fuel + 1 => do
    let entries ← (parts.flatMap Part.entries).foldlM
      (fun entries entry ↦ enter fuel false entry.1 entry.2 entries) []
    checkScattered fuel entries

end

/-- What a pair says of the first name of its key: the value itself, if no names follow, and a table
with what it says of the next name otherwise. -/
def partOf (value : Value) : Key → Part
  | [] => .value value
  | name :: rest => .table .dotted [(name, partOf value rest)]

/-- Enters the value of a key. A key with dots is entered strictly, whatever holds for others. -/
def enterPair (strict : Bool) (key : Key) (value : Value) (entries : Entries) :
    Except Conflict Entries :=
  match key with
  | [] => .ok entries
  | name :: rest =>
    enter stepLimit (strict || !rest.isEmpty) name (partOf value rest) entries

/-! ### Finishing -/

mutual

/-- The values of all names. -/
def finish (fuel : Nat) (entries : Entries) : Except Conflict (List (String × Value)) :=
  match fuel with
  | 0 => .error .closed
  | fuel + 1 =>
    (namesOf entries).mapM fun name ↦ do
      let value ← finishParts fuel (partsOf name entries)
      pure (name, value)

/-- The value that all parts of a name stand for. -/
def finishParts (fuel : Nat) (parts : List Part) : Except Conflict Value :=
  match fuel with
  | 0 => .error .closed
  | fuel + 1 =>
    match parts with
    | [.value value] => .ok value
    | [.table _ entries] => (finish fuel entries).map .table
    | [.tables items] =>
      (items.mapM fun item ↦ (finish fuel item).map .table).map .array
    | parts => do
      let entries ← together stepLimit parts
      (finish fuel entries).map .table

end

/-- The table that entries make in the end. -/
def finished (entries : Entries) : Except Conflict (List (String × Value)) :=
  finish stepLimit entries

end HelpSheet.Toml
