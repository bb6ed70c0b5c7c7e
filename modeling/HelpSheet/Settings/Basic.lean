import HelpSheet.Log.Note
import HelpSheet.Log.Traced
import HelpSheet.Page.Options
import HelpSheet.Page.Format

/-!
# Settings

What a settings table chooses for all pages: the format, whether there is color and which, and the
directory that shortens source paths. Other keys are noted and left alone; a value of another kind
than the expected one is an error.
-/

set_option autoImplicit false
set_option relaxedAutoImplicit false

namespace HelpSheet

/-- A value of a settings table, as far as settings can tell. -/
inductive Setting
  | absent
  | truth (value : Bool)
  | text (content : String)
  | table (entries : List (String × Setting))
  | other
  deriving Repr, Inhabited

/-- The choices of a settings table, and the file that holds it. -/
structure Settings where
  path : Option Path := none
  format : Option Format := none
  color : Option Bool := none
  base : Option Path := none
  scheme : Option Sgr.Scheme := none

namespace Settings

/-! ### Keys -/

def formatKey : String := "format"
def colorKey : String := "color"
def baseKey : String := "base-source-path"
def colorsKey : String := "colors"

/-- The keys that have a meaning. -/
def knownKeys : List String :=
  [formatKey, colorKey, baseKey, colorsKey]

/-- A settings table. -/
abbrev Table := List (String × Setting)

/-- What a table says under a key. -/
def entry (table : Table) (key : String) : Setting :=
  (table.lookup key).getD .absent

/-! ### Faults -/

/-- What is wrong with a settings table. -/
inductive Fault
  | formatKind
  | unknownFormat (name : String)
  | colorKind
  | baseKind
  | colorsKind
  | colorNameKind (role : String)
  | scheme (error : Sgr.Scheme.Error)
  deriving DecidableEq, Repr

def Fault.message : Fault → String
  | formatKind => "'format' must be a string"
  | unknownFormat name => Format.unknownMessage name Format.supportedNames
  | colorKind => "'color' must be true or false"
  | baseKind => "'base-source-path' must be a string"
  | colorsKind => "[colors] must be a table"
  | colorNameKind role => "colors." ++ role ++ " must be a color name"
  | scheme error => error.message

/-- A fault and the file with the table, if it comes from one. -/
structure Error where
  path : Option Path
  fault : Fault
  deriving DecidableEq, Repr

/-- The name of the place that a table comes from. -/
def placeName : Option Path → String
  | some path => path.text
  | none => "<config>"

def Error.message (error : Error) : String :=
  placeName error.path ++ ": " ++ error.fault.message

/-! ### Reading a table -/

/-- The format that a table chooses. -/
def readFormat : Setting → Except Fault (Option Format)
  | .absent => .ok none
  | .text name =>
    match Format.ofName? name with
    | some format => .ok (some format)
    | none => .error (.unknownFormat name)
  | _ => .error .formatKind

/-- Whether a table asks for color or against it. -/
def readColor : Setting → Except Fault (Option Bool)
  | .absent => .ok none
  | .truth value => .ok (some value)
  | _ => .error .colorKind

/-- A path seen from the directory of the settings file. -/
def fromDirectoryOf (file : Option Path) (path : Path) : Path :=
  match file with
  | some file => file.parent.join path
  | none => path

/-- The directory that shortens source paths. -/
def readBase (file : Option Path) : Setting → Except Fault (Option Path)
  | .absent => .ok none
  | .text content => .ok (some (fromDirectoryOf file (.ofString content)))
  | _ => .error .baseKind

/-- The color names of a table of roles. -/
def readColorNames : Table → Except Fault (List (String × String))
  | [] => .ok []
  | (role, .text name) :: rest => do
    let names ← readColorNames rest
    pure ((role, name) :: names)
  | (role, _) :: _ => .error (.colorNameKind role)

/-- The scheme that a table of roles makes of the built-in one. -/
def readScheme : Setting → Except Fault (Option Sgr.Scheme)
  | .absent => .ok none
  | .table entries => do
    let names ← readColorNames entries
    let scheme ← (Sgr.Scheme.ansi.recolorAll names).mapError Fault.scheme
    pure (some scheme)
  | _ => .error .colorsKind

/-- The choices of a table. -/
def readTable (path : Option Path) (table : Table) : Except Fault Settings := do
  let format ← readFormat (entry table formatKey)
  let color ← readColor (entry table colorKey)
  let base ← readBase path (entry table baseKey)
  let scheme ← readScheme (entry table colorsKey)
  pure { path, format, color, base, scheme }

/-- The note on a key without a meaning. -/
def unknownKeyNote (path : Option Path) (key : String) : Log.Note where
  level := .warning
  channel := .settings
  line := 160
  message := placeName path ++ ": ignoring unknown key " ++ Text.quoted key

/-- The notes on the keys without a meaning. -/
def unknownKeyNotes (path : Option Path) (table : Table) : List Log.Note :=
  ((table.map Prod.fst).filter fun key ↦ !knownKeys.contains key).map (unknownKeyNote path)

/-- Reads a table; the notes on its keys come before any error. -/
def ofTable (path : Option Path) (table : Table) : Log.Traced Log.Note Error Settings := do
  Log.Traced.addNotes (unknownKeyNotes path table)
  Log.Traced.ofExcept ((readTable path table).mapError fun fault ↦ ⟨path, fault⟩)

/-! ### Use -/

/-- The options of pages under these settings. The scheme counts only where there is color, and a
directory that is asked for replaces the one of the settings. -/
def pageOptions (settings : Settings) (useColor : Bool) (base : Option Path) : Page.Options where
  useColor := useColor
  scheme := if useColor then settings.scheme else none
  base := base <|> settings.base

end Settings

end HelpSheet
