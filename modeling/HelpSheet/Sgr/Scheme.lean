import HelpSheet.Sgr.Style
import HelpSheet.Text.Quoted

/-!
# Color schemes

What paints the parts of a help page. A scheme may have any painters; those that are built from
names of roles and names of colors paint in styles. In the name of a role a hyphen counts as an
underscore.
-/

set_option autoImplicit false
set_option relaxedAutoImplicit false

namespace HelpSheet.Sgr

/-- The parts of a help page that are painted. -/
inductive Role
  | categoryName | targetName | aliasName | variableName | documentation
  deriving DecidableEq, Repr

namespace Role

/-- The roles in the order of their names. -/
def all : List Role :=
  [aliasName, categoryName, documentation, targetName, variableName]

def name : Role → String
  | categoryName => "category_name"
  | targetName => "target_name"
  | aliasName => "alias"
  | variableName => "variable"
  | documentation => "documentation"

/-- A name with underscores for hyphens. -/
def plainName (name : String) : String :=
  String.ofList (name.toList.map fun c ↦ if c = '-' then '_' else c)

/-- The role of a name. -/
def ofName? (name : String) : Option Role :=
  all.find? fun role ↦ role.name = plainName name

end Role

/-- The painter of each role; none leaves text as it is. -/
structure Scheme where
  categoryName : Option Painter := none
  targetName : Option Painter := none
  aliasName : Option Painter := none
  variableName : Option Painter := none
  documentation : Option Painter := none

namespace Scheme

/-- The scheme that leaves all text as it is. -/
def plain : Scheme := {}

/-- The scheme with the built-in colors. -/
def ansi : Scheme where
  categoryName := some (Style.apply { foreground := some (.plain .cyan), bold := some true })
  targetName := some (Style.apply { foreground := some (.plain .green), bold := some true })
  aliasName := some (Style.apply { foreground := some (.plain .yellow) })
  variableName := some (Style.apply { foreground := some (.plain .magenta) })
  documentation := some (Style.apply { foreground := some (.plain .white) })

/-- The scheme where none is chosen. -/
def standard (useColor : Bool) : Scheme :=
  if useColor then ansi else plain

/-- The painter of a role. -/
def get (scheme : Scheme) : Role → Option Painter
  | .categoryName => scheme.categoryName
  | .targetName => scheme.targetName
  | .aliasName => scheme.aliasName
  | .variableName => scheme.variableName
  | .documentation => scheme.documentation

/-- The scheme with another painter for one role. -/
def set (scheme : Scheme) (role : Role) (painter : Painter) : Scheme :=
  match role with
  | .categoryName => { scheme with categoryName := some painter }
  | .targetName => { scheme with targetName := some painter }
  | .aliasName => { scheme with aliasName := some painter }
  | .variableName => { scheme with variableName := some painter }
  | .documentation => { scheme with documentation := some painter }

@[simp] theorem get_set (scheme : Scheme) (role other : Role) (painter : Painter) :
    (scheme.set role painter).get other =
      if other = role then some painter else scheme.get other := by
  cases role <;> cases other <;> rfl

/-- Why colors do not make a scheme. -/
inductive Error
  | unknownRole (name : String)
  | unknownColor (name : String)
  deriving DecidableEq, Repr

def Error.message : Error → String
  | unknownRole name =>
    "unknown color role: " ++ Text.quoted name ++ " (known: " ++
      String.intercalate ", " (Role.all.map Role.name) ++ ")"
  | unknownColor name => "unknown color name: " ++ Text.quoted name

/-- The style of a color name; the empty name sets no color. -/
def styleOfName? (name : String) : Option Style :=
  if name = "" then some {}
  else (Color.ofName? name).map fun color ↦ { foreground := some color }

/-- Gives a role the color of a name. -/
def recolor (scheme : Scheme) (assignment : String × String) : Except Error Scheme :=
  match Role.ofName? assignment.1, styleOfName? assignment.2 with
  | none, _ => .error (.unknownRole assignment.1)
  | some _, none => .error (.unknownColor assignment.2)
  | some role, some style => .ok (scheme.set role style.apply)

/-- Gives roles the colors of names, one after the other. -/
def recolorAll (scheme : Scheme) : List (String × String) → Except Error Scheme
  | [] => .ok scheme
  | assignment :: rest =>
    match scheme.recolor assignment with
    | .ok next => next.recolorAll rest
    | .error error => .error error

end Scheme

end HelpSheet.Sgr
