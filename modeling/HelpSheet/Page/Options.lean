import HelpSheet.Json.Value
import HelpSheet.Path.Basic
import HelpSheet.Sgr.Scheme

/-!
# Options of pages

Whether a page is colored, with which scheme, and the directory that shortens source paths. Options
that come as JSON values are checked for their types first.
-/

set_option autoImplicit false
set_option relaxedAutoImplicit false

namespace HelpSheet.Page

/-- The options of a page. -/
structure Options where
  useColor : Bool := false
  scheme : Option Sgr.Scheme := none
  base : Option Path := none

/-- The scheme of a page: the chosen one, else the standard one. -/
def Options.resolvedScheme (options : Options) : Sgr.Scheme :=
  options.scheme.getD (.standard options.useColor)

/-! ### Options before their check -/

/-- A value of the proper type, or any other value. -/
inductive Given (α : Type)
  | proper (value : α)
  | other (value : Json)

/-- Options whose types are not checked. -/
structure Request where
  useColor : Json := .bool false
  scheme : Given Sgr.Scheme := .other .null
  base : Given Path := .other .null

/-- The options whose value has another type than the proper one. -/
inductive Error
  | useColor (found : Json)
  | scheme (found : Json)
  | base (found : Json)

def Error.message : Error → String
  | useColor found => "use_color must be a bool, got " ++ found.typeName
  | scheme found => "color_scheme must be a ColorScheme, got " ++ found.typeName
  | base found => "base_source_path must be a path, got " ++ found.typeName

/-- A value that may be left out with a null. -/
def Given.optional {α : Type} (error : Json → Error) : Given α → Except Error (Option α)
  | .proper value => .ok (some value)
  | .other .null => .ok none
  | .other found => .error (error found)

/-- The options, if every value has its proper type. -/
def Request.check (request : Request) : Except Error Options := do
  let useColor ←
    match request.useColor with
    | .bool value => .ok value
    | found => .error (.useColor found)
  let scheme ← request.scheme.optional .scheme
  let base ← request.base.optional .base
  pure { useColor, scheme, base }

end HelpSheet.Page
