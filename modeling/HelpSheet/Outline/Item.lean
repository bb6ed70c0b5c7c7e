import HelpSheet.Model.Basic

/-!
# Outlines

A view of a model or of a target, as a list of items that says which facts are shown and in which
order, before any output format is chosen. Texts in an outline are raw.
-/

set_option autoImplicit false
set_option relaxedAutoImplicit false

namespace HelpSheet

/-- One element of a view. -/
inductive Item
  | usage (line : String)
  | descriptionStart (file : String)
  | descriptionLine (line : String)
  | descriptionEnd
  | includedStart
  | includedFile (path : String)
  | includedFileLine (line : String)
  | includedFileEnd (path : String)
  | includedEnd
  | targetsStart
  | categoryStart (name : String)
  | categoryHeader (name : String)
  | targetListStart
  | target (target : Target)
  | targetListEnd
  | categoryEnd (name : String)
  | targetsEnd
  | title (name : String) (target : Option Target)
  | aliases (names : List String)
  | variablesStart
  | variableEntry (entry : Variable)
  | variablesEnd
  | separator
  | documentationStart
  | documentationLine (line : String)
  | documentationEnd
  | noDocumentation (notice : String)
  | source (path : String) (line : Int)
  deriving DecidableEq, Repr

/-- A view as the list of its elements. -/
abbrev Outline := List Item

/-! ### What an item shows -/

/-- The rich text that an item shows, empty where it shows none. -/
def Item.richText : Item → Markup.RichText
  | .descriptionLine line => Markup.parse line
  | .includedFileLine line => Markup.parse line
  | .documentationLine line => Markup.parse line
  | .variableEntry entry => Markup.parse entry.description
  | .target shown => shown.summary
  | _ => []

/-- The place that an item names, however long its line number is. -/
def Item.placeText : Item → String
  | .source path line => path ++ ":" ++ toString line
  | _ => ""

end HelpSheet
