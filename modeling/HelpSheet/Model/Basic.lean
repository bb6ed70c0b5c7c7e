import HelpSheet.Markup.Summary

/-!
# Documentation models

What is documented: the files that make up a build, and their targets in named groups. All lists
keep the order in which they were given.
-/

set_option autoImplicit false
set_option relaxedAutoImplicit false

namespace HelpSheet

open Markup (RichText)

/-- A variable that a target reads. -/
structure Variable where
  name : String
  description : String := ""
  deriving DecidableEq, Repr

/-- A documented target. A line number of zero and an empty source file mean that the place is not
known. -/
structure Target where
  name : String
  aliases : List String := []
  summary : RichText := []
  documentation : List String := []
  usedVariables : List Variable := []
  sourceFile : String := ""
  lineNumber : Int := 0
  deriving DecidableEq, Repr

/-- The target with the summary of its own documentation. -/
def Target.summarized (target : Target) : Target :=
  { target with summary := Markup.summarize target.documentation }

/-- A group of targets; the group without a name stands for no group. -/
structure Category where
  name : String
  targets : List Target := []
  deriving DecidableEq, Repr

/-- Whether the group stands for no group. -/
def Category.isUnnamed (category : Category) : Bool :=
  category.name = ""

/-- The documentation of a file. -/
structure FileDoc where
  sourceFile : String
  documentation : List String := []
  isEntryPoint : Bool := false
  discoveryOrder : Int := 0
  deriving DecidableEq, Repr

/-- The documentation of a build. -/
structure Model where
  fileDocs : List FileDoc := []
  hasCategories : Bool := false
  categories : List Category := []
  deriving DecidableEq, Repr

namespace Model

/-- The first documented file that is an entry point. -/
def entryPoint? (model : Model) : Option FileDoc :=
  model.fileDocs.find? fun file ↦ file.isEntryPoint && !file.documentation.isEmpty

/-- The documented files that are no entry points, in the order of their discovery. -/
def includedFiles (model : Model) : List FileDoc :=
  (model.fileDocs.filter fun file ↦ !file.isEntryPoint && !file.documentation.isEmpty).mergeSort
    fun first second ↦ first.discoveryOrder ≤ second.discoveryOrder

/-- All targets, group by group. -/
def targets (model : Model) : List Target :=
  model.categories.flatMap Category.targets

/-- The target of a name: the first one called so, else the first one with such an alias. -/
def findTarget? (model : Model) (name : String) : Option Target :=
  (model.targets.find? fun target ↦ target.name = name) <|>
    model.targets.find? fun target ↦ target.aliases.contains name

/-- The names of the groups that have one. -/
def categoryNames (model : Model) : List String :=
  (model.categories.filter fun category ↦ !category.isUnnamed).map Category.name

/-- The number of targets. -/
def targetCount (model : Model) : Nat :=
  model.targets.length

end Model

end HelpSheet
