import HelpSheet.Proofs.Recipe.Arguments
import HelpSheet.Proofs.Text.Runs

/-!
# The category option

The command of a help makefile names the category as a quoted word, and in a recipe its dollar signs
are doubled for make. Both encodings are undone in turn, make first: the shell then reads the name
of the option and the category, whatever the category is (`categoryFlag_words`).
-/

set_option autoImplicit false
set_option relaxedAutoImplicit false

namespace HelpSheet.Makefile

open Escape.Shell (Spells words)

/-- The arguments that name the category, unless it is the standard one. -/
def categoryOption (category : String) : List Argument :=
  if category = standardCategory then []
  else [.word "--help-category" (by decide), .quoted category]

variable {options : Options}

theorem categoryFlag_toList (hcategory : options.category ≠ standardCategory) (inRecipe : Bool) :
    (categoryFlag options inRecipe).toList =
      " --help-category ".toList ++ (categoryWord options inRecipe).toList := by
  rw [categoryFlag, if_neg hcategory, String.toList_append]

theorem doubleDollars_append (front back : List Char) :
    doubleDollars (front ++ back) = doubleDollars front ++ doubleDollars back :=
  List.flatMap_append

/-- In a recipe the option is written as elsewhere, but for its dollar signs. -/
theorem categoryFlag_true_toList (hcategory : options.category ≠ standardCategory) :
    (categoryFlag options true).toList = doubleDollars (categoryFlag options false).toList := by
  have hname : doubleDollars " --help-category ".toList = " --help-category ".toList := by decide
  have hword : (categoryWord options true).toList =
      doubleDollars (categoryWord options false).toList := String.toList_ofList
  rw [categoryFlag_toList hcategory, categoryFlag_toList hcategory, hword, doubleDollars_append,
    hname]

theorem written_categoryOption (options : Options) :
    written (categoryOption options.category) = (categoryFlag options true).toList := by
  unfold categoryOption
  split
  · next hcategory => rw [categoryFlag, if_pos hcategory]; rfl
  · next hcategory =>
    rw [categoryFlag_toList hcategory, categoryWord]
    simp [Escape.Shell.quoted]

theorem words_categoryFlag (hcategory : options.category ≠ standardCategory) :
    words (categoryFlag options false).toList =
      some ["--help-category".toList, options.category.toList] := by
  have hname : Spells "--help-category".toList "--help-category".toList :=
    Escape.Shell.spells_of_isOrdinaryText (by decide)
  have hcategories : List.Forall₂ Spells [Escape.Shell.quoteWord options.category.toList]
      [options.category.toList] := .cons (Escape.Shell.spells_quoteWord _) .nil
  have hline : (categoryFlag options false).toList =
      ' ' :: ("--help-category".toList ++
        [Escape.Shell.quoteWord options.category.toList].flatMap (' ' :: ·)) := by
    rw [categoryFlag_toList hcategory]
    simp [categoryWord, Escape.Shell.quoted]
  rw [hline, Escape.Shell.words_blank, Escape.Shell.words_spelled hcategories hname]

/-- In a recipe, the dollar signs of the category option stand in runs of even length, and after
make has halved them the shell reads the name of the option and the category. Outside a recipe the
shell reads the same words. Nothing is expanded. -/
theorem categoryFlag_words (options : Options) (hcategory : options.category ≠ standardCategory) :
    (∀ count, Text.IsRun '$' count (categoryFlag options true).toList → 2 ∣ count) ∧
    (∀ directory, (expand directory 0 (categoryFlag options true).toList).bind words =
      some ["--help-category".toList, options.category.toList]) ∧
    words (categoryFlag options false).toList =
      some ["--help-category".toList, options.category.toList] := by
  have hwords := words_categoryFlag hcategory
  rw [categoryFlag_true_toList hcategory]
  refine ⟨fun count hrun ↦ Text.even_of_isRun_doubled hrun, fun directory ↦ ?_, hwords⟩
  have hexpand : expand directory 0 (doubleDollars (categoryFlag options false).toList) =
      some (categoryFlag options false).toList := (Expands.doubleDollars _).expand_eq
  rw [hexpand]
  exact hwords

/-- Quotes, blanks and dollar signs in a category. -/
theorem categoryFlag_words_possessive :
    "Dev's $(HOME) $" ≠ standardCategory ∧
      categoryFlag { category := "Dev's $(HOME) $" } true =
        " --help-category 'Dev'\"'\"'s $$(HOME) $$'" ∧
      (expand [] 0 (categoryFlag { category := "Dev's $(HOME) $" } true).toList).bind words =
        some ["--help-category".toList, "Dev's $(HOME) $".toList] := by
  have hcategory : "Dev's $(HOME) $" ≠ standardCategory := by decide
  have hflag : categoryFlag { category := "Dev's $(HOME) $" } true =
      " --help-category 'Dev'\"'\"'s $$(HOME) $$'" := by decide +kernel
  obtain ⟨-, hrecipe, -⟩ := categoryFlag_words { category := "Dev's $(HOME) $" } hcategory
  exact ⟨hcategory, hflag, hrecipe []⟩

end HelpSheet.Makefile
