import Mathlib.Tactic.SplitIfs
import Mathlib.Tactic.Tauto
import HelpSheet.Makefile.Generate
import HelpSheet.Model.Shape
import HelpSheet.Proofs.Page.Handlers
import HelpSheet.Proofs.Recipe.Layout
import HelpSheet.Proofs.Text.Lacking

/-!
# The lines of a help makefile

A help makefile is written line by line: fixed lines, lines with names and paths in them, and
statements whose text is escaped. Strings that stand in lines as they are can bring line feeds with
them. The lines of the file are the lines that were written exactly when no such string has one
(`generate_lines_iff`); documentation and the other escaped strings never matter.
-/

set_option autoImplicit false
set_option relaxedAutoImplicit false

namespace HelpSheet.Makefile

open HelpSheet.Text (Lacks splitOnChar)

/-! ### The lines as they are written -/

/-- The statements that print the lines of a view. -/
def statements (workingDirectory : String) (options : Options) (view : Page.View) :
    List (List Char) :=
  (Page.shownLines (renderer options).options workingDirectory view).map fun line ↦
    Page.openStatement (Escape.Recipe.escape line.toList)

/-- The lines of the rule that prints the detailed view of a target. -/
def targetRuleLines (workingDirectory : String) (options : Options) (target : Target) :
    List (List Char) :=
  ["", ".PHONY: help-" ++ target.name, "help-" ++ target.name ++ ":"].map String.toList ++
    statements workingDirectory options (.detailed target)

/-- The lines of a help makefile, without their line feeds. -/
def fileLines (workingDirectory : String) (options : Options) (stamp : String) (model : Model) :
    List (List Char) :=
  let makefiles := relativeMakefiles workingDirectory options
  (headerLines options stamp ++ makefilesLines makefiles ++ [""] ++
      helpTargetLines options model.hasCategories).map String.toList ++
    statements workingDirectory options (.help model) ++
    model.targets.flatMap (targetRuleLines workingDirectory options) ++
    ("" :: updateTargetLines options model.hasCategories makefiles).map String.toList

/-- Pieces with a line feed behind each of them. -/
def ended (pieces : List (List Char)) : List Char :=
  pieces.flatMap fun piece ↦ piece ++ ['\n']

theorem ended_append (first second : List (List Char)) :
    ended (first ++ second) = ended first ++ ended second :=
  List.flatMap_append

theorem writeLines_toList (lines : List String) :
    (writeLines lines).toList = ended (lines.map String.toList) := by
  rw [writeLines, String.toList_join, List.flatMap_map, ended, List.flatMap_map]
  simp

theorem writeStatements_toList (workingDirectory : String) (options : Options)
    (view : Page.View) :
    (writeStatements ((renderer options).recipeLines workingDirectory view)).toList =
      ended (statements workingDirectory options view) := by
  have hlines : ((renderer options).recipeLines workingDirectory view).map Page.Chunk.text =
      _ := Page.recipeLines_text (renderer options).options workingDirectory view
  have hstatements : ((renderer options).recipeLines workingDirectory view).map
      (fun line ↦ Page.Text.statement line.text) =
        (((renderer options).recipeLines workingDirectory view).map Page.Chunk.text).map
          Page.Text.statement := by
    rw [List.map_map]
    rfl
  rw [writeStatements, hstatements, hlines, String.toList_join, statements, ended]
  simp only [List.flatMap_map, Page.statement_toList, Escape.Recipe.escaped, String.toList_ofList]

theorem targetRule_toList (workingDirectory : String) (options : Options) (target : Target) :
    (targetRule workingDirectory options target).toList =
      ended (targetRuleLines workingDirectory options target) := by
  rw [targetRule, printingRule, String.toList_append, writeLines_toList, targetHelp,
    writeStatements_toList,
    targetRuleLines, ended_append]

/-- A help makefile is its lines, each with a line feed behind it. -/
theorem fileText_toList (workingDirectory : String) (options : Options) (stamp : String)
    (model : Model) :
    (fileText workingDirectory options stamp model).toList =
      ended (fileLines workingDirectory options stamp model) := by
  have hrules : (String.join (model.targets.map (targetRule workingDirectory options))).toList =
      ended (model.targets.flatMap (targetRuleLines workingDirectory options)) := by
    rw [String.toList_join, List.flatMap_map, ended, List.flatMap_assoc]
    simp only [targetRule_toList, ended]
  simp only [fileText, textAround, fileLines, String.toList_append, writeLines_toList,
    writeStatements_toList, hrules, ended_append, List.map_append, List.append_assoc]

/-- The stamp of a help makefile stands in one of its lines, and nowhere else. -/
theorem exists_fileText_eq (workingDirectory : String) (options : Options) (model : Model) :
    ∃ front back : String, ∀ stamp, fileText workingDirectory options stamp model =
      front ++ "\n# date: " ++ stamp ++ "\n" ++ back := by
  obtain ⟨first, second, rest, hlines⟩ : ∃ (first second : String) (rest : List (List Char)),
      ∀ stamp, fileLines workingDirectory options stamp model =
        first.toList :: second.toList :: ("# date: " ++ stamp).toList :: rest :=
    ⟨_, _, _, fun _ ↦ rfl⟩
  refine ⟨first ++ "\n" ++ second, String.ofList (ended rest), fun stamp ↦ ?_⟩
  rw [← String.toList_inj, fileText_toList, hlines]
  simp [ended]

/-! ### Line feeds in lines -/

section LineFeeds

variable (workingDirectory : String) (options : Options) (model : Model)

theorem lacks_quoted_iff {c : Char} (hsingle : c ≠ '\x27') (hdouble : c ≠ '\x22')
    (text : String) : Lacks c (Escape.Shell.quoted text) ↔ Lacks c text := by
  have hquoteChar : ∀ d, c ∈ Escape.Shell.quoteChar d ↔ c = d := by
    intro d
    unfold Escape.Shell.quoteChar
    split_ifs with hd <;> simp [hd, hsingle, hdouble]
  simp only [Lacks, Escape.Shell.quoted, String.toList_ofList, Escape.Shell.quoteWord]
  split_ifs
  · rfl
  · simp [hsingle, hquoteChar]

theorem mem_doubleDollars_iff {c : Char} {text : List Char} :
    c ∈ doubleDollars text ↔ c ∈ text := by
  have hdoubled : ∀ d, c ∈ (if d = '$' then ['$', '$'] else [d]) ↔ c = d := by
    intro d
    split_ifs with hd <;> simp [hd]
  simp [doubleDollars, hdoubled]

theorem lacks_categoryFlag_iff (inRecipe : Bool) :
    Lacks '\n' (categoryFlag options inRecipe) ↔ Lacks '\n' options.category := by
  have hword : Lacks '\n' (categoryWord options inRecipe) ↔ Lacks '\n' options.category := by
    have hquoted := lacks_quoted_iff (c := '\n') (by decide) (by decide) options.category
    cases inRecipe with
    | false => simpa [categoryWord] using hquoted
    | true => simpa [categoryWord, Lacks, mem_doubleDollars_iff] using hquoted
  unfold categoryFlag
  split_ifs with hstandard
  · simp +decide [hstandard]
  · simp +decide [hword]

theorem lacks_colorFlag : Lacks '\n' (colorFlag options) := by
  unfold colorFlag
  split_ifs <;> decide

theorem lacks_commandText_iff :
    Lacks '\n' (commandText options) ↔
      if options.command = "" then Lacks '\n' options.modelName ∧ Lacks '\n' options.fileName ∧
        Lacks '\n' options.category
      else Lacks '\n' options.command := by
  by_cases hcommand : options.command = ""
  · simp +decide [commandText, hcommand, lacks_colorFlag, lacks_categoryFlag_iff, and_assoc]
  · simp [commandText, hcommand]

theorem lacks_headerLines_iff {stamp : String} (hstamp : Lacks '\n' stamp) :
    (∀ line ∈ headerLines options stamp, Lacks '\n' line) ↔ Lacks '\n' (commandText options) := by
  simp +decide [headerLines, hstamp]

theorem lacks_makefilesLines_iff (makefiles : List String) :
    (∀ line ∈ makefilesLines makefiles, Lacks '\n' line) ↔
      ∀ path ∈ makefiles, Lacks '\n' path := by
  have hseparator : Lacks '\n' " " := by decide
  unfold makefilesLines
  split_ifs with hempty
  · simp [List.isEmpty_iff.mp hempty]
  · simp +decide [Text.lacks_joinWith hseparator]

theorem lacks_categoryLines_iff (categorized : Bool) :
    (∀ line ∈ categoryLines options categorized, Lacks '\n' line) ↔
      (categorized → Lacks '\n' options.category) := by
  cases categorized <;> simp +decide [categoryLines]

theorem lacks_helpTargetLines_iff (categorized : Bool) :
    (∀ line ∈ helpTargetLines options categorized, Lacks '\n' line) ↔
      (categorized → Lacks '\n' options.category) ∧ Lacks '\n' options.fileName := by
  have hwarning : Lacks '\n' (staleWarning options) ↔ Lacks '\n' options.fileName := by
    unfold staleWarning
    split_ifs <;> simp +decide
  rw [helpTargetLines, List.forall_mem_append, lacks_categoryLines_iff]
  simp +decide [hwarning, directoryReference]

theorem lacks_updateCommand_iff (makefiles : List String) :
    Lacks '\n' (updateCommand options makefiles) ↔
      Lacks '\n' options.modelName ∧ Lacks '\n' options.fileName ∧
        (∀ path ∈ makefiles, Lacks '\n' path) ∧ Lacks '\n' options.category := by
  have hmakefiles : Lacks '\n' (String.join (makefiles.map (" --makefile " ++ ·))) ↔
      ∀ path ∈ makefiles, Lacks '\n' path := by
    rw [Text.lacks_join, List.forall_mem_map]
    simp +decide
  rw [updateCommand]
  simp +decide [directoryReference, lacks_colorFlag, lacks_categoryFlag_iff, hmakefiles, and_assoc]

theorem lacks_updateTargetLines_iff (categorized : Bool) (makefiles : List String) :
    (∀ line ∈ updateTargetLines options categorized makefiles, Lacks '\n' line) ↔
      (categorized → Lacks '\n' options.category) ∧ Lacks '\n' options.fileName ∧
        Lacks '\n' options.modelName ∧ (∀ path ∈ makefiles, Lacks '\n' path) ∧
        Lacks '\n' options.category := by
  rw [updateTargetLines, List.forall_mem_append, lacks_categoryLines_iff]
  simp +decide [lacks_updateCommand_iff]
  tauto

theorem lineFeed_not_mem_of_mem_statements {view : Page.View} {line : List Char}
    (hline : line ∈ statements workingDirectory options view) : '\n' ∉ line := by
  obtain ⟨shown, -, rfl⟩ := List.mem_map.mp hline
  exact Page.lineFeed_not_mem_openStatement fun hfeed ↦
    Escape.Recipe.not_mem_controls_of_mem_escape hfeed (by decide)

theorem lineFeed_targetRuleLines_iff (target : Target) :
    (∀ line ∈ targetRuleLines workingDirectory options target, '\n' ∉ line) ↔
      Lacks '\n' target.name := by
  have hstatements : ∀ line ∈ statements workingDirectory options (.detailed target),
      '\n' ∉ line := fun _ ↦ lineFeed_not_mem_of_mem_statements workingDirectory options
  rw [targetRuleLines, List.forall_mem_append, and_iff_left hstatements, List.forall_mem_map]
  change (∀ line ∈ _, Lacks '\n' line) ↔ _
  simp +decide

theorem lineFeed_map_toList_iff (lines : List String) :
    (∀ piece ∈ lines.map String.toList, '\n' ∉ piece) ↔ ∀ line ∈ lines, Lacks '\n' line :=
  List.forall_mem_map

/-- The strings that stand in lines as they are. -/
def pastedStrings : List String :=
  options.command :: options.fileName :: options.modelName :: options.category ::
    relativeMakefiles workingDirectory options ++ model.targets.map Target.name

/-- The lines that are written hold a line feed exactly where a string brings one with it. -/
theorem lineFeed_fileLines_iff {stamp : String} (hstamp : Lacks '\n' stamp) :
    (∀ line ∈ fileLines workingDirectory options stamp model, '\n' ∉ line) ↔
      ∀ given ∈ pastedStrings workingDirectory options model, Lacks '\n' given := by
  have hheader := lacks_headerLines_iff options hstamp
  have hcommand : Lacks '\n' options.command → Lacks '\n' options.modelName →
      Lacks '\n' options.fileName → Lacks '\n' options.category →
        Lacks '\n' (commandText options) := by
    rw [lacks_commandText_iff]
    split_ifs <;> tauto
  have hgiven : Lacks '\n' (commandText options) → Lacks '\n' options.command := by
    rw [lacks_commandText_iff]
    split_ifs with hempty
    · exact fun _ ↦ hempty ▸ Text.lacks_empty
    · exact id
  have hstatements : ∀ line ∈ statements workingDirectory options (.help model), '\n' ∉ line :=
    fun _ ↦ lineFeed_not_mem_of_mem_statements workingDirectory options
  simp only [fileLines, List.forall_mem_append, lineFeed_map_toList_iff, List.forall_mem_flatMap,
    lineFeed_targetRuleLines_iff, lacks_makefilesLines_iff, lacks_helpTargetLines_iff, hheader,
    List.forall_mem_cons, lacks_updateTargetLines_iff]
  rw [pastedStrings]
  simp only [List.forall_mem_append, List.forall_mem_cons, List.forall_mem_map]
  constructor
  · rintro ⟨⟨⟨⟨⟨⟨hcommandText, -⟩, -⟩, -⟩, -⟩, hnames⟩, -, -, hfileName, hmodelName, hpaths,
      hcategory⟩
    exact ⟨⟨hgiven hcommandText, hfileName, hmodelName, hcategory, hpaths⟩, hnames⟩
  · rintro ⟨⟨hcommandLine, hfileName, hmodelName, hcategory, hpaths⟩, hnames⟩
    have htext := hcommand hcommandLine hmodelName hfileName hcategory
    have hhelp : (model.hasCategories = true → Lacks '\n' options.category) ∧
        Lacks '\n' options.fileName := ⟨fun _ ↦ hcategory, hfileName⟩
    exact ⟨⟨⟨⟨⟨⟨htext, hpaths⟩, Text.lacks_empty, nofun⟩, hhelp⟩, hstatements⟩, hnames⟩,
      Text.lacks_empty, hhelp.1, hfileName, hmodelName, hpaths, hcategory⟩

/-- A stamp is made of digits, and of letters and signs between them. -/
theorem lacks_stamp {moment : Time.Moment} {stamp : String} (hstamp : moment.stamp = .ok stamp)
    {c : Char} (hdigit : ¬ c.isDigit) (hsign : c ∉ ['-', 'T', ':', ' ', 'U', 'C']) :
    Lacks c stamp := by
  have hnumber : ∀ number : Nat, Lacks c (toString number) := Text.lacks_toString_nat hdigit
  have hzero : Lacks c "0" := hnumber 0
  have hdigits : ∀ number : Nat, Lacks c (Time.Moment.twoDigits number) := by
    intro number
    unfold Time.Moment.twoDigits
    split_ifs
    · exact Text.lacks_append.mpr ⟨hzero, hnumber number⟩
    · exact hnumber number
  have hsigns : Lacks c "-" ∧ Lacks c "T" ∧ Lacks c ":" ∧ Lacks c " UTC" := by
    simp only [List.mem_cons, List.not_mem_nil, or_false, not_or] at hsign
    simp [Lacks, hsign]
  unfold Time.Moment.stamp at hstamp
  simp only at hstamp
  split_ifs at hstamp
  injection hstamp with hstamp
  rw [← hstamp]
  simp only [Text.lacks_append, hnumber, hdigits, hsigns, and_true]

theorem lacks_lineFeed_stamp {moment : Time.Moment} {stamp : String}
    (hstamp : moment.stamp = .ok stamp) : Lacks '\n' stamp :=
  lacks_stamp hstamp (by decide) (by decide)

end LineFeeds

/-! ### The lines of the file -/

theorem splitOnChar_fileText_iff {workingDirectory : String} {options : Options} {stamp : String}
    {model : Model} (hstamp : Lacks '\n' stamp) :
    splitOnChar '\n' (fileText workingDirectory options stamp model).toList =
        fileLines workingDirectory options stamp model ++ [[]] ↔
      ∀ given ∈ pastedStrings workingDirectory options model, Lacks '\n' given := by
  rw [fileText_toList, ended, Text.splitOnChar_flatMap_iff, lineFeed_fileLines_iff _ _ _ hstamp]

theorem outcome_viewLines (workingDirectory : String) (options : Options) (view : Page.View) :
    (viewLines workingDirectory options view).outcome =
      ((renderer options).recipeLines? workingDirectory view).mapError .line := by
  cases hlines : (renderer options).recipeLines? workingDirectory view <;>
    simp [viewLines, hlines, Log.Traced.ofExcept, Log.Traced.addNotes, Except.bind]

/-- The place of every target in a model can be written. -/
def HasShortPlaces (targets : List Target) : Prop :=
  ∀ target ∈ targets, (Page.View.detailed target).HasShortPlace

/-- The rules of targets are made one after the other, unless a place among them cannot be
written. -/
theorem outcome_targetRules (workingDirectory : String) (options : Options)
    (targets : List Target) :
    (HasShortPlaces targets → (targetRules workingDirectory options targets).outcome =
      .ok (targets.map (targetRule workingDirectory options))) ∧
    (¬ HasShortPlaces targets → (targetRules workingDirectory options targets).outcome =
      .error (.line (.number ⟨Text.Numeral.maxDigits⟩))) := by
  induction targets with
  | nil => exact ⟨fun _ ↦ rfl, fun hnot ↦ absurd (List.forall_mem_nil _) hnot⟩
  | cons target rest ih =>
    have hcons : HasShortPlaces (target :: rest) ↔
        (Page.View.detailed target).HasShortPlace ∧ HasShortPlaces rest :=
      List.forall_mem_cons
    rw [hcons, targetRules]
    simp only [Log.Traced.outcome_bind, outcome_viewLines]
    by_cases htarget : (Page.View.detailed target).HasShortPlace
    · rw [Page.recipeLines?_of_hasShortPlace htarget]
      refine ⟨fun hshort ↦ ?_, fun hnot ↦ ?_⟩
      · simp only [mapError_ok, Except.bind, ih.1 hshort.2]
        rfl
      · simp only [mapError_ok, Except.bind, ih.2 fun hrest ↦ hnot ⟨htarget, hrest⟩]
    · rw [Page.recipeLines?_of_not_hasShortPlace htarget]
      exact ⟨fun hshort ↦ absurd hshort.1 htarget, fun _ ↦ rfl⟩

/-- A help makefile is made of a model unless its moment has no date or the place of a target cannot
be written. -/
theorem outcome_generate (workingDirectory : String) (now : Time.Moment) (options : Options)
    {model : Model} (hmodel : HasShortPlaces model.targets) :
    (generate workingDirectory now options model).outcome =
      ((options.generatedAt.getD now).stamp.mapError .date).map fun stamp ↦
        fileText workingDirectory options stamp model := by
  have hhelp : (Page.View.help model).HasShortPlace := trivial
  rw [generate]
  simp only [Log.Traced.outcome_bind, outcome_viewLines,
    (outcome_targetRules workingDirectory options model.targets).1 hmodel,
    Page.recipeLines?_of_hasShortPlace hhelp]
  cases hstamp : (options.generatedAt.getD now).stamp <;> rfl

theorem outcome_generate_of_stamp (workingDirectory : String) {now : Time.Moment}
    {options : Options} {model : Model} {stamp : String}
    (hstamp : (options.generatedAt.getD now).stamp = .ok stamp)
    (hmodel : HasShortPlaces model.targets) :
    (generate workingDirectory now options model).outcome =
      .ok (fileText workingDirectory options stamp model) := by
  rw [outcome_generate _ _ _ hmodel, hstamp]
  rfl

theorem outcome_generate_of_not_hasShortPlaces (workingDirectory : String) {now : Time.Moment}
    {options : Options} {model : Model} {stamp : String}
    (hstamp : (options.generatedAt.getD now).stamp = .ok stamp)
    (hmodel : ¬ HasShortPlaces model.targets) :
    (generate workingDirectory now options model).outcome =
      .error (.line (.number ⟨Text.Numeral.maxDigits⟩)) := by
  have hhelp : (Page.View.help model).HasShortPlace := trivial
  rw [generate]
  simp only [Log.Traced.outcome_bind, outcome_viewLines, hstamp,
    (outcome_targetRules workingDirectory options model.targets).2 hmodel,
    Page.recipeLines?_of_hasShortPlace hhelp]
  rfl

/-- A help makefile is generated for every moment that has a stamp, as long as the places of the
targets can be written. Its lines are the ones that were written exactly when no line feed stands in
the command line, the names of the help and model files, the category, the paths of the makefiles
and the names of the targets. -/
theorem generate_lines_iff (workingDirectory : String) (now : Time.Moment) (options : Options)
    (model : Model) :
    match (options.generatedAt.getD now).stamp with
    | .error error => (generate workingDirectory now options model).outcome = .error (.date error)
    | .ok stamp =>
      (¬ HasShortPlaces model.targets →
        (generate workingDirectory now options model).outcome =
          .error (.line (.number ⟨Text.Numeral.maxDigits⟩))) ∧
      (HasShortPlaces model.targets →
        ∃ text, (generate workingDirectory now options model).outcome = .ok text ∧
          (splitOnChar '\n' text.toList =
              fileLines workingDirectory options stamp model ++ [[]] ↔
            ∀ given ∈ pastedStrings workingDirectory options model, Lacks '\n' given)) := by
  cases hstamp : (options.generatedAt.getD now).stamp with
  | error error =>
    rw [generate]
    simp only [Log.Traced.outcome_bind, hstamp]
    rfl
  | ok stamp =>
    exact ⟨outcome_generate_of_not_hasShortPlaces workingDirectory hstamp, fun hmodel ↦
      ⟨_, outcome_generate_of_stamp workingDirectory hstamp hmodel,
        splitOnChar_fileText_iff (lacks_lineFeed_stamp hstamp)⟩⟩

/-- A model may name a target with a line feed and so bring a rule of its own into the file. -/
theorem not_forall_generate_lines :
    ¬ ∀ (workingDirectory : String) (now : Time.Moment) (options : Options) (document : Json)
      (model : Model) (stamp text : String),
      (Shape.readModel document).outcome = .ok model →
      (options.generatedAt.getD now).stamp = .ok stamp →
      (generate workingDirectory now options model).outcome = .ok text →
      splitOnChar '\n' text.toList = fileLines workingDirectory options stamp model ++ [[]] := by
  intro hall
  let name := "a\nevil:\n\t@id\nb"
  let document : Json := .object [("categories",
    .array [.object [("targets", .array [.object [("name", .string name)]])]])]
  let model : Model := { categories := [{ name := "", targets := [{ name }] }] }
  have hmodel : (Shape.readModel document).outcome = .ok model := by rfl
  have hstamp : Time.Moment.epoch.stamp = .ok "1970-01-01T00:00:00 UTC" := by rfl
  have hshort : HasShortPlaces model.targets :=
    List.forall_mem_singleton.mpr fun hsource ↦ absurd rfl hsource
  have hlines := hall "/" .epoch {} document model _ _ hmodel hstamp
    (outcome_generate_of_stamp "/" hstamp hshort)
  have hname := (splitOnChar_fileText_iff (lacks_lineFeed_stamp hstamp)).mp hlines name
    (by simp [pastedStrings, model, Model.targets])
  exact hname (by decide)

end HelpSheet.Makefile
