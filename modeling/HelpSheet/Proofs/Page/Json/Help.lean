import HelpSheet.Page.Renderer
import HelpSheet.Proofs.Model.FileDocs
import HelpSheet.Proofs.Page.Json.Folding

/-!
# What a JSON help page says

The object of a help view is folded from its outline without a failure (`foldHelp?_ofModel`), and
every JSON page is read back as the value that it was written for (`parse_page`). On a help page
this is an object with the facts of the model: each of them is there exactly when the model has it
(`ofModel_eq`).
-/

set_option autoImplicit false
set_option relaxedAutoImplicit false

namespace HelpSheet.Page.Json

open HelpSheet.Json (Plain document parse writeValue field? setField)
open HelpSheet.Text (joinWith)

/-! ### Folding the outline of a model -/

section Help

variable (viewpoint : Outline.Viewpoint) {front : Fields}

/-- The lines of the description while they are gathered. -/
abbrev gatheredLines (lines : List String) : Fields :=
  listField "description" HelpSheet.Json.string lines

/-- An included file while its lines are added. -/
def openFile (file : FileDoc) : HelpSheet.Json :=
  .object [("path", .string file.sourceFile), ("lines", .array (file.documentation.map .string))]

theorem folds_descriptionSection (hfront : "description" ∉ front.map Prod.fst)
    (file? : Option FileDoc) :
    Folds (foldHelpItem? viewpoint) (Outline.descriptionSection file?) front
      (front ++ gatheredLines (file?.elim [] FileDoc.documentation)) := by
  cases file? with
  | none =>
    have hbefore : front ++ gatheredLines [] = front := List.append_nil front
    rw [Option.elim_none, hbefore]
    exact folds_nil front
  | some file =>
    have hline : ∀ done line, foldHelpItem? viewpoint (front ++ gatheredLines done)
        (.descriptionLine line) = some (front ++ gatheredLines (done ++ [line])) :=
      push?_listField hfront HelpSheet.Json.string
    exact (folds_listField_map hline file.documentation).enclosed rfl rfl

theorem folds_includedFileSection (hfront : "includedFiles" ∉ front.map Prod.fst)
    (done : List FileDoc) (file : FileDoc) :
    Folds (foldHelpItem? viewpoint) (Outline.includedFileSection file)
      (front ++ listField "includedFiles" openFile done)
      (front ++ listField "includedFiles" openFile (done ++ [file])) := by
  -- While its lines are added, the file is the last one of the list, with the lines so far.
  let state (lines : List String) : Fields := front ++
    listField "includedFiles" openFile (done ++ [{ file with documentation := lines }])
  have hstart : foldHelpItem? viewpoint (front ++ listField "includedFiles" openFile done)
      (.includedFile file.sourceFile) = some (state []) :=
    push?_listField hfront openFile done { file with documentation := [] }
  have hline : ∀ lines line, foldHelpItem? viewpoint (state lines) (.includedFileLine line) =
      some (state (lines ++ [line])) := by
    intro lines line
    have hpath : "lines" ∉ [("path", HelpSheet.Json.string file.sourceFile)].map Prod.fst := by simp
    refine pushInLast?_listField hfront openFile done hpath rfl ?_
    simp [openFile]
  exact (folds_map hline [] file.documentation).enclosed hstart rfl

theorem folds_categorySection (hfront : "categories" ∉ front.map Prod.fst)
    (done : List Category) (category : Category) :
    Folds (foldHelpItem? viewpoint) (Outline.categorySection category)
      (front ++ listField "categories" (ofCategory viewpoint) done)
      (front ++ listField "categories" (ofCategory viewpoint) (done ++ [category])) := by
  let state (targets : List Target) : Fields := front ++
    listField "categories" (ofCategory viewpoint) (done ++ [{ category with targets }])
  have hstart : foldHelpItem? viewpoint
      (front ++ listField "categories" (ofCategory viewpoint) done) (.categoryStart category.name) =
        some (state []) :=
    push?_listField hfront (ofCategory viewpoint) done { category with targets := [] }
  have htarget : ∀ targets target, foldHelpItem? viewpoint (state targets) (.target target) =
      some (state (targets ++ [target])) := by
    intro targets target
    have hname : "targets" ∉ [("name", HelpSheet.Json.string category.name)].map Prod.fst := by simp
    refine pushInLast?_listField hfront (ofCategory viewpoint) done hname rfl ?_
    simp [ofCategory]
  have hheader : Folds (foldHelpItem? viewpoint) (Outline.categoryHeader category) (state [])
      (state []) := by
    unfold Outline.categoryHeader
    split
    · exact folds_nil _
    · exact folds_item rfl
  have htargets : Folds (foldHelpItem? viewpoint)
      (.targetListStart :: category.targets.map .target ++ [.targetListEnd]) (state [])
      (state category.targets) :=
    (folds_map htarget [] category.targets).enclosed rfl rfl
  exact (hheader.append htargets).enclosed hstart rfl

theorem folds_includedSection (hfront : "includedFiles" ∉ front.map Prod.fst)
    (files : List FileDoc) :
    Folds (foldHelpItem? viewpoint) (Outline.includedSection files) front
      (front ++ listField "includedFiles" openFile files) := by
  have hfiles := folds_listField_flatMap (folds_includedFileSection viewpoint hfront) files
  exact (hfiles.enclosed rfl rfl).unlessEmpty

theorem folds_targetsSection (hfront : "categories" ∉ front.map Prod.fst)
    (categories : List Category) :
    Folds (foldHelpItem? viewpoint) (Outline.targetsSection categories) front
      (front ++ listField "categories" (ofCategory viewpoint) categories) := by
  have hcategories := folds_listField_flatMap (folds_categorySection viewpoint hfront) categories
  exact (hcategories.enclosed rfl rfl).unlessEmpty

/-- What is gathered from the items of a help view. -/
theorem folds_ofModel (model : Model) :
    Folds (foldHelpItem? viewpoint) (Outline.ofModel model) []
      ([("usage", .string Outline.usageLine)] ++
        gatheredLines (model.entryPoint?.elim [] FileDoc.documentation) ++
        listField "includedFiles" openFile model.includedFiles ++
        listField "categories" (ofCategory viewpoint) model.categories) := by
  have husage : Folds (foldHelpItem? viewpoint) [.usage Outline.usageLine] []
      [("usage", .string Outline.usageLine)] :=
    rfl
  have hdescription : "description" ∉
      [("usage", HelpSheet.Json.string Outline.usageLine)].map Prod.fst := by
    simp
  have hincluded : "includedFiles" ∉ ([("usage", HelpSheet.Json.string Outline.usageLine)] ++
      gatheredLines (model.entryPoint?.elim [] FileDoc.documentation)).map Prod.fst := by
    simp [not_mem_listField]
  have hcategories : "categories" ∉ ([("usage", HelpSheet.Json.string Outline.usageLine)] ++
      gatheredLines (model.entryPoint?.elim [] FileDoc.documentation) ++
        listField "includedFiles" openFile model.includedFiles).map Prod.fst := by
    simp [not_mem_listField]
  exact ((husage.append (folds_descriptionSection viewpoint hdescription _)).append
    (folds_includedSection viewpoint hincluded _)).append
      (folds_targetsSection viewpoint hcategories _)

theorem joinLines?_map (lines : List String) :
    joinLines? (.array (lines.map .string)) = some (.string (joinWith "\n" lines)) := by
  have htext : ∀ line, text? (.string line) = some line := fun _ ↦ rfl
  have htexts := mapM_map_eq htext lines
  rw [List.map_id'] at htexts
  rw [joinLines?, htexts]
  rfl

/-- An included file keeps its path, and its lines become its description. -/
theorem describeFile?_openFile (file : FileDoc) :
    describeFile? (openFile file) = some (ofIncludedFile file) := by
  obtain ⟨path, lines, isEntryPoint, order⟩ := file
  cases lines with
  | nil => rfl
  | cons line lines =>
    have hjoined := joinLines?_map (line :: lines)
    rw [List.map_cons] at hjoined
    simp [describeFile?, openFile, field?, List.lookup_cons, hjoined, setField, ofIncludedFile,
      linesField]

/-- The object that is folded from the outline of a model is the one that its page shows. -/
theorem foldHelp?_ofModel (model : Model) :
    (foldHelp? viewpoint (Outline.ofModel model)).map .object = some (ofModel viewpoint model) := by
  let lines := model.entryPoint?.elim [] FileDoc.documentation
  let usage : Fields := [("usage", .string Outline.usageLine)]
  let categories := listField "categories" (ofCategory viewpoint) model.categories
  have hgathered : (Outline.ofModel model).foldlM (foldHelpItem? viewpoint) [] =
      some (usage ++ gatheredLines lines ++
        listField "includedFiles" openFile model.includedFiles ++ categories) :=
    folds_ofModel viewpoint model
  have hdescription : changeIfAny? "description" joinLines? (usage ++ gatheredLines lines ++
      (listField "includedFiles" openFile model.includedFiles ++ categories)) =
        some (usage ++ linesField "description" lines ++
          (listField "includedFiles" openFile model.includedFiles ++ categories)) := by
    refine changeIfAny?_listField (by simp [usage]) ?_ (joinLines?_map lines)
    simp [categories, not_mem_listField]
  have hincluded : changeIfAny? "includedFiles" (changeEach? describeFile?)
      (usage ++ linesField "description" lines ++
        (listField "includedFiles" openFile model.includedFiles ++ categories)) =
          some (usage ++ linesField "description" lines ++
            listField "includedFiles" ofIncludedFile model.includedFiles ++ categories) := by
    have hfiles := changeEach?_map describeFile?_openFile model.includedFiles
    rw [← List.append_assoc]
    refine changeIfAny?_listField ?_ (by simp [categories, not_mem_listField]) hfiles
    simp [usage, not_mem_linesField]
  have hlines : (model.entryPoint?.toList.flatMap fun file ↦
      linesField "description" file.documentation) = linesField "description" lines := by
    cases hentry : model.entryPoint? <;> simp [lines, hentry, linesField]
  rw [List.append_assoc] at hgathered
  simp only [foldHelp?, hgathered, hdescription, hincluded, ofModel, hlines, Option.bind_eq_bind,
    Option.bind_some, Option.map_some]
  rfl

end Help

/-! ### Pages -/

/-- A renderer of JSON pages. -/
def renderer (options : Options) : Renderer where
  format := .json
  options := options

theorem page_eq (options : Options) (workingDirectory : String) (view : View) :
    (renderer options).page workingDirectory view =
      document (Renderer.value ((renderer options).viewpoint workingDirectory) view) :=
  String.empty_append

theorem plain_value (viewpoint : Outline.Viewpoint) (view : View) :
    Plain (Renderer.value viewpoint view) := by
  cases view with
  | help model => exact plain_ofModel viewpoint model
  | detailed target => exact plain_ofTarget viewpoint target
  | basic name sourceFile lineNumber => exact plain_ofName viewpoint name sourceFile lineNumber

/-- A JSON page is read back as the value of its view. -/
theorem parse_page (options : Options) (workingDirectory : String) (view : View) :
    parse ((renderer options).page workingDirectory view) =
      .ok (Renderer.value ((renderer options).viewpoint workingDirectory) view) := by
  rw [page_eq]
  exact HelpSheet.Json.parse_document (plain_value _ view)

/-- The document of an object ends with a closing brace and one line feed. -/
theorem exists_document_object_eq (fields : Fields) :
    ∃ front, (document (.object fields)).toList = front ++ ['\x7d', '\n'] := by
  have hwritten : ∃ front, writeValue 0 (.object fields) = front ++ ['\x7d'] := by
    cases fields with
    | nil =>
      rw [writeValue]
      exact ⟨['\x7b'], rfl⟩
    | cons field fields =>
      rw [writeValue]
      exact ⟨_, rfl⟩
  obtain ⟨front, hfront⟩ := hwritten
  refine ⟨front, ?_⟩
  rw [document, String.toList_ofList, hfront, List.append_assoc]
  rfl

/-! ### The facts of a model -/

/-- A variable with the parts of it that are not empty. -/
def variableObject (entry : Variable) : HelpSheet.Json :=
  .object (omitEmpty [("name", .string entry.name), ("description", .string entry.description)])

/-- A target with the parts of it that are not empty. -/
def targetObject (viewpoint : Outline.Viewpoint) (target : Target) : HelpSheet.Json :=
  .object (omitEmpty
    [("name", .string target.name),
     ("summary", .string (Markup.RichText.plainText target.summary)),
     ("aliases", .array (target.aliases.map .string)),
     ("variables", .array (target.usedVariables.map variableObject)),
     ("sourceFile", .string (viewpoint.shorten target.sourceFile)),
     ("lineNumber", .int target.lineNumber)])

/-- An included file with its path and its lines as one text. -/
def fileObject (file : FileDoc) : HelpSheet.Json :=
  .object [("path", .string file.sourceFile),
    ("description", .string (joinWith "\n" file.documentation))]

/-- A group of targets with its name, which may be empty, and its targets. -/
def categoryObject (viewpoint : Outline.Viewpoint) (category : Category) : HelpSheet.Json :=
  .object [("name", .string category.name),
    ("targets", .array (category.targets.map (targetObject viewpoint)))]

/-- What a help page says of the file that describes the build, if there is one, of the included
files and of the groups of targets. -/
def helpFields (viewpoint : Outline.Viewpoint) (opening? : Option FileDoc)
    (included : List FileDoc) (categories : List Category) : Fields :=
  [("usage", .string Outline.usageLine)] ++
    optional "description" (opening?.map fun file ↦ .string (joinWith "\n" file.documentation)) ++
    (if included = [] then [] else [("includedFiles", .array (included.map fileObject))]) ++
    (if categories = [] then []
     else [("categories", .array (categories.map (categoryObject viewpoint)))])

theorem ofListedTarget_eq_targetObject (viewpoint : Outline.Viewpoint) :
    ofListedTarget viewpoint = targetObject viewpoint := by
  have hvariables : ofVariable = variableObject := funext ofVariable_eq
  funext target
  rw [ofListedTarget_eq, hvariables]
  rfl

theorem ofIncludedFile_eq_fileObject {file : FileDoc} (hfile : file.isDocumented = true) :
    ofIncludedFile file = fileObject file := by
  rw [FileDoc.isDocumented_iff] at hfile
  simp [ofIncludedFile, fileObject, linesField, hfile]

/-- The help view of a model as an object of its facts. -/
theorem ofModel_eq (viewpoint : Outline.Viewpoint) (model : Model) :
    ofModel viewpoint model =
      .object (helpFields viewpoint model.openingFiles.head? model.includedFiles
        model.categories) := by
  have hdescription : (model.entryPoint?.toList.flatMap fun file ↦
      linesField "description" file.documentation) =
        optional "description"
          (model.entryPoint?.map fun file ↦ .string (joinWith "\n" file.documentation)) := by
    cases hentry : model.entryPoint? with
    | none => rfl
    | some file =>
      have hfile := model.isDocumented_of_mem_entryPoint? hentry
      rw [FileDoc.isDocumented_iff] at hfile
      simp [linesField, hfile, optional]
  have hincluded : model.includedFiles.map ofIncludedFile = model.includedFiles.map fileObject :=
    List.map_congr_left fun file hfile ↦
      ofIncludedFile_eq_fileObject (model.isDocumented_of_mem_includedFiles hfile)
  have hcategories : ofCategory viewpoint = categoryObject viewpoint := by
    funext category
    rw [ofCategory, ofListedTarget_eq_targetObject]
    rfl
  rw [ofModel, hdescription, Model.entryPoint?_eq_head?, helpFields, listField, listField,
    hincluded, hcategories]
  simp only [List.isEmpty_iff]
  rfl

end HelpSheet.Page.Json
