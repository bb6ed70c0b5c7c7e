import HelpSheet.Proofs.Sgr.Recoloring
import HelpSheet.Settings.Basic

/-!
# Which tables are settings

The shape of the tables that make settings (`IsSettingsTable`), what such a table says of the
settings (`DescribesSettings`), and what the fault of any other table says of the table
(`Fault.IsFoundIn`). Reading ends with settings exactly where a table has the shape, and only the
known keys have a say in it (`tables_read_as_described`).
-/

set_option autoImplicit false
set_option relaxedAutoImplicit false

namespace HelpSheet.Settings

open Sgr (IsRoleName IsColorName)

/-! ### The shape -/

/-- Whether a name is, apart from blanks around it and its letter case, one of a format. -/
def IsFormatName (name : String) : Prop :=
  Text.lowered (Text.trimmed name) ∈ Format.supportedNames

def IsTruth (setting : Setting) : Prop := ∃ value, setting = .truth value

def IsText (setting : Setting) : Prop := ∃ content, setting = .text content

def IsTable (setting : Setting) : Prop := ∃ entries, setting = .table entries

def IsFormat (setting : Setting) : Prop := ∃ name, setting = .text name ∧ IsFormatName name

/-- The entries that give names of colors to names of roles. -/
def colorEntries (names : List (String × String)) : Table :=
  names.map fun assignment ↦ (assignment.1, .text assignment.2)

/-- A table of texts only, whose keys name roles and whose texts are empty or name colors. -/
def IsColorTable (setting : Setting) : Prop :=
  ∃ names, setting = .table (colorEntries names) ∧
    ∀ assignment ∈ names, IsRoleName assignment.1 ∧ IsColorName assignment.2

/-- A value may be left out; otherwise it has a shape. -/
def AbsentOr (shape : Setting → Prop) (setting : Setting) : Prop :=
  setting = .absent ∨ shape setting

/-- The shape of the tables that make settings. -/
structure IsSettingsTable (table : Table) : Prop where
  format : AbsentOr IsFormat (entry table formatKey)
  color : AbsentOr IsTruth (entry table colorKey)
  base : AbsentOr IsText (entry table baseKey)
  colors : AbsentOr IsColorTable (entry table colorsKey)

/-! ### The content -/

/-- The names of formats with the formats that they stand for. -/
def namedFormats : List (String × Format) :=
  Format.all.map (fun format ↦ (format.name, format)) ++ Format.shortNames

def MeansFormat (setting : Setting) (format : Format) : Prop :=
  ∃ name, setting = .text name ∧ (Text.lowered (Text.trimmed name), format) ∈ namedFormats

def MeansTruth (setting : Setting) (value : Bool) : Prop := setting = .truth value

/-- A relative path goes on from the directory of the file with the table, if there is one. -/
def MeansBase (file : Option Path) (setting : Setting) (base : Path) : Prop :=
  ∃ content, setting = .text content ∧
    (((Path.ofString content).isAbsolute = true ∨ file = none) ∧ base = .ofString content ∨
      ∃ path, (Path.ofString content).isAbsolute = false ∧ file = some path ∧
        base.anchor = path.anchor ∧
        base.parts = path.parts.dropLast ++ (Path.ofString content).parts)

/-- Each role has the color that is given to it last, or else the built-in one. -/
def MeansScheme (setting : Setting) (scheme : Sgr.Scheme) : Prop :=
  ∃ names, setting = .table (colorEntries names) ∧ Sgr.Scheme.Recolors .ansi names scheme

/-- A value that is left out chooses nothing. -/
def MeansChoice {α : Type} (means : Setting → α → Prop) (setting : Setting) : Option α → Prop
  | none => setting = .absent
  | some value => means setting value

/-- What a table says of settings. -/
structure DescribesSettings (path : Option Path) (table : Table) (settings : Settings) : Prop where
  path_eq : settings.path = path
  format : MeansChoice MeansFormat (entry table formatKey) settings.format
  color : MeansChoice MeansTruth (entry table colorKey) settings.color
  base : MeansChoice (MeansBase path) (entry table baseKey) settings.base
  scheme : MeansChoice MeansScheme (entry table colorsKey) settings.scheme

/-! ### Faults -/

/-- The key whose value a fault is about. -/
def Fault.key : Fault → String
  | formatKind => formatKey
  | unknownFormat _ => formatKey
  | colorKind => colorKey
  | baseKind => baseKey
  | colorsKind => colorsKey
  | colorNameKind _ => colorsKey
  | scheme _ => colorsKey

/-- What a fault says of the value that it is about. -/
def Fault.Blames (setting : Setting) : Fault → Prop
  | formatKind => ¬ AbsentOr IsText setting
  | unknownFormat name => setting = .text name ∧ ¬ IsFormatName name
  | colorKind => ¬ AbsentOr IsTruth setting
  | baseKind => ¬ AbsentOr IsText setting
  | colorsKind => ¬ AbsentOr IsTable setting
  | colorNameKind role => ∃ entries value, setting = .table entries ∧ (role, value) ∈ entries ∧
      ¬ IsText value
  | scheme error => ∃ names, setting = .table (colorEntries names) ∧ error.IsFoundIn names

/-- What a fault says is so in a table. -/
def Fault.IsFoundIn (table : Table) (fault : Fault) : Prop :=
  fault.Blames (entry table fault.key)

/-! ### The value of one key -/

/-- How reading the value of a key ends: with the choice that a value of the proper shape means, or
with a fault of any other value. -/
def Answers {α : Type} (key : String) (shape : Setting → Prop) (means : Setting → α → Prop)
    (setting : Setting) : Except Fault (Option α) → Prop
  | .ok choice => AbsentOr shape setting ∧ MeansChoice means setting choice
  | .error fault => ¬ AbsentOr shape setting ∧ fault.key = key ∧ fault.Blames setting

theorem not_absentOr {shape : Setting → Prop} {setting : Setting} (habsent : setting ≠ .absent)
    (hshape : ¬ shape setting) : ¬ AbsentOr shape setting :=
  not_or.mpr ⟨habsent, hshape⟩

theorem answers_absent {α : Type} (key : String) (shape : Setting → Prop)
    (means : Setting → α → Prop) : Answers key shape means .absent (.ok none) :=
  ⟨.inl rfl, rfl⟩

theorem lookup_map_name (formats : List Format) (key : String) :
    (formats.map fun format ↦ (format.name, format)).lookup key =
      formats.find? fun format ↦ format.name = key := by
  induction formats with
  | nil => rfl
  | cons format formats ih =>
    rw [List.map_cons, List.lookup_cons, List.find?_cons, ih]
    by_cases hname : format.name = key
    · rw [hname, beq_self_eq_true, decide_eq_true rfl]
    · have hkey : (key == format.name) = false := beq_eq_false_iff_ne.mpr (Ne.symm hname)
      rw [hkey, decide_eq_false hname]

theorem ofName?_eq_lookup (name : String) :
    Format.ofName? name = namedFormats.lookup (Text.lowered (Text.trimmed name)) := by
  unfold Format.ofName?
  generalize Text.lowered (Text.trimmed name) = key
  rw [namedFormats, List.lookup_append, lookup_map_name]
  exact Option.orElse_eq_or

theorem supportedNames_eq : Format.supportedNames = namedFormats.map Prod.fst := by
  rw [Format.supportedNames, namedFormats, List.map_append, List.map_map]
  rfl

theorem isFormatName_iff {name : String} :
    IsFormatName name ↔ ∃ format, (Text.lowered (Text.trimmed name), format) ∈ namedFormats := by
  rw [IsFormatName, supportedNames_eq, List.mem_map]
  exact ⟨fun ⟨⟨_, format⟩, hformat, hname⟩ ↦ ⟨format, hname ▸ hformat⟩,
    fun ⟨_, hformat⟩ ↦ ⟨_, hformat, rfl⟩⟩

theorem mem_namedFormats_of_ofName? {name : String} {format : Format}
    (hformat : Format.ofName? name = some format) :
    (Text.lowered (Text.trimmed name), format) ∈ namedFormats := by
  rw [ofName?_eq_lookup, List.lookup_eq_some_iff] at hformat
  obtain ⟨front, back, hformats, -⟩ := hformat
  rw [hformats]
  exact List.mem_append_right _ List.mem_cons_self

theorem not_isFormatName_of_ofName? {name : String} (hformat : Format.ofName? name = none) :
    ¬ IsFormatName name := by
  rw [isFormatName_iff]
  rintro ⟨format, hmem⟩
  rw [ofName?_eq_lookup] at hformat
  exact bne_iff_ne.mp (List.lookup_eq_none_iff.mp hformat _ hmem) rfl

/-- A value of the wrong kind has no shape that goes with the right kind. -/
theorem answers_error_of_kind {α : Type} {key : String} {kind shape : Setting → Prop}
    {means : Setting → α → Prop} {setting : Setting} {fault : Fault}
    (hshape : ∀ setting, shape setting → kind setting) (hkey : fault.key = key)
    (hblames : ¬ AbsentOr kind setting → fault.Blames setting) (habsent : setting ≠ .absent)
    (hkind : ¬ kind setting) : Answers key shape means setting (.error fault) :=
  ⟨not_absentOr habsent (mt (hshape setting) hkind), hkey, hblames (not_absentOr habsent hkind)⟩

theorem answers_readFormat (setting : Setting) :
    Answers formatKey IsFormat MeansFormat setting (readFormat setting) := by
  have answers_kind {setting : Setting} (habsent : setting ≠ .absent) (htext : ¬ IsText setting) :
      Answers formatKey IsFormat MeansFormat setting (.error .formatKind) :=
    answers_error_of_kind (fun _ ⟨name, hname, _⟩ ↦ ⟨name, hname⟩) rfl id habsent htext
  cases setting with
  | absent => exact answers_absent ..
  | text name =>
    rw [readFormat]
    cases hformat : Format.ofName? name with
    | none =>
      have hname := not_isFormatName_of_ofName? hformat
      refine ⟨not_absentOr nofun ?_, rfl, rfl, hname⟩
      rintro ⟨_, ⟨⟩, hother⟩
      exact hname hother
    | some format =>
      have hmem := mem_namedFormats_of_ofName? hformat
      exact ⟨.inr ⟨name, rfl, isFormatName_iff.mpr ⟨format, hmem⟩⟩, name, rfl, hmem⟩
  | truth _ | table _ | other => exact answers_kind nofun (not_exists.mpr nofun)

theorem answers_readColor (setting : Setting) :
    Answers colorKey IsTruth MeansTruth setting (readColor setting) := by
  have answers_kind {setting : Setting} (habsent : setting ≠ .absent) (htruth : ¬ IsTruth setting) :
      Answers colorKey IsTruth MeansTruth setting (.error .colorKind) :=
    answers_error_of_kind (fun _ ↦ id) rfl id habsent htruth
  cases setting with
  | absent => exact answers_absent ..
  | truth value => exact ⟨.inr ⟨value, rfl⟩, rfl⟩
  | text _ | table _ | other => exact answers_kind nofun (not_exists.mpr nofun)

theorem meansBase_fromDirectoryOf (file : Option Path) (content : String) :
    MeansBase file (.text content) (fromDirectoryOf file (.ofString content)) := by
  refine ⟨content, rfl, ?_⟩
  cases file with
  | none => exact .inl ⟨.inr rfl, rfl⟩
  | some path =>
    rw [fromDirectoryOf, Path.join]
    cases habsolute : (Path.ofString content).isAbsolute with
    | true => exact .inl ⟨.inl rfl, rfl⟩
    | false => exact .inr ⟨path, rfl, rfl, rfl, rfl⟩

theorem answers_readBase (file : Option Path) (setting : Setting) :
    Answers baseKey IsText (MeansBase file) setting (readBase file setting) := by
  have answers_kind {setting : Setting} (habsent : setting ≠ .absent) (htext : ¬ IsText setting) :
      Answers baseKey IsText (MeansBase file) setting (.error .baseKind) :=
    answers_error_of_kind (fun _ ↦ id) rfl id habsent htext
  cases setting with
  | absent => exact answers_absent ..
  | text content => exact ⟨.inr ⟨content, rfl⟩, meansBase_fromDirectoryOf file content⟩
  | truth _ | table _ | other => exact answers_kind nofun (not_exists.mpr nofun)

theorem colorEntries_injective {names others : List (String × String)}
    (hentries : colorEntries names = colorEntries others) : names = others := by
  refine (List.map_inj_right ?_).mp hentries
  rintro ⟨role, color⟩ ⟨other, shade⟩ ⟨⟩
  rfl

theorem isText_of_mem_colorEntries {names : List (String × String)} {role : String}
    {value : Setting} (hmem : (role, value) ∈ colorEntries names) : IsText value := by
  obtain ⟨assignment, -, hassignment⟩ := List.mem_map.mp hmem
  cases hassignment
  exact ⟨assignment.2, rfl⟩

/-- How reading the colors of roles ends: with the names in a table of texts, or with the role of a
value that is no text. -/
theorem readColorNames_spec (entries : Table) :
    match readColorNames entries with
    | .ok names => entries = colorEntries names
    | .error fault => ∃ role value, fault = .colorNameKind role ∧ (role, value) ∈ entries ∧
        ¬ IsText value := by
  fun_induction readColorNames entries with
  | case1 => rfl
  | case2 role name rest ih =>
    cases hrest : readColorNames rest with
    | ok names =>
      rw [hrest] at ih
      exact congrArg (List.cons (role, .text name)) ih
    | error fault =>
      rw [hrest] at ih
      obtain ⟨other, value, hfault, hmem, htext⟩ := ih
      exact ⟨other, value, hfault, List.mem_cons_of_mem _ hmem, htext⟩
  | case3 role value rest htext =>
    exact ⟨role, value, rfl, List.mem_cons_self, fun ⟨name, hname⟩ ↦ htext name hname⟩

theorem readScheme_table {entries : Table} {names : List (String × String)}
    (hread : readColorNames entries = .ok names) :
    readScheme (.table entries) =
      ((Sgr.Scheme.ansi.recolorAll names).mapError Fault.scheme).map some := by
  rw [readScheme, hread]
  change ((Sgr.Scheme.ansi.recolorAll names).mapError Fault.scheme).bind (.ok ∘ some) = _
  cases Sgr.Scheme.ansi.recolorAll names <;> rfl

theorem answers_readScheme (setting : Setting) :
    Answers colorsKey IsColorTable MeansScheme setting (readScheme setting) := by
  have answers_kind {setting : Setting} (habsent : setting ≠ .absent) (htable : ¬ IsTable setting) :
      Answers colorsKey IsColorTable MeansScheme setting (.error .colorsKind) :=
    answers_error_of_kind (fun _ ⟨_, hnames, _⟩ ↦ ⟨_, hnames⟩) rfl id habsent htable
  cases setting with
  | absent => exact answers_absent ..
  | table entries =>
    have hread := readColorNames_spec entries
    cases hentries : readColorNames entries with
    | error fault =>
      rw [hentries] at hread
      rw [readScheme, hentries]
      obtain ⟨role, value, rfl, hmem, htext⟩ := hread
      refine ⟨not_absentOr nofun ?_, rfl, entries, value, rfl, hmem, htext⟩
      -- No table of texts holds this value, whatever the names of its roles and colors.
      rintro ⟨names, ⟨⟩, -⟩
      exact htext (isText_of_mem_colorEntries hmem)
    | ok names =>
      rw [hentries] at hread
      rw [readScheme_table hentries]
      subst hread
      cases hscheme : Sgr.Scheme.ansi.recolorAll names with
      | error error =>
        have hnone : ¬ IsColorTable (.table (colorEntries names)) := by
          rintro ⟨others, hothers, hnames⟩
          rw [← colorEntries_injective (Setting.table.inj hothers)] at hnames
          obtain ⟨scheme, hsome⟩ := Sgr.Scheme.exists_recolorAll_iff.mpr hnames
          rw [hscheme] at hsome
          cases hsome
        refine ⟨not_absentOr nofun hnone, rfl, names, rfl, ?_⟩
        exact Sgr.Scheme.isFoundIn_of_recolorAll hscheme
      | ok scheme =>
        have hnames := Sgr.Scheme.exists_recolorAll_iff.mp ⟨scheme, hscheme⟩
        exact ⟨.inr ⟨names, rfl, hnames⟩, names, rfl, Sgr.Scheme.recolors_of_recolorAll hscheme⟩
  | text _ | truth _ | other => exact answers_kind nofun (not_exists.mpr nofun)

/-! ### The whole table -/

theorem Answers.isFoundIn {α : Type} {table : Table} {key : String} {shape : Setting → Prop}
    {means : Setting → α → Prop} {fault : Fault}
    (hanswers : Answers key shape means (entry table key) (.error fault)) :
    fault.IsFoundIn table := by
  obtain ⟨-, rfl, hblames⟩ := hanswers
  exact hblames

/-- The values are read one after the other, so the first one of the wrong shape decides. -/
theorem readTable_spec (path : Option Path) (table : Table) :
    match readTable path table with
    | .ok settings => IsSettingsTable table ∧ DescribesSettings path table settings
    | .error fault => ¬ IsSettingsTable table ∧ fault.IsFoundIn table := by
  rw [readTable]
  have hformat := answers_readFormat (entry table formatKey)
  cases hreadFormat : readFormat (entry table formatKey) with
  | error fault =>
    rw [hreadFormat] at hformat
    exact ⟨fun htable ↦ hformat.1 htable.format, hformat.isFoundIn⟩
  | ok format =>
  rw [hreadFormat] at hformat
  have hcolor := answers_readColor (entry table colorKey)
  cases hreadColor : readColor (entry table colorKey) with
  | error fault =>
    rw [hreadColor] at hcolor
    exact ⟨fun htable ↦ hcolor.1 htable.color, hcolor.isFoundIn⟩
  | ok color =>
  rw [hreadColor] at hcolor
  have hbase := answers_readBase path (entry table baseKey)
  cases hreadBase : readBase path (entry table baseKey) with
  | error fault =>
    rw [hreadBase] at hbase
    exact ⟨fun htable ↦ hbase.1 htable.base, hbase.isFoundIn⟩
  | ok base =>
  rw [hreadBase] at hbase
  have hscheme := answers_readScheme (entry table colorsKey)
  cases hreadScheme : readScheme (entry table colorsKey) with
  | error fault =>
    rw [hreadScheme] at hscheme
    exact ⟨fun htable ↦ hscheme.1 htable.colors, hscheme.isFoundIn⟩
  | ok scheme =>
  rw [hreadScheme] at hscheme
  exact ⟨⟨hformat.1, hcolor.1, hbase.1, hscheme.1⟩,
    ⟨rfl, hformat.2, hcolor.2, hbase.2, hscheme.2⟩⟩

theorem outcome_ofTable (path : Option Path) (table : Table) :
    (ofTable path table).outcome = (readTable path table).mapError fun fault ↦ ⟨path, fault⟩ := by
  rfl

/-- Whatever colors a table chooses, pages are painted with sequences around texts, and only so. -/
theorem isGraphic_pageOptions {path : Option Path} {table : Table} {settings : Settings}
    (hsettings : (ofTable path table).outcome = .ok settings) (useColor : Bool)
    (base : Option Path) : (settings.pageOptions useColor base).resolvedScheme.IsGraphic := by
  have hread := readTable_spec path table
  rw [outcome_ofTable, mapError_eq_ok_iff] at hsettings
  rw [hsettings] at hread
  have hmeans := hread.2.scheme
  rw [pageOptions, Page.Options.resolvedScheme]
  cases useColor with
  | false => exact .standard false
  | true =>
    cases hscheme : settings.scheme with
    | none => exact .standard true
    | some scheme =>
      rw [hscheme] at hmeans
      obtain ⟨names, -, hrecolors⟩ := hmeans
      exact hrecolors.isGraphic .ansi

/-! ### Keys without a meaning -/

/-- The entries of a table that have a meaning. -/
def knownEntries (table : Table) : Table :=
  table.filter fun entry ↦ knownKeys.contains entry.1

theorem entry_knownEntries (table : Table) {key : String} (hkey : key ∈ knownKeys) :
    entry (knownEntries table) key = entry table key := by
  unfold entry
  congr 1
  induction table with
  | nil => rfl
  | cons first rest ih =>
    rw [knownEntries, List.filter_cons, List.lookup_cons]
    by_cases hfirst : key = first.1
    · subst hfirst
      rw [if_pos (List.contains_iff_mem.mpr hkey), List.lookup_cons, beq_self_eq_true]
    · have hbeq : (key == first.1) = false := beq_eq_false_iff_ne.mpr hfirst
      rw [hbeq]
      split
      · rw [List.lookup_cons, hbeq]
        exact ih
      · exact ih

theorem readTable_knownEntries (path : Option Path) (table : Table) :
    readTable path (knownEntries table) = readTable path table := by
  have hknown : ∀ key ∈ knownKeys, entry (knownEntries table) key = entry table key :=
    fun _ ↦ entry_knownEntries table
  simp only [knownKeys, List.forall_mem_cons] at hknown
  obtain ⟨hformat, hcolor, hbase, hcolors, -⟩ := hknown
  rw [readTable, hformat, hcolor, hbase, hcolors, readTable]

/-- A table makes settings exactly where it has their shape, and then the settings are what it says.
Any other table ends with an error that starts with the place of the table and tells what is wrong
in it. Entries without a meaning have no say in either. -/
theorem tables_read_as_described (path : Option Path) (table : Table) :
    ((∃ settings, (ofTable path table).outcome = .ok settings) ↔ IsSettingsTable table) ∧
    (match (ofTable path table).outcome with
      | .ok settings => DescribesSettings path table settings
      | .error error => (∃ reason, error.message = placeName path ++ ": " ++ reason) ∧
          error.fault.IsFoundIn table) ∧
    (ofTable path (knownEntries table)).outcome = (ofTable path table).outcome := by
  have hread := readTable_spec path table
  simp only [outcome_ofTable, readTable_knownEntries, and_true]
  cases htable : readTable path table with
  | ok settings =>
    rw [htable] at hread
    exact ⟨iff_of_true ⟨settings, rfl⟩ hread.1, hread.2⟩
  | error fault =>
    rw [htable] at hread
    refine ⟨iff_of_false ?_ hread.1, ⟨fault.message, rfl⟩, hread.2⟩
    rintro ⟨settings, hsettings⟩
    cases hsettings

end HelpSheet.Settings
