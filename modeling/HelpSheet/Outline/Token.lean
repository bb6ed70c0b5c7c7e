import HelpSheet.Outline.Item
import HelpSheet.Text.Numeral

/-!
# Records of items

An item is kept as a record of one shape for all kinds, whose fields are there or not (`Token`). A
record is made at once with all its texts, so there is none of an item that names a line whose
number is too long to be written (`Item.token`). Whoever writes a record has to find in it what its
kind needs (`Token.item?`).
-/

set_option autoImplicit false
set_option relaxedAutoImplicit false

namespace HelpSheet

/-! ### Kinds -/

/-- What an item stands for. -/
inductive Item.Kind
  | usage
  | descriptionStart
  | descriptionLine
  | descriptionEnd
  | includedStart
  | includedFile
  | includedFileLine
  | includedFileEnd
  | includedEnd
  | targetsStart
  | categoryStart
  | categoryHeader
  | targetListStart
  | target
  | targetListEnd
  | categoryEnd
  | targetsEnd
  | title
  | aliases
  | variablesStart
  | variableEntry
  | variablesEnd
  | separator
  | documentationStart
  | documentationLine
  | documentationEnd
  | noDocumentation
  | source
  deriving DecidableEq, Repr

def Item.kind : Item → Item.Kind
  | .usage _ => .usage
  | .descriptionStart _ => .descriptionStart
  | .descriptionLine _ => .descriptionLine
  | .descriptionEnd => .descriptionEnd
  | .includedStart => .includedStart
  | .includedFile _ => .includedFile
  | .includedFileLine _ => .includedFileLine
  | .includedFileEnd _ => .includedFileEnd
  | .includedEnd => .includedEnd
  | .targetsStart => .targetsStart
  | .categoryStart _ => .categoryStart
  | .categoryHeader _ => .categoryHeader
  | .targetListStart => .targetListStart
  | .target _ => .target
  | .targetListEnd => .targetListEnd
  | .categoryEnd _ => .categoryEnd
  | .targetsEnd => .targetsEnd
  | .title _ _ => .title
  | .aliases _ => .aliases
  | .variablesStart => .variablesStart
  | .variableEntry _ => .variableEntry
  | .variablesEnd => .variablesEnd
  | .separator => .separator
  | .documentationStart => .documentationStart
  | .documentationLine _ => .documentationLine
  | .documentationEnd => .documentationEnd
  | .noDocumentation _ => .noDocumentation
  | .source _ _ => .source

/-! ### Records -/

/-- An item as a record. -/
structure Token where
  kind : Item.Kind
  text : String := ""
  names : List String := []
  target : Option Target := none
  entry : Option Variable := none
  path : String := ""
  line : Int := 0
  deriving DecidableEq, Repr

/-- The record of an item, with the text of the place that it names. -/
def Item.tokenAt (place : String) : Item → Token
  | .usage line => { kind := .usage, text := line }
  | .descriptionStart file => { kind := .descriptionStart, text := file }
  | .descriptionLine line => { kind := .descriptionLine, text := line }
  | .descriptionEnd => { kind := .descriptionEnd }
  | .includedStart => { kind := .includedStart }
  | .includedFile path => { kind := .includedFile, text := path }
  | .includedFileLine line => { kind := .includedFileLine, text := line }
  | .includedFileEnd path => { kind := .includedFileEnd, text := path }
  | .includedEnd => { kind := .includedEnd }
  | .targetsStart => { kind := .targetsStart }
  | .categoryStart name => { kind := .categoryStart, text := name }
  | .categoryHeader name => { kind := .categoryHeader, text := name }
  | .targetListStart => { kind := .targetListStart }
  | .target shown =>
    { kind := .target, text := shown.name, names := shown.aliases, target := shown }
  | .targetListEnd => { kind := .targetListEnd }
  | .categoryEnd name => { kind := .categoryEnd, text := name }
  | .targetsEnd => { kind := .targetsEnd }
  | .title name shown => { kind := .title, text := name, target := shown }
  | .aliases names => { kind := .aliases, names := names }
  | .variablesStart => { kind := .variablesStart }
  | .variableEntry entry => { kind := .variableEntry, text := entry.name, entry := entry }
  | .variablesEnd => { kind := .variablesEnd }
  | .separator => { kind := .separator }
  | .documentationStart => { kind := .documentationStart }
  | .documentationLine line => { kind := .documentationLine, text := line }
  | .documentationEnd => { kind := .documentationEnd }
  | .noDocumentation notice => { kind := .noDocumentation, text := notice }
  | .source path line => { kind := .source, text := place, path := path, line := line }

/-- The place that an item names, unless the number of its line is too long to be written. -/
def Item.placeText? : Item → Except Text.Numeral.TooGreat String
  | .source path line =>
    (Text.Numeral.written? line).map fun number ↦ path ++ ":" ++ number
  | _ => .ok ""

/-- The record of an item, unless the number of its line is too long to be written. -/
def Item.token (item : Item) : Except Text.Numeral.TooGreat Token :=
  item.placeText?.map fun place ↦ item.tokenAt place

/-- The records of an outline, made one after the other. -/
def Outline.tokens (outline : Outline) : Except Text.Numeral.TooGreat (List Token) :=
  outline.mapM Item.token

/-- The item of a record; none where a record has not got what its kind needs. -/
def Token.item? (token : Token) : Option Item :=
  match token.kind with
  | .usage => some (.usage token.text)
  | .descriptionStart => some (.descriptionStart token.text)
  | .descriptionLine => some (.descriptionLine token.text)
  | .descriptionEnd => some .descriptionEnd
  | .includedStart => some .includedStart
  | .includedFile => some (.includedFile token.text)
  | .includedFileLine => some (.includedFileLine token.text)
  | .includedFileEnd => some (.includedFileEnd token.text)
  | .includedEnd => some .includedEnd
  | .targetsStart => some .targetsStart
  | .categoryStart => some (.categoryStart token.text)
  | .categoryHeader => some (.categoryHeader token.text)
  | .targetListStart => some .targetListStart
  | .target => token.target.map .target
  | .targetListEnd => some .targetListEnd
  | .categoryEnd => some (.categoryEnd token.text)
  | .targetsEnd => some .targetsEnd
  | .title => some (.title token.text token.target)
  | .aliases => some (.aliases token.names)
  | .variablesStart => some .variablesStart
  | .variableEntry => token.entry.map .variableEntry
  | .variablesEnd => some .variablesEnd
  | .separator => some .separator
  | .documentationStart => some .documentationStart
  | .documentationLine => some (.documentationLine token.text)
  | .documentationEnd => some .documentationEnd
  | .noDocumentation => some (.noDocumentation token.text)
  | .source => some (.source token.path token.line)

theorem Item.kind_tokenAt (item : Item) (place : String) :
    (item.tokenAt place).kind = item.kind := by
  cases item <;> rfl

theorem Token.item?_tokenAt (item : Item) (place : String) :
    (item.tokenAt place).item? = some item := by
  cases item <;> rfl

end HelpSheet
