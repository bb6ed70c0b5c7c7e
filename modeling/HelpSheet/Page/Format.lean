import HelpSheet.Text.Blank
import HelpSheet.Text.Character
import HelpSheet.Text.Quoted

/-!
# Output formats

The five formats of help pages, their names and short names. A name is recognized in any letter case
and with blanks around it.
-/

set_option autoImplicit false
set_option relaxedAutoImplicit false

namespace HelpSheet

/-- The formats of help pages. -/
inductive Format
  | make | text | html | markdown | json
  deriving DecidableEq, Repr

namespace Format

def all : List Format :=
  [make, text, html, markdown, json]

def name : Format → String
  | make => "make"
  | text => "text"
  | html => "html"
  | markdown => "markdown"
  | json => "json"

/-- The short names and what they stand for. -/
def shortNames : List (String × Format) :=
  [("mk", make), ("txt", text), ("md", markdown)]

/-- The type of content of a page. -/
def contentType : Format → String
  | make => "text/x-makefile"
  | text => "text/plain"
  | html => "text/html"
  | markdown => "text/markdown"
  | json => "application/json"

/-- The extension of files that hold a page. -/
def extension : Format → String
  | make => ".mk"
  | text => ".txt"
  | html => ".html"
  | markdown => ".md"
  | json => ".json"

/-- Every name that is recognized, the short names last. -/
def supportedNames : List String :=
  all.map name ++ shortNames.map Prod.fst

/-- The short names of a format. -/
def shortNamesOf (format : Format) : List String :=
  (shortNames.filter fun entry ↦ entry.2 = format).map Prod.fst

/-- The format of a name. -/
def ofName? (name : String) : Option Format :=
  let key := Text.lowered (Text.trimmed name)
  (all.find? fun format ↦ format.name = key) <|> shortNames.lookup key

/-- The name of a format in capital letters. -/
def capitalName : Format → String
  | make => "MAKE"
  | text => "TEXT"
  | html => "HTML"
  | markdown => "MARKDOWN"
  | json => "JSON"

/-- A format as a choice among all formats, in the words of notes. -/
def memberWords (format : Format) : String :=
  "<OutputFormat." ++ format.capitalName ++ ": " ++ Text.quoted format.name ++ ">"

/-- What is said of a name that is not among the supported ones. -/
def unknownMessage (name : String) (supported : List String) : String :=
  "unknown format: " ++ Text.quoted name ++ " (supported: " ++
    String.intercalate ", " supported ++ ")"

end Format

end HelpSheet
