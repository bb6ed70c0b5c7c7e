import HelpSheet.Command.Invocation
import HelpSheet.Text.Blank

/-!
# The manual

The pages that describe the program and its commands. Terms stand in a first column that is as wide
as the longest of them; explanations stand two blanks to its right.
-/

set_option autoImplicit false
set_option relaxedAutoImplicit false

namespace HelpSheet.Command

/-- A term and the lines that explain it. -/
structure ManualEntry where
  term : String
  lines : List String

/-- A list of terms under a heading. -/
structure ManualSection where
  heading : String
  entries : List ManualEntry

/-- A page of the manual. -/
structure ManualPage where
  usage : String
  summary : String
  sections : List ManualSection

namespace ManualPage

/-- Blanks. -/
def blanks (count : Nat) : String :=
  String.ofList (List.replicate count ' ')

/-- The lines of an entry, for a first column of the given width. -/
def entryLines (width : Nat) (entry : ManualEntry) : List String :=
  match entry.lines with
  | [] => ["  " ++ entry.term]
  | first :: rest =>
    ("  " ++ entry.term ++ blanks (width - entry.term.length + 2) ++ first) ::
      rest.map (blanks (width + 4) ++ ·)

/-- The width of the first column. -/
def columnWidth (entries : List ManualEntry) : Nat :=
  (entries.map fun entry ↦ entry.term.length).foldl max 0

/-- The lines of a section, after an empty one. -/
def sectionLines (part : ManualSection) : List String :=
  ["", part.heading ++ ":"] ++ part.entries.flatMap (entryLines (columnWidth part.entries))

/-- The text of a page, without a line feed at its end. -/
def text (page : ManualPage) : String :=
  Text.joinWith "\n"
    (["Usage: cli " ++ page.usage, "", "  " ++ page.summary] ++ page.sections.flatMap sectionLines)

end ManualPage

/-- The entry on the option that every command has. -/
def helpEntry : ManualEntry :=
  ⟨"-h, --help", ["Show this message and exit."]⟩

/-- What a command does. -/
def CommandName.summary : CommandName → String
  | formats => "List supported output formats."
  | helpfile => "Generate an includable help makefile from a documentation model."
  | render => "Render a documentation model (JSON) as help output."
  | version => "Show the current version of MakeHelp."

/-- The entries on the options of a command. -/
def CommandName.optionEntries : CommandName → List ManualEntry
  | formats => []
  | helpfile =>
    [⟨"-o, --output FILE", ["Help makefile to write.  [default: help.mk]"]⟩,
     ⟨"--makefile TEXT",
      ["Documented makefile; 'make help' warns when it is",
       "newer than the help file. Repeatable."]⟩,
     ⟨"--help-category TEXT",
      ["Category of the generated help targets (used when the",
       "model is categorized).  [default: Help]"]⟩]
  | render =>
    [⟨"-f, --format TEXT",
      ["Output format: make, text, html, markdown, json (or", "mk, txt, md)."]⟩,
     ⟨"-t, --target TEXT",
      ["Render the view of a single target (name or alias)", "instead of the help view."]⟩,
     ⟨"--base-path DIRECTORY",
      ["Show absolute source paths relative to this", "directory."]⟩,
     ⟨"-o, --output FILE", ["Write to this file instead of stdout."]⟩]
  | version => [⟨"--json", ["Print the version as a JSON object."]⟩]

/-- How a command is called. -/
def CommandName.usage (command : CommandName) : String :=
  match command with
  | formats => command.name ++ " [OPTIONS]"
  | helpfile => command.name ++ " [OPTIONS] " ++ modelArgument
  | render => command.name ++ " [OPTIONS] " ++ modelArgument
  | version => command.name ++ " [OPTIONS]"

/-- The page on a command. -/
def CommandName.manualPage (command : CommandName) : ManualPage where
  usage := command.usage
  summary := command.summary
  sections := [⟨"Options", command.optionEntries ++ [helpEntry]⟩]

/-- The page on the program. -/
def programPage : ManualPage where
  usage := "[OPTIONS] [COMMAND] [ARGS]..."
  summary := "Render Makefile documentation as make recipes, text, HTML, Markdown or JSON."
  sections :=
    [⟨"Options",
      [⟨"--color [auto|always|never]", ["Color output: auto (default), always, or never."]⟩,
       ⟨"--no-color", ["Disable color output (equivalent to", "--color=never)."]⟩,
       ⟨"--config FILE",
        ["Configuration file (makehelp.toml or", "pyproject.toml). Discovered if omitted."]⟩,
       helpEntry]⟩,
     ⟨"Commands", CommandName.all.map fun command ↦ ⟨command.name, [command.summary]⟩⟩]

end HelpSheet.Command
