/-!
# Notes

What the program records about its work, apart from its results: notes with a level, the part of the
program that took them and the line of its text where it did so.
-/

set_option autoImplicit false
set_option relaxedAutoImplicit false

namespace HelpSheet.Log

/-- A level of importance; the higher, the more important. -/
abbrev Level := Int

namespace Level

def trace : Level := 5
def debug : Level := 10
def info : Level := 20
def warning : Level := 30
def error : Level := 40
def critical : Level := 50

/-- The name of a level; levels between the named ones are numbered. -/
def name (level : Level) : String :=
  if level = trace then "TRACE"
  else if level = debug then "DEBUG"
  else if level = info then "INFO"
  else if level = warning then "WARNING"
  else if level = error then "ERROR"
  else if level = critical then "CRITICAL"
  else if level = 0 then "NOTSET"
  else "Level " ++ toString level

end Level

/-- The parts of the program that take notes. -/
inductive Channel
  | markup
  | model
  | outline
  | page
  | html
  | markdown
  | format
  | settings
  | color
  | makefile
  | renderCommand
  | makefileCommand
  | program
  deriving DecidableEq, Repr

/-- The name that log lines give to a part of the program. -/
def Channel.name : Channel → String
  | .markup => "makehelp.richtext.parser"
  | .model => "makehelp.model.io"
  | .outline => "makehelp.rendering.tokens"
  | .page => "makehelp.rendering.base"
  | .html => "makehelp.rendering.html"
  | .markdown => "makehelp.rendering.markdown"
  | .format => "makehelp.rendering.factory"
  | .settings => "makehelp.config.io"
  | .color => "makehelp.cli.color"
  | .makefile => "makehelp.helpfile"
  | .renderCommand => "makehelp.cli.commands.render"
  | .makefileCommand => "makehelp.cli.commands.helpfile"
  | .program => "makehelp.cli.main"

/-- One note. -/
structure Note where
  level : Level
  channel : Channel
  line : Nat
  message : String
  deriving DecidableEq, Repr

end HelpSheet.Log
