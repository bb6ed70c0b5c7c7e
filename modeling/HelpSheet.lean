import HelpSheet.Command.Arguments
import HelpSheet.Command.Helpfile
import HelpSheet.Command.Invocation
import HelpSheet.Command.Manual
import HelpSheet.Command.Outcome
import HelpSheet.Command.Program
import HelpSheet.Command.Render
import HelpSheet.Decimal.Double
import HelpSheet.Decimal.Figures
import HelpSheet.Decimal.Notation
import HelpSheet.Environment
import HelpSheet.Escape.Markdown
import HelpSheet.Escape.Recipe
import HelpSheet.Escape.Web
import HelpSheet.Files.Tree
import HelpSheet.Json.Number
import HelpSheet.Json.Reader
import HelpSheet.Json.Value
import HelpSheet.Json.Writer
import HelpSheet.Log.Level
import HelpSheet.Log.Note
import HelpSheet.Log.Session
import HelpSheet.Log.Template
import HelpSheet.Log.Traced
import HelpSheet.Main
import HelpSheet.Makefile.Generate
import HelpSheet.Markup.Glyph
import HelpSheet.Markup.Parse
import HelpSheet.Markup.Segment
import HelpSheet.Markup.Summary
import HelpSheet.Model.Basic
import HelpSheet.Model.Load
import HelpSheet.Model.Shape
import HelpSheet.Outline.Assemble
import HelpSheet.Outline.Item
import HelpSheet.Page.Chunk
import HelpSheet.Page.Delivery
import HelpSheet.Page.Format
import HelpSheet.Page.Html
import HelpSheet.Page.Html.Piece
import HelpSheet.Page.Json
import HelpSheet.Page.Markdown
import HelpSheet.Page.Options
import HelpSheet.Page.Renderer
import HelpSheet.Page.Text
import HelpSheet.Page.View
import HelpSheet.Path.Basic
import HelpSheet.Path.Relative
import HelpSheet.Problem
import HelpSheet.Proofs.Command.Arguments
import HelpSheet.Proofs.Command.Effects
import HelpSheet.Proofs.Command.FileFaults
import HelpSheet.Proofs.Command.HelpfileArguments
import HelpSheet.Proofs.Command.HelpfileOutcome
import HelpSheet.Proofs.Command.InputFiles
import HelpSheet.Proofs.Command.Regeneration
import HelpSheet.Proofs.Command.Update
import HelpSheet.Proofs.Command.UpdateRecipe
import HelpSheet.Proofs.Command.WrittenFiles
import HelpSheet.Proofs.Files.Walking
import HelpSheet.Proofs.Html.Document
import HelpSheet.Proofs.Html.Escaping
import HelpSheet.Proofs.Html.Nesting
import HelpSheet.Proofs.Html.Reading
import HelpSheet.Proofs.Json.Limits
import HelpSheet.Proofs.Json.Numerals
import HelpSheet.Proofs.Json.RoundTrip
import HelpSheet.Proofs.Json.Strings
import HelpSheet.Proofs.Log.Levels
import HelpSheet.Proofs.Makefile.CategoryFlag
import HelpSheet.Proofs.Makefile.Entries
import HelpSheet.Proofs.Makefile.Lines
import HelpSheet.Proofs.Markdown.CodeSpans
import HelpSheet.Proofs.Markdown.Fences
import HelpSheet.Proofs.Markdown.Links
import HelpSheet.Proofs.Markdown.Names
import HelpSheet.Proofs.Markdown.Reading
import HelpSheet.Proofs.Markup.ColoredLines
import HelpSheet.Proofs.Markup.ColoredSummaries
import HelpSheet.Proofs.Markup.Glyphs
import HelpSheet.Proofs.Markup.Inert
import HelpSheet.Proofs.Markup.Merging
import HelpSheet.Proofs.Markup.RoundTrip
import HelpSheet.Proofs.Markup.Sentence
import HelpSheet.Proofs.Markup.Slices
import HelpSheet.Proofs.Markup.VisibleText
import HelpSheet.Proofs.Model.Documents
import HelpSheet.Proofs.Model.FileDocs
import HelpSheet.Proofs.Model.Loading
import HelpSheet.Proofs.Model.Reading
import HelpSheet.Proofs.Outline.Contents
import HelpSheet.Proofs.Outline.Coverage
import HelpSheet.Proofs.Outline.Grammar
import HelpSheet.Proofs.Outline.Relocation
import HelpSheet.Proofs.Page.Colors
import HelpSheet.Proofs.Page.Handlers
import HelpSheet.Proofs.Page.Json.Decoding
import HelpSheet.Proofs.Page.Json.Folding
import HelpSheet.Proofs.Page.Json.Help
import HelpSheet.Proofs.Page.Json.Loading
import HelpSheet.Proofs.Page.Json.Targets
import HelpSheet.Proofs.Page.Relocation
import HelpSheet.Proofs.Page.Streaming
import HelpSheet.Proofs.Page.Strings
import HelpSheet.Proofs.Page.Summaries
import HelpSheet.Proofs.Page.Truncation
import HelpSheet.Proofs.Path.Descent
import HelpSheet.Proofs.Path.Destination
import HelpSheet.Proofs.Path.Directory
import HelpSheet.Proofs.Path.Places
import HelpSheet.Proofs.Path.Resolution
import HelpSheet.Proofs.Path.Shortened
import HelpSheet.Proofs.Recipe.Arguments
import HelpSheet.Proofs.Recipe.Code
import HelpSheet.Proofs.Recipe.Escaping
import HelpSheet.Proofs.Recipe.Layout
import HelpSheet.Proofs.Recipe.Printing
import HelpSheet.Proofs.Recipe.Quoting
import HelpSheet.Proofs.Recipe.Words
import HelpSheet.Proofs.Settings.Tables
import HelpSheet.Proofs.Sgr.Painting
import HelpSheet.Proofs.Sgr.Recoloring
import HelpSheet.Proofs.Sgr.Sequences
import HelpSheet.Proofs.Text.Lacking
import HelpSheet.Proofs.Text.Splitting
import HelpSheet.Proofs.Text.Trimming
import HelpSheet.Proofs.Text.Utf8
import HelpSheet.Proofs.Url.Schemes
import HelpSheet.Settings.Basic
import HelpSheet.Settings.File
import HelpSheet.Sgr.Pen
import HelpSheet.Sgr.Scheme
import HelpSheet.Sgr.Strip
import HelpSheet.Sgr.Style
import HelpSheet.Terminal.Console
import HelpSheet.Text.Blank
import HelpSheet.Text.Character
import HelpSheet.Text.Numeral
import HelpSheet.Text.Printable
import HelpSheet.Text.Quoted
import HelpSheet.Text.Utf8
import HelpSheet.Time.Calendar
import HelpSheet.Time.Moment
import HelpSheet.Time.Reader
import HelpSheet.Toml.Assembly
import HelpSheet.Toml.Moment
import HelpSheet.Toml.Reader
import HelpSheet.Toml.Scalar
import HelpSheet.Toml.Section
import HelpSheet.Toml.Text
import HelpSheet.Toml.Value
