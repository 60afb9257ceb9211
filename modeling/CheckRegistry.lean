import CheckRegistry.Check.Basic
import CheckRegistry.Check.Field
import CheckRegistry.Check.Judgement
import CheckRegistry.Check.Record
import CheckRegistry.CommandLine.Grammar
import CheckRegistry.CommandLine.Invocation
import CheckRegistry.CommandLine.Run
import CheckRegistry.Config
import CheckRegistry.Declaration.Basic
import CheckRegistry.Declaration.File
import CheckRegistry.Example.Basic
import CheckRegistry.Example.Fixture
import CheckRegistry.Example.Provider
import CheckRegistry.FileTree
import CheckRegistry.Home
import CheckRegistry.Json
import CheckRegistry.Label
import CheckRegistry.Link
import CheckRegistry.Listing
import CheckRegistry.Log
import CheckRegistry.Main
import CheckRegistry.NameSet
import CheckRegistry.Number.Binary64
import CheckRegistry.Number.Numeral
import CheckRegistry.Number.Shortest
import CheckRegistry.Page.Basic
import CheckRegistry.Page.Catalog
import CheckRegistry.Proofs.Aggregation
import CheckRegistry.Proofs.Build
import CheckRegistry.Proofs.Catalog
import CheckRegistry.Proofs.Category
import CheckRegistry.Proofs.Collision
import CheckRegistry.Proofs.Declaration
import CheckRegistry.Proofs.Disabling
import CheckRegistry.Proofs.Example
import CheckRegistry.Proofs.Failures
import CheckRegistry.Proofs.FileListing
import CheckRegistry.Proofs.FileTree
import CheckRegistry.Proofs.Fixture
import CheckRegistry.Proofs.FixtureHistory
import CheckRegistry.Proofs.FrontMatter
import CheckRegistry.Proofs.Grammar
import CheckRegistry.Proofs.Hosting
import CheckRegistry.Proofs.Index
import CheckRegistry.Proofs.Interruption
import CheckRegistry.Proofs.Json
import CheckRegistry.Proofs.Link
import CheckRegistry.Proofs.Listing
import CheckRegistry.Proofs.Lists.Positions
import CheckRegistry.Proofs.Lists.Search
import CheckRegistry.Proofs.Lists.Selection
import CheckRegistry.Proofs.Loading
import CheckRegistry.Proofs.Lookup
import CheckRegistry.Proofs.Markup
import CheckRegistry.Proofs.Page
import CheckRegistry.Proofs.ParseFailure
import CheckRegistry.Proofs.Prepare
import CheckRegistry.Proofs.Reading
import CheckRegistry.Proofs.Record
import CheckRegistry.Proofs.Registry
import CheckRegistry.Proofs.Run
import CheckRegistry.Proofs.Scope
import CheckRegistry.Proofs.Snippet
import CheckRegistry.Proofs.Spelling
import CheckRegistry.Proofs.Strictness
import CheckRegistry.Proofs.Suppression
import CheckRegistry.Proofs.Tag
import CheckRegistry.Proofs.Tokens
import CheckRegistry.Proofs.Utf8
import CheckRegistry.Proofs.Warnings
import CheckRegistry.Proofs.Written
import CheckRegistry.Registry.Basic
import CheckRegistry.Registry.Build
import CheckRegistry.Registry.Collision
import CheckRegistry.Sexp.Basic
import CheckRegistry.Sexp.Reader
import CheckRegistry.Sexp.Token
import CheckRegistry.Suppression
import CheckRegistry.Tag
import CheckRegistry.Text.Blank
import CheckRegistry.Text.Digit
import CheckRegistry.Text.Hex
import CheckRegistry.Text.Letter
import CheckRegistry.Text.LineEnd
import CheckRegistry.Text.Markup
import CheckRegistry.Text.Printable
import CheckRegistry.Text.Quoted
import CheckRegistry.Text.Ranges
import CheckRegistry.Text.Utf8
import CheckRegistry.Value.Basic
import CheckRegistry.Value.Literal
import CheckRegistry.Violation
import CheckRegistry.Vocabulary.Basic
import CheckRegistry.Vocabulary.Words
