import CypherSql.CommandLine.Arguments
import CypherSql.CommandLine.Basic
import CypherSql.CommandLine.Report
import CypherSql.Compilation.Basic
import CypherSql.Compilation.Columns
import CypherSql.Compilation.Compiled
import CypherSql.Compilation.Error
import CypherSql.Compilation.Existence
import CypherSql.Compilation.Expression
import CypherSql.Compilation.Filter
import CypherSql.Compilation.Shape
import CypherSql.Condition
import CypherSql.Cypher.Parser.Expression
import CypherSql.Cypher.Parser.Lexeme
import CypherSql.Cypher.Parser.Outcome
import CypherSql.Cypher.Parser.Pattern
import CypherSql.Cypher.Parser.Query
import CypherSql.Cypher.Printer
import CypherSql.Cypher.Syntax
import CypherSql.Decimal.Binary64
import CypherSql.Decimal.Layout
import CypherSql.Decimal.Rounding
import CypherSql.Decimal.Shortest
import CypherSql.Folder
import CypherSql.Graph.Basic
import CypherSql.Graph.Error
import CypherSql.Graph.Slot
import CypherSql.Json
import CypherSql.Main
import CypherSql.Ordered
import CypherSql.Proofs.Compilation.Progress
import CypherSql.Proofs.Condition.Ways
import CypherSql.Proofs.Graph.Growth
import CypherSql.Proofs.Sql.Rows
import CypherSql.Proofs.Success
import CypherSql.Result.Row
import CypherSql.Result.Run
import CypherSql.Settings.Basic
import CypherSql.Settings.Dotenv
import CypherSql.Settings.Environment
import CypherSql.Settings.Error
import CypherSql.Settings.File
import CypherSql.Sql.Assembly
import CypherSql.Sql.Error
import CypherSql.Sql.Lexeme
import CypherSql.Sql.Selection
import CypherSql.Sql.Statement
import CypherSql.Text.Alphanumeric
import CypherSql.Text.Blank
import CypherSql.Text.Digits
import CypherSql.Text.Hidden
import CypherSql.Text.Identifier
import CypherSql.Text.Pieces
import CypherSql.Text.Quoted
import CypherSql.Text.Ranges
import CypherSql.Yaml.Block
import CypherSql.Yaml.Document
import CypherSql.Yaml.Glyph
import CypherSql.Yaml.Lexer
import CypherSql.Yaml.Node
import CypherSql.Yaml.Reader
import CypherSql.Yaml.Scalar
import CypherSql.Yaml.Token
import CypherSql.Proofs.Compilation.Hops
import CypherSql.Proofs.Compilation.Filter
import CypherSql.Proofs.Compilation.Enforcement
import CypherSql.Proofs.Sql.Assembled
import CypherSql.Proofs.Sql.Grouping
import CypherSql.Proofs.Sql.Names
import CypherSql.Proofs.Sql.Merging
import CypherSql.Proofs.Compilation.Results
import CypherSql.Proofs.Sql.Splitting
import CypherSql.Proofs.Sql.Database
import CypherSql.Proofs.Compilation.Matches
import CypherSql.Proofs.Cypher.Reading
import CypherSql.Proofs.Cypher.Words
import CypherSql.Proofs.Cypher.Canonical
import CypherSql.Proofs.Cypher.Patterns
import CypherSql.Proofs.Cypher.Endings
import CypherSql.Proofs.Cypher.Atoms
import CypherSql.Proofs.Cypher.Chains
import CypherSql.Proofs.Cypher.Expressions
import CypherSql.Proofs.Cypher.Queries
import CypherSql.Proofs.Sql.Phrases
import CypherSql.Proofs.Sql.Readings
import CypherSql.Proofs.Sql.Regrouping
import CypherSql.Proofs.Sql.Truth
import CypherSql.Proofs.Sql.Places
import CypherSql.Proofs.Cypher.Mentions
import CypherSql.Proofs.Compilation.Tests
import CypherSql.Proofs.Compilation.Writing
import CypherSql.Proofs.Compilation.Written
import CypherSql.Proofs.Compilation.Congruence
import CypherSql.Proofs.Compilation.Levels
import CypherSql.Proofs.Compilation.Operators
import CypherSql.Proofs.Compilation.Formulas
import CypherSql.Proofs.Compilation.Predicates
import CypherSql.Proofs.Compilation.Replacement
import CypherSql.Proofs.Compilation.Filling
import CypherSql.Proofs.Compilation.Aliases
import CypherSql.Proofs.Compilation.Columns
import CypherSql.Proofs.Graph.Calls
import CypherSql.Proofs.Compilation.Graphs
import CypherSql.Proofs.Sql.Outer
import CypherSql.Proofs.Sql.Dropping
import CypherSql.Proofs.Sql.DistinctCounts
import CypherSql.Proofs.Condition.Traces
import CypherSql.Proofs.Compilation.Ties
import CypherSql.Proofs.Compilation.Embeddings
import CypherSql.Proofs.Cypher.Ingredients
import CypherSql.Proofs.Cypher.Events
import CypherSql.Proofs.Graph.Within
import CypherSql.Proofs.Graph.Labels
import CypherSql.Proofs.Condition.Leaves
import CypherSql.Proofs.Sql.Branches
import CypherSql.Proofs.Compilation.Building
import CypherSql.Proofs.Compilation.Origins
import CypherSql.Proofs.Compilation.Runs
import CypherSql.Proofs.Compilation.Places
import CypherSql.Proofs.Compilation.Aggregates
import CypherSql.Proofs.Compilation.Correlations
import CypherSql.Proofs.Compilation.Labels
import CypherSql.Proofs.Compilation.Closed
import CypherSql.Proofs.Result.Partition
import CypherSql.Proofs.Result.Protocol
import CypherSql.Proofs.Condition.Clauses
import CypherSql.Proofs.Condition.Expansion
import CypherSql.Proofs.Sql.Filters
import CypherSql.Proofs.Sql.DistinctRows
import CypherSql.Proofs.Cypher.Renaming
import CypherSql.Proofs.Parallel
import CypherSql.Proofs.Graph.Renaming
import CypherSql.Proofs.Compilation.Renamed
import CypherSql.Proofs.Compilation.Couplings
import CypherSql.Proofs.Compilation.Following
import CypherSql.Proofs.Compilation.Renaming
import CypherSql.Proofs.Compilation.Gathering
import CypherSql.Proofs.Compilation.Orientation
import CypherSql.Proofs.Compilation.Testing
import CypherSql.Proofs.Compilation.Reports
import CypherSql.Proofs.Compilation.Scopes
import CypherSql.Proofs.Settings.Described
import CypherSql.Proofs.CommandLine.Lines
import CypherSql.Proofs.CommandLine.Tables
import CypherSql.Proofs.Graph.Answers
import CypherSql.Proofs.Compilation.Acceptance
import CypherSql.Proofs.Compilation.Variables
import CypherSql.Proofs.Compilation.Scalars
import CypherSql.Proofs.Sql.Like
import CypherSql.Proofs.Compilation.StringTests
import CypherSql.Proofs.Condition.Normal
import CypherSql.Proofs.Sql.Texts
import CypherSql.Proofs.Condition.Rereading
import CypherSql.Proofs.Cypher.Definitions
import CypherSql.Proofs.Compilation.Amounts
import CypherSql.Proofs.Compilation.Grouping
import CypherSql.Proofs.Sql.Keys
import CypherSql.Proofs.Compilation.Keys
import CypherSql.Proofs.Cypher.Failures
import CypherSql.Proofs.Cypher.Bounds
import CypherSql.Proofs.Graph.Unscoped
import CypherSql.Proofs.Compilation.Moving
import CypherSql.Proofs.Compilation.Choices
import CypherSql.Proofs.Sql.Naming
import CypherSql.Proofs.Sql.Tokens
import CypherSql.Proofs.Sql.Selects
import CypherSql.Proofs.Sql.Scanning
import CypherSql.Proofs.Sql.Operands
import CypherSql.Proofs.Sql.Comparisons
import CypherSql.Proofs.Sql.Wording
import CypherSql.Proofs.Sql.Listings
import CypherSql.Proofs.Sql.Statements
import CypherSql.Proofs.Sql.Clarity
import CypherSql.Proofs.Compilation.Plain
import CypherSql.Proofs.Compilation.Existence
import CypherSql.Proofs.Compilation.Listed
import CypherSql.Proofs.Compilation.Counting
