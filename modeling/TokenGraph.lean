import TokenGraph.Analyzer
import TokenGraph.Automaton.Basic
import TokenGraph.Automaton.Build
import TokenGraph.Automaton.Listing
import TokenGraph.Automaton.Scan
import TokenGraph.Binary32
import TokenGraph.Catalog
import TokenGraph.Category
import TokenGraph.Color
import TokenGraph.Decimal
import TokenGraph.Definition.Basic
import TokenGraph.Definition.Compile
import TokenGraph.Definition.Decode
import TokenGraph.Definition.Load
import TokenGraph.Error
import TokenGraph.Event
import TokenGraph.FontStyle
import TokenGraph.Highlight
import TokenGraph.Language.Basic
import TokenGraph.Language.Setup
import TokenGraph.Pattern.CharSet
import TokenGraph.Pattern.Engine
import TokenGraph.Pattern.Parser
import TokenGraph.Pattern.Regex
import TokenGraph.Session
import TokenGraph.Text.Basic
import TokenGraph.Text.Blank
import TokenGraph.Text.CaseFold
import TokenGraph.Text.Dictionary
import TokenGraph.Text.Digit
import TokenGraph.Text.Hidden
import TokenGraph.Text.Quoted
import TokenGraph.Text.Ranges
import TokenGraph.Text.WordChar
import TokenGraph.Workspace
import TokenGraph.Xogue
import TokenGraph.Yaml.Cursor
import TokenGraph.Yaml.Node
import TokenGraph.Yaml.Resolve
import TokenGraph.Yaml.Scalar
import TokenGraph.Yaml.Token
import TokenGraph.Proofs.Checked
import TokenGraph.Proofs.Coverage
import TokenGraph.Proofs.Trials
import TokenGraph.Proofs.Graph
import TokenGraph.Proofs.Tiling
import TokenGraph.Proofs.Trie
import TokenGraph.Proofs.Rows
import TokenGraph.Proofs.Xogue.Grammar
import TokenGraph.Proofs.Xogue.Moves
import TokenGraph.Proofs.Xogue.Lexemes
import TokenGraph.Proofs.Xogue.Analyzer
import TokenGraph.Proofs.Xogue.RoundTrip
import TokenGraph.Proofs.Lookahead
import TokenGraph.Proofs.Resumption
import TokenGraph.Proofs.Documents
import TokenGraph.Proofs.Xogue.Lines
import TokenGraph.Proofs.Relevance
import TokenGraph.Proofs.Priority
import TokenGraph.Proofs.Xogue.Priority
import TokenGraph.Proofs.Sessions
import TokenGraph.Proofs.Stalls
import TokenGraph.Proofs.Literals
import TokenGraph.Proofs.WellFormed
import TokenGraph.Proofs.ByteOrder
import TokenGraph.Proofs.Catalogs
import TokenGraph.Proofs.LongestMatch
import TokenGraph.Proofs.PrefixTree
import TokenGraph.Proofs.Paths
import TokenGraph.Proofs.Xogue.Comments
import TokenGraph.Proofs.Recognition
import TokenGraph.Proofs.Xogue.Quotes
import TokenGraph.Proofs.Xogue.Numbers
import TokenGraph.Proofs.FirstFault
import TokenGraph.Proofs.Refusals
import TokenGraph.Proofs.Registrations
import TokenGraph.Proofs.Faults
import TokenGraph.Proofs.Shorthands
import TokenGraph.Proofs.Duplicates
import TokenGraph.Proofs.Colors
import TokenGraph.Proofs.Completeness
import TokenGraph.Proofs.Pattern.Readers
import TokenGraph.Proofs.Pattern.Escapes
import TokenGraph.Proofs.Pattern.Classes
import TokenGraph.Proofs.Pattern.Notation
import TokenGraph.Proofs.Pattern.Framed
import TokenGraph.Proofs.Log
import TokenGraph.Proofs.CanonicalColors
