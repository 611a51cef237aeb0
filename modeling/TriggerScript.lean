import TriggerScript.Disk
import TriggerScript.Main
import TriggerScript.Pattern.Notation
import TriggerScript.Proofs.Names
import TriggerScript.Proofs.Computation
import TriggerScript.Proofs.Slots
import TriggerScript.Xml.Reader
import TriggerScript.Proofs.Numbering
import TriggerScript.Proofs.Numbering.Contiguous
import TriggerScript.Proofs.Numbering.Texts
import TriggerScript.Proofs.Lowering.Pools
import TriggerScript.Proofs.Lowering.Operations
import TriggerScript.Proofs.Lowering.Plan
import TriggerScript.Proofs.Lowering.Sound
import TriggerScript.Proofs.Lowering.Whole
import TriggerScript.Proofs.Document.Contents
import TriggerScript.Proofs.Document.Elements
import TriggerScript.Proofs.Document.Representation
import TriggerScript.Proofs.Document.Meaning
import TriggerScript.Proofs.Document.Nodes
import TriggerScript.Proofs.Document.References
import TriggerScript.Proofs.Document.Traversal
import TriggerScript.Proofs.Lowering.Progress
import TriggerScript.Proofs.Document.Acceptance
import TriggerScript.Proofs.Compilation.Catalogs
import TriggerScript.Proofs.Compilation.Tables
import TriggerScript.Proofs.Grammar.Derivations
import TriggerScript.Proofs.Grammar.Search
import TriggerScript.Proofs.Grammar.Termination
import TriggerScript.Proofs.Grammar.Parses
import TriggerScript.Proofs.Grammar.Furthest
import TriggerScript.Proofs.Grammar.LeftRecursion
import TriggerScript.Proofs.Grammar.Budget
import TriggerScript.Proofs.Grammar.Clauses
import TriggerScript.Proofs.Grammar.Languages
import TriggerScript.Proofs.Grammar.Inversion
import TriggerScript.Proofs.Grammar.Least
import TriggerScript.Proofs.Grammar.Reducing
import TriggerScript.Proofs.Grammar.Lookahead
import TriggerScript.Proofs.Program.Grammar
import TriggerScript.Proofs.Program.Parsing
import TriggerScript.Proofs.Program.Rendering
import TriggerScript.Proofs.Program.Languages
import TriggerScript.Proofs.Catalog.Parsing
import TriggerScript.Proofs.Pattern
import TriggerScript.Proofs.Lexing
import TriggerScript.Proofs.Reading
import TriggerScript.Proofs.Catalog.Rendering
import TriggerScript.Proofs.Program.Lookahead
import TriggerScript.Proofs.Program.Returns
import TriggerScript.Proofs.Program.Ambiguity
import TriggerScript.Proofs.Json.Codecs
import TriggerScript.Proofs.Tables
import TriggerScript.Proofs.Snapshot
import TriggerScript.Proofs.Numbering.Erasure
import TriggerScript.Proofs.Document.Shape
import TriggerScript.Proofs.Document.Roots
import TriggerScript.Proofs.Xml.Markup
import TriggerScript.Proofs.Xml.ReadBack
import TriggerScript.Proofs.Lowering.Orderly
import TriggerScript.Proofs.Lowering.Places
import TriggerScript.Proofs.Lowering.Recursion
import TriggerScript.Proofs.Document.Order
import TriggerScript.Proofs.Program.Readings
import TriggerScript.Proofs.Program.Locals
import TriggerScript.Proofs.Lowering.Scopes
import TriggerScript.Proofs.Names.History
import TriggerScript.Proofs.Lexing.Layout
import TriggerScript.Proofs.Lexing.Numerals
import TriggerScript.Proofs.Lexing.Labels
import TriggerScript.Proofs.Grammar.Lists
import TriggerScript.Proofs.Numbering.Counting
import TriggerScript.Proofs.Tables.Maps
import TriggerScript.Proofs.Tables.Text
import TriggerScript.Proofs.Compilation.Values
import TriggerScript.Proofs.Excerpt
import TriggerScript.Proofs.Grammar.Checking
