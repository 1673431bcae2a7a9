import XPath.Number.Arithmetic
import XPath.Number.Numeral
import XPath.Number.Shortest
import XPath.Text.Letter
import XPath.Text.Lowercase
import XPath.Text.Quoted
import XPath.Document.Order
import XPath.Document.Build
import XPath.Document.Import
import XPath.Document.Sample
import XPath.Document.Axis
import XPath.Text.Search
import XPath.Query
import XPath.Document.History
import XPath.Proofs.Document.Links
import XPath.Proofs.Document.WellFormed
import XPath.Proofs.Document.Walk
import XPath.Proofs.Document.Edit
import XPath.Proofs.Document.Reachable
import XPath.Document.Numbering
import XPath.Proofs.Document.Order
import XPath.Proofs.Document.Generation
import XPath.Proofs.Document.Insertion
import XPath.Proofs.Document.Numbering
import XPath.Proofs.Document.Axis
import XPath.Document.Search
import XPath.Proofs.Document.Search
import XPath.Proofs.Document.StringValue
import XPath.Proofs.Eval.NodeSets
import XPath.Grammar.Phrase
import XPath.Proofs.Parser.Result
import XPath.Proofs.Grammar.Scan
import XPath.Proofs.Grammar.Phrase
import XPath.Proofs.Parser.Token
import XPath.Proofs.Parser.Soundness
import XPath.Expr.Rendering
import XPath.Proofs.Parser.Reading
import XPath.Proofs.Parser.Levels
import XPath.Proofs.Parser.Rendering
import XPath.Proofs.Document.Isomorphism
import XPath.Expr.Everywhere
import XPath.Proofs.Eval.Isomorphism
import XPath.Proofs.Eval.Shape
import XPath.Expr.WellTyped
import XPath.Expr.Position
import XPath.Eval.Trace
import XPath.Proofs.Eval.WellTyped
import XPath.Document.Stepwise
import XPath.Proofs.Document.Staleness
import XPath.Proofs.Result.Materialize
import XPath.Proofs.Result.Iterator
import XPath.Proofs.Document.Attribute
import XPath.Markup.Naming
import XPath.Document.Layout
import XPath.Proofs.Document.Import
import XPath.Proofs.Markup.Item
import XPath.Proofs.Markup.Tree
import XPath.Proofs.Document.Prefix
import XPath.Proofs.Eval.Kind
import XPath.Proofs.Eval.Variables
import XPath.Proofs.Eval.Union
import XPath.Proofs.Eval.Comparison
import XPath.Proofs.Text.Words
import XPath.Proofs.Eval.Identifier
import XPath.Proofs.Eval.Position
import XPath.Proofs.Eval.Predicate
import XPath.Proofs.Eval.Descendant
import XPath.Proofs.Eval.Trace
import XPath.Proofs.Eval.Root
import XPath.Proofs.Number.Nearest
import XPath.Proofs.Number.Rational
import XPath.Proofs.Number.Half
import XPath.Proofs.Number.Round
import XPath.Proofs.Document.Reach
import XPath.Proofs.Eval.Failure
import XPath.Proofs.Eval.Proximity
import XPath.Proofs.Eval.Qualifier
import XPath.Proofs.Parser.WhiteSpace
import XPath.Proofs.Parser.Chain
import XPath.Proofs.Parser.Abbreviation
import XPath.Number.Scan
import XPath.Proofs.Number.Scan
import XPath.Proofs.Parser.Numeral
import XPath.Proofs.Parser.Closure
import XPath.Proofs.Parser.Stop
import XPath.Proofs.Text.Search
import XPath.Proofs.Number.Order
import XPath.Proofs.Text.Slice
import XPath.Proofs.Number.Written
import XPath.Proofs.Text.Spacing
