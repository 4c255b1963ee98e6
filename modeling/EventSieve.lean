import EventSieve.Text.Basic
import EventSieve.Text.Alphanumeric
import EventSieve.Text.Printed
import EventSieve.Binary64.Basic
import EventSieve.Decimal.Basic
import EventSieve.Decimal.Layout
import EventSieve.Decimal.Shortest
import EventSieve.Number.Basic
import EventSieve.Number.Reader
import EventSieve.Event.Basic
import EventSieve.Event.Fields
import EventSieve.Token.Basic
import EventSieve.Token.Scan
import EventSieve.Clause.Basic
import EventSieve.Clause.Reader
import EventSieve.Expr.Basic
import EventSieve.Expr.Error
import EventSieve.Expr.Reader
import EventSieve.Expr.Serial
import EventSieve.Expr.Verdict
import EventSieve.Sieve.Basic
import EventSieve.Sieve.Cache
import EventSieve.Sieve.Stream
import EventSieve.Json.Defect
import EventSieve.Json.Fields
import EventSieve.Json.Items
import EventSieve.Json.Numeral
import EventSieve.Json.Quoted
import EventSieve.Json.Reading
import EventSieve.Json.Skip
import EventSieve.Json.Source
import EventSieve.Gate.Basic
import EventSieve.Gate.Config
import EventSieve.Gate.Definition
import EventSieve.Proofs.Fallible
import EventSieve.Proofs.Text.Digits
import EventSieve.Proofs.Text.Offsets
import EventSieve.Proofs.Text.Runs
import EventSieve.Proofs.Text.Search
import EventSieve.Proofs.Text.Trim
import EventSieve.Proofs.Binary64.Floor
import EventSieve.Proofs.Binary64.Nearest
import EventSieve.Proofs.Binary64.ReadBack
import EventSieve.Proofs.Binary64.Rounding
import EventSieve.Proofs.Decimal.Layout
import EventSieve.Proofs.Decimal.Nearest
import EventSieve.Proofs.Number.Decimals
import EventSieve.Proofs.Number.Hexadecimals
import EventSieve.Proofs.Number.Integers
import EventSieve.Proofs.Number.Monotone
import EventSieve.Proofs.Number.Numerals
import EventSieve.Proofs.Number.Order
import EventSieve.Proofs.Number.Value
import EventSieve.Proofs.Token.Balance
import EventSieve.Proofs.Token.Clauses
import EventSieve.Proofs.Token.Concat
import EventSieve.Proofs.Token.Exchange
import EventSieve.Proofs.Token.Layout
import EventSieve.Proofs.Token.Moves
import EventSieve.Proofs.Token.Tally
import EventSieve.Proofs.Token.Unmarked
import EventSieve.Proofs.Clause.Characters
import EventSieve.Proofs.Clause.Division
import EventSieve.Proofs.Clause.Doubles
import EventSieve.Proofs.Clause.Grammar
import EventSieve.Proofs.Clause.Operators
import EventSieve.Proofs.Clause.Parts
import EventSieve.Proofs.Clause.Reader
import EventSieve.Proofs.Clause.Respelling
import EventSieve.Proofs.Clause.WellFormed
import EventSieve.Proofs.Expr.Assembly
import EventSieve.Proofs.Expr.Equality
import EventSieve.Proofs.Expr.Grammar
import EventSieve.Proofs.Expr.Influence
import EventSieve.Proofs.Expr.Leaves
import EventSieve.Proofs.Expr.Levels
import EventSieve.Proofs.Expr.LexicalErrors
import EventSieve.Proofs.Expr.Ranges
import EventSieve.Proofs.Expr.Reader
import EventSieve.Proofs.Expr.Refusals
import EventSieve.Proofs.Expr.Rendering
import EventSieve.Proofs.Expr.RoundTrip
import EventSieve.Proofs.Expr.Serial
import EventSieve.Proofs.Expr.Verdict
import EventSieve.Proofs.Expr.Viability
import EventSieve.Proofs.Expr.Visits
import EventSieve.Proofs.Offset.Clause
import EventSieve.Proofs.Offset.Reader
import EventSieve.Proofs.Offset.Scan
import EventSieve.Proofs.Offset.Slice
import EventSieve.Proofs.Event.Shapes
import EventSieve.Proofs.Sieve.Cache
import EventSieve.Proofs.Sieve.Composition
import EventSieve.Proofs.Sieve.Equality
import EventSieve.Proofs.Sieve.History
import EventSieve.Proofs.Sieve.Integers
import EventSieve.Proofs.Sieve.Respelling
import EventSieve.Proofs.Sieve.Stream
import EventSieve.Proofs.Json.Items
import EventSieve.Proofs.Json.Reading
import EventSieve.Proofs.Json.Stops
import EventSieve.Proofs.Json.Strings
import EventSieve.Proofs.Json.Values
import EventSieve.Proofs.Gate.Definitions
import EventSieve.Proofs.Gate.Documents
import EventSieve.Proofs.Gate.FirstDefect
import EventSieve.Proofs.Gate.Influence
import EventSieve.Proofs.Gate.Verdict
