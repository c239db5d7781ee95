import ErrorBars.Correlation
import ErrorBars.Datum
import ErrorBars.Engine
import ErrorBars.Engine.Script
import ErrorBars.Expr.Basic
import ErrorBars.Expr.Canonical
import ErrorBars.Expr.Canonical.Arith
import ErrorBars.Expr.Canonical.Bounds
import ErrorBars.Expr.Canonical.Circular
import ErrorBars.Expr.Canonical.Complex
import ErrorBars.Expr.Canonical.Extreme
import ErrorBars.Expr.Canonical.Factorial
import ErrorBars.Expr.Canonical.Function
import ErrorBars.Expr.Canonical.Hyperbolic
import ErrorBars.Expr.Canonical.Logarithm
import ErrorBars.Expr.Canonical.Parts
import ErrorBars.Expr.Canonical.Power
import ErrorBars.Expr.Canonical.Product
import ErrorBars.Expr.Canonical.Reciprocal
import ErrorBars.Expr.Canonical.Refused
import ErrorBars.Expr.Canonical.Remainder
import ErrorBars.Expr.Canonical.Separation
import ErrorBars.Expr.Canonical.Sum
import ErrorBars.Expr.Canonical.Turn
import ErrorBars.Expr.Derivative
import ErrorBars.Expr.Evaluate
import ErrorBars.Expr.Evaluate.Arith
import ErrorBars.Expr.Evaluate.Basic
import ErrorBars.Expr.Evaluate.Complex
import ErrorBars.Expr.Evaluate.Function
import ErrorBars.Expr.Facts
import ErrorBars.Expr.Number
import ErrorBars.Expr.NumberText
import ErrorBars.Expr.Order
import ErrorBars.Expr.Point
import ErrorBars.Expr.Remainder
import ErrorBars.Expr.Simplify
import ErrorBars.Expr.Simplify.Absolute
import ErrorBars.Expr.Simplify.Cancel
import ErrorBars.Expr.Simplify.Cases
import ErrorBars.Expr.Simplify.CommonFactor
import ErrorBars.Expr.Simplify.Content
import ErrorBars.Expr.Simplify.Expand
import ErrorBars.Expr.Simplify.Exponential
import ErrorBars.Expr.Simplify.Factor
import ErrorBars.Expr.Simplify.Fraction
import ErrorBars.Expr.Simplify.Gamma
import ErrorBars.Expr.Simplify.JoinLogs
import ErrorBars.Expr.Simplify.JoinPowers
import ErrorBars.Expr.Simplify.OpCount
import ErrorBars.Expr.Simplify.Sign
import ErrorBars.Expr.Simplify.Together
import ErrorBars.Expr.Simplify.Trig
import ErrorBars.Expr.Simplify.Trig.Rules
import ErrorBars.Expr.SortKey
import ErrorBars.Expr.Text
import ErrorBars.Formula.Application
import ErrorBars.Formula.Juxtaposition
import ErrorBars.Formula.Lexicon
import ErrorBars.Formula.Meaning
import ErrorBars.Formula.Numeral
import ErrorBars.Formula.Parse
import ErrorBars.Formula.Part
import ErrorBars.Formula.Phrase
import ErrorBars.Formula.Position
import ErrorBars.Formula.Quotation
import ErrorBars.Formula.Reserved
import ErrorBars.Formula.Token
import ErrorBars.Formula.Value
import ErrorBars.Measurement
import ErrorBars.Notifier
import ErrorBars.Number
import ErrorBars.Numeric.Binary
import ErrorBars.Numeric.Decimal
import ErrorBars.Numeric.Double
import ErrorBars.Numeric.Elementary
import ErrorBars.Numeric.Extended
import ErrorBars.Numeric.Power
import ErrorBars.Numeric.Roots
import ErrorBars.Numeric.Special
import ErrorBars.Outcome
import ErrorBars.Polynomial.Basic
import ErrorBars.Polynomial.Factor
import ErrorBars.Polynomial.Gcd
import ErrorBars.Polynomial.Modular
import ErrorBars.Proofs.Call
import ErrorBars.Proofs.Account
import ErrorBars.Proofs.Watched
import ErrorBars.Proofs.Course
import ErrorBars.Propagator
import ErrorBars.Series
import ErrorBars.Session
import ErrorBars.Text.Blank
import ErrorBars.Text.CodePoints
import ErrorBars.Text.Identifier
import ErrorBars.Text.NormalForm
import ErrorBars.Text.NormalForm.Table
import ErrorBars.Text.Printable
import ErrorBars.Text.Quoted
import ErrorBars.Proofs.Calculate
import ErrorBars.Proofs.Registry
import ErrorBars.Proofs.Passes
import ErrorBars.Proofs.Reading
import ErrorBars.Proofs.Names.Basic
import ErrorBars.Proofs.Names.Sum
import ErrorBars.Proofs.Names.Product
import ErrorBars.Proofs.Names.Turn
import ErrorBars.Proofs.Names.Power
import ErrorBars.Proofs.Names.Circular
import ErrorBars.Proofs.Names.Hyperbolic
import ErrorBars.Proofs.Names.Parts
import ErrorBars.Proofs.Names.Function
import ErrorBars.Proofs.Names.Derivative
import ErrorBars.Proofs.Names.Content
import ErrorBars.Proofs.Names.Fraction
import ErrorBars.Proofs.Names.Expand
import ErrorBars.Proofs.Names.Joined
import ErrorBars.Proofs.Names.Cancel
import ErrorBars.Proofs.Names.Angles
import ErrorBars.Proofs.Names.Waves
import ErrorBars.Proofs.Names.Trig
import ErrorBars.Proofs.Names.Gamma
import ErrorBars.Proofs.Names.Substitute
import ErrorBars.Proofs.Names.Simplify
import ErrorBars.Proofs.Spare.Settles
import ErrorBars.Proofs.Spare.Point
import ErrorBars.Proofs.Spare.Calculation
import ErrorBars.Proofs.Compatible
import ErrorBars.Proofs.Holdings
import ErrorBars.Proofs.Modes
import ErrorBars.Proofs.Raised
import ErrorBars.Proofs.Slips.Operation
import ErrorBars.Proofs.Slips.Application
import ErrorBars.Proofs.Slips.Phrase
import ErrorBars.Proofs.Slips.Parse
import ErrorBars.Proofs.Rounds
import ErrorBars.Proofs.Registrations
import ErrorBars.Proofs.Malformed
import ErrorBars.Proofs.Rows
import ErrorBars.Proofs.Tables
import ErrorBars.Proofs.Reordered
import ErrorBars.Proofs.Names.Point
import ErrorBars.Proofs.Unbound
import ErrorBars.Proofs.Exact.Partial
import ErrorBars.Proofs.Linear
import ErrorBars.Proofs.Overflow
import ErrorBars.Proofs.Arithmetic.Basic
import ErrorBars.Proofs.Arithmetic.Phrase
import ErrorBars.Proofs.Arithmetic.Tokens
import ErrorBars.Proofs.Arithmetic.Scan
import ErrorBars.Proofs.Arithmetic.Parse
import ErrorBars.Proofs.Places.Pieces
import ErrorBars.Proofs.Places.Standing
import ErrorBars.Proofs.Places.Told
import ErrorBars.Proofs.Places.Undisturbed
import ErrorBars.Proofs.Places.Listed
import ErrorBars.Proofs.Products
import ErrorBars.Proofs.Quadrature
import ErrorBars.Proofs.Specials
import ErrorBars.Proofs.Poles.Numbers
import ErrorBars.Proofs.Poles.Evaluators
import ErrorBars.Proofs.Poles.Values
import ErrorBars.Proofs.Poles.Logarithm
import ErrorBars.Proofs.Poles.PoleFree
import ErrorBars.Proofs.Poles.Promise
import ErrorBars.Proofs.Poles.Calculation
import ErrorBars.Proofs.Leaves
import ErrorBars.Proofs.Names.Value
import ErrorBars.Proofs.Names.Application
import ErrorBars.Proofs.Names.Scan
import ErrorBars.Proofs.Names.Formula
import ErrorBars.Proofs.Readable
import ErrorBars.Proofs.Entries
import ErrorBars.Proofs.Results
import ErrorBars.Proofs.Rowless
