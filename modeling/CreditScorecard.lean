import CreditScorecard.Binary64.Basic
import CreditScorecard.Binary64.Shortest
import CreditScorecard.Binary64.Text
import CreditScorecard.CommandLine.Arguments
import CreditScorecard.CommandLine.Run
import CreditScorecard.Decimal
import CreditScorecard.Evaluation.Basic
import CreditScorecard.Evaluation.Stored
import CreditScorecard.Grade
import CreditScorecard.Inputs
import CreditScorecard.Inputs.Document
import CreditScorecard.Json.Basic
import CreditScorecard.Json.Numeral
import CreditScorecard.Json.Read
import CreditScorecard.Json.Record
import CreditScorecard.Json.Text
import CreditScorecard.Json.Tree
import CreditScorecard.Literal.Items
import CreditScorecard.Literal.Range
import CreditScorecard.Main
import CreditScorecard.Matching
import CreditScorecard.Operator
import CreditScorecard.Points
import CreditScorecard.Proofs.Binary64.Arithmetic
import CreditScorecard.Proofs.Binary64.Decimals
import CreditScorecard.Proofs.Binary64.Rounding
import CreditScorecard.Proofs.Binary64.Shortest
import CreditScorecard.Proofs.CommandLine.Operands
import CreditScorecard.Proofs.CommandLine.Responses
import CreditScorecard.Proofs.Decimal.Spelling
import CreditScorecard.Proofs.Evaluation.Comparison
import CreditScorecard.Proofs.Evaluation.Essential
import CreditScorecard.Proofs.Evaluation.Fields
import CreditScorecard.Proofs.Evaluation.Judging
import CreditScorecard.Proofs.Evaluation.Kinds
import CreditScorecard.Proofs.Evaluation.Numbers
import CreditScorecard.Proofs.Evaluation.Order
import CreditScorecard.Proofs.Evaluation.Padded
import CreditScorecard.Proofs.Evaluation.Pushed
import CreditScorecard.Proofs.Evaluation.Rescored
import CreditScorecard.Proofs.Evaluation.Skipping
import CreditScorecard.Proofs.Evaluation.Stored
import CreditScorecard.Proofs.Evaluation.Total
import CreditScorecard.Proofs.Evaluation.Typing
import CreditScorecard.Proofs.Grade.Exact
import CreditScorecard.Proofs.Grade.Monotone
import CreditScorecard.Proofs.Inputs.Merging
import CreditScorecard.Proofs.Json.Members
import CreditScorecard.Proofs.Json.NumberText
import CreditScorecard.Proofs.Json.NumberValue
import CreditScorecard.Proofs.Json.Numeral
import CreditScorecard.Proofs.Json.Pointer
import CreditScorecard.Proofs.Json.Reading
import CreditScorecard.Proofs.Json.Record
import CreditScorecard.Proofs.Json.RoundTrip
import CreditScorecard.Proofs.Json.Syntax
import CreditScorecard.Proofs.Json.TenPowers
import CreditScorecard.Proofs.Kind.Order
import CreditScorecard.Proofs.Label.Canonical
import CreditScorecard.Proofs.Label.Words
import CreditScorecard.Proofs.Literal.Between
import CreditScorecard.Proofs.Literal.Delimiters
import CreditScorecard.Proofs.Literal.Grammar
import CreditScorecard.Proofs.Literal.Items
import CreditScorecard.Proofs.Literal.Layout
import CreditScorecard.Proofs.Literal.Number
import CreditScorecard.Proofs.Literal.Scripts
import CreditScorecard.Proofs.Matching.Containing
import CreditScorecard.Proofs.Matching.Malformed
import CreditScorecard.Proofs.Matching.Numbers
import CreditScorecard.Proofs.Matching.Padding
import CreditScorecard.Proofs.Matching.PlainForm
import CreditScorecard.Proofs.Matching.Thresholds
import CreditScorecard.Proofs.Points.Saturation
import CreditScorecard.Proofs.Report.Lines
import CreditScorecard.Proofs.Schema.Accepts
import CreditScorecard.Proofs.Schema.Reports
import CreditScorecard.Proofs.Scorecard.Editing
import CreditScorecard.Proofs.Scorecard.Labels
import CreditScorecard.Proofs.Scorecard.Language
import CreditScorecard.Proofs.Scorecard.Parts
import CreditScorecard.Proofs.Scorecard.Replacing
import CreditScorecard.Proofs.Scorecard.Reports
import CreditScorecard.Proofs.Scorecard.RoundTrip
import CreditScorecard.Proofs.Scorecard.Shape
import CreditScorecard.Proofs.Scorecard.Validity
import CreditScorecard.Proofs.Scorecard.Written
import CreditScorecard.Proofs.Text.Case
import CreditScorecard.Proofs.Text.Digits
import CreditScorecard.Proofs.Text.Lines
import CreditScorecard.Proofs.Text.Pieces
import CreditScorecard.Proofs.Text.Trim
import CreditScorecard.Proofs.Text.Upper
import CreditScorecard.Proofs.Timestamp.RoundTrip
import CreditScorecard.Proofs.Yaml.Members
import CreditScorecard.Report
import CreditScorecard.Rule
import CreditScorecard.Scalar
import CreditScorecard.Schema.Basic
import CreditScorecard.Scorecard.Basic
import CreditScorecard.Scorecard.Document
import CreditScorecard.Scorecard.Edit
import CreditScorecard.Scorecard.Label
import CreditScorecard.Scorecard.Load
import CreditScorecard.Scorecard.Schema
import CreditScorecard.Scorecard.Stored
import CreditScorecard.Scorecard.Validity
import CreditScorecard.Text.Blank
import CreditScorecard.Text.Case
import CreditScorecard.Text.CaseTable
import CreditScorecard.Text.Hexadecimal
import CreditScorecard.Timestamp.Basic
import CreditScorecard.Timestamp.Text
import CreditScorecard.Yaml.Cursor
import CreditScorecard.Yaml.Node
import CreditScorecard.Yaml.Plain
import CreditScorecard.Yaml.Read
import CreditScorecard.Yaml.Scalar
import CreditScorecard.Yaml.Token
