import StackCalc.Arithmetic.Array
import StackCalc.Arithmetic.Binary
import StackCalc.Arithmetic.Integer
import StackCalc.Arithmetic.Inverse
import StackCalc.Arithmetic.Scalar
import StackCalc.Block.Basic
import StackCalc.CommandLine.Arguments
import StackCalc.CommandLine.Basic
import StackCalc.CommandLine.FileTree
import StackCalc.CommandLine.Path
import StackCalc.Decimal.Integer
import StackCalc.Decimal.Layout
import StackCalc.Decimal.Ratio
import StackCalc.Decimal.Shortest
import StackCalc.Fault.Basic
import StackCalc.Fault.Incident
import StackCalc.Fault.Message
import StackCalc.Literal.Basic
import StackCalc.Literal.Numeral
import StackCalc.Literal.Reader
import StackCalc.Literal.Scalar
import StackCalc.Main
import StackCalc.Numbers.Collect
import StackCalc.Numbers.Entries
import StackCalc.Numbers.Grid
import StackCalc.Numbers.Number
import StackCalc.Numbers.Storage
import StackCalc.Operator.Basic
import StackCalc.Proofs.BlockArguments
import StackCalc.Proofs.Dispatch
import StackCalc.Proofs.ExactArrays
import StackCalc.Proofs.ExactResults
import StackCalc.Proofs.Failures
import StackCalc.Proofs.LinearAlgebra
import StackCalc.Proofs.RoundTrip
import StackCalc.Proofs.Spelling
import StackCalc.Proofs.Splitting
import StackCalc.Proofs.Words
import StackCalc.Proofs.WrittenInteger
import StackCalc.Run.Basic
import StackCalc.Run.Session
import StackCalc.Run.Trace
import StackCalc.Stack.Basic
import StackCalc.Stack.Command
import StackCalc.Text.Basic
import StackCalc.Text.Blank
import StackCalc.Text.CodeRanges
import StackCalc.Text.Digit
import StackCalc.Text.Letter
import StackCalc.Text.Lines
import StackCalc.Text.Printable
import StackCalc.Text.Quoted
import StackCalc.Token.Basic
import StackCalc.Value.Basic
import StackCalc.Value.Equality
import StackCalc.Value.Render
import StackCalc.Proofs.Locality
import StackCalc.Proofs.Recursion
import StackCalc.Proofs.LiteralGrammar
import StackCalc.Proofs.DoubleRange
import StackCalc.Proofs.RawRun
import StackCalc.Proofs.FaultTokens
import StackCalc.Proofs.RawSteps
import StackCalc.Proofs.RawAgreement
import StackCalc.Proofs.TypedFailures
import StackCalc.Proofs.InnerRuns
import StackCalc.Proofs.Invariants
import StackCalc.Proofs.LineBreaks
import StackCalc.Proofs.ArrayShapes
import StackCalc.Proofs.OperatorResults
import StackCalc.Proofs.ReachableValues
import StackCalc.Proofs.Alphabet
import StackCalc.Proofs.Deferral
import StackCalc.Proofs.Termination
import StackCalc.Proofs.ReadValues
import StackCalc.Proofs.Substitution
import StackCalc.Proofs.Delivery
import StackCalc.Proofs.OutputLines
import StackCalc.Proofs.FreeSpaces
import StackCalc.Proofs.MatrixPowers
import StackCalc.Proofs.SplicedTexts
import StackCalc.Proofs.MatrixLaws
import StackCalc.Proofs.ScalingFaults
import StackCalc.Proofs.StringOrder
import StackCalc.Proofs.NestedLiterals
import StackCalc.Proofs.Windows
import StackCalc.Proofs.StringContents
import StackCalc.Proofs.ArityGate
import StackCalc.Proofs.NearestDouble
import StackCalc.Proofs.DecimalRounding
import StackCalc.Proofs.ShortestDecimals
import StackCalc.Proofs.FloatTexts
import StackCalc.Proofs.OutputPaths
import StackCalc.Proofs.FloorDivision
import StackCalc.Proofs.Positions
