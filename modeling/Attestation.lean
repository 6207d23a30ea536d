import Attestation.Table
import Attestation.Text.Utf8
import Attestation.Text.Decimal
import Attestation.Text.Unprintable
import Attestation.Text.Quoted
import Attestation.Text.Hex
import Attestation.Text.Replace
import Attestation.Text.Split
import Attestation.Text.Lines
import Attestation.Json.Basic
import Attestation.Json.Number
import Attestation.Json.Reader
import Attestation.Json.Printer
import Attestation.Source.Span
import Attestation.Source.Map
import Attestation.Syntax.Selector
import Attestation.Syntax.Tree
import Attestation.Syntax.Statement
import Attestation.Json.Decoder
import Attestation.Syntax.Document
import Attestation.Data.Literal
import Attestation.Data.Variable
import Attestation.Data.Schema
import Attestation.Data.Accessor
import Attestation.Data.Subject
import Attestation.Diagnostic.Basic
import Attestation.Diagnostic.Report
import Attestation.Gadget.Basic
import Attestation.Gadget.Check
import Attestation.Gadget.Format
import Attestation.Gadget.Fields
import Attestation.Rule.Pattern
import Attestation.Rule.Contradiction
import Attestation.Rule.Implication
import Attestation.Rule.Substitution
import Attestation.Optimizer
import Attestation.Compiler.Context
import Attestation.Compiler.Resolution
import Attestation.Compiler.Compilation
import Attestation.Compiler.Rendering
import Attestation.CommandLine.Load
import Attestation.CommandLine.Options
import Attestation.CommandLine.Run
import Attestation.CommandLine.Files
import Attestation.Main
import Attestation.Proofs.Outcome
import Attestation.Proofs.Contract
import Attestation.Proofs.Assignment
import Attestation.Proofs.Matching
import Attestation.Proofs.RuleResult
import Attestation.Proofs.Sameness
import Attestation.Proofs.RuleMeaning
import Attestation.Proofs.OptimizerRun
import Attestation.Proofs.OptimizerMeaning
import Attestation.Proofs.Reading
import Attestation.Proofs.Resolution
import Attestation.Proofs.Registration
import Attestation.Proofs.StatementParts
import Attestation.Proofs.Faithfulness
import Attestation.Proofs.Renaming
import Attestation.Proofs.RenamedRun
import Attestation.Proofs.RenamedRendering
import Attestation.Proofs.Rebinding
import Attestation.Proofs.Noninterference
import Attestation.Proofs.WitnessIndependence
import Attestation.Proofs.Termination
import Attestation.Proofs.LinksRanges
import Attestation.Proofs.NormalForm
import Attestation.Proofs.Idempotence
import Attestation.Proofs.Exposure
import Attestation.Proofs.Exhaustion
import Attestation.Proofs.RangeCompleteness
import Attestation.Proofs.EqualityCompleteness
import Attestation.Proofs.Permanence
import Attestation.Proofs.InputOrder
import Attestation.Proofs.Layout
import Attestation.Proofs.Filling
import Attestation.Proofs.SlotAssignment
import Attestation.Proofs.UniqueReading
import Attestation.Proofs.InternalErrors
import Attestation.Proofs.ErrorPositions
import Attestation.Proofs.PremiseIsolation
import Attestation.Proofs.Positions
import Attestation.Proofs.Attribution
import Attestation.Proofs.Closure
import Attestation.Proofs.LineIndex
import Attestation.Proofs.Reports
import Attestation.Proofs.DocumentRoundTrip
import Attestation.Proofs.AcceptedForms
import Attestation.Proofs.Conformance
import Attestation.Proofs.Shape
import Attestation.Proofs.SlotOrder
import Attestation.Proofs.SlotSharing
import Attestation.Proofs.Visits
import Attestation.Proofs.Usage
import Attestation.Proofs.Instantiation
import Attestation.Proofs.Catalog
import Attestation.Proofs.Rearrangement
import Attestation.Proofs.PairOrder
import Attestation.Proofs.LineCount
import Attestation.Proofs.KeptWarnings
import Attestation.Proofs.PrintedForm
import Attestation.Proofs.ShownValues
import Attestation.Proofs.DocumentText
import Attestation.Proofs.LinePartition
