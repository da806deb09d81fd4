import ComplexityGauge.Analysis
import ComplexityGauge.Analyzer
import ComplexityGauge.Json.Reader
import ComplexityGauge.Json.Source
import ComplexityGauge.Json.Value
import ComplexityGauge.Language
import ComplexityGauge.Launch
import ComplexityGauge.Line
import ComplexityGauge.Log
import ComplexityGauge.Number.Binary64
import ComplexityGauge.Number.Decimal
import ComplexityGauge.Number.Numeral
import ComplexityGauge.Rating
import ComplexityGauge.Record.Field
import ComplexityGauge.Record.Message
import ComplexityGauge.Record.Problem
import ComplexityGauge.Record.Result
import ComplexityGauge.Report
import ComplexityGauge.Service.Answer
import ComplexityGauge.Service.Cors
import ComplexityGauge.Service.Failure
import ComplexityGauge.Service.Payload
import ComplexityGauge.Service.Request
import ComplexityGauge.Service.Response
import ComplexityGauge.Service.Route
import ComplexityGauge.Service.SizeLimit
import ComplexityGauge.Settings.Basic
import ComplexityGauge.Settings.EnvFile
import ComplexityGauge.Settings.Origins
import ComplexityGauge.Signals
import ComplexityGauge.Text.Basic
import ComplexityGauge.Text.CaseTables
import ComplexityGauge.Text.Encoding
import ComplexityGauge.Text.Lowercase
import ComplexityGauge.Text.Percent
import ComplexityGauge.Text.Utf8
import ComplexityGauge.Text.Wide
import ComplexityGauge.Verdict
import ComplexityGauge.Proofs.Lines
import ComplexityGauge.Proofs.Nesting
import ComplexityGauge.Proofs.Concatenation
import ComplexityGauge.Proofs.Layout
import ComplexityGauge.Proofs.Casing
import ComplexityGauge.Proofs.Patterns
import ComplexityGauge.Proofs.Relayout
import ComplexityGauge.Proofs.ReportLines
import ComplexityGauge.Proofs.Verdicts
import ComplexityGauge.Proofs.LoopForest
import ComplexityGauge.Proofs.Distinction
import ComplexityGauge.Proofs.Payload
import ComplexityGauge.Proofs.Tokens
import ComplexityGauge.Proofs.Sources
import ComplexityGauge.Proofs.Grammar
import ComplexityGauge.Proofs.Reading
import ComplexityGauge.Proofs.Submission
import ComplexityGauge.Proofs.Layers
import ComplexityGauge.Proofs.Accounting
import ComplexityGauge.Proofs.Mentions
import ComplexityGauge.Proofs.Naming
import ComplexityGauge.Proofs.Records
import ComplexityGauge.Proofs.Answers
import ComplexityGauge.Proofs.Export
import ComplexityGauge.Proofs.LogLines
import ComplexityGauge.Proofs.DeclaredSize
import ComplexityGauge.Proofs.Failures
import ComplexityGauge.Proofs.ResponseHeaders
import ComplexityGauge.Proofs.CrossOrigin
import ComplexityGauge.Proofs.Surroundings
import ComplexityGauge.Proofs.Lowering
import ComplexityGauge.Proofs.Resemblance
import ComplexityGauge.Proofs.Independence
import ComplexityGauge.Proofs.Mounts
import ComplexityGauge.Proofs.PlainDefinitions
import ComplexityGauge.Proofs.Reordering
import ComplexityGauge.Proofs.Revalidation
import ComplexityGauge.Proofs.Vocabulary
import ComplexityGauge.Proofs.OriginLists
import ComplexityGauge.Proofs.Repetitions
import ComplexityGauge.Proofs.Places
import ComplexityGauge.Proofs.LeftmostNames
