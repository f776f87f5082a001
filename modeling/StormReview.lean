import StormReview.Js.Text
import StormReview.Js.Path
import StormReview.Js.Climb
import StormReview.Js.Value
import StormReview.Js.Regex
import StormReview.Js.Scan
import StormReview.Js.Pieces
import StormReview.Js.Sort
import StormReview.Js.Words
import StormReview.Js.Runs
import StormReview.Js.Json
import StormReview.Js.Json.RoundTrip
import StormReview.Js.Json.Cut
import StormReview.Js.Utf8
import StormReview.Js.Json.Printed
import StormReview.Js.Json.Indented
import StormReview.Js.Lines
import StormReview.Zod.Schema
import StormReview.Schemas.Review
import StormReview.Zod.Exact
import StormReview.Schemas.Accepted
import StormReview.Engine.Steps
import StormReview.Engine.Traverse
import StormReview.Engine.Ledger
import StormReview.Engine.Slots
import StormReview.Engine.Rpc
import StormReview.Engine.FirstHit
import StormReview.Guards.PrivacyGuard
import StormReview.Guards.InjectionGuard
import StormReview.Guards.PrecedentGuard
import StormReview.Guards.ScopeGuard
import StormReview.Guards.PrivacyShapes
import StormReview.Guards.InjectionShapes
import StormReview.Guards.Truncation
import StormReview.Lib.Loader
import StormReview.Lib.Context
import StormReview.Lib.Audit
import StormReview.Workflow.Tidy
import StormReview.Workflow.Flow
import StormReview.Workflow.AuditRow
import StormReview.Workflow.Steps
import StormReview.Workflow.Settled
import StormReview.Workflow.Pipeline
import StormReview.Tools.FindFosPrecedents
import StormReview.Tools.Lookups
import StormReview.Server.Server
import StormReview.Server.Guarded
import StormReview.Ui.Page
import StormReview.Scripts.RecordGolden
import StormReview.Evals.Run
import StormReview.Safety.AutoFile
import StormReview.Safety.SignOff
import StormReview.Safety.Citations
import StormReview.Safety.Instructions
import StormReview.Safety.Redaction
import StormReview.Safety.Abstention
import StormReview.Safety.Escalation
import StormReview.Safety.Fidelity
import StormReview.Safety.Containment
import StormReview.Safety.Replay
import StormReview.Safety.Holdout
import StormReview.Safety.Reporting
import StormReview.Safety.Prose
import StormReview.Safety.AgentView
import StormReview.Safety.DemoGate
import StormReview.Safety.Ranking
import StormReview.Safety.NormalForm
import StormReview.Safety.Sentences
import StormReview.Safety.WeatherReaders
import StormReview.Safety.Recording
import StormReview.Safety.Stores
import StormReview.Safety.AuditTrail
import StormReview.Safety.Directive
import StormReview.Safety.Clipping
import StormReview.Safety.Notes
import StormReview.Ui.Session
import StormReview.Safety.Posting
import StormReview.Safety.Shown
import StormReview.Safety.Wishes
import StormReview.Safety.Signing
import StormReview.Safety.Progress
import StormReview.Safety.AuditScreen
import StormReview.Safety.GoldenFile
import StormReview.Safety.Listing
import StormReview.Safety.Padding
import StormReview.Lib.Model
import StormReview.Scripts.Doctor
import StormReview.Safety.Readiness
import StormReview.Evals.Suite
import StormReview.Safety.Figures
import StormReview.Safety.Grading
import StormReview.Evals.Process
import StormReview.Safety.AnswerKey
import StormReview.Js.Html
import StormReview.Js.Html.RoundTrip
import StormReview.Ui.Render
import StormReview.Ui.Elements
import StormReview.Ui.View
import StormReview.Safety.Inert
import StormReview.Safety.Legible
