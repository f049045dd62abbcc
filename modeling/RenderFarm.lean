import RenderFarm.Engine.Describe
import RenderFarm.OutputSink
import RenderFarm.Proofs.Canvas.Framebuffer
import RenderFarm.Proofs.Canvas.Listening
import RenderFarm.Proofs.Canvas.Scenes
import RenderFarm.Proofs.Color.Reading
import RenderFarm.Proofs.Color.Spelling
import RenderFarm.Proofs.Debouncer.Deadlines
import RenderFarm.Proofs.Debouncer.Schedule
import RenderFarm.Proofs.EvaluateCall.Hearing
import RenderFarm.Proofs.EvaluateCall.Moves
import RenderFarm.Proofs.EvaluateCall.News
import RenderFarm.Proofs.EvaluateCall.Output
import RenderFarm.Proofs.EvaluateCall.Progress
import RenderFarm.Proofs.Evaluations.Agreement
import RenderFarm.Proofs.Evaluations.Alone
import RenderFarm.Proofs.Evaluations.Moves
import RenderFarm.Proofs.Evaluations.Order
import RenderFarm.Proofs.Evaluations.Outcomes
import RenderFarm.Proofs.Event.Broadcast
import RenderFarm.Proofs.Event.Delivery
import RenderFarm.Proofs.Event.Following
import RenderFarm.Proofs.Event.Hearing
import RenderFarm.Proofs.Event.Pruning
import RenderFarm.Proofs.Event.Registry
import RenderFarm.Proofs.Farm.Evaluating
import RenderFarm.Proofs.Farm.Exhibitions
import RenderFarm.Proofs.Farm.Frame
import RenderFarm.Proofs.Language.Declarations
import RenderFarm.Proofs.Language.Drawing
import RenderFarm.Proofs.Language.Joining
import RenderFarm.Proofs.Language.ReadingBack
import RenderFarm.Proofs.Language.Repetition
import RenderFarm.Proofs.Language.Rows
import RenderFarm.Proofs.Language.Values
import RenderFarm.Proofs.OutputSink.Writes
import RenderFarm.Proofs.Pool.Outcome
import RenderFarm.Proofs.RenderCall.Cancellation
import RenderFarm.Proofs.RenderCall.Lifecycle
import RenderFarm.Proofs.RenderCall.Moves
import RenderFarm.Proofs.RenderCall.Progress
import RenderFarm.Proofs.RenderCall.Protocol
import RenderFarm.Proofs.RenderCall.Shown
import RenderFarm.Proofs.RenderCall.Succession
import RenderFarm.Proofs.RenderCall.Whole
import RenderFarm.Proofs.Rendering.Bounds
import RenderFarm.Proofs.Rendering.Cancels
import RenderFarm.Proofs.Rendering.Claims
import RenderFarm.Proofs.Rendering.Coverage
import RenderFarm.Proofs.Rendering.Hearing
import RenderFarm.Proofs.Rendering.Losses
import RenderFarm.Proofs.Rendering.Moves
import RenderFarm.Proofs.Rendering.Pictured
import RenderFarm.Proofs.Rendering.Progress
import RenderFarm.Proofs.Rendering.Report
import RenderFarm.Proofs.Rendering.Stirs
import RenderFarm.Proofs.Rendering.Turns
import RenderFarm.Proofs.RowCursor.Conservation
import RenderFarm.Proofs.Text.Encoding
import RenderFarm.Proofs.Worker.History
import RenderFarm.Proofs.Worker.Lifetime
import RenderFarm.Proofs.Worker.Output
import RenderFarm.Proofs.Worker.Pipeline
import RenderFarm.Proofs.Worker.Reporting
import RenderFarm.Proofs.Worker.Responses
import RenderFarm.Proofs.Worker.Retention
import RenderFarm.Proofs.Worker.Service
import RenderFarm.Proofs.Worker.Transparency
import RenderFarm.Scenario.Stage
import RenderFarm.Scenario.Timeline
import RenderFarm.Scenario.Workers
