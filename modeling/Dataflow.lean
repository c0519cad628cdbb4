import Dataflow.Block.Mixed
import Dataflow.Proofs.Stream.History
import Dataflow.Scheduler.Client
import Dataflow.Scheduler.Report
import Dataflow.Scheduler.Run
import Dataflow.Stream.Ends
import Dataflow.Watchdog.Vigil
import Dataflow.Proofs.Execution.Calls
import Dataflow.Proofs.Execution.Pass
import Dataflow.Proofs.Execution.Lasting
import Dataflow.Proofs.Execution.Intact
import Dataflow.Proofs.Execution.Past
import Dataflow.Proofs.Execution.Restart
import Dataflow.Proofs.Scheduler.Lifecycle
import Dataflow.Proofs.Scheduler.Turns
import Dataflow.Proofs.Scheduler.Outcome
import Dataflow.Proofs.Scheduler.Past
import Dataflow.Proofs.Scheduler.Lasting
import Dataflow.Proofs.Stream.Signal
import Dataflow.Proofs.Block.Signal
import Dataflow.Proofs.Graph.Built
import Dataflow.Proofs.Graph.Connecting
import Dataflow.Proofs.Graph.Construction
import Dataflow.Proofs.Graph.Signal
import Dataflow.Proofs.Stream.FanOut
import Dataflow.Proofs.Stream.Publication
import Dataflow.Proofs.Flow.Wiring
import Dataflow.Proofs.Flow.Invariant
import Dataflow.Proofs.Flow.Work
import Dataflow.Proofs.Flow.Effect
import Dataflow.Proofs.Flow.Invoke
import Dataflow.Proofs.Flow.Preservation
import Dataflow.Proofs.Flow.Completion
import Dataflow.Proofs.Flow.Schedule
import Dataflow.Proofs.Flow.Orderly
import Dataflow.Proofs.Flow.Progress
import Dataflow.Proofs.Flow.Steady
import Dataflow.Proofs.Flow.Bound
import Dataflow.Proofs.Flow.Pass
import Dataflow.Proofs.Scheduler.Completion
import Dataflow.Proofs.Graph.Board
import Dataflow.Proofs.Graph.SameWiring
import Dataflow.Proofs.Graph.Binding
import Dataflow.Proofs.Execution.Drive
import Dataflow.Proofs.Execution.Conduct
import Dataflow.Proofs.Execution.Mirrored
import Dataflow.Proofs.Scheduler.Handling
import Dataflow.Proofs.Scheduler.Steps
import Dataflow.Proofs.Scheduler.Launch
import Dataflow.Proofs.Scheduler.Course
import Dataflow.Proofs.Scheduler.Answers
import Dataflow.Proofs.Scheduler.Stopping
import Dataflow.Proofs.Scheduler.Flags
import Dataflow.Proofs.Dictionary
import Dataflow.Proofs.Value.Reading
import Dataflow.Proofs.Node.Settings
import Dataflow.Proofs.Block.Settings
import Dataflow.Proofs.Block.Form
import Dataflow.Proofs.Block.Hooks
import Dataflow.Proofs.Node.Atomic
import Dataflow.Proofs.Node.Intact
import Dataflow.Proofs.Scheduler.Rerun
import Dataflow.Proofs.Registry.UniqueName
import Dataflow.Proofs.Scheduler.Binding
import Dataflow.Proofs.Scheduler.Addressing
import Dataflow.Proofs.Stream.Backpressure
import Dataflow.Proofs.Scheduler.Leftover
import Dataflow.Proofs.Registry.Assignment
import Dataflow.Proofs.Stream.Chunk
import Dataflow.Proofs.Stream.Misplaced
import Dataflow.Proofs.Flow.Handover
import Dataflow.Proofs.Block.Likeness
import Dataflow.Proofs.Execution.Paused
import Dataflow.Proofs.Execution.Parallel
import Dataflow.Proofs.Scheduler.Following
import Dataflow.Proofs.Scheduler.Heeding
import Dataflow.Proofs.Scheduler.Pausing
import Dataflow.Proofs.Scheduler.Transparency
import Dataflow.Proofs.Stream.Answers
import Dataflow.Proofs.Stream.Splitting
import Dataflow.Proofs.Stream.Refusal
import Dataflow.Proofs.Block.Period
import Dataflow.Proofs.Flow.Watch
import Dataflow.Proofs.Flow.Bench
import Dataflow.Proofs.Flow.Transfer
import Dataflow.Proofs.Flow.Playback
import Dataflow.Proofs.Execution.Nodes
import Dataflow.Proofs.Node.Placed
import Dataflow.Proofs.Block.Faithful
import Dataflow.Proofs.Block.Keeping
import Dataflow.Proofs.Block.Configured
import Dataflow.Proofs.Node.Repetition
import Dataflow.Proofs.Execution.Invocations
import Dataflow.Proofs.Execution.Sweeps
import Dataflow.Proofs.Scheduler.Nodes
import Dataflow.Proofs.Scheduler.Containment
import Dataflow.Proofs.Scheduler.Resetting
import Dataflow.Proofs.Scheduler.Fairness
import Dataflow.Proofs.Scheduler.Shifts
import Dataflow.Proofs.Scheduler.Counting
import Dataflow.Proofs.Registry.Catalogue
import Dataflow.Proofs.Registry.RoundTrip
import Dataflow.Proofs.Watchdog.History
import Dataflow.Proofs.Scheduler.Requests
import Dataflow.Proofs.Watchdog.Reports
