import Dataflow.Scheduler.Pool
import Dataflow.Scheduler.Single

/-!
# Running a graph

A run validates the graph, binds fresh streams, starts every block, and goes on until all blocks
have finished, a stop is requested, or something fails. A scheduler that has stopped or failed
can run again. Every thread that a run needs, also the one of the watchdog, is taken to start, so
that no run ends with `SchedulerError.spawn`.
-/

namespace Dataflow

open Lifecycle (State)

namespace Scheduler

variable {β : Type} [Block β]

/-- Start the blocks of a group in order, up to the first that fails; gives its position. -/
def startAll (x : Execution β) : List Nat → Option (Nat × WorkError) × Execution β
  | [] => (none, x)
  | i :: rest =>
    match x.start i with
    | (.ok (), x) => startAll x rest
    | (.error e, x) => (some (i, e), x)

/-- Finish the running blocks of a group. -/
def abandon (x : Execution β) (group : List Nat) : Execution β :=
  group.foldl (fun x i =>
    if (x.graph.node? i).any fun n => n.state = .running then x.finish i .failed else x) x

/-- Validate and bind the graph, and start its blocks; if one fails, those already started are
finished. -/
def initialise (s : Scheduler β) : Except SchedulerError PropertyMap × Scheduler β :=
  match s.graph.validate with
  | .error e => (.error (.graph e), s)
  | .ok () =>
    let s := s.exec fun x => { x with graph := x.graph.bind }
    match startAll s.toExecution s.everyBlock with
    | (some (i, e), x) =>
      let s := { s with toExecution := abandon x x.everyBlock }
      (.error (.blockFailed (x.nameOf i) e), s)
    | (none, x) =>
      let s := { s with toExecution := x }
      let text := s!"Initialised {x.graph.nodes.length} blocks and " ++
        s!"{x.graph.connections.length} connections"
      (.ok x.graph.inspect, s.say .info text)

/-- Move from a resting state to the state in which the graph is initialised. -/
def prepare (s : Scheduler β) : Except SchedulerError (Scheduler β) :=
  match s.lifecycle with
  | .idle => (s.moveTo .initialising).mapError .lifecycle
  | .stopped | .error =>
    (s.moveTo .idle >>= fun s => s.moveTo .initialising).mapError .lifecycle
  | state => .error (.invalidState state)

/-- Answer what a loop has left in the inbox. A loop in which a block has crashed has not come to
an end: the crash unwinds the calling thread out of the run, and nobody answers. The error stands
for this; the caller gets no result. -/
def answerRest (s : Scheduler β) (snapshot : PropertyMap) : Except SchedulerError Unit → Scheduler β
  | .error (.workerPanicked _) => s
  | _ => s.rejectPending snapshot

/-- Run by the policy of the scheduler until the run is over, and answer what is left in the
inbox. -/
def runByPolicy (s : Scheduler β) (snapshot : PropertyMap) (parallelism fuel : Nat)
    (client : Client) : Option (Except SchedulerError Unit × Scheduler β) :=
  match s.config.policy with
  | .singleThreaded =>
    ((Loop.begin s client).run snapshot fuel).map fun (result, s) =>
      (result, s.answerRest snapshot result)
  | .workers _ =>
    ((Pool.begin s (max (s.threadCount parallelism) 1) client).run snapshot fuel).map
      fun (result, s) => (result, s.rejectPending snapshot)

/-- Run the graph to its end, driven by a client. The result is none if the run does not end
within `fuel` turns. -/
def run (s : Scheduler β) (parallelism fuel : Nat) (client : Client) :
    Option (Except SchedulerError Unit × Scheduler β) :=
  match s.prepare with
  | .error e => some (.error e, s)
  | .ok s =>
    match s.initialise with
    | (.error e, s) =>
      some (.error e, (s.say .error s!"Initialisation failed: {e.message}").enter .error)
    | (.ok snapshot, s) =>
      match s.moveTo .running with
      | .error e => some (.error (.lifecycle e), s)
      | .ok s => s.runByPolicy snapshot parallelism fuel client

end Scheduler

end Dataflow
