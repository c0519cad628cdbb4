import Dataflow.Clock
import Dataflow.Execution.Pass
import Dataflow.Text.Duration

/-!
# Scheduler

A scheduler owns a graph and runs it, on one thread or spread over several workers. It has a
lifecycle state, and posts a reply to each message of its inbox.
-/

namespace Dataflow

open Lifecycle (State TransitionError)

/-- How blocks are spread over threads. -/
inductive ExecutionPolicy where
  | singleThreaded
  /-- No workers asked for means as many as the machine can run at once. -/
  | workers (n : Nat)
  deriving DecidableEq, Repr

/-- Choices for running. Times are in microseconds. -/
structure SchedulerConfig where
  policy : ExecutionPolicy
  /-- First wait after a pass without progress. -/
  minBackoff : Nat
  /-- Longest wait. -/
  maxBackoff : Nat
  /-- Time without progress after which a run fails. -/
  stallTimeout : Option Nat
  /-- Duration of a work call from which on it is reported. -/
  watchdogThreshold : Option Nat
  deriving DecidableEq, Repr

namespace SchedulerConfig

def default : SchedulerConfig := ⟨.singleThreaded, 50, 5000, some 5000000, some 5000000⟩

def multiThreaded (workers : Nat) : SchedulerConfig := { default with policy := .workers workers }

/-- The wait after the first pass without progress. -/
def firstWait (config : SchedulerConfig) : Nat := min config.minBackoff config.maxBackoff

/-- The wait after the next pass without progress. -/
def nextWait (config : SchedulerConfig) (wait : Nat) : Nat := min (wait * 2) config.maxBackoff

/-- Whether a time without progress is too long. -/
def isStall (config : SchedulerConfig) (time : Nat) : Bool :=
  match config.stallTimeout with
  | none => false
  | some timeout => timeout < time

end SchedulerConfig

/-- Why a run failed. -/
inductive SchedulerError where
  | graph (e : GraphError)
  | lifecycle (e : TransitionError)
  | blockFailed (block : String) (source : WorkError)
  /-- The duration is in microseconds. -/
  | stalled (duration unfinished : Nat)
  | workerPanicked (worker : Nat)
  | spawn (reason : String)
  | invalidState (state : State)
  deriving DecidableEq, Repr

def SchedulerError.message : SchedulerError → String
  | graph e => e.message
  | lifecycle e => e.message
  | blockFailed block source => s!"[{block}] {source.message}"
  | stalled duration unfinished =>
    s!"No block made progress for {Text.duration duration} while {unfinished} blocks remain " ++
      "unfinished"
  | workerPanicked worker => s!"Worker thread {worker} panicked"
  | spawn reason => s!"Failed to spawn thread: {reason}"
  | invalidState state => s!"Scheduler cannot run from state {state.name}"

/-- The kind of an error. -/
def SchedulerError.kind : SchedulerError → String
  | graph e => Failure.within "Graph" e
  | lifecycle e => Failure.within "Lifecycle" e
  | blockFailed _ _ => "BlockFailed"
  | stalled _ _ => "Stalled"
  | workerPanicked _ => "WorkerPanicked"
  | spawn _ => "Spawn"
  | invalidState _ => "InvalidState"

instance : Failure SchedulerError := ⟨SchedulerError.kind, SchedulerError.message⟩

/-- A graph being executed, with all that its scheduler adds. -/
structure Scheduler (β : Type) extends Execution β where
  config : SchedulerConfig
  lifecycle : State
  /-- Every lifecycle state entered, in order. -/
  entered : Array State
  /-- Replies that no client has fetched yet. -/
  replies : Array Message

namespace Scheduler

variable {β : Type}

/-- A scheduler that has not run yet. -/
def new (graph : Graph β) (config : SchedulerConfig) (inboxId : Nat) : Scheduler β where
  graph := graph
  inboxId := inboxId
  inbox := []
  trace := #[]
  journal := #[]
  log := #[]
  config := config
  lifecycle := .idle
  entered := #[]
  replies := #[]

/-- Change the execution. -/
def exec (s : Scheduler β) (f : Execution β → Execution β) : Scheduler β :=
  { s with toExecution := f s.toExecution }

/-- Put a line into the log. -/
def say (s : Scheduler β) (level : LogLevel) (text : String) : Scheduler β :=
  s.exec fun x => x.addLine level text

/-- Number of threads of a run on a machine that runs `parallelism` threads at once. -/
def threadCount (s : Scheduler β) (parallelism : Nat) : Nat :=
  let blocks := max s.graph.nodes.length 1
  match s.config.policy with
  | .singleThreaded => 1
  | .workers 0 => min parallelism blocks
  | .workers n => min n blocks

/-! ### Lifecycle -/

/-- Enter a state, and log the change. -/
def enter (s : Scheduler β) (state : State) : Scheduler β :=
  ({ s with lifecycle := state, entered := s.entered.push state }).say .debug
    s!"Lifecycle {s.lifecycle.name} -> {state.name}"

/-- Move to a state, which the state machine may refuse. -/
def moveTo (s : Scheduler β) (state : State) : Except TransitionError (Scheduler β) :=
  match s.lifecycle.transition state with
  | .error e => .error e
  | .ok _ => .ok (if s.lifecycle = state then s else s.enter state)

/-! ### Messages -/

/-- Post the reply to a message. -/
def reply (s : Scheduler β) (m : Message) (data : Except MessageError PropertyMap) :
    Scheduler β :=
  let s := match data with
    | .ok _ => s
    | .error e => s.say .warn s!"{m.text} failed: {e.message}"
  { s with replies := s.replies.push (m.reply data) }

/-- The current state as a payload. -/
def stateMap (s : Scheduler β) : PropertyMap := [("state", .string s.lifecycle.name)]

/-- The state that a message asks for. -/
def requestedState (m : Message) : Except MessageError State := do
  let payload ← m.data
  let some v := Dictionary.get? payload "state" | throw (.invalidPayload "missing 'state'")
  let name ← v.asString.mapError fun e => .invalidPayload e.message
  let state ← (State.ofName name).mapError .lifecycle
  if state.isRequestable then return state
  else throw (.invalidPayload s!"state {state.name} cannot be requested")

/-- Try to go to the state that a message asks for. -/
def requestState (s : Scheduler β) (m : Message) : Except MessageError PropertyMap × Scheduler β :=
  match requestedState m with
  | .error e => (.error e, s)
  | .ok state =>
    match s.moveTo state with
    | .error e => (.error (.lifecycle e), s)
    | .ok s' =>
      let s' :=
        if s.lifecycle = state then s'
        else s'.say .info s!"Lifecycle change requested: {s.lifecycle.name} -> {state.name}"
      (.ok s'.stateMap, s')

/-- Answer a message addressed to the scheduler. `snapshot` describes the graph as it was when
the run began. -/
def answerOwn (s : Scheduler β) (snapshot : PropertyMap) (m : Message) :
    Except MessageError PropertyMap × Scheduler β :=
  match m.property, m.command with
  | "LifecycleState", .get => (.ok s.stateMap, s)
  | "LifecycleState", .set => s.requestState m
  | "GraphInspect", .get => (.ok snapshot, s)
  | "Echo", _ | "Heartbeat", _ => (m.data, s)
  | "LifecycleState", command | "GraphInspect", command =>
    (.error (.unsupportedCommand command m.property), s)
  | _, _ => (.error (.propertyNotFound "scheduler" m.property), s)

/-- Handle a message addressed to the scheduler. -/
def handleOwn (s : Scheduler β) (snapshot : PropertyMap) (m : Message) : Scheduler β :=
  let (data, s) := s.answerOwn snapshot m
  s.reply m data

variable [Block β]

/-- Handle a message to a block of a group. -/
def dispatch (s : Scheduler β) (group : List Nat) (m : Message) : Scheduler β :=
  let (data, x) := s.toExecution.answerFrom group m
  ({ s with toExecution := x }).reply m data

/-- Handle a message to the scheduler or to any block. -/
def handle (s : Scheduler β) (snapshot : PropertyMap) (m : Message) : Scheduler β :=
  if m.destination = "" then s.handleOwn snapshot m else s.dispatch s.everyBlock m

/-- Handle all messages of the inbox, in order. -/
def drain (s : Scheduler β) (snapshot : PropertyMap) : Scheduler β :=
  s.inbox.foldl (fun s m => s.handle snapshot m) { s with inbox := [] }

/-- Handle a message once the run is over: queries to the scheduler are answered, anything else
is rejected. -/
def reject (snapshot : PropertyMap) (s : Scheduler β) (m : Message) : Scheduler β :=
  if m.destination = "" && m.command ≠ .set then s.handleOwn snapshot m
  else
    let destination := if m.destination = "" then "scheduler" else m.destination
    s.reply m (.error (.notRunning destination s.lifecycle))

/-- Handle what is left in the inbox once the run is over, so that it does not reach the next
run. -/
def rejectPending (s : Scheduler β) (snapshot : PropertyMap) : Scheduler β :=
  s.inbox.foldl (reject snapshot) { s with inbox := [] }

end Scheduler

end Dataflow
