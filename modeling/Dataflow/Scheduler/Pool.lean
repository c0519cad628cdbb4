import Dataflow.Scheduler.Client

/-!
# Running on several workers

The blocks are dealt out to the workers in turn. A coordinator answers the messages to the
scheduler, passes those to blocks on to the workers that own them, and watches for the end of
the run. A run goes on in steps (`Pool.step`): of the workers, the coordinator and the client, the
one whose time comes first acts. Each then waits for some time, or until a message wakes it up.
-/

namespace Dataflow

open Lifecycle (State)

/-- Whether a worker still takes part in the run. -/
inductive WorkerStatus where
  | active | returned | crashed
  deriving DecidableEq, Repr

/-- A worker with the blocks it owns. -/
structure Worker where
  group : List Nat
  inbox : List Message
  isPaused : Bool
  status : WorkerStatus
  /-- Time at which the worker acts next. -/
  nextMove : Nat
  /-- The wait after a pass without progress. -/
  backoff : Nat

/-- Who acts in a step. -/
inductive Actor where
  | client
  | coordinator
  | worker (i : Nat)

/-- A run between two steps. -/
structure Pool (β : Type) where
  scheduler : Scheduler β
  workers : List Worker
  client : Client
  /-- Blocks reported as finished. -/
  finishedBlocks : Nat
  /-- Workers that have paused their blocks. -/
  pausedWorkers : Nat
  /-- The first failure. -/
  failure : Option SchedulerError
  /-- Some worker has made progress since the coordinator last looked. -/
  hasProgressed : Bool
  now : Nat
  /-- Time at which the coordinator last noticed progress. -/
  lastProgress : Nat
  /-- Time at which the coordinator looks next, unless it gets a message. -/
  nextLook : Nat

namespace Pool

variable {β : Type}

/-- The blocks of worker `i` out of `workers`. -/
def group (blocks workers i : Nat) : List Nat :=
  (List.range blocks).filter fun b => b % workers = i

/-- A worker that has not done anything yet. It begins later than the coordinator. -/
def recruit (config : SchedulerConfig) (group : List Nat) : Worker :=
  ⟨group, [], false, .active, Clock.wake Clock.passTime 0, config.firstWait⟩

/-- A run whose threads have just been started, which has taken some time. -/
def begin (s : Scheduler β) (workers : Nat) (client : Client) : Pool β where
  scheduler := s
  workers := (List.range workers).map fun i =>
    recruit s.config (group s.graph.nodes.length workers i)
  client := client
  finishedBlocks := 0
  pausedWorkers := 0
  failure := none
  hasProgressed := false
  now := Clock.passTime
  lastProgress := 0
  nextLook :=
    if s.inbox.isEmpty then Clock.wake Clock.passTime s.config.maxBackoff else Clock.passTime

/-- Record the first failure, and enter the error state. -/
def fail (p : Pool β) (e : SchedulerError) : Pool β :=
  { p with failure := p.failure.or (some e), scheduler := p.scheduler.enter .error }

/-- Every worker has left the run. -/
def allGone (p : Pool β) : Bool := p.workers.all fun w => w.status ≠ .active

def setWorker (p : Pool β) (i : Nat) (w : Worker) : Pool β :=
  { p with workers := p.workers.set i w }

/-- Move to a state if the state machine allows it, and say so. -/
def settleIn (p : Pool β) (state : State) (text : String) : Pool β :=
  match p.scheduler.moveTo state with
  | .error _ => p
  | .ok s => { p with scheduler := s.say .info text }

variable [Block β]

/-! ### The coordinator -/

/-- Number of the worker that owns the block of a unique name; of several such blocks, the last
one counts. -/
def owner? (p : Pool β) (uniqueName : String) : Option Nat :=
  let named := p.scheduler.everyBlock.filter fun i => p.scheduler.nameOf i = uniqueName
  named.getLast?.map fun i => i % p.workers.length

/-- Answer a message to the scheduler, or pass a message to a block on to its worker. -/
def route (snapshot : PropertyMap) (p : Pool β) (m : Message) : Pool β :=
  if m.destination = "" then { p with scheduler := p.scheduler.handleOwn snapshot m }
  else
    match p.owner? m.destination with
    | none =>
      { p with scheduler := p.scheduler.reply m (.error (.destinationNotFound m.destination)) }
    | some i =>
      match p.workers[i]? with
      | some w =>
        if w.status = .active then
          p.setWorker i
            { w with inbox := w.inbox ++ [m], nextMove := min w.nextMove (Clock.wake p.now 0) }
        else { p with scheduler := p.scheduler.reply m (.error .disconnected) }
      | none => { p with scheduler := p.scheduler.reply m (.error .disconnected) }

/-- Route the messages of the inbox, in order. -/
def routeAll (p : Pool β) (snapshot : PropertyMap) : Pool β :=
  p.scheduler.inbox.foldl (route snapshot)
    { p with scheduler := { p.scheduler with inbox := [] } }

/-- Look for the end, a lost worker, progress or a stall. -/
def watch (p : Pool β) : Pool β :=
  let total := p.scheduler.graph.nodes.length
  if total ≤ p.finishedBlocks then p.settleIn .stopped s!"All {total} blocks finished"
  else
    match p.workers.findIdx? fun w => w.status ≠ .active with
    | some i => p.fail (.workerPanicked i)
    | none =>
      if p.hasProgressed then { p with hasProgressed := false, lastProgress := p.now }
      else if p.scheduler.config.isStall (p.now - p.lastProgress) then
        p.fail (.stalled (p.now - p.lastProgress) (total - p.finishedBlocks))
      else p

/-- The coordinator acts by the lifecycle state; the flag says that the run is over. -/
def coordinate (p : Pool β) (snapshot : PropertyMap) : Bool × Pool β :=
  let p := { p with nextLook := Clock.wake p.now p.scheduler.config.maxBackoff }.routeAll snapshot
  match p.scheduler.lifecycle with
  | .running => (false, p.watch)
  | .requestedPause =>
    let p := { p with lastProgress := p.now }
    (false, if p.workers.length ≤ p.pausedWorkers then p.settleIn .paused "Paused" else p)
  | .paused => (false, { p with lastProgress := p.now })
  | .requestedStop =>
    (false, if p.allGone then p.settleIn .stopped "Stopped on request" else p)
  | .stopped | .error => (p.allGone, p)
  | .idle | .initialising => (false, p.fail (.invalidState p.scheduler.lifecycle))

/-! ### The workers -/

/-- Answer the messages that were passed on to a worker. -/
def answerAll (p : Pool β) (w : Worker) : Pool β × Worker :=
  ({ p with scheduler := w.inbox.foldl (fun s m => s.dispatch w.group m) p.scheduler },
    { w with inbox := [] })

/-- Apply a change to the execution. -/
def exec (p : Pool β) (f : Execution β → Execution β) : Pool β :=
  { p with scheduler := p.scheduler.exec f }

/-- A worker makes a pass over its blocks and reports what it achieved. -/
def makePass (p : Pool β) (w : Worker) : Pool β × Worker :=
  let (report, x) := p.scheduler.runPass w.group
  let p := { p with scheduler := { p.scheduler with toExecution := x } }
  match report.failure with
  | some .crashed => (p, { w with status := .crashed })
  | some (.failed block e) =>
    ((p.fail (.blockFailed block e)).exec (·.stopAll w.group), { w with status := .returned })
  | none =>
    let finish := p.now + Clock.passTime
    ({ p with
      finishedBlocks := p.finishedBlocks + report.newlyFinished
      hasProgressed := p.hasProgressed || report.progressed },
      if report.progressed then
        { w with nextMove := finish, backoff := p.scheduler.config.firstWait }
      else
        { w with
          nextMove := Clock.wake finish w.backoff
          backoff := p.scheduler.config.nextWait w.backoff })

/-- A worker that has nothing to do waits. -/
def rest (p : Pool β) (w : Worker) : Pool β × Worker :=
  (p, { w with nextMove := Clock.wake p.now p.scheduler.config.maxBackoff })

/-- A worker acts by the lifecycle state. -/
def workerAct (p : Pool β) (w : Worker) : Pool β × Worker :=
  match p.scheduler.lifecycle with
  | .running =>
    let (p, w) :=
      if w.isPaused then
        ({ p.exec (·.resumeAll w.group) with pausedWorkers := p.pausedWorkers - 1 },
          { w with isPaused := false })
      else (p, w)
    if p.scheduler.allFinished w.group then p.rest w else p.makePass w
  | .requestedPause | .paused =>
    if w.isPaused then p.rest w
    else
      { p.exec (·.pauseAll w.group) with pausedWorkers := p.pausedWorkers + 1 }.rest
        { w with isPaused := true }
  | .requestedStop | .stopped | .error =>
    (p.exec (·.stopAll w.group), { w with status := .returned })
  | .idle | .initialising => p.rest w

/-- One iteration of worker `i`: answer messages, then act. -/
def work (p : Pool β) (i : Nat) : Pool β :=
  match p.workers[i]? with
  | none => p
  | some w =>
    if w.status ≠ .active then p
    else
      let (p, w) := p.answerAll w
      let (p, w) := p.workerAct w
      p.setWorker i w

/-! ### The run -/

/-- The result of a run that is over. Workers that crashed count as failures then. -/
def result (p : Pool β) : Except SchedulerError Unit × Scheduler β :=
  let lost := p.workers.zipIdx.filter fun (w, _) => w.status = .crashed
  let p := lost.foldl (fun p (_, i) => p.fail (.workerPanicked i)) p
  match p.failure with
  | some e => (.error e, p.scheduler)
  | none =>
    if p.scheduler.lifecycle = .stopped then (.ok (), p.scheduler)
    else (.error (.invalidState p.scheduler.lifecycle), p.scheduler)

/-- Let the client act. -/
def meet (p : Pool β) : Pool β :=
  let (client, scheduler) := p.client.move p.scheduler p.now
  { p with client, scheduler }

/-- A message wakes the coordinator up. -/
def alert (p : Pool β) : Pool β :=
  if p.scheduler.inbox.isEmpty then p
  else { p with nextLook := min p.nextLook (Clock.wake p.now 0) }

/-- The worker that acts next and when, if it is earlier than `time`; of several, the first. -/
def earliest (time : Nat) (workers : List Worker) : Option (Nat × Nat) :=
  workers.zipIdx.foldl (fun best (w, i) =>
    if w.status = .active && w.nextMove < (best.map Prod.fst).getD time then some (w.nextMove, i)
    else best) none

/-- Who acts next, and when. At the same time, the client comes first, then the coordinator. -/
def next (p : Pool β) : Nat × Actor :=
  let first :=
    if p.client.isDue p.nextLook then (p.client.nextMove.getD p.nextLook, Actor.client)
    else (p.nextLook, Actor.coordinator)
  match earliest first.1 p.workers with
  | some (time, i) => (time, .worker i)
  | none => first

/-- Let the one act whose time comes first; the flag says that the run is over. -/
def step (p : Pool β) (snapshot : PropertyMap) : Bool × Pool β :=
  let (time, actor) := p.next
  let p := { p with now := max p.now time }
  match actor with
  | .client => (false, p.meet.alert)
  | .coordinator => p.coordinate snapshot
  | .worker i => (false, (p.work i).alert)

/-- Take steps until the run is over; none if `fuel` steps are not enough. -/
def run (snapshot : PropertyMap) : Nat → Pool β → Option (Except SchedulerError Unit × Scheduler β)
  | 0, _ => none
  | fuel + 1, p =>
    match p.step snapshot with
    | (true, p) => some p.result
    | (false, p) => p.run snapshot fuel

end Pool

end Dataflow
