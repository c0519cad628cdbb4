import Dataflow.Scheduler.Client

/-!
# Running on one thread

The run is a loop of turns (`Loop.turn`). A turn handles the messages of the inbox and then acts
by the lifecycle state: it makes a pass, pauses, waits or ends the run. Time goes by with each
pass and while the loop waits, and a client on another thread acts when its time comes: a message
of its cuts a wait short.
-/

namespace Dataflow

open Lifecycle (State)

/-- A run between two turns. -/
structure Loop (β : Type) where
  scheduler : Scheduler β
  client : Client
  now : Nat
  lastProgress : Nat
  /-- The wait after a pass without progress. -/
  backoff : Nat
  isPaused : Bool

/-- What follows a turn. -/
inductive Turn (β : Type) where
  | next (l : Loop β)
  | ended (result : Except SchedulerError Unit) (s : Scheduler β)

namespace Loop

variable {β : Type}

def begin (s : Scheduler β) (client : Client) : Loop β :=
  ⟨s, client, 0, 0, s.config.firstWait, false⟩

/-- Let the client act if its time has come. -/
def meet (l : Loop β) : Loop β :=
  if l.client.isDue l.now then
    let (client, scheduler) := l.client.move l.scheduler l.now
    { l with client, scheduler }
  else l

/-- Let the client act if its time comes before a deadline, at that time. -/
def meetBefore (l : Loop β) (deadline : Nat) : Loop β :=
  if l.client.isDue deadline then
    { l with now := max l.now (l.client.nextMove.getD l.now) }.meet
  else l

/-- Change the scheduler. -/
def update (l : Loop β) (f : Scheduler β → Scheduler β) : Loop β :=
  { l with scheduler := f l.scheduler }

variable [Block β]

/-- Handle the first message of the inbox, if there is one. -/
def handleFirst? (l : Loop β) (snapshot : PropertyMap) : Option (Loop β) :=
  match l.scheduler.inbox with
  | [] => none
  | m :: rest => some (l.update fun s => ({ s with inbox := rest }).handle snapshot m)

/-- Wait for a message, at most for a time, and handle the first that is there. -/
def wait (l : Loop β) (snapshot : PropertyMap) (time : Nat) : Loop β :=
  match l.handleFirst? snapshot with
  | some l => l
  | none =>
    let deadline := Clock.wake l.now time
    let l := l.meetBefore deadline
    (l.handleFirst? snapshot).getD { l with now := deadline }

/-- End the run in a state, which the state machine may refuse. -/
def endIn (s : Scheduler β) (state : State) (text : String) : Turn β :=
  match s.moveTo state with
  | .error e => .ended (.error (.lifecycle e)) s
  | .ok s => .ended (.ok ()) (s.say .info text)

/-- End the run with an error: stop all blocks. -/
def failWith (s : Scheduler β) (e : SchedulerError) : Turn β :=
  .ended (.error e) ((s.enter .error).exec fun x => x.stopAll x.everyBlock)

/-- Resume the blocks if they are paused. -/
def resume (l : Loop β) : Loop β :=
  if l.isPaused then
    { l with
      isPaused := false
      lastProgress := l.now
      scheduler := (l.scheduler.exec fun x => x.resumeAll x.everyBlock).say .info "Resumed" }
  else l

/-- Go on after a pass. A crash unwinds the calling thread, which is the only worker, and leaves the
run where it stands; the error stands for it. -/
def afterPass (l : Loop β) (snapshot : PropertyMap) (report : PassReport) : Turn β :=
  let s := l.scheduler
  match report.failure with
  | some (.failed block e) => failWith s (.blockFailed block e)
  | some .crashed => .ended (.error (.workerPanicked 0)) s
  | none =>
    if s.allFinished s.everyBlock then
      endIn s .stopped s!"All {s.graph.nodes.length} blocks finished"
    else if report.progressed then
      .next { l with backoff := s.config.firstWait, lastProgress := l.now }
    else if s.config.isStall (l.now - l.lastProgress) then
      failWith s (.stalled (l.now - l.lastProgress) (s.unfinished s.everyBlock))
    else
      .next ({ l with backoff := s.config.nextWait l.backoff }.wait snapshot l.backoff)

/-- Make a pass over all blocks. -/
def makePass (l : Loop β) : PassReport × Loop β :=
  let (report, x) := l.scheduler.runPass l.scheduler.everyBlock
  let now := l.now + Clock.passTime
  (report, { l with now, scheduler := { l.scheduler with toExecution := x } })

/-- Act by the lifecycle state. -/
def act (l : Loop β) (snapshot : PropertyMap) : Turn β :=
  let s := l.scheduler
  match s.lifecycle with
  | .running =>
    let (report, l) := l.resume.makePass
    l.afterPass snapshot report
  | .requestedPause =>
    let l := { l.update fun s => s.exec fun x => x.pauseAll x.everyBlock with isPaused := true }
    match l.scheduler.moveTo .paused with
    | .error e => .ended (.error (.lifecycle e)) l.scheduler
    | .ok s => .next { l with scheduler := s.say .info "Paused" }
  | .paused => .next ({ l with lastProgress := l.now }.wait snapshot s.config.maxBackoff)
  | .requestedStop =>
    endIn (s.exec fun x => x.stopAll x.everyBlock) .stopped "Stopped on request"
  | .stopped => .ended (.ok ()) s
  | .idle | .initialising | .error =>
    .ended (.error (.invalidState s.lifecycle)) (s.exec fun x => x.stopAll x.everyBlock)

/-- One turn: handle all messages, then act. -/
def turn (l : Loop β) (snapshot : PropertyMap) : Turn β :=
  (l.meet.update fun s => s.drain snapshot).act snapshot

/-- Take turns until the run ends; none if `fuel` turns are not enough. -/
def run (snapshot : PropertyMap) : Nat → Loop β → Option (Except SchedulerError Unit × Scheduler β)
  | 0, _ => none
  | fuel + 1, l =>
    match l.turn snapshot with
    | .ended result s => some (result, s)
    | .next l => l.run snapshot fuel

end Loop

end Dataflow
