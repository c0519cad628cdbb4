import Dataflow.Proofs.Execution.Past
import Dataflow.Proofs.Scheduler.Outcome

/-!
# The past of a scheduler

A run on one thread does not look back: a scheduler with a `Past` runs just as it would without one,
and adds to it what it would have added to nothing (`Scheduler.run_withPast`). Only a client reads
the replies, so this is about runs without one.
-/

namespace Dataflow

open Lifecycle (State)

/-- The execution with its graph bound. -/
def Execution.bound {β : Type} (x : Execution β) : Execution β := { x with graph := x.graph.bind }

namespace Scheduler

variable {β : Type} (p : Past) (s : Scheduler β)

/-- The scheduler after a past. -/
def withPast : Scheduler β :=
  { s with
    toExecution := s.toExecution.withPast p
    entered := p.entered ++ s.entered
    replies := p.replies ++ s.replies }

@[simp] theorem toExecution_withPast : (s.withPast p).toExecution = s.toExecution.withPast p := rfl

@[simp] theorem lifecycle_withPast : (s.withPast p).lifecycle = s.lifecycle := rfl

@[simp] theorem config_withPast : (s.withPast p).config = s.config := rfl

theorem exec_withPast {f : Execution β → Execution β}
    (hf : ∀ x, f (x.withPast p) = (f x).withPast p) :
    (s.withPast p).exec f = (s.exec f).withPast p := by
  simp only [exec, toExecution_withPast, hf]
  rfl

@[simp] theorem say_withPast (level : LogLevel) (text : String) :
    (s.withPast p).say level text = (s.say level text).withPast p :=
  exec_withPast p s fun x => Execution.addLine_withPast p x level text

@[simp] theorem enter_withPast (state : State) :
    (s.withPast p).enter state = (s.enter state).withPast p := by
  have h : ({ s.withPast p with
      lifecycle := state
      entered := (s.withPast p).entered.push state } : Scheduler β) =
      ({ s with
        lifecycle := state
        entered := s.entered.push state } : Scheduler β).withPast p := by
    simp only [withPast, Array.append_push]
  rw [enter, h, say_withPast]
  rfl

theorem moveTo_withPast (state : State) :
    (s.withPast p).moveTo state = (s.moveTo state).map (withPast p) := by
  simp only [moveTo, lifecycle_withPast]
  cases s.lifecycle.transition state with
  | error e => rfl
  | ok _ => by_cases h : s.lifecycle = state <;> simp [h, Except.map]

/-! ### Messages -/

@[simp] theorem reply_withPast (m : Message) (data : Except MessageError PropertyMap) :
    (s.withPast p).reply m data = (s.reply m data).withPast p := by
  cases data with
  | ok data => simp only [reply, withPast, Array.append_push]
  | error e =>
    simp only [reply, say_withPast]
    simp only [withPast, Array.append_push]

theorem requestState_withPast (m : Message) :
    (s.withPast p).requestState m = (s.requestState m).map id (withPast p) := by
  simp only [requestState, moveTo_withPast, lifecycle_withPast]
  split
  · rfl
  next state _ =>
    cases s.moveTo state with
    | error e => rfl
    | ok s' => by_cases h : s.lifecycle = state <;> simp [h, Except.map, stateMap]

theorem answerOwn_withPast (snapshot : PropertyMap) (m : Message) :
    (s.withPast p).answerOwn snapshot m = (s.answerOwn snapshot m).map id (withPast p) := by
  simp only [answerOwn]
  split
  case h_2 => exact requestState_withPast p s m
  all_goals rfl

@[simp] theorem handleOwn_withPast (snapshot : PropertyMap) (m : Message) :
    (s.withPast p).handleOwn snapshot m = (s.handleOwn snapshot m).withPast p := by
  simp only [handleOwn, answerOwn_withPast, Prod.map, id, reply_withPast]

@[simp] theorem reject_withPast (snapshot : PropertyMap) (m : Message) :
    reject snapshot (s.withPast p) m = (reject snapshot s m).withPast p := by
  simp only [reject]
  split
  · exact handleOwn_withPast p s snapshot m
  · exact reply_withPast p s m _

theorem rejectPending_withPast (snapshot : PropertyMap) :
    (s.withPast p).rejectPending snapshot = (s.rejectPending snapshot).withPast p := by
  show s.inbox.foldl (reject snapshot) (withPast p { s with inbox := [] }) = _
  exact List.foldl_hom (withPast p) fun s m => reject_withPast p s snapshot m

theorem answerRest_withPast (snapshot : PropertyMap) (result : Except SchedulerError Unit) :
    (s.withPast p).answerRest snapshot result = (s.answerRest snapshot result).withPast p := by
  unfold answerRest
  split
  · rfl
  · exact rejectPending_withPast p s snapshot

variable [Block β]

@[simp] theorem dispatch_withPast (group : List Nat) (m : Message) :
    (s.withPast p).dispatch group m = (s.dispatch group m).withPast p := by
  simp only [dispatch, toExecution_withPast, Execution.answerFrom_withPast, Prod.map, id]
  exact reply_withPast p { s with toExecution := (s.answerFrom group m).2 } m _

@[simp] theorem handle_withPast (snapshot : PropertyMap) (m : Message) :
    (s.withPast p).handle snapshot m = (s.handle snapshot m).withPast p := by
  simp only [handle]
  split
  · exact handleOwn_withPast p s snapshot m
  · exact dispatch_withPast p s s.everyBlock m

@[simp] theorem drain_withPast (snapshot : PropertyMap) :
    (s.withPast p).drain snapshot = (s.drain snapshot).withPast p := by
  show s.inbox.foldl (fun s m => s.handle snapshot m) (withPast p { s with inbox := [] }) = _
  exact List.foldl_hom (withPast p) fun s m => handle_withPast p s snapshot m

theorem exec_stopAll_withPast : (s.withPast p).exec (fun x => x.stopAll x.everyBlock) =
    (s.exec fun x => x.stopAll x.everyBlock).withPast p :=
  exec_withPast p s fun x => Execution.stopAll_withPast p x x.everyBlock

/-! ### Beginning a run -/

omit [Block β] in
theorem prepare_withPast : (s.withPast p).prepare = s.prepare.map (withPast p) := by
  have hreset : ((s.withPast p).moveTo .idle >>= fun s => s.moveTo .initialising) =
      (s.moveTo .idle >>= fun s => s.moveTo .initialising).map (withPast p) := by
    rw [moveTo_withPast]
    cases s.moveTo .idle with
    | error e => rfl
    | ok s' => exact moveTo_withPast p s' .initialising
  simp only [prepare, lifecycle_withPast, moveTo_withPast p s .initialising, hreset]
  split
  · cases s.moveTo .initialising <;> rfl
  · cases s.moveTo .idle >>= fun s => s.moveTo .initialising <;> rfl
  · cases s.moveTo .idle >>= fun s => s.moveTo .initialising <;> rfl
  · rfl

/-- What is left to do once the blocks have been started, or one of them has failed to. -/
def concludeStart (s : Scheduler β) :
    Option (Nat × WorkError) × Execution β → Except SchedulerError PropertyMap × Scheduler β
  | (some (i, e), x) =>
    (.error (.blockFailed (x.nameOf i) e), { s with toExecution := abandon x x.everyBlock })
  | (none, x) =>
    (.ok x.graph.inspect, ({ s with toExecution := x }).say .info
      (s!"Initialised {x.graph.nodes.length} blocks and " ++
        s!"{x.graph.connections.length} connections"))

/-- Graphs that are valid are bound, and their blocks started. -/
theorem initialise_eq (h : s.graph.validate = .ok ()) :
    s.initialise = s.concludeStart (startAll s.toExecution.bound s.everyBlock) := by
  have hstart : startAll (s.exec fun x => { x with graph := x.graph.bind }).toExecution
      (s.exec fun x => { x with graph := x.graph.bind }).everyBlock =
        startAll s.toExecution.bound s.everyBlock := rfl
  simp only [initialise, h]
  rw [hstart]
  rcases startAll s.toExecution.bound s.everyBlock with ⟨_ | _, x⟩ <;> rfl

theorem concludeStart_withPast (outcome : Option (Nat × WorkError) × Execution β) :
    (s.withPast p).concludeStart (outcome.map id (Execution.withPast p)) =
      (s.concludeStart outcome).map id (withPast p) := by
  rcases outcome with ⟨_ | ⟨i, e⟩, x⟩
  · have hsay := say_withPast p { s with toExecution := x } .info
      (s!"Initialised {x.graph.nodes.length} blocks and " ++
        s!"{x.graph.connections.length} connections")
    exact Prod.ext rfl hsay
  · have heach : (x.withPast p).everyBlock = x.everyBlock := rfl
    have hexec := Execution.abandon_withPast p x x.everyBlock
    simp only [Prod.map, id, concludeStart, heach, hexec]
    rfl

theorem initialise_withPast : (s.withPast p).initialise = s.initialise.map id (withPast p) := by
  cases hvalid : s.graph.validate with
  | error e =>
    have hvalid' : (s.withPast p).graph.validate = .error e := hvalid
    simp only [initialise, hvalid, hvalid']
    rfl
  | ok =>
    have hvalid' : (s.withPast p).graph.validate = .ok () := hvalid
    have hstart := Execution.startAll_withPast p s.toExecution.bound s.everyBlock
    rw [initialise_eq s hvalid, initialise_eq (s.withPast p) hvalid', ← concludeStart_withPast]
    exact congrArg (s.withPast p).concludeStart hstart

end Scheduler

open Scheduler

/-! ### Turns -/

namespace Loop

variable {β : Type}

/-- The loop after a past. -/
def withPast (p : Past) (l : Loop β) : Loop β := { l with scheduler := l.scheduler.withPast p }

/-- Nobody drives the run. -/
def IsAlone (l : Loop β) : Prop := l.client = .absent

end Loop

namespace Turn

variable {β : Type}

/-- The turn after a past. -/
def withPast (p : Past) : Turn β → Turn β
  | next l => .next (l.withPast p)
  | ended result s => .ended result (s.withPast p)

/-- Nobody drives what is left of the run. -/
def IsAlone : Turn β → Prop
  | next l => l.IsAlone
  | ended _ _ => True

end Turn

namespace Loop

variable {β : Type} (p : Past) {l : Loop β}

@[simp] theorem scheduler_withPast : (l.withPast p).scheduler = l.scheduler.withPast p := rfl

theorem update_withPast {f : Scheduler β → Scheduler β}
    (hf : ∀ s, f (s.withPast p) = (f s).withPast p) :
    (l.withPast p).update f = (l.update f).withPast p := by
  simp only [update, scheduler_withPast, hf]
  rfl

theorem IsAlone.meet (h : l.IsAlone) : l.meet = l := by
  have hdue : l.client.isDue l.now = false := by rw [h]; rfl
  simp [Loop.meet, hdue]

theorem IsAlone.meetBefore (h : l.IsAlone) (deadline : Nat) : l.meetBefore deadline = l := by
  have hdue : l.client.isDue deadline = false := by rw [h]; rfl
  simp [Loop.meetBefore, hdue]

theorem endIn_withPast (s : Scheduler β) (state : State) (text : String) :
    endIn (s.withPast p) state text = (endIn s state text).withPast p := by
  simp only [endIn, moveTo_withPast]
  cases s.moveTo state with
  | error e => rfl
  | ok s' => simp only [Except.map, say_withPast, Turn.withPast]

theorem isAlone_endIn (s : Scheduler β) (state : State) (text : String) :
    (endIn s state text).IsAlone := by
  simp only [endIn]
  split <;> trivial

variable [Block β]

theorem failWith_withPast (s : Scheduler β) (e : SchedulerError) :
    failWith (s.withPast p) e = (failWith s e).withPast p := by
  simp only [failWith, enter_withPast, exec_stopAll_withPast, Turn.withPast]

theorem resume_withPast : (l.withPast p).resume = l.resume.withPast p := by
  have hresume := exec_withPast p l.scheduler (f := fun x => x.resumeAll x.everyBlock)
    fun x => Execution.resumeAll_withPast p x x.everyBlock
  have hpaused : (l.withPast p).isPaused = l.isPaused := rfl
  simp only [resume, scheduler_withPast, hresume, say_withPast, hpaused]
  split <;> rfl

theorem makePass_withPast : (l.withPast p).makePass = l.makePass.map id (withPast p) := by
  simp only [makePass, scheduler_withPast, toExecution_withPast, Execution.runPass_withPast]
  rfl

theorem handleFirst_withPast (snapshot : PropertyMap) :
    (l.withPast p).handleFirst? snapshot = (l.handleFirst? snapshot).map (withPast p) := by
  have hinbox : (l.withPast p).scheduler.inbox = l.scheduler.inbox := rfl
  simp only [handleFirst?, hinbox]
  split
  · rfl
  next m rest _ =>
    have hhandle : ∀ s : Scheduler β, ({ s.withPast p with inbox := rest }).handle snapshot m =
        (({ s with inbox := rest } : Scheduler β).handle snapshot m).withPast p := fun s =>
      handle_withPast p { s with inbox := rest } snapshot m
    exact congrArg some (update_withPast p hhandle)

/-- A wait with nobody to end it. -/
theorem IsAlone.wait_eq (h : l.IsAlone) (snapshot : PropertyMap) (time : Nat) :
    l.wait snapshot time =
      (l.handleFirst? snapshot).getD { l with now := Clock.wake l.now time } := by
  simp only [wait, h.meetBefore]
  cases l.handleFirst? snapshot <;> rfl

theorem IsAlone.wait_withPast (h : l.IsAlone) (snapshot : PropertyMap) (time : Nat) :
    (l.withPast p).wait snapshot time = (l.wait snapshot time).withPast p := by
  have hpast : (l.withPast p).IsAlone := h
  rw [hpast.wait_eq, h.wait_eq, handleFirst_withPast]
  cases l.handleFirst? snapshot <;> rfl

theorem IsAlone.wait (h : l.IsAlone) (snapshot : PropertyMap) (time : Nat) :
    (l.wait snapshot time).IsAlone := by
  rw [h.wait_eq, handleFirst?]
  split <;> exact h

theorem IsAlone.afterPass_withPast (h : l.IsAlone) (snapshot : PropertyMap) (report : PassReport) :
    (l.withPast p).afterPass snapshot report = (l.afterPass snapshot report).withPast p := by
  have hdone : (l.withPast p).scheduler.allFinished (l.withPast p).scheduler.everyBlock =
      l.scheduler.allFinished l.scheduler.everyBlock := rfl
  have htime : (l.withPast p).now - (l.withPast p).lastProgress = l.now - l.lastProgress := rfl
  have hleft : (l.withPast p).scheduler.unfinished (l.withPast p).scheduler.everyBlock =
      l.scheduler.unfinished l.scheduler.everyBlock := rfl
  have hlength : (l.withPast p).scheduler.graph.nodes.length = l.scheduler.graph.nodes.length := rfl
  have hconfig : (l.withPast p).scheduler.config = l.scheduler.config := rfl
  simp only [afterPass, hdone, htime, hleft, hlength, hconfig]
  cases report.failure with
  | some failure =>
    cases failure with
    | failed block e => exact failWith_withPast p l.scheduler _
    | crashed => rfl
  | none =>
    dsimp only
    split
    · exact endIn_withPast p l.scheduler .stopped _
    split
    · rfl
    split
    · exact failWith_withPast p l.scheduler _
    · have halone : IsAlone { l with backoff := l.scheduler.config.nextWait l.backoff } := h
      exact congrArg Turn.next (halone.wait_withPast p snapshot l.backoff)

theorem isAlone_failWith (s : Scheduler β) (e : SchedulerError) : (failWith s e).IsAlone := trivial

theorem IsAlone.afterPass (h : l.IsAlone) (snapshot : PropertyMap) (report : PassReport) :
    (l.afterPass snapshot report).IsAlone := by
  simp only [Loop.afterPass]
  split
  · exact isAlone_failWith ..
  · trivial
  · split
    · exact isAlone_endIn ..
    split
    · exact h
    split
    · exact isAlone_failWith ..
    · have halone : IsAlone { l with backoff := l.scheduler.config.nextWait l.backoff } := h
      exact halone.wait snapshot l.backoff

theorem IsAlone.resume (h : l.IsAlone) : l.resume.IsAlone := by
  simp only [Loop.resume]
  split <;> exact h

theorem IsAlone.act_withPast (h : l.IsAlone) (snapshot : PropertyMap) :
    (l.withPast p).act snapshot = (l.act snapshot).withPast p := by
  have hlife : (l.withPast p).scheduler.lifecycle = l.scheduler.lifecycle := rfl
  simp only [act, hlife]
  cases l.scheduler.lifecycle with
  | running =>
    have hpass : l.resume.makePass.2.IsAlone := h.resume
    simp only [resume_withPast, makePass_withPast, Prod.map, id]
    exact hpass.afterPass_withPast p snapshot l.resume.makePass.1
  | requestedPause =>
    have hpause := exec_withPast p l.scheduler (f := fun x => x.pauseAll x.everyBlock)
      fun x => Execution.pauseAll_withPast p x x.everyBlock
    simp only [update, scheduler_withPast, hpause, moveTo_withPast]
    cases (l.scheduler.exec fun x => x.pauseAll x.everyBlock).moveTo .paused with
    | error e => rfl
    | ok s =>
      simp only [Except.map, say_withPast]
      rfl
  | paused =>
    have halone : IsAlone { l with lastProgress := l.now } := h
    exact congrArg Turn.next (halone.wait_withPast p snapshot l.scheduler.config.maxBackoff)
  | requestedStop =>
    simp only [scheduler_withPast, exec_stopAll_withPast]
    exact endIn_withPast p _ .stopped _
  | stopped => rfl
  | idle | initialising | error =>
    simp only [scheduler_withPast, exec_stopAll_withPast]
    rfl

theorem IsAlone.act (h : l.IsAlone) (snapshot : PropertyMap) : (l.act snapshot).IsAlone := by
  simp only [Loop.act]
  split
  · have hpass : l.resume.makePass.2.IsAlone := h.resume
    exact hpass.afterPass snapshot l.resume.makePass.1
  · split
    · trivial
    · exact h
  · have halone : IsAlone { l with lastProgress := l.now } := h
    exact halone.wait snapshot l.scheduler.config.maxBackoff
  · exact isAlone_endIn ..
  all_goals trivial

theorem IsAlone.turn_eq (h : l.IsAlone) (snapshot : PropertyMap) :
    l.turn snapshot = (l.update fun s => s.drain snapshot).act snapshot := by
  rw [turn, h.meet]

theorem IsAlone.run_withPast (h : l.IsAlone) (snapshot : PropertyMap) (fuel : Nat) :
    (l.withPast p).run snapshot fuel =
      (l.run snapshot fuel).map fun (result, s) => (result, s.withPast p) := by
  induction fuel generalizing l with
  | zero => rfl
  | succ fuel ih =>
    have hpast : (l.withPast p).IsAlone := h
    have hdrained : IsAlone (l.update fun s => s.drain snapshot) := h
    have hact := hdrained.act snapshot
    rw [run, run, hpast.turn_eq, h.turn_eq, update_withPast p fun s => drain_withPast p s snapshot,
      hdrained.act_withPast]
    cases hout : (l.update fun s => s.drain snapshot).act snapshot with
    | next l' =>
      rw [hout] at hact
      exact ih hact
    | ended result s => rfl

end Loop

namespace Scheduler

variable {β : Type} [Block β] {s s' : Scheduler β}

theorem config_initialise (s : Scheduler β) : s.initialise.2.config = s.config := by
  have hspec := initialise_spec s
  rcases hout : s.initialise with ⟨outcome, s'⟩
  rw [hout] at hspec
  cases hspec with
  | invalid => rfl
  | started _ hwalks | failed _ _ hwalks => exact hwalks.config

/-- A run on one thread does not depend on the past. -/
theorem run_withPast (hpolicy : s.config.policy = .singleThreaded) (p : Past)
    (parallelism fuel : Nat) :
    (s.withPast p).run parallelism fuel .absent =
      (s.run parallelism fuel .absent).map fun (result, t) => (result, t.withPast p) := by
  rw [run, run, prepare_withPast]
  cases hprepare : s.prepare with
  | error e => rfl
  | ok s₁ =>
    simp only [Except.map, initialise_withPast]
    have hconfig := config_initialise s₁
    rcases hinit : s₁.initialise with ⟨outcome, s₂⟩
    rw [hinit] at hconfig
    cases outcome with
    | error e => simp only [Prod.map, id, say_withPast, enter_withPast, Option.map]
    | ok snapshot =>
      simp only [Prod.map, id, moveTo_withPast]
      cases hmove : s₂.moveTo .running with
      | error e => rfl
      | ok s₃ =>
        have hpolicy₃ : s₃.config.policy = .singleThreaded := by
          rw [(moveTo_spec hmove).1.config, hconfig, config_prepare hprepare, hpolicy]
        have halone : (Loop.begin s₃ .absent).IsAlone := rfl
        have hloop := halone.run_withPast p snapshot fuel
        have hbegin : (Loop.begin s₃ .absent).withPast p = Loop.begin (s₃.withPast p) .absent := rfl
        rw [hbegin] at hloop
        simp only [Except.map, runByPolicy, config_withPast, hpolicy₃, hloop, Option.map_map]
        congr 1
        funext out
        exact congrArg (Prod.mk out.1) (answerRest_withPast p out.2 snapshot out.1)

end Scheduler
end Dataflow
