import Dataflow.Proofs.Node.Settings
import Dataflow.Proofs.Scheduler.Nodes
import Dataflow.Proofs.Scheduler.Strides

/-!
# Fairness of runs on one thread

All blocks keep up with the passes of a run (`Loop.InStep`): until it finished, each has made one
work call in every pass. Turns that make no pass leave it at that, as do pauses and messages, and
a pass (`Loop.passNow?`) gives its turn to every block that has not finished. So each of the passes
that a run makes (`Loop.Makes`), in its turns or while it follows any events, is fair
(`Scheduler.pass_fair`).
-/

namespace Dataflow

open Lifecycle (State)

variable {β : Type}

/-- A pass, with the execution before and after it. -/
structure Pass (β : Type) where
  before : Execution β
  report : PassReport
  after : Execution β

variable [Block β]

theorem Node.KeepsUp.answer {k : Nat} {st : State} {n : Node β} (h : n.KeepsUp k st)
    (m : Message) : (n.answer m).node.KeepsUp k st := by
  obtain ⟨block, extra, hnode⟩ := n.exists_answer_eq m
  rw [hnode]
  exact ⟨h.calls_le, h.calls_eq, h.state⟩

namespace Scheduler

variable {s s₀ : Scheduler β} {snapshot : PropertyMap} {I : Nat → Node β → Prop}

theorem each_handle (hI : ∀ i n m, I i n → I i (n.answer m).node) (h : s.graph.Each I)
    (snapshot : PropertyMap) (m : Message) : (s.handle snapshot m).graph.Each I := by
  rw [handle]
  split
  · rw [graph_handleOwn]
    exact h
  · rw [dispatch, (untouched_reply ..).graph]
    exact Execution.each_answerFrom h hI s.everyBlock m

theorem each_drain (hI : ∀ i n m, I i n → I i (n.answer m).node) (h : s.graph.Each I)
    (snapshot : PropertyMap) : (s.drain snapshot).graph.Each I :=
  List.foldlRecOn s.inbox _ (motive := fun s : Scheduler β => s.graph.Each I) h
    fun _ hs m _ => each_handle hI hs snapshot m

end Scheduler

namespace Loop

open Scheduler

variable {l l' : Loop β} {k : Nat} {snapshot : PropertyMap}

/-- The pass that a loop makes when it acts, if it makes one. -/
def passNow? (l : Loop β) : Option (Pass β) :=
  if l.scheduler.lifecycle = .running then
    some ⟨l.resume.scheduler.toExecution, l.resume.makePass.1,
      l.resume.makePass.2.scheduler.toExecution⟩
  else none

/-- The pass that the next turn makes, if it makes one. -/
def pass? (l : Loop β) (snapshot : PropertyMap) : Option (Pass β) :=
  (l.meet.update fun s => s.drain snapshot).passNow?

/-- The passes that the first turns of a loop make, or all that it takes. -/
def passes (snapshot : PropertyMap) : Nat → Loop β → List (Pass β)
  | 0, _ => []
  | turns + 1, l =>
    (l.pass? snapshot).toList ++
      match l.turn snapshot with
      | .next l => l.passes snapshot turns
      | .ended _ _ => []

/-- The pass that is made at an event, if one is made. -/
def passAt? (l : Loop β) : Event → Option (Pass β)
  | .message _ => none
  | .turn => (l.update fun s => s.withInbox []).passNow?

/-- The passes that a loop makes while it follows events. -/
def passesAmong (snapshot : PropertyMap) : Loop β → List Event → List (Pass β)
  | _, [] => []
  | l, e :: events =>
    (l.passAt? e).toList ++
      match l.step snapshot e with
      | .next l => l.passesAmong snapshot events
      | .ended _ _ => []

/-- A loop makes passes: those of its turns, or those among any events. -/
inductive Makes (l : Loop β) (snapshot : PropertyMap) : List (Pass β) → Prop where
  | turns (n : Nat) : Makes l snapshot (l.passes snapshot n)
  | events (events : List Event) : Makes l snapshot (l.passesAmong snapshot events)

/-- Passes that are made one after the other, after the first `k`: all blocks have kept up with
those before. -/
inductive KeepPace : Nat → List (Pass β) → Prop where
  | nil (k : Nat) : KeepPace k []
  | cons {k : Nat} {p : Pass β} {ps : List (Pass β)} :
      p.before.graph.Each (fun _ => Node.KeepsUp k .running) →
      p.before.runPass p.before.everyBlock = (p.report, p.after) →
      KeepPace (k + 1) ps → KeepPace k (p :: ps)

theorem KeepPace.of_getElem? {ps : List (Pass β)} (h : KeepPace k ps) {j : Nat} {p : Pass β}
    (hp : ps[j]? = some p) :
    p.before.graph.Each (fun _ => Node.KeepsUp (k + j) .running) ∧
      p.before.runPass p.before.everyBlock = (p.report, p.after) := by
  induction h generalizing j with
  | nil => cases hp
  | cons hbefore hmade _ ih =>
    cases j with
    | zero =>
      cases hp
      exact ⟨hbefore, hmade⟩
    | succ j =>
      rw [Nat.add_comm j, ← Nat.add_assoc]
      exact ih hp

/-- All blocks have kept up with a number of passes. -/
def InStep (k : Nat) (l : Loop β) : Prop :=
  l.scheduler.graph.Each fun _ => Node.KeepsUp k (if l.isPaused then .paused else .running)

namespace InStep

omit [Block β] in
theorem of_eq (h : l.InStep k) (hgraph : l'.scheduler.graph = l.scheduler.graph)
    (hpaused : l'.isPaused = l.isPaused) : l'.InStep k := by
  rw [InStep, hgraph, hpaused]
  exact h

theorem handleFirst (h : l.InStep k) (hfirst : l.handleFirst? snapshot = some l') :
    l'.InStep k := by
  simp only [handleFirst?] at hfirst
  split at hfirst
  · cases hfirst
  next m rest _ =>
    cases hfirst
    exact each_handle (s := { l.scheduler with inbox := rest }) (fun _ _ m hn => hn.answer m) h
      snapshot m

omit [Block β] in
theorem meet (h : l.InStep k) : l.meet.InStep k :=
  h.of_eq (untouched_meet l).graph (by rw [Loop.meet]; split <;> rfl)

omit [Block β] in
theorem meetBefore (h : l.InStep k) (deadline : Nat) : (l.meetBefore deadline).InStep k := by
  simp only [Loop.meetBefore]
  split
  · exact InStep.meet (h.of_eq rfl rfl)
  · exact h

theorem wait (h : l.InStep k) (snapshot : PropertyMap) (time : Nat) :
    (l.wait snapshot time).InStep k := by
  simp only [Loop.wait]
  split
  next hfirst => exact h.handleFirst hfirst
  next =>
    have hmet := h.meetBefore (Clock.wake l.now time)
    cases hfirst : (l.meetBefore (Clock.wake l.now time)).handleFirst? snapshot with
    | none => exact hmet.of_eq rfl rfl
    | some l' => exact hmet.handleFirst hfirst

theorem resume (h : l.InStep k) :
    l.resume.scheduler.graph.Each (fun _ => Node.KeepsUp k .running) ∧
      l.resume.isPaused = false := by
  simp only [Loop.resume]
  split
  next hpaused =>
    rw [InStep, hpaused] at h
    exact ⟨Execution.each_foldl Execution.visits_resume (Execution.midway_everyBlock h), rfl⟩
  next hpaused =>
    rw [InStep, if_neg hpaused] at h
    exact ⟨h, by simpa using hpaused⟩

/-- A run that goes on after a pass has not been cut short in it. -/
theorem afterPass {report : PassReport} (h : report.failure = none → l.InStep k)
    (hnext : l.afterPass snapshot report = .next l') : l'.InStep k := by
  simp only [Loop.afterPass] at hnext
  split at hnext
  · cases hnext
  · cases hnext
  next hfail =>
    have h := h hfail
    split at hnext
    · simp only [endIn] at hnext
      split at hnext <;> cases hnext
    split at hnext
    · cases hnext
      exact h.of_eq rfl rfl
    split at hnext
    · cases hnext
    · cases hnext
      have hwaiting : InStep k { l with backoff := l.scheduler.config.nextWait l.backoff } :=
        h.of_eq rfl rfl
      exact hwaiting.wait snapshot l.backoff

/-- A turn that makes no pass. -/
theorem act (h : l.InStep k) (hl : l.scheduler.lifecycle ≠ .running)
    (hnext : l.act snapshot = .next l') : l'.InStep k := by
  simp only [Loop.act] at hnext
  split at hnext
  next hrun => exact absurd hrun hl
  next =>
    split at hnext
    · cases hnext
    next s hmove =>
      cases hnext
      have hst : (if l.isPaused then State.paused else .running) = .running ∨
          (if l.isPaused then State.paused else .running) = .paused := by
        cases l.isPaused
        · exact .inl rfl
        · exact .inr rfl
      have hpaused : (l.scheduler.pauseAll l.scheduler.everyBlock).graph.Each fun _ =>
          Node.KeepsUp k .paused :=
        Execution.each_foldl (Execution.visits_pause hst) (Execution.midway_everyBlock h)
      have hgraph : s.graph = (l.scheduler.pauseAll l.scheduler.everyBlock).graph :=
        (moveTo_spec hmove).2.2.1
      rw [← hgraph] at hpaused
      exact hpaused
  next =>
    cases hnext
    have hwaiting : InStep k { l with lastProgress := l.now } := h.of_eq rfl rfl
    exact hwaiting.wait snapshot l.scheduler.config.maxBackoff
  next =>
    simp only [endIn] at hnext
    split at hnext <;> cases hnext
  all_goals cases hnext

/-- To go on as an event and not in a turn makes no difference to what has been done. -/
theorem stride (h : l.InStep k) (hl : l.scheduler.lifecycle ≠ .running)
    (hnext : l.stride snapshot = .next l') : l'.InStep k := by
  simp only [Loop.stride] at hnext
  split at hnext
  next hrun => exact absurd hrun hl
  · cases hnext
    exact h
  · exact h.act hl hnext

/-- A pass begins when all blocks that have not finished run, and is one more for each of them. -/
theorem passNow (h : l.InStep k) (snapshot : PropertyMap) {p : Pass β}
    (hp : l.passNow? = some p) :
    p.before.graph.Each (fun _ => Node.KeepsUp k .running) ∧
      p.before.runPass p.before.everyBlock = (p.report, p.after) ∧
      ∀ l', l.act snapshot = .next l' ∨ l.stride snapshot = .next l' → l'.InStep (k + 1) := by
  simp only [passNow?] at hp
  split at hp
  next hl =>
    cases hp
    obtain ⟨hbefore, hpaused⟩ := h.resume
    refine ⟨hbefore, rfl, fun l' hnext => ?_⟩
    have hmade (hfail : l.resume.makePass.1.failure = none) :
        l.resume.makePass.2.InStep (k + 1) := by
      have hpass := Execution.each_runPass (Execution.midway_everyBlock hbefore) hfail
      have hpaused' : l.resume.makePass.2.isPaused = false := hpaused
      rw [InStep, hpaused']
      exact hpass
    simp only [Loop.act, Loop.stride, hl] at hnext
    rcases hnext with hnext | hnext
    · exact InStep.afterPass hmade hnext
    · refine InStep.afterPass ?_ hnext
      exact hmade
  next => cases hp

theorem drained (h : l.InStep k) (snapshot : PropertyMap) :
    (l.meet.update fun s => s.drain snapshot).InStep k :=
  each_drain (fun _ _ m hn => hn.answer m) h.meet snapshot

theorem lifecycle_of_passNow? (hp : l.passNow? = none) : l.scheduler.lifecycle ≠ .running := by
  intro hl
  simp [passNow?, hl] at hp

theorem keepPace_passes (h : l.InStep k) (turns : Nat) : KeepPace k (l.passes snapshot turns) := by
  induction turns generalizing l k with
  | zero => exact .nil k
  | succ turns ih =>
    have hdrained := h.drained snapshot
    rw [passes, pass?, turn]
    cases hpass : (l.meet.update fun s => s.drain snapshot).passNow? with
    | none =>
      cases hact : (l.meet.update fun s => s.drain snapshot).act snapshot with
      | next l' => exact ih (hdrained.act (lifecycle_of_passNow? hpass) hact)
      | ended => exact .nil k
    | some p =>
      obtain ⟨hbefore, hmade, hnext⟩ := hdrained.passNow snapshot hpass
      refine .cons hbefore hmade ?_
      cases hact : (l.meet.update fun s => s.drain snapshot).act snapshot with
      | next l' => exact ih (hnext l' (.inl hact))
      | ended => exact .nil (k + 1)

theorem keepPace_passesAmong (h : l.InStep k) (events : List Event) :
    KeepPace k (l.passesAmong snapshot events) := by
  induction events generalizing l k with
  | nil => exact .nil k
  | cons e events ih =>
    rw [passesAmong]
    cases e with
    | message m =>
      have hhandled : (l.update fun s => s.handle snapshot m).InStep k :=
        each_handle (fun _ _ m hn => hn.answer m) h snapshot m
      exact ih hhandled
    | turn =>
      have hcleared : (l.update fun s => s.withInbox []).InStep k := h.of_eq rfl rfl
      rw [passAt?, step]
      cases hpass : (l.update fun s => s.withInbox []).passNow? with
      | none =>
        cases hstride : (l.update fun s => s.withInbox []).stride snapshot with
        | next l' => exact ih (hcleared.stride (lifecycle_of_passNow? hpass) hstride)
        | ended => exact .nil k
      | some p =>
        obtain ⟨hbefore, hmade, hnext⟩ := hcleared.passNow snapshot hpass
        refine .cons hbefore hmade ?_
        cases hstride : (l.update fun s => s.withInbox []).stride snapshot with
        | next l' => exact ih (hnext l' (.inr hstride))
        | ended => exact .nil (k + 1)

end InStep

theorem Makes.keepPace {ps : List (Pass β)} (hps : l.Makes snapshot ps) (h : l.InStep k) :
    KeepPace k ps := by
  cases hps with
  | turns n => exact h.keepPace_passes n
  | events events => exact h.keepPace_passesAmong events

end Loop

/-! ### The main result -/

namespace Scheduler

variable {s s₀ : Scheduler β} {snapshot : PropertyMap}

/-- Before the pass of number `k` of a run, counted from zero, each block that has not finished runs
and has made `k` work calls, and each that has finished at most as many. If the pass is not cut
short, the same is true of `k + 1` after it: it has invoked those that had not finished, each once
and in the order of the graph. It reports progress if and only if one of them made progress or
finished, and as many as finished as there are more finished blocks after it than before. -/
theorem pass_fair (h₀ : s.Launches snapshot s₀) (client : Client) {ps : List (Pass β)}
    (hps : (Loop.begin s₀ client).Makes snapshot ps) {k : Nat} {p : Pass β}
    (hp : ps[k]? = some p) :
    p.before.graph.Each (fun _ => Node.KeepsUp k .running) ∧
      p.before.runPass p.before.everyBlock = (p.report, p.after) ∧
      (p.report.failure = none →
        p.after.graph.Each (fun _ => Node.KeepsUp (k + 1) .running) ∧
        (p.before.openBlocks p.before.everyBlock).Pairwise (· < ·) ∧
        ∃ achieved,
          p.before.invokeEach (p.before.openBlocks p.before.everyBlock) = (achieved, p.after) ∧
          (p.report.progressed = true ↔ .progress ∈ achieved ∨ .finished ∈ achieved) ∧
          p.report.newlyFinished = achieved.count .finished ∧
          p.after.graph.terminalBlocks =
            p.before.graph.terminalBlocks + p.report.newlyFinished) := by
  have hbegin : (Loop.begin s₀ client).InStep 0 := fun i n hn =>
    .of_eq (h₀.started i n hn).calls (h₀.started i n hn).state
  obtain ⟨hbefore, hmade⟩ := (hps.keepPace hbegin).of_getElem? hp
  rw [Nat.zero_add] at hbefore
  refine ⟨hbefore, hmade, fun hfail => ?_⟩
  have hfail' : (p.before.runPass p.before.everyBlock).1.failure = none := by rw [hmade, hfail]
  have hafter := Execution.each_runPass (Execution.midway_everyBlock hbefore) hfail'
  have hgrowth := Execution.terminalBlocks_runPass hfail'
  have hinvoked := Execution.runPass_eq (Execution.nodup_everyBlock _) hfail'
  rw [hmade] at hafter hgrowth
  obtain ⟨hreport, hexecution⟩ := Prod.mk.inj (hmade.symm.trans hinvoked)
  refine ⟨hafter, List.pairwise_lt_range.filter _, _, Prod.ext rfl hexecution.symm, ?_, ?_,
    hgrowth⟩
  · rw [hreport]
    exact PassReport.progressed_of
  · rw [hreport]
    rfl

/-- A client pauses the run and resumes it. Of the calls before its twenty-first pass two start the
blocks, and four pause and resume them; all others are work calls. If the same messages come as
events, the pass that follows them is the second. -/
theorem pass_fair_endless : ∃ snapshot s₀ p p', (endless []).Launches snapshot s₀ ∧
    ((Loop.begin s₀ (.begin ["REQUESTED_PAUSE", "RUNNING"])).passes snapshot 30)[20]? = some p ∧
    p.before.journal.size = 2 + 2 * 20 + 4 ∧ p.report.failure = none ∧
    p.before.graph.Each (fun _ => Node.KeepsUp 20 .running) ∧
    p.after.graph.Each (fun _ => Node.KeepsUp 21 .running) ∧
    ((Loop.begin s₀ .absent).passesAmong snapshot [.turn,
      .message (Client.request "REQUESTED_PAUSE"), .turn, .turn,
      .message (Client.request "RUNNING"), .turn])[1]? = some p' ∧
    p'.before.journal.size = 2 + 2 * 1 + 4 ∧
    p'.before.graph.Each (fun _ => Node.KeepsUp 1 .running) := by
  let events : List Loop.Event := [.turn, .message (Client.request "REQUESTED_PAUSE"), .turn, .turn,
    .message (Client.request "RUNNING"), .turn]
  have hpass : ∃ snapshot s₀, (endless []).Launches snapshot s₀ ∧
      (((Loop.begin s₀ (.begin ["REQUESTED_PAUSE", "RUNNING"])).passes snapshot 30)[20]?.any
        fun p => p.before.journal.size = 2 + 2 * 20 + 4 && p.report.failure.isNone) = true ∧
      (((Loop.begin s₀ .absent).passesAmong snapshot events)[1]?.any
        fun p => p.before.journal.size = 2 + 2 * 1 + 4) = true :=
    ⟨_, _, ⟨_, _, rfl, rfl, rfl⟩, by decide +kernel, by decide +kernel⟩
  obtain ⟨snapshot, s₀, h₀, hany, hany'⟩ := hpass
  obtain ⟨p, hp, hany⟩ := (Option.any_eq_true _ _).mp hany
  obtain ⟨p', hp', hany'⟩ := (Option.any_eq_true _ _).mp hany'
  rw [Bool.and_eq_true, decide_eq_true_eq, Option.isNone_iff_eq_none] at hany
  obtain ⟨hbefore, -, hpass⟩ := pass_fair h₀ _ (.turns 30) hp
  exact ⟨snapshot, s₀, p, p', h₀, hp, hany.1, hany.2, hbefore, (hpass hany.2).1, hp',
    of_decide_eq_true hany', (pass_fair h₀ _ (.events events) hp').1⟩

end Scheduler
end Dataflow
