import Dataflow.Proofs.Execution.Invocations
import Dataflow.Proofs.Scheduler.Addressing

/-!
# Passes that overlap

Workers make their passes at the same time. In a run on several workers at any moment
(`Pool.Shift`), each of them may be in the midst of a pass, with some of its blocks yet to visit
(`Pool.Round`), and what happens next is up to any of them, the coordinator or the client, at any
time (`Shift.Step`). A worker visits one block after the other, and others may act in between. The
runs in which each pass is made at once, like those of the program (`Pool.step`), are among them
(`Shift.steps_work`, `Shift.steps_after`), as long as no worker is told to stop and no work call
fails (`Pool.IsUndisturbed`).
-/

namespace Dataflow

open Lifecycle (State)

/-- States in which workers stop their blocks although these may not have finished. -/
def Lifecycle.State.IsHalting : State → Prop
  | .requestedStop | .error => True
  | _ => False

instance : DecidablePred State.IsHalting
  | .requestedStop | .error => .isTrue trivial
  | .idle | .initialising | .running | .requestedPause | .paused | .stopped => .isFalse id

/-- The report of a pass after one more invocation. -/
def PassReport.add (report : PassReport) (achieved : Invocation) : PassReport where
  progressed := report.progressed || achieved.advances
  newlyFinished := report.newlyFinished + if achieved = .finished then 1 else 0
  failure := report.failure

namespace Pool

/-- A pass that is underway: the blocks that are yet to be visited, and the report so far. -/
structure Round where
  rest : List Nat
  report : PassReport

/-- A run on several workers, with the pass that each of them is making, if any. -/
structure Shift (β : Type) where
  pool : Pool β
  rounds : List (Option Round)

variable {β : Type}

/-- A run whose workers are not making passes. -/
def atRest (p : Pool β) : Shift β := ⟨p, .replicate p.workers.length none⟩

/-- No worker has been told to stop, and none has crashed. -/
structure IsUndisturbed (p : Pool β) : Prop where
  lifecycle : ¬ p.scheduler.lifecycle.IsHalting
  workers : ∀ w ∈ p.workers, w.status ≠ .crashed

instance (p : Pool β) : Decidable p.IsUndisturbed :=
  decidable_of_iff (¬ p.scheduler.lifecycle.IsHalting ∧ ∀ w ∈ p.workers, w.status ≠ .crashed)
    ⟨fun h => ⟨h.1, h.2⟩, fun h => ⟨h.lifecycle, h.workers⟩⟩

theorem IsUndisturbed.of_alert {p : Pool β} (h : p.alert.IsUndisturbed) : p.IsUndisturbed := by
  simp only [alert] at h
  split at h
  · exact h
  · exact ⟨h.lifecycle, h.workers⟩

/-- A worker reports a pass that was not cut short, and waits for the next one. -/
def conclude (p : Pool β) (w : Worker) (report : PassReport) : Pool β × Worker :=
  let finish := p.now + Clock.passTime
  ({ p with
    finishedBlocks := p.finishedBlocks + report.newlyFinished
    hasProgressed := p.hasProgressed || report.progressed },
    if report.progressed then
      { w with nextMove := finish, backoff := p.scheduler.config.firstWait }
    else
      { w with
        nextMove := Clock.wake finish w.backoff
        backoff := p.scheduler.config.nextWait w.backoff })

variable [Block β]

/-- A worker gets ready for a pass: it answers messages, and resumes its blocks if it has paused
them. -/
def ready (p : Pool β) (w : Worker) : Pool β × Worker :=
  let (p, w) := p.answerAll w
  if w.isPaused then
    ({ p.exec (·.resumeAll w.group) with pausedWorkers := p.pausedWorkers - 1 },
      { w with isPaused := false })
  else (p, w)

/-- A worker that is ready makes a pass, or waits if all its blocks have finished. -/
def proceed (p : Pool β) (w : Worker) : Pool β × Worker :=
  if p.scheduler.allFinished w.group then p.rest w else p.makePass w

namespace Shift

/-- What happens next in a run in which no worker is told to stop and no work call fails. -/
inductive Step (snapshot : PropertyMap) : Shift β → Shift β → Prop where
  | wait {p : Pool β} {rounds : List (Option Round)} (now nextLook : Nat) :
    Step snapshot ⟨p, rounds⟩ ⟨{ p with now, nextLook }, rounds⟩
  | client {p : Pool β} {rounds : List (Option Round)} :
    Step snapshot ⟨p, rounds⟩ ⟨p.meet, rounds⟩
  | coordinate {p : Pool β} {rounds : List (Option Round)} :
    Step snapshot ⟨p, rounds⟩ ⟨(p.coordinate snapshot).2, rounds⟩
  /-- A worker has an iteration in which it makes no pass. -/
  | rest {p : Pool β} {rounds : List (Option Round)} {i : Nat} {w : Worker} :
    p.workers[i]? = some w → w.status = .active → rounds[i]? = some none →
    ¬ p.scheduler.lifecycle.IsHalting →
    (p.scheduler.lifecycle = .running → (p.ready w).1.scheduler.allFinished w.group = true) →
    Step snapshot ⟨p, rounds⟩ ⟨p.work i, rounds⟩
  /-- A worker begins a pass. -/
  | setOff {p : Pool β} {rounds : List (Option Round)} {i : Nat} {w : Worker} :
    p.workers[i]? = some w → w.status = .active → rounds[i]? = some none →
    p.scheduler.lifecycle = .running →
    Step snapshot ⟨p, rounds⟩
      ⟨(p.ready w).1.setWorker i (p.ready w).2, rounds.set i (some ⟨w.group, ⟨false, 0, none⟩⟩)⟩
  | skip {p : Pool β} {rounds : List (Option Round)} {i j : Nat} {others : List Nat}
    {report : PassReport} :
    rounds[i]? = some (some ⟨j :: others, report⟩) → p.scheduler.isFinished j = true →
    Step snapshot ⟨p, rounds⟩ ⟨p, rounds.set i (some ⟨others, report⟩)⟩
  | invoke {p : Pool β} {rounds : List (Option Round)} {i j : Nat} {others : List Nat}
    {report : PassReport} :
    rounds[i]? = some (some ⟨j :: others, report⟩) → p.scheduler.isFinished j = false →
    Execution.Invocation.failure? p.scheduler.toExecution j (p.scheduler.invoke j).1 = none →
    Step snapshot ⟨p, rounds⟩ ⟨p.exec fun _ => (p.scheduler.invoke j).2,
      rounds.set i (some ⟨others, report.add (p.scheduler.invoke j).1⟩)⟩
  /-- A worker ends a pass. -/
  | conclude {p : Pool β} {rounds : List (Option Round)} {i : Nat} {w : Worker}
    {report : PassReport} :
    p.workers[i]? = some w → rounds[i]? = some (some ⟨[], report⟩) →
    Step snapshot ⟨p, rounds⟩
      ⟨(p.conclude w report).1.setWorker i (p.conclude w report).2, rounds.set i none⟩

def Steps (snapshot : PropertyMap) : Shift β → Shift β → Prop :=
  Relation.ReflTransGen (Step snapshot)

variable {snapshot : PropertyMap} {p : Pool β} {rounds : List (Option Round)} {i : Nat} {w : Worker}

/-! ### Passes made at once -/

theorem round_set {r : Option Round} (h : rounds[i]? = some r) (r' : Option Round) :
    (rounds.set i r')[i]? = some r' :=
  List.getElem?_set_self (List.getElem?_eq_some_iff.mp h).1

/-- A worker that nobody disturbs makes a pass as the program does. -/
theorem steps_visits {group : List Nat} {report made : PassReport} {y : Execution β}
    (hi : rounds[i]? = some (some ⟨group, report⟩)) (h : p.scheduler.runPass group = (made, y))
    (hmade : made.failure = none) :
    Steps snapshot ⟨p, rounds⟩ ⟨p.exec fun _ => y,
      rounds.set i (some ⟨[], report.progressed || made.progressed,
        report.newlyFinished + made.newlyFinished, report.failure⟩)⟩ := by
  induction group generalizing p rounds report made with
  | nil =>
    cases h
    have hsame : rounds.set i (some ⟨[], report.progressed || false, report.newlyFinished + 0,
        report.failure⟩) = rounds := by
      rw [Bool.or_false, Nat.add_zero]
      exact set_of_getElem? hi
    rw [hsame]
    exact .refl
  | cons j others ih =>
    rw [Execution.runPass] at h
    cases hfin : p.scheduler.isFinished j with
    | true =>
      rw [hfin] at h
      have hpass := ih (round_set hi (some ⟨others, report⟩)) h hmade
      rw [List.set_set] at hpass
      exact .head (.skip hi hfin) hpass
    | false =>
      rw [hfin] at h
      have hinvoke : _ → Step snapshot _ _ := Step.invoke hi hfin
      rcases hout : p.scheduler.invoke j with ⟨achieved, z⟩
      rw [hout] at h hinvoke
      -- what the rest of the pass adds to the report with this invocation
      have hpass : ∀ {made' : PassReport}, z.runPass others = (made', y) → made'.failure = none →
          Execution.Invocation.failure? p.scheduler.toExecution j achieved = none →
          made.progressed = (achieved.advances || made'.progressed) →
          made.newlyFinished = (if achieved = .finished then 1 else 0) + made'.newlyFinished →
          Steps snapshot ⟨p, rounds⟩ ⟨p.exec fun _ => y,
            rounds.set i (some ⟨[], report.progressed || made.progressed,
              report.newlyFinished + made.newlyFinished, report.failure⟩)⟩ := by
        intro made' h hmade hachieved hprogressed hfinished
        have hvisits := ih (p := p.exec fun _ => z)
          (round_set hi (some ⟨others, report.add achieved⟩)) h hmade
        rw [List.set_set] at hvisits
        rw [hprogressed, hfinished, ← Bool.or_assoc, ← Nat.add_assoc]
        exact .head (hinvoke hachieved) hvisits
      rcases hrest : z.runPass others with ⟨made', z'⟩
      cases achieved with
      | idle => exact hpass h hmade rfl (Bool.false_or _).symm (Nat.zero_add _).symm
      | progress =>
        simp only [hrest] at h
        cases h
        exact hpass hrest hmade rfl rfl (Nat.zero_add _).symm
      | finished =>
        simp only [hrest] at h
        cases h
        exact hpass hrest hmade rfl rfl (Nat.add_comm ..)
      | failed | crashed =>
        cases h
        cases hmade

theorem makePass_of_none {made : PassReport} {y : Execution β}
    (h : p.scheduler.runPass w.group = (made, y)) (hmade : made.failure = none) :
    p.makePass w = (p.exec fun _ => y).conclude w made := by
  simp only [makePass, h, hmade]
  rfl

theorem lifecycle_answerAll (p : Pool β) (w : Worker) :
    (p.answerAll w).1.scheduler.lifecycle = p.scheduler.lifecycle :=
  List.foldlRecOn w.inbox _ (motive := fun s : Scheduler β => s.lifecycle = p.scheduler.lifecycle)
    rfl fun _ hs _ _ => (Scheduler.untouched_reply ..).lifecycle.trans hs

theorem group_ready (p : Pool β) (w : Worker) : (p.ready w).2.group = w.group := by
  cases hpaused : w.isPaused <;> simp [ready, answerAll, hpaused]

theorem status_ready (p : Pool β) (w : Worker) : (p.ready w).2.status = w.status := by
  cases hpaused : w.isPaused <;> simp [ready, answerAll, hpaused]

theorem workers_ready (p : Pool β) (w : Worker) : (p.ready w).1.workers = p.workers := by
  cases hpaused : w.isPaused <;> simp [ready, answerAll, hpaused, exec]

theorem work_eq (hw : p.workers[i]? = some w) (hactive : w.status = .active) :
    p.work i = ((p.answerAll w).1.workerAct (p.answerAll w).2).1.setWorker i
      ((p.answerAll w).1.workerAct (p.answerAll w).2).2 := by
  simp only [work, hw, hactive, ne_eq, not_true_eq_false, if_false]

theorem work_of_running (hw : p.workers[i]? = some w) (hactive : w.status = .active)
    (hrun : p.scheduler.lifecycle = .running) :
    p.work i = ((p.ready w).1.proceed (p.ready w).2).1.setWorker i
      ((p.ready w).1.proceed (p.ready w).2).2 := by
  have hlife := (lifecycle_answerAll p w).trans hrun
  simp only [work_eq hw hactive, workerAct, hlife]
  rfl

/-- A pass that leaves a run undisturbed was not cut short. -/
theorem failure_of_isUndisturbed {made : PassReport} {y : Execution β}
    (hi : i < p.workers.length) (h : p.scheduler.runPass w.group = (made, y))
    (hp : ((p.makePass w).1.setWorker i (p.makePass w).2).IsUndisturbed) :
    made.failure = none := by
  cases hmade : made.failure with
  | none => rfl
  | some failure =>
    cases failure with
    | failed block e =>
      refine absurd ?_ hp.lifecycle
      simp only [makePass, h, hmade]
      trivial
    | crashed =>
      refine absurd ?_ (hp.workers { w with status := .crashed } ?_)
      · rfl
      · simp only [makePass, h, hmade]
        exact List.mem_set hi _

/-- An iteration of a worker that is not disturbed. -/
theorem steps_work (hw : p.workers[i]? = some w) (hactive : w.status = .active)
    (hround : rounds[i]? = some none) (hp : ¬ p.scheduler.lifecycle.IsHalting)
    (hwork : (p.work i).IsUndisturbed) : Steps snapshot ⟨p, rounds⟩ ⟨p.work i, rounds⟩ := by
  by_cases hrest : p.scheduler.lifecycle = .running →
      (p.ready w).1.scheduler.allFinished w.group = true
  · exact .single (.rest hw hactive hround hp hrest)
  obtain ⟨hrun, hopen⟩ := Classical.not_imp.mp hrest
  have hset : Step snapshot _ _ := .setOff hw hactive hround hrun
  have hlt : i < (p.ready w).1.workers.length :=
    workers_ready p w ▸ (List.getElem?_eq_some_iff.mp hw).1
  rw [work_of_running hw hactive hrun] at hwork ⊢
  rw [← group_ready p w] at hopen hset
  generalize p.ready w = ready at hwork hopen hlt hset ⊢
  obtain ⟨q, v⟩ := ready
  simp only [proceed, if_neg hopen] at hwork hlt hset ⊢
  rcases hpass : q.scheduler.runPass v.group with ⟨made, y⟩
  have hmade := failure_of_isUndisturbed hlt hpass hwork
  rw [makePass_of_none hpass hmade]
  have hround' := round_set hround (some ⟨v.group, ⟨false, 0, none⟩⟩)
  have hvisits : Steps snapshot ⟨q.setWorker i v, _⟩ _ := steps_visits hround' hpass hmade
  rw [List.set_set] at hvisits
  have hreport :
      (⟨false || made.progressed, 0 + made.newlyFinished, none⟩ : PassReport) = made := by
    rw [Bool.false_or, Nat.zero_add, ← hmade]
  rw [hreport] at hvisits
  have hend : Step snapshot ⟨(q.setWorker i v).exec fun _ => y, _⟩ _ :=
    .conclude (List.getElem?_set_self hlt) (round_set hround (some ⟨[], made⟩))
  rw [List.set_set, set_of_getElem? hround] at hend
  -- the worker is put in its place twice, before the pass and after it
  simp only [setWorker, conclude, exec, List.set_set] at hset hvisits hend ⊢
  exact .head hset (hvisits.tail hend)

/-! ### Steps of the program -/

theorem steps_alert (p : Pool β) (rounds : List (Option Round)) :
    Steps snapshot ⟨p, rounds⟩ ⟨p.alert, rounds⟩ := by
  simp only [alert]
  split
  · exact .refl
  · exact .single (.wait p.now (min p.nextLook (Clock.wake p.now 0)))

theorem steps_step
    (hrounds : ∀ (i : Nat) (w : Worker), p.workers[i]? = some w → rounds[i]? = some none)
    (hp : p.IsUndisturbed) (hstep : (p.step snapshot).2.IsUndisturbed) :
    Steps snapshot ⟨p, rounds⟩ ⟨(p.step snapshot).2, rounds⟩ := by
  have hnow : Step snapshot ⟨p, rounds⟩ _ := .wait (max p.now p.next.1) p.nextLook
  simp only [step] at hstep ⊢
  split at hstep
  · exact (Relation.ReflTransGen.head hnow (.single .client)).trans (steps_alert ..)
  · exact .head hnow (.single .coordinate)
  next i _ =>
    refine (Relation.ReflTransGen.head hnow ?_).trans (steps_alert ..)
    have hwork := hstep.of_alert
    cases hw : p.workers[i]? with
    | none =>
      simp only [work, hw]
      exact .refl
    | some w =>
      by_cases hactive : w.status = .active
      · exact steps_work hw hactive (hrounds i w hw) hp.lifecycle hwork
      · simp only [work, hw, ne_eq, hactive, not_false_eq_true, if_true]
        exact .refl

/-- The steps of the program, as long as they go undisturbed. -/
theorem steps_after {steps : Nat} (h : ∀ t ≤ steps, (p.after snapshot t).IsUndisturbed) :
    Steps snapshot p.atRest ⟨p.after snapshot steps, p.atRest.rounds⟩ := by
  induction steps generalizing p with
  | zero => exact .refl
  | succ steps ih =>
    have hgroups : p.Holds p.scheduler.graph.SameFrame (p.workers.map Worker.group) :=
      ⟨.refl _, rfl⟩
    have hlength := congrArg List.length
      (hgroups.step (Graph.lasting_sameFrame p.scheduler.graph) snapshot).groups
    have hrounds : (p.step snapshot).2.atRest.rounds = p.atRest.rounds := by
      simpa [atRest] using hlength
    have hfirst : Steps snapshot p.atRest ⟨(p.step snapshot).2, p.atRest.rounds⟩ := by
      refine steps_step (fun i w hw => ?_) (h 0 (Nat.zero_le _)) (h 1 (by omega))
      exact List.getElem?_replicate_of_lt (List.getElem?_eq_some_iff.mp hw).1
    have hrest := ih (p := (p.step snapshot).2) fun t ht => h (t + 1) (by omega)
    have hrest' : (p.step snapshot).2.atRest = ⟨(p.step snapshot).2, p.atRest.rounds⟩ := by
      rw [← hrounds]
      rfl
    rw [hrounds, hrest'] at hrest
    exact hfirst.trans hrest

end Shift
end Pool
end Dataflow
