import Dataflow.Proofs.Execution.Conduct
import Dataflow.Proofs.Scheduler.Launch

/-!
# The course of a block through a run

What one run on one thread calls on a block follows a protocol (`IsCourse`): it is nothing, or a
start that fails, or a start followed by work, pauses and resumptions in turn, and one stop at the
end. Each step of a run lets every block be called as its state allows, and handling a message
calls no block, so the whole loop does (`conducts_alternates`); the rest is what starting and
giving up blocks do before the loop.
-/

namespace Dataflow

open Lifecycle (State)
open Execution (Extends Conducts)

/-- Calls on a block that has started, up to its stop. No call but the stop follows a work call
that failed or reported an end, and none but a resumption follows a pause. -/
def Attends : (isPaused : Bool) → List Call → Prop
  | _, [.stop] => True
  | false, .work (.status status) :: rest =>
    if status.goesOn then Attends false rest else rest = [.stop]
  | false, .work (.failed _) :: rest => rest = [.stop]
  | false, .pause :: rest => Attends true rest
  | true, .resume :: rest => Attends false rest
  | _, _ => False

/-- Calls on a block in one run. -/
def IsCourse : List Call → Prop
  | [] => True
  | .start (.error _) :: rest => rest = []
  | .start (.ok ()) :: rest => Attends false rest
  | _ => False

/-- Conduct that leads a block to rest ends with its stop. -/
theorem Conduct.attends {st st' : State} {calls : List Call} (h : Conduct st calls st')
    (hreturn : .work .crashed ∉ calls) (hrest : st'.IsResting) :
    (st = .running → Attends false calls) ∧ (st = .paused → Attends true calls) := by
  induction h with
  | rest =>
    refine ⟨fun hst => ?_, fun hst => ?_⟩ <;>
    · subst hst
      exact hrest.elim
  | work hgoes _ ih =>
    have hrest := ih (fun hmem => hreturn (List.mem_cons_of_mem _ hmem)) hrest
    refine ⟨fun _ => ?_, nofun⟩
    rw [Attends, if_pos hgoes]
    exact hrest.1 rfl
  | last hends =>
    refine ⟨fun _ => ?_, nofun⟩
    rw [Attends, hends]
    rfl
  | failed => exact ⟨fun _ => rfl, nofun⟩
  | crashed => exact absurd (List.mem_cons_self ..) hreturn
  | pause _ ih =>
    have hrest := ih (fun hmem => hreturn (List.mem_cons_of_mem _ hmem)) hrest
    exact ⟨fun _ => hrest.2 rfl, nofun⟩
  | resume _ ih =>
    have hrest := ih (fun hmem => hreturn (List.mem_cons_of_mem _ hmem)) hrest
    exact ⟨nofun, fun _ => hrest.1 rfl⟩
  | stop => exact ⟨fun _ => trivial, fun _ => trivial⟩

theorem callsOn_range (n i : Nat) (c : Call) :
    callsOn i ((List.range n).map fun j => ⟨j, c⟩) = if i < n then [c] else [] := by
  induction n with
  | zero => rfl
  | succ n ih =>
    rw [List.range_succ, List.map_append, callsOn_append, ih, List.map_singleton, callsOn_cons,
      callsOn_nil]
    rcases Nat.lt_trichotomy i n with h | rfl | h
    · simp [h, Nat.ne_of_gt h, Nat.lt_succ_of_lt h]
    · simp
    · simp [Nat.not_lt_of_gt h, Nat.ne_of_lt h, Nat.not_lt.mpr (Nat.succ_le_of_lt h)]

namespace Scheduler

variable {β : Type} [Block β] {s s' : Scheduler β}

/-! ### The loop -/

theorem conducts_step (h : s.Step s') :
    ∃ calls, Conducts s.toExecution s'.toExecution calls := by
  cases h with
  | receive | write | enter => exact ⟨[], .of_extends_nil (.of_eq rfl rfl)⟩
  | drive h => exact Execution.conducts_drives h

theorem conducts_steps (h : s.Steps s') :
    ∃ calls, Conducts s.toExecution s'.toExecution calls := by
  induction h with
  | refl => exact ⟨[], .of_extends_nil .refl⟩
  | tail _ hstep ih =>
    obtain ⟨calls, hc⟩ := ih
    obtain ⟨calls', hc'⟩ := conducts_step hstep
    exact ⟨_, hc.trans hc'⟩

theorem conducts_alternates {snapshot : PropertyMap} {hs : List (Handling β)}
    (h : Alternates Steps snapshot s hs s') :
    ∃ calls, Conducts s.toExecution s'.toExecution calls := by
  induction h with
  | rest hsteps => exact conducts_steps hsteps
  | @handle _ _ h _ hsteps _ ih =>
    obtain ⟨calls, hc⟩ := conducts_steps hsteps
    obtain ⟨calls', hc'⟩ := ih
    exact ⟨_, (hc.trans (.of_extends_nil (extends_after h snapshot))).trans hc'⟩

/-! ### Runs -/

omit [Block β] in
theorem course_of_launched {s₀ : Scheduler β} (h₀ : Launched s s₀) {calls : List JournalEntry}
    (hc : Conducts s₀.toExecution s'.toExecution calls) (hreturn : ReturningCalls calls)
    (hrest : IsAtRest s') {i : Nat} (hi : i < s.graph.nodes.length) :
    let calls' := s.everyBlock.map (fun j => ⟨j, .start (.ok ())⟩) ++ calls
    IsCourse (callsOn i calls') ∧ callsOn i calls' ≠ [] := by
  have hst : s₀.stateAt i = some .running := by
    rw [h₀.stateAt, Execution.stateAt, Graph.node?, List.getElem?_eq_getElem hi]
    rfl
  obtain ⟨st', hst', hconduct⟩ := hc.2 i _ hst
  have hcrash : .work .crashed ∉ callsOn i calls := fun hmem => hreturn i (mem_callsOn.mp hmem)
  have hattends := (hconduct.attends hcrash (hrest.blocks i st' hst')).1 rfl
  intro calls'
  have hon : callsOn i calls' = .start (.ok ()) :: callsOn i calls := by
    rw [callsOn_append, Execution.everyBlock, callsOn_range, if_pos hi]
    rfl
  rw [hon]
  exact ⟨hattends, List.cons_ne_nil _ _⟩

/-- Giving up after a block has failed to start only calls those before it. -/
theorem callsOn_abandon (hs : IsAtRest s) {x : Execution β} {i : Nat} {e : WorkError}
    (he : Extends s.toExecution x
      ((List.range i).map (fun i => ⟨i, .start (.ok ())⟩) ++ [⟨i, .start (.error e)⟩]))
    {stops : List JournalEntry} (hstops : Extends x (abandon x x.everyBlock) stops) {j : Nat}
    (hj : j < s.graph.nodes.length) :
    (j < i → Attends false (callsOn j stops)) ∧ (i ≤ j → callsOn j stops = []) := by
  have hx : ∀ j, x.stateAt j =
      (s.stateAt j).map fun st => if j < i then .running else if j = i then .error else st :=
    fun j => by rw [he.states, replay_startsUpTo]
  obtain ⟨stops', he', hrunning⟩ := Execution.extends_abandon x x.everyBlock
  obtain rfl := List.append_cancel_left (he'.journal.symm.trans hstops.journal)
  refine ⟨fun hlt => ?_, fun hge => List.eq_nil_iff_forall_not_mem.mpr fun c hmem => ?_⟩
  · obtain ⟨stops', hc⟩ := Execution.conducts_drives (Execution.drives_abandon x x.everyBlock)
    obtain rfl := List.append_cancel_left (hc.1.journal.symm.trans hstops.journal)
    have hst : x.stateAt j = some .running := by
      rw [hx, Execution.stateAt, Graph.node?, List.getElem?_eq_getElem hj]
      simp [hlt]
    have hmem : j ∈ x.everyBlock := by
      rw [Execution.mem_everyBlock, hst]
      rfl
    obtain ⟨st', hst', hconduct⟩ := hc.2 j _ hst
    rw [Execution.stateAt_abandon, if_pos hmem, hst] at hst'
    cases hst'
    refine (hconduct.attends (fun hcrash => ?_) trivial).1 rfl
    cases (hrunning _ (mem_callsOn.mp hcrash)).1
  · have hrun := (hrunning _ (mem_callsOn.mp hmem)).2
    exact absurd (hs.lt_of_running hx hrun) (Nat.not_lt.mpr hge)

theorem course_of_startFailed (hs : IsAtRest s) {x : Execution β} {j : Nat} {e : WorkError}
    (he : Extends s.toExecution x
      ((List.range j).map (fun i => ⟨i, .start (.ok ())⟩) ++ [⟨j, .start (.error e)⟩]))
    {stops : List JournalEntry} (hstops : Extends x (abandon x x.everyBlock) stops) {i : Nat}
    (hi : i < s.graph.nodes.length) :
    let calls := (List.range j).map (fun i => (⟨i, .start (.ok ())⟩ : JournalEntry)) ++
      [⟨j, .start (.error e)⟩] ++ stops
    IsCourse (callsOn i calls) ∧ (callsOn i calls = [] → j < i) := by
  intro calls
  obtain ⟨hbefore, hafter⟩ := callsOn_abandon hs he hstops hi
  have hon : callsOn i calls = (if i < j then [.start (.ok ())] else []) ++
      (if j = i then [.start (.error e)] else []) ++ callsOn i stops := by
    rw [callsOn_append, callsOn_append, callsOn_range, callsOn_cons, callsOn_nil]
  rcases Nat.lt_trichotomy i j with hlt | rfl | hgt
  · rw [if_pos hlt, if_neg (Nat.ne_of_gt hlt)] at hon
    rw [hon]
    exact ⟨hbefore hlt, fun hnil => (List.cons_ne_nil _ _ hnil).elim⟩
  · rw [if_neg (Nat.lt_irrefl i), if_pos rfl, hafter (Nat.le_refl i)] at hon
    rw [hon]
    exact ⟨rfl, fun hnil => (List.cons_ne_nil _ _ hnil).elim⟩
  · rw [if_neg (Nat.not_lt_of_gt hgt), if_neg (Nat.ne_of_lt hgt),
      hafter (Nat.le_of_lt hgt)] at hon
    rw [hon]
    exact ⟨trivial, fun _ => hgt⟩

/-- What a run on one thread calls on a block is a course of the block, and there is nothing of it
only if the graph is not valid or an earlier block failed to start. -/
theorem run_course (hs : Reachable s) {parallelism fuel : Nat} {client : Client}
    {result : Except SchedulerError Unit} (h : s.run parallelism fuel client = some (result, s')) :
    ∃ calls, s'.journal.toList = s.journal.toList ++ calls ∧
      (ReturningCalls calls → ∀ i < s.graph.nodes.length,
        IsCourse (callsOn i calls) ∧ (callsOn i calls = [] ↔ (∃ e, s.graph.validate = .error e) ∨
          ∃ j < i, ∃ e, ⟨j, .start (.error e)⟩ ∈ calls)) := by
  obtain ⟨calls, hall, hagrees⟩ := run_of_isAtRest hs.isAtRest h
  refine ⟨calls, hall.journal, fun hreturn i hi => ?_⟩
  have hagree := hagrees hreturn
  -- the reasons for which nothing is called are the same in all three cases
  have hnone : ((∃ e, s.graph.validate = .error e) ∨
      ∃ j < i, ∃ e, ⟨j, .start (.error e)⟩ ∈ calls) → callsOn i calls = [] := by
    rintro (⟨e, he⟩ | ⟨j, hj, e, hmem⟩)
    · rw [(hagree.invalid e he).2.2]
      rfl
    · refine List.eq_nil_iff_forall_not_mem.mpr fun c hc => ?_
      have hle := ((hagree.startFailed j e hmem).2.2.1 _ (mem_callsOn.mp hc)).1
      exact absurd hj (Nat.not_lt.mpr hle)
  rcases run_cases hs.isAtRest h with ⟨hinvalid, he⟩ | ⟨hvalid, j, e, x, hj, he, hg, hjournal⟩ |
    ⟨hvalid, snapshot, s₀, s₁, hlaunch, hrun, rfl⟩
  · obtain rfl := List.append_cancel_left (hall.journal.symm.trans he.journal)
    exact ⟨trivial, fun _ => .inl hinvalid, hnone⟩
  · obtain ⟨stops, hstops, -⟩ := Execution.extends_abandon x x.everyBlock
    have hnodes : s'.graph.nodes = (abandon x x.everyBlock).graph.nodes := by rw [hg]
    have hwhole := (he.trans hstops).before hnodes hjournal
    obtain rfl := List.append_cancel_left (hall.journal.symm.trans hwhole.journal)
    obtain ⟨hcourse, hnil⟩ := course_of_startFailed hs.isAtRest he hstops hi
    exact ⟨hcourse, fun h => .inr ⟨j, hnil h, e, by simp⟩, hnone⟩
  · have hlaunched := hlaunch.launched hs.isAtRest
    obtain ⟨loop, hc⟩ := conducts_alternates (Loop.run_alternates hrun)
    have hu := untouched_answerRest s₁ snapshot result
    have hrest : Extends s₁.toExecution (s₁.answerRest snapshot result).toExecution [] :=
      .of_eq (by rw [hu.graph]) hu.journal
    have hc := hc.trans (.of_extends_nil hrest)
    have hwhole := hlaunched.starts.trans hc.1
    obtain rfl := List.append_cancel_left (hall.journal.symm.trans hwhole.journal)
    have hreturn' : ReturningCalls (loop ++ []) := fun j hmem =>
      hreturn j (List.mem_append_right _ hmem)
    obtain ⟨hcourse, hne⟩ := course_of_launched hlaunched hc hreturn' hagree.atRest hi
    exact ⟨hcourse, fun h => absurd h hne, hnone⟩

/-- A client pauses both blocks, resumes them, and ends the run. -/
theorem run_endless : ∃ s',
    (endless []).run 1 200 (.begin ["REQUESTED_PAUSE", "RUNNING", "REQUESTED_STOP"]) =
      some (.ok (), s') ∧
    ReturningCalls s'.journal.toList ∧ ⟨0, .pause⟩ ∈ s'.journal.toList := by
  have hany : ((endless []).run 1 200
      (.begin ["REQUESTED_PAUSE", "RUNNING", "REQUESTED_STOP"])).any (fun outcome =>
        outcome.1.isOk && decide (ReturningCalls outcome.2.journal.toList) &&
          (callsOn 0 outcome.2.journal.toList).any Call.isPause) = true := by
    decide +kernel
  obtain ⟨⟨result, s'⟩, hrun, hall⟩ := (Option.any_eq_true ..).mp hany
  rw [Bool.and_eq_true, Bool.and_eq_true, decide_eq_true_eq, List.any_eq_true] at hall
  obtain ⟨⟨hok, hreturn⟩, c, hmem, hpause⟩ := hall
  obtain rfl := Call.isPause_iff.mp hpause
  refine ⟨s', ?_, hreturn, mem_callsOn.mp hmem⟩
  cases result with
  | ok => exact hrun
  | error => cases hok

theorem run_course_endless : ∃ s' calls, Reachable (endless []) ∧
    (endless []).run 1 200 (.begin ["REQUESTED_PAUSE", "RUNNING", "REQUESTED_STOP"]) =
      some (.ok (), s') ∧
    s'.journal.toList = (endless []).journal.toList ++ calls ∧ ReturningCalls calls ∧
    .pause ∈ callsOn 0 calls ∧ IsCourse (callsOn 0 calls) ∧ IsCourse (callsOn 1 calls) := by
  obtain ⟨s', hrun, hreturn, hpause⟩ := run_endless
  obtain ⟨calls, hcalls, hcourse⟩ := run_course (reachable_endless []) hrun
  have heq : s'.journal.toList = calls := hcalls
  subst heq
  exact ⟨s', _, reachable_endless [], hrun, hcalls, hreturn, mem_callsOn.mpr hpause,
    (hcourse hreturn 0 (by decide)).1, (hcourse hreturn 1 (by decide)).1⟩

end Scheduler
end Dataflow
