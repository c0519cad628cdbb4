import Dataflow.Proofs.Scheduler.Outcome
import Dataflow.Proofs.Scheduler.Steps

/-!
# Runs that get past initialisation

A run either ends before its loop begins, because the graph is not valid or a block does not start,
or it launches (`Scheduler.Launches`): all blocks have been started, and the rest of it is that of
the loop (`run_cases`, `Launches.run_eq`).
-/

namespace Dataflow

open Lifecycle (State)
open Execution (Extends)

namespace Scheduler

variable {β : Type} {s s' : Scheduler β} {snapshot : PropertyMap}

/-- A scheduler whose blocks have all been started. -/
structure Launched (s s' : Scheduler β) : Prop where
  walks : Walks s s'
  running : s'.lifecycle = .running
  starts : Extends s.toExecution s'.toExecution (s.everyBlock.map fun i => ⟨i, .start (.ok ())⟩)

theorem Launched.stateAt (h : Launched s s') (j : Nat) :
    s'.stateAt j = (s.stateAt j).map fun _ => .running :=
  h.starts.stateAt_starts j

theorem Launched.noneFailed (h : Launched s s') : NoneFailed s'.stateAt := by
  intro j hj
  rw [h.stateAt, Option.map_eq_some_iff] at hj
  obtain ⟨_, _, hj⟩ := hj
  cases hj

variable [Block β]

/-- A run gets past initialisation, and its loop begins with the scheduler `s'`. -/
def Launches (s : Scheduler β) (snapshot : PropertyMap) (s' : Scheduler β) : Prop :=
  ∃ s₁ s₂, s.prepare = .ok s₁ ∧ s₁.initialise = (.ok snapshot, s₂) ∧ s₂.moveTo .running = .ok s'

theorem Launches.launched (hs : IsAtRest s) (h : s.Launches snapshot s') : Launched s s' := by
  obtain ⟨s₁, s₂, hprepare, hinit, hmove⟩ := h
  obtain ⟨_, hprepare', hw₁, hl₁, hg₁, hj₁⟩ := prepare_spec hs.lifecycle
  cases hprepare'.symm.trans hprepare
  have hspec := initialise_spec s₁
  rw [hinit] at hspec
  obtain ⟨hw₃, hl₃, hg₃, hj₃⟩ := moveTo_spec hmove
  cases hspec with
  | started hvalid hw hl he =>
    have he₁ : Extends s.toExecution s₁.toExecution [] := .of_eq (by rw [hg₁]) hj₁
    have hstarts := (he₁.trans he).before (by rw [hg₃]) hj₃
    rw [he₁.everyBlock] at hstarts
    exact ⟨(hw₁.trans hw).trans hw₃, hl₃, hstarts⟩

theorem Launches.run_eq (hs : IsAtRest s) (h : s.Launches snapshot s') (parallelism fuel : Nat)
    (client : Client) :
    s.run parallelism fuel client = ((Loop.begin s' client).run snapshot fuel).map
      fun (result, t) => (result, t.answerRest snapshot result) := by
  have hpolicy : s'.config.policy = .singleThreaded := by
    rw [(h.launched hs).walks.config, hs.policy]
  obtain ⟨s₁, s₂, hprepare, hinit, hmove⟩ := h
  simp only [run, hprepare, hinit, hmove, runByPolicy, hpolicy]

/-- A run that has come to an end without an error has got past initialisation. -/
theorem exists_launches {parallelism fuel : Nat} {client : Client}
    (h : s.run parallelism fuel client = some (.ok (), s')) :
    ∃ snapshot s₀, s.Launches snapshot s₀ := by
  simp only [run] at h
  split at h
  · cases h
  next hprepare =>
    split at h
    · cases h
    next hinit =>
      split at h
      · cases h
      next hmove => exact ⟨_, _, _, _, hprepare, hinit, hmove⟩

/-- A graph whose binding has been followed by the start of some of its blocks. -/
theorem initialise_error {s s' : Scheduler β} {e : SchedulerError}
    (h : s.initialise = (.error e, s')) (hvalid : s.graph.validate = .ok ()) :
    ∃ i w x, startAll (s.exec fun x => { x with graph := x.graph.bind }).toExecution s.everyBlock =
      (some (i, w), x) ∧ s'.toExecution = abandon x x.everyBlock := by
  have heach : (s.exec fun x => { x with graph := x.graph.bind }).everyBlock = s.everyBlock := rfl
  simp only [initialise, hvalid, heach] at h
  split at h
  next i w x hstart =>
    cases h
    exact ⟨i, w, x, hstart, rfl⟩
  next => cases h

/-- A run ends because the graph is not valid, because a block fails to start, or as its loop
does. -/
theorem run_cases (hs : IsAtRest s) {parallelism fuel : Nat} {client : Client}
    {result : Except SchedulerError Unit} (h : s.run parallelism fuel client = some (result, s')) :
    ((∃ e, s.graph.validate = .error e) ∧ Extends s.toExecution s'.toExecution []) ∨
    (s.graph.validate = .ok () ∧ ∃ i e x, i < s.graph.nodes.length ∧
      Extends s.toExecution x
        ((List.range i).map (fun i => ⟨i, .start (.ok ())⟩) ++ [⟨i, .start (.error e)⟩]) ∧
      s'.graph = (abandon x x.everyBlock).graph ∧ s'.journal = (abandon x x.everyBlock).journal) ∨
    s.graph.validate = .ok () ∧ ∃ snapshot s₀ s₁, s.Launches snapshot s₀ ∧
      (Loop.begin s₀ client).run snapshot fuel = some (result, s₁) ∧
      s' = s₁.answerRest snapshot result := by
  obtain ⟨s₁, hprepare, hw₁, hl₁, hg₁, hj₁⟩ := prepare_spec hs.lifecycle
  have he₁ : Extends s.toExecution s₁.toExecution [] := .of_eq (by rw [hg₁]) hj₁
  rcases hinit : s₁.initialise with ⟨outcome, s₂⟩
  have hspec := initialise_spec s₁
  rw [hinit] at hspec
  cases hvalid : s.graph.validate with
  | error e =>
    cases hspec with
    | invalid =>
      simp only [run, hprepare, hinit] at h
      cases h
      exact .inl ⟨⟨e, rfl⟩, he₁.before rfl rfl⟩
    | started hv | failed hv =>
      rw [hg₁, hvalid] at hv
      cases hv
  | ok =>
    refine .inr ?_
    cases outcome with
    | ok snapshot =>
      have hl₂ : s₂.lifecycle = .initialising := by
        cases hspec with
        | started _ _ hl => rw [hl, hl₁]
      have hreach : s₂.lifecycle.canReach .running = true := by rw [hl₂]; rfl
      obtain ⟨s₃, hmove⟩ := moveTo_of_canReach hreach
      have hlaunch : s.Launches snapshot s₃ := ⟨s₁, s₂, hprepare, hinit, hmove⟩
      rw [hlaunch.run_eq hs, Option.map_eq_some_iff] at h
      obtain ⟨⟨result', s₄⟩, hrun, heq⟩ := h
      cases heq
      exact .inr ⟨rfl, snapshot, s₃, s₄, hlaunch, hrun, rfl⟩
    | error e =>
      refine .inl ⟨rfl, ?_⟩
      rw [← hg₁] at hvalid
      obtain ⟨i, w, x, hstart, heq⟩ := initialise_error hinit hvalid
      have hstarted := Execution.startAll_started
        (s₁.exec fun x => { x with graph := x.graph.bind }).toExecution s₁.everyBlock
        fun i hi => List.mem_range.mp hi
      rw [hstart] at hstarted
      cases hstarted with
      | @upTo _ before after _ _ hsplit he =>
        obtain ⟨rfl, hi⟩ := eq_range_of_split hsplit
        have hbound : Extends s.toExecution
            (s₁.exec fun x => { x with graph := x.graph.bind }).toExecution [] :=
          he₁.before rfl rfl
        simp only [run, hprepare, hinit] at h
        cases h
        refine ⟨i, w, x, by rw [← hg₁]; exact hi, hbound.trans he, ?_, ?_⟩
        · show s₂.graph = _
          rw [heq]
        · show s₂.journal = _
          rw [heq]

/-- A source and a sink that never end, with messages in the inbox. -/
def endless (inbox : List Message) : Scheduler Builtin :=
  let type : SampleType := .int .i32
  let graph : Graph Builtin :=
    ⟨[.new "NullSource" "" (.nullSource (.new type)) 0,
        .new "NullSink" "" (.nullSink (.new type)) 0],
      [⟨⟨0, 0⟩, ⟨1, 0⟩, some 1, type, none⟩], .default⟩
  { new graph .default 0 with inbox }

theorem reachable_endless (inbox : List Message) : Reachable (endless inbox) := by
  have hrest : ∀ n ∈ (endless []).graph.nodes, n.state.IsResting := fun n hn => by
    simp only [endless, new, List.mem_cons, List.not_mem_nil, or_false] at hn
    rcases hn with rfl | rfl <;> trivial
  have hnew : Reachable (endless []) := .new rfl hrest
  exact hnew.change rfl rfl hrest

end Scheduler
end Dataflow
