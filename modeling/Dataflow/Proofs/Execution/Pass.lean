import Dataflow.Proofs.Execution.Calls
import Dataflow.Scheduler.Run

/-!
# Calls of passes

What passes, and starting and stopping all blocks, do to the states of blocks. A pass that is not
cut short goes on quietly (`Execution.Quietly`); one that is cut short has made quiet calls before
the one that failed or crashed (`Execution.Went`). Blocks are started in order up to the first
that fails (`Execution.Started`). Stopping a group gives each of its blocks a terminal state,
which for those that had one already is the one they had.
-/

namespace Dataflow

open Lifecycle (State)

/-- The state of a block once it has been asked to stop. -/
def Lifecycle.State.halted (st : State) : State := if st.isTerminal then st else .stopped

/-- The state of a block once it has been abandoned. -/
def Lifecycle.State.abandoned (st : State) : State := if st = .running then .stopped else st

namespace Execution

variable {β : Type} {x x' x'' : Execution β} {calls calls' : List JournalEntry}

/-- One execution goes on from another by quiet calls. -/
def Quietly (x x' : Execution β) : Prop := ∃ calls, Extends x x' calls ∧ QuietCalls calls

namespace Quietly

theorem refl : Quietly x x := ⟨[], .refl, by simp [QuietCalls]⟩

theorem of_eq (hn : x'.graph.nodes = x.graph.nodes) (hj : x'.journal = x.journal) :
    Quietly x x' :=
  ⟨[], .of_eq hn hj, by simp [QuietCalls]⟩

theorem trans (h : Quietly x x') (h' : Quietly x' x'') : Quietly x x'' := by
  obtain ⟨calls, he, hq⟩ := h
  obtain ⟨calls', he', hq'⟩ := h'
  exact ⟨_, he.trans he', hq.append hq'⟩

theorem noneFailed (h : Quietly x x') (hx : NoneFailed x.stateAt) : NoneFailed x'.stateAt := by
  obtain ⟨calls, he, hq⟩ := h
  rw [he.states]
  exact hq.noneFailed hx

theorem foldl {f : Execution β → Nat → Execution β} (hf : ∀ x i, Quietly x (f x i))
    (x : Execution β) (group : List Nat) : Quietly x (group.foldl f x) := by
  induction group generalizing x with
  | nil => exact .refl
  | cons i rest ih => exact (hf x i).trans (ih (f x i))

end Quietly

/-- All blocks have been asked to stop. -/
structure Halts (x x' : Execution β) : Prop where
  calls : ∃ calls, Extends x x' calls ∧ ∀ e ∈ calls, e.call = .stop
  states : ∀ j, x'.stateAt j = (x.stateAt j).map State.halted

/-- A change to what is not the nodes after. -/
theorem Halts.before (h : Halts x x') (hn : x''.graph.nodes = x'.graph.nodes)
    (hj : x''.journal = x'.journal) : Halts x x'' := by
  obtain ⟨⟨calls, he, hstop⟩, hstates⟩ := h
  have he' := he.before hn hj
  refine ⟨⟨calls, he', hstop⟩, fun j => ?_⟩
  rw [he'.states, ← he.states]
  exact hstates j

/-- A change to what is not the nodes before. -/
theorem Halts.after (hn : x'.graph.nodes = x.graph.nodes) (hj : x'.journal = x.journal)
    (h : Halts x' x'') : Halts x x'' := by
  obtain ⟨⟨calls, he, hstop⟩, hstates⟩ := h
  have he' := Extends.of_eq hn hj
  exact ⟨⟨calls, he'.trans he, hstop⟩, fun j => by rw [hstates, he'.states]; rfl⟩

theorem Halts.quietly (h : Halts x x') : Quietly x x' := by
  obtain ⟨⟨calls, he, hstop⟩, _⟩ := h
  refine ⟨calls, he, fun e hmem => ?_⟩
  rw [hstop e hmem]
  trivial

theorem Halts.isFinished (h : Halts x x') (j : Nat) : x'.isFinished j = true := by
  rw [isFinished_eq, h.states]
  cases x.stateAt j with
  | none => rfl
  | some st => cases st <;> rfl

/-- What a fold over positions does to states, if a step changes the state at its position by a
function that changes nothing the second time. -/
theorem stateAt_foldl {f : Execution β → Nat → Execution β} {g : State → State}
    (hf : ∀ x i j, (f x i).stateAt j = if i = j then (x.stateAt j).map g else x.stateAt j)
    (hg : ∀ st, g (g st) = g st) (x : Execution β) (group : List Nat) (j : Nat) :
    (group.foldl f x).stateAt j = if j ∈ group then (x.stateAt j).map g else x.stateAt j := by
  induction group generalizing x with
  | nil => simp
  | cons i rest ih =>
    rw [List.foldl_cons, ih, hf]
    by_cases hi : i = j
    · subst hi
      simp [Function.comp_def, hg]
    · simp [hi, Ne.symm hi]

theorem any_running_iff (x : Execution β) (i : Nat) :
    ((x.graph.node? i).any fun n => n.state = .running) = true ↔ x.stateAt i = some .running := by
  simp only [stateAt]
  cases x.graph.node? i <;> simp

theorem mem_everyBlock {i : Nat} : i ∈ x.everyBlock ↔ (x.stateAt i).isSome := by
  simp [everyBlock, stateAt, Graph.node?]

/-- How an invocation or a pass went: quietly, or up to a block whose work failed, which has then
been stopped, or up to a block that crashed. -/
inductive Went (x : Execution β) : Option PassFailure → Execution β → Prop where
  | quietly {x' : Execution β} : Quietly x x' → Went x none x'
  | failed {x₁ x' : Execution β} {i : Nat} {e : WorkError} :
      Quietly x x₁ → x₁.stateAt i = some .running →
      Extends x₁ x' [⟨i, .work (.failed e)⟩, ⟨i, .stop⟩] →
      Went x (some (.failed (x.nameOf i) e)) x'
  | crashed {x₁ x' : Execution β} {i : Nat} : Quietly x x₁ → Extends x₁ x' [⟨i, .work .crashed⟩] →
      Went x (some .crashed) x'

theorem Went.extends {f : Option PassFailure} (h : Went x f x') : ∃ calls, Extends x x' calls := by
  cases h with
  | quietly h =>
    obtain ⟨calls, he, _⟩ := h
    exact ⟨calls, he⟩
  | failed h _ h' =>
    obtain ⟨calls, he, _⟩ := h
    exact ⟨_, he.trans h'⟩
  | crashed h h' =>
    obtain ⟨calls, he, _⟩ := h
    exact ⟨_, he.trans h'⟩

/-- Quiet calls before. -/
theorem Went.after {f : Option PassFailure} (hq : Quietly x x') (h : Went x' f x'') :
    Went x f x'' := by
  obtain ⟨calls, he, _⟩ := id hq
  cases h with
  | quietly h => exact .quietly (hq.trans h)
  | failed h hst h' =>
    rw [he.nameOf]
    exact .failed (hq.trans h) hst h'
  | crashed h h' => exact .crashed (hq.trans h) h'

/-- A change to what is not the nodes after. -/
theorem Went.before {f : Option PassFailure} (h : Went x f x')
    (hn : x''.graph.nodes = x'.graph.nodes) (hj : x''.journal = x'.journal) : Went x f x'' := by
  cases h with
  | quietly h => exact .quietly (h.trans (.of_eq hn hj))
  | failed h hst h' => exact .failed h hst (h'.before hn hj)
  | crashed h h' => exact .crashed h (h'.before hn hj)

theorem unfinished_pos {group : List Nat} (h : x.allFinished group = false) :
    1 ≤ x.unfinished group := by
  rw [allFinished, List.all_eq_false] at h
  obtain ⟨i, hi, hfin⟩ := h
  exact List.countP_pos_iff.mpr ⟨i, hi, by simpa using hfin⟩

variable [Block β]

/-! ### Stopping -/

theorem stateAt_finish (x : Execution β) (i : Nat) (reason : FinishReason) (j : Nat) :
    (x.finish i reason).stateAt j =
      if i = j then (x.stateAt j).map State.halted else x.stateAt j := by
  cases h : x.isFinished i with
  | true =>
    rw [finish_of_isFinished h]
    split
    next hij =>
      subst hij
      rw [isFinished_eq] at h
      cases hst : x.stateAt i with
      | none => rfl
      | some st =>
        rw [hst] at h
        have h : st.isTerminal = true := h
        simp [State.halted, h]
    next => rfl
  | false =>
    rw [(extends_finish h reason).states]
    simp only [replay_cons, replay_nil, JournalEntry.apply, @eq_comm Nat i]
    split
    next hij =>
      subst hij
      rw [isFinished_eq] at h
      cases hst : x.stateAt j with
      | none => rfl
      | some st =>
        rw [hst] at h
        have h : st.isTerminal = false := h
        have hne : st ≠ .error := fun he => by simp [he, State.isTerminal] at h
        simp [State.halted, h, Call.next, hne]
    next => rfl

theorem isFinished_finish (x : Execution β) (i : Nat) (reason : FinishReason) (j : Nat) :
    (x.finish i reason).isFinished j = (decide (i = j) || x.isFinished j) := by
  rw [isFinished_eq, isFinished_eq, stateAt_finish]
  by_cases h : i = j
  · cases hst : x.stateAt j with
    | none => simp [h]
    | some st => cases st <;> simp [h, State.halted, State.isTerminal]
  · simp [h]

theorem extends_finish_any (x : Execution β) (i : Nat) (reason : FinishReason) :
    ∃ calls, Extends x (x.finish i reason) calls ∧ ∀ e ∈ calls, e = ⟨i, .stop⟩ := by
  cases h : x.isFinished i with
  | true => exact ⟨[], by rw [finish_of_isFinished h]; exact .refl, by simp⟩
  | false => exact ⟨_, extends_finish h reason, by simp⟩

theorem quietly_finish (x : Execution β) (i : Nat) (reason : FinishReason) :
    Quietly x (x.finish i reason) := by
  obtain ⟨calls, he, hcalls⟩ := extends_finish_any x i reason
  exact ⟨calls, he, fun e hmem => by rw [hcalls e hmem]; trivial⟩

theorem stateAt_stopAll (x : Execution β) (group : List Nat) (j : Nat) :
    (x.stopAll group).stateAt j =
      if j ∈ group then (x.stateAt j).map State.halted else x.stateAt j :=
  stateAt_foldl (fun x i j => stateAt_finish x i .stopRequested j)
    (fun st => by cases st <;> rfl) x group j

theorem extends_stopAll (x : Execution β) (group : List Nat) :
    ∃ calls, Extends x (x.stopAll group) calls ∧ ∀ e ∈ calls, e.call = .stop := by
  induction group generalizing x with
  | nil => exact ⟨[], .refl, by simp⟩
  | cons i rest ih =>
    obtain ⟨calls, he, hcalls⟩ := extends_finish_any x i .stopRequested
    obtain ⟨calls', he', hcalls'⟩ := ih (x.finish i .stopRequested)
    refine ⟨_, he.trans he', fun e hmem => ?_⟩
    rcases List.mem_append.mp hmem with hmem | hmem
    · rw [hcalls e hmem]
    · exact hcalls' e hmem

theorem halts_stopAll (x : Execution β) : Halts x (x.stopAll x.everyBlock) := by
  refine ⟨extends_stopAll x x.everyBlock, fun j => ?_⟩
  rw [stateAt_stopAll]
  split
  next => rfl
  next h =>
    rw [mem_everyBlock, Option.not_isSome_iff_eq_none] at h
    rw [h]
    rfl

/-! ### Pausing -/

theorem quietly_pauseAll (x : Execution β) (group : List Nat) : Quietly x (x.pauseAll group) :=
  .foldl extends_pause x group

theorem quietly_resumeAll (x : Execution β) (group : List Nat) : Quietly x (x.resumeAll group) :=
  .foldl extends_resume x group

/-! ### Messages to blocks -/

theorem apply_frame (n : Node β) (settings : PropertyMap) (isRunning : Bool) :
    (n.apply settings isRunning).node.uniqueName = n.uniqueName ∧
      (n.apply settings isRunning).node.state = n.state := by
  simp only [Node.apply]
  split
  · exact ⟨rfl, rfl⟩
  · split <;> exact ⟨rfl, rfl⟩

theorem answer_frame (n : Node β) (m : Message) :
    (n.answer m).node.uniqueName = n.uniqueName ∧ (n.answer m).node.state = n.state := by
  simp only [Node.answer]
  split
  case h_2 =>
    simp only [Node.answerSet]
    split
    · exact ⟨rfl, rfl⟩
    · split <;> exact apply_frame n _ true
  all_goals exact ⟨rfl, rfl⟩

/-- Answering a message makes no call. -/
theorem extends_answerFrom (x : Execution β) (group : List Nat) (m : Message) :
    Extends x (x.answerFrom group m).2 [] := by
  simp only [answerFrom]
  split
  · exact .refl
  next i _ =>
    split
    · exact .refl
    next n hn =>
      obtain ⟨hname, hstate⟩ := answer_frame n m
      have he := extends_modifyNode (f := fun _ => (n.answer m).node) hn hname hstate
      exact ⟨he.journal, he.states, he.names⟩

theorem quietly_answerFrom (x : Execution β) (group : List Nat) (m : Message) :
    Quietly x (x.answerFrom group m).2 :=
  ⟨[], extends_answerFrom x group m, by simp [QuietCalls]⟩

/-! ### Passes -/

/-- The failure of a pass that an invocation of a block amounts to. -/
def Invocation.failure? (x : Execution β) (i : Nat) : Invocation → Option PassFailure
  | .failed e => some (.failed (x.nameOf i) e)
  | .crashed => some .crashed
  | _ => none

theorem invoke_went (x : Execution β) (i : Nat) :
    Went x (Invocation.failure? x i (x.invoke i).1) (x.invoke i).2 := by
  simp only [invoke]
  split
  · exact .quietly .refl
  next n hn =>
    split
    · exact .quietly .refl
    next hrun =>
      have hrun : n.state = .running := Decidable.not_not.mp hrun
      have hst : x.stateAt i = some .running := by rw [stateAt, hn, Option.map_some, hrun]
      have hfinish : ∀ {y : Execution β} (reason : FinishReason), Quietly x y →
          Went x none (y.finish i reason) := fun reason h =>
        .quietly (h.trans (quietly_finish _ i reason))
      have hwork : ∀ st, (x.work i n).1 = .status st → Quietly x (x.work i n).2 := fun st h =>
        ⟨_, extends_work x hn (by simp [h]), by simp [QuietCalls, h, Call.IsQuiet]⟩
      split
      · exact hfinish .detached .refl
      · cases hout : (x.work i n).1 with
        | crashed => exact .crashed .refl (hout ▸ extends_work x hn (by simp [hout]))
        | failed e => exact .failed .refl hst (extends_failed x hn hrun hout)
        | status st =>
          have hq := hwork st hout
          cases st with
          | ok => exact .quietly hq
          | insufficientInput =>
            dsimp only
            split
            · exact hfinish .endOfStream hq
            · exact .quietly hq
          | insufficientOutput => exact .quietly hq
          | endOfStream => exact hfinish .endOfStream hq
          | done => exact hfinish .done hq

theorem runPass_went (x : Execution β) (group : List Nat) :
    Went x (x.runPass group).1.failure (x.runPass group).2 := by
  induction group generalizing x with
  | nil => exact .quietly .refl
  | cons i rest ih =>
    rw [runPass]
    split
    · exact ih x
    · have hi := invoke_went x i
      rcases hout : x.invoke i with ⟨invocation, y⟩
      rw [hout] at hi
      have hquiet : Invocation.failure? x i invocation = none → Quietly x y := fun h => by
        rw [h] at hi
        cases hi with
        | quietly h => exact h
      cases invocation with
      | idle => exact (ih y).after (hquiet rfl)
      | progress => exact (ih y).after (hquiet rfl)
      | finished => exact (ih y).after (hquiet rfl)
      | failed e =>
        obtain ⟨calls, he⟩ := hi.extends
        show Went x (some (.failed (y.nameOf i) e)) _
        rw [he.nameOf]
        exact hi.before rfl rfl
      | crashed => exact hi

/-- A pass without progress or failure has finished no block. -/
theorem runPass_idle {x x' : Execution β} {group : List Nat} {report : PassReport}
    (h : x.runPass group = (report, x')) (hprog : report.progressed = false)
    (hfail : report.failure = none) : report = ⟨false, 0, none⟩ := by
  induction group generalizing x with
  | nil =>
    cases h
    rfl
  | cons i rest ih =>
    rw [runPass] at h
    split at h
    · exact ih h
    · rcases hout : x.invoke i with ⟨invocation, y⟩
      rw [hout] at h
      cases invocation with
      | idle => exact ih h
      | progress =>
        cases h
        cases hprog
      | finished =>
        cases h
        cases hprog
      | failed e =>
        cases h
        cases hfail
      | crashed =>
        cases h
        cases hfail

/-! ### Starting -/

/-- How starting blocks in order went: all have started, or those before the first that failed. -/
inductive Started (x : Execution β) (group : List Nat) :
    Option (Nat × WorkError) → Execution β → Prop where
  | all {x' : Execution β} : Extends x x' (group.map fun i => ⟨i, .start (.ok ())⟩) →
      Started x group none x'
  | upTo {x' : Execution β} {before after : List Nat} {i : Nat} {e : WorkError} :
      group = before ++ i :: after →
      Extends x x' ((before.map fun i => ⟨i, .start (.ok ())⟩) ++ [⟨i, .start (.error e)⟩]) →
      Started x group (some (i, e)) x'

theorem startAll_started (x : Execution β) (group : List Nat)
    (hg : ∀ i ∈ group, i < x.graph.nodes.length) :
    Started x group (Scheduler.startAll x group).1 (Scheduler.startAll x group).2 := by
  induction group generalizing x with
  | nil => exact .all .refl
  | cons i rest ih =>
    have he := extends_start x (hg i (List.mem_cons_self ..))
    rw [Scheduler.startAll]
    rcases hout : x.start i with ⟨result, y⟩
    rw [hout] at he
    cases result with
    | error e => exact .upTo (List.nil_append (i :: rest)).symm he
    | ok =>
      have hrest := ih y fun j hj => by
        rw [he.length_nodes]
        exact hg j (List.mem_cons_of_mem _ hj)
      show Started x (i :: rest) (Scheduler.startAll y rest).1 (Scheduler.startAll y rest).2
      cases hr : (Scheduler.startAll y rest).1 with
      | none =>
        rw [hr] at hrest
        cases hrest with
        | all h => exact .all (he.trans h)
      | some failure =>
        rw [hr] at hrest
        cases hrest with
        | @upTo _ before after j e heq h =>
          have hsplit : i :: rest = (i :: before) ++ j :: after := by rw [heq, List.cons_append]
          exact .upTo hsplit (he.trans h)

/-- States after some blocks have started. -/
theorem replay_starts (states : Nat → Option State) (group : List Nat) (j : Nat) :
    replay states (group.map fun i => ⟨i, .start (.ok ())⟩) j =
      if j ∈ group then (states j).map fun _ => .running else states j := by
  induction group generalizing states with
  | nil => simp
  | cons i rest ih =>
    rw [List.map_cons, replay_cons, ih]
    by_cases hi : j = i
    · subst hi
      simp [JournalEntry.apply, Call.next, Function.comp_def]
    · simp [JournalEntry.apply, hi]

omit [Block β] in
/-- Once all blocks have been started, each of them runs. -/
theorem Extends.stateAt_starts
    (h : Extends x x' (x.everyBlock.map fun i => ⟨i, .start (.ok ())⟩)) (j : Nat) :
    x'.stateAt j = (x.stateAt j).map fun _ => .running := by
  rw [h.states, replay_starts]
  split
  next => rfl
  next hj =>
    rw [mem_everyBlock, Option.not_isSome_iff_eq_none] at hj
    rw [hj]
    rfl

/-! ### Giving up -/

/-- Finish a block if it is running. -/
def giveUp (x : Execution β) (i : Nat) : Execution β :=
  if (x.graph.node? i).any fun n => n.state = .running then x.finish i .failed else x

theorem abandon_eq (x : Execution β) (group : List Nat) :
    Scheduler.abandon x group = group.foldl giveUp x := rfl

theorem stateAt_giveUp (x : Execution β) (i j : Nat) :
    (x.giveUp i).stateAt j =
      if i = j then (x.stateAt j).map State.abandoned else x.stateAt j := by
  rw [giveUp]
  split
  next h =>
    rw [any_running_iff] at h
    rw [stateAt_finish]
    split
    next hij =>
      subst hij
      rw [h]
      rfl
    next => rfl
  next h =>
    rw [any_running_iff] at h
    split
    next hij =>
      subst hij
      cases hst : x.stateAt i with
      | none => rfl
      | some st =>
        have hne : st ≠ .running := fun heq => h (by rw [hst, heq])
        simp [State.abandoned, hne]
    next => rfl

theorem stateAt_abandon (x : Execution β) (group : List Nat) (j : Nat) :
    (Scheduler.abandon x group).stateAt j =
      if j ∈ group then (x.stateAt j).map State.abandoned else x.stateAt j := by
  rw [abandon_eq]
  exact stateAt_foldl stateAt_giveUp (fun st => by cases st <;> rfl) x group j

/-- Giving up only stops blocks that are running. -/
theorem extends_abandon (x : Execution β) (group : List Nat) :
    ∃ calls, Extends x (Scheduler.abandon x group) calls ∧
      ∀ e ∈ calls, e.call = .stop ∧ x.stateAt e.block = some .running := by
  rw [abandon_eq]
  induction group generalizing x with
  | nil => exact ⟨[], .refl, by simp⟩
  | cons i rest ih =>
    obtain ⟨calls, he, hcalls⟩ : ∃ calls, Extends x (x.giveUp i) calls ∧
        ∀ e ∈ calls, e.call = .stop ∧ x.stateAt e.block = some .running := by
      rw [giveUp]
      split
      next h =>
        obtain ⟨calls, he, hcalls⟩ := extends_finish_any x i .failed
        refine ⟨calls, he, fun e hmem => ?_⟩
        rw [hcalls e hmem]
        exact ⟨rfl, (any_running_iff x i).mp h⟩
      next => exact ⟨[], .refl, by simp⟩
    obtain ⟨calls', he', hcalls'⟩ := ih (x.giveUp i)
    refine ⟨_, he.trans he', fun e hmem => ?_⟩
    rcases List.mem_append.mp hmem with hmem | hmem
    · exact hcalls e hmem
    · obtain ⟨hstop, hrun⟩ := hcalls' e hmem
      refine ⟨hstop, ?_⟩
      -- what still runs after `i` was given up was running before
      rw [stateAt_giveUp] at hrun
      split at hrun
      · rw [Option.map_eq_some_iff] at hrun
        obtain ⟨st, hst, hrun⟩ := hrun
        cases st <;> simp [State.abandoned] at hrun
      · exact hrun

end Execution
end Dataflow
