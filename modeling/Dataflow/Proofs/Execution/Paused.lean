import Dataflow.Proofs.Execution.Pass

/-!
# Blocks that are not paused

Only pausing pauses a block: where none is paused (`NonePaused`), none is after a pass. None is
paused once all have been resumed or stopped.
-/

namespace Dataflow

open Lifecycle (State)

/-- The state of a block once it has been resumed. -/
def Lifecycle.State.resumed (st : State) : State := if st = .paused then .running else st

theorem Lifecycle.State.isTerminal_resumed {st st' : State} (h : st'.resumed = st.resumed) :
    st'.isTerminal = st.isTerminal := by
  cases st <;> cases st' <;> first | rfl | cases h

theorem Lifecycle.State.resumed_of_ne {st : State} (h : st ≠ .paused) : st.resumed = st :=
  if_neg h

/-- No block is paused. -/
def NonePaused (states : Nat → Option State) : Prop := ∀ i, states i ≠ some .paused

namespace Execution

variable {β : Type} {x x' : Execution β} {i : Nat}

theorem stateAt_setState (x : Execution β) (i j : Nat) (st : State) :
    (x.setState i st).stateAt j = if i = j then (x.stateAt j).map fun _ => st else x.stateAt j := by
  rw [setState, stateAt_modifyNode, stateAt, Option.map_map]
  rfl

/-- A change of one state that pauses nothing. -/
theorem nonePaused_of_stateAt {f : State → State} (hf : ∀ st, st ≠ .paused → f st ≠ .paused)
    (hx : NonePaused x.stateAt)
    (hstates : ∀ j, x'.stateAt j = if i = j then (x.stateAt j).map f else x.stateAt j) :
    NonePaused x'.stateAt := by
  intro j hj
  rw [hstates] at hj
  split at hj
  · obtain ⟨st, hst, hj⟩ := Option.map_eq_some_iff.mp hj
    exact hf st (fun heq => hx j (heq ▸ hst)) hj
  · exact hx j hj

variable [Block β]

theorem nonePaused_finish (hx : NonePaused x.stateAt) (i : Nat) (reason : FinishReason) :
    NonePaused (x.finish i reason).stateAt :=
  nonePaused_of_stateAt (fun st _ => by cases st <;> decide) hx
    (stateAt_finish x i reason)

theorem nonePaused_invoke (hx : NonePaused x.stateAt) (i : Nat) :
    NonePaused (x.invoke i).2.stateAt := by
  simp only [invoke]
  split
  · exact hx
  next n hn =>
    have hwork : NonePaused (x.work i n).2.stateAt := by
      rw [(work_frame x hn).2.1]
      exact hx
    split
    · exact hx
    split
    · exact nonePaused_finish hx i .detached
    cases (x.work i n).1 with
    | crashed => exact hwork
    | failed e =>
      exact nonePaused_of_stateAt (fun _ _ => by decide) (nonePaused_finish hwork i .failed)
        fun j => stateAt_setState _ i j .error
    | status st =>
      cases st with
      | insufficientInput =>
        dsimp only
        split
        · exact nonePaused_finish hwork i .endOfStream
        · exact hwork
      | ok | insufficientOutput => exact hwork
      | endOfStream => exact nonePaused_finish hwork i .endOfStream
      | done => exact nonePaused_finish hwork i .done

theorem nonePaused_runPass (hx : NonePaused x.stateAt) (group : List Nat) :
    NonePaused (x.runPass group).2.stateAt := by
  induction group generalizing x with
  | nil => exact hx
  | cons i rest ih =>
    rw [runPass]
    split
    · exact ih hx
    · have hi := nonePaused_invoke hx i
      rcases hout : x.invoke i with ⟨invocation, y⟩
      rw [hout] at hi
      cases invocation with
      | idle | progress | finished => exact ih hi
      | failed e => exact hi
      | crashed => exact hi

theorem nonePaused_stopAll (x : Execution β) : NonePaused (x.stopAll x.everyBlock).stateAt := by
  intro j hj
  rw [(halts_stopAll x).states, Option.map_eq_some_iff] at hj
  obtain ⟨st, -, hj⟩ := hj
  revert hj
  cases st <;> decide

theorem stateAt_resume (x : Execution β) (i j : Nat) :
    (x.resume i).stateAt j = if i = j then (x.stateAt j).map State.resumed else x.stateAt j := by
  have hsame : (∀ n, x.graph.node? i = some n → n.state ≠ .paused) →
      x.stateAt j = if i = j then (x.stateAt j).map State.resumed else x.stateAt j := by
    intro hn
    split
    next hij =>
      subst hij
      cases hst : x.graph.node? i with
      | none => rw [stateAt, hst]; rfl
      | some n =>
        rw [stateAt_of_node? hst, Option.map_some, State.resumed_of_ne (hn n hst)]
    next => rfl
  simp only [resume]
  split
  next hn => exact hsame fun n hn' => by cases hn.symm.trans hn'
  next n hn =>
    split
    next hpaused =>
      have hcall := (extends_callHook x i n.block Block.resume .resume hn).states
      simp only [Call.next] at hcall
      rw [hcall]
      simp only [replay_cons, replay_nil, JournalEntry.apply, @eq_comm Nat j]
      split
      next hij =>
        subst hij
        rw [stateAt_of_node? hn, hpaused]
        rfl
      next => rfl
    next hpaused => exact hsame fun m hm => by cases hn.symm.trans hm; exact hpaused

theorem nonePaused_resumeAll (x : Execution β) :
    NonePaused (x.resumeAll x.everyBlock).stateAt := by
  intro j hj
  have hresumed : (x.resumeAll x.everyBlock).stateAt j =
      if j ∈ x.everyBlock then (x.stateAt j).map State.resumed else x.stateAt j :=
    stateAt_foldl stateAt_resume (fun st => by cases st <;> rfl) x x.everyBlock j
  rw [hresumed] at hj
  split at hj
  · obtain ⟨st, -, hj⟩ := Option.map_eq_some_iff.mp hj
    revert hj
    cases st <;> decide
  next hmem => exact hmem (mem_everyBlock.mpr (by rw [hj]; rfl))

end Execution
end Dataflow
