import Dataflow.Proofs.Execution.Drive
import Dataflow.Proofs.Execution.Pass

/-!
# Conduct of single blocks

Of the journal only the calls on one block matter to that block (`callsOn`, `replay_eq`). Whatever
a scheduler does to the blocks of an execution, each of them is called as its state allows
(`Conduct`): it works while it runs, is paused only then and resumed only after that, and whoever
has been told that it failed or came to its end stops it next. Such conducts compose, so they need
only be checked for the single calls of a scheduler (`Execution.conducts_drives`).
-/

namespace Dataflow

open Lifecycle (State)

/-- Whether a block that reports this status may be invoked again. -/
def WorkStatus.goesOn : WorkStatus → Bool
  | endOfStream | done => false
  | ok | insufficientInput | insufficientOutput => true

/-- The calls on one block among calls. -/
def callsOn (i : Nat) (calls : List JournalEntry) : List Call :=
  (calls.filter fun e => e.block = i).map JournalEntry.call

@[simp] theorem callsOn_nil (i : Nat) : callsOn i [] = [] := rfl

@[simp] theorem callsOn_append (i : Nat) (calls calls' : List JournalEntry) :
    callsOn i (calls ++ calls') = callsOn i calls ++ callsOn i calls' := by
  simp [callsOn]

@[simp] theorem callsOn_cons (i : Nat) (e : JournalEntry) (calls : List JournalEntry) :
    callsOn i (e :: calls) =
      if e.block = i then e.call :: callsOn i calls else callsOn i calls := by
  by_cases h : e.block = i <;> simp [callsOn, h]

theorem mem_callsOn {i : Nat} {c : Call} {calls : List JournalEntry} :
    c ∈ callsOn i calls ↔ ⟨i, c⟩ ∈ calls := by
  simp only [callsOn, List.mem_map, List.mem_filter, decide_eq_true_eq]
  constructor
  · rintro ⟨⟨_, _⟩, ⟨hmem, rfl⟩, rfl⟩
    exact hmem
  · exact fun h => ⟨_, ⟨h, rfl⟩, rfl⟩

theorem callsOn_self (i : Nat) (calls : List Call) : callsOn i (calls.map (⟨i, ·⟩)) = calls := by
  induction calls with
  | nil => rfl
  | cons c calls ih => simp [ih]

theorem callsOn_of_ne {i j : Nat} (h : i ≠ j) (calls : List Call) :
    callsOn j (calls.map (⟨i, ·⟩)) = [] := by
  induction calls with
  | nil => rfl
  | cons c calls ih => simp [h, ih]

/-- What becomes of the state of a block is up to the calls on it. -/
theorem replay_eq (states : Nat → Option State) (calls : List JournalEntry) (i : Nat) :
    replay states calls i = (states i).map ((callsOn i calls).foldl Call.next) := by
  induction calls generalizing states with
  | nil => simp [Option.map_id']
  | cons e calls ih =>
    rw [replay_cons, ih, callsOn_cons]
    by_cases h : e.block = i
    · simp [JournalEntry.apply, h, Function.comp_def]
    · simp [JournalEntry.apply, h, Ne.symm h]

/-- Calls that take a block from one state to another, each allowed by the state before it. A call
that crashes says nothing about what follows. -/
inductive Conduct : State → List Call → State → Prop where
  | rest {st : State} : Conduct st [] st
  | work {status : WorkStatus} {calls : List Call} {st : State} : status.goesOn = true →
      Conduct .running calls st → Conduct .running (.work (.status status) :: calls) st
  | last {status : WorkStatus} : status.goesOn = false →
      Conduct .running [.work (.status status), .stop] .stopped
  | failed {e : WorkError} : Conduct .running [.work (.failed e), .stop] .error
  | crashed {calls : List Call} {st : State} : Conduct .running (.work .crashed :: calls) st
  | pause {calls : List Call} {st : State} : Conduct .paused calls st →
      Conduct .running (.pause :: calls) st
  | resume {calls : List Call} {st : State} : Conduct .running calls st →
      Conduct .paused (.resume :: calls) st
  | stop {st : State} : st.isTerminal = false → Conduct st [.stop] .stopped

namespace Conduct

variable {st st' st'' : State} {calls calls' : List Call}

theorem eq_of_isTerminal (h : Conduct st calls st') (hst : st.isTerminal = true) :
    calls = [] ∧ st' = st := by
  cases h with
  | rest => exact ⟨rfl, rfl⟩
  | stop hopen => rw [hst] at hopen; cases hopen
  | _ => cases hst

theorem trans (h : Conduct st calls st') (h' : Conduct st' calls' st'') :
    Conduct st (calls ++ calls') st'' := by
  induction h with
  | rest => exact h'
  | work hgoes _ ih => exact .work hgoes (ih h')
  | last hends =>
    obtain ⟨rfl, rfl⟩ := h'.eq_of_isTerminal rfl
    exact .last hends
  | failed =>
    obtain ⟨rfl, rfl⟩ := h'.eq_of_isTerminal rfl
    exact .failed
  | crashed => exact .crashed
  | pause _ ih => exact .pause (ih h')
  | resume _ ih => exact .resume (ih h')
  | stop hopen =>
    obtain ⟨rfl, rfl⟩ := h'.eq_of_isTerminal rfl
    exact .stop hopen

end Conduct

namespace Execution

variable {β : Type} {x y z : Execution β}

/-- An execution goes on by calls that each block allows. -/
def Conducts (x y : Execution β) (calls : List JournalEntry) : Prop :=
  Extends x y calls ∧ ∀ i st, x.stateAt i = some st →
    ∃ st', y.stateAt i = some st' ∧ Conduct st (callsOn i calls) st'

namespace Conducts

variable {calls calls' : List JournalEntry}

theorem of_extends_nil (h : Extends x y []) : Conducts x y [] := by
  refine ⟨h, fun i st hst => ⟨st, ?_, .rest⟩⟩
  rw [h.states]
  exact hst

theorem trans (h : Conducts x y calls) (h' : Conducts y z calls') :
    Conducts x z (calls ++ calls') := by
  refine ⟨h.1.trans h'.1, fun i st hst => ?_⟩
  obtain ⟨st', hst', hc⟩ := h.2 i st hst
  obtain ⟨st'', hst'', hc'⟩ := h'.2 i st' hst'
  rw [callsOn_append]
  exact ⟨st'', hst'', hc.trans hc'⟩

theorem of_calls {i : Nat} {st st' : State} (calls : List Call)
    (he : Extends x y (calls.map (⟨i, ·⟩))) (hst : x.stateAt i = some st)
    (hc : Conduct st calls st') (hst' : calls.foldl Call.next st = st') :
    Conducts x y (calls.map (⟨i, ·⟩)) := by
  refine ⟨he, fun j stj hj => ?_⟩
  rw [he.states, replay_eq, hj]
  by_cases hij : i = j
  · subst hij
    cases hst.symm.trans hj
    rw [callsOn_self]
    exact ⟨st', by rw [Option.map_some, hst'], hc⟩
  · rw [callsOn_of_ne hij]
    exact ⟨stj, rfl, .rest⟩

end Conducts

variable [Block β]

theorem conducts_finish (x : Execution β) (i : Nat) (reason : FinishReason) :
    ∃ calls, Conducts x (x.finish i reason) calls := by
  cases h : x.isFinished i with
  | true =>
    rw [finish_of_isFinished h]
    exact ⟨[], .of_extends_nil .refl⟩
  | false =>
    have he := extends_finish h reason
    rw [isFinished_eq] at h
    cases hst : x.stateAt i with
    | none => rw [hst] at h; cases h
    | some st =>
      rw [hst] at h
      have hopen : st.isTerminal = false := h
      refine ⟨_, .of_calls [.stop] he hst (.stop hopen) ?_⟩
      cases st <;> first | rfl | cases hopen

theorem conducts_pause (x : Execution β) (i : Nat) :
    ∃ calls, Conducts x (x.pause i) calls := by
  simp only [pause]
  split
  · exact ⟨[], .of_extends_nil .refl⟩
  next n hn =>
    split
    next hrun =>
      have hst : x.stateAt i = some .running := by rw [stateAt_of_node? hn, hrun]
      exact ⟨_, .of_calls [.pause] (extends_callHook x i n.block Block.pause .pause hn)
        hst (.pause .rest) rfl⟩
    next => exact ⟨[], .of_extends_nil .refl⟩

theorem conducts_resume (x : Execution β) (i : Nat) :
    ∃ calls, Conducts x (x.resume i) calls := by
  simp only [resume]
  split
  · exact ⟨[], .of_extends_nil .refl⟩
  next n hn =>
    split
    next hpaused =>
      have hst : x.stateAt i = some .paused := by rw [stateAt_of_node? hn, hpaused]
      exact ⟨_, .of_calls [.resume]
        (extends_callHook x i n.block Block.resume .resume hn) hst (.resume .rest) rfl⟩
    next => exact ⟨[], .of_extends_nil .refl⟩

theorem conducts_invoke (x : Execution β) (i : Nat) :
    ∃ calls, Conducts x (x.invoke i).2 calls := by
  simp only [invoke]
  split
  · exact ⟨[], .of_extends_nil .refl⟩
  next n hn =>
    split
    · exact ⟨[], .of_extends_nil .refl⟩
    next hrun =>
      have hrun : n.state = .running := Decidable.not_not.mp hrun
      have hst : x.stateAt i = some .running := by rw [stateAt_of_node? hn, hrun]
      split
      · exact conducts_finish x i .detached
      · cases hout : (x.work i n).1 with
        | crashed =>
          have he := extends_work x hn (by simp [hout])
          rw [hout] at he
          exact ⟨_, .of_calls [.work .crashed] he hst .crashed rfl⟩
        | failed e =>
          exact ⟨_, .of_calls [.work (.failed e), .stop]
            (extends_failed x hn hrun hout) hst .failed rfl⟩
        | status status =>
          have he := extends_work x hn (by simp [hout])
          rw [hout] at he
          have hwork : status.goesOn = true →
              Conducts x (x.work i n).2 [⟨i, .work (.status status)⟩] := fun hgoes =>
            .of_calls [.work (.status status)] he hst (.work hgoes .rest) rfl
          -- after a status that ends the block nothing but its stop may follow
          have hlast : status.goesOn = false → ∀ reason,
              ∃ calls, Conducts x ((x.work i n).2.finish i reason) calls := fun hends reason => by
            have hopen : (x.work i n).2.isFinished i = false := by
              rw [isFinished_eq, he.states]
              simp [JournalEntry.apply, hst, Call.next, State.isTerminal]
            exact ⟨_, .of_calls [.work (.status status), .stop]
              (he.trans (extends_finish hopen reason)) hst (.last hends) rfl⟩
          cases status with
          | ok => exact ⟨_, hwork rfl⟩
          | insufficientInput =>
            dsimp only
            split
            · obtain ⟨calls, hfinish⟩ := conducts_finish (x.work i n).2 i .endOfStream
              exact ⟨_, (hwork rfl).trans hfinish⟩
            · exact ⟨_, hwork rfl⟩
          | insufficientOutput => exact ⟨_, hwork rfl⟩
          | endOfStream => exact hlast rfl .endOfStream
          | done => exact hlast rfl .done

theorem conducts_drives (h : x.Drives y) : ∃ calls, Conducts x y calls := by
  induction h with
  | refl => exact ⟨[], .of_extends_nil .refl⟩
  | @tail y z _ hdrive ih =>
    obtain ⟨calls, hc⟩ := ih
    obtain ⟨calls', hc'⟩ : ∃ calls, Conducts y z calls := by
      cases hdrive with
      | invoke i => exact conducts_invoke y i
      | finish i reason => exact conducts_finish y i reason
      | pause i => exact conducts_pause y i
      | resume i => exact conducts_resume y i
    exact ⟨_, hc.trans hc'⟩

end Execution
end Dataflow
