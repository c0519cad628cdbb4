import Dataflow.Proofs.Execution.Pass
import Dataflow.Proofs.Flow.Bound

/-!
# Steady passes

A pass over a steady execution fails nowhere, and makes the weight of the blocks grow if it reports
progress. If it reports none, all running blocks of the group wait
(`Execution.Steady.runPass`), which over all blocks means that none runs: as long as one does,
passes report progress (`Execution.Steady.progressed`) and the execution is not stuck
(`Execution.Steady.not_isStuck`).
-/

namespace Dataflow

namespace Execution

variable {g : Graph Builtin} {S : Nat → Signal} {p p' : Nat → Nat} {x y : Execution Builtin}
  {i : Nat}

theorem inbox_finish (x : Execution Builtin) (i : Nat) (reason : FinishReason) :
    (x.finish i reason).inbox = x.inbox := by
  unfold finish
  split
  · rfl
  · split <;> rfl

/-- Built-in blocks send no messages. -/
theorem Invoked.inbox {r : Invocation} (hi : Invoked g S p x i r y p') : y.inbox = x.inbox := by
  cases hi with
  | rests => rfl
  | deserted => exact inbox_finish ..
  | goesOn _ _ _ hy => exact hy.inbox
  | ends _ _ _ hy => exact (inbox_finish ..).trans hy.inbox
  | fails _ _ _ hy => exact (inbox_finish ..).trans hy.inbox

theorem waits_congr (h : y.graph.connections = x.graph.connections) : Waits y i ↔ Waits x i := by
  unfold Waits Graph.feed? Graph.outlets
  rw [h]

/-- What a pass comes to. -/
structure Passed (g : Graph Builtin) (S : Nat → Signal) (p : Nat → Nat) (x : Execution Builtin)
    (group : List Nat) (report : PassReport) (y : Execution Builtin) (p' : Nat → Nat) : Prop where
  steady : Steady g S p' y
  inbox : y.inbox = x.inbox
  failure : report.failure = none
  weight : totalWeight g p x + (if report.progressed then 1 else 0) ≤ totalWeight g p' y
  waits : report.progressed = false → ∀ i ∈ group, x.stateAt i = some .running → Waits x i

/-- A pass that began with an invocation to some effect. -/
theorem Passed.after_effect {q : Nat → Nat} {rest : List Nat} {report report' : PassReport}
    {z : Execution Builtin} (h : Passed g S q y rest report z p') (hinbox : y.inbox = x.inbox)
    (hweight : totalWeight g p x + 1 ≤ totalWeight g q y) (hprog : report'.progressed = true)
    (hfailure : report'.failure = report.failure) : Passed g S p x (i :: rest) report' z p' := by
  refine ⟨h.steady, h.inbox.trans hinbox, hfailure.trans h.failure, ?_, fun hnone => ?_⟩
  · have hlater := h.weight
    rw [if_pos hprog]
    omega
  · rw [hprog] at hnone
    cases hnone

theorem Steady.lt_of_mem (h : Steady g S p x) (hi : i ∈ x.everyBlock) : i < g.nodes.length := by
  rw [← h.alike.length_nodes]
  exact List.mem_range.mp hi

theorem Steady.runPass (h : Steady g S p x) (ho : g.Orderly S) {group : List Nat}
    (hgroup : ∀ i ∈ group, i < g.nodes.length) :
    ∃ p', Passed g S p x group (x.runPass group).1 (x.runPass group).2 p' := by
  induction group generalizing x p with
  | nil => exact ⟨p, h, rfl, rfl, Nat.le_refl _, fun _ i hi => absurd hi List.not_mem_nil⟩
  | cons i rest ih =>
    have hrest : ∀ j ∈ rest, j < g.nodes.length := fun j hj => hgroup j (List.mem_cons_of_mem _ hj)
    rw [Execution.runPass]
    split
    next hfinished =>
      obtain ⟨p', hpassed⟩ := ih h hrest
      refine ⟨p', hpassed.steady, hpassed.inbox, hpassed.failure, hpassed.weight, ?_⟩
      intro hprog j hj hrun
      rcases List.mem_cons.mp hj with rfl | hj
      · rw [isFinished_eq, hrun] at hfinished
        cases hfinished
      · exact hpassed.waits hprog j hj hrun
    next hopen =>
      obtain ⟨q, hi⟩ := invoke_invoked h.toFlows ho.toSignals i
      have hne := hi.ne_failed ho
      have hsteady := h.invoked ho hi
      have hinbox := hi.inbox
      have hweight := hi.totalWeight ho (hgroup i (List.mem_cons_self ..))
      have hcrash := hi.ne_crashed
      rcases hinvoke : x.invoke i with ⟨r, y⟩
      rw [hinvoke] at hi hne hcrash hsteady hinbox hweight
      obtain ⟨p', hpassed⟩ : ∃ p', Passed g S q y rest (y.runPass rest).1 (y.runPass rest).2 p' :=
        ih hsteady hrest
      cases r with
      | failed e => exact absurd rfl (hne e)
      | crashed => exact absurd rfl hcrash
      | progress => exact ⟨p', hpassed.after_effect hinbox hweight rfl rfl⟩
      | finished => exact ⟨p', hpassed.after_effect hinbox hweight rfl rfl⟩
      | idle =>
        have hweight : totalWeight g p x ≤ totalWeight g q y := hweight
        refine ⟨p', hpassed.steady, hpassed.inbox.trans hinbox, hpassed.failure, ?_, ?_⟩
        · exact (Nat.add_le_add_right hweight _).trans hpassed.weight
        · intro hprog j hj hrun
          -- an idle invocation leaves the streams as they are, so who waits after it waited before
          have hrunning := h.unpaused.running_of_open (by simpa using hopen)
          obtain ⟨hwaits, hconnections, hstates, -⟩ := hi.waits h.toCarried ho hrunning
          rcases List.mem_cons.mp hj with rfl | hj
          · exact hwaits
          · exact (waits_congr hconnections).mp (hpassed.waits hprog j hj (by rw [hstates, hrun]))

/-- As long as not all blocks have finished, one runs that does not wait. -/
theorem Steady.exists_active (h : Steady g S p x) (ho : g.Orderly S)
    (hopen : x.allFinished x.everyBlock = false) :
    ∃ i ∈ x.everyBlock, x.stateAt i = some .running ∧ ¬ Waits x i := by
  rw [allFinished, List.all_eq_false] at hopen
  obtain ⟨i, -, hi⟩ := hopen
  by_contra hnone
  refine h.toCarried.not_running ho.toSignals h.unpaused (fun j hj => ?_) i
    (h.unpaused.running_of_open (by simpa using hi))
  by_contra hwaits
  exact hnone ⟨j, mem_everyBlock.mpr (by rw [hj]; rfl), hj, hwaits⟩

/-- As long as not all blocks have finished, a pass over all of them reports progress. -/
theorem Steady.progressed (h : Steady g S p x) (ho : g.Orderly S)
    (hopen : x.allFinished x.everyBlock = false) :
    (x.runPass x.everyBlock).1.progressed = true := by
  obtain ⟨i, hi, hrun, hactive⟩ := h.exists_active ho hopen
  obtain ⟨p', hpassed⟩ := h.runPass ho fun i => h.lt_of_mem
  by_contra hprog
  exact hactive (hpassed.waits (by simpa using hprog) i hi hrun)

/-- There are unfinished blocks, and none of them achieves anything. -/
def IsStuck (x : Execution Builtin) : Prop :=
  x.allFinished x.everyBlock = false ∧
    ∀ i ∈ x.everyBlock, x.isFinished i = false → (x.invoke i).1 = .idle

theorem Steady.not_isStuck (h : Steady g S p x) (ho : g.Orderly S) : ¬ x.IsStuck := by
  rintro ⟨hopen, hidle⟩
  obtain ⟨i, hi, hrun, hactive⟩ := h.exists_active ho hopen
  obtain ⟨q, hinvoked⟩ := invoke_invoked h.toFlows ho.toSignals i
  rw [hidle i hi (by rw [isFinished_eq, hrun]; rfl)] at hinvoked
  exact hactive (hinvoked.waits h.toCarried ho hrun).1

end Execution
end Dataflow
