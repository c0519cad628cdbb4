import Dataflow.Proofs.Flow.Preservation

/-!
# Completion

As long as no block fails, a block stops only when all its readers have finished or it has written
its signal to the end, and a sink only when it has read its signal to the end
(`Execution.Completes`). The end of a signal travels along the connections: a block is told that its
input has ended once the block before it has stopped, and since the connection still has a reader
then, that block has written all of its signal.
-/

namespace Dataflow

open Lifecycle (State)

/-- A block that has passed on all of a signal that has ended is at the end of its own. -/
theorem Builtin.HasDone.endsAt {b : Builtin} {input : Signal} {consumed published : Nat}
    (h : b.HasDone input consumed published) (hin : b.hasInput = true) (hout : b.hasOutput = true)
    (hend : input.EndsAt consumed) : (b.signal input).EndsAt published := by
  cases b with
  | nullSource | vectorSource => cases hin
  | nullSink | vectorSink => cases hout
  | head b =>
    obtain ⟨-, rfl, hle⟩ := h
    have hupTo := hend.upTo (m := b.numItems.toNat)
    rw [Nat.min_eq_left hle] at hupTo
    exact hupTo
  | copy b =>
    cases h
    exact hend
  | tagGate b =>
    cases h
    exact hend.untagged

namespace Execution

variable {g : Graph Builtin} {S : Nat → Signal} {p p' : Nat → Nat} {x y : Execution Builtin}
  {i : Nat} {n : Node Builtin}

/-- All readers of a block have finished, or it has written its signal to the end. -/
def Served (g : Graph Builtin) (S : Nat → Signal) (p : Nat → Nat) (x : Execution Builtin)
    (i : Nat) : Prop :=
  (∀ k, g.Feeds i k → x.isFinished k = true) ∨ (S i).EndsAt (p i)

/-- No block has stopped too early. -/
structure Completes (g : Graph Builtin) (S : Nat → Signal) (p : Nat → Nat)
    (x : Execution Builtin) : Prop where
  served : ∀ j, x.stateAt j = some .stopped → Served g S p x j
  drained : ∀ j n, x.graph.node? j = some n → n.state = .stopped → n.block.hasOutput = false →
    (g.inputSignal S j).EndsAt (x.graph.consumed j)

namespace Completes

theorem worked {b : Builtin} {connections : List Connection} {outcome : WorkOutcome} {m : Nat}
    (h : Completes g S p x) (hrun : n.state = .running) (hready : Ready g S p x i n)
    (hw : Worked g S p x i n.block outcome b connections m)
    (hy : y.graph = x.graph.worked i b connections) :
    Completes g S (Function.update p i (p i + m)) y := by
  have hst : x.stateAt i = some .running := by rw [stateAt_of_node? hready.node, hrun]
  have hbeside := hw.beside hy
  refine ⟨fun j hj => ?_, fun j k hk hstop hout => ?_⟩
  · rw [stateAt_worked hy] at hj
    have hij : j ≠ i := by
      rintro rfl
      rw [hst] at hj
      cases hj
    refine (h.served j hj).imp (fun hall k hk => ?_) fun hend => ?_
    · rw [isFinished_congr (stateAt_worked hy)]
      exact hall k hk
    · rw [Function.update_of_ne hij]
      exact hend
  · have hij : j ≠ i := by
      rintro rfl
      have := stateAt_of_node? hk
      rw [stateAt_worked hy, hst, hstop] at this
      cases this
    rw [hbeside.node j hij] at hk
    rw [hbeside.consumed j hij]
    exact h.drained j k hk hstop hout

theorem finish (h : Completes g S p x) (hn : x.graph.node? i = some n)
    (hopen : n.isFinished = false) (reason : FinishReason) (hserved : Served g S p x i)
    (hdrained : n.block.hasOutput = false → (g.inputSignal S i).EndsAt (x.graph.consumed i)) :
    Completes g S p (x.finish i reason) := by
  have hnode := node?_finish hn hopen reason
  have hkept : ∀ j, Served g S p x j → Served g S p (x.finish i reason) j := by
    intro j hj
    refine hj.imp (fun hall k hk => ?_) id
    rw [isFinished_finish, hall k hk, Bool.or_true]
  refine ⟨fun j hj => ?_, fun j k hk hstop hout => ?_⟩
  · by_cases hij : i = j
    · subst hij
      exact hkept i hserved
    · rw [stateAt, hnode, if_neg hij] at hj
      exact hkept j (h.served j hj)
  · rw [consumed_finish hn hopen]
    rw [hnode] at hk
    split at hk
    next hij =>
      subst hij
      cases hk
      exact hdrained hout
    next => exact h.drained j k hk hstop hout

end Completes

/-- A block whose outlets are all detached has no reader left. -/
theorem Carried.served_of_detached (h : Carried g S p x) (hg : g.Signals S)
    (hall : ∀ s ∈ x.graph.outlets i, s.detached = true) : Served g S p x i := by
  refine .inl fun k hk => ?_
  obtain ⟨c, hc, hsrc, rfl⟩ := (h.alike.symm hg.sound).feeds hk
  obtain ⟨s, hs, -, hspans⟩ := h.streams c hc
  rw [← hspans.detached]
  exact hall s ((h.sound hg).mem_outlets.mpr ⟨c, hc, hsrc, hs⟩)

theorem stopped_of_isFinished (hnone : NoneFailed x.stateAt) (hn : x.graph.node? i = some n)
    (h : x.isFinished i = true) : x.stateAt i = some .stopped := by
  have hne := hnone i
  rw [stateAt_of_node? hn] at hne ⊢
  rw [isFinished, hn] at h
  cases hst : n.state <;> simp_all [Node.isFinished, State.isTerminal]

/-- A running block whose input is exhausted has read its signal to the end. -/
theorem Completes.endsAt_of_exhausted (h : Completes g S p x) (hcarried : Carried g S p x)
    (hg : g.Signals S) (hnone : NoneFailed x.stateAt) (hopen : x.isFinished i = false)
    {s : Stream Sample} (hfeed : x.graph.feed? i = some s) (hs : s.exhausted = true) :
    (g.inputSignal S i).EndsAt (x.graph.consumed i) := by
  obtain ⟨hclosed, havail⟩ := Stream.exhausted_iff.mp hs
  obtain ⟨c, hc, rfl, hup, hinput, hcarries, hspans⟩ := hcarried.feed hg hfeed
  obtain ⟨m, hm, -⟩ := ((hcarried.sound hg).joins c hc).source
  have hstopped := stopped_of_isFinished hnone hm (hspans.closed ▸ hclosed)
  have hread : x.graph.consumed c.target.block = p c.source.block := by
    have hcurrent := hcarries.current (hspans.detached.trans hopen)
    have hwritten := hcarries.written_eq
    rw [consumed_eq hfeed]
    omega
  rw [hinput, hread]
  rcases h.served c.source.block hstopped with hall | hend
  · have hfinished := hall c.target.block (Graph.feeds_of_upstream? hup)
    rw [hopen] at hfinished
    cases hfinished
  · exact hend

/-- A block that ends has written its signal to the end, or read it to the end if it is a sink. -/
theorem Completes.ends {b : Builtin} {connections : List Connection} {st : WorkStatus} {m : Nat}
    (h : Completes g S p x) (hg : g.Signals S) (hnone : NoneFailed x.stateAt)
    (hrun : n.state = .running) (hready : Ready g S p x i n)
    (hw : Worked g S p x i n.block (.status st) b connections m)
    (hy : y.graph = x.graph.worked i b connections) (hends : x.Ends i st) :
    Served g S (Function.update p i (p i + m)) y i ∧
      (b.hasOutput = false → (g.inputSignal S i).EndsAt (y.graph.consumed i)) := by
  have hout : b.hasOutput = n.block.hasOutput := by
    rw [← Builtin.hasOutput_form, hw.form, Builtin.hasOutput_form]
  rcases hends with rfl | ⟨rfl, s, hfeed, hs⟩
  · have hwrites : n.block.hasOutput = true ∧ (S i).EndsAt (p i + m) := by
      cases hw with
      | ended hout' hend => exact ⟨hout', hend⟩
      | moved _ _ _ _ _ hst =>
        rcases hst with hst | ⟨-, hout', hend⟩
        · cases hst
        · exact ⟨hout', hend⟩
    refine ⟨.inr ?_, fun hout' => ?_⟩
    · rw [Function.update_self]
      exact hwrites.2
    · rw [hout, hwrites.1] at hout'
      cases hout'
  · obtain ⟨rfl, rfl, rfl, hin, -⟩ := hw.of_insufficientInput
    have hopen : x.isFinished i = false := by
      rw [isFinished, hready.node]
      exact Node.isFinished_of_running hrun
    have hend := h.endsAt_of_exhausted hready.toCarried hg hnone hopen hfeed hs
    refine ⟨?_, fun _ => ?_⟩
    · cases hout' : n.block.hasOutput with
      | true =>
        refine .inr ?_
        rw [Function.update_self, Nat.add_zero, hready.toCarried.signal_eq hg hready.node]
        exact hready.done.endsAt hin hout' hend
      | false =>
        refine .inl fun k hk => ?_
        obtain ⟨c, hc, hsrc, -⟩ := (hready.alike.symm hg.sound).feeds hk
        exact absurd hsrc (hready.toCarried.source_ne hg hready.node hout' hc)
    · rw [consumed_worked hy]
      exact hend

theorem Completes.invoked (h : Completes g S p x) (hflows : Flows g S p x) (hg : g.Signals S)
    (hnone : NoneFailed x.stateAt) {r : Invocation} (hr : ∀ e, r ≠ .failed e)
    (hi : Invoked g S p x i r y p') : Completes g S p' y := by
  cases hi with
  | rests => exact h
  | @deserted n hn hrun hout hall =>
    refine h.finish hn (Node.isFinished_of_running hrun) _
      (hflows.served_of_detached hg hall) ?_
    rw [hout]
    intro hout'
    cases hout'
  | goesOn hrun hready hw hy => exact h.worked hrun hready hw hy.graph
  | @ends n st b connections m y reason hrun hready hw hy hends =>
    have hnode := node?_running_worked hready.node hy.graph
    obtain ⟨hserved, hdrained⟩ := h.ends hg hnone hrun hready hw hy.graph hends
    refine (h.worked hrun hready hw hy.graph).finish hnode ?_ _ hserved hdrained
    exact Node.isFinished_of_running hrun
  | fails => exact absurd rfl (hr _)

end Execution
end Dataflow
