import Dataflow.Proofs.Flow.Progress

/-!
# Steady executions

In an orderly graph that nobody pauses, every block runs or has stopped, and what a block has
published has been read or is held by one of the streams that it feeds
(`Execution.Steady`). Invocations keep it so (`Execution.Steady.invoked`).
-/

namespace Dataflow

open Lifecycle (State)

namespace Execution

variable {g : Graph Builtin} {S : Nat → Signal} {p p' : Nat → Nat} {x y z : Execution Builtin}
  {i : Nat} {n : Node Builtin}

/-- The streams at the output of a block last, and more and more of them is read. -/
def Lasts (x y : Execution Builtin) : Prop :=
  ∀ i, ∀ s ∈ x.graph.outlets i, ∃ s' ∈ y.graph.outlets i,
    s.read ≤ s'.read ∧ s'.capacity = s.capacity

/-- All that a block has published has been read from some stream or fits into it. -/
def Anchored (p : Nat → Nat) (x : Execution Builtin) (i : Nat) : Prop :=
  p i = 0 ∨ ∃ s ∈ x.graph.outlets i, p i ≤ s.read + s.capacity

/-- Samples flow, no block is paused or has failed, and what has been published is anchored. -/
structure Steady (g : Graph Builtin) (S : Nat → Signal) (p : Nat → Nat) (x : Execution Builtin) :
    Prop extends Flows g S p x where
  unpaused : Unpaused x
  anchored : ∀ i, Anchored p x i

namespace Lasts

theorem of_connections (h : y.graph.connections = x.graph.connections) : Lasts x y := by
  intro i s hs
  rw [Graph.outlets, ← h] at hs
  exact ⟨s, hs, Nat.le_refl _, rfl⟩

theorem trans (h : Lasts x y) (h' : Lasts y z) : Lasts x z := by
  intro i s hs
  obtain ⟨s', hs', hread, hcapacity⟩ := h i s hs
  obtain ⟨s'', hs'', hread', hcapacity'⟩ := h' i s' hs'
  exact ⟨s'', hs'', hread.trans hread', hcapacity'.trans hcapacity⟩

theorem map {f : Connection → Connection} (hwire : ∀ c, (f c).wire = c.wire)
    (hconnections : y.graph.connections = x.graph.connections.map f)
    (hf : ∀ c s, c.stream = some s → ∃ s', (f c).stream = some s' ∧ s.read ≤ s'.read ∧
      s'.capacity = s.capacity) : Lasts x y := by
  intro i s hs
  obtain ⟨c, hc, hsome⟩ := List.mem_filterMap.mp hs
  split at hsome
  next hsrc =>
    obtain ⟨s', hs', hread, hcapacity⟩ := hf c s hsome
    refine ⟨s', List.mem_filterMap.mpr ⟨f c, ?_, ?_⟩, hread, hcapacity⟩
    · rw [hconnections]
      exact List.mem_map_of_mem hc
    · have hsource : (f c).source = c.source := congrArg (·.source) (hwire c)
      rw [hsource, if_pos hsrc, hs']
  next => cases hsome

theorem reading (r : Nat) :
    Lasts x (x.setConnections (x.graph.connections.map (Connection.reading i r))) := by
  refine map Connection.wire_reading rfl fun c s hs => ?_
  rw [Connection.reading]
  split
  · rw [hs]
    exact ⟨_, rfl, Nat.le_add_right _ _, rfl⟩
  · exact ⟨s, hs, Nat.le_refl _, rfl⟩

theorem writing (chunk : Chunk Sample) :
    Lasts x (x.setConnections (x.graph.connections.map (Connection.writing i chunk))) := by
  refine map Connection.wire_writing rfl fun c s hs => ?_
  rw [Connection.writing]
  split
  · rw [hs]
    refine ⟨_, rfl, ?_⟩
    rw [Stream.receive]
    split <;> exact ⟨Nat.le_refl _, rfl⟩
  · exact ⟨s, hs, Nat.le_refl _, rfl⟩

theorem finish (hn : x.graph.node? i = some n) (hopen : n.isFinished = false)
    (reason : FinishReason) : Lasts x (x.finish i reason) := by
  refine map Connection.wire_withdrawing (by rw [finish_graph hn hopen]) fun c s hs => ?_
  rw [Connection.withdrawing, hs]
  split <;> split <;> exact ⟨_, rfl, Nat.le_refl _, rfl⟩

theorem worked {b : Builtin} {connections : List Connection} {outcome : WorkOutcome} {m : Nat}
    (hw : Worked g S p x i n.block outcome b connections m)
    (hy : y.graph = x.graph.worked i b connections) : Lasts x y := by
  have hconnections : y.graph.connections = (x.setConnections connections).graph.connections := by
    rw [hy]
    rfl
  refine trans ?_ (of_connections hconnections)
  cases hw with
  | starved | blocked | ended | unfed => exact of_connections rfl
  | @moved st b r m =>
    exact (reading r).trans (writing (x := x.setConnections (x.graph.connections.map
      (Connection.reading i r))) _)
  | @overfull e b r => exact reading r

end Lasts

theorem Anchored.mono (h : Anchored p x i) (hlasts : Lasts x y) (hp : p' i = p i) :
    Anchored p' y i := by
  refine h.imp hp.trans fun ⟨s, hs, hle⟩ => ?_
  obtain ⟨s', hs', hread, hcapacity⟩ := hlasts i s hs
  exact ⟨s', hs', by omega⟩

/-- What a block has published to a reader that has not finished is anchored. -/
theorem Carried.anchored (h : Carried g S p x) (hg : g.Signals S) {k : Nat} (hf : g.Feeds i k)
    (hopen : x.isFinished k = false) : Anchored p x i := by
  obtain ⟨c, hc, rfl, rfl⟩ := (h.alike.symm hg.sound).feeds hf
  obtain ⟨s, hs, hcarries, hspans⟩ := h.streams c hc
  have hwritten := hcarries.written_eq
  have hcurrent := hcarries.current (hspans.detached.trans hopen)
  have hroom := hcarries.room
  exact .inr ⟨s, (h.sound hg).mem_outlets.mpr ⟨c, hc, rfl, hs⟩, by omega⟩

/-- A sink publishes nothing. -/
theorem Carried.published_eq_zero (h : Carried g S p x) (hg : g.Signals S)
    (hn : x.graph.node? i = some n) (hout : n.block.hasOutput = false) : p i = 0 := by
  have hsignal : S i = .empty := by
    rw [h.signal_eq hg hn]
    cases hb : n.block with
    | nullSink | vectorSink => rfl
    | _ =>
      rw [hb] at hout
      cases hout
  by_contra hpos
  have hcovers := h.covers i 0 (Nat.pos_of_ne_zero hpos)
  rw [hsignal] at hcovers
  cases hcovers

theorem Steady.of_graph (h : Steady g S p x) (hy : y.graph = x.graph) : Steady g S p y := by
  rcases y with ⟨graph, inboxId, inbox, trace, journal, log⟩
  cases hy
  exact ⟨⟨h.toCarried.blocks h.alike rfl fun _ => rfl, h.blocks⟩, h.unpaused, h.anchored⟩

theorem Steady.worked {b : Builtin} {connections : List Connection} {st : WorkStatus} {m : Nat}
    (h : Steady g S p x) (hg : g.Signals S) (hready : Ready g S p x i n)
    (hw : Worked g S p x i n.block (.status st) b connections m)
    (hy : y.graph = x.graph.worked i b connections) :
    Steady g S (Function.update p i (p i + m)) y := by
  have hflows := h.toFlows.worked hg hready hw hy
  refine ⟨hflows, ?_, fun j => ?_⟩
  · unfold Unpaused
    rw [stateAt_worked hy]
    exact h.unpaused
  by_cases hj : j = i
  · subst hj
    have hnode := node?_running_worked hready.node hy
    cases hout : n.block.hasOutput with
    | false =>
      refine .inl (hflows.published_eq_zero hg hnode ?_)
      rw [← Builtin.hasOutput_form, hw.form, Builtin.hasOutput_form, hout]
    | true =>
      obtain ⟨s, hs, hlive⟩ := hready.live hout
      obtain ⟨c, hc, hsrc, -, -, hspans⟩ := h.outlet hg hs
      refine hflows.anchored hg (h.alike.feeds ⟨c, hc, hsrc, rfl⟩) ?_
      rw [isFinished_congr (stateAt_worked hy), ← hspans.detached, hlive]
  · exact (h.anchored j).mono (.worked hw hy) (Function.update_of_ne hj ..)

theorem Steady.finish (h : Steady g S p x) (hn : x.graph.node? i = some n)
    (hopen : n.isFinished = false) (reason : FinishReason) :
    Steady g S p (x.finish i reason) := by
  refine ⟨h.toFlows.finish hn hopen reason, fun j st hj => ?_, fun j => ?_⟩
  · rw [stateAt, node?_finish hn hopen] at hj
    split at hj
    next =>
      cases hj
      exact .inr rfl
    next => exact h.unpaused j st hj
  · exact (h.anchored j).mono (.finish hn hopen reason) rfl

theorem Steady.invoked (h : Steady g S p x) (ho : g.Orderly S) {r : Invocation}
    (hi : Invoked g S p x i r y p') : Steady g S p' y := by
  have hne := hi.ne_failed ho
  cases hi with
  | rests => exact h
  | deserted hn hrun =>
    exact h.finish hn (Node.isFinished_of_running hrun) _
  | goesOn hrun hready hw hy => exact h.worked ho.toSignals hready hw hy.graph
  | ends hrun hready hw hy =>
    refine (h.worked ho.toSignals hready hw hy.graph).finish
      (node?_running_worked hready.node hy.graph) ?_ _
    exact Node.isFinished_of_running hrun
  | fails => exact absurd rfl (hne _)

/-! ### Weight -/

/-- How much a block has read and published, and whether it has finished. -/
def weight (p : Nat → Nat) (x : Execution Builtin) (i : Nat) : Nat :=
  p i + x.graph.consumed i + if x.isFinished i then 1 else 0

theorem Worked.weight {b : Builtin} {connections : List Connection} {st : WorkStatus} {m : Nat}
    (hw : Worked g S p x i n.block (.status st) b connections m)
    (hy : y.graph = x.graph.worked i b connections) :
    (∀ j, weight p x j ≤ weight (Function.update p i (p i + m)) y j) ∧
      (st = .ok → weight p x i < weight (Function.update p i (p i + m)) y i) := by
  have hbeside := hw.beside hy
  have hfinished := isFinished_congr (stateAt_worked hy)
  have hself : x.graph.consumed i ≤ y.graph.consumed i ∧
      (st = .ok → p i + x.graph.consumed i < p i + m + y.graph.consumed i) := by
    rw [consumed_worked hy]
    cases hw with
    | starved | blocked | ended =>
      refine ⟨Nat.le_refl _, fun hst => ?_⟩
      cases hst
    | @moved st b r m hform hreads hwrites =>
      rw [consumed_moved hreads]
      refine ⟨Nat.le_add_right _ _, fun _ => ?_⟩
      cases hin : n.block.hasInput with
      | true =>
        obtain ⟨s, -, hr, -⟩ := hreads.input hin
        omega
      | false =>
        have hout : n.block.hasOutput = true := by
          cases hb : n.block with
          | nullSource | vectorSource => rfl
          | _ =>
            rw [hb] at hin
            cases hin
        have := (hwrites.output hout).1
        omega
  refine ⟨fun j => ?_, fun hst => ?_⟩
  · unfold Execution.weight
    rw [hfinished]
    by_cases hj : j = i
    · subst hj
      rw [Function.update_self]
      omega
    · rw [Function.update_of_ne hj, hbeside.consumed j hj]
  · have hlt := hself.2 hst
    unfold Execution.weight
    rw [hfinished, Function.update_self]
    omega

theorem weight_finish (hn : x.graph.node? i = some n) (hopen : n.isFinished = false)
    (reason : FinishReason) : (∀ j, weight p x j ≤ weight p (x.finish i reason) j) ∧
      weight p x i < weight p (x.finish i reason) i := by
  have hx : x.isFinished i = false := by
    rw [isFinished, hn]
    exact hopen
  refine ⟨fun j => ?_, ?_⟩
  · unfold weight
    rw [consumed_finish hn hopen, isFinished_finish]
    by_cases hij : i = j
    · subst hij
      rw [hx]
      simp
    · rw [decide_eq_false hij, Bool.false_or]
  · unfold weight
    rw [consumed_finish hn hopen, isFinished_finish, hx]
    simp

/-- No invocation makes a block lose weight, and one that is not idle makes its block gain some. -/
theorem Invoked.weight {r : Invocation} (hi : Invoked g S p x i r y p') (ho : g.Orderly S) :
    (∀ j, weight p x j ≤ weight p' y j) ∧ (r ≠ .idle → weight p x i < weight p' y i) := by
  have hne := hi.ne_failed ho
  cases hi with
  | rests => exact ⟨fun _ => Nat.le_refl _, fun h => absurd rfl h⟩
  | deserted hn hrun =>
    obtain ⟨hall, hlt⟩ := weight_finish (p := p) hn
      (Node.isFinished_of_running hrun) .detached
    exact ⟨hall, fun _ => hlt⟩
  | goesOn hrun hready hw hy =>
    obtain ⟨hall, hlt⟩ := hw.weight hy.graph
    refine ⟨hall, fun hr => ?_⟩
    split at hr
    next hst => exact hlt hst
    next => exact absurd rfl hr
  | @ends n st b connections m y reason hrun hready hw hy =>
    obtain ⟨hall, -⟩ := hw.weight hy.graph
    obtain ⟨hall', hlt'⟩ := weight_finish (p := Function.update p i (p i + m))
      (node?_running_worked hready.node hy.graph)
      (Node.isFinished_of_running hrun) reason
    exact ⟨fun j => (hall j).trans (hall' j), fun _ => (hall i).trans_lt hlt'⟩
  | fails => exact absurd rfl (hne _)

end Execution
end Dataflow
