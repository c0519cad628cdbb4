import Dataflow.Proofs.Execution.Pass
import Dataflow.Proofs.Flow.Invoke

/-!
# Preservation of flow

Whatever an invocation of a block comes to, the streams still carry the signals of their writers,
and blocks have still done what the streams show (`Execution.Flows.invoked`). Streams change in
three ways: their reader reads, their writer writes, or one of the two finishes. An invocation
changes no block beside the one that is invoked (`Execution.Beside`).
-/

namespace Dataflow

open Lifecycle (State)

namespace Execution

variable {g : Graph Builtin} {S : Nat → Signal} {p p' : Nat → Nat} {x y : Execution Builtin}
  {i : Nat} {n : Node Builtin}

/-! ### Streams -/

theorem isFinished_congr (h : y.stateAt = x.stateAt) (j : Nat) :
    y.isFinished j = x.isFinished j := by
  rw [isFinished_eq, isFinished_eq, h]

theorem Spans.of_wire {c d : Connection} {s : Stream Sample} (h : Spans g x c s)
    (hwire : d.wire = c.wire) : Spans g x d s := by
  have hsource : d.source = c.source := congrArg (·.source) hwire
  have htarget : d.target = c.target := congrArg (·.target) hwire
  have hsize : d.bufferSize = c.bufferSize := congrArg (·.bufferSize) hwire
  refine ⟨?_, ?_, ?_⟩
  · rw [hsource]
    exact h.closed
  · rw [htarget]
    exact h.detached
  · rw [Graph.bufferSize, hsize]
    exact h.capacity

/-- What has to be shown of a change to connections. -/
theorem Carried.map (h : Carried g S p x) (halike : g.Alike y.graph) {f : Connection → Connection}
    (hconnections : y.graph.connections = x.graph.connections.map f)
    (hwire : ∀ c, (f c).wire = c.wire) (hcovers : ∀ j, (S j).Covers (p' j))
    (hstreams : ∀ c ∈ x.graph.connections, ∀ s, c.stream = some s →
      s.Carries (S c.source.block) (p c.source.block) → Spans g x c s →
      ∃ s', (f c).stream = some s' ∧ s'.Carries (S c.source.block) (p' c.source.block) ∧
        Spans g y c s') : Carried g S p' y := by
  refine ⟨halike, ?_, hcovers⟩
  intro d hd
  rw [hconnections] at hd
  obtain ⟨c, hc, rfl⟩ := List.mem_map.mp hd
  obtain ⟨s, hs, hcarries, hspans⟩ := h.streams c hc
  obtain ⟨s', hs', hcarries', hspans'⟩ := hstreams c hc s hs hcarries hspans
  have hsource : (f c).source = c.source := congrArg (·.source) (hwire c)
  rw [hsource]
  exact ⟨s', hs', hcarries', hspans'.of_wire (hwire c)⟩

/-- A block reads samples that are there. -/
theorem Carried.reading (h : Carried g S p x) (hg : g.Signals S) {r : Nat}
    (hr : ∀ s, x.graph.feed? i = some s → r ≤ s.available) :
    Carried g S p (x.setConnections (x.graph.connections.map (Connection.reading i r))) := by
  refine h.map (h.alike.mapConnections Connection.wire_reading) rfl Connection.wire_reading
    h.covers ?_
  intro c hc s hs hcarries hspans
  rw [Connection.reading]
  by_cases ht : c.target.block = i
  · have hfeed := (h.sound hg).feed?_eq hc hs ht
    obtain ⟨-, -, hcarries'⟩ := hcarries.take (h.covers _) (hr s hfeed)
    rw [if_pos ht, hs]
    exact ⟨_, rfl, hcarries', hspans.closed, hspans.detached, hspans.capacity⟩
  · rw [if_neg ht]
    exact ⟨s, hs, hcarries, hspans.closed, hspans.detached, hspans.capacity⟩

/-- A block writes samples for which there is room. -/
theorem Carried.writing (h : Carried g S p x) (hg : g.Signals S) {m : Nat}
    (hm : ∀ s ∈ x.graph.outlets i, s.detached = false → m ≤ s.space)
    (hcovers : (S i).Covers (p i + m)) :
    Carried g S (Function.update p i (p i + m)) (x.setConnections
      (x.graph.connections.map (Connection.writing i ((S i).chunk (p i) m)))) := by
  refine h.map (h.alike.mapConnections Connection.wire_writing) rfl Connection.wire_writing ?_ ?_
  · intro j
    by_cases hj : j = i
    · subst hj
      rw [Function.update_self]
      exact hcovers
    · rw [Function.update_of_ne hj]
      exact h.covers j
  · intro c hc s hs hcarries hspans
    rw [Connection.writing]
    by_cases hsrc : c.source.block = i
    · rw [if_pos hsrc, hs, hsrc, Function.update_self]
      rw [hsrc] at hcarries
      refine ⟨_, rfl, ?_, ?_⟩
      · rw [Stream.receive]
        split
        next hd =>
          refine ⟨hcarries.room, hcarries.written_eq, ?_, fun h => ?_, hcarries.samples,
            hcarries.tags⟩
          · exact hcarries.written_le.trans (Nat.le_add_right _ _)
          · rw [hd] at h
            cases h
        next hd =>
          have hd : s.detached = false := by simpa using hd
          have hs' := (h.sound hg).mem_outlets.mpr ⟨c, hc, hsrc, hs⟩
          exact hcarries.push hd hcovers (hm s hs' hd)
      · rw [Stream.receive]
        split
        · exact ⟨hspans.closed, hspans.detached, hspans.capacity⟩
        · exact ⟨hspans.closed, hspans.detached, hspans.capacity⟩
    · rw [if_neg hsrc, Function.update_of_ne hsrc]
      exact ⟨s, hs, hcarries, hspans.closed, hspans.detached, hspans.capacity⟩

/-- Only what blocks have done changes. -/
theorem Carried.blocks (h : Carried g S p x) (halike : g.Alike y.graph)
    (hconnections : y.graph.connections = x.graph.connections)
    (hfinished : ∀ j, y.isFinished j = x.isFinished j) : Carried g S p y := by
  refine h.map halike (f := id) (by rw [hconnections, List.map_id]) (fun _ => rfl) h.covers ?_
  intro c hc s hs hcarries hspans
  refine ⟨s, hs, hcarries, ?_, ?_, hspans.capacity⟩
  · rw [hfinished]
    exact hspans.closed
  · rw [hfinished]
    exact hspans.detached

/-! ### Work calls -/

/-- No block beside `i` has changed or read anything. -/
structure Beside (i : Nat) (x y : Execution Builtin) : Prop where
  node : ∀ j, j ≠ i → y.graph.node? j = x.graph.node? j
  consumed : ∀ j, j ≠ i → y.graph.consumed j = x.graph.consumed j

theorem consumed_reading (j r : Nat) :
    (x.setConnections (x.graph.connections.map (Connection.reading i r))).graph.consumed j =
      if i = j ∧ (x.graph.feed? j).isSome then x.graph.consumed j + r else x.graph.consumed j := by
  have hread := x.graph.read_feed?_map (j := j) (f := Connection.reading i r)
    (φ := fun k => if i = j then k + r else k) Connection.wire_reading ?_
  · rw [Graph.consumed, setConnections, hread, Graph.consumed]
    cases x.graph.feed? j with
    | none => simp
    | some s => by_cases hj : i = j <;> simp [hj]
  · intro c hc ht
    rw [Connection.reading, ht]
    by_cases hj : j = i
    · subst hj
      cases c.stream <;> simp
    · rw [if_neg hj]
      cases c.stream <;> simp [Ne.symm hj]

theorem consumed_writing (j : Nat) (chunk : Chunk Sample) :
    (x.setConnections (x.graph.connections.map (Connection.writing i chunk))).graph.consumed j =
      x.graph.consumed j := by
  have hread := x.graph.read_feed?_map (j := j) (f := Connection.writing i chunk) (φ := id)
    Connection.wire_writing ?_
  · rw [Graph.consumed, setConnections, hread, Option.map_id, id, Graph.consumed]
  · intro c hc ht
    rw [Option.map_id, id, Connection.writing]
    split
    · cases c.stream with
      | none => rfl
      | some s =>
        simp only [Option.map_some, Stream.receive]
        split <;> rfl
    · rfl

section Work

variable {b : Builtin} {connections : List Connection} {outcome : WorkOutcome} {m : Nat}

theorem node?_worked (hy : y.graph = x.graph.worked i b connections) (j : Nat) :
    y.graph.node? j = if i = j then (x.graph.node? j).map fun n =>
      { n with block := b, workCalls := n.workCalls + 1 } else x.graph.node? j := by
  rw [hy]
  simp only [Graph.worked, Graph.modifyNode, Graph.node?, List.getElem?_modify]
  split
  next => rfl
  next => simp

theorem stateAt_worked (hy : y.graph = x.graph.worked i b connections) : y.stateAt = x.stateAt := by
  funext j
  rw [stateAt, node?_worked hy, stateAt]
  split
  · rw [Option.map_map]
    rfl
  · rfl

theorem consumed_worked (hy : y.graph = x.graph.worked i b connections) (j : Nat) :
    y.graph.consumed j = (x.setConnections connections).graph.consumed j := by
  rw [hy]
  rfl

theorem Carried.worked (h : Carried g S p (x.setConnections connections))
    (hn : x.graph.node? i = some n) (hform : b.form = n.block.form)
    (hy : y.graph = x.graph.worked i b connections) : Carried g S p y := by
  refine h.blocks ?_ (by rw [hy]; rfl) (isFinished_congr (stateAt_worked hy))
  rw [hy]
  refine h.alike.modifyNode (i := i) ?_
  intro k hk
  cases hn.symm.trans hk
  exact ⟨hform, rfl, rfl⟩

theorem Worked.form (hw : Worked g S p x i n.block outcome b connections m) :
    b.form = n.block.form := by
  cases hw with
  | starved | blocked | ended | unfed => rfl
  | moved hform | overfull hform => exact hform

theorem MayRead.le_available {s : Stream Sample} {r : Nat} (h : x.MayRead i b r)
    (hs : x.graph.feed? i = some s) : r ≤ s.available := by
  cases hin : b.hasInput with
  | false =>
    rw [h.source hin]
    exact Nat.zero_le _
  | true =>
    obtain ⟨s', hs', -, hr⟩ := h.input hin
    cases hs.symm.trans hs'
    exact hr

theorem MayWrite.le_space {s : Stream Sample} (h : x.MayWrite i b m)
    (hs : s ∈ x.graph.outlets i) (hlive : s.detached = false) : m ≤ s.space := by
  cases hout : b.hasOutput with
  | false =>
    rw [h.sink hout]
    exact Nat.zero_le _
  | true =>
    have hm := (h.output hout).2
    have hleast := FanOut.least_le (f := fun s : Stream Sample => min s.space s.tagSpace) hs hlive
    rw [room] at hm
    omega

theorem Worked.carried (hw : Worked g S p x i n.block outcome b connections m)
    (h : Ready g S p x i n) (hg : g.Signals S) (hy : y.graph = x.graph.worked i b connections) :
    Carried g S (Function.update p i (p i + m)) y := by
  refine Carried.worked ?_ h.node hw.form hy
  have hsame : Carried g S (Function.update p i (p i + 0))
      (x.setConnections x.graph.connections) := by
    rw [Nat.add_zero, Function.update_eq_self]
    exact h.toCarried
  cases hw with
  | starved | blocked | ended | unfed => exact hsame
  | @moved st b r m hform hreads hwrites hcovers hdone hst =>
    have hread := h.toCarried.reading (i := i) hg fun s => hreads.le_available
    refine hread.writing hg (fun s hs hsl => ?_) hcovers
    have houtlets := Graph.outlets_reading (i := i) (n := r) (h.toCarried.acyclic hg)
    have hs : s ∈ x.graph.outlets i := by
      rw [← houtlets]
      exact hs
    exact hwrites.le_space hs hsl
  | overfull hform hout hr =>
    rw [Nat.add_zero, Function.update_eq_self]
    exact h.toCarried.reading hg hr

theorem Worked.beside (hw : Worked g S p x i n.block outcome b connections m)
    (hy : y.graph = x.graph.worked i b connections) : Beside i x y := by
  refine ⟨fun j hj => ?_, fun j hj => ?_⟩
  · rw [node?_worked hy, if_neg (Ne.symm hj)]
  · rw [consumed_worked hy]
    cases hw with
    | starved | blocked | ended | unfed => rfl
    | @moved st b r m =>
      refine (consumed_writing (x := x.setConnections (x.graph.connections.map
        (Connection.reading i r))) j _).trans ?_
      rw [consumed_reading, if_neg fun h => hj h.1.symm]
    | overfull => rw [consumed_reading, if_neg fun h => hj h.1.symm]

theorem consumed_moved {r : Nat} {chunk : Chunk Sample} (hreads : x.MayRead i n.block r) :
    (x.setConnections ((x.graph.connections.map (Connection.reading i r)).map
      (Connection.writing i chunk))).graph.consumed i = x.graph.consumed i + r := by
  refine (consumed_writing (x := x.setConnections (x.graph.connections.map
    (Connection.reading i r))) i _).trans ?_
  rw [consumed_reading]
  cases hin : n.block.hasInput with
  | false =>
    rw [hreads.source hin, Nat.add_zero, ite_self]
  | true =>
    obtain ⟨s, hs, -⟩ := hreads.input hin
    rw [if_pos ⟨rfl, by rw [hs]; rfl⟩]

/-- A work call that does not fail leaves a block that has done what the streams show. -/
theorem Worked.done {st : WorkStatus} (hw : Worked g S p x i n.block (.status st) b connections m)
    (h : Ready g S p x i n) (hy : y.graph = x.graph.worked i b connections) :
    b.HasDone (g.inputSignal S i) (y.graph.consumed i) (p i + m) := by
  rw [consumed_worked hy]
  cases hw with
  | starved | blocked | ended => exact h.done
  | @moved st b r m hform hreads hwrites hcovers hdone hst =>
    rw [consumed_moved hreads]
    exact hdone

end Work

/-! ### Finishing -/

/-- Putting a block back where it was changes nothing. -/
theorem modify_block (hn : x.graph.node? i = some n) :
    x.graph.nodes.modify i (fun m => { m with block := n.block }) = x.graph.nodes := by
  refine List.ext_getElem? fun j => ?_
  rw [List.getElem?_modify]
  split
  next hij =>
    subst hij
    rw [Graph.node?] at hn
    rw [hn]
    rfl
  next => simp

theorem finish_graph (hn : x.graph.node? i = some n) (hopen : n.isFinished = false)
    (reason : FinishReason) : (x.finish i reason).graph =
      { x.graph.modifyNode i (fun n => { n with state := .stopped }) with
        connections := x.graph.connections.map (Connection.withdrawing i) } := by
  simp only [finish, hn, hopen]
  show ({ x.graph with
    nodes := (x.graph.nodes.modify i fun m => { m with block := n.block }).modify i fun m =>
      { m with state := .stopped }
    connections := x.graph.connections.map (Connection.withdrawing i) } : Graph Builtin) = _
  rw [modify_block hn]
  rfl

theorem consumed_withdrawing (j : Nat) :
    (x.setConnections (x.graph.connections.map (Connection.withdrawing i))).graph.consumed j =
      x.graph.consumed j := by
  have hread := x.graph.read_feed?_map (j := j) (f := Connection.withdrawing i) (φ := id)
    Connection.wire_withdrawing ?_
  · rw [Graph.consumed, setConnections, hread, Option.map_id, id, Graph.consumed]
  · intro c hc ht
    rw [Option.map_id, id, Connection.withdrawing]
    cases c.stream with
    | none => split <;> split <;> rfl
    | some s => split <;> split <;> rfl

theorem node?_finish (hn : x.graph.node? i = some n) (hopen : n.isFinished = false)
    (reason : FinishReason) (j : Nat) : (x.finish i reason).graph.node? j =
      if i = j then some { n with state := .stopped } else x.graph.node? j := by
  rw [finish_graph hn hopen, Graph.node?]
  simp only [Graph.modifyNode, List.getElem?_modify]
  split
  next hij =>
    subst hij
    rw [Graph.node?] at hn
    rw [hn]
    rfl
  next => simp [Graph.node?]

theorem Carried.finish (h : Carried g S p x) (hn : x.graph.node? i = some n)
    (hopen : n.isFinished = false) (reason : FinishReason) :
    Carried g S p (x.finish i reason) := by
  have hgraph := finish_graph hn hopen reason
  have hfinished := isFinished_finish x i reason
  have halike : g.Alike (x.finish i reason).graph := by
    rw [hgraph]
    refine Graph.Alike.mapConnections ?_ Connection.wire_withdrawing
    exact h.alike.modifyNode fun _ _ => ⟨rfl, rfl, rfl⟩
  refine h.map halike (f := Connection.withdrawing i) (by rw [hgraph]) Connection.wire_withdrawing
    h.covers ?_
  intro c hc s hs hcarries hspans
  have hclosed := hspans.closed
  have hdetached := hspans.detached
  rw [Connection.withdrawing, hs]
  by_cases hsrc : c.source.block = i <;> by_cases ht : c.target.block = i <;>
    simp only [hsrc, ht, if_true, if_false, Option.map_some] at hclosed hdetached ⊢
  · refine ⟨_, rfl, ?_, ?_, ?_, hspans.capacity⟩
    · rw [hsrc] at hcarries
      exact hcarries.close.detach
    · rw [hfinished, hsrc]
      simp [Stream.close, Stream.detach]
    · rw [hfinished, ht]
      simp [Stream.detach]
  · refine ⟨_, rfl, ?_, ?_, ?_, hspans.capacity⟩
    · rw [hsrc] at hcarries
      exact hcarries.close
    · rw [hfinished, hsrc]
      simp [Stream.close]
    · rw [hfinished, decide_eq_false (Ne.symm ht), Bool.false_or]
      exact hdetached
  · refine ⟨_, rfl, hcarries.detach, ?_, ?_, hspans.capacity⟩
    · rw [hfinished, decide_eq_false (Ne.symm hsrc), Bool.false_or]
      exact hclosed
    · rw [hfinished, ht]
      simp [Stream.detach]
  · refine ⟨s, rfl, hcarries, ?_, ?_, hspans.capacity⟩
    · rw [hfinished, decide_eq_false (Ne.symm hsrc), Bool.false_or]
      exact hclosed
    · rw [hfinished, decide_eq_false (Ne.symm ht), Bool.false_or]
      exact hdetached

theorem consumed_finish (hn : x.graph.node? i = some n) (hopen : n.isFinished = false)
    (reason : FinishReason) (j : Nat) :
    (x.finish i reason).graph.consumed j = x.graph.consumed j := by
  rw [finish_graph hn hopen]
  exact consumed_withdrawing (x := x) j

theorem Flows.finish (h : Flows g S p x) (hn : x.graph.node? i = some n)
    (hopen : n.isFinished = false) (reason : FinishReason) : Flows g S p (x.finish i reason) := by
  refine ⟨h.toCarried.finish hn hopen reason, fun j k hk hj => ?_⟩
  rw [consumed_finish hn hopen]
  rw [node?_finish hn hopen] at hk
  split at hk
  next hij =>
    subst hij
    cases hk
    refine h.blocks i n hn fun he => ?_
    simp [Node.isFinished, he, State.isTerminal] at hopen
  next => exact h.blocks j k hk hj

/-! ### Invocations -/

/-- Blocks beside `i` have done what the streams show, as long as nothing changes beside `i`. -/
theorem Flows.hasDone_beside (h : Flows g S p x) (hbeside : Beside i x y) {m : Nat} {j : Nat}
    (hj : j ≠ i) {k : Node Builtin} (hk : y.graph.node? j = some k)
    (hfine : k.state = .error → k.block.hasOutput = false) :
    k.block.HasDone (g.inputSignal S j) (y.graph.consumed j)
      (Function.update p i (p i + m) j) := by
  rw [hbeside.node j hj] at hk
  rw [hbeside.consumed j hj, Function.update_of_ne hj]
  exact h.blocks j k hk hfine

theorem Flows.worked {b : Builtin} {connections : List Connection} {st : WorkStatus} {m : Nat}
    (h : Flows g S p x) (hg : g.Signals S) (hready : Ready g S p x i n)
    (hw : Worked g S p x i n.block (.status st) b connections m)
    (hy : y.graph = x.graph.worked i b connections) :
    Flows g S (Function.update p i (p i + m)) y := by
  refine ⟨hw.carried hready hg hy, fun j k hk hfine => ?_⟩
  by_cases hj : j = i
  · subst hj
    rw [node?_worked hy, if_pos rfl, hready.node] at hk
    cases hk
    rw [Function.update_self]
    exact hw.done hready hy
  · exact h.hasDone_beside (hw.beside hy) hj hk hfine

theorem node?_running_worked {b : Builtin} {connections : List Connection}
    (hn : x.graph.node? i = some n) (hy : y.graph = x.graph.worked i b connections) :
    y.graph.node? i = some { n with block := b, workCalls := n.workCalls + 1 } := by
  rw [node?_worked hy, if_pos rfl, hn]
  rfl

/-- A block that fails is finished before it enters its state. -/
theorem Flows.failed {b : Builtin} {connections : List Connection} {e : WorkError} {m : Nat}
    (h : Flows g S p x) (hg : g.Signals S) (hrun : n.state = .running)
    (hready : Ready g S p x i n) (hw : Worked g S p x i n.block (.failed e) b connections m)
    (hy : y.graph = x.graph.worked i b connections) :
    Flows g S (Function.update p i (p i + m)) ((y.finish i .failed).setState i .error) := by
  have hni := node?_running_worked hready.node hy
  have hopen : Node.isFinished { n with block := b, workCalls := n.workCalls + 1 } = false :=
    Node.isFinished_of_running hrun
  have hnode := node?_finish hni hopen .failed
  have hcarried := (hw.carried hready hg hy).finish hni hopen .failed
  have hnode' : ∀ j, ((y.finish i .failed).setState i .error).graph.node? j =
      if i = j then some { n with block := b, workCalls := n.workCalls + 1, state := .error }
      else y.graph.node? j := by
    intro j
    simp only [setState, modifyNode, Graph.modifyNode, Graph.node?, List.getElem?_modify]
    have hj := hnode j
    rw [Graph.node?] at hj
    rw [hj]
    split
    next => rfl
    next => simp [Graph.node?]
  refine ⟨hcarried.blocks ?_ rfl fun j => ?_, fun j k hk hfine => ?_⟩
  · exact hcarried.alike.modifyNode fun _ _ => ⟨rfl, rfl, rfl⟩
  · simp only [isFinished, hnode', hnode]
    by_cases hij : i = j
    · rw [if_pos hij, if_pos hij]
      rfl
    · rw [if_neg hij, if_neg hij]
  · have hconsumed : ((y.finish i .failed).setState i .error).graph.consumed j =
        y.graph.consumed j := consumed_finish hni hopen .failed j
    rw [hconsumed]
    rw [hnode'] at hk
    split at hk
    next hij =>
      subst hij
      cases hk
      have hsink : b.hasOutput = false := hfine rfl
      cases hw with
      | unfed =>
        rw [consumed_worked hy, Function.update_self, Nat.add_zero]
        exact hready.done
      | overfull hform hout =>
        rw [← Builtin.hasOutput_form, hform, Builtin.hasOutput_form, hout] at hsink
        cases hsink
    next hij =>
      exact h.hasDone_beside (hw.beside hy) (Ne.symm hij) hk hfine

/-- Whatever an invocation comes to, samples flow on. -/
theorem Flows.invoked (h : Flows g S p x) (hg : g.Signals S) {r : Invocation}
    (hi : Invoked g S p x i r y p') : Flows g S p' y := by
  cases hi with
  | rests => exact h
  | deserted hn hrun =>
    exact h.finish hn (Node.isFinished_of_running hrun) _
  | goesOn hrun hready hw hy => exact h.worked hg hready hw hy.graph
  | ends hrun hready hw hy =>
    refine (h.worked hg hready hw hy.graph).finish (node?_running_worked hready.node hy.graph) ?_ _
    exact Node.isFinished_of_running hrun
  | fails hrun hready hw hy => exact h.failed hg hrun hready hw hy.graph

end Execution
end Dataflow
