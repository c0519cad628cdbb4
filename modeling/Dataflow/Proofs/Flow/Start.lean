import Dataflow.Proofs.Flow.Completion
import Dataflow.Proofs.Execution.Pass

/-!
# Starting

A bound graph of built-in blocks can be started if each of its vector sources has data
(`Builtin.HasData`). Then every block runs, every stream is empty (`Execution.IsFresh`), and samples
flow of which none has been published (`Execution.startAll_flows`).
-/

namespace Dataflow

open Lifecycle (State)

namespace Builtin

/-- A vector source without data cannot start. -/
def HasData : Builtin → Prop
  | vectorSource b => b.data ≠ []
  | _ => True

/-- A block that has been started. -/
def started : Builtin → Builtin
  | nullSource b => nullSource { b with produced := 0 }
  | nullSink b => nullSink { b with consumed := 0 }
  | vectorSource b =>
    vectorSource { b with round := VectorSource.roundOf b.data b.tags, position := 0 }
  | vectorSink b => vectorSink { b with data := .empty, tags := .empty }
  | head b => head { b with published := 0 }
  | copy b => copy b
  | tagGate b => tagGate b

variable {b : Builtin}

theorem start_eq (h : b.HasData) : Block.start b = .done (.ok (), b.started) := by
  cases b with
  | vectorSource b =>
    have hne : b.data ≠ [] := h
    show Program.done (b.start.map id vectorSource) = _
    rw [VectorSource.start, if_neg (by simpa using hne)]
    rfl
  | _ => rfl

theorem form_started : b.started.form = b.form := by
  cases b <;> rfl

theorem hasData_started (h : b.HasData) : b.started.HasData := by
  cases b with
  | vectorSource b => exact h
  | _ => trivial

theorem started_started : b.started.started = b.started := by
  cases b <;> rfl

/-- A block that has been started is as it is configured, whatever it has done. -/
theorem started_form : b.form.started = b.started := by
  cases b <;> rfl

theorem started_eq_of_form {b' : Builtin} (h : b'.form = b.form) : b'.started = b.started := by
  rw [← started_form, h, started_form]

theorem hasDone_started (input : Signal) : b.started.HasDone input 0 0 := by
  cases b with
  | nullSource | nullSink => trivial
  | vectorSource b => exact ⟨rfl, (by simp), fun _ => Nat.zero_le _⟩
  | vectorSink => exact ⟨rfl, rfl⟩
  | head => exact ⟨rfl, rfl, Nat.zero_le _⟩
  | copy | tagGate => rfl

end Builtin

/-- A node whose block has been started. -/
def Node.started (n : Node Builtin) : Node Builtin :=
  { n with block := n.block.started, state := .running, workCalls := 0 }

namespace Execution

variable {g : Graph Builtin} {S : Nat → Signal} {x : Execution Builtin}

/-- The execution after the start of the block at a position. -/
def starting (x : Execution Builtin) (i : Nat) : Execution Builtin :=
  (x.modifyNode i Node.started).record i (.start (.ok ()))

theorem start_of_hasData {i : Nat} {n : Node Builtin} (hn : x.graph.node? i = some n)
    (hdata : n.block.HasData) : x.start i = (.ok (), x.starting i) := by
  have hnodes : x.graph.nodes.modify i (fun m =>
      { m with block := n.block.started, state := .running, workCalls := 0 }) =
        x.graph.nodes.modify i Node.started := by
    refine List.ext_getElem? fun j => ?_
    simp only [List.getElem?_modify]
    split
    next hij =>
      subst hij
      rw [Graph.node?] at hn
      rw [hn]
      rfl
    next => rfl
  simp only [start, hn, Builtin.start_eq hdata, runHook, Program.run, starting, modifyNode,
    Graph.modifyNode, hnodes]

theorem start_spec (x : Execution Builtin) (i : Nat)
    (hdata : ∀ n, x.graph.node? i = some n → n.block.HasData) :
    (x.start i).1 = .ok () ∧ (x.start i).2.graph = x.graph.modifyNode i Node.started ∧
      (x.start i).2.inbox = x.inbox := by
  cases hn : x.graph.node? i with
  | none =>
    have hlen : x.graph.nodes.length ≤ i := List.getElem?_eq_none_iff.mp hn
    simp only [start, hn, Graph.modifyNode, List.modify_eq_self hlen, and_self]
  | some n =>
    rw [start_of_hasData hn (hdata n hn)]
    exact ⟨rfl, rfl, rfl⟩

/-- Starting blocks succeeds if all of them have data. -/
theorem startAll_spec (x : Execution Builtin) (group : List Nat)
    (hdata : ∀ i n, x.graph.node? i = some n → n.block.HasData) :
    ∃ y, Scheduler.startAll x group = (none, y) ∧ y.inbox = x.inbox ∧
      y.graph.connections = x.graph.connections ∧ y.graph.config = x.graph.config ∧
      ∀ j, y.graph.node? j =
        if j ∈ group then (x.graph.node? j).map Node.started else x.graph.node? j := by
  induction group generalizing x with
  | nil => exact ⟨x, rfl, rfl, rfl, rfl, by simp⟩
  | cons i rest ih =>
    obtain ⟨hok, hgraph, hinbox⟩ := start_spec x i (hdata i)
    have hnode : ∀ j, (x.start i).2.graph.node? j =
        if i = j then (x.graph.node? j).map Node.started else x.graph.node? j := by
      intro j
      rw [hgraph, Graph.node?, Graph.modifyNode]
      simp only [List.getElem?_modify]
      split
      next => rfl
      next => simp [Graph.node?]
    obtain ⟨y, hy, hinbox', hconnections, hconfig, hnodes⟩ := ih (x.start i).2 fun j n hn => by
      rw [hnode] at hn
      split at hn
      next =>
        obtain ⟨m, hm, rfl⟩ := Option.map_eq_some_iff.mp hn
        exact Builtin.hasData_started (hdata j m hm)
      next => exact hdata j n hn
    refine ⟨y, ?_, hinbox'.trans hinbox, ?_, ?_, ?_⟩
    · rw [Scheduler.startAll]
      rcases hs : x.start i with ⟨result, z⟩
      rw [hs] at hok hy
      cases hok
      exact hy
    · rw [hconnections, hgraph]
      rfl
    · rw [hconfig, hgraph]
      rfl
    · intro j
      rw [hnodes, hnode]
      have htwice : ∀ o : Option (Node Builtin),
          (o.map Node.started).map Node.started = o.map Node.started := by
        intro o
        cases o with
        | none => rfl
        | some n => simp [Node.started, Builtin.started_started]
      by_cases hij : i = j
      · subst hij
        by_cases hmem : i ∈ rest <;> simp [hmem, htwice]
      · by_cases hmem : j ∈ rest <;> simp [hmem, hij, Ne.symm hij]

/-- A bound graph all of whose blocks have been started. -/
structure IsFresh (g : Graph Builtin) (y : Execution Builtin) : Prop where
  connections : y.graph.connections = g.bind.connections
  config : y.graph.config = g.config
  node : ∀ j, y.graph.node? j = (g.node? j).map Node.started

namespace IsFresh

variable {y : Execution Builtin} (h : IsFresh g y)
include h

theorem stream {c : Connection} (hc : c ∈ y.graph.connections) :
    c.stream = some (.empty (g.bufferSize c)) := by
  rw [h.connections] at hc
  obtain ⟨d, hd, rfl⟩ := List.mem_map.mp hc
  rfl

theorem stateAt (j : Nat) : y.stateAt j = (g.node? j).map fun _ => .running := by
  rw [Execution.stateAt, h.node, Option.map_map]
  rfl

theorem alike (hs : g.Sound) : g.Alike y.graph := by
  refine ⟨?_, ?_, ?_, h.config⟩
  · refine List.ext_getElem? fun j => ?_
    have hj := h.node j
    rw [Graph.node?] at hj
    rw [List.getElem?_map, List.getElem?_map, hj, Option.map_map, Graph.node?]
    congr 1
    funext n
    exact Builtin.form_started
  · intro n hn
    obtain ⟨j, hj⟩ := List.getElem?_of_mem hn
    have hj' := h.node j
    rw [Graph.node?, hj] at hj'
    obtain ⟨m, hm, rfl⟩ := Option.map_eq_some_iff.mp hj'.symm
    have hports := hs.ports m (List.mem_of_getElem? hm)
    refine ⟨?_, ?_⟩
    · show m.inputs = Block.inputs m.block.started
      rw [hports.1, ← Builtin.inputs_form, ← Builtin.form_started, Builtin.inputs_form]
    · show m.outputs = Block.outputs m.block.started
      rw [hports.2, ← Builtin.outputs_form, ← Builtin.form_started, Builtin.outputs_form]
  · rw [h.connections, Graph.bind, List.map_map]
    rfl

theorem isFinished {j : Nat} {n : Node Builtin} (hn : y.graph.node? j = some n) :
    y.isFinished j = false := by
  have hst := h.stateAt j
  rw [stateAt_of_node? hn] at hst
  obtain ⟨m, -, hrun⟩ := Option.map_eq_some_iff.mp hst.symm
  rw [Execution.isFinished, hn]
  simp [Node.isFinished, ← hrun, State.isTerminal]

theorem consumed (i : Nat) : y.graph.consumed i = 0 := by
  rw [Graph.consumed]
  cases hfeed : y.graph.feed? i with
  | none => rfl
  | some s =>
    obtain ⟨c, hc, -, hs⟩ := Graph.exists_of_inputStream? hfeed
    cases (h.stream hc).symm.trans hs
    rfl

theorem flows (hs : g.Sound) : Flows g S (fun _ => 0) y := by
  have halike := h.alike hs
  refine ⟨⟨halike, fun c hc => ?_, fun i k hk => absurd hk (Nat.not_lt_zero k)⟩, ?_⟩
  · have hjoins := (halike.sound hs).joins c hc
    obtain ⟨n, hn, -⟩ := hjoins.source
    obtain ⟨m, hm, -⟩ := hjoins.target
    exact ⟨_, h.stream hc, .empty, (h.isFinished hn).symm, (h.isFinished hm).symm, rfl⟩
  · intro i n hn _
    rw [h.node] at hn
    obtain ⟨m, -, rfl⟩ := Option.map_eq_some_iff.mp hn
    rw [h.consumed]
    exact Builtin.hasDone_started _

end IsFresh

/-- A bound graph of which all vector sources have data can be started. -/
theorem startAll_flows (hs : g.Sound) (hx : x.graph = g.bind)
    (hdata : ∀ i n, g.node? i = some n → n.block.HasData) :
    ∃ y, Scheduler.startAll x x.everyBlock = (none, y) ∧ y.inbox = x.inbox ∧
      Flows g S (fun _ => 0) y ∧ ∀ i, y.stateAt i = (g.node? i).map fun _ => .running := by
  have hnodes : ∀ j, x.graph.node? j = g.node? j := by
    intro j
    rw [hx]
    rfl
  obtain ⟨y, hy, hinbox, hconnections, hconfig, hnode⟩ := startAll_spec x x.everyBlock fun i n hn =>
    hdata i n (by rw [← hnodes, hn])
  have hfresh : IsFresh g y := by
    refine ⟨by rw [hconnections, hx], by rw [hconfig, hx]; rfl, fun j => ?_⟩
    rw [hnode, hnodes]
    split
    next => rfl
    next hj =>
      rw [mem_everyBlock, stateAt, hnodes, Option.isSome_map] at hj
      cases hn : g.node? j with
      | none => rfl
      | some n =>
        rw [hn] at hj
        exact absurd rfl hj
  exact ⟨y, hy, hinbox, hfresh.flows hs, hfresh.stateAt⟩

end Execution
end Dataflow
