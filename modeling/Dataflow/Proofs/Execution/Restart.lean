import Dataflow.Proofs.Execution.Intact
import Mathlib.Data.List.Forall2

/-!
# Starting again

Of what blocks have done nothing is left once they have been started: executions that differ in
nothing else (`Execution.ready`) are the same after that (`startAll_of_ready`). So it is for a bound
graph and for one that has been built anew with the same blocks, settings and connections
(`Graph.Rebuilds`, `Graph.Rebuilds.startAll`).
-/

namespace Dataflow

open Lifecycle (State)

namespace Builtin

variable {b : Builtin}

theorem hasData_started_iff : b.started.HasData ↔ b.HasData := by cases b <;> exact Iff.rfl

theorem hasData_of_start {σ : Type} {answer : (op : HookOp) → σ → op.Reply × σ} {s : σ}
    (h : ((Block.start b).run answer s).1.1 = .ok ()) : b.HasData := by
  cases b with
  | vectorSource b =>
    intro hempty
    have hstart : b.start = (.error (.block "VectorSource has no data"), b) := by
      rw [VectorSource.start, if_pos (by simp [hempty])]
    have hrun : ((Block.start (vectorSource b)).run answer s).1.1 = b.start.1 := rfl
    rw [hrun, hstart] at h
    cases h
  | _ => trivial

end Builtin

theorem Node.started_started (n : Node Builtin) : n.started.started = n.started := by
  simp only [Node.started, Builtin.started_started]

namespace Execution

variable {x y z : Execution Builtin} {group : List Nat}

/-! ### What is left of the past -/

/-- The execution with all its blocks as they are once they have been started. -/
def ready (x : Execution Builtin) : Execution Builtin :=
  { x with graph := { x.graph with nodes := x.graph.nodes.map Node.started } }

theorem node?_ready (x : Execution Builtin) (i : Nat) :
    x.ready.graph.node? i = (x.graph.node? i).map Node.started :=
  List.getElem?_map ..

theorem node?_starting (x : Execution Builtin) (i j : Nat) :
    (x.starting i).graph.node? j =
      (x.graph.node? j).map fun n => if i = j then n.started else n :=
  List.getElem?_modify ..

theorem starting_ready (x : Execution Builtin) (i : Nat) :
    x.ready.starting i = (x.starting i).ready := by
  have hnodes : (x.graph.nodes.map Node.started).modify i Node.started =
      (x.graph.nodes.modify i Node.started).map Node.started := by
    refine List.ext_getElem? fun j => ?_
    simp only [List.getElem?_modify, List.getElem?_map]
    cases x.graph.nodes[j]? with
    | none => rfl
    | some n => split <;> rfl
  simp only [ready, starting, modifyNode, record, Graph.modifyNode, hnodes]

theorem hasData_of_start {i : Nat} {n : Node Builtin} (hn : x.graph.node? i = some n)
    (h : (x.start i).1 = .ok ()) : n.block.HasData := by
  simp only [start, hn] at h
  exact Builtin.hasData_of_start h

/-- All blocks of a group that has been started have data. -/
theorem hasData_of_startAll (h : Scheduler.startAll x group = (none, z)) {i : Nat}
    (hi : i ∈ group) {n : Node Builtin} (hn : x.graph.node? i = some n) : n.block.HasData := by
  induction group generalizing x n with
  | nil => cases hi
  | cons j rest ih =>
    have hstart : (x.start j).1 = .ok () ∧ Scheduler.startAll (x.start j).2 rest = (none, z) := by
      rw [Scheduler.startAll] at h
      rcases hout : x.start j with ⟨result, y⟩
      rw [hout] at h
      cases result with
      | ok => exact ⟨rfl, h⟩
      | error e => cases h
    obtain ⟨hok, hrest⟩ := hstart
    rcases List.mem_cons.mp hi with rfl | hi
    · exact hasData_of_start hn hok
    · obtain ⟨-, hgraph, -⟩ := start_spec x j fun m hm => hasData_of_start hm hok
      have hnode : (x.start j).2.graph.node? i = some (if j = i then n.started else n) := by
        have hsame : (x.start j).2.graph = (x.starting j).graph := hgraph
        rw [hsame, node?_starting, hn, Option.map_some]
      have hdata := ih hrest hi hnode
      split at hdata
      · exact Builtin.hasData_started_iff.mp hdata
      · exact hdata

/-- Starting blocks one after the other, all of which have data. -/
theorem startAll_eq (hdata : ∀ i ∈ group, ∃ n, x.graph.node? i = some n ∧ n.block.HasData) :
    Scheduler.startAll x group = (none, group.foldl starting x) := by
  induction group generalizing x with
  | nil => rfl
  | cons j rest ih =>
    obtain ⟨n, hn, hj⟩ := hdata j (List.mem_cons_self ..)
    rw [Scheduler.startAll, start_of_hasData hn hj]
    refine ih fun i hi => ?_
    obtain ⟨m, hm, hi⟩ := hdata i (List.mem_cons_of_mem _ hi)
    refine ⟨if j = i then m.started else m, by rw [node?_starting, hm, Option.map_some], ?_⟩
    split
    · exact Builtin.hasData_started hi
    · exact hi

theorem mem_everyBlock_of_node? {i : Nat} {n : Node Builtin} (hn : x.graph.node? i = some n) :
    i ∈ x.everyBlock := by
  rw [mem_everyBlock, stateAt, hn]
  rfl

/-- Once all blocks have been started, they are ready. -/
theorem ready_of_startAll (h : Scheduler.startAll x x.everyBlock = (none, z)) : z.ready = z := by
  obtain ⟨y, hy, -, -, -, hnode⟩ := startAll_spec x x.everyBlock fun i n hn =>
    hasData_of_startAll h (mem_everyBlock_of_node? hn) hn
  cases hy.symm.trans h
  have hnodes : z.graph.nodes.map Node.started = z.graph.nodes := by
    refine List.ext_getElem? fun j => ?_
    have hj : z.graph.nodes[j]? = (x.graph.node? j).map Node.started := by
      have hj := hnode j
      split at hj
      · exact hj
      next hout =>
        cases hn : x.graph.node? j with
        | none => rw [hn] at hj; exact hj
        | some n => exact absurd (mem_everyBlock_of_node? hn) hout
    rw [List.getElem?_map, hj, Option.map_map]
    congr 1
    funext n
    exact n.started_started
  simp only [ready, hnodes]

theorem everyBlock_of_ready (h : x.ready = y.ready) : y.everyBlock = x.everyBlock := by
  have hnodes : x.graph.nodes.map Node.started = y.graph.nodes.map Node.started :=
    congrArg (·.graph.nodes) h
  have hlength := congrArg List.length hnodes
  rw [List.length_map, List.length_map] at hlength
  rw [everyBlock, everyBlock, hlength]

/-- Executions that differ only in what their blocks have done are the same once all of these have
been started. -/
theorem startAll_of_ready (hready : x.ready = y.ready)
    (h : Scheduler.startAll x x.everyBlock = (none, z)) :
    Scheduler.startAll y y.everyBlock = (none, z) := by
  have hdata : ∀ i ∈ x.everyBlock, ∃ n, x.graph.node? i = some n ∧ n.block.HasData := fun i hi => by
    obtain ⟨n, hn⟩ : ∃ n, x.graph.node? i = some n :=
      ⟨_, List.getElem?_eq_getElem (List.mem_range.mp hi)⟩
    exact ⟨n, hn, hasData_of_startAll h hi hn⟩
  have hdata' : ∀ i ∈ y.everyBlock, ∃ n, y.graph.node? i = some n ∧ n.block.HasData :=
      fun i hi => by
    obtain ⟨n, hn, hi⟩ := hdata i (everyBlock_of_ready hready ▸ hi)
    have hstarted : (x.graph.node? i).map Node.started = (y.graph.node? i).map Node.started := by
      rw [← node?_ready, hready, node?_ready]
    rw [hn, Option.map_some] at hstarted
    obtain ⟨m, hm, heq⟩ := Option.map_eq_some_iff.mp hstarted.symm
    refine ⟨m, hm, Builtin.hasData_started_iff.mp ?_⟩
    have hblock : m.block.started = n.block.started := congrArg Node.block heq
    exact hblock ▸ Builtin.hasData_started hi
  have hfold : ∀ x : Execution Builtin, ∀ group : List Nat,
      group.foldl starting x.ready = (group.foldl starting x).ready := fun x group =>
    List.foldl_hom ready starting_ready
  have hx := startAll_eq hdata
  have hy := startAll_eq hdata'
  cases hx.symm.trans h
  have hz := ready_of_startAll hy
  rw [hy, everyBlock_of_ready hready, ← ready_of_startAll hx, ← hfold, hready, hfold,
    ← everyBlock_of_ready hready, hz]

end Execution

/-! ### Graphs that are built anew -/

namespace Graph

variable {g old : Graph Builtin}

/-- A graph of the same blocks, under the same names and with the same settings, and of the same
connections: one that may have been built anew, while the blocks of the other have been at work. -/
structure Rebuilds (g old : Graph Builtin) : Prop where
  intact : g.IsIntact
  nodes : List.Forall₂ Node.Resembles g.nodes old.nodes
  wires : g.connections.map Connection.wire = old.connections.map Connection.wire
  config : g.config = old.config

namespace Rebuilds

/-- What intact nodes that resemble each other have in common. -/
theorem map_eq (h : g.Rebuilds old) (hold : old.IsIntact) {γ : Type} {φ : Node Builtin → γ}
    (hφ : ∀ {n m}, n.Resembles m → n.IsIntact → m.IsIntact → φ n = φ m) :
    g.nodes.map φ = old.nodes.map φ := by
  have hall : ∀ {l l' : List (Node Builtin)}, List.Forall₂ Node.Resembles l l' →
      (∀ n ∈ l, n.IsIntact) → (∀ m ∈ l', m.IsIntact) → l.map φ = l'.map φ := by
    intro l l' hl
    induction hl with
    | nil => exact fun _ _ => rfl
    | cons hnm _ ih =>
      intro hn hm
      rw [List.forall_mem_cons] at hn hm
      rw [List.map_cons, List.map_cons, hφ hnm hn.1 hm.1, ih hn.2 hm.2]
  exact hall h.nodes h.intact hold

theorem sameWiring (h : g.Rebuilds old) (hold : old.IsIntact) : old.SameWiring g :=
  ⟨h.map_eq hold Node.Resembles.ports, h.wires⟩

theorem bind (h : g.Rebuilds old) : g.bind.connections = old.bind.connections := by
  have hbind : ∀ g : Graph Builtin, g.bind.connections = (g.connections.map Connection.wire).map
      fun c => { c with stream := some (.empty (c.bufferSize.getD g.config.defaultBufferSize)) } :=
    fun g => by
      rw [List.map_map]
      rfl
  rw [hbind, hbind, h.wires, h.config]

/-- Bound graphs of which one rebuilds the other are the same once their blocks have been
started. -/
theorem startAll (h : g.Rebuilds old) (hold : old.IsIntact) {x z : Execution Builtin}
    (hx : x.graph = old.bind) (hz : Scheduler.startAll x x.everyBlock = (none, z)) :
    Scheduler.startAll { x with graph := g.bind }
      ({ x with graph := g.bind } : Execution Builtin).everyBlock = (none, z) := by
  refine Execution.startAll_of_ready ?_ hz
  have hnodes : x.graph.nodes.map Node.started = g.bind.nodes.map Node.started := by
    rw [hx]
    exact (h.map_eq hold Node.Resembles.started_eq).symm
  have hconnections : x.graph.connections = g.bind.connections := by rw [hx, h.bind]
  have hconfig : x.graph.config = g.bind.config := by
    rw [hx]
    exact h.config.symm
  simp only [Execution.ready, hnodes, hconnections, hconfig]

end Rebuilds

end Graph
end Dataflow
