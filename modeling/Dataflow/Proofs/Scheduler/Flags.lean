import Dataflow.Proofs.Execution.Mirrored
import Dataflow.Proofs.Scheduler.Launch

/-!
# Flags of streams

Initialisation gives each connection of a wired graph an open stream and starts all blocks, so
that streams mirror blocks from then on (`Scheduler.mirrored_of_initialise`). Whatever calls are
made on the blocks, each stream is closed if and only if its writer has finished, and detached
from if and only if its reader has (`Scheduler.flags_of_drives`).
-/

namespace Dataflow

open Lifecycle (State)

namespace Execution

variable {β : Type} [Block β]

theorem graph_start (x : Execution β) (i : Nat) :
    (x.start i).2.graph.nodes.map Node.ports = x.graph.nodes.map Node.ports ∧
      (x.start i).2.graph.connections = x.graph.connections := by
  simp only [start]
  split
  · exact ⟨rfl, rfl⟩
  next n _ =>
    obtain ⟨hgraph, -⟩ := runHook_frame (Block.start n.block) x
    refine ⟨Eq.trans (Graph.ports_modifyNode ?_) ?_, ?_⟩
    · exact fun _ => rfl
    · rw [hgraph]
    · show (x.runHook (Block.start n.block)).2.graph.connections = x.graph.connections
      rw [hgraph]

theorem graph_startAll (x : Execution β) (group : List Nat) :
    (Scheduler.startAll x group).2.graph.nodes.map Node.ports = x.graph.nodes.map Node.ports ∧
      (Scheduler.startAll x group).2.graph.connections = x.graph.connections := by
  induction group generalizing x with
  | nil => exact ⟨rfl, rfl⟩
  | cons i rest ih =>
    obtain ⟨hports, hconn⟩ := graph_start x i
    rw [Scheduler.startAll]
    rcases hout : x.start i with ⟨result, y⟩
    rw [hout] at hports hconn
    cases result with
    | error e => exact ⟨hports, hconn⟩
    | ok => exact ⟨(ih y).1.trans hports, (ih y).2.trans hconn⟩

end Execution

namespace Scheduler

variable {β : Type} [Block β] {s s' : Scheduler β} {snapshot : PropertyMap} {y : Execution β}

theorem graph_initialise (h : s.initialise = (.ok snapshot, s')) :
    s'.graph.nodes.map Node.ports = s.graph.nodes.map Node.ports ∧
      s'.graph.connections = s.graph.bind.connections := by
  simp only [initialise] at h
  split at h
  · cases h
  · split at h
    · cases h
    next x hstart =>
      cases h
      let y : Execution β := { s.toExecution with graph := s.graph.bind }
      have hstart : startAll y y.everyBlock = (none, x) := hstart
      have hgraph := Execution.graph_startAll y y.everyBlock
      rw [hstart] at hgraph
      exact hgraph

theorem mirrored_of_initialise (hw : s.graph.Wired) (h : s.initialise = (.ok snapshot, s')) :
    s'.toExecution.Mirrored := by
  obtain ⟨hports, hconn⟩ := graph_initialise h
  have hspec := initialise_spec s
  rw [h] at hspec
  cases hspec with
  | started _ _ _ hstarts =>
    have hwiring : s.graph.bind.SameWiring s'.graph := ⟨hports, by rw [hconn]⟩
    have hopen : ∀ i n, s.graph.node? i = some n → s'.isFinished i = false := fun i n hn => by
      rw [Execution.isFinished_eq, hstarts.stateAt_starts, Execution.stateAt_of_node? hn]
      rfl
    refine ⟨((Graph.SameWiring.bind _).trans hwiring).wired hw, fun c hc => ?_⟩
    -- the streams are still those that binding made, and no block has finished
    rw [hconn] at hc
    obtain ⟨d, hd, rfl⟩ := List.mem_map.mp hc
    obtain ⟨⟨n, _, hn, _⟩, ⟨m, _, hm, _⟩⟩ := hw.links d hd
    rw [hopen d.source.block n hn, hopen d.target.block m hm]
    rfl

/-- From the end of initialisation on, each stream is closed if and only if its writer has
finished, and detached from if and only if its reader has. Blocks that are called therefore write
to no closed stream and read from no stream that they have detached from, and no block loses all
its readers while one of them has not finished. -/
theorem flags_of_drives {g : Graph β} (hg : g.Built) (hwiring : g.SameWiring s.graph)
    (h : s.initialise = (.ok snapshot, s')) (hy : s'.toExecution.Drives y) :
    (∀ c ∈ y.graph.connections, ∃ stream writer reader, c.stream = some stream ∧
      y.stateAt c.source.block = some writer ∧ y.stateAt c.target.block = some reader ∧
      (stream.closed = true ↔ writer.isTerminal = true) ∧
      (stream.detached = true ↔ reader.isTerminal = true)) ∧
    (∀ i n, y.graph.node? i = some n → n.state = .running →
      (Block.work n.block).Throughout (Execution.answerWork i) (WorkOp.Respects i) y) ∧
    ∀ c ∈ y.graph.connections, ∀ n, y.graph.node? c.source.block = some n →
      y.isFinished c.target.block = false → y.isDeserted c.source.block n = false := by
  have hmirrored : y.Mirrored := (mirrored_of_initialise (hwiring.wired hg.wired) h).drives hy
  refine ⟨fun c hc => ?_, fun i n hn hrun => ?_, fun c hc n hn hopen => ?_⟩
  · obtain ⟨stream, hstream, hflags⟩ := Option.map_eq_some_iff.mp (hmirrored.flags c hc)
    obtain ⟨⟨n, _, hn, _⟩, ⟨m, _, hm, _⟩⟩ := hmirrored.wired.links c hc
    have hwriter := Execution.stateAt_of_node? hn
    have hreader := Execution.stateAt_of_node? hm
    rw [Execution.isFinished_eq, Execution.isFinished_eq, hwriter, hreader] at hflags
    obtain ⟨hclosed, hdetached⟩ := Prod.mk.inj hflags
    exact ⟨stream, n.state, m.state, hstream, hwriter, hreader, Bool.coe_iff_coe.mpr hclosed,
      Bool.coe_iff_coe.mpr hdetached⟩
  · have hopen : y.isFinished i = false := by
      rw [Execution.isFinished, hn]
      exact Node.isFinished_of_running hrun
    exact hmirrored.throughout hopen _
  · exact hmirrored.isDeserted hc hopen hn

/-- The graph of `endless`, built step by step. -/
theorem built_endless : ∃ g : Graph Builtin, g.Built ∧ g.SameWiring (endless []).graph := by
  let type : SampleType := .int .i32
  let g₀ : Graph Builtin := .empty .default
  let g₁ := (g₀.add .empty "NullSource" "" (.nullSource (.new type))).graph
  let g₂ := (g₁.add .empty "NullSink" "" (.nullSink (.new type))).graph
  have hconnect : g₂.connect 0 (.index 0) 1 (.index 0) (some 1) =
      .ok { g₂ with connections := [⟨⟨0, 0⟩, ⟨1, 0⟩, some 1, type, none⟩] } := rfl
  exact ⟨_, .connect (.add _ _ _ _ (.add _ _ _ _ (.empty _))) hconnect, rfl, rfl⟩

/-- The source is stopped, the sink goes on: their stream is closed, but not detached from. -/
theorem flags_of_drives_endless :
    ∃ (g : Graph Builtin) (snapshot : PropertyMap) (s' : Scheduler Builtin) (n : Node Builtin),
      g.Built ∧ g.SameWiring (endless []).graph ∧
      (endless []).initialise = (.ok snapshot, s') ∧
      s'.toExecution.Drives (s'.finish 0 .stopRequested) ∧
      (∃ c ∈ (s'.finish 0 .stopRequested).graph.connections, ∃ stream, c.stream = some stream ∧
        stream.closed = true ∧ stream.detached = false) ∧
      (s'.finish 0 .stopRequested).graph.node? 1 = some n ∧ n.state = .running ∧
      (Block.work n.block).Throughout (Execution.answerWork 1) (WorkOp.Respects 1)
        (s'.finish 0 .stopRequested) := by
  obtain ⟨g, hg, hwiring⟩ := built_endless
  let outcome := (endless []).initialise
  let y := outcome.2.finish 0 .stopRequested
  have hok : outcome.1.isOk = true := by decide +kernel
  obtain ⟨snapshot, hsnapshot⟩ : ∃ snapshot, outcome.1 = .ok snapshot := by
    cases h : outcome.1 with
    | ok snapshot => exact ⟨snapshot, rfl⟩
    | error e => rw [h] at hok; cases hok
  have hinit : (endless []).initialise = (.ok snapshot, outcome.2) := by rw [← hsnapshot]
  have hy : outcome.2.toExecution.Drives y := .single (.finish 0 .stopRequested)
  obtain ⟨hflags, hwork, -⟩ := flags_of_drives hg hwiring hinit hy
  have hconn : (y.graph.connections.map fun c => (c.source.block, c.target.block)) = [(0, 1)] := by
    decide +kernel
  have hstates : y.stateAt 0 = some .stopped ∧ y.stateAt 1 = some .running := by decide +kernel
  obtain ⟨c, hc, hends⟩ : ∃ c ∈ y.graph.connections, (c.source.block, c.target.block) = (0, 1) :=
    List.mem_map.mp (by rw [hconn]; exact List.mem_singleton_self _)
  obtain ⟨hsource, htarget⟩ := Prod.mk.inj hends
  obtain ⟨stream, writer, reader, hstream, hwriter, hreader, hclosed, hdetached⟩ := hflags c hc
  rw [hsource, hstates.1] at hwriter
  rw [htarget, hstates.2] at hreader
  cases hwriter
  cases hreader
  obtain ⟨n, hn, hrun⟩ := Option.map_eq_some_iff.mp hstates.2
  refine ⟨g, snapshot, outcome.2, n, hg, hwiring, hinit, hy, ⟨c, hc, stream, hstream,
    hclosed.mpr rfl, ?_⟩, hn, hrun, hwork 1 n hn hrun⟩
  exact Bool.eq_false_iff.mpr fun h => by cases hdetached.mp h

end Scheduler
end Dataflow
