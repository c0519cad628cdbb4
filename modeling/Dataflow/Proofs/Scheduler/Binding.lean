import Dataflow.Proofs.Graph.Binding
import Dataflow.Proofs.Scheduler.Lasting

/-!
# Binding for a run

Whatever has become of a graph by operations on it, by changes of its nodes and by whole runs
(`Graph.Reachable`), it is well-formed: running it changes none of what was checked when its ports
were connected. So its ports can be bound at any time, whatever they own from an earlier run, and
then own just what the connections say (`Graph.bindPorts_exact`).
-/

namespace Dataflow

variable {β : Type}

namespace Graph
variable {g g' : Graph β}

theorem SameWiring.wellFormed (h : g.SameWiring g') (hconfig : g'.config = g.config)
    (hg : g.WellFormed) : g'.WellFormed := by
  refine ⟨h.wired hg.toWired, fun source => ?_, fun c hc => ?_⟩
  · have hcount : ∀ g : Graph β, g.fanOut source =
        (g.connections.map Connection.wire).countP fun c => c.source = source := fun g => by
      rw [List.countP_map]
      rfl
    rw [hcount, h.wires, ← hcount, hconfig]
    exact hg.fanOut source
  · obtain ⟨d, hd, hwire⟩ := h.connection hc
    have htype : d.type = c.type := congrArg (·.type) hwire
    exact htype ▸ hg.registered d hd

variable [Block β]

/-- Graphs that a program can come to have. -/
inductive Reachable : Graph β → Prop where
  | empty (config : GraphConfig) : Reachable (.empty config)
  | perform {g : Graph β} (operation : Operation β) : Reachable g →
      Reachable (g.perform operation).2
  /-- Anything of a node may be changed but its ports. -/
  | adjust {g : Graph β} (i : Nat) {f : Node β → Node β} : (∀ n, (f n).ports = n.ports) →
      Reachable g → Reachable (g.modifyNode i f)
  /-- However a run ends. -/
  | run {s s' : Scheduler β} {parallelism fuel : Nat} {client : Client}
      {result : Except SchedulerError Unit} : Reachable s.graph →
      s.run parallelism fuel client = some (result, s') → Reachable s'.graph

namespace Reachable

theorem construct (h : g.Reachable) (operations : List (Operation β)) :
    (g.construct operations).Reachable := by
  induction operations generalizing g with
  | nil => exact h
  | cons operation rest ih => exact ih (h.perform operation)

theorem wellFormed (h : g.Reachable) : g.WellFormed := by
  induction h with
  | empty config => exact .empty config
  | perform operation _ ih => exact ih.perform operation
  | @adjust g i f hports _ ih =>
    have hsame : g.SameWiring (g.modifyNode i f) := ⟨ports_modifyNode hports, rfl⟩
    exact hsame.wellFormed rfl ih
  | @run s s' _ _ _ _ _ hrun ih =>
    have hframe : s.graph.SameFrame s'.graph := (lasting_sameFrame s.graph).run (.refl _) hrun
    exact hframe.toSameWiring.wellFormed hframe.config ih

end Reachable

/-- The ports of any graph that a program can come to have can be bound, whatever they own before.
Then they own just what the connections say, and show blocks the streams of the bound graph. Each
serves the type that it is declared with, an input if it is connected, as it is if it is required
and the graph is valid. -/
theorem bindPorts_exact (hg : g.Reachable) {b : Board} (hb : b.Fits g) :
    ∃ b', b.bindPorts g = .ok b' ∧ b'.Carries g b.buffers ∧ b'.Shows g.bind ∧
      (∀ e p, b'.output? e = some p → p.writerError? p.schema.type = none) ∧
      (∀ e p, b'.input? e = some p → p.readerError? p.schema.type =
        if g.isFed e then none else some (.notConnected p.schema.name)) ∧
      (g.validate = .ok () → ∀ e p, b'.input? e = some p → p.schema.optional = false →
        p.consumer.isSome ∧ p.readerError? p.schema.type = none) := by
  have hwired := hg.wellFormed.toWired
  obtain ⟨b', hbound, hbinds⟩ := Board.binds_bindPorts hg.wellFormed hb
  have hread : ∀ e p, b'.input? e = some p → p.readerError? p.schema.type =
      if g.isFed e then none else some (.notConnected p.schema.name) := by
    intro e p hp
    rw [← hbinds.isSome_consumer hp, InputPort.readerError?]
    cases hhalf : p.consumer with
    | none => rfl
    | some half => simp [(hbinds.of_consumer hwired hp hhalf).1]
  refine ⟨b', hbound, hbinds.carries hwired, hbinds.shows hwired, fun e p hp => ?_, hread,
    fun hvalid e p hp hrequired => ?_⟩
  · rw [OutputPort.writerError?, if_pos]
    exact List.all_eq_true.mpr fun half hhalf =>
      decide_eq_true (hbinds.type_of_mem_producers hwired hp hhalf)
  · have hfed : g.isFed e = true := isFed_of_validate hvalid (hbinds.of_input? hp).1 hrequired
    exact ⟨(hbinds.isSome_consumer hp).trans hfed, by rw [hread e p hp, if_pos hfed]⟩

/-- A source that feeds two sinks, through buffers of the default size and of size zero. -/
def fork : Graph Builtin :=
  (Graph.empty .default).construct [
    .insert (.new "NullSource" "" (.nullSource (.new (.int .i32))) 0),
    .insert (.new "NullSink" "" (.nullSink (.new (.int .i32))) 0),
    .insert (.new "NullSink" "" (.nullSink (.new (.int .i32))) 1),
    .connect 0 (.index 0) 1 (.name "in") none,
    .connect 0 (.name "out") 2 (.index 0) (some 0)]

/-- Its ports, all of which own ends of one buffer that an earlier run has closed. -/
def worn : Board where
  inputs := [[], [⟨.input "in" (.int .i32) 0, some ⟨0, .raw⟩⟩],
    [⟨.input "in" (.int .i32) 0, some ⟨0, .raw⟩⟩]]
  outputs := [[⟨.output "out" (.int .i32) 0, [⟨0, .raw⟩]⟩], [], []]
  buffers := [(Stream.empty 7).close]

theorem bindPorts_exact_fork : fork.Reachable ∧ worn.Fits fork ∧ fork.validate = .ok () ∧
    ∃ b', worn.bindPorts fork = .ok b' ∧
      b'.producers ⟨0, 0⟩ = [⟨1, .int .i32⟩, ⟨2, .int .i32⟩] ∧
      b'.consumer? ⟨2, 0⟩ = some ⟨2, .int .i32⟩ ∧ b'.stream? ⟨2, .int .i32⟩ = some (.empty 0) ∧
      ∀ p, b'.input? ⟨2, 0⟩ = some p → p.readerError? p.schema.type = none := by
  have hreach : fork.Reachable := (Reachable.empty .default).construct _
  have hfits : worn.Fits fork := by
    constructor <;> rintro ⟨_ | _ | _ | i, _ | j⟩ <;> rfl
  obtain ⟨b', hbound, hcarries, -, -, -, hserves⟩ := bindPorts_exact hreach hfits
  obtain ⟨-, hconsumer, hbuffer⟩ := hcarries.joined 1 _ rfl
  refine ⟨hreach, hfits, rfl, b', hbound, ?_, hconsumer, hbuffer, fun p hp => ?_⟩
  · obtain ⟨p, hp, -⟩ := Option.map_eq_some_iff.mp (hcarries.fits.outputs ⟨0, 0⟩)
    have hproducers : b'.producers ⟨0, 0⟩ = p.producers := by
      rw [Board.producers, hp]
      rfl
    exact hproducers.trans (hcarries.producers _ p hp).1
  · have hschema : (b'.input? ⟨2, 0⟩).map InputPort.schema = fork.input? ⟨2, 0⟩ :=
      hcarries.fits.inputs _
    rw [hp] at hschema
    have hrequired : p.schema.optional = false := by
      rw [Option.some.inj hschema]
      rfl
    exact (hserves rfl _ p hp hrequired).2

end Graph
end Dataflow
