import Dataflow.Proofs.Block.Form
import Dataflow.Proofs.Graph.SameWiring
import Dataflow.Proofs.Graph.Signal
import Dataflow.Proofs.Stream.FanOut

/-!
# Wiring

While a graph runs, the states of its blocks and the streams of its connections change, and nothing
else: it stays `Alike`. What a block does to the streams around it is a function on connections:
reading its input (`Connection.reading`), writing to its outputs (`Connection.writing`) and
finishing (`Connection.withdrawing`).
-/

namespace Dataflow

namespace Builtin

theorem signal_form (b : Builtin) (S : Signal) : b.form.signal S = b.signal S := by
  cases b <;> rfl

theorem inputs_form (b : Builtin) : Block.inputs b.form = Block.inputs b := by cases b <;> rfl

theorem outputs_form (b : Builtin) : Block.outputs b.form = Block.outputs b := by cases b <;> rfl

theorem hasInput_form (b : Builtin) : b.form.hasInput = b.hasInput := by cases b <;> rfl

theorem hasOutput_form (b : Builtin) : b.form.hasOutput = b.hasOutput := by cases b <;> rfl

theorem sampleType_form (b : Builtin) : b.form.sampleType = b.sampleType := by cases b <;> rfl

end Builtin

namespace Graph

variable {g g' : Graph Builtin} {i : Nat}

/-- The same blocks in the same wiring, whatever the blocks have done. -/
structure Alike (g g' : Graph Builtin) : Prop where
  forms : g'.nodes.map (fun n => n.block.form) = g.nodes.map fun n => n.block.form
  ports : ∀ n ∈ g'.nodes, n.PortsAgree
  wires : g'.connections.map Connection.wire = g.connections.map Connection.wire
  config : g'.config = g.config

namespace Alike

theorem refl (hs : g.Sound) : g.Alike g := ⟨rfl, hs.ports, rfl, rfl⟩

theorem symm (h : g.Alike g') (hs : g.Sound) : g'.Alike g :=
  ⟨h.forms.symm, hs.ports, h.wires.symm, h.config.symm⟩

theorem length_nodes (h : g.Alike g') : g'.nodes.length = g.nodes.length := by
  simpa using congrArg List.length h.forms

theorem node? (h : g.Alike g') {n : Node Builtin} (hn : g'.node? i = some n) :
    ∃ m, g.node? i = some m ∧ n.block.form = m.block.form := by
  have hi := congrArg (fun l => l[i]?) h.forms
  rw [Graph.node?] at hn
  simp only [List.getElem?_map, hn, Option.map_some] at hi
  obtain ⟨m, hm, heq⟩ := Option.map_eq_some_iff.mp hi.symm
  exact ⟨m, hm, heq.symm⟩

theorem connection (h : g.Alike g') {c : Connection} (hc : c ∈ g'.connections) :
    ∃ d ∈ g.connections, c.wire = d.wire := by
  have hmem : c.wire ∈ g.connections.map Connection.wire := by
    rw [← h.wires]
    exact List.mem_map_of_mem hc
  obtain ⟨d, hd, heq⟩ := List.mem_map.mp hmem
  exact ⟨d, hd, heq.symm⟩

theorem joins (h : g.Alike g') (hs : g.Sound) {c : Connection} (hc : c ∈ g'.connections) :
    g'.Joins c := by
  obtain ⟨d, hd, heq⟩ := h.connection hc
  obtain ⟨⟨n, hn, hout, htype⟩, ⟨m, hm, hin, htype'⟩, hsp, htp⟩ := hs.joins d hd
  obtain ⟨n', hn', hform⟩ := (h.symm hs).node? hn
  obtain ⟨m', hm', hform'⟩ := (h.symm hs).node? hm
  have hsource : c.source = d.source := congrArg (·.source) heq
  have htarget : c.target = d.target := congrArg (·.target) heq
  have hct : c.type = d.type := congrArg (·.type) heq
  refine ⟨⟨n', hsource ▸ hn', ?_, ?_⟩, ⟨m', htarget ▸ hm', ?_, ?_⟩, hsource ▸ hsp, htarget ▸ htp⟩
  · rw [← Builtin.hasOutput_form, ← hform, Builtin.hasOutput_form, hout]
  · rw [← Builtin.sampleType_form, ← hform, Builtin.sampleType_form, htype, hct]
  · rw [← Builtin.hasInput_form, ← hform', Builtin.hasInput_form, hin]
  · rw [← Builtin.sampleType_form, ← hform', Builtin.sampleType_form, htype', hct]

theorem sound (h : g.Alike g') (hs : g.Sound) : g'.Sound := by
  refine ⟨h.ports, fun c hc => h.joins hs hc, ?_⟩
  have htargets : g'.connections.map Connection.target = g.connections.map Connection.target := by
    have := congrArg (List.map Connection.target) h.wires
    simpa [List.map_map, Function.comp_def, Connection.wire] using this
  rw [← List.pairwise_map (f := Connection.target), htargets, List.pairwise_map]
  exact hs.targets

theorem upstream? (h : g.Alike g') (i : Nat) : g'.upstream? i = g.upstream? i := by
  have hwire : ∀ l : List Connection,
      (l.find? fun c => decide (c.target.block = i)).map (fun c => c.source.block) =
        ((l.map Connection.wire).find? fun c => decide (c.target.block = i)).map
          fun c => c.source.block := fun l => by
    rw [List.find?_map, Option.map_map]
    rfl
  rw [Graph.upstream?, hwire, h.wires, ← hwire, Graph.upstream?]

theorem feeds (h : g.Alike g') {j : Nat} (hf : g'.Feeds i j) : g.Feeds i j := by
  obtain ⟨c, hc, rfl, rfl⟩ := hf
  obtain ⟨d, hd, heq⟩ := h.connection hc
  exact ⟨d, hd, congrArg (·.source.block) heq.symm, congrArg (·.target.block) heq.symm⟩

theorem acyclic (h : g.Alike g') (ha : g.Acyclic) : g'.Acyclic := fun i hi =>
  ha i (Relation.TransGen.mono (fun _ _ => h.feeds) _ _ hi)

/-- Changes to what a block has done. -/
theorem modifyNode (h : g.Alike g') {f : Node Builtin → Node Builtin}
    (hf : ∀ n, g'.node? i = some n →
      (f n).block.form = n.block.form ∧ (f n).inputs = n.inputs ∧ (f n).outputs = n.outputs) :
    g.Alike (g'.modifyNode i f) := by
  refine ⟨(map_modify fun n hn => (hf n hn).1).trans h.forms, fun n hn => ?_, h.wires, h.config⟩
  obtain ⟨j, hj⟩ := List.getElem?_of_mem hn
  simp only [Graph.modifyNode, List.getElem?_modify] at hj
  obtain ⟨m, hm, rfl⟩ := Option.map_eq_some_iff.mp hj
  have hports := h.ports m (List.mem_of_getElem? hm)
  split
  next hij =>
    subst hij
    obtain ⟨hform, hin, hout⟩ := hf m hm
    refine ⟨?_, ?_⟩
    · rw [hin, hports.1, ← Builtin.inputs_form, ← hform, Builtin.inputs_form]
    · rw [hout, hports.2, ← Builtin.outputs_form, ← hform, Builtin.outputs_form]
  next => exact hports

/-- Changes to streams. -/
theorem mapConnections (h : g.Alike g') {f : Connection → Connection}
    (hf : ∀ c, (f c).wire = c.wire) :
    g.Alike { g' with connections := g'.connections.map f } := by
  refine ⟨h.forms, h.ports, ?_, h.config⟩
  rw [List.map_map, ← h.wires]
  exact List.map_congr_left fun c _ => hf c

end Alike

/-! ### Streams around a block -/

/-- The stream at the input of a block. -/
def feed? (g : Graph Builtin) (i : Nat) : Option (Stream Sample) :=
  inputStream? g.connections ⟨i, 0⟩

/-- The streams at the output of a block. -/
def outlets (g : Graph Builtin) (i : Nat) : List (Stream Sample) :=
  outputStreams g.connections ⟨i, 0⟩

theorem Sound.target_eq (hs : g.Sound) {c : Connection} (hc : c ∈ g.connections) :
    c.target = ⟨i, 0⟩ ↔ c.target.block = i := by
  have hp := (hs.joins c hc).targetPort
  constructor
  · rintro h
    rw [h]
  · rintro rfl
    rw [← hp]

theorem Sound.feed?_eq (hs : g.Sound) {c : Connection} (hc : c ∈ g.connections)
    {s : Stream Sample} (hstream : c.stream = some s) (ht : c.target.block = i) :
    g.feed? i = some s := by
  cases h : g.feed? i with
  | none =>
    have hnone := List.findSome?_eq_none_iff.mp h c hc
    rw [if_pos ((hs.target_eq hc).mpr ht), hstream] at hnone
    cases hnone
  | some s' =>
    obtain ⟨d, hd, hdt, hds⟩ := exists_of_inputStream? h
    have hcd : c = d := hs.eq_of_target hc hd (by rw [ht, hdt])
    rw [← hds, ← hcd, hstream]

theorem Sound.source_eq (hs : g.Sound) {c : Connection} (hc : c ∈ g.connections) :
    c.source = ⟨i, 0⟩ ↔ c.source.block = i := by
  have hp := (hs.joins c hc).sourcePort
  constructor
  · rintro h
    rw [h]
  · rintro rfl
    rw [← hp]

theorem Sound.mem_outlets (hs : g.Sound) {s : Stream Sample} :
    s ∈ g.outlets i ↔ ∃ c ∈ g.connections, c.source.block = i ∧ c.stream = some s := by
  rw [outlets, mem_outputStreams]
  exact exists_congr fun c => and_congr_right fun hc => and_congr_left' (hs.source_eq hc)

/-! ### What a block does to connections -/

end Graph

/-- A connection after block `i` has read `n` samples, if they come through it. -/
def Connection.reading (i n : Nat) (c : Connection) : Connection :=
  if c.target.block = i then { c with stream := c.stream.map fun s => s.collect.advance n } else c

/-- A connection after block `i` has published a chunk, if it goes through it. -/
def Connection.writing (i : Nat) (chunk : Chunk Sample) (c : Connection) : Connection :=
  if c.source.block = i then { c with stream := c.stream.map (Stream.receive chunk) } else c

/-- A connection after block `i` has finished. -/
def Connection.withdrawing (i : Nat) (c : Connection) : Connection :=
  let stream := if c.source.block = i then c.stream.map Stream.close else c.stream
  { c with stream := if c.target.block = i then stream.map Stream.detach else stream }

namespace Connection

variable {i n : Nat} {chunk : Chunk Sample}

theorem wire_reading (c : Connection) : (c.reading i n).wire = c.wire := by
  unfold reading
  split <;> rfl

theorem wire_writing (c : Connection) : (c.writing i chunk).wire = c.wire := by
  unfold writing
  split <;> rfl

theorem wire_withdrawing (c : Connection) : (c.withdrawing i).wire = c.wire := rfl

end Connection

namespace Graph

variable {g : Graph Builtin} {i n : Nat}

/-- Reading its input does not change what is at the output of a block. -/
theorem outlets_reading (ha : g.Acyclic) :
    outlets { g with connections := g.connections.map (Connection.reading i n) } i =
      g.outlets i := by
  simp only [outlets, outputStreams, List.filterMap_map]
  refine List.filterMap_congr fun c hc => ?_
  rw [Function.comp_apply, Connection.reading]
  by_cases ht : c.target.block = i
  · have hne : c.source ≠ ⟨i, 0⟩ := by
      intro hsrc
      exact ha.source_ne_target hc (by rw [ht, hsrc])
    rw [if_pos ht, if_neg hne, if_neg hne]
  · rw [if_neg ht]

theorem Sound.modifyInput_eq (hs : g.Sound) {s : Stream Sample} (hfeed : g.feed? i = some s) :
    modifyInput ⟨i, 0⟩ (fun _ => s.collect.advance n) g.connections =
      g.connections.map (Connection.reading i n) := by
  refine List.map_congr_left fun c hc => ?_
  rw [Connection.reading]
  by_cases ht : c.target.block = i
  · obtain ⟨d, hd, hdt, hds⟩ := exists_of_inputStream? hfeed
    have hcd : c = d := hs.eq_of_target hc hd (by rw [ht, hdt])
    rw [if_pos ((hs.target_eq hc).mpr ht), if_pos ht, hcd, hds]
    rfl
  · rw [if_neg (fun h => ht ((hs.target_eq hc).mp h)), if_neg ht]

/-- How many samples have been read at an input after a change to connections. -/
theorem read_feed?_map {j : Nat} {f : Connection → Connection} {φ : Nat → Nat}
    (hwire : ∀ c, (f c).wire = c.wire)
    (hread : ∀ c ∈ g.connections, c.target = ⟨j, 0⟩ →
      (f c).stream.map Stream.read = (c.stream.map Stream.read).map φ) :
    (feed? { g with connections := g.connections.map f } j).map Stream.read =
      ((g.feed? j).map Stream.read).map φ := by
  simp only [feed?, inputStream?]
  generalize g.connections = connections at hread ⊢
  induction connections with
  | nil => rfl
  | cons c rest ih =>
    have hrest := ih fun d hd => hread d (List.mem_cons_of_mem _ hd)
    have hc := hread c (List.mem_cons_self ..)
    have htarget : (f c).target = c.target := congrArg (·.target) (hwire c)
    simp only [List.map_cons, List.findSome?_cons, htarget]
    by_cases ht : c.target = ⟨j, 0⟩
    · have hc := hc ht
      rw [if_pos ht, if_pos ht]
      cases hs : c.stream <;> cases hs' : (f c).stream <;> rw [hs, hs'] at hc
      · exact hrest
      · cases hc
      · cases hc
      · exact hc
    · rw [if_neg ht, if_neg ht]
      exact hrest

theorem setOutputs_map (source : Endpoint) (f : Stream Sample → Stream Sample)
    (connections : List Connection) :
    setOutputs source connections ((outputStreams connections source).map f) =
      connections.map fun c =>
        if c.source = source then { c with stream := c.stream.map f } else c := by
  induction connections with
  | nil => rfl
  | cons c rest ih =>
    simp only [outputStreams] at ih
    rcases c with ⟨src, target, bufferSize, type, stream⟩
    by_cases hsrc : src = source
    · cases stream <;> simp [outputStreams, setOutputs, hsrc, ih]
    · simp [outputStreams, setOutputs, hsrc, ih]

end Graph
end Dataflow
