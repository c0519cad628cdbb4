import Dataflow.Graph.Inspect
import Dataflow.Proofs.Execution.Calls
import Dataflow.Proofs.Graph.Built
import Mathlib.Data.List.Nodup

/-!
# Wiring

What blocks do while a graph runs changes neither the ports of its nodes nor between which of them
its connections lead (`Graph.SameWiring`). A graph that was wired when it was built therefore stays
so, whatever its blocks have done since.
-/

namespace Dataflow

/-- A connection without its stream. -/
def Connection.wire (c : Connection) : Connection := { c with stream := none }

/-- Inputs and outputs of a node. -/
def Node.ports {β : Type} (n : Node β) : List PortSchema × List PortSchema := (n.inputs, n.outputs)

theorem Node.ports_apply {β : Type} [Block β] (n : Node β) (settings : PropertyMap)
    (isRunning : Bool) : (n.apply settings isRunning).node.ports = n.ports := by
  simp only [apply]
  split
  · rfl
  · split <;> rfl

theorem Node.ports_answer {β : Type} [Block β] (n : Node β) (m : Message) :
    (n.answer m).node.ports = n.ports := by
  simp only [answer]
  split
  case h_2 =>
    simp only [answerSet]
    split
    · rfl
    · split <;> exact ports_apply n _ true
  all_goals rfl

namespace Graph

variable {β : Type} {g g' g'' : Graph β}

/-- The same ports with the same connections, whatever blocks and streams hold. -/
structure SameWiring (g g' : Graph β) : Prop where
  ports : g'.nodes.map Node.ports = g.nodes.map Node.ports
  wires : g'.connections.map Connection.wire = g.connections.map Connection.wire

namespace SameWiring

theorem trans (h : g.SameWiring g') (h' : g'.SameWiring g'') : g.SameWiring g'' :=
  ⟨h'.ports.trans h.ports, h'.wires.trans h.wires⟩

theorem node? (h : g.SameWiring g') {i : Nat} {n : Node β} (hn : g.node? i = some n) :
    ∃ m, g'.node? i = some m ∧ m.ports = n.ports := by
  have hi := congrArg (fun l => l[i]?) h.ports
  rw [Graph.node?] at hn
  simp only [List.getElem?_map, hn, Option.map_some] at hi
  exact Option.map_eq_some_iff.mp hi

theorem connection (h : g.SameWiring g') {c : Connection} (hc : c ∈ g'.connections) :
    ∃ d ∈ g.connections, d.wire = c.wire := by
  have hmem : c.wire ∈ g'.connections.map Connection.wire := List.mem_map_of_mem hc
  rw [h.wires] at hmem
  exact List.mem_map.mp hmem

theorem links (h : g.SameWiring g') {c d : Connection} (hwire : d.wire = c.wire)
    (hd : g.Links d) : g'.Links c := by
  have hsource : d.source = c.source := congrArg (·.source) hwire
  have htarget : d.target = c.target := congrArg (·.target) hwire
  have htype : d.type = c.type := congrArg (·.type) hwire
  obtain ⟨⟨n, p, hn, hp, hpt⟩, ⟨m, q, hm, hq, hqt⟩⟩ := hd
  obtain ⟨n', hn', hports⟩ := h.node? hn
  obtain ⟨m', hm', hports'⟩ := h.node? hm
  have houtputs : n'.outputs = n.outputs := congrArg Prod.snd hports
  have hinputs : m'.inputs = m.inputs := congrArg Prod.fst hports'
  exact ⟨⟨n', p, hsource ▸ hn', by rw [houtputs, ← hsource, hp], hpt.trans htype⟩,
    ⟨m', q, htarget ▸ hm', by rw [hinputs, ← htarget, hq], hqt.trans htype⟩⟩

theorem targets (h : g.SameWiring g') :
    g'.connections.map Connection.target = g.connections.map Connection.target := by
  have htargets := congrArg (List.map Connection.target) h.wires
  simpa [List.map_map, Function.comp_def, Connection.wire] using htargets

theorem wired (h : g.SameWiring g') (hg : g.Wired) : g'.Wired := by
  refine ⟨fun c hc => ?_, ?_⟩
  · obtain ⟨d, hd, hwire⟩ := h.connection hc
    exact h.links hwire (hg.links d hd)
  · rw [← List.pairwise_map (f := Connection.target), h.targets, List.pairwise_map]
    exact hg.targets

theorem bind (g : Graph β) : g.SameWiring g.bind := by
  refine ⟨rfl, ?_⟩
  rw [Graph.bind, List.map_map]
  exact List.map_congr_left fun _ _ => rfl

theorem symm (h : g.SameWiring g') : g'.SameWiring g := ⟨h.ports.symm, h.wires.symm⟩

theorem isFed (h : g.SameWiring g') (target : Endpoint) : g'.isFed target = g.isFed target := by
  have hany : ∀ g : Graph β, g.isFed target =
      (g.connections.map Connection.target).any fun t => decide (t = target) := fun g => by
    rw [List.any_map]
    rfl
  rw [hany, hany, h.targets]

end SameWiring

theorem validate_eq_ok_iff [Block β] : g.validate = .ok () ↔
    ∀ i n, g.node? i = some n → g.unfedInput? i n = none := by
  rw [validate]
  split
  next n p hsome =>
    refine ⟨fun h => (by cases h), fun h => ?_⟩
    obtain ⟨entry, hmem, hunfed⟩ := List.exists_of_findSome?_eq_some hsome
    have hfed := h entry.2 entry.1 (List.mem_zipIdx_iff_getElem?.mp hmem)
    simp [hfed] at hunfed
  next hnone =>
    refine ⟨fun _ i n hn => ?_, fun _ => rfl⟩
    have hmem : (n, i) ∈ g.nodes.zipIdx := List.mem_zipIdx_iff_getElem?.mpr hn
    simpa using List.findSome?_eq_none_iff.mp hnone (n, i) hmem

/-- Whether a graph is valid depends on its wiring only. -/
theorem SameWiring.validate [Block β] (h : g.SameWiring g') (hg : g.validate = .ok ()) :
    g'.validate = .ok () := by
  rw [validate_eq_ok_iff] at hg ⊢
  intro i n hn
  obtain ⟨m, hm, hports⟩ := h.symm.node? hn
  have hinputs : m.inputs = n.inputs := congrArg Prod.fst hports
  have hfed : g'.isFed = g.isFed := funext h.isFed
  have hi := hg i m hm
  rw [unfedInput?, hinputs] at hi
  rw [unfedInput?, hfed]
  exact hi

theorem ports_modifyNode {i : Nat} {f : Node β → Node β} (hf : ∀ n, (f n).ports = n.ports) :
    (g.modifyNode i f).nodes.map Node.ports = g.nodes.map Node.ports :=
  map_modify fun n _ => hf n

/-! ### Streams of a wired graph -/

theorem Wired.eq_of_target (h : g.Wired) {c d : Connection} (hc : c ∈ g.connections)
    (hd : d ∈ g.connections) (heq : c.target = d.target) : c = d :=
  List.inj_on_of_nodup_map (List.pairwise_map.mpr h.targets) hc hd heq

theorem exists_of_inputStream? {connections : List Connection} {target : Endpoint}
    {s : Stream Sample} (h : inputStream? connections target = some s) :
    ∃ c ∈ connections, c.target = target ∧ c.stream = some s := by
  obtain ⟨c, hc, heq⟩ := List.exists_of_findSome?_eq_some h
  split at heq
  next ht => exact ⟨c, hc, ht, heq⟩
  next => cases heq

theorem mem_outputStreams {connections : List Connection} {source : Endpoint}
    {s : Stream Sample} :
    s ∈ outputStreams connections source ↔
      ∃ c ∈ connections, c.source = source ∧ c.stream = some s := by
  simp only [outputStreams, List.mem_filterMap]
  constructor
  · rintro ⟨c, hc, h⟩
    split at h
    next hsrc => exact ⟨c, hc, hsrc, h⟩
    next => cases h
  · rintro ⟨c, hc, hsrc, h⟩
    exact ⟨c, hc, by rw [if_pos hsrc, h]⟩

end Graph
end Dataflow
