import Dataflow.Proofs.Graph.Connecting

/-!
# Built graphs

Graphs are built by putting nodes of a registry into them and by connecting ports
(`Graph.Built`). A built graph is `Wired`: each connection leads from an output to an input of one
type, and no input is connected twice. The ports of its nodes are those of their blocks. For
built-in blocks, none of which has more than one port on either side, this makes the port of an
endpoint always the first (`Graph.Sound`).
-/

namespace Dataflow

/-- Graphs that are built by putting nodes into them and connecting these. -/
inductive Graph.Built {β : Type} [Block β] : Graph β → Prop where
  | empty (config : GraphConfig) : Built (.empty config)
  | emplace {g : Graph β} (r : Registry β) (typeName parameterization : String)
      (settings : PropertyMap) :
      Built g → Built (g.emplace r typeName parameterization settings).graph
  | add {g : Graph β} (r : Registry β) (typeName parameterization : String) (block : β) :
      Built g → Built (g.add r typeName parameterization block).graph
  | connect {g g' : Graph β} {source target : Nat} {sourcePort targetPort : PortRef}
      {bufferSize : Option Nat} : Built g →
      g.connect source sourcePort target targetPort bufferSize = .ok g' → Built g'

/-! ### Ports -/

/-- The ports of a node are those of its block. -/
def Node.PortsAgree {β : Type} [Block β] (n : Node β) : Prop :=
  n.inputs = Block.inputs n.block ∧ n.outputs = Block.outputs n.block

theorem Registry.portsAgree_wrap {β : Type} [Block β] {r : Registry β}
    {typeName parameterization : String} {block : β} {settings : PropertyMap} {n : Node β}
    (h : (r.wrap typeName parameterization block settings).result = .ok n) : n.PortsAgree := by
  simp only [wrap] at h
  split at h
  next hok =>
    cases h
    unfold Node.initialise at hok ⊢
    dsimp only at hok ⊢
    split
    · exact ⟨rfl, rfl⟩
    next herr =>
      rw [herr] at hok
      simp only [herr] at hok
      cases hok
  next => cases h

theorem Registry.portsAgree_create {β : Type} [Block β] {r : Registry β}
    {typeName parameterization : String} {settings : PropertyMap} {n : Node β}
    (h : (r.create typeName parameterization settings).result = .ok n) : n.PortsAgree := by
  simp only [create] at h
  split at h
  · cases h
  · exact portsAgree_wrap h

namespace Graph

variable {β : Type} [Block β] {g g' : Graph β}

theorem Built.portsAgree (h : g.Built) : ∀ n ∈ g.nodes, n.PortsAgree := by
  have hinsert : ∀ {g : Graph β} {n : Node β}, (∀ m ∈ g.nodes, m.PortsAgree) → n.PortsAgree →
      ∀ m ∈ (g.insert n).nodes, m.PortsAgree := fun hg hn m hm => by
    rcases List.mem_append.mp hm with hm | hm
    · exact hg m hm
    · cases List.mem_singleton.mp hm
      exact hn
  induction h with
  | empty config => simp [Graph.empty]
  | emplace r typeName parameterization settings _ ih =>
    simp only [Graph.emplace, Graph.grow]
    split
    · exact ih
    next hn => exact hinsert ih (Registry.portsAgree_create hn)
  | add r typeName parameterization block _ ih =>
    simp only [Graph.add, Graph.grow]
    split
    · exact ih
    next hn => exact hinsert ih (Registry.portsAgree_wrap hn)
  | connect _ hc ih =>
    simp only [Graph.connect] at hc
    split at hc
    · cases hc
    · cases hc
      exact ih

end Graph

/-! ### Connections -/

/-- A connection leads from an output of a node to an input of one, both of its type. -/
structure Graph.Links {β : Type} (g : Graph β) (c : Connection) : Prop where
  source : ∃ n p, g.node? c.source.block = some n ∧ n.outputs[c.source.port]? = some p ∧
    p.type = c.type
  target : ∃ n p, g.node? c.target.block = some n ∧ n.inputs[c.target.port]? = some p ∧
    p.type = c.type

/-- Every connection links ports, and no input is connected twice. -/
structure Graph.Wired {β : Type} (g : Graph β) : Prop where
  links : ∀ c ∈ g.connections, g.Links c
  targets : g.connections.Pairwise fun c d => c.target ≠ d.target

namespace Graph

section Insert

variable {β : Type} {g : Graph β}

theorem node?_insert {n m : Node β} {i : Nat} (h : g.node? i = some m) :
    (g.insert n).node? i = some m := by
  rw [node?, insert, List.getElem?_append_left]
  · exact h
  · exact (List.getElem?_eq_some_iff.mp h).1

theorem Links.insert {c : Connection} (h : g.Links c) (n : Node β) : (g.insert n).Links c := by
  obtain ⟨⟨m, p, hm, hsource⟩, ⟨k, q, hk, htarget⟩⟩ := h
  exact ⟨⟨m, p, node?_insert hm, hsource⟩, ⟨k, q, node?_insert hk, htarget⟩⟩

theorem Wired.insert (h : g.Wired) (n : Node β) : (g.insert n).Wired :=
  ⟨fun c hc => (h.links c hc).insert n, h.targets⟩

theorem Wired.grow (h : g.Wired) (made : Registry.Creation β) : (g.grow made).graph.Wired := by
  simp only [Graph.grow]
  split
  · exact h
  · exact h.insert _

end Insert

variable {β : Type} [Block β] {g g' : Graph β}

omit [Block β] in
theorem MayConnect.links {source target i j : Nat} {sourcePort targetPort : PortRef}
    {type : SampleType} (h : g.MayConnect source sourcePort target targetPort i j type)
    (bufferSize : Option Nat) : g.Links ⟨⟨source, i⟩, ⟨target, j⟩, bufferSize, type, none⟩ := by
  obtain ⟨n, p, hn, -, hp, htype⟩ := h.output
  obtain ⟨m, q, hm, -, hq, htype'⟩ := h.input
  exact ⟨⟨n, p, hn, hp, htype⟩, ⟨m, q, hm, hq, htype'⟩⟩

theorem Wired.connect (h : g.Wired) {source target : Nat} {sourcePort targetPort : PortRef}
    {bufferSize : Option Nat}
    (hc : g.connect source sourcePort target targetPort bufferSize = .ok g') : g'.Wired := by
  obtain ⟨i, j, type, hmay, rfl⟩ := connect_eq_ok_iff.mp hc
  let c : Connection := ⟨⟨source, i⟩, ⟨target, j⟩, bufferSize, type, none⟩
  have hkept : ∀ d, g.Links d → Links { g with connections := g.connections ++ [c] } d :=
    fun d hd => ⟨hd.source, hd.target⟩
  refine ⟨fun d hd => ?_, ?_⟩
  · rcases List.mem_append.mp hd with hd | hd
    · exact hkept d (h.links d hd)
    · cases List.mem_singleton.mp hd
      exact hkept c (hmay.links bufferSize)
  · refine List.pairwise_append.mpr ⟨h.targets, List.pairwise_singleton .., fun d hd e he => ?_⟩
    cases List.mem_singleton.mp he
    exact hmay.free d hd

theorem Built.wired (h : g.Built) : g.Wired := by
  induction h with
  | empty config => exact ⟨by simp [Graph.empty], .nil⟩
  | emplace r typeName parameterization settings _ ih => exact ih.grow _
  | add r typeName parameterization block _ ih => exact ih.grow _
  | connect _ hc ih => exact ih.connect hc

end Graph

/-! ### Built-in blocks -/

namespace Builtin

/-- Whether a block reads. -/
def hasInput : Builtin → Bool
  | nullSource _ | vectorSource _ => false
  | _ => true

/-- Whether a block writes. -/
def hasOutput : Builtin → Bool
  | nullSink _ | vectorSink _ => false
  | _ => true

theorem inputs_eq (b : Builtin) :
    Block.inputs b = if b.hasInput then [.input "in" b.sampleType 0] else [] := by
  cases b <;> rfl

theorem outputs_eq (b : Builtin) :
    Block.outputs b = if b.hasOutput then [.output "out" b.sampleType 0] else [] := by
  cases b <;> rfl

theorem of_getElem?_inputs {b : Builtin} {i : Nat} {p : PortSchema}
    (h : (Block.inputs b)[i]? = some p) :
    b.hasInput = true ∧ i = 0 ∧ p.type = b.sampleType := by
  rw [inputs_eq] at h
  split at h
  next hb =>
    rw [List.getElem?_singleton] at h
    split at h
    next hi =>
      cases h
      exact ⟨hb, hi, rfl⟩
    next => cases h
  next => cases h

theorem of_getElem?_outputs {b : Builtin} {i : Nat} {p : PortSchema}
    (h : (Block.outputs b)[i]? = some p) :
    b.hasOutput = true ∧ i = 0 ∧ p.type = b.sampleType := by
  rw [outputs_eq] at h
  split at h
  next hb =>
    rw [List.getElem?_singleton] at h
    split at h
    next hi =>
      cases h
      exact ⟨hb, hi, rfl⟩
    next => cases h
  next => cases h

end Builtin

/-- A connection leads from an output to an input of one type. -/
structure Graph.Joins (g : Graph Builtin) (c : Connection) : Prop where
  source : ∃ n, g.node? c.source.block = some n ∧ n.block.hasOutput = true ∧
    n.block.sampleType = c.type
  target : ∃ n, g.node? c.target.block = some n ∧ n.block.hasInput = true ∧
    n.block.sampleType = c.type
  sourcePort : c.source.port = 0
  targetPort : c.target.port = 0

/-- All that is checked when a graph of built-in blocks is built. -/
structure Graph.Sound (g : Graph Builtin) : Prop where
  ports : ∀ n ∈ g.nodes, n.PortsAgree
  joins : ∀ c ∈ g.connections, g.Joins c
  targets : g.connections.Pairwise fun c d => c.target ≠ d.target

namespace Graph

variable {g : Graph Builtin}

/-- The port of an endpoint is the only one on its side of a built-in block. -/
theorem Links.joins {c : Connection} (h : g.Links c) (hports : ∀ n ∈ g.nodes, n.PortsAgree) :
    g.Joins c := by
  obtain ⟨⟨n, p, hn, hp, htype⟩, ⟨m, q, hm, hq, htype'⟩⟩ := h
  rw [(hports n (List.mem_of_getElem? hn)).2] at hp
  rw [(hports m (List.mem_of_getElem? hm)).1] at hq
  obtain ⟨hout, hport, hsample⟩ := Builtin.of_getElem?_outputs hp
  obtain ⟨hin, hport', hsample'⟩ := Builtin.of_getElem?_inputs hq
  exact ⟨⟨n, hn, hout, hsample.symm.trans htype⟩, ⟨m, hm, hin, hsample'.symm.trans htype'⟩,
    hport, hport'⟩

theorem Built.sound (h : g.Built) : g.Sound :=
  ⟨h.portsAgree, fun c hc => (h.wired.links c hc).joins h.portsAgree, h.wired.targets⟩

end Graph
end Dataflow
