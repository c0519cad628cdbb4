import Dataflow.Proofs.Execution.Nodes
import Dataflow.Proofs.Node.Intact

/-!
# Intact graphs

A graph of built-in blocks is intact (`Graph.IsIntact`) if all its nodes are. It is so when it has
been built from nodes that a registry has made, and stays so whatever is done to its blocks by a
scheduler or by messages (`Graph.lasting_isIntact`).
-/

namespace Dataflow

/-- A graph of nodes that registries have made. -/
def Graph.IsIntact (g : Graph Builtin) : Prop := ∀ n ∈ g.nodes, n.IsIntact

namespace Graph

variable {g g' : Graph Builtin}

/-! ### Building -/

theorem isIntact_empty (config : GraphConfig) : (Graph.empty config : Graph Builtin).IsIntact :=
  fun _ hn => by cases hn

theorem IsIntact.grow (h : g.IsIntact) {made : Registry.Creation Builtin}
    (hmade : ∀ n, made.result = .ok n → n.IsIntact) : (g.grow made).graph.IsIntact := by
  simp only [Graph.grow]
  split
  · exact h
  next n hn =>
    intro m hm
    rcases List.mem_append.mp hm with hm | hm
    · exact h m hm
    · cases List.mem_singleton.mp hm
      exact hmade n hn

theorem IsIntact.add (h : g.IsIntact) (r : Registry Builtin) (typeName parameterization : String)
    (block : Builtin) (hblock : block.IsTyped) :
    (g.add r typeName parameterization block).graph.IsIntact :=
  h.grow fun _ hn => ⟨.wrap hblock hn, Registry.portsAgree_wrap hn⟩

theorem IsIntact.connect (h : g.IsIntact) {source target : Nat} {sourcePort targetPort : PortRef}
    {bufferSize : Option Nat}
    (hc : g.connect source sourcePort target targetPort bufferSize = .ok g') : g'.IsIntact := by
  simp only [Graph.connect] at hc
  split at hc
  · cases hc
  · cases hc
    exact h

end Graph

theorem Node.lasting_isIntact : Node.Lasting Node.IsIntact where
  congr h hblock hextra hports := h.act (congrArg Builtin.form hblock) hextra hports
  start h := (Builtin.ends_start _).mono fun _ hform => h.act hform rfl rfl
  stop h := h.act rfl rfl rfl
  pause h := h.act rfl rfl rfl
  resume h := h.act rfl rfl rfl
  work h := (Builtin.leaves_work _).mono fun _ hform => h.act hform rfl rfl
  apply settings h := h.apply settings true

theorem Graph.isIntact_eq_each : Graph.IsIntact = Graph.Each fun _ => Node.IsIntact := by
  funext g
  refine propext ⟨fun h i n hn => h n (List.mem_of_getElem? hn), fun h n hn => ?_⟩
  obtain ⟨i, hi⟩ := List.getElem?_of_mem hn
  exact h i n hi

theorem Graph.lasting_isIntact : Graph.Lasting Graph.IsIntact := by
  rw [isIntact_eq_each]
  exact Graph.lasting_each fun _ => Node.lasting_isIntact

end Dataflow
