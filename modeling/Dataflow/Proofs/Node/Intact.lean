import Dataflow.Proofs.Block.Hooks
import Dataflow.Proofs.Flow.Start
import Dataflow.Proofs.Node.Atomic

/-!
# Intact nodes

Nodes of built-in blocks that a registry has made stay intact (`Node.IsIntact`) whatever is done to
them: their settings are accepted, and their ports are those of their blocks. Two intact nodes that
resemble each other (`Node.Resembles`) may differ in what their blocks have done, but once both have
been started they are the same (`Node.Resembles.started_eq`).
-/

namespace Dataflow

namespace Builtin

theorem inputs_bare (b : Builtin) : Block.inputs b.bare = Block.inputs b := by cases b <;> rfl

theorem outputs_bare (b : Builtin) : Block.outputs b.bare = Block.outputs b := by cases b <;> rfl

end Builtin

namespace Node

/-- A node that a registry has made, and that still has the ports of its block. -/
structure IsIntact (n : Node Builtin) : Prop where
  made : n.IsMade
  portsAgree : n.PortsAgree

variable {n m : Node Builtin}

/-- What the block of a node does, or a change of its name, leaves it intact. -/
theorem IsIntact.act (h : n.IsIntact) (hform : m.block.form = n.block.form)
    (hextra : m.extra = n.extra) (hports : m.ports = n.ports) : m.IsIntact := by
  obtain ⟨hin, hout⟩ := Prod.mk.inj hports
  refine ⟨h.made.act hform hextra, ?_, ?_⟩
  · rw [hin, h.portsAgree.1, ← Builtin.inputs_form, ← hform, Builtin.inputs_form]
  · rw [hout, h.portsAgree.2, ← Builtin.outputs_form, ← hform, Builtin.outputs_form]

theorem Accepted.bare_apply (h : n.Accepted) (settings : PropertyMap) (isRunning : Bool) :
    (n.apply settings isRunning).node.block.bare = n.block.bare := by
  cases hkeys : settings.keys.findSome? (n.keyError? isRunning) with
  | some e => rw [apply_of_keyError hkeys]
  | none =>
    rcases Builtin.tryApply_cases (declares_of_keyErrors hkeys) with ⟨e, block, htry, -, hbare⟩ |
      ⟨block, htry, hbare, -, -⟩
    · have hback : restore block (Block.settings n.block) = ⟨n.block, [], none⟩ :=
        Builtin.restore_eq h.block hbare
      simp only [Node.apply, hkeys, htry, hback]
    · simp only [Node.apply, hkeys, htry]
      exact hbare

theorem IsIntact.apply (h : n.IsIntact) (settings : PropertyMap) (isRunning : Bool) :
    (n.apply settings isRunning).node.IsIntact := by
  have hbare := h.made.accepted.bare_apply settings isRunning
  obtain ⟨hin, hout⟩ := Prod.mk.inj (n.ports_apply settings isRunning)
  refine ⟨h.made.apply settings isRunning, ?_, ?_⟩
  · rw [hin, h.portsAgree.1, ← Builtin.inputs_bare, ← hbare, Builtin.inputs_bare]
  · rw [hout, h.portsAgree.2, ← Builtin.outputs_bare, ← hbare, Builtin.outputs_bare]

/-- The same block under the same names, with the same settings. -/
structure Resembles (n m : Node Builtin) : Prop where
  name : n.name = m.name
  blockType : n.blockType = m.blockType
  parameterization : n.parameterization = m.parameterization
  sequence : n.sequence = m.sequence
  kind : n.block.kind = m.block.kind
  sampleType : n.block.sampleType = m.block.sampleType
  settings : n.settings = m.settings

theorem Resembles.form (h : n.Resembles m) (hn : n.IsIntact) (hm : m.IsIntact) :
    n.block.form = m.block.form := by
  have hn := hn.made.accepted
  have hm := hm.made.accepted
  refine Builtin.form_eq_of_settings hm.block.isTyped hn.block.isTyped h.kind h.sampleType ?_
  rw [← settings_eq hn.extra, h.settings, settings_eq hm.extra]

theorem Resembles.ports (h : n.Resembles m) (hn : n.IsIntact) (hm : m.IsIntact) :
    n.ports = m.ports := by
  have hform := h.form hn hm
  refine Prod.ext ?_ ?_
  · show n.inputs = m.inputs
    rw [hn.portsAgree.1, hm.portsAgree.1, ← Builtin.inputs_form, hform, Builtin.inputs_form]
  · show n.outputs = m.outputs
    rw [hn.portsAgree.2, hm.portsAgree.2, ← Builtin.outputs_form, hform, Builtin.outputs_form]

/-- Starting a node leaves nothing of what was done before. -/
theorem Resembles.started_eq (h : n.Resembles m) (hn : n.IsIntact) (hm : m.IsIntact) :
    n.started = m.started := by
  obtain ⟨hin, hout⟩ := Prod.mk.inj (h.ports hn hm)
  have hextra : n.extra = m.extra := hn.made.accepted.extra.trans hm.made.accepted.extra.symm
  have hblock : n.block.started = m.block.started := Builtin.started_eq_of_form (h.form hn hm)
  simp only [Node.started, mk.injEq, and_true]
  exact ⟨h.name, h.blockType, h.parameterization, h.sequence, hblock, hin, hout, hextra⟩

end Node
end Dataflow
