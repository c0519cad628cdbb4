import Dataflow.Proofs.Flow.Wiring

/-!
# Flow

What holds of a running graph between any two calls. Let `S i` be the signal that block `i` emits,
and `p i` the number of samples it has published. Then every stream carries the signal of its
writer, is closed if its writer has finished and detached if its reader has (`Execution.Carried`);
and every block has done what its inputs and outputs show (`Builtin.HasDone`), unless it has failed
after reading (`Execution.Flows`).
-/

namespace Dataflow

/-- A sound acyclic graph and the signals that its blocks emit. -/
structure Graph.Signals (g : Graph Builtin) (S : Nat → Signal) : Prop where
  sound : g.Sound
  acyclic : g.Acyclic
  solves : g.Solves S

/-- What a block has done that has read and published so many samples. -/
def Builtin.HasDone (b : Builtin) (input : Signal) (consumed published : Nat) : Prop :=
  match b with
  | nullSource _ | nullSink _ => True
  | vectorSource b => b.At published
  | vectorSink b =>
    b.data.toList = input.samples 0 consumed ∧ b.tags.toList = input.tags 0 consumed
  | head b => b.published = published ∧ published = consumed ∧ published ≤ b.numItems.toNat
  | copy _ | tagGate _ => published = consumed

/-- Number of samples that a block has read. -/
def Graph.consumed (g : Graph Builtin) (i : Nat) : Nat := ((g.feed? i).map Stream.read).getD 0

namespace Execution

variable {g : Graph Builtin} {S : Nat → Signal} {p : Nat → Nat} {x : Execution Builtin} {i : Nat}
  {n : Node Builtin} {s : Stream Sample}

/-- What a stream shows of the blocks at its ends. -/
structure Spans (g : Graph Builtin) (x : Execution Builtin) (c : Connection) (s : Stream Sample) :
    Prop where
  closed : s.closed = x.isFinished c.source.block
  detached : s.detached = x.isFinished c.target.block
  capacity : s.capacity = max (g.bufferSize c) 1

/-- Streams carry the signals of their writers. -/
structure Carried (g : Graph Builtin) (S : Nat → Signal) (p : Nat → Nat) (x : Execution Builtin) :
    Prop where
  alike : g.Alike x.graph
  streams : ∀ c ∈ x.graph.connections, ∃ s, c.stream = some s ∧
    s.Carries (S c.source.block) (p c.source.block) ∧ Spans g x c s
  covers : ∀ i, (S i).Covers (p i)

/-- Streams carry the signals of their writers, and blocks have done what the streams show. -/
structure Flows (g : Graph Builtin) (S : Nat → Signal) (p : Nat → Nat) (x : Execution Builtin) :
    Prop extends Carried g S p x where
  blocks : ∀ i n, x.graph.node? i = some n → (n.state = .error → n.block.hasOutput = false) →
    n.block.HasDone (g.inputSignal S i) (x.graph.consumed i) (p i)

namespace Carried

variable (h : Carried g S p x) (hg : g.Signals S)
include h hg

theorem sound : x.graph.Sound := h.alike.sound hg.sound

theorem acyclic : x.graph.Acyclic := h.alike.acyclic hg.acyclic

theorem portsAgree (hn : x.graph.node? i = some n) : n.PortsAgree :=
  (h.sound hg).ports n (List.mem_of_getElem? hn)

theorem signal_eq (hn : x.graph.node? i = some n) :
    S i = n.block.signal (g.inputSignal S i) := by
  obtain ⟨m, hm, hform⟩ := h.alike.node? hn
  rw [hg.solves i m hm, ← Builtin.signal_form, ← hform, Builtin.signal_form]

/-- The stream at the input of a block carries the signal of the block before it. -/
theorem feed (hfeed : x.graph.feed? i = some s) : ∃ c ∈ x.graph.connections,
    c.target.block = i ∧ g.upstream? i = some c.source.block ∧
      g.inputSignal S i = S c.source.block ∧ s.Carries (S c.source.block) (p c.source.block) ∧
      Spans g x c s := by
  obtain ⟨c, hc, ht, hstream⟩ := Graph.exists_of_inputStream? hfeed
  obtain ⟨s', hs', hcarries, hspans⟩ := h.streams c hc
  cases hstream.symm.trans hs'
  have hi : c.target.block = i := by rw [ht]
  have hup : g.upstream? i = some c.source.block := by
    rw [← h.alike.upstream?, ← hi]
    exact (h.sound hg).upstream?_eq hc
  refine ⟨c, hc, hi, hup, ?_, hcarries, hspans⟩
  rw [Graph.inputSignal, hup]
  rfl

/-- A stream at the output of a block carries the signal of the block. -/
theorem outlet (hs : s ∈ x.graph.outlets i) : ∃ c ∈ x.graph.connections, c.source.block = i ∧
    c.stream = some s ∧ s.Carries (S i) (p i) ∧ Spans g x c s := by
  obtain ⟨c, hc, rfl, hstream⟩ := (h.sound hg).mem_outlets.mp hs
  obtain ⟨s', hs', hcarries, hspans⟩ := h.streams c hc
  cases hstream.symm.trans hs'
  exact ⟨c, hc, rfl, hstream, hcarries, hspans⟩

/-- A block that reads nothing ends no connection. -/
theorem target_ne (hn : x.graph.node? i = some n) (hin : n.block.hasInput = false)
    {c : Connection} (hc : c ∈ x.graph.connections) : c.target.block ≠ i := by
  rintro rfl
  obtain ⟨m, hm, hin', -⟩ := ((h.sound hg).joins c hc).target
  cases hn.symm.trans hm
  rw [hin] at hin'
  cases hin'

/-- A block that writes nothing begins no connection. -/
theorem source_ne (hn : x.graph.node? i = some n) (hout : n.block.hasOutput = false)
    {c : Connection} (hc : c ∈ x.graph.connections) : c.source.block ≠ i := by
  rintro rfl
  obtain ⟨m, hm, hout', -⟩ := ((h.sound hg).joins c hc).source
  cases hn.symm.trans hm
  rw [hout] at hout'
  cases hout'

end Carried
end Execution
end Dataflow
