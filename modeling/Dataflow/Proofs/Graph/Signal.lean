import Dataflow.Proofs.Block.Signal
import Dataflow.Proofs.Graph.Built
import Mathlib.Data.Fintype.EquivFin
import Mathlib.Data.List.Nodup
import Mathlib.Logic.Relation

/-!
# Signals in a graph

Each block of an acyclic graph emits one signal (`Graph.Emits`), which is what it makes of the
signal that the block at its input emits. Since the graph is finite and has no cycle, one can go by
induction both with the connections and against them (`Graph.Acyclic.wellFounded`,
`Graph.Acyclic.wellFounded_swap`).
-/

namespace Dataflow
namespace Graph

variable {β : Type}

/-- A connection leads from one block to another. -/
def Feeds (g : Graph β) (i j : Nat) : Prop :=
  ∃ c ∈ g.connections, c.source.block = i ∧ c.target.block = j

/-- No way along connections leads back to where it began. -/
def Acyclic (g : Graph β) : Prop := ∀ i, ¬ Relation.TransGen g.Feeds i i

/-- The block at the input of a block. -/
def upstream? (g : Graph β) (i : Nat) : Option Nat :=
  (g.connections.find? fun c => decide (c.target.block = i)).map fun c => c.source.block

/-- The signal that the block at a position emits. -/
inductive Emits (g : Graph Builtin) : Nat → Signal → Prop where
  | unfed {i : Nat} {n : Node Builtin} : g.node? i = some n → g.upstream? i = none →
      Emits g i (n.block.signal .empty)
  | fed {i j : Nat} {n : Node Builtin} {S : Signal} : g.node? i = some n →
      g.upstream? i = some j → Emits g j S → Emits g i (n.block.signal S)

/-- The signal at the input of a block, if `S` gives the signal of each block. -/
def inputSignal (g : Graph β) (S : Nat → Signal) (i : Nat) : Signal :=
  ((g.upstream? i).map S).getD .empty

/-- The signal of each block is what it makes of the signal at its input. -/
def Solves (g : Graph Builtin) (S : Nat → Signal) : Prop :=
  ∀ i n, g.node? i = some n → S i = n.block.signal (g.inputSignal S i)

/-! ### Acyclic graphs -/

/-- On finitely many positions a relation without cycles is well-founded. -/
theorem wellFounded_of_bounded {r : Nat → Nat → Prop} {n : Nat}
    (hbound : ∀ i j, r i j → i < n ∧ j < n) (hcycle : ∀ i, ¬ Relation.TransGen r i i) :
    WellFounded r := by
  let t : Fin n → Fin n → Prop := fun a b => Relation.TransGen r a b
  have : IsTrans (Fin n) t := ⟨fun _ _ _ h h' => h.trans h'⟩
  have : Std.Irrefl t := ⟨fun a => hcycle a⟩
  have hwf : WellFounded t := Finite.wellFounded_of_trans_of_irrefl t
  have hinside : ∀ a : Fin n, Acc r a := fun a => by
    induction a using hwf.induction with
    | _ a ih =>
      refine ⟨_, fun j hj => ?_⟩
      exact ih ⟨j, (hbound j a hj).1⟩ (.single hj)
  refine ⟨fun i => ⟨_, fun j hj => ?_⟩⟩
  exact hinside ⟨j, (hbound j i hj).1⟩

variable {g : Graph Builtin} {S : Nat → Signal} {i j : Nat}

/-- Connections that only lead on lead to no cycle. -/
theorem acyclic_of_lt (h : ∀ i j, g.Feeds i j → i < j) : g.Acyclic := by
  have hlt : ∀ i j, Relation.TransGen g.Feeds i j → i < j := by
    intro i j hij
    induction hij with
    | single h' => exact h _ _ h'
    | tail _ h' ih => exact ih.trans (h _ _ h')
  exact fun i hi => Nat.lt_irrefl i (hlt i i hi)

theorem Sound.feeds_lt (h : g.Sound) (hf : g.Feeds i j) :
    i < g.nodes.length ∧ j < g.nodes.length := by
  obtain ⟨c, hc, rfl, rfl⟩ := hf
  obtain ⟨n, hn, -⟩ := (h.joins c hc).source
  obtain ⟨m, hm, -⟩ := (h.joins c hc).target
  exact ⟨(List.getElem?_eq_some_iff.mp hn).1, (List.getElem?_eq_some_iff.mp hm).1⟩

theorem Acyclic.wellFounded (h : g.Acyclic) (hs : g.Sound) : WellFounded g.Feeds :=
  wellFounded_of_bounded (fun _ _ => hs.feeds_lt) h

theorem Acyclic.wellFounded_swap (h : g.Acyclic) (hs : g.Sound) :
    WellFounded fun i j => g.Feeds j i :=
  wellFounded_of_bounded (fun _ _ hf => (hs.feeds_lt hf).symm) fun i hi =>
    h i (Relation.transGen_swap.mp hi)

theorem Acyclic.source_ne_target (h : g.Acyclic) {c : Connection} (hc : c ∈ g.connections) :
    c.source.block ≠ c.target.block := fun heq =>
  h c.target.block (.single ⟨c, hc, heq, rfl⟩)

/-- Connections are told apart by the blocks at which they end. -/
theorem Sound.eq_of_target (h : g.Sound) {c d : Connection} (hc : c ∈ g.connections)
    (hd : d ∈ g.connections) (heq : c.target.block = d.target.block) : c = d := by
  have hnodup : (g.connections.map Connection.target).Nodup := List.pairwise_map.mpr h.targets
  refine List.inj_on_of_nodup_map hnodup hc hd ?_
  rcases hct : c.target with ⟨block, port⟩
  rcases hdt : d.target with ⟨block', port'⟩
  have hp := (h.joins c hc).targetPort
  have hp' := (h.joins d hd).targetPort
  simp only [hct, hdt] at hp hp' heq
  rw [hp, hp', heq]

/-- The block at an input is the one that feeds it. -/
theorem Sound.upstream?_eq (h : g.Sound) {c : Connection} (hc : c ∈ g.connections) :
    g.upstream? c.target.block = some c.source.block := by
  rw [upstream?]
  cases hfind : g.connections.find? fun d => decide (d.target.block = c.target.block) with
  | none => simpa using List.find?_eq_none.mp hfind c hc
  | some d =>
    have heq : d.target.block = c.target.block := by simpa using List.find?_some hfind
    rw [h.eq_of_target (List.mem_of_find?_eq_some hfind) hc heq, Option.map_some]

theorem feeds_of_upstream? (h : g.upstream? i = some j) : g.Feeds j i := by
  obtain ⟨c, hc, rfl⟩ := Option.map_eq_some_iff.mp h
  exact ⟨c, List.mem_of_find?_eq_some hc, rfl, by simpa using List.find?_some hc⟩

/-! ### Emitted signals -/

theorem Emits.unique {T U : Signal} (h : g.Emits i T) (h' : g.Emits i U) : T = U := by
  induction h generalizing U with
  | unfed hn hup =>
    cases h' with
    | unfed hn' _ => rw [Option.some.inj (hn.symm.trans hn')]
    | fed _ hup' _ => cases hup.symm.trans hup'
  | fed hn hup _ ih =>
    cases h' with
    | unfed _ hup' => cases hup.symm.trans hup'
    | fed hn' hup' h' =>
      cases Option.some.inj (hn.symm.trans hn')
      cases Option.some.inj (hup.symm.trans hup')
      rw [ih h']

theorem Acyclic.exists_emits (h : g.Acyclic) (hs : g.Sound) (hi : i < g.nodes.length) :
    ∃ T, g.Emits i T := by
  induction i using (h.wellFounded hs).induction with
  | _ i ih =>
    have hn : g.node? i = some g.nodes[i] := List.getElem?_eq_getElem hi
    cases hup : g.upstream? i with
    | none => exact ⟨_, .unfed hn hup⟩
    | some j =>
      have hf := feeds_of_upstream? hup
      obtain ⟨T, hT⟩ := ih j hf (hs.feeds_lt hf).1
      exact ⟨_, .fed hn hup hT⟩

/-- In an acyclic graph there are signals for all blocks. -/
theorem Acyclic.exists_solves (h : g.Acyclic) (hs : g.Sound) :
    ∃ S, g.Solves S ∧ ∀ i < g.nodes.length, g.Emits i (S i) := by
  have hall : ∀ i, ∃ T, i < g.nodes.length → g.Emits i T := fun i => by
    by_cases hi : i < g.nodes.length
    · obtain ⟨T, hT⟩ := h.exists_emits hs hi
      exact ⟨T, fun _ => hT⟩
    · exact ⟨.empty, fun h => absurd h hi⟩
  choose S hS using hall
  refine ⟨S, fun i n hn => ?_, hS⟩
  rw [inputSignal]
  have hi := hS i (List.getElem?_eq_some_iff.mp hn).1
  cases hup : g.upstream? i with
  | none => exact hi.unique (.unfed hn hup)
  | some j =>
    have hj := hS j (hs.feeds_lt (feeds_of_upstream? hup)).1
    exact hi.unique (.fed hn hup hj)

end Graph
end Dataflow
