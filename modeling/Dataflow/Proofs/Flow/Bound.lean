import Dataflow.Proofs.Flow.Steady
import Mathlib.Algebra.BigOperators.Group.Finset.Basic
import Mathlib.Algebra.Order.BigOperators.Group.Finset

/-!
# Bounds

A signal ends, or it comes from an endless source along connections that pass no head
(`Graph.Signals.endsAt_or_endless`). If every way from an endless source to a sink passes a head
(`Graph.Tamed`), there is therefore a bound on what a block publishes in any steady execution
(`Execution.exists_bound_published`): it is either the length of its signal, or what its readers
have read and its streams can hold. The readers of an endless signal are heads, which read a bounded
number of samples, and blocks that have published all that they have read, for which one goes by
induction against the connections.
-/

namespace Dataflow

namespace Builtin

/-- A source whose signal does not end. -/
def isEndless : Builtin → Bool
  | nullSource _ => true
  | vectorSource b => b.repeating
  | _ => false

def isHead : Builtin → Bool
  | head _ => true
  | _ => false

end Builtin

namespace Graph

variable {g : Graph Builtin} {S : Nat → Signal} {i : Nat} {n : Node Builtin}

/-- A connection leads from one block to another that is no head. -/
def Bypasses (g : Graph Builtin) (i j : Nat) : Prop :=
  g.Feeds i j ∧ ∀ n, g.node? j = some n → n.block.isHead = false

/-- Every way from an endless source to a sink passes a head. -/
def Tamed (g : Graph Builtin) : Prop :=
  ∀ i j n m, g.node? i = some n → n.block.isEndless = true → g.node? j = some m →
    m.block.hasOutput = false → ¬ Relation.ReflTransGen g.Bypasses i j

/-- A way from an endless source to a block passes no head. -/
def IsReached (g : Graph Builtin) (i : Nat) : Prop :=
  ∃ j n, g.node? j = some n ∧ n.block.isEndless = true ∧ Relation.ReflTransGen g.Bypasses j i

/-- A signal that does not end comes from an endless source. -/
theorem Signals.endsAt_or_endless (h : g.Signals S) (hn : g.node? i = some n) :
    (∃ k, (S i).EndsAt k) ∨ (∀ k, (S i k).isSome = true) ∧ g.IsReached i := by
  induction i using (h.acyclic.wellFounded h.sound).induction generalizing n with
  | _ i ih =>
    have hinput : (∃ k, (g.inputSignal S i).EndsAt k) ∨
        (∀ k, (g.inputSignal S i k).isSome = true) ∧
          ∃ j, g.Feeds j i ∧ g.IsReached j := by
      rw [inputSignal]
      cases hup : g.upstream? i with
      | none => exact .inl ⟨0, Signal.endsAt_empty⟩
      | some j =>
        have hf := feeds_of_upstream? hup
        refine (ih j hf (List.getElem?_eq_getElem (h.sound.feeds_lt hf).1)).imp id ?_
        rintro ⟨htotal, hreached⟩
        exact ⟨htotal, j, hf, hreached⟩
    have hpass : n.block.isHead = false → (∃ j, g.Feeds j i ∧ g.IsReached j) → g.IsReached i := by
      rintro hhead ⟨j, hf, k, m, hm, hendless, hway⟩
      refine ⟨k, m, hm, hendless, hway.tail ⟨hf, fun l hl => ?_⟩⟩
      cases hn.symm.trans hl
      exact hhead
    rw [h.solves i n hn]
    cases hb : n.block with
    | nullSource b =>
      exact .inr ⟨fun _ => rfl, i, n, hn, by rw [hb]; rfl, .refl⟩
    | nullSink b => exact .inl ⟨0, Signal.endsAt_empty⟩
    | vectorSink b => exact .inl ⟨0, Signal.endsAt_empty⟩
    | vectorSource b =>
      by_cases hend : b.repeating = false ∨ b.data = []
      · exact .inl ⟨_, VectorSource.endsAt_signal hend⟩
      · rw [not_or, Bool.not_eq_false] at hend
        refine .inr ⟨VectorSource.isSome_signal hend.1 hend.2, i, n, hn, ?_, .refl⟩
        rw [hb]
        exact hend.1
    | head b =>
      rcases hinput with ⟨k, hend⟩ | ⟨htotal, -⟩
      · exact .inl ⟨_, Signal.EndsAt.upTo hend⟩
      · exact .inl ⟨_, Signal.endsAt_upTo htotal⟩
    | copy b =>
      refine hinput.imp id ?_
      rintro ⟨htotal, hreached⟩
      refine ⟨htotal, hpass ?_ hreached⟩
      rw [hb]
      rfl
    | tagGate b =>
      rcases hinput with ⟨k, hend⟩ | ⟨htotal, hreached⟩
      · exact .inl ⟨k, Signal.EndsAt.untagged hend⟩
      · refine .inr ⟨fun k => ?_, hpass ?_ hreached⟩
        · simpa [Builtin.signal, Signal.untagged] using htotal k
        · rw [hb]
          rfl

end Graph

/-- What is bounded for each element of a list is bounded for all of them at once. -/
theorem exists_bound_list {α : Type} {l : List α} {P : α → Nat → Prop}
    (hmono : ∀ a b c, b ≤ c → P a b → P a c) (h : ∀ a ∈ l, ∃ b, P a b) :
    ∃ b, ∀ a ∈ l, P a b := by
  induction l with
  | nil => exact ⟨0, fun a ha => absurd ha List.not_mem_nil⟩
  | cons a rest ih =>
    obtain ⟨b, hb⟩ := h a (List.mem_cons_self ..)
    obtain ⟨c, hc⟩ := ih fun d hd => h d (List.mem_cons_of_mem _ hd)
    refine ⟨max b c, fun d hd => ?_⟩
    rcases List.mem_cons.mp hd with rfl | hd
    · exact hmono _ _ _ (Nat.le_max_left ..) hb
    · exact hmono _ _ _ (Nat.le_max_right ..) (hc d hd)

namespace Execution

variable {g : Graph Builtin} {S : Nat → Signal} {p : Nat → Nat} {x : Execution Builtin} {i : Nat}
  {n : Node Builtin}

/-- A block between two others has published all that it has read. -/
theorem Steady.consumed_eq (h : Steady g S p x) (hg : g.Signals S) (hn : g.node? i = some n)
    (hin : n.block.hasInput = true) (hout : n.block.hasOutput = true) :
    x.graph.consumed i = p i := by
  obtain ⟨m, hm, hform⟩ := (h.alike.symm hg.sound).node? hn
  have hdone := h.blocks i m hm fun he => by
    rcases h.unpaused i m.state (stateAt_of_node? hm) with hst | hst <;> cases he.symm.trans hst
  have hin' : m.block.hasInput = true := by
    rw [← Builtin.hasInput_form, ← hform, Builtin.hasInput_form, hin]
  have hout' : m.block.hasOutput = true := by
    rw [← Builtin.hasOutput_form, ← hform, Builtin.hasOutput_form, hout]
  cases hb : m.block with
  | nullSource | vectorSource =>
    rw [hb] at hin'
    cases hin'
  | nullSink | vectorSink =>
    rw [hb] at hout'
    cases hout'
  | head =>
    rw [hb] at hdone
    exact hdone.2.1.symm
  | copy | tagGate =>
    rw [hb] at hdone
    exact Eq.symm hdone

/-- What a block has published has been read by one of its readers, or the stream holds it. -/
theorem Steady.published_le (h : Steady g S p x) (hg : g.Signals S) (i : Nat) :
    p i = 0 ∨ ∃ c ∈ g.connections, c.source.block = i ∧
      p i ≤ x.graph.consumed c.target.block + max (g.bufferSize c) 1 := by
  refine (h.anchored i).imp id fun ⟨s, hs, hle⟩ => ?_
  obtain ⟨c, hc, hsrc, hstream, -, hspans⟩ := h.outlet hg hs
  obtain ⟨d, hd, hwire⟩ := h.alike.connection hc
  have hsource : c.source = d.source := congrArg (·.source) hwire
  have htarget : c.target = d.target := congrArg (·.target) hwire
  have hsize : c.bufferSize = d.bufferSize := congrArg (·.bufferSize) hwire
  have hread := Execution.consumed_eq ((h.sound hg).feed?_eq hc hstream rfl)
  have hcapacity := hspans.capacity
  refine ⟨d, hd, by rw [← hsource, hsrc], ?_⟩
  rw [Graph.bufferSize] at hcapacity
  rw [← htarget, hread, Graph.bufferSize, ← hsize]
  omega

/-- If an endless source reaches a block without passing a head, the readers of the block read a
bounded number of samples if they publish such a number. -/
theorem exists_bound_read (hg : g.Signals S) (htamed : g.Tamed) (hreached : g.IsReached i)
    (hreaders : ∀ j m, g.Feeds i j → g.node? j = some m → ∃ b, ∀ p x, Steady g S p x → p j ≤ b)
    {c : Connection} (hc : c ∈ g.connections) (hsrc : c.source.block = i) :
    ∃ b, ∀ p x, Steady g S p x → x.graph.consumed c.target.block ≤ b := by
  obtain ⟨j, m, hm, hendless, hway⟩ := hreached
  obtain ⟨l, hl, hin, -⟩ := (hg.sound.joins c hc).target
  have hf : g.Feeds i c.target.block := ⟨c, hc, hsrc, rfl⟩
  cases hout : l.block.hasOutput with
  | false =>
    -- the way would lead on to a sink
    have hhead : l.block.isHead = false := by
      cases hb : l.block with
      | head =>
        rw [hb] at hout
        cases hout
      | _ => rfl
    refine absurd (hway.tail ⟨hf, fun l' hl' => ?_⟩) (htamed j _ m l hm hendless hl hout)
    cases hl.symm.trans hl'
    exact hhead
  | true =>
    obtain ⟨b, hb⟩ := hreaders c.target.block l hf hl
    refine ⟨b, fun p x h => ?_⟩
    rw [h.consumed_eq hg hl hin hout]
    exact hb p x h

/-- There is a bound on what a block publishes. -/
theorem exists_bound_published (hg : g.Signals S) (htamed : g.Tamed) (hn : g.node? i = some n) :
    ∃ b, ∀ p x, Steady g S p x → p i ≤ b := by
  -- the induction is against the connections, from the readers of a block to the block
  induction i using (hg.acyclic.wellFounded_swap hg.sound).induction generalizing n with
  | _ i ih =>
    rcases hg.endsAt_or_endless hn with ⟨k, hend⟩ | ⟨-, hreached⟩
    · refine ⟨k, fun p x h => ?_⟩
      by_contra hlt
      have hk := h.covers i k (by omega)
      rw [hend k] at hk
      omega
    · have hreader : ∀ c ∈ g.connections, ∃ b, c.source.block = i → ∀ p x, Steady g S p x →
          x.graph.consumed c.target.block + max (g.bufferSize c) 1 ≤ b := by
        intro c hc
        by_cases hsrc : c.source.block = i
        · obtain ⟨b, hb⟩ := exists_bound_read hg htamed hreached (fun j m hf => ih j hf) hc hsrc
          exact ⟨b + max (g.bufferSize c) 1, fun _ p x h => Nat.add_le_add_right (hb p x h) _⟩
        · exact ⟨0, fun h => absurd h hsrc⟩
      obtain ⟨b, hb⟩ := exists_bound_list (fun c b b' hle hc hsrc p x h =>
        (hc hsrc p x h).trans hle) hreader
      refine ⟨b, fun p x h => ?_⟩
      rcases h.published_le hg i with hzero | ⟨c, hc, hsrc, hle⟩
      · omega
      · exact hle.trans (hb c hc hsrc p x h)

/-- The weight of all blocks. -/
def totalWeight (g : Graph Builtin) (p : Nat → Nat) (x : Execution Builtin) : Nat :=
  ∑ i ∈ Finset.range g.nodes.length, weight p x i

theorem Carried.consumed_le (h : Carried g S p x) (hg : g.Signals S) {b : Nat}
    (hb : ∀ j ∈ List.range g.nodes.length, p j ≤ b) : x.graph.consumed i ≤ b := by
  cases hfeed : x.graph.feed? i with
  | none =>
    rw [Graph.consumed, hfeed]
    exact Nat.zero_le b
  | some s =>
    obtain ⟨c, hc, -, hup, -, hcarries, -⟩ := h.feed hg hfeed
    have hwritten := hcarries.written_eq
    have hwritten' := hcarries.written_le
    have hj := (hg.sound.feeds_lt (Graph.feeds_of_upstream? hup)).1
    have hp := hb _ (List.mem_range.mpr hj)
    rw [Execution.consumed_eq hfeed]
    omega

/-- There is a bound on the weight of all blocks. -/
theorem exists_bound_weight (hg : g.Signals S) (htamed : g.Tamed) :
    ∃ b, ∀ p x, Steady g S p x → totalWeight g p x ≤ b := by
  obtain ⟨b, hb⟩ := exists_bound_list (l := List.range g.nodes.length)
    (P := fun i b => ∀ p x, Steady g S p x → p i ≤ b)
    (fun i b c hle h p x hx => (h p x hx).trans hle) fun i hi =>
      exists_bound_published hg htamed (List.getElem?_eq_getElem (List.mem_range.mp hi))
  refine ⟨g.nodes.length • (b + b + 1), fun p x h => ?_⟩
  have hall : ∀ i ∈ Finset.range g.nodes.length, weight p x i ≤ b + b + 1 := by
    intro i hi
    have hp := hb i (by simpa using hi) p x h
    have hread := h.toCarried.consumed_le (i := i) hg fun j hj => hb j hj p x h
    unfold weight
    split <;> omega
  have hsum := Finset.sum_le_card_nsmul _ _ _ hall
  rw [Finset.card_range] at hsum
  exact hsum

/-- An invocation that is not idle makes the weight of all blocks grow. -/
theorem Invoked.totalWeight {y : Execution Builtin} {p' : Nat → Nat} {r : Invocation}
    (hi : Invoked g S p x i r y p') (ho : g.Orderly S) (hn : i < g.nodes.length) :
    totalWeight g p x + (if r = .idle then 0 else 1) ≤ totalWeight g p' y := by
  obtain ⟨hall, hlt⟩ := hi.weight ho
  unfold Execution.totalWeight
  split
  next =>
    rw [Nat.add_zero]
    exact Finset.sum_le_sum fun j _ => hall j
  next hr => exact Finset.sum_lt_sum (fun j _ => hall j) ⟨i, Finset.mem_range.mpr hn, hlt hr⟩

end Execution
end Dataflow
