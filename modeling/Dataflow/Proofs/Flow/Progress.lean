import Dataflow.Proofs.Flow.Orderly

/-!
# Progress

An invocation that achieves nothing shows that its block waits (`Execution.Waits`): its input is
empty but not closed, or a stream at its output holds samples that have not been read. If all
running blocks waited, then by induction against the connections no running block could have
samples at its input, hence none could wait for its readers, and by induction along the connections
no block could run at all (`Execution.Carried.not_running`).
-/

namespace Dataflow

namespace Execution

variable {g : Graph Builtin} {S : Nat → Signal} {p p' : Nat → Nat} {x y : Execution Builtin}
  {i : Nat} {n : Node Builtin}

/-- A block waits for input, or for readers while it has input. -/
def Waits (x : Execution Builtin) (i : Nat) : Prop :=
  (∃ s, x.graph.feed? i = some s ∧ s.available = 0 ∧ s.closed = false) ∨
    (∃ s ∈ x.graph.outlets i, s.detached = false ∧ 0 < s.available) ∧
      ∀ s, x.graph.feed? i = some s → 0 < s.available

/-- Every block runs or has stopped. -/
def Unpaused (x : Execution Builtin) : Prop :=
  ∀ i st, x.stateAt i = some st → st = .running ∨ st = .stopped

theorem Unpaused.noneFailed (h : Unpaused x) : NoneFailed x.stateAt := by
  intro i hi
  rcases h i _ hi with hst | hst <;> cases hst

theorem Unpaused.running_of_open (h : Unpaused x) (hopen : x.isFinished i = false) :
    x.stateAt i = some .running := by
  rw [isFinished_eq] at hopen
  cases hst : x.stateAt i with
  | none =>
    rw [hst] at hopen
    cases hopen
  | some st =>
    rcases h i st hst with rfl | rfl
    · rfl
    · rw [hst] at hopen
      cases hopen

/-- If no samples fit, samples are waiting to be read. -/
theorem available_pos_of_room {c : Connection} {s : Stream Sample} {T : Signal} {k : Nat}
    (hcarries : s.Carries T k) (hspans : Spans g x c s) (hT : T.Sparse)
    (hfull : min s.space s.tagSpace = 0) : 0 < s.available := by
  have hcapacity : 1 ≤ s.capacity := by
    rw [hspans.capacity]
    omega
  -- the tags that are there lie on samples that are there
  have harriving : s.arriving.length ≤ s.available := by
    have htags := congrArg List.length hcarries.tags
    have hfew : (T.tags s.read s.available).length ≤ s.available := hT.length_tags_le
    rw [List.length_append, Queue.length_toList] at htags
    omega
  have hspace : s.space = s.capacity - s.available := rfl
  have htagSpace : s.tagSpace = max s.capacity Stream.minTagSlots - s.arriving.length := rfl
  have hroom := hcarries.room
  omega

/-- An invocation that achieves nothing leaves the streams as they are, and the block waits. -/
theorem Invoked.waits (h : Carried g S p x) (ho : g.Orderly S) (hrun : x.stateAt i = some .running)
    (hi : Invoked g S p x i .idle y p') :
    Waits x i ∧ y.graph.connections = x.graph.connections ∧ y.stateAt = x.stateAt ∧ p' = p := by
  generalize hr : Invocation.idle = r at hi
  cases hi with
  | rests hst => exact absurd hrun hst
  | deserted | ends | fails => cases hr
  | @goesOn n st b connections m y _ hready hw hy hgoes =>
    have hst := stateAt_worked hy.graph
    cases hw with
    | moved _ _ _ _ _ hok =>
      rcases hok with rfl | ⟨rfl, -⟩
      · cases hr
      · rcases hgoes with hok | hok | ⟨hok, -⟩ <;> cases hok
    | ended => rcases hgoes with hok | hok | ⟨hok, -⟩ <;> cases hok
    | @starved s hin hfeed havail =>
      refine ⟨.inl ⟨s, hfeed, havail, ?_⟩, (by rw [hy.graph]; rfl), hst, ?_⟩
      · rcases hgoes with hok | hok | ⟨-, hopen⟩
        · cases hok
        · cases hok
        · have hs := hopen s hfeed
          by_contra hclosed
          rw [Stream.exhausted_iff.mpr ⟨by simpa using hclosed, havail⟩] at hs
          cases hs
      · rw [Nat.add_zero, Function.update_eq_self]
    | blocked hout hroom hall =>
      refine ⟨.inr ⟨?_, hall⟩, (by rw [hy.graph]; rfl), hst, ?_⟩
      · obtain ⟨s, hs, hsl⟩ := hready.live hout
        obtain ⟨t, ht, htl, hleast⟩ := FanOut.exists_least
          (f := fun s : Stream Sample => min s.space s.tagSpace) hs hsl
        obtain ⟨c, -, -, -, hcarries, hspans⟩ := h.outlet ho.toSignals ht
        obtain ⟨k, hk, -⟩ := h.alike.node? hready.node
        refine ⟨t, ht, htl, available_pos_of_room hcarries hspans (ho.sparse i k hk) ?_⟩
        exact hleast.trans hroom
      · rw [Nat.add_zero, Function.update_eq_self]

section

variable (h : Carried g S p x) (hg : g.Signals S) (hx : Unpaused x)
  (hwaits : ∀ i, x.stateAt i = some .running → Waits x i)
include h hg hx hwaits

/-- If all running blocks wait, none of them has samples at its input. -/
theorem Carried.available_eq_zero {s : Stream Sample} (hrun : x.stateAt i = some .running)
    (hfeed : x.graph.feed? i = some s) : s.available = 0 := by
  -- a block with samples would wait for a reader that has samples
  induction i using (hg.acyclic.wellFounded_swap hg.sound).induction generalizing s with
  | _ i ih =>
    rcases hwaits i hrun with ⟨s', hfeed', hzero, -⟩ | ⟨⟨t, ht, hlive, havail⟩, hall⟩
    · cases hfeed.symm.trans hfeed'
      exact hzero
    · obtain ⟨c, hc, hsrc, hstream, -, hspans⟩ := h.outlet hg ht
      have hrun' := hx.running_of_open (hspans.detached.symm.trans hlive)
      have hfeeds : g.Feeds i c.target.block := h.alike.feeds ⟨c, hc, hsrc, rfl⟩
      have hempty := ih c.target.block hfeeds hrun' ((h.sound hg).feed?_eq hc hstream rfl)
      omega

/-- Running blocks cannot all wait. -/
theorem Carried.not_running (i : Nat) : x.stateAt i ≠ some .running := by
  -- a block without samples at its input waits for a block before it that runs
  induction i using (hg.acyclic.wellFounded hg.sound).induction with
  | _ i ih =>
    intro hrun
    rcases hwaits i hrun with ⟨s, hfeed, -, hopen⟩ | ⟨⟨t, ht, hlive, havail⟩, -⟩
    · obtain ⟨c, hc, rfl, hup, -, -, hspans⟩ := h.feed hg hfeed
      have hrun' := hx.running_of_open (hspans.closed.symm.trans hopen)
      exact ih c.source.block (Graph.feeds_of_upstream? hup) hrun'
    · obtain ⟨c, hc, -, hstream, -, hspans⟩ := h.outlet hg ht
      have hrun' := hx.running_of_open (hspans.detached.symm.trans hlive)
      have hfeed := (h.sound hg).feed?_eq hc hstream rfl
      have hempty := h.available_eq_zero hg hx hwaits hrun' hfeed
      omega

end

end Execution
end Dataflow
