import Dataflow.Proofs.Flow.Effect

/-!
# Invocations

What an invocation of a built-in block comes to while samples flow (`Execution.Invoked`): nothing,
if the block does not run; its end, if all its readers have finished; and otherwise what its work
call comes to, after which the block may be finished.
-/

namespace Dataflow

/-- A graph after a work call of block `i`. -/
def Graph.worked (g : Graph Builtin) (i : Nat) (b : Builtin) (connections : List Connection) :
    Graph Builtin :=
  { g.modifyNode i (fun n => { n with block := b, workCalls := n.workCalls + 1 }) with connections }

namespace Execution

/-- An execution after a work call of block `i`. -/
structure HasWorked (x : Execution Builtin) (i : Nat) (b : Builtin)
    (connections : List Connection) (y : Execution Builtin) : Prop where
  graph : y.graph = x.graph.worked i b connections
  inbox : y.inbox = x.inbox

/-- Whether a work call of this status does not finish block `i`. -/
def GoesOn (x : Execution Builtin) (i : Nat) (st : WorkStatus) : Prop :=
  st = .ok ∨ st = .insufficientOutput ∨
    st = .insufficientInput ∧ ∀ s, x.graph.feed? i = some s → s.exhausted = false

/-- Whether a work call of this status finishes block `i`. -/
def Ends (x : Execution Builtin) (i : Nat) (st : WorkStatus) : Prop :=
  st = .done ∨ st = .insufficientInput ∧ ∃ s, x.graph.feed? i = some s ∧ s.exhausted = true

/-- What an invocation of block `i` comes to: its result, the execution after it, and how many
samples each block has published by then. -/
inductive Invoked (g : Graph Builtin) (S : Nat → Signal) (p : Nat → Nat) (x : Execution Builtin)
    (i : Nat) : Invocation → Execution Builtin → (Nat → Nat) → Prop where
  | rests : x.stateAt i ≠ some .running → Invoked g S p x i .idle x p
  | deserted {n : Node Builtin} : x.graph.node? i = some n → n.state = .running →
      n.block.hasOutput = true → (∀ s ∈ x.graph.outlets i, s.detached = true) →
      Invoked g S p x i .finished (x.finish i .detached) p
  | goesOn {n : Node Builtin} {st : WorkStatus} {b : Builtin} {connections : List Connection}
      {m : Nat} {y : Execution Builtin} : n.state = .running → Ready g S p x i n →
      Worked g S p x i n.block (.status st) b connections m →
      x.HasWorked i b connections y → x.GoesOn i st →
      Invoked g S p x i (if st = .ok then .progress else .idle) y
        (Function.update p i (p i + m))
  | ends {n : Node Builtin} {st : WorkStatus} {b : Builtin} {connections : List Connection}
      {m : Nat} {y : Execution Builtin} {reason : FinishReason} : n.state = .running →
      Ready g S p x i n → Worked g S p x i n.block (.status st) b connections m →
      x.HasWorked i b connections y → x.Ends i st →
      Invoked g S p x i .finished (y.finish i reason) (Function.update p i (p i + m))
  | fails {n : Node Builtin} {e : WorkError} {b : Builtin} {connections : List Connection}
      {m : Nat} {y : Execution Builtin} : n.state = .running → Ready g S p x i n →
      Worked g S p x i n.block (.failed e) b connections m →
      x.HasWorked i b connections y →
      Invoked g S p x i (.failed e) ((y.finish i .failed).setState i .error)
        (Function.update p i (p i + m))

variable {g : Graph Builtin} {S : Nat → Signal} {p : Nat → Nat} {x y : Execution Builtin} {i : Nat}
  {n : Node Builtin}

theorem isDeserted_iff (hports : n.PortsAgree) : x.isDeserted i n = true ↔
    n.block.hasOutput = true ∧ ∀ s ∈ x.graph.outlets i, s.detached = true := by
  rw [isDeserted, Graph.outputsOf, hports.2, Builtin.outputs_eq]
  cases hout : n.block.hasOutput with
  | false => simp
  | true =>
    simp [Graph.outputStatus, FanOut.allDetached, Graph.outlets]

theorem isStarved_iff (hports : n.PortsAgree) (hin : n.block.hasInput = true) :
    x.isStarved i n = true ↔ ∃ s, x.graph.feed? i = some s ∧ s.exhausted = true := by
  rw [isStarved, Graph.inputsOf, hports.1, Builtin.inputs_eq, hin, if_pos rfl, Graph.feed?]
  cases hfeed : Graph.inputStream? x.graph.connections ⟨i, 0⟩ with
  | none => simp [Graph.inputStatus, hfeed]
  | some s => simp [Graph.inputStatus, hfeed]

/-- A work call as the scheduler makes it. -/
theorem work_worked (h : Ready g S p x i n) (hg : g.Signals S) : ∃ b connections m,
    Worked g S p x i n.block (x.work i n).1 b connections m ∧
      x.HasWorked i b connections (x.work i n).2 := by
  obtain ⟨connections, log, m, hrun, hworked⟩ := runWork_comes h hg
  have hcrash : (x.runWork i (Block.work n.block)).1.1 ≠ .crashed := by
    intro hcrash
    rw [hcrash] at hworked
    cases hworked
  refine ⟨_, connections, m, hworked, ?_, ?_⟩
  · simp only [work, record, modifyNode, hrun, if_neg hcrash]
    rfl
  · simp only [work, record, modifyNode, hrun]
    rfl

theorem invoke_invoked (h : Flows g S p x) (hg : g.Signals S) (i : Nat) :
    ∃ p', Invoked g S p x i (x.invoke i).1 (x.invoke i).2 p' := by
  unfold invoke
  split
  next hn => exact ⟨p, .rests (by simp [stateAt, hn])⟩
  next n hn =>
    have hports := h.toCarried.portsAgree hg hn
    split
    next hrun => exact ⟨p, .rests (by simpa [stateAt, hn] using hrun)⟩
    next hrun =>
      have hrun : n.state = .running := Decidable.not_not.mp hrun
      split
      next hdeserted =>
        obtain ⟨hout, hall⟩ := (isDeserted_iff hports).mp hdeserted
        exact ⟨p, .deserted hn hrun hout hall⟩
      next hdeserted =>
        have hready : Ready g S p x i n := by
          refine ⟨h.toCarried, hn, h.blocks i n hn (by simp [hrun]), fun hout => ?_⟩
          by_contra hnone
          refine hdeserted ((isDeserted_iff hports).mpr ⟨hout, fun s hs => ?_⟩)
          by_contra hs'
          exact hnone ⟨s, hs, by simpa using hs'⟩
        obtain ⟨b, connections, m, hworked, hdone⟩ := work_worked hready hg
        refine ⟨Function.update p i (p i + m), ?_⟩
        rcases hwork : x.work i n with ⟨outcome, y⟩
        rw [hwork] at hworked hdone
        cases outcome with
        | crashed => cases hworked
        | failed e => exact .fails hrun hready hworked hdone
        | status st =>
          cases st with
          | ok => exact .goesOn hrun hready hworked hdone (.inl rfl)
          | insufficientOutput => exact .goesOn hrun hready hworked hdone (.inr (.inl rfl))
          | endOfStream => exact absurd hworked Worked.ne_endOfStream
          | done => exact .ends hrun hready hworked hdone (.inl rfl)
          | insufficientInput =>
            obtain ⟨-, hconnections, -, hin, -⟩ := hworked.of_insufficientInput
            have hfeed : y.graph.feed? i = x.graph.feed? i := by
              rw [hdone.graph, hconnections]
              rfl
            have hstarved := isStarved_iff (x := y) (i := i) hports hin
            rw [hfeed] at hstarved
            dsimp only
            split
            next h => exact .ends hrun hready hworked hdone (.inr ⟨rfl, hstarved.mp h⟩)
            next h =>
              refine .goesOn hrun hready hworked hdone (.inr (.inr ⟨rfl, fun s hs => ?_⟩))
              by_contra hs'
              exact h (hstarved.mpr ⟨s, hs, by simpa using hs'⟩)

end Execution
end Dataflow
