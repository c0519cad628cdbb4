import Dataflow.Proofs.Execution.Invocations

/-!
# Sweeps over all blocks

Whatever is done to each block in turn, like starting, pausing or invoking it, goes over the graph
in a sweep: the blocks to which it has been done have one property, and the rest of them still have
another one (`Graph.Midway`). In sweeps all blocks keep up with the passes of a run
(`Node.KeepsUp`): each has made as many work calls as there were passes until it finished. Pausing
and resuming them changes nothing about that, and a pass is one more (`each_runPass`).
-/

namespace Dataflow

open Lifecycle (State)

variable {β : Type}

/-- A node that keeps up with the passes of a run: until it finished it has made a work call in each
of them. Unless it has finished it is in a certain state. -/
structure Node.KeepsUp (passes : Nat) (st : State) (n : Node β) : Prop where
  calls_le : n.workCalls ≤ passes
  calls_eq : n.isFinished = false → n.workCalls = passes
  state : n.isFinished = false → n.state = st

/-- A node of a block that runs and has not worked yet. -/
structure Node.IsStarted (n : Node β) : Prop where
  state : n.state = .running
  calls : n.workCalls = 0

namespace Node.KeepsUp

variable {n : Node β} {k : Nat} {st : State}

theorem of_finished (hfin : n.isFinished = true) (h : n.workCalls ≤ k) : n.KeepsUp k st := by
  refine ⟨h, fun hopen => ?_, fun hopen => ?_⟩ <;> cases hfin.symm.trans hopen

theorem of_eq (hcalls : n.workCalls = k) (hst : n.state = st) : n.KeepsUp k st :=
  ⟨Nat.le_of_eq hcalls, fun _ => hcalls, fun _ => hst⟩

end Node.KeepsUp

/-! ### Sweeps -/

/-- A sweep over the nodes of a graph is underway: the rest of them still have one property, and the
others have another one already. -/
structure Graph.Midway (P Q : Node β → Prop) (rest : List Nat) (g : Graph β) : Prop where
  nodup : rest.Nodup
  each : g.Each fun i n => if i ∈ rest then P n else Q n

namespace Execution

variable {x y : Execution β} {P Q : Node β → Prop} {i : Nat} {n : Node β} {k : Nat} {st : State}

/-- A call concerns the node at a position only, which it leads from one property to another. -/
structure Visits (P Q : Node β → Prop) (x : Execution β) (i : Nat) (y : Execution β) : Prop where
  others : ∀ j, j ≠ i → y.graph.node? j = x.graph.node? j
  node : ∀ n', y.graph.node? i = some n' → ∃ n, x.graph.node? i = some n ∧ (P n → Q n')

theorem Visits.of_nodes {n' : Node β} (hn : x.graph.node? i = some n)
    (hy : y.graph.nodes = x.graph.nodes.set i n') (h : P n → Q n') : Visits P Q x i y := by
  refine ⟨fun j hj => ?_, fun m hm => ⟨n, hn, ?_⟩⟩
  · rw [Graph.node?_of_nodes_eq hn hy, if_neg hj.symm]
  · rw [Graph.node?_of_nodes_eq hn hy, if_pos rfl] at hm
    exact Option.some.inj hm ▸ h

theorem Visits.refl (h : ∀ n, x.graph.node? i = some n → P n → Q n) : Visits P Q x i x :=
  ⟨fun _ _ => rfl, fun n hn => ⟨n, hn, h n hn⟩⟩

theorem midway_everyBlock (h : x.graph.Each fun _ => P) :
    x.graph.Midway P Q x.everyBlock := by
  refine ⟨nodup_everyBlock x, fun i n hn => ?_⟩
  obtain ⟨hi, -⟩ := List.getElem?_eq_some_iff.mp hn
  have hmem : i ∈ x.everyBlock := List.mem_range.mpr hi
  rw [if_pos hmem]
  exact h i n hn

theorem each_of_midway_nil (h : x.graph.Midway P Q []) : x.graph.Each fun _ => Q := by
  intro i n hn
  simpa using h.each i n hn

theorem Visits.midway {rest : List Nat} (hv : Visits P Q x i y)
    (h : x.graph.Midway P Q (i :: rest)) : y.graph.Midway P Q rest := by
  obtain ⟨hi, hrest⟩ := List.nodup_cons.mp h.nodup
  refine ⟨hrest, fun j m hm => ?_⟩
  by_cases hj : j = i
  · subst hj
    obtain ⟨n, hn, hPQ⟩ := hv.node m hm
    have hP : P n := by simpa using h.each j n hn
    rw [if_neg hi]
    exact hPQ hP
  · rw [hv.others j hj] at hm
    simpa [hj] using h.each j m hm

theorem each_foldl {f : Execution β → Nat → Execution β} (hf : ∀ x i, Visits P Q x i (f x i))
    {group : List Nat} (h : x.graph.Midway P Q group) :
    (group.foldl f x).graph.Each fun _ => Q := by
  induction group generalizing x with
  | nil => exact each_of_midway_nil h
  | cons i rest ih => exact ih ((hf x i).midway h)

variable [Block β]

theorem visits_pause (hst : st = .running ∨ st = .paused) (x : Execution β) (i : Nat) :
    Visits (Node.KeepsUp k st) (Node.KeepsUp k .paused) x i (x.pause i) := by
  cases hn : x.graph.node? i with
  | none =>
    rw [pause, hn]
    exact .refl fun n hn' => by cases hn.symm.trans hn'
  | some n =>
    by_cases hrun : n.state = .running
    · obtain ⟨block, hnodes⟩ := nodes_pause hn hrun
      have hopen := Node.isFinished_of_running hrun
      exact .of_nodes hn hnodes fun h => .of_eq (h.calls_eq hopen) rfl
    · simp only [pause, hn, hrun, if_false]
      refine .refl fun m hm h => ⟨h.calls_le, h.calls_eq, fun hopen => ?_⟩
      cases hn.symm.trans hm
      rcases hst with rfl | rfl
      · exact absurd (h.state hopen) hrun
      · exact h.state hopen

theorem visits_resume (x : Execution β) (i : Nat) :
    Visits (Node.KeepsUp k .paused) (Node.KeepsUp k .running) x i (x.resume i) := by
  cases hn : x.graph.node? i with
  | none =>
    rw [resume, hn]
    exact .refl fun n hn' => by cases hn.symm.trans hn'
  | some n =>
    by_cases hpaused : n.state = .paused
    · obtain ⟨block, hnodes⟩ := nodes_resume hn hpaused
      have hopen : n.isFinished = false := by rw [Node.isFinished, hpaused]; rfl
      exact .of_nodes hn hnodes fun h => .of_eq (h.calls_eq hopen) rfl
    · simp only [resume, hn, hpaused, if_false]
      refine .refl fun m hm h => ⟨h.calls_le, h.calls_eq, fun hopen => ?_⟩
      cases hn.symm.trans hm
      exact absurd (h.state hopen) hpaused

theorem visits_start (x : Execution β) (i : Nat) (h : (x.start i).1 = .ok ()) :
    Visits (fun _ => True) Node.IsStarted x i (x.start i).2 := by
  cases hn : x.graph.node? i with
  | none =>
    rw [start, hn]
    exact .refl fun n hn' => by cases hn.symm.trans hn'
  | some n =>
    obtain ⟨block, hnodes⟩ := nodes_start hn h
    exact .of_nodes hn hnodes fun _ => ⟨rfl, rfl⟩

/-- An invocation is one more work call, unless the block finishes. -/
theorem visits_invoke (hopen : x.isFinished i = false)
    (h : Invocation.failure? x i (x.invoke i).1 = none) :
    Visits (Node.KeepsUp k .running) (Node.KeepsUp (k + 1) .running) x i (x.invoke i).2 := by
  cases hn : x.graph.node? i with
  | none => rw [isFinished, hn] at hopen; cases hopen
  | some n =>
    rw [isFinished_of_node? hn] at hopen
    by_cases hrun : n.state = .running
    · obtain ⟨n', hinvoked, hnodes⟩ := exists_invoked hn hrun
      refine .of_nodes hn hnodes fun hk => ?_
      have hcalls := hk.calls_eq hopen
      generalize (x.invoke i).1 = achieved at hinvoked h
      cases hinvoked with
      | progress block | idle block => exact .of_eq (congrArg (· + 1) hcalls) hrun
      | finished block hle => exact .of_finished rfl (Nat.add_le_add hk.calls_le hle)
      | failed block e => cases h
      | crashed block => cases h
    · have hne : x.stateAt i ≠ some .running := fun hst => by
        rw [stateAt_of_node? hn] at hst
        exact hrun (Option.some.inj hst)
      rw [invoke_of_ne hne]
      refine .refl fun m hm hk => ?_
      cases hn.symm.trans hm
      exact absurd (hk.state hopen) hrun

theorem each_startAll {group : List Nat}
    (hx : x.graph.Midway (fun _ => True) Node.IsStarted group)
    (h : Scheduler.startAll x group = (none, y)) : y.graph.Each fun _ => Node.IsStarted := by
  induction group generalizing x with
  | nil =>
    cases h
    exact each_of_midway_nil hx
  | cons i rest ih =>
    have hv := visits_start x i
    rw [Scheduler.startAll] at h
    rcases hout : x.start i with ⟨result, z⟩
    rw [hout] at h hv
    cases result with
    | error e => cases h
    | ok => exact ih ((hv rfl).midway hx) h

/-- A pass that is not cut short gives every unfinished block a turn. -/
theorem each_runPass {group : List Nat}
    (hx : x.graph.Midway (Node.KeepsUp k .running) (Node.KeepsUp (k + 1) .running) group)
    (h : (x.runPass group).1.failure = none) :
    (x.runPass group).2.graph.Each fun _ => Node.KeepsUp (k + 1) .running := by
  induction group generalizing x with
  | nil => exact each_of_midway_nil hx
  | cons i rest ih =>
    have hv := visits_invoke (x := x) (i := i) (k := k)
    rw [runPass] at h ⊢
    cases hfin : x.isFinished i with
    | true =>
      rw [hfin] at h
      refine ih (Visits.midway (.refl fun n hn hk => ?_) hx) h
      rw [isFinished_of_node? hn] at hfin
      exact .of_finished hfin (Nat.le_succ_of_le hk.calls_le)
    | false =>
      have hv := hv hfin
      rw [hfin] at h
      rcases hout : x.invoke i with ⟨achieved, z⟩
      rw [hout] at h hv
      cases achieved with
      | idle | progress | finished => exact ih ((hv rfl).midway hx) h
      | failed | crashed => cases h

end Execution
end Dataflow
