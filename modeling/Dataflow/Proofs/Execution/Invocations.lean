import Dataflow.Proofs.Execution.Nodes
import Dataflow.Proofs.Execution.Pass

/-!
# What invocations achieve

An invocation of a running block puts another node in the place of its node, and what it achieved
tells how the two differ (`Node.Invoked`). A pass that is not cut short is the invocation of the
blocks that were unfinished when it began, of each once and in order (`Execution.runPass_eq`): no
other block finishes meanwhile. It reports as finished what the number of finished blocks has grown
by (`Execution.terminalBlocks_runPass`).
-/

namespace Dataflow

open Lifecycle (State)

variable {β : Type}

/-- What an invocation makes of the node of a running block, by what it achieves. A work call counts
once it has returned; a block that has lost its readers finishes without one. -/
inductive Node.Invoked (n : Node β) : Invocation → Node β → Prop where
  | progress (block : β) : n.Invoked .progress { n with block, workCalls := n.workCalls + 1 }
  | idle (block : β) : n.Invoked .idle { n with block, workCalls := n.workCalls + 1 }
  | finished (block : β) {calls : Nat} : calls ≤ 1 →
    n.Invoked .finished { n with block, state := .stopped, workCalls := n.workCalls + calls }
  | failed (block : β) (e : WorkError) :
    n.Invoked (.failed e) { n with block, state := .error, workCalls := n.workCalls + 1 }
  | crashed (block : β) : n.Invoked .crashed { n with block }

/-- Whether a block made progress or finished. -/
def Invocation.advances : Invocation → Bool
  | progress | finished => true
  | _ => false

/-- The report of a pass that is not cut short, by what its invocations achieved. -/
def PassReport.of (achieved : List Invocation) : PassReport :=
  ⟨achieved.any Invocation.advances, achieved.count .finished, none⟩

theorem PassReport.progressed_of {achieved : List Invocation} :
    (PassReport.of achieved).progressed = true ↔
      .progress ∈ achieved ∨ .finished ∈ achieved := by
  rw [PassReport.of, List.any_eq_true]
  constructor
  · rintro ⟨invocation, hmem, hadvances⟩
    cases invocation with
    | progress => exact .inl hmem
    | finished => exact .inr hmem
    | idle | failed | crashed => cases hadvances
  · rintro (hmem | hmem)
    · exact ⟨_, hmem, rfl⟩
    · exact ⟨_, hmem, rfl⟩

namespace Graph

variable {g g' : Graph β} {i j : Nat} {n n' : Node β}

/-- Number of blocks that are finished. -/
def terminalBlocks (g : Graph β) : Nat := g.nodes.countP Node.isFinished

theorem node?_of_nodes_eq (hn : g.node? i = some n) (hg : g'.nodes = g.nodes.set i n') (j : Nat) :
    g'.node? j = if i = j then some n' else g.node? j := by
  obtain ⟨hi, -⟩ := List.getElem?_eq_some_iff.mp hn
  simp only [node?, hg, List.getElem?_set, hi, if_true]

/-- One more block is finished after an unfinished one has been replaced by a finished one. -/
theorem terminalBlocks_of_nodes_eq (hn : g.node? i = some n) (hopen : n.isFinished = false)
    (hg : g'.nodes = g.nodes.set i n') :
    g'.terminalBlocks = g.terminalBlocks + if n'.isFinished then 1 else 0 := by
  obtain ⟨hi, heq⟩ := List.getElem?_eq_some_iff.mp hn
  rw [terminalBlocks, hg, List.countP_set hi, heq, hopen]
  rfl

theorem terminalBlocks_le (g : Graph β) : g.terminalBlocks ≤ g.nodes.length := List.countP_le_length

end Graph

namespace Execution

variable {x y : Execution β} {i : Nat} {n : Node β}

theorem nodup_everyBlock (x : Execution β) : x.everyBlock.Nodup := List.nodup_range

/-! ### Single calls -/

theorem nodes_modifyNode (hn : x.graph.node? i = some n) (f : Node β → Node β) :
    (x.modifyNode i f).graph.nodes = x.graph.nodes.set i (f n) := by
  rw [modifyNode, Graph.modifyNode_eq hn]

/-- A change of a node that has taken the place of another one. -/
theorem nodes_modifyNode_of_eq {n' : Node β} (hn : x.graph.node? i = some n)
    (hy : y.graph.nodes = x.graph.nodes.set i n') (f : Node β → Node β) :
    (y.modifyNode i f).graph.nodes = x.graph.nodes.set i (f n') := by
  have hn' := Graph.node?_of_nodes_eq hn hy i
  rw [if_pos rfl] at hn'
  rw [nodes_modifyNode hn', hy, List.set_set]

theorem nodes_callHook (hn : x.graph.node? i = some n) (b : β) (hook : β → HookProgram β)
    (c : Call) : ∃ block,
      (x.callHook i b hook c).graph.nodes = x.graph.nodes.set i { n with block } := by
  obtain ⟨hgraph, -⟩ := runHook_frame (hook b) x
  have hrun : (x.runHook (hook b)).2.graph.node? i = some n := hgraph ▸ hn
  have hcall := nodes_modifyNode hrun fun n => { n with block := (x.runHook (hook b)).1 }
  exact ⟨(x.runHook (hook b)).1, hgraph ▸ hcall⟩

theorem isFinished_of_node? (hn : x.graph.node? i = some n) : x.isFinished i = n.isFinished := by
  rw [isFinished, hn]

theorem isFinished_of_nodes_eq {n' : Node β} (hn : x.graph.node? i = some n)
    (hy : y.graph.nodes = x.graph.nodes.set i n') {j : Nat} (hj : j ≠ i) :
    y.isFinished j = x.isFinished j := by
  rw [isFinished, isFinished, Graph.node?_of_nodes_eq hn hy, if_neg hj.symm]

variable [Block β]

theorem nodes_pause (hn : x.graph.node? i = some n) (hrun : n.state = .running) :
    ∃ block, (x.pause i).graph.nodes = x.graph.nodes.set i { n with block, state := .paused } := by
  obtain ⟨block, hcall⟩ := nodes_callHook hn n.block Block.pause .pause
  simp only [pause, hn, hrun, if_true]
  exact ⟨block, nodes_modifyNode_of_eq hn hcall _⟩

theorem nodes_resume (hn : x.graph.node? i = some n) (hpaused : n.state = .paused) :
    ∃ block,
      (x.resume i).graph.nodes = x.graph.nodes.set i { n with block, state := .running } := by
  obtain ⟨block, hcall⟩ := nodes_callHook hn n.block Block.resume .resume
  simp only [resume, hn, hpaused, if_true]
  exact ⟨block, nodes_modifyNode_of_eq hn hcall _⟩

theorem nodes_finish (hn : x.graph.node? i = some n) (hopen : n.isFinished = false)
    (reason : FinishReason) : ∃ block, (x.finish i reason).graph.nodes =
      x.graph.nodes.set i { n with block, state := .stopped } := by
  let y := x.setConnections (withdraw i x.graph.connections)
  have hy : y.graph.node? i = some n := hn
  obtain ⟨block, hcall⟩ := nodes_callHook hy n.block Block.stop .stop
  simp only [finish, hn, hopen]
  exact ⟨block, nodes_modifyNode_of_eq hy hcall _⟩

theorem nodes_start (hn : x.graph.node? i = some n) (h : (x.start i).1 = .ok ()) :
    ∃ block, (x.start i).2.graph.nodes =
      x.graph.nodes.set i { n with block, state := .running, workCalls := 0 } := by
  obtain ⟨hgraph, -⟩ := runHook_frame (Block.start n.block) x
  have hrun : (x.runHook (Block.start n.block)).2.graph.node? i = some n := hgraph ▸ hn
  simp only [start, hn] at h ⊢
  refine ⟨(x.runHook (Block.start n.block)).1.2, ?_⟩
  have hstart := nodes_modifyNode hrun fun m =>
    { m with block := (x.runHook (Block.start n.block)).1.2, state := .running, workCalls := 0 }
  rw [hgraph] at hstart
  rw [h]
  exact hstart

theorem nodes_work (hn : x.graph.node? i = some n) :
    ∃ block, (x.work i n).2.graph.nodes = x.graph.nodes.set i { n with
      block, workCalls := n.workCalls + if (x.work i n).1 = .crashed then 0 else 1 } := by
  obtain ⟨hnodes, -⟩ := runWork_frame i (Block.work n.block) x
  have hrun : (x.runWork i (Block.work n.block)).2.graph.node? i = some n := by
    rw [Graph.node?, hnodes]
    exact hn
  have hwork := nodes_modifyNode hrun fun m => { m with
    block := (x.runWork i (Block.work n.block)).1.2
    workCalls := m.workCalls + if (x.runWork i (Block.work n.block)).1.1 = .crashed then 0 else 1 }
  exact ⟨(x.runWork i (Block.work n.block)).1.2, hnodes ▸ hwork⟩

/-! ### Invocations -/

theorem invoke_of_ne (h : x.stateAt i ≠ some .running) : x.invoke i = (.idle, x) := by
  simp only [invoke]
  split
  · rfl
  next n hn =>
    rw [stateAt_of_node? hn] at h
    rw [if_pos fun hrun => h (congrArg some hrun)]

theorem exists_invoked (hn : x.graph.node? i = some n) (hrun : n.state = .running) :
    ∃ n', n.Invoked (x.invoke i).1 n' ∧
      (x.invoke i).2.graph.nodes = x.graph.nodes.set i n' := by
  have hopen := Node.isFinished_of_running hrun
  simp only [invoke, hn, hrun, ne_eq, not_true_eq_false, if_false]
  split
  · obtain ⟨block, hfinish⟩ := nodes_finish hn hopen .detached
    exact ⟨_, .finished block (Nat.zero_le 1), hfinish⟩
  obtain ⟨block, hwork⟩ := nodes_work hn
  rcases hout : x.work i n with ⟨outcome, y⟩
  rw [hout] at hwork
  have hn' := Graph.node?_of_nodes_eq hn hwork i
  rw [if_pos rfl] at hn'
  -- the node of a block that has worked is then put in another state
  have hfinish : ∀ reason, ∃ block, (y.finish i reason).graph.nodes = x.graph.nodes.set i
      { n with block, state := .stopped, workCalls := n.workCalls +
        if outcome = .crashed then 0 else 1 } := fun reason => by
    obtain ⟨block', hy⟩ := nodes_finish hn' hopen reason
    exact ⟨block', by rw [hy, hwork, List.set_set]⟩
  have hfinished : ∀ reason, outcome ≠ .crashed → ∃ n',
      n.Invoked (y.finished i reason).1 n' ∧
        (y.finished i reason).2.graph.nodes = x.graph.nodes.set i n' := fun reason hne => by
    obtain ⟨block', hy⟩ := hfinish reason
    rw [if_neg hne] at hy
    exact ⟨_, .finished block' (Nat.le_refl 1), hy⟩
  cases outcome with
  | crashed => exact ⟨_, .crashed block, hwork⟩
  | failed e =>
    obtain ⟨block', hy⟩ := hfinish .failed
    exact ⟨_, .failed block' e, nodes_modifyNode_of_eq hn hy _⟩
  | status st =>
    cases st with
    | ok => exact ⟨_, .progress block, hwork⟩
    | insufficientInput =>
      dsimp only
      split
      · exact hfinished .endOfStream fun h => by cases h
      · exact ⟨_, .idle block, hwork⟩
    | insufficientOutput => exact ⟨_, .idle block, hwork⟩
    | endOfStream => exact hfinished .endOfStream fun h => by cases h
    | done => exact hfinished .done fun h => by cases h

theorem isFinished_invoke (x : Execution β) {i j : Nat} (hj : j ≠ i) :
    (x.invoke i).2.isFinished j = x.isFinished j := by
  by_cases hst : x.stateAt i = some .running
  · obtain ⟨n, hn, hrun⟩ := Option.map_eq_some_iff.mp hst
    obtain ⟨n', -, hnodes⟩ := exists_invoked hn hrun
    exact isFinished_of_nodes_eq hn hnodes hj
  · rw [invoke_of_ne hst]

/-- The blocks that an invocation finishes are those of which it says so, unless it fails. -/
theorem terminalBlocks_invoke (x : Execution β) (i : Nat) (h : ∀ e, (x.invoke i).1 ≠ .failed e) :
    (x.invoke i).2.graph.terminalBlocks =
      x.graph.terminalBlocks + if (x.invoke i).1 = .finished then 1 else 0 := by
  by_cases hst : x.stateAt i = some .running
  · obtain ⟨n, hn, hrun⟩ := Option.map_eq_some_iff.mp hst
    obtain ⟨n', hinvoked, hnodes⟩ := exists_invoked hn hrun
    have hopen := Node.isFinished_of_running hrun
    rw [Graph.terminalBlocks_of_nodes_eq hn hopen hnodes]
    generalize (x.invoke i).1 = achieved at hinvoked h
    cases hinvoked with
    | progress block | idle block | crashed block => rw [Node.isFinished, hrun]; rfl
    | finished block hcalls => rfl
    | failed block e => exact absurd rfl (h e)
  · rw [invoke_of_ne hst]
    rfl

/-! ### Passes -/

/-- The unfinished blocks of a group. -/
def openBlocks (x : Execution β) (group : List Nat) : List Nat :=
  group.filter fun i => !x.isFinished i

/-- Invoke blocks one after the other. -/
def invokeEach (x : Execution β) : List Nat → List Invocation × Execution β
  | [] => ([], x)
  | i :: rest =>
    let (achieved, x) := x.invoke i
    let (others, x) := x.invokeEach rest
    (achieved :: others, x)

theorem openBlocks_invoke (x : Execution β) {i : Nat} {group : List Nat} (hi : i ∉ group) :
    (x.invoke i).2.openBlocks group = x.openBlocks group :=
  List.filter_congr fun j hj => by
    have hne : j ≠ i := fun heq => hi (heq ▸ hj)
    rw [isFinished_invoke x hne]

/-- A pass that is not cut short invokes the blocks that were unfinished when it began. -/
theorem runPass_eq {group : List Nat} (hgroup : group.Nodup)
    (h : (x.runPass group).1.failure = none) :
    x.runPass group = (.of (x.invokeEach (x.openBlocks group)).1,
      (x.invokeEach (x.openBlocks group)).2) := by
  induction group generalizing x with
  | nil => rfl
  | cons i rest ih =>
    obtain ⟨hi, hrest⟩ := List.nodup_cons.mp hgroup
    have hsame := openBlocks_invoke x hi
    rw [runPass] at h ⊢
    cases hfin : x.isFinished i with
    | true =>
      have hskip : x.openBlocks (i :: rest) = x.openBlocks rest := by simp [openBlocks, hfin]
      rw [hfin] at h
      rw [hskip]
      exact ih hrest h
    | false =>
      have hfirst : x.openBlocks (i :: rest) = i :: x.openBlocks rest := by
        simp [openBlocks, hfin]
      rw [hfin] at h
      rw [hfirst, invokeEach]
      rcases hout : x.invoke i with ⟨achieved, y⟩
      rw [hout] at h hsame
      have hpass : (y.runPass rest).1.failure = none → y.runPass rest =
          (.of (y.invokeEach (x.openBlocks rest)).1, (y.invokeEach (x.openBlocks rest)).2) :=
        fun h => hsame ▸ ih hrest h
      cases achieved with
      | idle | progress | finished =>
        have hpass := hpass h
        simp [hpass, PassReport.of, Invocation.advances]
      | failed | crashed => cases h

/-- A pass that is not cut short reports all blocks that it finishes. -/
theorem terminalBlocks_runPass {group : List Nat} (h : (x.runPass group).1.failure = none) :
    (x.runPass group).2.graph.terminalBlocks =
      x.graph.terminalBlocks + (x.runPass group).1.newlyFinished := by
  induction group generalizing x with
  | nil => rfl
  | cons i rest ih =>
    have hi := terminalBlocks_invoke x i
    rw [runPass] at h ⊢
    cases hfin : x.isFinished i with
    | true =>
      rw [hfin] at h
      exact ih h
    | false =>
      rw [hfin] at h
      rcases hout : x.invoke i with ⟨achieved, y⟩
      rw [hout] at h hi
      cases achieved with
      | idle | progress =>
        have hi := hi fun e he => by cases he
        exact (ih h).trans (congrArg (· + _) hi)
      | finished =>
        have hi : y.graph.terminalBlocks = x.graph.terminalBlocks + 1 := hi fun e he => by cases he
        have hpass := ih h
        show (y.runPass rest).2.graph.terminalBlocks =
          x.graph.terminalBlocks + ((y.runPass rest).1.newlyFinished + 1)
        omega
      | failed | crashed => cases h

end Execution
end Dataflow
