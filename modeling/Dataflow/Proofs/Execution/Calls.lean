import Dataflow.Execution.Pass

/-!
# Calls on blocks

The journal of an execution explains the states of its blocks: each call moves the state of its
block (`Call.next`), and an execution that `Extends` another one has made certain calls, by which
the states of the one become those of the other. This module says which calls the operations of
the scheduler make. A call is quiet (`Call.IsQuiet`) unless it fails or crashes; quiet calls lead
no block into `error`.
-/

namespace Dataflow

open Lifecycle (State)

namespace Call

/-- The state of a block after a call on it. A block that failed is stopped, but stays failed. -/
def next (st : State) : Call → State
  | start (.ok _) | resume => .running
  | start (.error _) | work (.failed _) => .error
  | work _ => st
  | pause => .paused
  | stop => if st = .error then .error else .stopped

/-- A call that neither fails nor crashes. -/
def IsQuiet : Call → Prop
  | start (.error _) | work (.failed _) | work .crashed => False
  | _ => True

theorem IsQuiet.next_ne {c : Call} (h : c.IsQuiet) {st : State} (hst : st ≠ .error) :
    c.next st ≠ .error := by
  match c with
  | start (.ok _) | resume | pause => simp [Call.next]
  | start (.error _) | work (.failed _) => exact absurd h id
  | work (.status _) => exact hst
  | work .crashed => exact absurd h id
  | stop => simp [Call.next, hst]

end Call

/-- The states of blocks after a call. -/
def JournalEntry.apply (states : Nat → Option State) (e : JournalEntry) : Nat → Option State :=
  fun i => if i = e.block then (states i).map fun st => e.call.next st else states i

/-- The states of blocks after calls. -/
def replay (states : Nat → Option State) (calls : List JournalEntry) : Nat → Option State :=
  calls.foldl JournalEntry.apply states

@[simp] theorem replay_nil (states : Nat → Option State) : replay states [] = states := rfl

@[simp] theorem replay_cons (states : Nat → Option State) (e : JournalEntry)
    (calls : List JournalEntry) : replay states (e :: calls) = replay (e.apply states) calls := rfl

theorem replay_append (states : Nat → Option State) (calls calls' : List JournalEntry) :
    replay states (calls ++ calls') = replay (replay states calls) calls' := List.foldl_append

/-- No call fails or crashes. -/
def QuietCalls (calls : List JournalEntry) : Prop := ∀ e ∈ calls, e.call.IsQuiet

/-- No block has failed. -/
def NoneFailed (states : Nat → Option State) : Prop := ∀ i, states i ≠ some .error

theorem QuietCalls.append {calls calls' : List JournalEntry} (h : QuietCalls calls)
    (h' : QuietCalls calls') : QuietCalls (calls ++ calls') := fun e hmem => by
  rcases List.mem_append.mp hmem with hmem | hmem
  · exact h e hmem
  · exact h' e hmem

theorem QuietCalls.noneFailed {calls : List JournalEntry} (h : QuietCalls calls)
    {states : Nat → Option State} (hs : NoneFailed states) : NoneFailed (replay states calls) := by
  induction calls generalizing states with
  | nil => exact hs
  | cons e calls ih =>
    refine ih (fun e he => h e (List.mem_cons_of_mem _ he)) fun i => ?_
    have he := h e (List.mem_cons_self ..)
    have hi := hs i
    simp only [JournalEntry.apply]
    split
    · cases hst : states i with
      | none => simp
      | some st =>
        rw [hst] at hi
        simpa using he.next_ne fun heq => hi (by rw [heq])
    · exact hi

/-- Modifying an element of a list in a way that a function does not see. -/
theorem map_modify {α γ : Type} {l : List α} {i : Nat} {f : α → α} {φ : α → γ}
    (h : ∀ a, l[i]? = some a → φ (f a) = φ a) : (l.modify i f).map φ = l.map φ := by
  refine List.ext_getElem? fun j => ?_
  simp only [List.getElem?_map, List.getElem?_modify]
  cases ha : l[j]? with
  | none => rfl
  | some a =>
    by_cases hj : i = j
    · subst hj
      simp [h a ha]
    · simp [hj]

theorem Node.isFinished_of_running {β : Type} {n : Node β} (h : n.state = .running) :
    n.isFinished = false := by
  rw [Node.isFinished, h]
  rfl

namespace Execution

variable {β : Type} {x x' x'' : Execution β} {calls calls' : List JournalEntry}

/-- The state of the block at a position. -/
def stateAt (x : Execution β) (i : Nat) : Option State := (x.graph.node? i).map Node.state

theorem stateAt_of_node? {i : Nat} {n : Node β} (hn : x.graph.node? i = some n) :
    x.stateAt i = some n.state := by
  rw [stateAt, hn, Option.map_some]

/-- The unique names of all blocks. -/
def names (x : Execution β) : List String := x.graph.nodes.map Node.uniqueName

/-- An execution goes on from another one by certain calls. -/
structure Extends (x x' : Execution β) (calls : List JournalEntry) : Prop where
  journal : x'.journal.toList = x.journal.toList ++ calls
  states : x'.stateAt = replay x.stateAt calls
  names : x'.names = x.names

namespace Extends

theorem refl : Extends x x [] := ⟨by simp, rfl, rfl⟩

theorem trans (h : Extends x x' calls) (h' : Extends x' x'' calls') :
    Extends x x'' (calls ++ calls') :=
  ⟨by rw [h'.journal, h.journal, List.append_assoc],
    by rw [h'.states, h.states, replay_append],
    h'.names.trans h.names⟩

theorem of_eq (hn : x'.graph.nodes = x.graph.nodes) (hj : x'.journal = x.journal) :
    Extends x x' [] :=
  ⟨by simp [hj], by funext i; simp [stateAt, Graph.node?, hn], by simp [Execution.names, hn]⟩

/-- Changes to anything but nodes and journal, after the calls. -/
theorem before (h : Extends x x' calls) (hn : x''.graph.nodes = x'.graph.nodes)
    (hj : x''.journal = x'.journal) : Extends x x'' calls := by
  simpa using h.trans (.of_eq hn hj)

theorem length_nodes (h : Extends x x' calls) :
    x'.graph.nodes.length = x.graph.nodes.length := by
  simpa [Execution.names] using congrArg List.length h.names

theorem everyBlock (h : Extends x x' calls) : x'.everyBlock = x.everyBlock := by
  rw [Execution.everyBlock, Execution.everyBlock, h.length_nodes]

theorem nameOf (h : Extends x x' calls) (i : Nat) : x'.nameOf i = x.nameOf i := by
  have hname : ∀ y : Execution β, y.nameOf i = (y.names[i]?).getD "" := fun y => by
    simp [Execution.nameOf, Execution.names, Graph.node?]
  rw [hname, hname, h.names]

end Extends

/-! ### Parts of calls -/

theorem stateAt_modifyNode (x : Execution β) (i j : Nat) (f : Node β → Node β) :
    (x.modifyNode i f).stateAt j =
      if i = j then (x.graph.node? j).map fun n => (f n).state else x.stateAt j := by
  by_cases h : i = j
  · subst h
    simp [stateAt, modifyNode, Graph.modifyNode, Graph.node?, Function.comp_def]
  · simp [stateAt, modifyNode, Graph.modifyNode, Graph.node?, h]

theorem names_modifyNode (x : Execution β) (i : Nat) (f : Node β → Node β)
    (hf : ∀ n, x.graph.node? i = some n → (f n).uniqueName = n.uniqueName) :
    (x.modifyNode i f).names = x.names := map_modify hf

/-- Changing what a node holds beside its names and its state is no call. -/
theorem extends_modifyNode {i : Nat} {f : Node β → Node β} {n : Node β}
    (hn : x.graph.node? i = some n) (hf : (f n).uniqueName = n.uniqueName)
    (hs : (f n).state = n.state) : Extends x (x.modifyNode i f) [] := by
  refine ⟨by simp [modifyNode], funext fun j => ?_, names_modifyNode x i f fun m hm => ?_⟩
  · rw [stateAt_modifyNode]
    split
    next h =>
      subst h
      simp [stateAt, hn, hs]
    next => rfl
  · cases hn.symm.trans hm
    exact hf

theorem runHook_frame {ρ : Type} (p : HookProgram ρ) (x : Execution β) :
    (x.runHook p).2.graph = x.graph ∧ (x.runHook p).2.journal = x.journal := by
  refine Program.run_invariant (I := fun y => y.graph = x.graph ∧ y.journal = x.journal)
    (fun op y h => ?_) p x ⟨rfl, rfl⟩
  cases op with
  | send inbox m => simp only [answerHook]; split <;> exact h
  | note entry => exact h

theorem connections_callHook (x : Execution β) (i : Nat) (b : β) (hook : β → HookProgram β)
    (c : Call) : (x.callHook i b hook c).graph.connections = x.graph.connections := by
  rw [← (runHook_frame (hook b) x).1]
  rfl

theorem runWork_frame {ρ : Type} (i : Nat) (p : Work ρ) (x : Execution β) :
    (x.runWork i p).2.graph.nodes = x.graph.nodes ∧ (x.runWork i p).2.journal = x.journal := by
  refine Program.run_invariant
    (I := fun y => y.graph.nodes = x.graph.nodes ∧ y.journal = x.journal)
    (fun op y h => ?_) p x ⟨rfl, rfl⟩
  cases op with
  | hook op =>
    cases op with
    | send inbox m => simp only [answerWork, answerHook]; split <;> exact h
    | note entry => exact h
  | input port => exact h
  | output port => exact h
  | peek port limit => simp only [answerWork]; split <;> exact h
  | take port limit => simp only [answerWork]; split <;> exact h
  | consume port n =>
    simp only [answerWork]
    split
    · exact h
    · split <;> exact h
  | publish port samples tags => exact h

@[simp] theorem stateAt_record (x : Execution β) (i : Nat) (c : Call) :
    (x.record i c).stateAt = x.stateAt := rfl

@[simp] theorem names_record (x : Execution β) (i : Nat) (c : Call) :
    (x.record i c).names = x.names := rfl

/-- What it takes to have made one call. -/
theorem Extends.one {i : Nat} {c : Call} (hj : x'.journal = x.journal.push ⟨i, c⟩)
    (hs : ∀ j, x'.stateAt j = if i = j then (x.stateAt j).map c.next else x.stateAt j)
    (hn : x'.names = x.names) : Extends x x' [⟨i, c⟩] := by
  refine ⟨by simp [hj], funext fun j => ?_, hn⟩
  simp only [hs, replay_cons, replay_nil, JournalEntry.apply, eq_comm]

/-- Calling a hook and entering the state that belongs to the call. -/
theorem extends_callHook (x : Execution β) (i : Nat) (b : β) (hook : β → HookProgram β) (c : Call)
    {n : Node β} (hn : x.graph.node? i = some n) :
    Extends x ((x.callHook i b hook c).setState i (c.next n.state)) [⟨i, c⟩] := by
  obtain ⟨hg, hj⟩ := runHook_frame (hook b) x
  have hnames : (x.runHook (hook b)).2.names = x.names := by rw [names, hg, names]
  refine .one ?_ (fun j => ?_) ?_
  · simp [callHook, setState, modifyNode, record, hj]
  · simp only [setState, stateAt_modifyNode]
    split
    next h =>
      subst h
      simp [callHook, record, modifyNode, Graph.modifyNode, Graph.node?, hg, stateAt] at hn ⊢
      simp [hn]
    next h =>
      simp only [callHook, stateAt_record, stateAt_modifyNode, h, if_false]
      simp [stateAt, hg]
  · refine (names_modifyNode _ _ _ (by intros; rfl)).trans ?_
    refine (names_modifyNode _ _ _ (by intros; rfl)).trans hnames

theorem isFinished_eq (x : Execution β) (i : Nat) :
    x.isFinished i = ((x.stateAt i).map State.isTerminal).getD true := by
  simp only [isFinished, stateAt]
  cases x.graph.node? i <;> rfl

variable [Block β]

/-! ### Calls of the scheduler -/

theorem extends_start (x : Execution β) {i : Nat} (hi : i < x.graph.nodes.length) :
    Extends x (x.start i).2 [⟨i, .start (x.start i).1⟩] := by
  have hn : x.graph.node? i = some x.graph.nodes[i] := List.getElem?_eq_getElem hi
  obtain ⟨hg, hj⟩ := runHook_frame (Block.start x.graph.nodes[i].block) x
  have hnames : (x.runHook (Block.start x.graph.nodes[i].block)).2.names = x.names := by
    rw [names, hg, names]
  simp only [start, hn]
  refine .one (by simp [record, modifyNode, hj]) (fun j => ?_) ?_
  · simp only [stateAt_record, stateAt_modifyNode, hg]
    split
    next h =>
      subst h
      simp only [hn, stateAt, Option.map_some, Option.some.injEq]
      cases (x.runHook (Block.start x.graph.nodes[i].block)).1.1 <;> rfl
    next => simp [stateAt, hg]
  · exact (names_modifyNode _ _ _ (by intros; rfl)).trans hnames

theorem finish_of_isFinished {i : Nat} (h : x.isFinished i = true) (reason : FinishReason) :
    x.finish i reason = x := by
  simp only [isFinished] at h
  rw [finish]
  split
  · rfl
  next n hn =>
    rw [hn] at h
    exact if_pos h

theorem extends_finish {i : Nat} (h : x.isFinished i = false) (reason : FinishReason) :
    Extends x (x.finish i reason) [⟨i, .stop⟩] := by
  simp only [isFinished] at h
  split at h
  · cases h
  next n hn =>
    have hst : Call.next n.state .stop = .stopped := by
      have hne : n.state ≠ .error := fun he => by simp [Node.isFinished, he, State.isTerminal] at h
      simp [Call.next, hne]
    have hcall := extends_callHook (x.setConnections (withdraw i x.graph.connections)) i n.block
      Block.stop .stop (n := n) hn
    rw [hst] at hcall
    simp only [finish, hn, h]
    exact ⟨hcall.journal, hcall.states, hcall.names⟩

theorem extends_pause (x : Execution β) (i : Nat) :
    ∃ calls, Extends x (x.pause i) calls ∧ QuietCalls calls := by
  simp only [pause]
  split
  · exact ⟨[], .refl, by simp [QuietCalls]⟩
  next n hn =>
    split
    · exact ⟨_, extends_callHook x i n.block Block.pause .pause hn, by
        simp [QuietCalls, Call.IsQuiet]⟩
    · exact ⟨[], .refl, by simp [QuietCalls]⟩

theorem extends_resume (x : Execution β) (i : Nat) :
    ∃ calls, Extends x (x.resume i) calls ∧ QuietCalls calls := by
  simp only [resume]
  split
  · exact ⟨[], .refl, by simp [QuietCalls]⟩
  next n hn =>
    split
    · exact ⟨_, extends_callHook x i n.block Block.resume .resume hn, by
        simp [QuietCalls, Call.IsQuiet]⟩
    · exact ⟨[], .refl, by simp [QuietCalls]⟩

theorem work_frame (x : Execution β) {i : Nat} {n : Node β} (hn : x.graph.node? i = some n) :
    (x.work i n).2.journal = x.journal.push ⟨i, .work (x.work i n).1⟩ ∧
      (x.work i n).2.stateAt = x.stateAt ∧ (x.work i n).2.names = x.names := by
  obtain ⟨hg, hj⟩ := runWork_frame i (Block.work n.block) x
  have hstate : (x.runWork i (Block.work n.block)).2.stateAt = x.stateAt := by
    funext j
    simp only [stateAt, Graph.node?, hg]
  have hnames : (x.runWork i (Block.work n.block)).2.names = x.names := by rw [names, hg, names]
  have hn' : (x.runWork i (Block.work n.block)).2.graph.node? i = some n := by
    rw [Graph.node?, hg]
    exact hn
  have he := extends_modifyNode (f := fun m => { m with
    block := (x.runWork i (Block.work n.block)).1.2
    workCalls := m.workCalls + if (x.runWork i (Block.work n.block)).1.1 = .crashed then 0 else 1 })
    hn' rfl rfl
  refine ⟨?_, ?_, ?_⟩
  · simp [work, record, modifyNode, hj]
  · exact he.states.trans hstate
  · exact he.names.trans hnames

/-- A work call that does not fail changes no state. -/
theorem extends_work (x : Execution β) {i : Nat} {n : Node β} (hn : x.graph.node? i = some n)
    (h : ∀ e, (x.work i n).1 ≠ .failed e) :
    Extends x (x.work i n).2 [⟨i, .work (x.work i n).1⟩] := by
  obtain ⟨hj, hstates, hnames⟩ := work_frame x hn
  have hnext : (Call.work (x.work i n).1).next = id := by
    funext st
    cases hout : (x.work i n).1 with
    | status _ => rfl
    | failed e => exact absurd hout (h e)
    | crashed => rfl
  refine .one hj (fun j => ?_) hnames
  rw [hstates, hnext, Option.map_id, id, ite_self]

/-- A block whose work fails is stopped and stays failed. -/
theorem extends_failed (x : Execution β) {i : Nat} {n : Node β} (hn : x.graph.node? i = some n)
    (hrun : n.state = .running) {e : WorkError} (h : (x.work i n).1 = .failed e) :
    Extends x (((x.work i n).2.finish i .failed).setState i .error)
      [⟨i, .work (.failed e)⟩, ⟨i, .stop⟩] := by
  obtain ⟨hj, hstates, hnames⟩ := work_frame x hn
  have hst : x.stateAt i = some .running := by rw [stateAt, hn, Option.map_some, hrun]
  have hopen : (x.work i n).2.isFinished i = false := by
    rw [isFinished_eq, hstates, hst]
    rfl
  have hfin := extends_finish hopen .failed
  refine ⟨?_, funext fun j => ?_, ?_⟩
  · have := hfin.journal
    rw [hj, h] at this
    simpa [setState, modifyNode] using this
  · have hj := congrFun hfin.states j
    rw [hstates] at hj
    rw [setState, stateAt_modifyNode]
    simp only [replay_cons, replay_nil, JournalEntry.apply] at hj ⊢
    split
    next hij =>
      subst hij
      have hsome : ((x.work i n).2.finish i .failed).stateAt i = some .stopped := by
        simpa [hst, Call.next] using hj
      rw [stateAt, Option.map_eq_some_iff] at hsome
      obtain ⟨m, hm, _⟩ := hsome
      simp [hm, hst, Call.next]
    next hij =>
      simpa [Ne.symm hij] using hj
  · exact ((names_modifyNode _ _ _ (by intros; rfl)).trans hfin.names).trans hnames

end Execution
end Dataflow
