import Dataflow.Proofs.Block.Likeness
import Dataflow.Proofs.Execution.Paused

/-!
# Executions that differ in pauses

Two executions are parallel (`Execution.Parallels`) if their streams are the same, and their blocks
but for a likeness and for whether they are paused, and if the same has been done on them apart from
pauses (`Execution.deeds`). They stay so when blocks of one of them are paused or resumed, and when
the same is done to both. A pass, though, leaves out paused blocks: before it no block may be paused
on either side (`NonePaused`).
-/

namespace Dataflow

open Lifecycle (State)
open Block (Agree Likeness)

/-- Pausing and resuming. -/
def Call.isPausing : Call → Bool
  | pause | resume => true
  | _ => false

namespace Node

variable {β : Type} {R : β → β → Prop} {n n' : Node β}

/-- Two nodes are the same but for their blocks, which are related, and for a pause. -/
inductive Parallels (R : β → β → Prop) (n : Node β) : Node β → Prop where
  | intro {b : β} {st : State} : R n.block b → st.resumed = n.state.resumed →
      Parallels R n { n with block := b, state := st }

theorem Parallels.block (h : n.Parallels R n') : R n.block n'.block := by
  cases h with
  | intro hb => exact hb

theorem Parallels.isFinished (h : n.Parallels R n') : n'.isFinished = n.isFinished := by
  cases h with
  | intro _ hst => exact State.isTerminal_resumed hst

variable [Block β]

/-- The same settings are accepted by both. -/
theorem Parallels.apply (hR : Likeness R) (h : n.Parallels R n') (settings : PropertyMap)
    (isRunning : Bool) :
    (n.apply settings isRunning).node.Parallels R (n'.apply settings isRunning).node := by
  cases h with
  | @intro b st hb hst =>
    have hdeclares : declares b = declares n.block := by
      funext key
      rw [declares, declares, hR.descriptors hb]
    have herror : keyError? { n with block := b, state := st } isRunning =
        n.keyError? isRunning := by
      funext key
      simp only [keyError?, hR.descriptors hb, hR.isPermissive hb]
      rfl
    simp only [Node.apply, herror, hdeclares, hR.settings hb]
    split
    · exact .intro hb hst
    · obtain ⟨hresult, hblock⟩ := agree_tryApply hR hb settings
      rcases htry : tryApply n.block settings with ⟨result, c⟩
      rcases htry' : tryApply b settings with ⟨result', c'⟩
      rw [htry, htry'] at hresult hblock
      cases hresult
      cases result with
      | ok => exact .intro hblock hst
      | error e => exact .intro (restore_alike hR hblock (Block.settings n.block)).2.2 hst

theorem Parallels.answer (hR : Likeness R) (h : n.Parallels R n') (m : Message) :
    (n.answer m).node.Parallels R (n'.answer m).node := by
  simp only [Node.answer]
  split
  case h_2 =>
    simp only [answerSet]
    split
    · exact h
    next settings _ =>
      have hnode := h.apply hR settings true
      split <;> split <;> exact hnode
  all_goals exact h

theorem answer_get (n : Node β) {m : Message} (hm : m.command = .get) : (n.answer m).node = n := by
  simp only [Node.answer]
  split
  case h_2 hset => exact absurd (hm.symm.trans hset) (by decide)
  all_goals rfl

end Node

namespace Execution

variable {β : Type} {R : β → β → Prop} {x x' x'' : Execution β} {i : Nat} {n n' : Node β}

/-- The calls made on blocks but for pauses, in order. -/
def deeds (x : Execution β) : List JournalEntry :=
  x.journal.toList.filter fun e => !e.call.isPausing

theorem deeds_record (x : Execution β) (i : Nat) (c : Call) :
    (x.record i c).deeds = if c.isPausing then x.deeds else x.deeds ++ [⟨i, c⟩] := by
  simp only [deeds, record, Array.toList_push, List.filter_append, List.filter_cons,
    List.filter_nil]
  cases c.isPausing <;> simp

/-- Two executions are the same but for pauses and what they have logged and noted. -/
structure Parallels (R : β → β → Prop) (x x' : Execution β) : Prop where
  nodes : ∀ i, Option.Rel (Node.Parallels R) (x.graph.node? i) (x'.graph.node? i)
  connections : x'.graph.connections = x.graph.connections
  inboxId : x'.inboxId = x.inboxId
  deeds : x'.deeds = x.deeds

/-- Nothing has happened to blocks and streams. -/
structure Unmoved (x y : Execution β) : Prop where
  graph : y.graph = x.graph
  inboxId : y.inboxId = x.inboxId
  journal : y.journal = x.journal

theorem Unmoved.refl (x : Execution β) : Unmoved x x := ⟨rfl, rfl, rfl⟩

theorem Unmoved.trans (h : Unmoved x x') (h' : Unmoved x' x'') : Unmoved x x'' :=
  ⟨h'.graph.trans h.graph, h'.inboxId.trans h.inboxId, h'.journal.trans h.journal⟩

theorem Unmoved.stateAt (h : Unmoved x x') : x'.stateAt = x.stateAt := by
  funext i
  rw [Execution.stateAt, Execution.stateAt, h.graph]

theorem node?_modifyNode (x : Execution β) (i j : Nat) (f : Node β → Node β) :
    (x.modifyNode i f).graph.node? j =
      (x.graph.node? j).map fun n => if i = j then f n else n := by
  simp only [modifyNode, Graph.modifyNode, Graph.node?, List.getElem?_modify]
  rfl

theorem inboxId_runHook {ρ : Type} (p : HookProgram ρ) (x : Execution β) :
    (x.runHook p).2.inboxId = x.inboxId := by
  refine Program.run_invariant (I := fun y => y.inboxId = x.inboxId) (fun op y h => ?_) p x rfl
  cases op with
  | send inbox m => simp only [answerHook]; split <;> exact h
  | note entry => exact h

namespace Parallels

theorem refl (hx : ∀ n ∈ x.graph.nodes, R n.block n.block) : Parallels R x x := by
  refine ⟨fun i => ?_, rfl, rfl, rfl⟩
  cases hn : x.graph.node? i with
  | none => exact .none
  | some n => exact .some (.intro (hx n (List.mem_of_getElem? hn)) rfl)

theorem symm (hR : ∀ {b b'}, R b b' → R b' b) (h : Parallels R x x') : Parallels R x' x := by
  refine ⟨fun i => ?_, h.connections.symm, h.inboxId.symm, h.deeds.symm⟩
  have hn := h.nodes i
  generalize x.graph.node? i = o, x'.graph.node? i = o' at hn
  cases hn with
  | none => exact .none
  | some hn =>
    cases hn with
    | intro hb hst => exact .some (.intro (hR hb) hst.symm)

theorem node (h : Parallels R x x') (i : Nat) :
    (x.graph.node? i = none ∧ x'.graph.node? i = none) ∨
      ∃ n n', x.graph.node? i = some n ∧ x'.graph.node? i = some n' ∧ n.Parallels R n' := by
  have hn := h.nodes i
  generalize x.graph.node? i = o, x'.graph.node? i = o' at hn ⊢
  cases hn with
  | none => exact .inl ⟨rfl, rfl⟩
  | some hn => exact .inr ⟨_, _, rfl, rfl, hn⟩

theorem everyBlock (h : Parallels R x x') : x'.everyBlock = x.everyBlock := by
  have hlength : x'.graph.nodes.length = x.graph.nodes.length := by
    refine Nat.le_antisymm ?_ ?_ <;> refine Nat.not_lt.mp fun hlt => ?_
    · obtain ⟨-, hnone⟩ | ⟨n, n', hn, -⟩ := h.node x.graph.nodes.length
      · exact absurd (List.getElem?_eq_none_iff.mp hnone) (Nat.not_le.mpr hlt)
      · cases hn.symm.trans (List.getElem?_eq_none (Nat.le_refl _))
    · obtain ⟨hnone, -⟩ | ⟨n, n', -, hn', -⟩ := h.node x'.graph.nodes.length
      · exact absurd (List.getElem?_eq_none_iff.mp hnone) (Nat.not_le.mpr hlt)
      · cases hn'.symm.trans (List.getElem?_eq_none (Nat.le_refl _))
  rw [Execution.everyBlock, Execution.everyBlock, hlength]

theorem nameOf (h : Parallels R x x') : x'.nameOf = x.nameOf := by
  funext i
  obtain ⟨hn, hn'⟩ | ⟨n, n', hn, hn', hnm⟩ := h.node i <;>
    rw [Execution.nameOf, Execution.nameOf, hn, hn']
  cases hnm
  rfl

theorem isFinished (h : Parallels R x x') : x'.isFinished = x.isFinished := by
  funext i
  obtain ⟨hn, hn'⟩ | ⟨n, n', hn, hn', hnm⟩ := h.node i <;>
    simp only [Execution.isFinished, hn, hn']
  exact hnm.isFinished

/-- Unless blocks are paused, they are in the same states. -/
theorem stateAt (h : Parallels R x x') (hx : NonePaused x.stateAt) (hx' : NonePaused x'.stateAt) :
    x'.stateAt = x.stateAt := by
  funext i
  obtain ⟨hn, hn'⟩ | ⟨n, n', hn, hn', hnm⟩ := h.node i
  · rw [Execution.stateAt, Execution.stateAt, hn, hn']
  · have hne : n.state ≠ .paused := fun hst => hx i (by rw [stateAt_of_node? hn, hst])
    have hne' : n'.state ≠ .paused := fun hst => hx' i (by rw [stateAt_of_node? hn', hst])
    rw [stateAt_of_node? hn, stateAt_of_node? hn']
    cases hnm with
    | intro _ hst =>
      rw [State.resumed_of_ne hne, State.resumed_of_ne hne'] at hst
      rw [hst]

theorem congr (h : Parallels R x x') {y y' : Execution β} (hx : x.Unmoved y)
    (hx' : x'.Unmoved y') : Parallels R y y' := by
  refine ⟨fun i => ?_, ?_, ?_, ?_⟩
  · rw [hx.graph, hx'.graph]
    exact h.nodes i
  · rw [hx.graph, hx'.graph, h.connections]
  · rw [hx.inboxId, hx'.inboxId, h.inboxId]
  · rw [Execution.deeds, Execution.deeds, hx.journal, hx'.journal]
    exact h.deeds

/-! ### Changes of both -/

theorem modifyNode (h : Parallels R x x') {f f' : Node β → Node β}
    (hf : ∀ n n', n.Parallels R n' → (f n).Parallels R (f' n')) (i : Nat) :
    Parallels R (x.modifyNode i f) (x'.modifyNode i f') := by
  refine ⟨fun j => ?_, h.connections, h.inboxId, h.deeds⟩
  rw [node?_modifyNode, node?_modifyNode]
  obtain ⟨hn, hn'⟩ | ⟨n, n', hn, hn', hnm⟩ := h.node j <;> rw [hn, hn']
  · exact .none
  · refine .some ?_
    dsimp only
    split
    · exact hf n n' hnm
    · exact hnm

theorem setState (h : Parallels R x x') (i : Nat) (st : State) :
    Parallels R (x.setState i st) (x'.setState i st) := by
  refine h.modifyNode (fun n n' hnm => ?_) i
  cases hnm with
  | intro hb => exact .intro hb rfl

theorem record (h : Parallels R x x') (i : Nat) (c : Call) :
    Parallels R (x.record i c) (x'.record i c) :=
  ⟨h.nodes, h.connections, h.inboxId, by rw [deeds_record, deeds_record, h.deeds]⟩

theorem setConnections (h : Parallels R x x') (connections : List Connection) :
    Parallels R (x.setConnections connections) (x'.setConnections connections) :=
  ⟨h.nodes, rfl, h.inboxId, h.deeds⟩

theorem setInput (h : Parallels R x x') (target : Endpoint) (s : Stream Sample) :
    Parallels R (x.setInput target s) (x'.setInput target s) := by
  rw [Execution.setInput, Execution.setInput, h.connections]
  exact h.setConnections _

theorem addLog (h : Parallels R x x') (lines lines' : List LogLine) :
    Parallels R (x.addLog lines) (x'.addLog lines') :=
  ⟨h.nodes, h.connections, h.inboxId, h.deeds⟩

theorem addLine (h : Parallels R x x') (level level' : LogLevel) (text text' : String) :
    Parallels R (x.addLine level text) (x'.addLine level' text') :=
  ⟨h.nodes, h.connections, h.inboxId, h.deeds⟩

theorem foldl {f : Execution β → Nat → Execution β}
    (h : Parallels R x x')
    (hf : ∀ {x x' : Execution β}, Parallels R x x' → ∀ i, Parallels R (f x i) (f x' i))
    (group : List Nat) : Parallels R (group.foldl f x) (group.foldl f x') := by
  induction group generalizing x x' with
  | nil => exact h
  | cons i rest ih => exact ih (hf h i)

/-! ### Programs -/

theorem answerHook (h : Parallels R x x') (op : HookOp) :
    (answerHook op x').1 = (answerHook op x).1 ∧
      Parallels R (answerHook op x).2 (answerHook op x').2 := by
  cases op with
  | send inbox m =>
    simp only [Execution.answerHook, h.inboxId]
    split
    · exact ⟨rfl, h.nodes, h.connections, rfl, h.deeds⟩
    · exact ⟨rfl, h⟩
  | note entry => exact ⟨rfl, h.nodes, h.connections, h.inboxId, h.deeds⟩

theorem callHook (h : Parallels R x x') {b b' : β} {hook : β → HookProgram β}
    (hhook : Program.Matches R (hook b) (hook b')) (i : Nat) (c : Call) :
    Parallels R (x.callHook i b hook c) (x'.callHook i b' hook c) := by
  obtain ⟨hblock, hrun⟩ := hhook.run (fun op y y' hy => answerHook hy op) h
  refine record (modifyNode hrun (fun n n' hnm => ?_) i) i c
  cases hnm with
  | intro _ hst => exact .intro hblock hst

theorem port (h : Parallels R x x') (block : Nat) (ports : Node β → List PortSchema)
    (hports : ∀ n n', n.Parallels R n' → ports n' = ports n) (i : Nat) :
    x'.port block ports i = x.port block ports i := by
  obtain ⟨hn, hn'⟩ | ⟨n, n', hn, hn', hnm⟩ := h.node block <;>
    simp only [Execution.port, hn, hn']
  rw [hports n n' hnm]
  cases hnm
  rfl

theorem answerWork (h : Parallels R x x') (block : Nat) (op : WorkOp) :
    (answerWork block op x').1 = (answerWork block op x).1 ∧
      Parallels R (answerWork block op x).2 (answerWork block op x').2 := by
  cases op with
  | hook op => exact h.answerHook op
  | input i =>
    have hport := h.port block Node.inputs (fun _ _ hnm => by cases hnm; rfl) i
    refine ⟨?_, h⟩
    simp only [Execution.answerWork, hport, h.connections]
    rfl
  | output i =>
    have hport := h.port block Node.outputs (fun _ _ hnm => by cases hnm; rfl) i
    refine ⟨?_, h⟩
    simp only [Execution.answerWork, hport, h.connections]
    rfl
  | peek i limit | take i limit =>
    simp only [Execution.answerWork, h.connections]
    split
    · exact ⟨rfl, h⟩
    · exact ⟨rfl, (h.setInput _ _).addLog _ _⟩
  | consume i n =>
    simp only [Execution.answerWork, h.connections]
    split
    · exact ⟨rfl, h⟩
    · split
      · exact ⟨rfl, h⟩
      · exact ⟨rfl, (h.setInput _ _).addLog _ _⟩
  | publish i samples tags =>
    simp only [Execution.answerWork, h.connections]
    exact ⟨rfl, (h.setConnections _).addLog _ _⟩

/-! ### Calls on both -/

section Calls

variable [Block β] (hR : Likeness R)

include hR

theorem finish (h : Parallels R x x') (i : Nat) (reason : FinishReason) :
    Parallels R (x.finish i reason) (x'.finish i reason) := by
  obtain ⟨hn, hn'⟩ | ⟨n, n', hn, hn', hnm⟩ := h.node i <;>
    simp only [Execution.finish, hn, hn']
  · exact h
  · rw [hnm.isFinished, h.connections]
    split
    · exact h
    · refine addLine (setState (callHook ?_ (hR.stop hnm.block) i .stop) i .stopped) _ _ _ _
      exact h.setConnections _

theorem stopAll (h : Parallels R x x') (group : List Nat) :
    Parallels R (x.stopAll group) (x'.stopAll group) :=
  h.foldl (fun h i => finish hR h i .stopRequested) group

theorem work (h : Parallels R x x') (i : Nat) (hnm : n.Parallels R n') :
    (x'.work i n').1 = (x.work i n).1 ∧ Parallels R (x.work i n).2 (x'.work i n').2 := by
  obtain ⟨⟨houtcome, hblock⟩, hrun⟩ :=
    (hR.work hnm.block).run (fun op y y' hy => hy.answerWork i op) h
  refine ⟨houtcome, ?_⟩
  simp only [Execution.work, runWork, houtcome]
  refine record (modifyNode hrun (fun m m' hm => ?_) i) i _
  cases hm with
  | intro _ hst => exact .intro hblock hst

theorem invoke (h : Parallels R x x') (hx : NonePaused x.stateAt) (hx' : NonePaused x'.stateAt)
    (i : Nat) : (x'.invoke i).1 = (x.invoke i).1 ∧ Parallels R (x.invoke i).2 (x'.invoke i).2 := by
  obtain ⟨hn, hn'⟩ | ⟨n, n', hn, hn', hnm⟩ := h.node i
  · rw [Execution.invoke, Execution.invoke, hn, hn']
    exact ⟨rfl, h⟩
  have hstate : n'.state = n.state := by
    have hst := congrFun (h.stateAt hx hx') i
    rw [stateAt_of_node? hn, stateAt_of_node? hn'] at hst
    exact Option.some.inj hst
  have hdeserted : x'.isDeserted i n' = x.isDeserted i n := by
    cases hnm
    simp only [isDeserted, Graph.outputsOf, h.connections]
  obtain ⟨houtcome, hwork⟩ := work hR h i hnm
  have hstarved : (x'.work i n').2.isStarved i n' = (x.work i n).2.isStarved i n := by
    cases hnm
    simp only [isStarved, Graph.inputsOf, hwork.connections]
  simp only [Execution.invoke, hn, hn', hstate, hdeserted, houtcome, hstarved]
  split
  · exact ⟨rfl, h⟩
  split
  · exact ⟨rfl, finish hR h i .detached⟩
  cases (x.work i n).1 with
  | crashed => exact ⟨rfl, hwork⟩
  | failed e => exact ⟨rfl, (finish hR hwork i .failed).setState i .error⟩
  | status st =>
    cases st with
    | insufficientInput =>
      dsimp only
      split
      · exact ⟨rfl, finish hR hwork i .endOfStream⟩
      · exact ⟨rfl, hwork⟩
    | ok | insufficientOutput => exact ⟨rfl, hwork⟩
    | endOfStream => exact ⟨rfl, finish hR hwork i .endOfStream⟩
    | done => exact ⟨rfl, finish hR hwork i .done⟩

theorem runPass (h : Parallels R x x') (hx : NonePaused x.stateAt) (hx' : NonePaused x'.stateAt)
    (group : List Nat) :
    (x'.runPass group).1 = (x.runPass group).1 ∧
      Parallels R (x.runPass group).2 (x'.runPass group).2 := by
  induction group generalizing x x' with
  | nil => exact ⟨rfl, h⟩
  | cons i rest ih =>
    rw [Execution.runPass, Execution.runPass, h.isFinished]
    split
    · exact ih h hx hx'
    · have hy := nonePaused_invoke hx i
      have hy' := nonePaused_invoke hx' i
      obtain ⟨hinvocation, hi⟩ := invoke hR h hx hx' i
      rcases hout : x.invoke i with ⟨invocation, y⟩
      rcases hout' : x'.invoke i with ⟨invocation', y'⟩
      rw [hout] at hy hinvocation hi
      rw [hout'] at hy' hinvocation hi
      cases hinvocation
      obtain ⟨hreport, hrest⟩ := ih hi hy hy'
      cases invocation with
      | idle => exact ⟨hreport, hrest⟩
      | progress | finished =>
        dsimp only
        rw [hreport]
        exact ⟨rfl, hrest⟩
      | failed e =>
        dsimp only
        rw [hi.nameOf]
        exact ⟨rfl, hi.addLine _ _ _ _⟩
      | crashed => exact ⟨rfl, hi⟩

theorem answerFrom (h : Parallels R x x') (group : List Nat) (m : Message) :
    Parallels R (x.answerFrom group m).2 (x'.answerFrom group m).2 := by
  simp only [Execution.answerFrom, h.nameOf]
  split
  · exact h
  next i _ =>
    obtain ⟨hn, hn'⟩ | ⟨n, n', hn, hn', hnm⟩ := h.node i <;> rw [hn, hn']
    · exact h
    · exact (h.modifyNode (fun _ _ _ => hnm.answer hR m) i).addLog _ _

end Calls

/-! ### Pauses of one side -/

theorem foldl_right {f : Execution β → Nat → Execution β} (h : Parallels R x x')
    (hf : ∀ {x' : Execution β}, Parallels R x x' → ∀ i, Parallels R x (f x' i))
    (group : List Nat) : Parallels R x (group.foldl f x') := by
  induction group generalizing x' with
  | nil => exact h
  | cons i rest ih => exact ih (hf h i)

theorem callPausing (h : Parallels R x x') (hn' : x'.graph.node? i = some n')
    {hook : β → HookProgram β} {c : Call} {st : State} (hc : c.isPausing = true)
    (hst : st.resumed = n'.state.resumed)
    (hblock : ∀ b, R b n'.block → R b (x'.runHook (hook n'.block)).1) :
    Parallels R x ((x'.callHook i n'.block hook c).setState i st) := by
  obtain ⟨hgraph, hjournal⟩ := runHook_frame (hook n'.block) x'
  refine ⟨fun j => ?_, ?_, ?_, ?_⟩
  · have hnode : ((x'.callHook i n'.block hook c).setState i st).graph.node? j =
        (x'.graph.node? j).map fun n => if i = j then
          { n with block := (x'.runHook (hook n'.block)).1, state := st } else n := by
      rw [Execution.setState, node?_modifyNode]
      show (((x'.runHook (hook n'.block)).2.modifyNode i _).graph.node? j).map _ = _
      rw [node?_modifyNode, hgraph, Option.map_map]
      congr 1
      funext n
      by_cases hij : i = j
      · simp only [Function.comp, if_pos hij]
        rfl
      · simp only [Function.comp, if_neg hij]
    rw [hnode]
    obtain ⟨hn, hn'⟩ | ⟨n, m, hn, hm, hnm⟩ := h.node j
    · rw [hn, hn']
      exact .none
    · rw [hn, hm]
      refine .some ?_
      split
      next hij =>
        subst hij
        cases hn'.symm.trans hm
        have hb := hblock n.block hnm.block
        cases hnm with
        | intro _ hst' => exact .intro hb (hst.trans hst')
      next => exact hnm
  · show (x'.callHook i n'.block hook c).graph.connections = _
    rw [connections_callHook, h.connections]
  · exact (inboxId_runHook (hook n'.block) x').trans h.inboxId
  · have hdeeds : (x'.runHook (hook n'.block)).2.deeds = x'.deeds := by
      rw [Execution.deeds, hjournal]
      rfl
    show (((x'.runHook (hook n'.block)).2.modifyNode i _).record i c).deeds = _
    rw [deeds_record, if_pos hc]
    exact hdeeds.trans h.deeds

section Pauses

variable [Block β]

theorem answerFrom_get (h : Parallels R x x') (group : List Nat) {m : Message}
    (hm : m.command = .get) : Parallels R x (x'.answerFrom group m).2 := by
  simp only [Execution.answerFrom]
  split
  · exact h
  next i _ =>
    split
    · exact h
    next n hn =>
      rw [Node.answer_get n hm]
      have hsame : (x'.modifyNode i fun _ => n).graph.node? = x'.graph.node? := by
        funext j
        rw [node?_modifyNode]
        by_cases hij : i = j
        · subst hij
          rw [hn]
          simp
        · simp [hij]
      refine ⟨fun j => ?_, h.connections, h.inboxId, h.deeds⟩
      show Option.Rel _ _ ((x'.modifyNode i fun _ => n).graph.node? j)
      rw [hsame]
      exact h.nodes j

theorem pause (h : Parallels R x x')
    (hpause : ∀ {b b'} (x : Execution β), R b b' → R b (x.runHook (Block.pause b')).1) (i : Nat) :
    Parallels R x (x'.pause i) := by
  simp only [Execution.pause]
  split
  · exact h
  next n hn =>
    split
    next hrun => exact h.callPausing hn rfl (by rw [hrun]; rfl) fun b hb => hpause x' hb
    next => exact h

theorem resume (h : Parallels R x x')
    (hresume : ∀ {b b'} (x : Execution β), R b b' → R b (x.runHook (Block.resume b')).1) (i : Nat) :
    Parallels R x (x'.resume i) := by
  simp only [Execution.resume]
  split
  · exact h
  next n hn =>
    split
    next hpaused => exact h.callPausing hn rfl (by rw [hpaused]; rfl) fun b hb => hresume x' hb
    next => exact h

theorem pauseAll (h : Parallels R x x')
    (hpause : ∀ {b b'} (x : Execution β), R b b' → R b (x.runHook (Block.pause b')).1)
    (group : List Nat) : Parallels R x (x'.pauseAll group) :=
  h.foldl_right (fun h i => h.pause hpause i) group

theorem resumeAll (h : Parallels R x x')
    (hresume : ∀ {b b'} (x : Execution β), R b b' → R b (x.runHook (Block.resume b')).1)
    (group : List Nat) : Parallels R x (x'.resumeAll group) :=
  h.foldl_right (fun h i => h.resume hresume i) group

end Pauses

end Parallels

end Execution
end Dataflow
