import Dataflow.Proofs.Block.Hooks
import Dataflow.Proofs.Execution.Lasting

/-!
# What lasts at each node

A property of nodes is `Node.Lasting` if the hooks of the block keep it, its work calls, and changes
of its settings, and if it depends on nothing else than block, extra settings and ports. Such a
property outlasts all that is done to a graph at each node that has it (`Graph.lasting_each`), and
each node may have one of its own.
-/

namespace Dataflow

open Lifecycle (State)

variable {β : Type}

/-- A property of nodes that outlasts whatever is done with their blocks. -/
structure Node.Lasting [Block β] (I : Node β → Prop) : Prop where
  congr {n m : Node β} :
    I n → m.block = n.block → m.extra = n.extra → m.ports = n.ports → I m
  start {n : Node β} :
    I n → (Block.start n.block).Ends fun result => I { n with block := result.2 }
  stop {n : Node β} : I n → (Block.stop n.block).Ends fun b => I { n with block := b }
  pause {n : Node β} : I n → (Block.pause n.block).Ends fun b => I { n with block := b }
  resume {n : Node β} : I n → (Block.resume n.block).Ends fun b => I { n with block := b }
  work {n : Node β} : I n → (Block.work n.block).Leaves fun b => I { n with block := b }
  apply {n : Node β} (settings : PropertyMap) : I n → I (n.apply settings true).node

/-- A property of blocks that hooks and work calls keep. -/
structure Block.Upholds [Block β] (Q : β → Prop) : Prop where
  start {b : β} : Q b → (Block.start b).Ends fun result => Q result.2
  stop {b : β} : Q b → (Block.stop b).Ends Q
  pause {b : β} : Q b → (Block.pause b).Ends Q
  resume {b : β} : Q b → (Block.resume b).Ends Q
  work {b : β} : Q b → (Block.work b).Leaves Q

/-- A node of which the block and the extra settings each have a property. -/
structure Node.Carries (Q : β → Prop) (E : PropertyMap → Prop) (n : Node β) : Prop where
  block : Q n.block
  extra : E n.extra

/-- What a block upholds lasts if changes of settings keep it. -/
theorem Node.lasting_carries [Block β] {Q : β → Prop} {E : PropertyMap → Prop}
    (hQ : Block.Upholds Q) (happly : ∀ (n : Node β) settings, n.Carries Q E →
      (n.apply settings true).node.Carries Q E) : Node.Lasting (Node.Carries Q E) where
  congr h hblock hextra _ := ⟨hblock ▸ h.block, hextra ▸ h.extra⟩
  start h := (hQ.start h.block).mono fun _ hresult => ⟨hresult, h.extra⟩
  stop h := (hQ.stop h.block).mono fun _ hb => ⟨hb, h.extra⟩
  pause h := (hQ.pause h.block).mono fun _ hb => ⟨hb, h.extra⟩
  resume h := (hQ.resume h.block).mono fun _ hb => ⟨hb, h.extra⟩
  work h := (hQ.work h.block).mono fun _ hb => ⟨hb, h.extra⟩
  apply settings h := happly _ settings h

theorem Graph.modifyNode_eq {g : Graph β} {i : Nat} {n : Node β} (hn : g.node? i = some n)
    (f : Node β → Node β) : g.modifyNode i f = { g with nodes := g.nodes.set i (f n) } := by
  have hn : g.nodes[i]? = some n := hn
  rw [modifyNode, List.modify_eq_set_getElem?, hn]
  rfl

/-- Each node has the property that belongs to its position. -/
def Graph.Each (I : Nat → Node β → Prop) (g : Graph β) : Prop :=
  ∀ i n, g.node? i = some n → I i n

variable {I : Nat → Node β → Prop}

theorem Graph.Each.modifyNode {g : Graph β} (h : g.Each I) {i : Nat} {f : Node β → Node β}
    (hf : ∀ n, g.node? i = some n → I i (f n)) : (g.modifyNode i f).Each I := by
  intro j n hn
  rw [Graph.node?, Graph.modifyNode, List.getElem?_modify] at hn
  obtain ⟨m, hm, rfl⟩ := Option.map_eq_some_iff.mp hn
  split
  next hij =>
    subst hij
    exact hf m hm
  next => exact h j m hm

namespace Node

variable [Block β] {J : Node β → Prop}

/-- A property that is asked for under a condition only. -/
theorem Lasting.imp (hJ : Lasting J) (p : Prop) : Lasting fun n => p → J n := by
  -- programs of which the results are not looked at end in any case
  have hends : ∀ {Op ρ : Type} {Reply : Op → Type} {q : Program Op Reply ρ} {Q : ρ → Prop},
      (p → q.Ends Q) → q.Ends fun result => p → Q result := by
    intro Op ρ Reply q Q
    induction q with
    | done result => exact id
    | ask op next ih => exact fun h reply => ih reply fun hp => h hp reply
  exact {
    congr := fun h hblock hextra hports hp => hJ.congr (h hp) hblock hextra hports
    start := fun h => hends fun hp => hJ.start (h hp)
    stop := fun h => hends fun hp => hJ.stop (h hp)
    pause := fun h => hends fun hp => hJ.pause (h hp)
    resume := fun h => hends fun hp => hJ.resume (h hp)
    work := fun h => hends fun hp => hJ.work (h hp)
    apply := fun settings h hp => hJ.apply settings (h hp) }

theorem Lasting.answer (hJ : Lasting J) {n : Node β} (h : J n) (m : Message) :
    J (n.answer m).node := by
  simp only [Node.answer]
  split
  case h_2 =>
    simp only [Node.answerSet]
    split
    · exact h
    · split <;> exact hJ.apply _ h
  all_goals exact h

end Node

namespace Execution

variable {x y : Execution β} {i : Nat} {n : Node β}

theorem each_callHook (h : x.graph.Each I) (hn : x.graph.node? i = some n)
    (hook : β → HookProgram β) (call : Call)
    (hhook : (hook n.block).Ends fun b => I i { n with block := b }) :
    (x.callHook i n.block hook call).graph.Each I := by
  obtain ⟨hgraph, -⟩ := runHook_frame (hook n.block) x
  refine Graph.Each.modifyNode (hgraph ▸ h) fun m hm => ?_
  have hm : x.graph.node? i = some m := hgraph ▸ hm
  cases hm.symm.trans hn
  exact hhook.run answerHook x

theorem each_answerFrom [Block β] (h : x.graph.Each I)
    (hanswer : ∀ i n m, I i n → I i (n.answer m).node) (group : List Nat) (m : Message) :
    (x.answerFrom group m).2.graph.Each I := by
  simp only [answerFrom]
  split
  · exact h
  next i _ =>
    split
    · exact h
    next n hn => exact h.modifyNode fun _ _ => hanswer i n m (h i n hn)

variable [Block β] (hI : ∀ i, Node.Lasting (I i))

include hI

theorem each_setState (h : x.graph.Each I) (i : Nat) (state : State) :
    (x.setState i state).graph.Each I :=
  h.modifyNode fun n hn => (hI i).congr (h i n hn) rfl rfl rfl

theorem each_start (h : x.graph.Each I) (i : Nat) : (x.start i).2.graph.Each I := by
  simp only [start]
  split
  · exact h
  next n hn =>
    obtain ⟨hgraph, -⟩ := runHook_frame (Block.start n.block) x
    refine Graph.Each.modifyNode (hgraph ▸ h) fun m hm => ?_
    have hm : x.graph.node? i = some m := hgraph ▸ hm
    cases hm.symm.trans hn
    have hstarted := ((hI i).start (h i n hn)).run answerHook x
    exact (hI i).congr hstarted rfl rfl rfl

theorem each_finish (h : x.graph.Each I) (i : Nat) (reason : FinishReason) :
    (x.finish i reason).graph.Each I := by
  simp only [finish]
  split
  · exact h
  next n hn =>
    split
    · exact h
    · have hcall := each_callHook (x := x.setConnections (withdraw i x.graph.connections))
        h hn Block.stop .stop ((hI i).stop (h i n hn))
      exact each_setState hI hcall i .stopped

theorem each_pause (h : x.graph.Each I) (i : Nat) : (x.pause i).graph.Each I := by
  simp only [pause]
  split
  · exact h
  next n hn =>
    split
    · have hcall := each_callHook h hn Block.pause .pause ((hI i).pause (h i n hn))
      exact each_setState hI hcall i .paused
    · exact h

theorem each_resume (h : x.graph.Each I) (i : Nat) : (x.resume i).graph.Each I := by
  simp only [resume]
  split
  · exact h
  next n hn =>
    split
    · have hcall := each_callHook h hn Block.resume .resume ((hI i).resume (h i n hn))
      exact each_setState hI hcall i .running
    · exact h

theorem each_work (h : x.graph.Each I) (hn : x.graph.node? i = some n) :
    (x.work i n).2.graph.Each I := by
  obtain ⟨hnodes, -⟩ := runWork_frame i (Block.work n.block) x
  have hrun : (x.runWork i (Block.work n.block)).2.graph.Each I := fun j m hm => by
    rw [Graph.node?, hnodes] at hm
    exact h j m hm
  refine hrun.modifyNode fun m hm => ?_
  rw [Graph.node?, hnodes] at hm
  cases hm.symm.trans hn
  have hworked := ((hI i).work (h i n hn)).run (answerWork i) x
  exact (hI i).congr hworked rfl rfl rfl

theorem each_invoke (h : x.graph.Each I) (i : Nat) : (x.invoke i).2.graph.Each I := by
  simp only [invoke]
  split
  · exact h
  next n hn =>
    split
    · exact h
    split
    · exact each_finish hI h i .detached
    have hwork := each_work hI h hn
    rcases hout : x.work i n with ⟨outcome, y⟩
    rw [hout] at hwork
    cases outcome with
    | status st =>
      cases st with
      | ok | insufficientOutput => exact hwork
      | insufficientInput =>
        dsimp only
        split
        · exact each_finish hI hwork i .endOfStream
        · exact hwork
      | endOfStream => exact each_finish hI hwork i .endOfStream
      | done => exact each_finish hI hwork i .done
    | failed e => exact each_setState hI (each_finish hI hwork i .failed) i .error
    | crashed => exact hwork

theorem each_drives (hd : x.Drives y) (h : x.graph.Each I) : y.graph.Each I := by
  induction hd with
  | refl => exact h
  | tail _ hdrive ih =>
    cases hdrive with
    | invoke i => exact each_invoke hI ih i
    | finish i reason => exact each_finish hI ih i reason
    | pause i => exact each_pause hI ih i
    | resume i => exact each_resume hI ih i

end Execution

/-- What lasts at each node for itself lasts in the graph. -/
theorem Graph.lasting_each [Block β] (hI : ∀ i, Node.Lasting (I i)) :
    Graph.Lasting (Graph.Each I) where
  bind h := h
  start i h := Execution.each_start hI h i
  drives := Execution.each_drives hI
  answer group m h := Execution.each_answerFrom h (fun i _ m hn => (hI i).answer hn m) group m

end Dataflow
