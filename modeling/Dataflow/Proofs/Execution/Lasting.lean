import Dataflow.Proofs.Execution.Drive
import Dataflow.Proofs.Execution.Pass
import Dataflow.Proofs.Graph.SameWiring

/-!
# What lasts while a graph is run

A property of graphs is `Lasting` if binding keeps it, and every single call and every answer that
an execution makes. One such property is that all has stayed as it was but for blocks, states and
streams (`Graph.SameFrame`).
-/

namespace Dataflow

variable {β : Type}

/-- A property of graphs that outlasts whatever is done with their blocks. -/
structure Graph.Lasting [Block β] (I : Graph β → Prop) : Prop where
  bind {g : Graph β} : I g → I g.bind
  start {x : Execution β} (i : Nat) : I x.graph → I (x.start i).2.graph
  drives {x y : Execution β} : x.Drives y → I x.graph → I y.graph
  answer {x : Execution β} (group : List Nat) (m : Message) :
    I x.graph → I (x.answerFrom group m).2.graph

namespace Graph
variable {g g' g'' : Graph β}

/-- The same nodes with the same names, ports and connections, in a graph of the same
configuration. -/
structure SameFrame (g g' : Graph β) : Prop extends g.SameWiring g' where
  names : g'.nodes.map Node.uniqueName = g.nodes.map Node.uniqueName
  config : g'.config = g.config

namespace SameFrame

theorem refl (g : Graph β) : g.SameFrame g := ⟨⟨rfl, rfl⟩, rfl, rfl⟩

theorem modifyNode (h : g.SameFrame g') {i : Nat} {f : Node β → Node β}
    (hports : ∀ n, g'.node? i = some n → (f n).ports = n.ports)
    (hnames : ∀ n, g'.node? i = some n → (f n).uniqueName = n.uniqueName) :
    g.SameFrame (g'.modifyNode i f) :=
  ⟨⟨(map_modify hports).trans h.ports, h.wires⟩, (map_modify hnames).trans h.names, h.config⟩

theorem connections (h : g.SameFrame g') {connections : List Connection}
    (hwires : connections.map Connection.wire = g'.connections.map Connection.wire) :
    g.SameFrame { g' with connections } :=
  ⟨⟨h.ports, hwires.trans h.wires⟩, h.names, h.config⟩

theorem bind (h : g.SameFrame g') : g.SameFrame g'.bind :=
  h.connections (SameWiring.bind g').wires

theorem length_nodes (h : g.SameFrame g') : g'.nodes.length = g.nodes.length := by
  simpa using congrArg List.length h.names

end SameFrame

theorem wires_modifyInput (target : Endpoint) (f : Stream Sample → Stream Sample)
    (connections : List Connection) :
    (modifyInput target f connections).map Connection.wire =
      connections.map Connection.wire := by
  rw [modifyInput, List.map_map]
  refine List.map_congr_left fun c _ => ?_
  show Connection.wire (if c.target = target then _ else c) = c.wire
  split <;> rfl

theorem wires_setOutputs (source : Endpoint) (connections : List Connection)
    (streams : List (Stream Sample)) :
    (setOutputs source connections streams).map Connection.wire =
      connections.map Connection.wire := by
  induction connections generalizing streams with
  | nil => rfl
  | cons c rest ih =>
    simp only [setOutputs]
    split <;> exact congrArg₂ List.cons rfl (ih _)

end Graph

namespace Execution
variable {x : Execution β} {g : Graph β} {i : Nat}

theorem wires_withdraw (i : Nat) (connections : List Connection) :
    (withdraw i connections).map Connection.wire = connections.map Connection.wire := by
  rw [withdraw, List.map_map]
  exact List.map_congr_left fun _ _ => rfl

theorem sameFrame_answerWork (h : g.SameFrame x.graph) (i : Nat) (op : WorkOp) :
    g.SameFrame (answerWork i op x).2.graph := by
  have hset : ∀ target s, g.SameFrame (x.setInput target s).graph :=
    fun target s => h.connections (Graph.wires_modifyInput ..)
  cases op with
  | hook op =>
    cases op with
    | send inbox m => simp only [answerWork, answerHook]; split <;> exact h
    | note entry => exact h
  | input port | output port => exact h
  | peek port limit => simp only [answerWork]; split; exacts [h, hset ..]
  | take port limit => simp only [answerWork]; split; exacts [h, hset ..]
  | consume port n =>
    simp only [answerWork]
    split
    · exact h
    · split
      · exact h
      · exact hset ..
  | publish port samples tags => exact h.connections (Graph.wires_setOutputs ..)

theorem sameFrame_callHook (h : g.SameFrame x.graph) (i : Nat) (b : β)
    (hook : β → HookProgram β) (c : Call) : g.SameFrame (x.callHook i b hook c).graph := by
  obtain ⟨hgraph, -⟩ := runHook_frame (hook b) x
  refine Graph.SameFrame.modifyNode (hgraph ▸ h) ?_ ?_ <;> exact fun _ _ => rfl

theorem sameFrame_setState (h : g.SameFrame x.graph) (i : Nat) (state : Lifecycle.State) :
    g.SameFrame (x.setState i state).graph := by
  refine h.modifyNode ?_ ?_ <;> exact fun _ _ => rfl

variable [Block β]

theorem sameFrame_start (h : g.SameFrame x.graph) (i : Nat) :
    g.SameFrame (x.start i).2.graph := by
  simp only [start]
  split
  · exact h
  next n _ =>
    obtain ⟨hgraph, -⟩ := runHook_frame (Block.start n.block) x
    refine Graph.SameFrame.modifyNode (hgraph ▸ h) ?_ ?_ <;> exact fun _ _ => rfl

theorem sameFrame_finish (h : g.SameFrame x.graph) (i : Nat) (reason : FinishReason) :
    g.SameFrame (x.finish i reason).graph := by
  simp only [finish]
  split
  · exact h
  next n _ =>
    split
    · exact h
    · have hwithdrawn : g.SameFrame (x.setConnections (withdraw i x.graph.connections)).graph :=
        h.connections (wires_withdraw ..)
      exact sameFrame_setState (sameFrame_callHook hwithdrawn i n.block Block.stop .stop) i .stopped

theorem sameFrame_work (h : g.SameFrame x.graph) (i : Nat) (n : Node β) :
    g.SameFrame (x.work i n).2.graph := by
  have hrun : g.SameFrame (x.runWork i (Block.work n.block)).2.graph :=
    Program.run_invariant (I := fun y : Execution β => g.SameFrame y.graph)
      (fun op _ hy => sameFrame_answerWork hy i op) _ x h
  refine Graph.SameFrame.modifyNode hrun ?_ ?_ <;> exact fun _ _ => rfl

theorem sameFrame_invoke (h : g.SameFrame x.graph) (i : Nat) :
    g.SameFrame (x.invoke i).2.graph := by
  simp only [invoke]
  split
  · exact h
  next n _ =>
    split
    · exact h
    split
    · exact sameFrame_finish h i .detached
    have hwork := sameFrame_work h i n
    rcases hout : x.work i n with ⟨outcome, y⟩
    rw [hout] at hwork
    cases outcome with
    | status st =>
      cases st with
      | ok | insufficientOutput => exact hwork
      | insufficientInput =>
        dsimp only
        split
        · exact sameFrame_finish hwork i .endOfStream
        · exact hwork
      | endOfStream => exact sameFrame_finish hwork i .endOfStream
      | done => exact sameFrame_finish hwork i .done
    | failed e => exact sameFrame_setState (sameFrame_finish hwork i .failed) i .error
    | crashed => exact hwork

theorem sameFrame_drive {y : Execution β} (h : g.SameFrame x.graph) (hd : x.Drive y) :
    g.SameFrame y.graph := by
  cases hd with
  | invoke i => exact sameFrame_invoke h i
  | finish i reason => exact sameFrame_finish h i reason
  | pause i =>
    simp only [pause]
    split
    · exact h
    next n _ =>
      split
      · exact sameFrame_setState (sameFrame_callHook h i n.block Block.pause .pause) i .paused
      · exact h
  | resume i =>
    simp only [resume]
    split
    · exact h
    next n _ =>
      split
      · exact sameFrame_setState (sameFrame_callHook h i n.block Block.resume .resume) i .running
      · exact h

theorem sameFrame_drives {y : Execution β} (hd : x.Drives y) (h : g.SameFrame x.graph) :
    g.SameFrame y.graph := by
  induction hd with
  | refl => exact h
  | tail _ hdrive ih => exact sameFrame_drive ih hdrive

theorem sameFrame_answerFrom (h : g.SameFrame x.graph) (group : List Nat) (m : Message) :
    g.SameFrame (x.answerFrom group m).2.graph := by
  simp only [answerFrom]
  split
  · exact h
  next i _ =>
    split
    · exact h
    next n hn =>
      refine h.modifyNode (fun k hk => ?_) fun k hk => ?_
      · cases hk.symm.trans hn
        exact n.ports_answer m
      · cases hk.symm.trans hn
        exact (answer_frame n m).1

end Execution

theorem Graph.lasting_sameFrame [Block β] (g : Graph β) : Graph.Lasting g.SameFrame where
  bind h := h.bind
  start i h := Execution.sameFrame_start h i
  drives := Execution.sameFrame_drives
  answer group m h := Execution.sameFrame_answerFrom h group m

end Dataflow
