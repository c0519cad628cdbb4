import Dataflow.Proofs.Execution.Drive
import Dataflow.Proofs.Execution.Pass
import Dataflow.Proofs.Graph.SameWiring
import Dataflow.Proofs.Stream.Basic

/-!
# Streams mirror blocks

The writer of a stream closes it and the reader detaches from it when it finishes, however that
comes about, and only then. So the flags of a stream tell whether the blocks at its two ends have
finished (`Execution.Mirrored`). What blocks do in their hooks finishes no block and leaves all
flags as they are (`Execution.Retains`), so calls on blocks keep the two in step
(`Mirrored.drives`). It follows that a block which is not finished reads from no stream that it
has detached from, and writes to none that it has closed (`Mirrored.throughout`).
-/

namespace Dataflow

open Lifecycle (State)

/-- Whether a stream has been closed, and whether it has been detached from. -/
def Stream.flags {α : Type} (s : Stream α) : Bool × Bool := (s.closed, s.detached)

namespace Stream

variable {α : Type} {s s' : Stream α}

theorem flags_push {samples : List α} {tags : List Tag} (h : s.push samples tags = .ok s') :
    s'.flags = s.flags := by
  obtain ⟨-, -, rfl⟩ := push_eq_ok_iff.mp h
  rfl

theorem flags_consume {n : Nat} {tags : List Tag} (h : s.consume n = .ok (tags, s')) :
    s'.flags = s.flags := by
  simp only [consume] at h
  split at h
  · cases h
  · cases h
    rfl

end Stream

namespace FanOut

variable {α : Type} (samples : List α) (tags : List Tag) (streams : List (Stream α))

theorem flags_pushLive :
    (pushLive samples tags streams).2.map Stream.flags = streams.map Stream.flags := by
  induction streams with
  | nil => rfl
  | cons s rest ih =>
    rw [pushLive]
    split
    · rw [List.map_cons, List.map_cons, ih]
    · split
      next => rfl
      next s' hs' => rw [List.map_cons, List.map_cons, ih, Stream.flags_push hs']

theorem flags_publish :
    (publish streams samples tags).2.map Stream.flags = streams.map Stream.flags := by
  rw [publish]
  split
  · rfl
  · split
    · rfl
    · exact flags_pushLive samples tags streams

end FanOut

/-- Where a connection leads, and the flags of its stream. -/
def Connection.outline (c : Connection) : Connection × Option (Bool × Bool) :=
  (c.wire, c.stream.map Stream.flags)

namespace Graph

variable {β : Type} {g : Graph β}

theorem outline_setOutputs (source : Endpoint) {connections : List Connection}
    {streams : List (Stream Sample)}
    (h : streams.map Stream.flags = (outputStreams connections source).map Stream.flags) :
    (setOutputs source connections streams).map Connection.outline =
      connections.map Connection.outline := by
  induction connections generalizing streams with
  | nil => rfl
  | cons c rest ih =>
    by_cases hsrc : c.source = source
    · cases hstream : c.stream with
      | none =>
        have h : streams.map Stream.flags =
            (outputStreams rest source).map Stream.flags := by
          simpa [outputStreams, hsrc, hstream] using h
        simp [setOutputs, hsrc, hstream, ih h]
      | some s =>
        cases streams with
        | nil => simp [outputStreams, hsrc, hstream] at h
        | cons t streams =>
          simp only [outputStreams, List.filterMap_cons, hsrc, if_true, hstream, List.map_cons,
            List.cons.injEq] at h
          obtain ⟨hflags, h⟩ := h
          simp [setOutputs, hsrc, hstream, ih h, Connection.outline, Connection.wire, hflags]
    · have h : streams.map Stream.flags = (outputStreams rest source).map Stream.flags := by
        simpa [outputStreams, hsrc] using h
      simp [setOutputs, hsrc, ih h]

theorem Wired.outline_modifyInput (h : g.Wired) {target : Endpoint} {s s' : Stream Sample}
    (hs : inputStream? g.connections target = some s) (hflags : s'.flags = s.flags) :
    (modifyInput target (fun _ => s') g.connections).map Connection.outline =
      g.connections.map Connection.outline := by
  -- `modifyInput` changes all connections that end at the target, but there is only this one
  obtain ⟨d, hd, hdt, hds⟩ := exists_of_inputStream? hs
  rw [modifyInput, List.map_map]
  refine List.map_congr_left fun c hc => ?_
  by_cases ht : c.target = target
  · obtain rfl : c = d := h.eq_of_target hc hd (ht.trans hdt.symm)
    simp [Connection.outline, Connection.wire, hdt, hds, hflags]
  · simp [ht]

end Graph

/-! ### What programs ask for -/

/-- A property of each operation that a program asks for, in the state in which it is asked. -/
def Program.Throughout {Op : Type} {Reply : Op → Type} {ρ σ : Type}
    (answer : (op : Op) → σ → Reply op × σ) (P : Op → σ → Prop) :
    Program Op Reply ρ → σ → Prop
  | done _, _ => True
  | ask op next, s => P op s ∧ (next (answer op s).1).Throughout answer P (answer op s).2

theorem Program.throughout_of_invariant {Op : Type} {Reply : Op → Type} {ρ σ : Type}
    {answer : (op : Op) → σ → Reply op × σ} {P : Op → σ → Prop} {I : σ → Prop}
    (keep : ∀ op s, I s → I (answer op s).2) (hP : ∀ op s, I s → P op s)
    (p : Program Op Reply ρ) {s : σ} (h : I s) : p.Throughout answer P s := by
  induction p generalizing s with
  | done result => trivial
  | ask op next ih => exact ⟨hP op s h, ih _ (keep op s h)⟩

/-- An operation of the block at `i` neither reads from a stream that has been detached from nor
writes to one that has been closed. -/
def WorkOp.Respects {β : Type} (i : Nat) (op : WorkOp) (x : Execution β) : Prop :=
  match op with
  | peek port _ | take port _ | consume port _ =>
    ∀ s, Graph.inputStream? x.graph.connections ⟨i, port⟩ = some s → s.detached = false
  | publish port _ _ => ∀ s ∈ Graph.outputStreams x.graph.connections ⟨i, port⟩, s.closed = false
  | hook _ | input _ | output _ => True

namespace Execution

variable {β : Type} {x y z : Execution β} {i : Nat}

/-! ### What finishes no block -/

/-- No port, no connection and no flag changes, and no block finishes. -/
structure Retains (x y : Execution β) : Prop where
  ports : y.graph.nodes.map Node.ports = x.graph.nodes.map Node.ports
  outlines : y.graph.connections.map Connection.outline =
    x.graph.connections.map Connection.outline
  isFinished : y.isFinished = x.isFinished

namespace Retains

theorem of_graph_eq (h : y.graph = x.graph) : Retains x y :=
  ⟨by rw [h], by rw [h], funext fun j => by simp only [Execution.isFinished, h]⟩

theorem trans (h : Retains x y) (h' : Retains y z) : Retains x z :=
  ⟨h'.ports.trans h.ports, h'.outlines.trans h.outlines, h'.isFinished.trans h.isFinished⟩

theorem record (h : Retains x y) (j : Nat) (c : Call) : Retains x (y.record j c) :=
  h.trans (.of_graph_eq rfl)

theorem addLog (h : Retains x y) (lines : List LogLine) : Retains x (y.addLog lines) :=
  h.trans (.of_graph_eq rfl)

theorem sameWiring (h : Retains x y) : x.graph.SameWiring y.graph := by
  refine ⟨h.ports, ?_⟩
  have hwires := congrArg (List.map Prod.fst) h.outlines
  simpa [List.map_map, Function.comp_def, Connection.outline] using hwires

theorem setConnections {connections : List Connection}
    (h : connections.map Connection.outline = x.graph.connections.map Connection.outline) :
    Retains x (x.setConnections connections) :=
  ⟨rfl, h, rfl⟩

theorem modifyNode {f : Node β → Node β} (hports : ∀ n, (f n).ports = n.ports)
    (hstate : ∀ n, (f n).state = n.state) : Retains x (x.modifyNode i f) := by
  refine ⟨Graph.ports_modifyNode hports, rfl, funext fun j => ?_⟩
  rw [isFinished_eq, isFinished_eq, stateAt_modifyNode]
  split
  next hij =>
    subst hij
    simp [stateAt, hstate, Option.map_map, Function.comp_def]
  next => rfl

theorem setState {st : State} (h : x.isFinished i = st.isTerminal) :
    Retains x (x.setState i st) := by
  refine ⟨Graph.ports_modifyNode fun _ => rfl, rfl, funext fun j => ?_⟩
  rw [Execution.setState, isFinished_eq, isFinished_eq, stateAt_modifyNode]
  split
  next hij =>
    subst hij
    rw [isFinished_eq] at h
    cases hn : x.graph.node? i with
    | none => simp [stateAt, hn]
    | some n => simpa [stateAt, hn] using h.symm
  next => rfl

end Retains

theorem retains_callHook (x : Execution β) (i : Nat) (b : β) (hook : β → HookProgram β)
    (c : Call) : Retains x (x.callHook i b hook c) := by
  have hrun : Retains x (x.runHook (hook b)).2 := .of_graph_eq (runHook_frame (hook b) x).1
  refine Retains.record (hrun.trans (.modifyNode ?_ ?_)) i c <;> exact fun _ => rfl

theorem retains_answerWork (h : x.graph.Wired) (i : Nat) (op : WorkOp) :
    Retains x (answerWork i op x).2 := by
  cases op with
  | hook op =>
    refine .of_graph_eq ?_
    cases op with
    | send inbox m => simp only [answerWork, answerHook]; split <;> rfl
    | note entry => rfl
  | input port => exact .of_graph_eq rfl
  | output port => exact .of_graph_eq rfl
  | peek port limit =>
    simp only [answerWork]
    split
    · exact .of_graph_eq rfl
    next s hs =>
      refine Retains.addLog (.setConnections (h.outline_modifyInput hs ?_)) s.collectLog
      rfl
  | take port limit =>
    simp only [answerWork]
    split
    · exact .of_graph_eq rfl
    next s hs =>
      refine Retains.addLog (.setConnections (h.outline_modifyInput hs ?_)) s.collectLog
      rfl
  | consume port n =>
    simp only [answerWork]
    split
    · exact .of_graph_eq rfl
    next hs =>
      split
      · exact .of_graph_eq rfl
      next hconsume =>
        have hflags := Stream.flags_consume hconsume
        exact (Retains.setConnections (h.outline_modifyInput hs hflags)).addLog _
  | publish port samples tags =>
    rw [answerWork]
    exact (Retains.setConnections (Graph.outline_setOutputs _ (FanOut.flags_publish ..))).addLog _

/-! ### The invariant -/

/-- The flags of each stream tell whether the blocks that write and read it have finished. -/
structure Mirrored (x : Execution β) : Prop where
  wired : x.graph.Wired
  flags : ∀ c ∈ x.graph.connections, c.stream.map Stream.flags =
    some (x.isFinished c.source.block, x.isFinished c.target.block)

theorem Mirrored.of_retains (h : x.Mirrored) (hr : Retains x y) : y.Mirrored := by
  refine ⟨hr.sameWiring.wired h.wired, fun c hc => ?_⟩
  have hmem : c.outline ∈ y.graph.connections.map Connection.outline := List.mem_map_of_mem hc
  rw [hr.outlines] at hmem
  obtain ⟨d, hd, heq⟩ := List.mem_map.mp hmem
  obtain ⟨hwire, hflags⟩ := Prod.mk.inj heq
  have hsource : d.source = c.source := congrArg (·.source) hwire
  have htarget : d.target = c.target := congrArg (·.target) hwire
  rw [← hflags, h.flags d hd, hr.isFinished, hsource, htarget]

theorem Mirrored.respects (h : x.Mirrored) (hopen : x.isFinished i = false) (op : WorkOp) :
    op.Respects i x := by
  have hread : ∀ port s, Graph.inputStream? x.graph.connections ⟨i, port⟩ = some s →
      s.detached = false := fun port s hs => by
    obtain ⟨c, hc, ht, hcs⟩ := Graph.exists_of_inputStream? hs
    have hflags := h.flags c hc
    rw [hcs, ht, Option.map_some, Option.some.injEq] at hflags
    exact (congrArg Prod.snd hflags).trans hopen
  cases op with
  | hook _ | input _ | output _ => trivial
  | peek port _ | take port _ | consume port _ => exact hread port
  | publish port _ _ =>
    intro s hs
    obtain ⟨c, hc, hsrc, hcs⟩ := Graph.mem_outputStreams.mp hs
    have hflags := h.flags c hc
    rw [hcs, hsrc, Option.map_some, Option.some.injEq] at hflags
    exact (congrArg Prod.fst hflags).trans hopen

theorem Mirrored.throughout {ρ : Type} (h : x.Mirrored) (hopen : x.isFinished i = false)
    (p : Work ρ) : p.Throughout (answerWork i) (WorkOp.Respects i) x := by
  refine Program.throughout_of_invariant (I := fun y => y.Mirrored ∧ y.isFinished i = false)
    (fun op y hy => ?_) (fun op y hy => hy.1.respects hy.2 op) p ⟨h, hopen⟩
  have hr := retains_answerWork hy.1.wired i op
  exact ⟨hy.1.of_retains hr, by rw [hr.isFinished, hy.2]⟩

/-- All readers of a block cannot have detached while one of them is not finished. -/
theorem Mirrored.isDeserted (h : x.Mirrored) {c : Connection} (hc : c ∈ x.graph.connections)
    (hopen : x.isFinished c.target.block = false) {n : Node β}
    (hn : x.graph.node? c.source.block = some n) : x.isDeserted c.source.block n = false := by
  obtain ⟨s, hs, hflags⟩ := Option.map_eq_some_iff.mp (h.flags c hc)
  have hlive : s.detached = false := (congrArg Prod.snd hflags).trans hopen
  obtain ⟨m, p, hm, hp, -⟩ := (h.wired.links c hc).source
  cases hn.symm.trans hm
  have hmem : (p, c.source.port) ∈ n.outputs.zipIdx := List.mem_zipIdx_iff_getElem?.mpr hp
  have hstream : s ∈ Graph.outputStreams x.graph.connections c.source :=
    Graph.mem_outputStreams.mpr ⟨c, hc, rfl, hs⟩
  have hall : (x.graph.outputsOf c.source.block n).all OutputStatus.allDetached = false := by
    refine List.all_eq_false.mpr ⟨_, List.mem_map_of_mem hmem, ?_⟩
    simp only [Graph.outputStatus, FanOut.allDetached, List.all_eq_true, not_forall]
    exact ⟨s, hstream, by simp [hlive]⟩
  rw [Execution.isDeserted, hall, Bool.and_false]

/-! ### Calls on blocks -/

variable [Block β]

theorem retains_work (h : x.graph.Wired) (i : Nat) (n : Node β) : Retains x (x.work i n).2 := by
  have hrun : Retains x (x.runWork i (Block.work n.block)).2 :=
    Program.run_invariant (I := Retains x)
      (fun op y hy => hy.trans (retains_answerWork (hy.sameWiring.wired h) i op)) _ x
      (.of_graph_eq rfl)
  refine Retains.record (hrun.trans (.modifyNode ?_ ?_)) i (.work (x.work i n).1) <;>
    exact fun _ => rfl

theorem graph_finish (h : x.isFinished i = false) (reason : FinishReason) :
    (x.finish i reason).graph.nodes.map Node.ports = x.graph.nodes.map Node.ports ∧
      (x.finish i reason).graph.connections = withdraw i x.graph.connections := by
  simp only [isFinished] at h
  split at h
  · cases h
  next n hn =>
    rw [finish, hn]
    dsimp only
    rw [if_neg (by simp [h])]
    let y := x.setConnections (withdraw i x.graph.connections)
    have hports := (retains_callHook y i n.block Block.stop .stop).ports
    refine ⟨Eq.trans (Graph.ports_modifyNode ?_) hports,
      connections_callHook y i n.block Block.stop .stop⟩
    exact fun _ => rfl

namespace Mirrored

theorem finish (h : x.Mirrored) (i : Nat) (reason : FinishReason) :
    (x.finish i reason).Mirrored := by
  cases hopen : x.isFinished i with
  | true =>
    rw [finish_of_isFinished hopen]
    exact h
  | false =>
    obtain ⟨hports, hconn⟩ := graph_finish hopen reason
    have hwires : (withdraw i x.graph.connections).map Connection.wire =
        x.graph.connections.map Connection.wire := by
      rw [withdraw, List.map_map]
      exact List.map_congr_left fun _ _ => rfl
    refine ⟨Graph.SameWiring.wired ⟨hports, hconn ▸ hwires⟩ h.wired, fun c hc => ?_⟩
    rw [hconn] at hc
    obtain ⟨d, hd, rfl⟩ := List.mem_map.mp hc
    obtain ⟨s, hs, hflags⟩ := Option.map_eq_some_iff.mp (h.flags d hd)
    obtain ⟨hclosed, hdetached⟩ := Prod.mk.inj hflags
    simp only [isFinished_finish, ← hclosed, ← hdetached, hs]
    -- if the block feeds itself, both flags of its stream change
    by_cases hsource : d.source.block = i <;> by_cases htarget : d.target.block = i <;>
      simp [hsource, htarget, Ne.symm, Stream.flags, Stream.close, Stream.detach]

theorem pause (h : x.Mirrored) (i : Nat) : (x.pause i).Mirrored := by
  simp only [Execution.pause]
  split
  · exact h
  next n hn =>
    split
    next hrun =>
      have hcall := retains_callHook x i n.block Block.pause .pause
      refine h.of_retains (hcall.trans (.setState ?_))
      rw [hcall.isFinished, isFinished_eq, stateAt_of_node? hn, hrun]
      rfl
    next => exact h

theorem resume (h : x.Mirrored) (i : Nat) : (x.resume i).Mirrored := by
  simp only [Execution.resume]
  split
  · exact h
  next n hn =>
    split
    next hpaused =>
      have hcall := retains_callHook x i n.block Block.resume .resume
      refine h.of_retains (hcall.trans (.setState ?_))
      rw [hcall.isFinished, isFinished_eq, stateAt_of_node? hn, hpaused]
      rfl
    next => exact h

theorem invoke (h : x.Mirrored) (i : Nat) : (x.invoke i).2.Mirrored := by
  simp only [Execution.invoke]
  split
  · exact h
  next n hn =>
    split
    · exact h
    · split
      · exact h.finish i .detached
      · have hwork : (x.work i n).2.Mirrored := h.of_retains (retains_work h.wired i n)
        cases (x.work i n).1 with
        | crashed => exact hwork
        | failed e =>
          refine (hwork.finish i .failed).of_retains (.setState ?_)
          simp [isFinished_finish, State.isTerminal]
        | status status =>
          cases status with
          | ok => exact hwork
          | insufficientInput =>
            dsimp only
            split
            · exact hwork.finish i .endOfStream
            · exact hwork
          | insufficientOutput => exact hwork
          | endOfStream => exact hwork.finish i .endOfStream
          | done => exact hwork.finish i .done

theorem drives (h : x.Mirrored) (hd : x.Drives y) : y.Mirrored := by
  induction hd with
  | refl => exact h
  | tail _ hdrive ih =>
    cases hdrive with
    | invoke i => exact ih.invoke i
    | finish i reason => exact ih.finish i reason
    | pause i => exact ih.pause i
    | resume i => exact ih.resume i

end Mirrored

end Execution
end Dataflow
