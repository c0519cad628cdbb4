import Dataflow.Proofs.Flow.Start
import Mathlib

/-!
# Schedules

A schedule is any sequence of invocations of blocks, with pauses and resumptions between them
(`Execution.follow`). Under every schedule a vector sink holds what has come through so far of the
signal of the block before it; and if no invocation fails, it holds all of that signal once the
blocks have finished (`Execution.follow_faithful`).
-/

namespace Dataflow

open Lifecycle (State)

/-- What a scheduler does to the block at a position while a graph runs. -/
inductive Move where
  | invoke (block : Nat)
  | pause (block : Nat)
  | resume (block : Nat)

/-- A sink holds the first `k` samples of a signal, and the tags on them. -/
structure VectorSink.Holds (b : VectorSink) (T : Signal) (k : Nat) : Prop where
  covers : T.Covers k
  data : b.data.toList = T.samples 0 k
  tags : b.tags.toList = T.tags 0 k

/-- A result of an invocation that is no failure. -/
def Invocation.IsQuiet (r : Invocation) : Prop := r ≠ .crashed ∧ ∀ e, r ≠ .failed e

namespace Execution

/-- Make moves one after the other; gives the results of the invocations. -/
def follow {β : Type} [Block β] (x : Execution β) : List Move → List Invocation × Execution β
  | [] => ([], x)
  | .invoke i :: rest =>
    let (result, x) := x.invoke i
    let (results, x) := x.follow rest
    (result :: results, x)
  | .pause i :: rest => (x.pause i).follow rest
  | .resume i :: rest => (x.resume i).follow rest

variable {g : Graph Builtin} {S : Nat → Signal} {p : Nat → Nat} {x y : Execution Builtin} {i : Nat}
  {n : Node Builtin}

/-! ### Pauses -/

/-- Block `i`, which had not finished, has gone from one state to another. -/
def Restated (i : Nat) (x y : Execution Builtin) : Prop :=
  ∃ n st, x.graph.node? i = some n ∧ n.isFinished = false ∧ st.isTerminal = false ∧
    y.graph = x.graph.modifyNode i fun m => { m with state := st }

theorem pause_restated (x : Execution Builtin) (i : Nat) :
    x.pause i = x ∨ Restated i x (x.pause i) := by
  unfold pause
  split
  · exact .inl rfl
  next n hn =>
    split
    next hrun =>
      refine .inr ⟨n, .paused, hn, Node.isFinished_of_running hrun, rfl, ?_⟩
      show ({ x.graph with
        nodes := (x.graph.nodes.modify i fun m => { m with block := n.block }).modify i fun m =>
          { m with state := .paused } } : Graph Builtin) = _
      rw [modify_block hn]
      rfl
    next => exact .inl rfl

theorem resume_restated (x : Execution Builtin) (i : Nat) :
    x.resume i = x ∨ Restated i x (x.resume i) := by
  unfold resume
  split
  · exact .inl rfl
  next n hn =>
    split
    next hpaused =>
      refine .inr ⟨n, .running, hn, (by simp [Node.isFinished, hpaused, State.isTerminal]), rfl, ?_⟩
      show ({ x.graph with
        nodes := (x.graph.nodes.modify i fun m => { m with block := n.block }).modify i fun m =>
          { m with state := .running } } : Graph Builtin) = _
      rw [modify_block hn]
      rfl
    next => exact .inl rfl

namespace Restated

theorem node (h : Restated i x y) : ∃ st, st.isTerminal = false ∧
    ∀ j, y.graph.node? j = if i = j then (x.graph.node? j).map fun m => { m with state := st }
      else x.graph.node? j := by
  obtain ⟨n, st, hn, hopen, hst, hy⟩ := h
  refine ⟨st, hst, fun j => ?_⟩
  rw [hy]
  simp only [Graph.modifyNode, Graph.node?, List.getElem?_modify]
  split
  next => rfl
  next => simp

theorem isFinished (h : Restated i x y) (j : Nat) : y.isFinished j = x.isFinished j := by
  obtain ⟨st, hst, hnode⟩ := h.node
  obtain ⟨n, -, hn, hopen, -⟩ := h
  simp only [Execution.isFinished, hnode]
  by_cases hij : i = j
  · subst hij
    rw [if_pos rfl, hn]
    exact hst.trans hopen.symm
  · rw [if_neg hij]

theorem consumed (h : Restated i x y) (j : Nat) : y.graph.consumed j = x.graph.consumed j := by
  obtain ⟨n, st, -, -, -, hy⟩ := h
  rw [hy]
  rfl

theorem flows (h : Restated i x y) (hflows : Flows g S p x) : Flows g S p y := by
  have hfinished := h.isFinished
  obtain ⟨st, hst, hnode⟩ := h.node
  have hconsumed := h.consumed
  obtain ⟨n, st', hn, hopen, -, hy⟩ := h
  refine ⟨hflows.toCarried.blocks ?_ (by rw [hy]; rfl) hfinished, fun j k hk hfine => ?_⟩
  · rw [hy]
    exact hflows.alike.modifyNode fun _ _ => ⟨rfl, rfl, rfl⟩
  · rw [hnode] at hk
    rw [hconsumed]
    split at hk
    next hij =>
      subst hij
      obtain ⟨m, hm, rfl⟩ := Option.map_eq_some_iff.mp hk
      cases hn.symm.trans hm
      refine hflows.blocks i n hn fun he => ?_
      simp [Node.isFinished, he, State.isTerminal] at hopen
    next => exact hflows.blocks j k hk hfine

theorem completes (h : Restated i x y) (hdone : Completes g S p x) : Completes g S p y := by
  have hfinished := h.isFinished
  have hconsumed := h.consumed
  obtain ⟨st, hst, hnode⟩ := h.node
  refine ⟨fun j hj => ?_, fun j k hk hstop hout => ?_⟩
  · have hj' : x.stateAt j = some .stopped := by
      rw [stateAt, hnode] at hj
      split at hj
      next =>
        rw [Option.map_map] at hj
        obtain ⟨m, -, hst'⟩ := Option.map_eq_some_iff.mp hj
        have hst' : st = .stopped := hst'
        rw [hst'] at hst
        cases hst
      next => exact hj
    refine (hdone.served j hj').imp (fun hall k hk => ?_) id
    rw [hfinished]
    exact hall k hk
  · rw [hnode] at hk
    rw [hconsumed]
    split at hk
    next =>
      obtain ⟨m, -, rfl⟩ := Option.map_eq_some_iff.mp hk
      have hstop : st = .stopped := hstop
      rw [hstop] at hst
      cases hst
    next => exact hdone.drained j k hk hstop hout

end Restated

/-! ### Runs -/

theorem invoke_noneFailed (h : (x.invoke i).1.IsQuiet) (hnone : NoneFailed x.stateAt) :
    NoneFailed (x.invoke i).2.stateAt := by
  have hwent := invoke_went x i
  have hquiet : Invocation.failure? x i (x.invoke i).1 = none := by
    cases hr : (x.invoke i).1 with
    | failed e => exact absurd hr (h.2 e)
    | crashed => exact absurd hr h.1
    | _ => rfl
  rw [hquiet] at hwent
  cases hwent with
  | quietly hq => exact hq.noneFailed hnone

/-- Samples flow along every schedule, and no block stops too early on one without failures. -/
theorem follow_flows (hg : g.Signals S) (h : Flows g S p x) (moves : List Move) :
    ∃ p', Flows g S p' (x.follow moves).2 ∧
      ((∀ r ∈ (x.follow moves).1, r.IsQuiet) → NoneFailed x.stateAt → Completes g S p x →
        NoneFailed (x.follow moves).2.stateAt ∧ Completes g S p' (x.follow moves).2) := by
  induction moves generalizing x p with
  | nil => exact ⟨p, h, fun _ hnone hdone => ⟨hnone, hdone⟩⟩
  | cons move rest ih =>
    cases move with
    | invoke i =>
      obtain ⟨q, hi⟩ := invoke_invoked h hg i
      obtain ⟨p', hflows, hdone⟩ := ih (h.invoked hg hi)
      refine ⟨p', hflows, fun hquiet hnone hcompletes => ?_⟩
      have hr : (x.invoke i).1.IsQuiet := hquiet _ (List.mem_cons_self ..)
      exact hdone (fun r hr => hquiet r (List.mem_cons_of_mem _ hr)) (invoke_noneFailed hr hnone)
        (hcompletes.invoked h hg hnone hr.2 hi)
    | pause i =>
      have hnone' : NoneFailed x.stateAt → NoneFailed (x.pause i).stateAt :=
        Quietly.noneFailed (extends_pause x i)
      rcases pause_restated x i with heq | hst
      · rw [heq] at hnone'
        obtain ⟨p', hflows, hdone⟩ := ih h
        rw [follow, heq]
        exact ⟨p', hflows, hdone⟩
      · obtain ⟨p', hflows, hdone⟩ := ih (hst.flows h)
        exact ⟨p', hflows, fun hquiet hnone hcompletes =>
          hdone hquiet (hnone' hnone) (hst.completes hcompletes)⟩
    | resume i =>
      have hnone' : NoneFailed x.stateAt → NoneFailed (x.resume i).stateAt :=
        Quietly.noneFailed (extends_resume x i)
      rcases resume_restated x i with heq | hst
      · rw [heq] at hnone'
        obtain ⟨p', hflows, hdone⟩ := ih h
        rw [follow, heq]
        exact ⟨p', hflows, hdone⟩
      · obtain ⟨p', hflows, hdone⟩ := ih (hst.flows h)
        exact ⟨p', hflows, fun hquiet hnone hcompletes =>
          hdone hquiet (hnone' hnone) (hst.completes hcompletes)⟩

/-- What a sink holds while samples flow. -/
theorem Flows.holds (h : Flows g S p x) (hg : g.Signals S) {b : VectorSink}
    (hn : x.graph.node? i = some n) (hb : n.block = .vectorSink b) :
    b.Holds (g.inputSignal S i) (x.graph.consumed i) := by
  have hdone := h.blocks i n hn fun _ => by rw [hb]; rfl
  rw [hb] at hdone
  refine ⟨?_, hdone.1, hdone.2⟩
  cases hfeed : x.graph.feed? i with
  | none =>
    rw [Graph.consumed, hfeed]
    exact fun k hk => absurd hk (Nat.not_lt_zero k)
  | some s =>
    obtain ⟨c, -, -, -, hinput, hcarries, -⟩ := h.feed hg hfeed
    have hwritten := hcarries.written_eq
    have hwritten' := hcarries.written_le
    rw [consumed_eq hfeed, hinput]
    exact (h.covers c.source.block).mono (by omega)

/-- Once a built graph has been bound and started, which it can be if its vector sources have data,
each vector sink holds under every schedule the samples and tags that begin the signal of the block
before it, and all of that signal once it has finished and no invocation has failed. -/
theorem follow_faithful (hbuilt : g.Built) (hacyclic : g.Acyclic)
    (hdata : ∀ i n, g.node? i = some n → n.block.HasData) (hx : x.graph = g.bind) :
    ∃ y, Scheduler.startAll x x.everyBlock = (none, y) ∧
      ∀ (moves : List Move) (i j : Nat) (n : Node Builtin) (b : VectorSink),
        (y.follow moves).2.graph.node? i = some n → n.block = .vectorSink b →
        g.upstream? i = some j → ∃ T k, g.Emits j T ∧ b.Holds T k ∧
          ((∀ r ∈ (y.follow moves).1, r.IsQuiet) → (y.follow moves).2.isFinished i = true →
            T.EndsAt k) := by
  have hsound := hbuilt.sound
  obtain ⟨S, hsolves, hemits⟩ := hacyclic.exists_solves hsound
  have hg : g.Signals S := ⟨hsound, hacyclic, hsolves⟩
  obtain ⟨y, hy, -, hflows, hstates⟩ := startAll_flows hsound hx hdata
  refine ⟨y, hy, fun moves i j n b hn hb hup => ?_⟩
  obtain ⟨p, hflows', hdone⟩ := follow_flows hg hflows moves
  have hinput : g.inputSignal S i = S j := by
    rw [Graph.inputSignal, hup]
    rfl
  refine ⟨S j, (y.follow moves).2.graph.consumed i, ?_, ?_, fun hquiet hfinished => ?_⟩
  · exact hemits j (hsound.feeds_lt (Graph.feeds_of_upstream? hup)).1
  · rw [← hinput]
    exact hflows'.holds hg hn hb
  · have hrunning : ∀ k st, y.stateAt k = some st → st = .running := by
      intro k st hst
      rw [hstates] at hst
      obtain ⟨-, -, rfl⟩ := Option.map_eq_some_iff.mp hst
      rfl
    have hnone : NoneFailed y.stateAt := by
      intro k hk
      cases hrunning k _ hk
    have hcompletes : Completes g S (fun _ => 0) y := by
      refine ⟨fun k hk => ?_, fun k m hm hstop => ?_⟩
      · cases hrunning k _ hk
      have hrun := hrunning k _ (stateAt_of_node? hm)
      rw [hstop] at hrun
      cases hrun
    obtain ⟨hnone', hcompletes'⟩ := hdone hquiet hnone hcompletes
    have hstopped := stopped_of_isFinished hnone' hn hfinished
    rw [stateAt_of_node? hn, Option.some.injEq] at hstopped
    have hend := hcompletes'.drained i n hn hstopped (by rw [hb]; rfl)
    rw [hinput] at hend
    exact hend

/-- A source of two samples, the second of which carries a tag, and a sink. -/
def sourceToSink : Graph Builtin :=
  let source : Builtin := .vectorSource { VectorSource.new (.int .i32) with
    data := [.int .i32 7, .int .i32 8], tags := [⟨1, []⟩] }
  let sink : Builtin := .vectorSink (.new (.int .i32))
  let g := ((Graph.empty .default).add .empty "VectorSource" "" source).graph
  let g := (g.add .empty "VectorSink" "" sink).graph
  match g.connect 0 (.index 0) 1 (.index 0) none with
  | .ok g => g
  | .error _ => g

theorem built_sourceToSink : sourceToSink.Built := by
  unfold sourceToSink
  dsimp only
  split
  next g hg => exact .connect (.add _ _ _ _ (.add _ _ _ _ (.empty _))) hg
  next => exact .add _ _ _ _ (.add _ _ _ _ (.empty _))

theorem connections_sourceToSink :
    sourceToSink.connections = [⟨⟨0, 0⟩, ⟨1, 0⟩, none, .int .i32, none⟩] := rfl

theorem acyclic_sourceToSink : sourceToSink.Acyclic := by
  refine Graph.acyclic_of_lt ?_
  rintro i j ⟨c, hc, rfl, rfl⟩
  rw [connections_sourceToSink, List.mem_singleton] at hc
  rw [hc]
  decide

theorem nodes_sourceToSink : ∃ n m, sourceToSink.nodes = [n, m] ∧
    n.block = .vectorSource { VectorSource.new (.int .i32) with
      data := [.int .i32 7, .int .i32 8], tags := [⟨1, []⟩] } ∧
    m.block = .vectorSink (.new (.int .i32)) := by
  refine ⟨_, _, rfl, ?_, rfl⟩
  exact congrArg (fun tags => Builtin.vectorSource { VectorSource.new (.int .i32) with
    data := [.int .i32 7, .int .i32 8], tags }) (List.mergeSort_singleton _)

theorem hasData_sourceToSink (i : Nat) (n : Node Builtin) (hn : sourceToSink.node? i = some n) :
    n.block.HasData := by
  obtain ⟨source, sink, hnodes, hsource, hsink⟩ := nodes_sourceToSink
  have hmem := List.mem_of_getElem? hn
  rw [hnodes] at hmem
  simp only [List.mem_cons, List.not_mem_nil, or_false] at hmem
  rcases hmem with rfl | rfl
  · rw [hsource]
    exact List.cons_ne_nil _ _
  · rw [hsink]
    trivial

/-- What a sink holds that has got all of the signal of the source. -/
theorem eq_of_holds_sourceToSink {T : Signal} {b : VectorSink} {k : Nat}
    (hemits : sourceToSink.Emits 0 T) (hholds : b.Holds T k) (hend : T.EndsAt k) :
    b.data.toList = [.int .i32 7, .int .i32 8] ∧ b.tags.toList = [⟨1, []⟩] := by
  obtain ⟨source, sink, hnodes, hsource, -⟩ := nodes_sourceToSink
  have hnode : sourceToSink.node? 0 = some source := by rw [Graph.node?, hnodes]; rfl
  have hT := hemits.unique (.unfed hnode rfl)
  rw [hsource] at hT
  subst hT
  have hk : k = 2 := by
    have h1 : 1 < k := (hend 1).mp rfl
    have h2 : ¬ 2 < k := by
      intro h2
      cases (hend 2).mpr h2
    omega
  rw [hholds.data, hholds.tags, hk]
  exact ⟨rfl, rfl⟩

/-- The sink ends up with both samples and the tag, whatever the schedule, and there is one after
which it has finished. -/
theorem follow_faithful_sourceToSink :
    let x := (Scheduler.new sourceToSink.bind .default 0).toExecution
    let once : List Move := [.invoke 0, .pause 1, .invoke 1, .resume 1, .invoke 1, .invoke 1]
    ∃ y, Scheduler.startAll x x.everyBlock = (none, y) ∧
      (∀ (moves : List Move) (n : Node Builtin) (b : VectorSink),
        (y.follow moves).2.graph.node? 1 = some n → n.block = .vectorSink b →
        (∀ r ∈ (y.follow moves).1, r.IsQuiet) → (y.follow moves).2.isFinished 1 = true →
        b.data.toList = [.int .i32 7, .int .i32 8] ∧ b.tags.toList = [⟨1, []⟩]) ∧
      (y.follow once).1 = [.finished, .idle, .progress, .finished] ∧
      (y.follow once).2.isFinished 1 = true ∧
      ∃ n b, (y.follow once).2.graph.node? 1 = some n ∧ n.block = .vectorSink b ∧
        b.data.toList = [.int .i32 7, .int .i32 8] ∧ b.tags.toList = [⟨1, []⟩] := by
  intro x once
  obtain ⟨y, hy, hall⟩ :=
    follow_faithful (x := x) built_sourceToSink acyclic_sourceToSink hasData_sourceToSink rfl
  have hcollected : ∀ (moves : List Move) (n : Node Builtin) (b : VectorSink),
      (y.follow moves).2.graph.node? 1 = some n → n.block = .vectorSink b →
      (∀ r ∈ (y.follow moves).1, r.IsQuiet) → (y.follow moves).2.isFinished 1 = true →
      b.data.toList = [.int .i32 7, .int .i32 8] ∧ b.tags.toList = [⟨1, []⟩] := by
    intro moves n b hn hb hquiet hfinished
    obtain ⟨T, k, hemits, hholds, hend⟩ := hall moves 1 0 n b hn hb rfl
    exact eq_of_holds_sourceToSink hemits hholds (hend hquiet hfinished)
  have honce : ((Scheduler.startAll x x.everyBlock).2.follow once).1 =
        [.finished, .idle, .progress, .finished] ∧
      ((Scheduler.startAll x x.everyBlock).2.follow once).2.isFinished 1 = true ∧
      (((Scheduler.startAll x x.everyBlock).2.follow once).2.graph.node? 1).map
        (fun n => n.block.kind) = some .vectorSink := by
    refine ⟨?_, ?_, ?_⟩ <;> cbv
  rw [hy] at honce
  obtain ⟨hresults, hfinished, hkind⟩ := honce
  obtain ⟨n, hn, hkind⟩ := Option.map_eq_some_iff.mp hkind
  have hquiet : ∀ r ∈ (y.follow once).1, r.IsQuiet := by
    rw [hresults]
    simp [Invocation.IsQuiet]
  cases hb : n.block with
  | vectorSink b =>
    exact ⟨y, hy, hcollected, hresults, hfinished, n, b, hn, hb,
      hcollected once n b hn hb hquiet hfinished⟩
  | _ =>
    rw [hb] at hkind
    cases hkind

end Execution
end Dataflow
