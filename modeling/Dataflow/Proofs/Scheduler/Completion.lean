import Dataflow.Proofs.Flow.Pass
import Dataflow.Proofs.Flow.Start
import Dataflow.Proofs.Scheduler.Outcome

/-!
# Completion of runs

Without messages and pauses each turn of the loop makes a pass (`Loop.Smooth`). In an
orderly graph each pass reports progress, which makes the weight of the blocks grow; if the graph is
tamed there is a bound on that weight, so the run ends, and it ends with all blocks finished
(`Scheduler.run_completes`).
-/

namespace Dataflow

open Execution (Steady totalWeight)

namespace Loop

section

variable {β : Type} [Block β]

/-- The report of the pass that a turn makes while the scheduler runs. -/
def report (l : Loop β) (snapshot : PropertyMap) : PassReport :=
  ((l.meet.update fun s => s.drain snapshot).resume.makePass).1

/-- The loops that a run comes to, turn by turn. -/
inductive Reaches (snapshot : PropertyMap) (l : Loop β) : Loop β → Prop where
  | here : Reaches snapshot l l
  | turn {l' l'' : Loop β} : Reaches snapshot l l' → l'.turn snapshot = .next l'' →
      Reaches snapshot l l''

end

variable {g : Graph Builtin} {S : Nat → Signal} {p : Nat → Nat} {l : Loop Builtin}
  {snapshot : PropertyMap}

/-- A loop that is not disturbed by anyone, in the midst of a steady execution. -/
structure Smooth (g : Graph Builtin) (S : Nat → Signal) (p : Nat → Nat) (l : Loop Builtin) :
    Prop where
  steady : Steady g S p l.scheduler.toExecution
  lifecycle : l.scheduler.lifecycle = .running
  inbox : l.scheduler.inbox = []
  client : l.client = .absent
  unpaused : l.isPaused = false
  unfinished : l.scheduler.allFinished l.scheduler.everyBlock = false

theorem drain_of_inbox {s : Scheduler Builtin} (h : s.inbox = []) : s.drain snapshot = s := by
  rcases s with ⟨⟨graph, inboxId, inbox, trace, journal, log⟩, config, lifecycle, entered, replies⟩
  cases h
  rfl

namespace Smooth

variable (h : Smooth g S p l)
include h

theorem drained : (l.meet.update fun s => s.drain snapshot) = l := by
  have hmeet : l.meet = l := by
    rw [meet, h.client]
    rfl
  rw [hmeet]
  show { l with scheduler := l.scheduler.drain snapshot } = l
  rw [drain_of_inbox h.inbox]

theorem resumed : l.resume = l := by
  rw [resume, h.unpaused]
  rfl

theorem report_eq : l.report snapshot = l.makePass.1 := by
  rw [report, h.drained, h.resumed]

theorem turn_eq : l.turn snapshot = l.makePass.2.afterPass snapshot l.makePass.1 := by
  rw [Loop.turn, h.drained, act]
  dsimp only
  rw [h.lifecycle, h.resumed]

theorem progressed (ho : g.Orderly S) : (l.report snapshot).progressed = true := by
  rw [h.report_eq]
  exact h.steady.progressed ho h.unfinished

/-- A turn makes a pass that makes progress, and the run goes on unless all blocks have finished. -/
theorem turn (ho : g.Orderly S) (snapshot : PropertyMap) :
    (∃ s, l.turn snapshot = .ended (.ok ()) s ∧ s.lifecycle = .stopped) ∨
      ∃ l' p', l.turn snapshot = .next l' ∧ Smooth g S p' l' ∧
        totalWeight g p l.scheduler.toExecution < totalWeight g p' l'.scheduler.toExecution := by
  obtain ⟨p', hpassed⟩ := h.steady.runPass ho fun i => h.steady.lt_of_mem
  have hprog : l.makePass.1.progressed = true := h.steady.progressed ho h.unfinished
  have hfailure : l.makePass.1.failure = none := hpassed.failure
  have hweight : totalWeight g p l.scheduler.toExecution + 1 ≤
      totalWeight g p' l.makePass.2.scheduler.toExecution := by
    have hweight := hpassed.weight
    rw [h.steady.progressed ho h.unfinished, if_pos rfl] at hweight
    exact hweight
  rw [h.turn_eq, afterPass, hfailure, hprog]
  dsimp only
  split
  next =>
    have hreach : l.makePass.2.scheduler.lifecycle.canReach .stopped = true := by
      show l.scheduler.lifecycle.canReach .stopped = true
      rw [h.lifecycle]
      rfl
    obtain ⟨s, hs, -, hstopped, -⟩ := endIn_spec l.makePass.2.scheduler hreach _
    exact .inl ⟨s, hs, hstopped⟩
  next hopen =>
    refine .inr ⟨_, p', rfl, ⟨hpassed.steady, h.lifecycle, hpassed.inbox.trans h.inbox, h.client,
      h.unpaused, by simpa using hopen⟩, hweight⟩

theorem reaches (ho : g.Orderly S) {l' : Loop Builtin} (hl' : l.Reaches snapshot l') :
    ∃ p', Smooth g S p' l' := by
  induction hl' with
  | here => exact ⟨p, h⟩
  | turn _ hturn ih =>
    obtain ⟨p', h'⟩ := ih
    rcases h'.turn ho snapshot with ⟨s, hs, -⟩ | ⟨m, q, hm, hsmooth, -⟩
    · cases hturn.symm.trans hs
    · cases hturn.symm.trans hm
      exact ⟨q, hsmooth⟩

end Smooth

/-- If the weight of the blocks is bounded, the run ends with all of them finished. -/
theorem Smooth.run (h : Smooth g S p l) (ho : g.Orderly S) {b : Nat}
    (hb : ∀ p x, Steady g S p x → totalWeight g p x ≤ b) (snapshot : PropertyMap) :
    ∃ fuel s, l.run snapshot fuel = some (.ok (), s) ∧ s.lifecycle = .stopped := by
  -- each turn takes away from what the weight has left below its bound
  induction hk : b - totalWeight g p l.scheduler.toExecution using Nat.strong_induction_on
    generalizing l p with
  | _ k ih =>
    rcases h.turn ho snapshot with ⟨s, hs, hstopped⟩ | ⟨l', p', hl', h', hlt⟩
    · refine ⟨1, s, ?_, hstopped⟩
      rw [Loop.run, hs]
    · have hle := hb p' _ h'.steady
      obtain ⟨fuel, s, hrun, hstopped⟩ := ih _ (by omega) h' rfl
      refine ⟨fuel + 1, s, ?_, hstopped⟩
      rw [Loop.run, hl']
      exact hrun

end Loop

namespace Scheduler

section

variable {β : Type} [Block β] {s s' : Scheduler β}

/-- The loop with which a run begins that no client drives. -/
inductive Begins (s : Scheduler β) (snapshot : PropertyMap) : Loop β → Prop where
  | intro {s₁ s₂ s₃ : Scheduler β} : s.prepare = .ok s₁ → s₁.initialise = (.ok snapshot, s₂) →
      s₂.moveTo .running = .ok s₃ → Begins s snapshot (.begin s₃ .absent)

theorem Begins.run_eq {snapshot : PropertyMap} {l : Loop β} (h : s.Begins snapshot l)
    (hpolicy : l.scheduler.config.policy = .singleThreaded) (parallelism fuel : Nat) :
    s.run parallelism fuel .absent =
      (l.run snapshot fuel).map fun (result, s) => (result, s.answerRest snapshot result) := by
  cases h with
  | @intro s₁ s₂ s₃ hprepare hinit hmove =>
    have hpolicy : s₃.config.policy = .singleThreaded := hpolicy
    rw [run, hprepare]
    dsimp only
    rw [hinit]
    dsimp only
    rw [hmove]
    dsimp only [runByPolicy]
    rw [hpolicy]

end

variable {s : Scheduler Builtin} {S : Nat → Signal}

/-- If all sources have data, all blocks of a valid graph start. -/
theorem exists_initialise (hg : s.graph.Signals S) (hvalid : s.graph.validate = .ok ())
    (hdata : ∀ i n, s.graph.node? i = some n → n.block.HasData) :
    ∃ snapshot s', s.initialise = (.ok snapshot, s') ∧
      Steady s.graph S (fun _ => 0) s'.toExecution ∧
      (∀ i, s'.stateAt i = (s.graph.node? i).map fun _ => .running) ∧
      s'.lifecycle = s.lifecycle ∧ s'.inbox = s.inbox ∧ s'.config = s.config := by
  obtain ⟨y, hy, hinbox, hflows, hstates⟩ := Execution.startAll_flows
    (x := { s.toExecution with graph := s.graph.bind }) hg.sound rfl hdata
  have hsteady : Steady s.graph S (fun _ => 0) y := by
    refine ⟨hflows, fun i st hst => ?_, fun i => .inl rfl⟩
    rw [hstates] at hst
    obtain ⟨-, -, rfl⟩ := Option.map_eq_some_iff.mp hst
    exact .inl rfl
  let s' := ({ s with toExecution := y } : Scheduler Builtin).say .info
    (s!"Initialised {y.graph.nodes.length} blocks and " ++
      s!"{y.graph.connections.length} connections")
  refine ⟨y.graph.inspect, s', ?_, hsteady.of_graph rfl, hstates, rfl, hinbox, rfl⟩
  have hy : startAll (s.exec fun x => { x with graph := x.graph.bind }).toExecution
    (s.exec fun x => { x with graph := x.graph.bind }).everyBlock = (none, y) := hy
  rw [initialise, hvalid]
  dsimp only
  rw [hy]
  rfl

/-- The run begins with a loop in which all blocks run. -/
theorem exists_begins (hg : s.graph.Signals S) (hvalid : s.graph.validate = .ok ())
    (hne : s.graph.nodes ≠ []) (hdata : ∀ i n, s.graph.node? i = some n → n.block.HasData)
    (hrest : s.lifecycle.IsResting) (hinbox : s.inbox = []) :
    ∃ snapshot l, s.Begins snapshot l ∧ l.Smooth s.graph S (fun _ => 0) ∧
      l.scheduler.config = s.config := by
  obtain ⟨s₁, hs₁, hw₁, hl₁, hg₁, -⟩ := prepare_spec hrest
  obtain ⟨snapshot, s₂, hs₂, hsteady, hstates, hl₂, hinbox₂, hconfig₂⟩ :=
    exists_initialise (s := s₁) (by rwa [hg₁]) (by rwa [hg₁]) (by rwa [hg₁])
  rw [hg₁] at hsteady hstates
  have hreach : s₂.lifecycle.canReach .running = true := by
    rw [hl₂, hl₁]
    rfl
  obtain ⟨s₃, hs₃⟩ := moveTo_of_canReach hreach
  obtain ⟨hw₃, hl₃, hg₃, -⟩ := moveTo_spec hs₃
  have hinbox₃ : s₃.inbox = [] := by
    rw [inbox_moveTo hs₃, hinbox₂, inbox_prepare hs₁, hinbox]
  have hopen : s₃.allFinished s₃.everyBlock = false := by
    obtain ⟨n, rest, hnodes⟩ := List.exists_cons_of_ne_nil hne
    have hrun : s₃.stateAt 0 = some .running := by
      have hstate : s₃.stateAt 0 = s₂.stateAt 0 := by
        rw [Execution.stateAt, hg₃]
        rfl
      rw [hstate, hstates, Graph.node?, hnodes]
      rfl
    refine List.all_eq_false.mpr ⟨0, Execution.mem_everyBlock.mpr (by rw [hrun]; rfl), ?_⟩
    rw [Execution.isFinished_eq, hrun]
    exact Bool.false_ne_true
  exact ⟨snapshot, _, .intro hs₁ hs₂ hs₃,
    ⟨hsteady.of_graph hg₃, hl₃, hinbox₃, rfl, rfl, hopen⟩,
    (hw₃.config.trans hconfig₂).trans hw₁.config⟩

/-- A run on one thread that nobody disturbs ends, and the scheduler and all blocks have stopped, if
the graph was built, is valid, has blocks but no cycle, all sources have data with at most one tag
on each sample, and every way from an endless source to a sink passes a head. The run is that of a
loop, each pass of which reports progress, and never are there unfinished blocks none of which
achieves anything. It does not matter what earlier runs have done to the blocks. -/
theorem run_completes {g : Graph Builtin} (hbuilt : g.Built) (halike : g.Alike s.graph)
    (hvalid : s.graph.validate = .ok ()) (hne : s.graph.nodes ≠ []) (hacyclic : s.graph.Acyclic)
    (hdata : ∀ i n, s.graph.node? i = some n → n.block.HasData)
    (htags : ∀ i n, s.graph.node? i = some n → n.block.HasSparseTags) (htamed : s.graph.Tamed)
    (hpolicy : s.config.policy = .singleThreaded) (hrest : s.lifecycle.IsResting)
    (hinbox : s.inbox = []) (parallelism : Nat) :
    ∃ snapshot l, s.Begins snapshot l ∧
      (∀ fuel, s.run parallelism fuel .absent = (l.run snapshot fuel).map
        fun (result, s) => (result, s.answerRest snapshot result)) ∧
      (∀ l', l.Reaches snapshot l' → (l'.report snapshot).progressed = true ∧
        ∀ before after, l'.scheduler.everyBlock = before ++ after →
          ¬ (l'.scheduler.runPass before).2.IsStuck) ∧
      ∃ fuel s', s.run parallelism fuel .absent = some (.ok (), s') ∧ s'.lifecycle = .stopped ∧
        ∀ i st, s'.stateAt i = some st → st = .stopped := by
  have hsound := halike.sound hbuilt.sound
  obtain ⟨S, hsolves, -⟩ := hacyclic.exists_solves hsound
  have hg : s.graph.Signals S := ⟨hsound, hacyclic, hsolves⟩
  have ho : s.graph.Orderly S :=
    ⟨hg, fun _ _ => hsound.fed hvalid, fun _ _ => hg.sparse htags⟩
  obtain ⟨b, hb⟩ := Execution.exists_bound_weight hg htamed
  obtain ⟨snapshot, l, hbegins, hsmooth, hconfig⟩ :=
    exists_begins hg hvalid hne hdata hrest hinbox
  have hruns := hbegins.run_eq (by rw [hconfig, hpolicy]) parallelism
  refine ⟨snapshot, l, hbegins, hruns, fun l' hl' => ?_, ?_⟩
  · obtain ⟨p', hsmooth'⟩ := hsmooth.reaches ho hl'
    refine ⟨hsmooth'.progressed ho, fun before after hsplit => ?_⟩
    have hlt : ∀ i ∈ before, i < s.graph.nodes.length := by
      intro i hi
      refine hsmooth'.steady.lt_of_mem ?_
      rw [hsplit]
      exact List.mem_append_left _ hi
    obtain ⟨q, hpassed⟩ := hsmooth'.steady.runPass ho hlt
    exact hpassed.steady.not_isStuck ho
  · obtain ⟨fuel, s', hrun, hstopped⟩ := hsmooth.run ho hb snapshot
    have hu := untouched_rejectPending s' snapshot
    refine ⟨fuel, s'.rejectPending snapshot, ?_, hu.lifecycle.trans hstopped, ?_⟩
    · rw [hruns, hrun]
      rfl
    · have hlive : l.scheduler.lifecycle.IsLive := by
        rw [hsmooth.lifecycle]
        trivial
      cases (Loop.run_ending hlive hrun).before hu with
      | completed _ hq _ hfin =>
        exact stopped_of_isFinished hfin (hq.noneFailed hsmooth.steady.unpaused.noneFailed)

/-- Zeros without end, three of which a head passes to a sink. -/
def threeZeros : Graph Builtin :=
  let type : SampleType := .int .i32
  let g := ((Graph.empty .default).add .empty "NullSource" "" (.nullSource (.new type))).graph
  let g := (g.add .empty "Head" "" (.head { Head.new type with numItems := 3 })).graph
  let g := (g.add .empty "NullSink" "" (.nullSink (.new type))).graph
  match g.connect 0 (.index 0) 1 (.index 0) none with
  | .ok g =>
    match g.connect 1 (.index 0) 2 (.index 0) none with
    | .ok g => g
    | .error _ => g
  | .error _ => g

theorem built_threeZeros : threeZeros.Built := by
  unfold threeZeros
  dsimp only
  split
  next g hg =>
    have hbuilt : g.Built := .connect (.add _ _ _ _ (.add _ _ _ _ (.add _ _ _ _ (.empty _)))) hg
    split
    next g' hg' => exact .connect hbuilt hg'
    next => exact hbuilt
  next => exact .add _ _ _ _ (.add _ _ _ _ (.add _ _ _ _ (.empty _)))

theorem connections_threeZeros : threeZeros.connections =
    [⟨⟨0, 0⟩, ⟨1, 0⟩, none, .int .i32, none⟩, ⟨⟨1, 0⟩, ⟨2, 0⟩, none, .int .i32, none⟩] := rfl

theorem nodes_threeZeros : threeZeros.nodes.map Node.block =
    [.nullSource (.new (.int .i32)), .head { Head.new (.int .i32) with numItems := 3 },
      .nullSink (.new (.int .i32))] := rfl

theorem acyclic_threeZeros : threeZeros.Acyclic := by
  refine Graph.acyclic_of_lt ?_
  rintro i j ⟨c, hc, rfl, rfl⟩
  rw [connections_threeZeros] at hc
  simp only [List.mem_cons, List.not_mem_nil, or_false] at hc
  rcases hc with rfl | rfl <;> decide

theorem block_threeZeros {i : Nat} {n : Node Builtin} (hn : threeZeros.node? i = some n) :
    i = 0 ∧ n.block = .nullSource (.new (.int .i32)) ∨
      i = 1 ∧ n.block = .head { Head.new (.int .i32) with numItems := 3 } ∨
      i = 2 ∧ n.block = .nullSink (.new (.int .i32)) := by
  have hblock : (threeZeros.nodes.map Node.block)[i]? = some n.block := by
    rw [List.getElem?_map]
    exact congrArg (Option.map Node.block) hn
  rw [nodes_threeZeros] at hblock
  rcases i with _ | _ | _ | i
  · exact .inl ⟨rfl, (Option.some.inj hblock).symm⟩
  · exact .inr (.inl ⟨rfl, (Option.some.inj hblock).symm⟩)
  · exact .inr (.inr ⟨rfl, (Option.some.inj hblock).symm⟩)
  · cases hblock

theorem tamed_threeZeros : threeZeros.Tamed := by
  intro i j n m hn hendless hm hsink hway
  obtain rfl : i = 0 := by
    rcases block_threeZeros hn with ⟨hi, -⟩ | ⟨-, hb⟩ | ⟨-, hb⟩
    · exact hi
    · rw [hb] at hendless
      cases hendless
    · rw [hb] at hendless
      cases hendless
  rcases hway.cases_head with rfl | ⟨k, ⟨⟨c, hc, hsource, rfl⟩, hbypass⟩, -⟩
  · rcases block_threeZeros hm with ⟨-, hb⟩ | ⟨hi, -⟩ | ⟨hi, -⟩
    · rw [hb] at hsink
      cases hsink
    · cases hi
    · cases hi
  · -- the only way out of the source leads to the head
    rw [connections_threeZeros] at hc
    simp only [List.mem_cons, List.not_mem_nil, or_false] at hc
    rcases hc with rfl | rfl
    · cases hbypass _ rfl
    · cases hsource

/-- The run ends although its source does not. -/
theorem run_completes_threeZeros :
    let s := Scheduler.new threeZeros .default 0
    ∃ snapshot l, s.Begins snapshot l ∧
      (∀ fuel, s.run 1 fuel .absent = (l.run snapshot fuel).map
        fun (result, s) => (result, s.answerRest snapshot result)) ∧
      (∀ l', l.Reaches snapshot l' → (l'.report snapshot).progressed = true ∧
        ∀ before after, l'.scheduler.everyBlock = before ++ after →
          ¬ (l'.scheduler.runPass before).2.IsStuck) ∧
      ∃ fuel s', s.run 1 fuel .absent = some (.ok (), s') ∧ s'.lifecycle = .stopped ∧
        ∀ i st, s'.stateAt i = some st → st = .stopped := by
  intro s
  have hdata : ∀ i n, threeZeros.node? i = some n → n.block.HasData := by
    intro i n hn
    rcases block_threeZeros hn with ⟨-, hb⟩ | ⟨-, hb⟩ | ⟨-, hb⟩ <;> rw [hb] <;> trivial
  have htags : ∀ i n, threeZeros.node? i = some n → n.block.HasSparseTags := by
    intro i n hn
    rcases block_threeZeros hn with ⟨-, hb⟩ | ⟨-, hb⟩ | ⟨-, hb⟩ <;> rw [hb] <;> trivial
  exact run_completes (s := s) built_threeZeros (.refl built_threeZeros.sound) rfl
    (List.cons_ne_nil _ _) acyclic_threeZeros hdata htags tamed_threeZeros rfl trivial rfl 1

end Scheduler
end Dataflow
