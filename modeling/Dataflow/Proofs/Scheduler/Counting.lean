import Dataflow.Proofs.Scheduler.Containment
import Dataflow.Proofs.Scheduler.Heeding
import Dataflow.Proofs.Scheduler.Shifts

/-!
# Counting finished blocks

The coordinator of a run on several workers goes by a number, the sum of what their passes report.
Together with what the passes that are underway are yet to report, it is the number of finished
blocks at any time (`Shift.Counts`). Most of what happens in a run concerns neither
(`Pool.Idles`); an invocation finishes a block and adds it to the report of its pass. So the
coordinator sees that all blocks have finished as soon as the last of them has been reported, and
not before (`Pool.counting_exact`).
-/

namespace Dataflow

open Lifecycle (State)

variable {β : Type}

/-- No message leads into the stopped state. -/
theorem Lifecycle.State.of_heeding_stopped {st : State} {m : Message}
    (h : st.heeding m = .stopped) : st = .stopped := by
  simp only [State.heeding] at h
  split at h
  · exact h
  next target htarget =>
    split at h
    · have hrequestable := isRequestable_of_asked htarget
      rw [h] at hrequestable
      cases hrequestable
    · exact h

namespace Execution

variable {x y z : Execution β} {i : Nat} {n n' : Node β}

/-- The same blocks are finished. -/
def SameEnds (x y : Execution β) : Prop :=
  y.graph.nodes.map Node.isFinished = x.graph.nodes.map Node.isFinished

namespace SameEnds

theorem of_eq (h : y.graph = x.graph) : SameEnds x y := by rw [SameEnds, h]

theorem trans (h : SameEnds x y) (h' : SameEnds y z) : SameEnds x z := Eq.trans h' h

theorem length_nodes (h : SameEnds x y) : y.graph.nodes.length = x.graph.nodes.length := by
  simpa using congrArg List.length h

theorem terminalBlocks (h : SameEnds x y) : y.graph.terminalBlocks = x.graph.terminalBlocks := by
  have hcount : ∀ g : Graph β, g.terminalBlocks = (g.nodes.map Node.isFinished).countP id :=
    fun g => by rw [List.countP_map, Function.id_comp, Graph.terminalBlocks]
  rw [hcount, hcount, h]

theorem of_nodes_eq (hn : x.graph.node? i = some n) (hy : y.graph.nodes = x.graph.nodes.set i n')
    (h : n'.isFinished = n.isFinished) : SameEnds x y := by
  have hn : x.graph.nodes[i]? = some n := hn
  rw [SameEnds, hy]
  exact map_set_of_getElem? (by rw [List.getElem?_map, hn, Option.map_some, h])

theorem foldl {f : Execution β → Nat → Execution β} (hf : ∀ x i, SameEnds x (f x i))
    (x : Execution β) (group : List Nat) : SameEnds x (group.foldl f x) :=
  List.foldlRecOn group f (motive := SameEnds x) rfl fun _ h i _ => h.trans (hf _ i)

end SameEnds

theorem allFinished_iff : x.allFinished x.everyBlock = true ↔
    x.graph.nodes.length ≤ x.graph.terminalBlocks := by
  have hcount : x.graph.nodes.length ≤ x.graph.terminalBlocks ↔
      x.graph.terminalBlocks = x.graph.nodes.length :=
    ⟨fun h => Nat.le_antisymm x.graph.terminalBlocks_le h, fun h => h.ge⟩
  rw [hcount, Graph.terminalBlocks, List.countP_eq_length, List.forall_mem_iff_forall_getElem,
    allFinished, List.all_eq_true]
  simp only [everyBlock, List.mem_range]
  refine forall_congr' fun i => forall_congr' fun hi => ?_
  rw [isFinished_of_node? (List.getElem?_eq_getElem hi)]

variable [Block β]

theorem sameEnds_pause (x : Execution β) (i : Nat) : SameEnds x (x.pause i) := by
  cases hn : x.graph.node? i with
  | none =>
    rw [pause, hn]
    rfl
  | some n =>
    by_cases hrun : n.state = .running
    · obtain ⟨block, hnodes⟩ := nodes_pause hn hrun
      exact .of_nodes_eq hn hnodes (Node.isFinished_of_running hrun).symm
    · simp only [pause, hn, hrun, if_false]
      rfl

theorem sameEnds_resume (x : Execution β) (i : Nat) : SameEnds x (x.resume i) := by
  cases hn : x.graph.node? i with
  | none =>
    rw [resume, hn]
    rfl
  | some n =>
    by_cases hpaused : n.state = .paused
    · obtain ⟨block, hnodes⟩ := nodes_resume hn hpaused
      refine .of_nodes_eq hn hnodes ?_
      rw [Node.isFinished, Node.isFinished, hpaused]
      rfl
    · simp only [resume, hn, hpaused, if_false]
      rfl

theorem sameEnds_answerFrom (x : Execution β) (group : List Nat) (m : Message) :
    SameEnds x (x.answerFrom group m).2 := by
  simp only [answerFrom]
  split
  · rfl
  split
  · rfl
  next i _ n hn =>
    refine .of_nodes_eq hn (nodes_modifyNode hn _) ?_
    rw [Node.isFinished, (answer_frame n m).2, Node.isFinished]

theorem stopAll_of_complete (h : ∀ i, x.isFinished i = true) (group : List Nat) :
    x.stopAll group = x :=
  List.foldlRecOn group _ (motive := fun y : Execution β => y = x) rfl fun _ hy i _ => by
    rw [hy, finish_of_isFinished (h i)]

end Execution

namespace Pool

open Execution (SameEnds)

variable {p q : Pool β} {i : Nat} {w : Worker}

/-- A run goes on without any block finishing or being reported, and without stopping. -/
structure Idles (p q : Pool β) : Prop where
  finishedBlocks : q.finishedBlocks = p.finishedBlocks
  ends : SameEnds p.scheduler.toExecution q.scheduler.toExecution
  statuses : q.workers.map Worker.status = p.workers.map Worker.status
  stopped : q.scheduler.lifecycle = .stopped → p.scheduler.lifecycle = .stopped

namespace Idles

theorem refl (p : Pool β) : Idles p p := ⟨rfl, rfl, rfl, id⟩

theorem trans {r : Pool β} (h : Idles p q) (h' : Idles q r) : Idles p r :=
  ⟨h'.finishedBlocks.trans h.finishedBlocks, h.ends.trans h'.ends,
    h'.statuses.trans h.statuses, fun hst => h.stopped (h'.stopped hst)⟩

theorem fail (p : Pool β) (e : SchedulerError) : Idles p (p.fail e) :=
  ⟨rfl, rfl, rfl, fun h => by cases h⟩

theorem setWorker (h : (p.workers.map Worker.status)[i]? = some w.status) :
    Idles p (p.setWorker i w) :=
  ⟨rfl, rfl, map_set_of_getElem? h, id⟩

theorem reply (p : Pool β) (m : Message) (data : Except MessageError PropertyMap) :
    Idles p { p with scheduler := p.scheduler.reply m data } := by
  have hu := Scheduler.untouched_reply p.scheduler m data
  refine ⟨rfl, .of_eq hu.graph, rfl, fun h => ?_⟩
  exact hu.lifecycle.symm.trans h

theorem meet (p : Pool β) : Idles p p.meet := by
  have hu := p.client.untouched_move p.scheduler p.now
  exact ⟨rfl, .of_eq hu.graph, rfl, fun h => hu.lifecycle.symm.trans h⟩

theorem settleIn (p : Pool β) {st : State} (hst : st ≠ .stopped) (text : String) :
    Idles p (p.settleIn st text) := by
  simp only [Pool.settleIn]
  split
  · exact .refl p
  next s hmove =>
    obtain ⟨-, hlife, hgraph, -⟩ := Scheduler.moveTo_spec hmove
    exact ⟨rfl, .of_eq hgraph, rfl, fun h => absurd (hlife.symm.trans h) hst⟩

theorem route (snapshot : PropertyMap) (p : Pool β) (m : Message) :
    Idles p (p.route snapshot m) := by
  simp only [Pool.route]
  split
  next hm =>
    refine ⟨rfl, .of_eq (Scheduler.graph_handleOwn ..), rfl, fun h => ?_⟩
    rw [Scheduler.lifecycle_handleOwn p.scheduler snapshot hm] at h
    exact State.of_heeding_stopped h
  split
  · exact reply ..
  split
  next hw =>
    split
    · exact setWorker (by simp [hw])
    · exact reply ..
  · exact reply ..

theorem routeAll (p : Pool β) (snapshot : PropertyMap) : Idles p (p.routeAll snapshot) :=
  List.foldlRecOn p.scheduler.inbox _ (motive := Idles p) ⟨rfl, rfl, rfl, id⟩
    fun _ h m _ => h.trans (route snapshot _ m)

theorem exec (p : Pool β) {f : Execution β → Execution β} (hf : ∀ x, SameEnds x (f x)) :
    Idles p (p.exec f) :=
  ⟨rfl, hf _, rfl, id⟩

variable [Block β]

theorem answerAll (p : Pool β) (w : Worker) : Idles p (p.answerAll w).1 := by
  refine ⟨rfl, ?_, rfl, fun h => (Shift.lifecycle_answerAll p w).symm.trans h⟩
  refine List.foldlRecOn w.inbox _
    (motive := fun s : Scheduler β => SameEnds p.scheduler.toExecution s.toExecution) rfl
    fun s h m _ => h.trans ?_
  have hanswer := Execution.sameEnds_answerFrom s.toExecution w.group m
  exact hanswer.trans (.of_eq (Scheduler.untouched_reply ..).graph)

theorem workerAct (p : Pool β) (w : Worker) (hl : ¬ p.scheduler.lifecycle.IsHalting)
    (hrun : p.scheduler.lifecycle ≠ .running) (hstopped : p.scheduler.lifecycle ≠ .stopped) :
    Idles p (p.workerAct w).1 ∧ (p.workerAct w).2.status = w.status := by
  have hpause := exec p fun x => .foldl Execution.sameEnds_pause x w.group
  cases hst : p.scheduler.lifecycle with
  | running => exact absurd hst hrun
  | stopped => exact absurd hst hstopped
  | requestedStop | error =>
    rw [hst] at hl
    exact absurd trivial hl
  | idle | initialising =>
    simp only [Pool.workerAct, hst]
    exact ⟨.refl p, rfl⟩
  | requestedPause | paused =>
    simp only [Pool.workerAct, hst]
    split
    · exact ⟨.refl p, rfl⟩
    · exact ⟨⟨hpause.finishedBlocks, hpause.ends, hpause.statuses, hpause.stopped⟩, rfl⟩

theorem ready (p : Pool β) (w : Worker) : Idles p (p.ready w).1 := by
  have hanswered := answerAll p w
  cases hpaused : w.isPaused with
  | false => simpa [Pool.ready, Pool.answerAll, hpaused] using hanswered
  | true =>
    have hresumed := hanswered.trans (exec _ fun x => .foldl Execution.sameEnds_resume x w.group)
    simp only [Pool.ready, Pool.answerAll, hpaused, if_true]
    exact ⟨hresumed.finishedBlocks, hresumed.ends, hresumed.statuses, hresumed.stopped⟩

theorem readied (hw : p.workers[i]? = some w) :
    Idles p ((p.ready w).1.setWorker i { (p.ready w).2 with nextMove }) := by
  refine (ready p w).trans (setWorker ?_)
  rw [Shift.workers_ready, List.getElem?_map, hw, Option.map_some]
  exact congrArg some (Shift.status_ready p w).symm

end Idles

/-- All blocks have finished. -/
def IsComplete (p : Pool β) : Prop :=
  p.scheduler.graph.nodes.length ≤ p.scheduler.graph.terminalBlocks

theorem Idles.isComplete (h : Idles p q) (hp : p.IsComplete) : q.IsComplete := by
  rw [IsComplete, h.ends.length_nodes, h.ends.terminalBlocks]
  exact hp

theorem IsComplete.isFinished (h : p.IsComplete) (i : Nat) : p.scheduler.isFinished i = true :=
  Execution.isFinished_of_allFinished (Execution.allFinished_iff.mpr h) i

/-- A worker leaves a complete run that has stopped, and changes nothing. -/
theorem workerAct_of_complete [Block β] (h : p.IsComplete) (hl : p.scheduler.lifecycle = .stopped) :
    p.workerAct w = (p, { w with status := .returned }) := by
  have hstop : (p.exec fun x => x.stopAll w.group) = p := by
    simp only [exec, Scheduler.exec, Execution.stopAll_of_complete h.isFinished]
  simp only [workerAct, hl]
  rw [hstop]

namespace Shift

variable {rounds rounds' : List (Option Round)} {snapshot : PropertyMap}

/-- The finished blocks that the pass of a worker is yet to report. -/
def unreported (r : Option Round) : Nat := r.elim 0 fun r => r.report.newlyFinished

/-- The finished blocks that passes underway are yet to report. -/
def underway : List (Option Round) → Nat
  | [] => 0
  | r :: rest => unreported r + underway rest

theorem underway_set {r : Option Round} (h : rounds[i]? = some r) (r' : Option Round) :
    underway (rounds.set i r') + unreported r = underway rounds + unreported r' := by
  induction rounds generalizing i with
  | nil => cases h
  | cons first rest ih =>
    cases i with
    | zero =>
      cases h
      simp only [List.set_cons_zero, underway]
      omega
    | succ i =>
      have hrest := ih (i := i) h
      simp only [List.set_cons_succ, underway]
      omega

theorem underway_eq_zero (h : ∀ r ∈ rounds, r = none) : underway rounds = 0 := by
  induction rounds with
  | nil => rfl
  | cons r rest ih =>
    rw [underway, h r (List.mem_cons_self ..), ih fun r hr => h r (List.mem_cons_of_mem _ hr)]
    rfl

/-- What has been reported, and what passes underway are yet to report, is the number of finished
blocks. A run stops, and workers leave it, once it is complete only. -/
structure Counts (σ : Shift β) : Prop where
  exact : σ.pool.finishedBlocks + underway σ.rounds = σ.pool.scheduler.graph.terminalBlocks
  stopped : σ.pool.scheduler.lifecycle = .stopped → σ.pool.IsComplete
  gone : ∀ st ∈ σ.pool.workers.map Worker.status, st ≠ .active → σ.pool.IsComplete
  manned : σ.pool.workers.map Worker.status = [] → σ.pool.IsComplete

namespace Counts

theorem idles (h : Counts ⟨p, rounds⟩) (hi : Idles p q)
    (hrounds : underway rounds' = underway rounds) : Counts ⟨q, rounds'⟩ where
  exact := by
    show q.finishedBlocks + underway rounds' = _
    rw [hi.finishedBlocks, hi.ends.terminalBlocks, hrounds]
    exact h.exact
  stopped hst := hi.isComplete (h.stopped (hi.stopped hst))
  gone st hst hne := hi.isComplete (h.gone st (hi.statuses ▸ hst) hne)
  manned hnone := hi.isComplete (h.manned (hi.statuses ▸ hnone))

theorem complete_of_allGone (h : Counts ⟨p, rounds⟩) (hgone : p.allGone = true) :
    p.IsComplete := by
  cases hworkers : p.workers with
  | nil => exact h.manned (by rw [hworkers]; rfl)
  | cons w rest =>
    have hmem : w ∈ p.workers := hworkers ▸ List.mem_cons_self ..
    have hw := List.all_eq_true.mp hgone w hmem
    exact h.gone w.status (List.mem_map_of_mem hmem) (by simpa using hw)

theorem settleIn (h : Counts ⟨p, rounds⟩) (hp : p.IsComplete) (text : String) :
    Counts ⟨p.settleIn .stopped text, rounds⟩ := by
  simp only [Pool.settleIn]
  split
  · exact h
  next s hmove =>
    have hgraph := (Scheduler.moveTo_spec hmove).2.2.1
    have hs : IsComplete { p with scheduler := s.say .info text } := by
      rw [IsComplete] at hp ⊢
      rw [← hgraph] at hp
      exact hp
    refine ⟨?_, fun _ => hs, fun _ _ _ => hs, fun _ => hs⟩
    have hexact := h.exact
    rw [← hgraph] at hexact
    exact hexact

theorem watch (h : Counts ⟨p, rounds⟩) : Counts ⟨p.watch, rounds⟩ := by
  simp only [Pool.watch]
  split
  next hall =>
    have hexact : p.finishedBlocks + underway rounds = p.scheduler.graph.terminalBlocks := h.exact
    exact h.settleIn (by rw [IsComplete]; omega) _
  split
  · exact h.idles (.fail ..) rfl
  split
  · exact h.idles ⟨rfl, rfl, rfl, id⟩ rfl
  split
  · exact h.idles (.fail ..) rfl
  · exact h

theorem coordinate (h : Counts ⟨p, rounds⟩) (snapshot : PropertyMap) :
    Counts ⟨(p.coordinate snapshot).2, rounds⟩ := by
  have hlooked : Idles p { p with
      nextLook := Clock.wake p.now p.scheduler.config.maxBackoff } := ⟨rfl, rfl, rfl, id⟩
  have hrouted := h.idles (hlooked.trans (.routeAll _ snapshot)) rfl
  simp only [Pool.coordinate]
  split
  · exact hrouted.watch
  · split
    · refine hrouted.idles (Idles.trans ?_ (.settleIn _ (fun h => by cases h) _)) rfl
      exact ⟨rfl, rfl, rfl, id⟩
    · exact hrouted.idles ⟨rfl, rfl, rfl, id⟩ rfl
  · exact hrouted.idles ⟨rfl, rfl, rfl, id⟩ rfl
  · split
    next hgone => exact hrouted.settleIn (hrouted.complete_of_allGone hgone) _
    · exact hrouted
  · exact hrouted
  · exact hrouted
  · exact hrouted.idles (.fail ..) rfl
  · exact hrouted.idles (.fail ..) rfl

theorem setWorker (h : Counts ⟨p, rounds⟩) (hp : p.IsComplete) (i : Nat) (w : Worker) :
    Counts ⟨p.setWorker i w, rounds⟩ :=
  ⟨h.exact, h.stopped, fun _ _ _ => hp, fun _ => hp⟩

variable [Block β]

/-- An iteration in which a worker makes no pass. -/
theorem rest (h : Counts ⟨p, rounds⟩) (hw : p.workers[i]? = some w) (hactive : w.status = .active)
    (hl : ¬ p.scheduler.lifecycle.IsHalting)
    (hrest : p.scheduler.lifecycle = .running →
      (p.ready w).1.scheduler.allFinished w.group = true) : Counts ⟨p.work i, rounds⟩ := by
  by_cases hrun : p.scheduler.lifecycle = .running
  · have hrest := hrest hrun
    rw [← group_ready p w] at hrest
    rw [work_of_running hw hactive hrun, proceed, if_pos hrest]
    exact h.idles (.readied hw) rfl
  have hanswered := Idles.answerAll p w
  have hlife := lifecycle_answerAll p w
  rw [work_eq hw hactive]
  by_cases hstopped : p.scheduler.lifecycle = .stopped
  · have hcomplete := hanswered.isComplete (h.stopped hstopped)
    rw [workerAct_of_complete hcomplete (hlife.trans hstopped)]
    exact (h.idles hanswered rfl).setWorker hcomplete i _
  · rw [← hlife] at hl hrun hstopped
    obtain ⟨hacted, hstatus⟩ := Idles.workerAct (p.answerAll w).1 (p.answerAll w).2 hl hrun hstopped
    refine h.idles ((hanswered.trans hacted).trans (.setWorker ?_)) rfl
    rw [(hanswered.trans hacted).statuses, List.getElem?_map, hw, Option.map_some]
    exact congrArg some hstatus.symm

/-- A worker that visits an unfinished block. -/
theorem invoke (h : Counts ⟨p, rounds⟩) {j : Nat} {others : List Nat} {report : PassReport}
    (hround : rounds[i]? = some (some ⟨j :: others, report⟩))
    (hmade : Execution.Invocation.failure? p.scheduler.toExecution j (p.scheduler.invoke j).1 =
      none) :
    Counts ⟨p.exec fun _ => (p.scheduler.invoke j).2,
      rounds.set i (some ⟨others, report.add (p.scheduler.invoke j).1⟩)⟩ := by
  have hterminal := Execution.terminalBlocks_invoke p.scheduler.toExecution j fun e he => by
    rw [he] at hmade
    cases hmade
  obtain ⟨calls, hcalls⟩ := (Execution.invoke_went p.scheduler.toExecution j).extends
  have hlength := hcalls.length_nodes
  have hunderway := underway_set hround (some ⟨others, report.add (p.scheduler.invoke j).1⟩)
  have hexact : p.finishedBlocks + underway rounds = p.scheduler.graph.terminalBlocks := h.exact
  have hcomplete : p.IsComplete → (p.exec fun _ => (p.scheduler.invoke j).2).IsComplete := by
    intro hp
    have hp : p.scheduler.graph.nodes.length ≤ p.scheduler.graph.terminalBlocks := hp
    show (p.scheduler.invoke j).2.graph.nodes.length ≤ (p.scheduler.invoke j).2.graph.terminalBlocks
    omega
  refine ⟨?_, fun hst => hcomplete (h.stopped hst), fun st hst hne => hcomplete (h.gone st hst hne),
    fun hnone => hcomplete (h.manned hnone)⟩
  show p.finishedBlocks + underway (rounds.set i _) = (p.scheduler.invoke j).2.graph.terminalBlocks
  simp only [unreported, Option.elim_some, PassReport.add] at hunderway
  simp only [PassReport.add]
  omega

omit [Block β] in
theorem conclude (h : Counts ⟨p, rounds⟩) {report : PassReport} (hw : p.workers[i]? = some w)
    (hround : rounds[i]? = some (some ⟨[], report⟩)) :
    Counts ⟨(p.conclude w report).1.setWorker i (p.conclude w report).2, rounds.set i none⟩ := by
  have hstatus : (p.conclude w report).2.status = w.status := by
    simp only [Pool.conclude]
    split <;> rfl
  have hset : (p.workers.set i (p.conclude w report).2).map Worker.status =
      p.workers.map Worker.status :=
    map_set_of_getElem? (by rw [List.getElem?_map, hw, Option.map_some, hstatus])
  have hunderway := underway_set hround none
  have hexact : p.finishedBlocks + underway rounds = p.scheduler.graph.terminalBlocks := h.exact
  simp only [unreported, Option.elim_some, Option.elim_none] at hunderway
  refine ⟨?_, h.stopped, fun st hst => h.gone st (hset ▸ hst), fun hnone => h.manned (hset ▸ hnone)⟩
  show p.finishedBlocks + report.newlyFinished + underway (rounds.set i none) =
    p.scheduler.graph.terminalBlocks
  omega

/-- What any of those who take part in a run may do next. -/
theorem step {σ τ : Shift β} (h : Counts σ) (hstep : Step snapshot σ τ) : Counts τ := by
  cases hstep with
  | wait now nextLook => exact h.idles ⟨rfl, rfl, rfl, id⟩ rfl
  | client => exact h.idles (.meet _) rfl
  | coordinate => exact h.coordinate snapshot
  | rest hw hactive hround hl hrest => exact h.rest hw hactive hl hrest
  | @setOff p _ i w hw hactive hround hrun =>
    exact h.idles (.readied hw)
      (underway_set hround (some ⟨w.group, ⟨false, 0, none⟩⟩))
  | @skip p _ i j others report hround hfin =>
    have hunderway := underway_set hround (some ⟨others, report⟩)
    exact h.idles (.refl p) (Nat.add_right_cancel hunderway)
  | invoke hround hopen hmade => exact h.invoke hround hmade
  | conclude hw hround => exact h.conclude hw hround

omit [Block β] in
/-- All blocks have been counted if all have finished and none of them is yet to be reported. -/
theorem length_le_iff {σ : Shift β} (h : Counts σ) :
    σ.pool.scheduler.graph.nodes.length ≤ σ.pool.finishedBlocks ↔
      σ.pool.scheduler.allFinished σ.pool.scheduler.everyBlock = true ∧
        underway σ.rounds = 0 := by
  have hexact := h.exact
  have hle := σ.pool.scheduler.graph.terminalBlocks_le
  rw [Execution.allFinished_iff]
  omega

theorem steps {σ τ : Shift β} (h : Counts σ) (hsteps : Steps snapshot σ τ) : Counts τ := by
  induction hsteps with
  | refl => exact h
  | tail _ hstep ih => exact ih.step hstep

end Counts
end Shift

/-! ### Runs -/

/-- A run that is about to begin with a scheduler, whose blocks have been dealt out to workers in
any way, each to one. -/
structure IsFresh (s : Scheduler β) (p : Pool β) : Prop where
  scheduler : p.scheduler = s
  finishedBlocks : p.finishedBlocks = 0
  active : ∀ w ∈ p.workers, w.status = .active
  dealt : (p.workers.flatMap Worker.group).Perm s.everyBlock

theorem isFresh_begin (s : Scheduler β) {workers : Nat} (hworkers : 0 < workers) (client : Client) :
    (begin s workers client).IsFresh s where
  scheduler := rfl
  finishedBlocks := rfl
  active w hw := by
    obtain ⟨i, -, rfl⟩ := List.mem_map.mp hw
    rfl
  dealt := by
    rw [begin, List.flatMap_map]
    exact perm_flatMap_group hworkers s.graph.nodes.length

/-- The coordinator of a running run sees that all blocks have finished by their number. -/
theorem lifecycle_watch (h : p.scheduler.lifecycle = .running) :
    p.watch.scheduler.lifecycle = .stopped ↔
      p.scheduler.graph.nodes.length ≤ p.finishedBlocks := by
  simp only [watch]
  split
  next hall =>
    have hreach : p.scheduler.lifecycle.canReach .stopped = true := by
      rw [h]
      rfl
    obtain ⟨s, hs⟩ := Scheduler.moveTo_of_canReach hreach
    simp only [settleIn, hs, hall, iff_true]
    exact (Scheduler.moveTo_spec hs).2.1
  next hopen =>
    refine ⟨fun hst => ?_, fun hall => absurd hall hopen⟩
    split at hst
    · cases hst
    split at hst
    · cases h.symm.trans hst
    split at hst
    · cases hst
    · cases h.symm.trans hst

variable [Block β] {s s₀ : Scheduler β} {snapshot : PropertyMap}

open Shift (Steps underway)

theorem counts_atRest (h₀ : s.Launches snapshot s₀) (hp : p.IsFresh s₀) :
    p.atRest.Counts := by
  have hterminal : p.scheduler.graph.terminalBlocks = 0 := by
    rw [hp.scheduler, Graph.terminalBlocks, List.countP_eq_zero]
    intro n hn
    obtain ⟨i, hi⟩ := List.getElem?_of_mem hn
    rw [Node.isFinished_of_running (h₀.started i n hi).state]
    exact Bool.false_ne_true
  refine ⟨?_, fun hst => ?_, fun st hst hne => ?_, fun hnone => ?_⟩
  · show p.finishedBlocks + underway (.replicate _ none) = p.scheduler.graph.terminalBlocks
    rw [hterminal, hp.finishedBlocks,
      Shift.underway_eq_zero fun r hr => List.eq_of_mem_replicate hr]
  · obtain ⟨s₁, s₂, -, -, hmove⟩ := h₀
    have hst : p.scheduler.lifecycle = .stopped := hst
    rw [hp.scheduler, (Scheduler.moveTo_spec hmove).2.1] at hst
    cases hst
  · obtain ⟨w, hw, rfl⟩ := List.mem_map.mp hst
    exact absurd (hp.active w hw) hne
  · have hworkers : p.workers = [] := List.map_eq_nil_iff.mp hnone
    have hblocks := hp.dealt
    rw [hworkers, List.flatMap_nil, List.nil_perm, Execution.everyBlock, List.range_eq_nil,
      ← hp.scheduler] at hblocks
    show p.scheduler.graph.nodes.length ≤ _
    omega

/-- However the blocks are dealt out to the workers of a run, and in whatever order workers,
coordinator and client act, the number of blocks reported as finished is that of the finished
blocks, less those that are yet to be reported by passes underway, as long as no worker stops its
blocks and no work call fails. So the coordinator stops the run if and only if all blocks have
finished and been reported, and at once if there are none. -/
theorem counting_exact (h₀ : s.Launches snapshot s₀) (hp : p.IsFresh s₀) :
    (∀ σ, Steps snapshot p.atRest σ →
      σ.pool.finishedBlocks + underway σ.rounds = σ.pool.scheduler.graph.terminalBlocks ∧
      ((∀ r ∈ σ.rounds, r = none) →
        σ.pool.finishedBlocks = σ.pool.scheduler.graph.terminalBlocks) ∧
      (σ.pool.scheduler.graph.nodes.length ≤ σ.pool.finishedBlocks ↔
        σ.pool.scheduler.allFinished σ.pool.scheduler.everyBlock = true ∧
          underway σ.rounds = 0) ∧
      (σ.pool.scheduler.lifecycle = .running →
        (σ.pool.watch.scheduler.lifecycle = .stopped ↔
          σ.pool.scheduler.allFinished σ.pool.scheduler.everyBlock = true ∧
            underway σ.rounds = 0))) ∧
    (∀ steps, (∀ t ≤ steps, (p.after snapshot t).IsUndisturbed) →
      (p.after snapshot steps).finishedBlocks =
        (p.after snapshot steps).scheduler.graph.terminalBlocks) ∧
    (s₀.graph.nodes = [] → p.watch.scheduler.lifecycle = .stopped) := by
  have hcounts : ∀ {σ}, Steps snapshot p.atRest σ → σ.Counts := (counts_atRest h₀ hp).steps
  have hrest : ∀ {q : Pool β} {rounds}, Steps snapshot p.atRest ⟨q, rounds⟩ →
      (∀ r ∈ rounds, r = none) → q.finishedBlocks = q.scheduler.graph.terminalBlocks := by
    intro q rounds hsteps hrounds
    have hexact : q.finishedBlocks + underway rounds = q.scheduler.graph.terminalBlocks :=
      (hcounts hsteps).exact
    rwa [Shift.underway_eq_zero hrounds] at hexact
  refine ⟨fun σ hσ => ⟨(hcounts hσ).exact, hrest hσ, (hcounts hσ).length_le_iff, fun hrun => ?_⟩,
    fun steps h => hrest (Shift.steps_after h) fun r hr => List.eq_of_mem_replicate hr, fun h => ?_⟩
  · rw [lifecycle_watch hrun]
    exact (hcounts hσ).length_le_iff
  · obtain ⟨s₁, s₂, -, -, hmove⟩ := h₀
    have hrun : p.scheduler.lifecycle = .running :=
      hp.scheduler ▸ (Scheduler.moveTo_spec hmove).2.1
    rw [lifecycle_watch hrun, hp.scheduler, h]
    exact Nat.zero_le _

/-- Two workers own a block each. By the fifth step both blocks have finished and been counted, and
two steps later the coordinator has stopped the run. -/
theorem counting_exact_playing : ∃ snapshot s₀, (Scheduler.playing []).Launches snapshot s₀ ∧
    (begin s₀ 2 .absent).IsFresh s₀ ∧
    (∀ t ≤ 7, ((begin s₀ 2 .absent).after snapshot t).IsUndisturbed) ∧
    ((begin s₀ 2 .absent).after snapshot 5).finishedBlocks = 2 ∧
    ((begin s₀ 2 .absent).after snapshot 5).scheduler.graph.terminalBlocks = 2 ∧
    ((begin s₀ 2 .absent).after snapshot 7).scheduler.lifecycle = .stopped := by
  have hrun : ∃ snapshot s₀, (Scheduler.playing []).Launches snapshot s₀ ∧
      (∀ t ≤ 7, ((begin s₀ 2 .absent).after snapshot t).IsUndisturbed) ∧
      ((begin s₀ 2 .absent).after snapshot 5).finishedBlocks = 2 ∧
      ((begin s₀ 2 .absent).after snapshot 7).scheduler.lifecycle = .stopped :=
    ⟨_, _, ⟨_, _, rfl, rfl, rfl⟩, by decide +kernel⟩
  obtain ⟨snapshot, s₀, h₀, hundisturbed, hfinished, hstopped⟩ := hrun
  have hfresh : (begin s₀ 2 .absent).IsFresh s₀ := isFresh_begin s₀ Nat.two_pos .absent
  have hexact := (counting_exact h₀ hfresh).2.1 5 fun t ht => hundisturbed t (by omega)
  exact ⟨snapshot, s₀, h₀, hfresh, hundisturbed, hfinished, hexact ▸ hfinished, hstopped⟩

end Pool
end Dataflow
