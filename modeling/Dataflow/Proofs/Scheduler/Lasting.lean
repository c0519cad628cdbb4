import Dataflow.Proofs.Execution.Lasting
import Dataflow.Proofs.Scheduler.Past
import Dataflow.Proofs.Scheduler.Steps

/-!
# What lasts while a scheduler runs

A scheduler changes its graph by binding it, by calls on its blocks and by their answers, and in no
other way. So a property of graphs that is `Lasting` holds after each thing that a scheduler does,
and after each step of a run on several workers (`Pool.Holds`), which moreover never deals its
blocks out anew. It holds at the end of every run if it did at the beginning
(`Graph.Lasting.run`).
-/

namespace Dataflow

open Lifecycle (State)
open Scheduler

variable {β : Type} {I : Graph β → Prop}

theorem Scheduler.graph_handleOwn (s : Scheduler β) (snapshot : PropertyMap) (m : Message) :
    (s.handleOwn snapshot m).graph = s.graph := by
  rw [handleOwn, (untouched_reply ..).graph, (answerOwn_frame ..).1]

section Single

variable [Block β] {s s' : Scheduler β} {snapshot : PropertyMap}

namespace Graph.Lasting

theorem dispatch (hI : Lasting I) (h : I s.graph) (group : List Nat) (m : Message) :
    I (s.dispatch group m).graph := by
  rw [Scheduler.dispatch, (untouched_reply ..).graph]
  exact hI.answer group m h

theorem handle (hI : Lasting I) (h : I s.graph) (snapshot : PropertyMap) (m : Message) :
    I (s.handle snapshot m).graph := by
  rw [Scheduler.handle]
  split
  · rw [graph_handleOwn]
    exact h
  · exact hI.dispatch h s.everyBlock m

theorem steps (hI : Lasting I) (h : I s.graph) (hsteps : Steps s s') : I s'.graph := by
  induction hsteps with
  | refl => exact h
  | tail _ hstep ih =>
    cases hstep with
    | receive | write | enter => exact ih
    | drive hdrives => exact hI.drives hdrives ih

theorem alternates (hI : Lasting I) (h : I s.graph) {hs : List (Handling β)}
    (halternates : Alternates Steps snapshot s hs s') : I s'.graph := by
  induction halternates with
  | rest hsteps => exact hI.steps h hsteps
  | @handle _ _ handling _ hsteps _ ih =>
    have hbefore : I handling.before.graph := hI.steps h hsteps
    have hscheduler : I handling.scheduler.graph := hbefore
    exact ih (hI.handle hscheduler snapshot handling.message)

theorem startAll (hI : Lasting I) {x : Execution β} (h : I x.graph) (group : List Nat) :
    I (Scheduler.startAll x group).2.graph := by
  induction group generalizing x with
  | nil => exact h
  | cons i rest ih =>
    have hstart := hI.start i h
    rw [Scheduler.startAll]
    rcases hout : x.start i with ⟨result, y⟩
    rw [hout] at hstart
    cases result with
    | ok => exact ih hstart
    | error e => exact hstart

theorem initialise (hI : Lasting I) (h : I s.graph) : I s.initialise.2.graph := by
  cases hvalid : s.graph.validate with
  | error e =>
    simp only [Scheduler.initialise, hvalid]
    exact h
  | ok =>
    rw [initialise_eq s hvalid]
    have hstart := hI.startAll (x := s.toExecution.bound) (hI.bind h) s.everyBlock
    rcases hout : Scheduler.startAll s.toExecution.bound s.everyBlock with ⟨failure, x⟩
    rw [hout] at hstart
    cases failure with
    | none => exact hstart
    | some failure => exact hI.drives (Execution.drives_abandon x _) hstart

end Graph.Lasting

end Single

/-! ### Runs on several workers -/

/-- Putting an element where it is already changes nothing. -/
theorem set_of_getElem? {α : Type} {l : List α} {i : Nat} {a : α} (h : l[i]? = some a) :
    l.set i a = l := by
  obtain ⟨hi, rfl⟩ := List.getElem?_eq_some_iff.mp h
  exact List.set_getElem_self hi

/-- Replacing an element of a list in a way that a function does not see. -/
theorem map_set_of_getElem? {α γ : Type} {l : List α} {i : Nat} {a : α} {φ : α → γ}
    (h : (l.map φ)[i]? = some (φ a)) : (l.set i a).map φ = l.map φ := by
  rw [List.map_set, set_of_getElem? h]

namespace Pool

/-- The graph that is run has a property, and the blocks are dealt out in certain groups. -/
structure Holds (I : Graph β → Prop) (groups : List (List Nat)) (p : Pool β) : Prop where
  graph : I p.scheduler.graph
  groups : p.workers.map Worker.group = groups

variable {p : Pool β} {groups : List (List Nat)} {snapshot : PropertyMap}

namespace Holds

/-- Changes that concern neither the graph nor the groups. -/
theorem of_eq {p' : Pool β} (h : p.Holds I groups)
    (hgraph : p'.scheduler.graph = p.scheduler.graph)
    (hgroups : p'.workers.map Worker.group = p.workers.map Worker.group) : p'.Holds I groups :=
  ⟨hgraph ▸ h.graph, hgroups.trans h.groups⟩

theorem fail (h : p.Holds I groups) (e : SchedulerError) : (p.fail e).Holds I groups :=
  h.of_eq rfl rfl

theorem setWorker (h : p.Holds I groups) {i : Nat} {w : Worker}
    (hw : groups[i]? = some w.group) : (p.setWorker i w).Holds I groups := by
  refine ⟨h.graph, ?_⟩
  have hgroups := h.groups
  subst hgroups
  exact map_set_of_getElem? hw

theorem group_eq (h : p.Holds I groups) {i : Nat} {w : Worker} (hw : p.workers[i]? = some w) :
    groups[i]? = some w.group := by
  rw [← h.groups, List.getElem?_map, hw, Option.map_some]

theorem settleIn (h : p.Holds I groups) (state : State) (text : String) :
    (p.settleIn state text).Holds I groups := by
  simp only [Pool.settleIn]
  split
  · exact h
  next hmove => exact h.of_eq (moveTo_spec hmove).2.2.1 rfl

theorem watch (h : p.Holds I groups) : p.watch.Holds I groups := by
  simp only [Pool.watch]
  split
  · exact h.settleIn _ _
  split
  · exact h.fail _
  split
  · exact h.of_eq rfl rfl
  split
  · exact h.fail _
  · exact h

theorem alert (h : p.Holds I groups) : p.alert.Holds I groups := by
  simp only [Pool.alert]
  split
  · exact h
  · exact h.of_eq rfl rfl

theorem result (h : p.Holds I groups) : I p.result.2.graph := by
  have hlost : ∀ lost : List (Worker × Nat),
      (lost.foldl (fun p entry => p.fail (.workerPanicked entry.2)) p).Holds I groups := fun lost =>
    List.foldlRecOn lost _ (motive := Holds I groups) h fun _ hq _ _ => hq.fail _
  simp only [Pool.result]
  split
  · exact (hlost _).graph
  split <;> exact (hlost _).graph

theorem route (h : p.Holds I groups) (snapshot : PropertyMap) (m : Message) :
    (Pool.route snapshot p m).Holds I groups := by
  have hreply : ∀ data, Holds I groups { p with scheduler := p.scheduler.reply m data } :=
    fun data => h.of_eq (untouched_reply ..).graph rfl
  simp only [Pool.route]
  split
  · exact h.of_eq (graph_handleOwn ..) rfl
  split
  · exact hreply _
  split
  next hw =>
    split
    · have hgroup := h.group_eq hw
      exact h.setWorker hgroup
    · exact hreply _
  · exact hreply _

theorem routeAll (h : p.Holds I groups) (snapshot : PropertyMap) :
    (p.routeAll snapshot).Holds I groups :=
  List.foldlRecOn _ _ (motive := Holds I groups) (h.of_eq rfl rfl)
    fun _ hq m _ => hq.route snapshot m

theorem coordinate (h : p.Holds I groups) (snapshot : PropertyMap) :
    (p.coordinate snapshot).2.Holds I groups := by
  have hlooked : Holds I groups { p with
      nextLook := Clock.wake p.now p.scheduler.config.maxBackoff } := h.of_eq rfl rfl
  have hrouted := hlooked.routeAll snapshot
  simp only [Pool.coordinate]
  split
  · exact hrouted.watch
  · split
    · refine Holds.settleIn ?_ _ _
      exact hrouted.of_eq rfl rfl
    · exact hrouted.of_eq rfl rfl
  · exact hrouted.of_eq rfl rfl
  · split
    · exact hrouted.settleIn _ _
    · exact hrouted
  · exact hrouted
  · exact hrouted
  · exact hrouted.fail _
  · exact hrouted.fail _

variable [Block β]

theorem exec (hI : Graph.Lasting I) (h : p.Holds I groups) {f : Execution β → Execution β}
    (hf : ∀ x, Execution.Drives x (f x)) : (p.exec f).Holds I groups :=
  ⟨hI.drives (hf _) h.graph, h.groups⟩

theorem answerAll (hI : Graph.Lasting I) (h : p.Holds I groups) (w : Worker) :
    (p.answerAll w).1.Holds I groups ∧ (p.answerAll w).2.group = w.group :=
  ⟨⟨List.foldlRecOn w.inbox (fun s m => s.dispatch w.group m)
    (motive := fun s : Scheduler β => I s.graph) h.graph
    fun _ hs m _ => hI.dispatch hs w.group m, h.groups⟩, rfl⟩

theorem makePass (hI : Graph.Lasting I) (h : p.Holds I groups) (w : Worker) :
    (p.makePass w).1.Holds I groups ∧ (p.makePass w).2.group = w.group := by
  obtain ⟨y, lines, hdrives, heq⟩ := Execution.drives_runPass p.scheduler.toExecution w.group
  have hy : I y.graph := hI.drives hdrives h.graph
  have hpass : I (p.scheduler.runPass w.group).2.graph := by
    rw [heq]
    exact hy
  have hpassed : Holds I groups { p with
      scheduler := { p.scheduler with toExecution := (p.scheduler.runPass w.group).2 } } :=
    ⟨hpass, h.groups⟩
  simp only [Pool.makePass]
  split
  · exact ⟨hpassed, rfl⟩
  · exact ⟨(hpassed.fail _).exec hI fun x => Execution.drives_stopAll x w.group, rfl⟩
  · refine ⟨hpassed.of_eq rfl rfl, ?_⟩
    split <;> rfl

theorem workerAct (hI : Graph.Lasting I) (h : p.Holds I groups) (w : Worker) :
    (p.workerAct w).1.Holds I groups ∧ (p.workerAct w).2.group = w.group := by
  have hstop : (p.exec fun x => x.stopAll w.group).Holds I groups :=
    h.exec hI fun x => Execution.drives_stopAll x w.group
  have hpause : (p.exec fun x => x.pauseAll w.group).Holds I groups :=
    h.exec hI fun x => Execution.drives_pauseAll x w.group
  have hresume : (p.exec fun x => x.resumeAll w.group).Holds I groups :=
    h.exec hI fun x => Execution.drives_resumeAll x w.group
  have hresumed : Holds I groups { p.exec (fun x => x.resumeAll w.group) with
      pausedWorkers := p.pausedWorkers - 1 } := hresume.of_eq rfl rfl
  simp only [Pool.workerAct]
  split
  · split
    · split
      · exact ⟨hresumed, rfl⟩
      · exact hresumed.makePass hI { w with isPaused := false }
    · split
      · exact ⟨h, rfl⟩
      · exact h.makePass hI w
  · split
    · exact ⟨h, rfl⟩
    · exact ⟨hpause.of_eq rfl rfl, rfl⟩
  · split
    · exact ⟨h, rfl⟩
    · exact ⟨hpause.of_eq rfl rfl, rfl⟩
  · exact ⟨hstop, rfl⟩
  · exact ⟨hstop, rfl⟩
  · exact ⟨hstop, rfl⟩
  · exact ⟨h, rfl⟩
  · exact ⟨h, rfl⟩

theorem work (hI : Graph.Lasting I) (h : p.Holds I groups) (i : Nat) :
    (p.work i).Holds I groups := by
  simp only [Pool.work]
  split
  · exact h
  next w hw =>
    split
    · exact h
    · obtain ⟨hanswered, hgroup⟩ := h.answerAll hI w
      obtain ⟨hacted, hgroup'⟩ := hanswered.workerAct hI (p.answerAll w).2
      refine hacted.setWorker ?_
      rw [hgroup', hgroup]
      exact h.group_eq hw

theorem meet (hI : Graph.Lasting I) (h : p.Holds I groups) : p.meet.Holds I groups :=
  ⟨hI.steps h.graph (steps_send p.scheduler p.client p.now), h.groups⟩

theorem step (hI : Graph.Lasting I) (h : p.Holds I groups) (snapshot : PropertyMap) :
    (p.step snapshot).2.Holds I groups := by
  have hnow : Holds I groups { p with now := max p.now p.next.1 } := h.of_eq rfl rfl
  simp only [Pool.step]
  split
  · exact (hnow.meet hI).alert
  · exact hnow.coordinate snapshot
  · exact (hnow.work hI _).alert

theorem run (hI : Graph.Lasting I) (h : p.Holds I groups) {fuel : Nat}
    {result : Except SchedulerError Unit} {s : Scheduler β}
    (hrun : p.run snapshot fuel = some (result, s)) : I s.graph := by
  induction fuel generalizing p with
  | zero => cases hrun
  | succ fuel ih =>
    have hstep := h.step hI snapshot
    rw [Pool.run] at hrun
    split at hrun
    next heq =>
      rw [heq] at hstep
      have hresult := hstep.result
      rw [Option.some.inj hrun] at hresult
      exact hresult
    next heq =>
      rw [heq] at hstep
      exact ih hstep hrun

end Holds

end Pool

/-! ### Runs -/

/-- What lasts holds after a run if it did before, whatever its policy and however it ends. -/
theorem Graph.Lasting.run [Block β] (hI : Graph.Lasting I) {s s' : Scheduler β} (h : I s.graph)
    {parallelism fuel : Nat} {client : Client} {result : Except SchedulerError Unit}
    (hrun : s.run parallelism fuel client = some (result, s')) : I s'.graph := by
  rw [Scheduler.run] at hrun
  cases hprepare : s.prepare with
  | error e =>
    rw [hprepare] at hrun
    cases hrun
    exact h
  | ok s₁ =>
    have h₁ : I s₁.graph := graph_prepare hprepare ▸ h
    have h₂ := hI.initialise h₁
    simp only [hprepare] at hrun
    rcases hinit : s₁.initialise with ⟨outcome, s₂⟩
    rw [hinit] at hrun h₂
    cases outcome with
    | error e =>
      cases hrun
      exact h₂
    | ok snapshot =>
      dsimp only at hrun
      cases hmove : s₂.moveTo .running with
      | error e =>
        rw [hmove] at hrun
        cases hrun
        exact h₂
      | ok s₃ =>
        have h₃ : I s₃.graph := (moveTo_spec hmove).2.2.1 ▸ h₂
        simp only [hmove, runByPolicy] at hrun
        split at hrun <;> rw [Option.map_eq_some_iff] at hrun <;>
          obtain ⟨⟨result', s₄⟩, hloop, heq⟩ := hrun <;> cases heq
        · rw [(untouched_answerRest s₄ snapshot _).graph]
          exact hI.alternates h₃ (Loop.run_alternates hloop)
        · rw [(untouched_rejectPending s₄ snapshot).graph]
          let p := Pool.begin s₃ (max (s₃.threadCount parallelism) 1) client
          have hp : p.Holds I (p.workers.map Worker.group) := ⟨h₃, rfl⟩
          exact hp.run hI hloop

end Dataflow
