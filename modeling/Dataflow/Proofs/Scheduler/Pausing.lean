import Dataflow.Proofs.Execution.Parallel
import Dataflow.Proofs.Scheduler.Following
import Dataflow.Proofs.Scheduler.Heeding

/-!
# Runs that differ in pauses

While a run is pausing its turns do nothing else, so two lists of events alone tell whether they are
the same apart from pauses, resumptions and queries (`PausesApart`). Two loops that follow such
lists stay parallel (`Loop.Parallels`). An event of one list alone changes its loop in ways that do
not count, and a turn that makes a pass is taken by both, after each has resumed its blocks. Hence
both go on, or come to the same end (`Loop.parallelTurns_follow`).
-/

namespace Dataflow

open Lifecycle (State)
open Block (Likeness)
open Loop (Event)

/-- A query, or a request to pause or to resume. -/
def Message.IsHarmless (m : Message) : Prop :=
  m.command = .get ∨ m.asked? = some .requestedPause ∨ m.asked? = some .running

/-- Events that are the same apart from pauses, resumptions and queries, which each list may have
put in at any point. The states are those of the lifecycle before the first events and before the
second ones. A turn that finds its run pausing is like none; all others are taken by both runs, in
the same state, so that none makes a pass where the other one is paused. -/
inductive PausesApart : State → State → List Event → List Event → Prop where
  | done {st st' : State} : PausesApart st st' [] []
  | message {st st' : State} {m : Message} {es es' : List Event} :
      PausesApart (st.heeding m) (st'.heeding m) es es' →
      PausesApart st st' (.message m :: es) (.message m :: es')
  | turn {st : State} {es es' : List Event} : ¬ st.IsPausing → PausesApart st st es es' →
      PausesApart st st (.turn :: es) (.turn :: es')
  | messageLeft {st st' : State} {m : Message} {es es' : List Event} : m.IsHarmless →
      PausesApart (st.heeding m) st' es es' → PausesApart st st' (.message m :: es) es'
  | messageRight {st st' : State} {m : Message} {es es' : List Event} : m.IsHarmless →
      PausesApart st (st'.heeding m) es es' → PausesApart st st' es (.message m :: es')
  | turnLeft {st st' : State} {es es' : List Event} : st.IsPausing →
      PausesApart .paused st' es es' → PausesApart st st' (.turn :: es) es'
  | turnRight {st st' : State} {es es' : List Event} : st'.IsPausing →
      PausesApart st .paused es es' → PausesApart st st' es (.turn :: es')

/-! ### Two runs side by side -/

namespace Scheduler

open Execution (Unmoved)

variable {β : Type} {R : β → β → Prop} {s s' : Scheduler β} {x : Execution β}

theorem unmoved_moveTo {st : State} (h : s.moveTo st = .ok s') :
    s.toExecution.Unmoved s'.toExecution := by
  obtain ⟨-, -, hg, hj⟩ := moveTo_spec h
  refine ⟨hg, ?_, hj⟩
  rw [moveTo] at h
  split at h
  · cases h
  · cases h
    split <;> rfl

theorem unmoved_reply (s : Scheduler β) (m : Message) (data : Except MessageError PropertyMap) :
    s.toExecution.Unmoved (s.reply m data).toExecution := by
  cases data <;> exact ⟨rfl, rfl, rfl⟩

theorem unmoved_handleOwn (s : Scheduler β) (snapshot : PropertyMap) (m : Message) :
    s.toExecution.Unmoved (s.handleOwn snapshot m).toExecution := by
  have hown : s.toExecution.Unmoved (s.answerOwn snapshot m).2.toExecution := by
    simp only [answerOwn]
    split
    case h_2 =>
      simp only [requestState]
      split
      · exact .refl _
      · split
        · exact .refl _
        next hmove =>
          have hmoved := unmoved_moveTo hmove
          dsimp only
          split
          · exact hmoved
          · exact hmoved.trans ⟨rfl, rfl, rfl⟩
    all_goals exact .refl _
  exact hown.trans (unmoved_reply _ m _)

variable [Block β]

theorem unmoved_handle (s : Scheduler β) (snapshot : PropertyMap) {m : Message}
    (hm : m.destination = "") : s.toExecution.Unmoved (s.handle snapshot m).toExecution := by
  rw [handle, if_pos hm]
  exact unmoved_handleOwn s snapshot m

theorem parallels_handle_get (h : x.Parallels R s.toExecution) (snapshot : PropertyMap)
    {m : Message} (hm : m.command = .get) : x.Parallels R (s.handle snapshot m).toExecution := by
  rw [handle]
  split
  · exact h.congr (.refl x) (unmoved_handleOwn s snapshot m)
  · let t : Scheduler β := { s with toExecution := (s.answerFrom s.everyBlock m).2 }
    have ht : x.Parallels R t.toExecution := h.answerFrom_get s.everyBlock hm
    exact ht.congr (.refl x) (unmoved_reply t m _)

theorem parallels_handle (hR : Likeness R) (h : s.toExecution.Parallels R s'.toExecution)
    (snapshot : PropertyMap) (m : Message) :
    (s.handle snapshot m).toExecution.Parallels R (s'.handle snapshot m).toExecution := by
  by_cases hm : m.destination = ""
  · exact h.congr (unmoved_handle s snapshot hm) (unmoved_handle s' snapshot hm)
  · let t : Scheduler β := { s with toExecution := (s.answerFrom s.everyBlock m).2 }
    let t' : Scheduler β := { s' with toExecution := (s'.answerFrom s.everyBlock m).2 }
    have ht : t.toExecution.Parallels R t'.toExecution := h.answerFrom hR s.everyBlock m
    rw [handle, handle, if_neg hm, if_neg hm, dispatch, dispatch, h.everyBlock]
    exact ht.congr (unmoved_reply t m _) (unmoved_reply t' m _)

theorem nonePaused_handle (h : NonePaused s.stateAt) (snapshot : PropertyMap) (m : Message) :
    NonePaused (s.handle snapshot m).stateAt := by
  rw [(extends_handle s snapshot m).states]
  exact h

end Scheduler

namespace Loop

open Scheduler

variable {β : Type} {R : β → β → Prop} {l l' : Loop β} {s s' : Scheduler β} {x : Execution β}
  {snapshot : PropertyMap}

/-- No block is paused unless the loop knows of it. -/
def Aware (l : Loop β) : Prop := l.isPaused = false → NonePaused l.scheduler.stateAt

/-- Two loops differ in pauses. -/
structure Parallels (R : β → β → Prop) (l l' : Loop β) : Prop where
  execution : l.scheduler.toExecution.Parallels R l'.scheduler.toExecution
  left : l.Aware
  right : l'.Aware

/-- Two runs go on in certain states, or end in the same way. -/
inductive ParallelTurns (R : β → β → Prop) (b w : State) : Turn β → Turn β → Prop where
  | next {l l' : Loop β} : l.Parallels R l' → l.scheduler.lifecycle = b →
      l'.scheduler.lifecycle = w → ParallelTurns R b w (.next l) (.next l')
  | ended {s s' : Scheduler β} (result : Except SchedulerError Unit) :
      s.toExecution.Parallels R s'.toExecution → NonePaused s.stateAt → NonePaused s'.stateAt →
      ParallelTurns R b w (.ended result s) (.ended result s')

theorem parallelTurns_endIn {b w : State} (h : s.toExecution.Parallels R s'.toExecution)
    (hs : NonePaused s.stateAt) (hs' : NonePaused s'.stateAt)
    (hreach : s.lifecycle.canReach .stopped = true)
    (hreach' : s'.lifecycle.canReach .stopped = true) (text text' : String) :
    ParallelTurns R b w (endIn s .stopped text) (endIn s' .stopped text') := by
  obtain ⟨t, ht⟩ := moveTo_of_canReach hreach
  obtain ⟨t', ht'⟩ := moveTo_of_canReach hreach'
  have hmove : s.toExecution.Unmoved (t.say .info text).toExecution :=
    (unmoved_moveTo ht).trans ⟨rfl, rfl, rfl⟩
  have hmove' : s'.toExecution.Unmoved (t'.say .info text').toExecution :=
    (unmoved_moveTo ht').trans ⟨rfl, rfl, rfl⟩
  simp only [endIn, ht, ht']
  refine .ended _ (h.congr hmove hmove') ?_ ?_
  · rw [hmove.stateAt]
    exact hs
  · rw [hmove'.stateAt]
    exact hs'

variable [Block β]

theorem aware_handle (h : l.Aware) (snapshot : PropertyMap) (m : Message) :
    (l.update fun s => s.handle snapshot m).Aware := fun hp =>
  nonePaused_handle (h hp) snapshot m

theorem parallels_stopAll (hR : Likeness R) (h : s.toExecution.Parallels R s'.toExecution) :
    (s.exec fun x => x.stopAll x.everyBlock).toExecution.Parallels R
      (s'.exec fun x => x.stopAll x.everyBlock).toExecution := by
  have hstop := h.stopAll hR s.everyBlock
  show (s.toExecution.stopAll s.everyBlock).Parallels R (s'.toExecution.stopAll s'.everyBlock)
  rw [h.everyBlock]
  exact hstop

/-- A turn that finds the run pausing changes nothing that counts. -/
theorem step_turn_of_isPausing (h : x.Parallels R l.scheduler.toExecution)
    (hpause : ∀ {b b'} (x : Execution β), R b b' → R b (x.runHook (Block.pause b')).1)
    (hl : l.scheduler.lifecycle.IsPausing) (snapshot : PropertyMap) :
    ∃ w, l.step snapshot .turn = .next w ∧ x.Parallels R w.scheduler.toExecution ∧
      w.scheduler.lifecycle = .paused ∧ (l.Aware → w.Aware) := by
  have hclear : x.Parallels R (l.scheduler.withInbox []).toExecution :=
    h.congr (.refl x) ⟨rfl, rfl, rfl⟩
  cases hst : l.scheduler.lifecycle with
  | paused =>
    refine ⟨l.update fun s => s.withInbox [], ?_, hclear, hst, fun haware => haware⟩
    simp only [step, stride, update, lifecycle_withInbox, hst]
  | requestedPause =>
    let s₁ := (l.scheduler.withInbox []).exec fun x => x.pauseAll x.everyBlock
    have hpaused : x.Parallels R s₁.toExecution := hclear.pauseAll hpause _
    have hreach : s₁.lifecycle.canReach .paused = true := by
      show l.scheduler.lifecycle.canReach .paused = true
      rw [hst]
      rfl
    obtain ⟨s₂, hs₂⟩ := moveTo_of_canReach hreach
    obtain ⟨-, hlife, -, -⟩ := moveTo_spec hs₂
    refine ⟨{ l with isPaused := true, scheduler := s₂.say .info "Paused" }, ?_, ?_, hlife, ?_⟩
    · simp only [s₁] at hs₂
      simp only [step, stride, act, update, lifecycle_withInbox, hst, hs₂]
    · exact hpaused.congr (.refl x) ((unmoved_moveTo hs₂).trans ⟨rfl, rfl, rfl⟩)
    · intro _ hp
      cases hp
  | idle | initialising | running | requestedStop | stopped | error =>
    rw [hst] at hl
    exact hl.elim

/-- Blocks are resumed before a pass. -/
theorem parallels_resume (hR : Likeness R) (h : x.Parallels R l.scheduler.toExecution)
    (haware : l.Aware) :
    x.Parallels R l.resume.scheduler.toExecution ∧ NonePaused l.resume.scheduler.stateAt := by
  simp only [resume]
  split
  · refine ⟨(h.resumeAll (fun x hb => hR.resume_right hb x) l.scheduler.everyBlock).congr
      (.refl x) ⟨rfl, rfl, rfl⟩, ?_⟩
    exact Execution.nonePaused_resumeAll l.scheduler.toExecution
  next hp => exact ⟨h, haware (by simpa using hp)⟩

theorem parallels_makePass (hR : Likeness R)
    (h : l.scheduler.toExecution.Parallels R l'.scheduler.toExecution)
    (hx : NonePaused l.scheduler.stateAt) (hx' : NonePaused l'.scheduler.stateAt) :
    l'.makePass.1 = l.makePass.1 ∧
      l.makePass.2.scheduler.toExecution.Parallels R l'.makePass.2.scheduler.toExecution := by
  have hpass := h.runPass hR hx hx' l.scheduler.everyBlock
  simp only [makePass, h.everyBlock]
  exact hpass

theorem parallelTurns_afterPass (hR : Likeness R)
    (h : l.scheduler.toExecution.Parallels R l'.scheduler.toExecution)
    (hx : NonePaused l.scheduler.stateAt) (hx' : NonePaused l'.scheduler.stateAt)
    (hl : l.scheduler.lifecycle = .running) (hl' : l'.scheduler.lifecycle = .running)
    (report : PassReport) (snapshot : PropertyMap) :
    ParallelTurns R .running .running (l.afterPass snapshot { report with progressed := true })
      (l'.afterPass snapshot { report with progressed := true }) := by
  simp only [afterPass, Execution.allFinished, h.isFinished, h.everyBlock, if_true]
  cases report.failure with
  | some failure =>
    cases failure with
    | failed block e =>
      have henter : (l.scheduler.enter .error).toExecution.Parallels R
          (l'.scheduler.enter .error).toExecution := h.congr ⟨rfl, rfl, rfl⟩ ⟨rfl, rfl, rfl⟩
      exact .ended _ (parallels_stopAll hR henter) (Execution.nonePaused_stopAll _)
        (Execution.nonePaused_stopAll _)
    | crashed => exact .ended _ h hx hx'
  | none =>
    dsimp only
    split
    · exact parallelTurns_endIn h hx hx' (by rw [hl]; rfl) (by rw [hl']; rfl) _ _
    · exact .next ⟨h, fun _ => hx, fun _ => hx'⟩ hl hl'

/-- A turn that makes a pass or stops the run does so on both sides. -/
theorem parallelTurns_step (hR : Likeness R) (h : l.Parallels R l') {st : State}
    (hl : l.scheduler.lifecycle = st) (hl' : l'.scheduler.lifecycle = st) (hlive : st.IsLive)
    (hst : ¬ st.IsPausing) (snapshot : PropertyMap) :
    ParallelTurns R st st (l.step snapshot .turn) (l'.step snapshot .turn) := by
  let w := l.update fun s => s.withInbox []
  let w' := l'.update fun s => s.withInbox []
  have hclear : w.scheduler.toExecution.Parallels R w'.scheduler.toExecution :=
    h.execution.congr ⟨rfl, rfl, rfl⟩ ⟨rfl, rfl, rfl⟩
  cases st with
  | running =>
    obtain ⟨hright, hx'⟩ := parallels_resume hR hclear h.right
    obtain ⟨hleft, hx⟩ := parallels_resume hR (hright.symm hR.symm) h.left
    obtain ⟨hreport, hpass⟩ := parallels_makePass hR (hleft.symm hR.symm) hx hx'
    have hafter := parallelTurns_afterPass hR hpass
      (Execution.nonePaused_runPass hx w.resume.scheduler.everyBlock)
      (Execution.nonePaused_runPass hx' w'.resume.scheduler.everyBlock)
      ((lifecycle_makePass w).trans hl) ((lifecycle_makePass w').trans hl')
      w.resume.makePass.1 snapshot
    have hwalk : l.step snapshot .turn = w.resume.makePass.2.afterPass snapshot
        { w.resume.makePass.1 with progressed := true } := by
      simp only [step, stride, update, lifecycle_withInbox, hl, w]
    have hwalk' : l'.step snapshot .turn = w'.resume.makePass.2.afterPass snapshot
        { w.resume.makePass.1 with progressed := true } := by
      rw [← hreport]
      simp only [step, stride, update, lifecycle_withInbox, hl', w']
    rw [hwalk, hwalk']
    exact hafter
  | requestedStop =>
    have hstop := parallels_stopAll hR hclear
    have hact : ∀ {l : Loop β}, l.scheduler.lifecycle = .requestedStop → l.step snapshot .turn =
        endIn ((l.scheduler.withInbox []).exec fun x => x.stopAll x.everyBlock) .stopped
          "Stopped on request" := fun hl => by
      simp only [step, stride, act, update, lifecycle_withInbox, hl]
    have hreach : ∀ {l : Loop β}, l.scheduler.lifecycle = .requestedStop →
        ((l.scheduler.withInbox []).exec fun x => x.stopAll x.everyBlock).lifecycle.canReach
          .stopped = true := fun {l} hl => by
      show l.scheduler.lifecycle.canReach .stopped = true
      rw [hl]
      rfl
    rw [hact hl, hact hl']
    exact parallelTurns_endIn hstop (Execution.nonePaused_stopAll _)
      (Execution.nonePaused_stopAll _) (hreach hl) (hreach hl') _ _
  | requestedPause | paused => exact absurd trivial hst
  | idle | initialising | stopped | error => exact hlive.elim

omit [Block β] in
theorem Parallels.symm (hR : ∀ {b b'}, R b b' → R b' b) (h : l.Parallels R l') :
    l'.Parallels R l := ⟨h.execution.symm hR, h.right, h.left⟩

/-- A harmless message to one of the loops changes nothing that counts. -/
theorem Parallels.harmless (h : l.Parallels R l') {m : Message} (hm : m.IsHarmless)
    (snapshot : PropertyMap) : l.Parallels R (l'.update fun s => s.handle snapshot m) := by
  refine ⟨?_, h.left, aware_handle h.right snapshot m⟩
  rcases hm with hget | hask
  · exact parallels_handle_get h.execution snapshot hget
  · have hown : m.destination = "" := by
      refine Decidable.byContradiction fun hother => ?_
      have hnone : m.asked? = none := if_neg fun hown => hother hown.1
      rcases hask with hask | hask <;> cases hnone.symm.trans hask
    exact h.execution.congr (.refl _) (unmoved_handle l'.scheduler snapshot hown)

/-- What is put in on either side does not show. -/
theorem parallelTurns_follow (hR : Likeness R) {st st' : State} {events events' : List Event}
    (hevents : PausesApart st st' events events') (h : l.Parallels R l')
    (hl : l.scheduler.lifecycle = st) (hl' : l'.scheduler.lifecycle = st') (hlive : st.IsLive)
    (snapshot : PropertyMap) :
    ∃ last last',
      ParallelTurns R last last' (l.follow snapshot events) (l'.follow snapshot events') := by
  have hheeding : ∀ (l : Loop β) (m : Message),
      (l.update fun s => s.handle snapshot m).scheduler.lifecycle =
        l.scheduler.lifecycle.heeding m := fun l m => lifecycle_handle l.scheduler snapshot m
  induction hevents generalizing l l' with
  | done => exact ⟨_, _, .next h hl hl'⟩
  | @message st st' m es es' _ ih =>
    have hnext : (l.update fun s => s.handle snapshot m).Parallels R
        (l'.update fun s => s.handle snapshot m) :=
      ⟨parallels_handle hR h.execution snapshot m, aware_handle h.left snapshot m,
        aware_handle h.right snapshot m⟩
    exact ih hnext (by rw [hheeding, hl]) (by rw [hheeding, hl']) (hlive.heeding m)
  | @turn st es es' hst _ ih =>
    have hturn := parallelTurns_step hR h hl hl' hlive hst snapshot
    rw [follow_cons, follow_cons]
    generalize l.step snapshot .turn = t, l'.step snapshot .turn = t' at hturn
    cases hturn with
    | next hnext hnl hnl' => exact ih hnext hnl hnl' hlive
    | ended result hend hx hx' => exact ⟨st, st, .ended result hend hx hx'⟩
  | @messageLeft st st' m es es' hm _ ih =>
    have hnext := ((h.symm hR.symm).harmless hm snapshot).symm hR.symm
    exact ih hnext (by rw [hheeding, hl]) hl' (hlive.heeding m)
  | @messageRight st st' m es es' hm _ ih =>
    exact ih (h.harmless hm snapshot) hl (by rw [hheeding, hl']) hlive
  | @turnLeft st st' es es' hst _ ih =>
    obtain ⟨v, hv, hexec, hlife, haware⟩ :=
      step_turn_of_isPausing (h.execution.symm hR.symm) (fun x hb => hR.pause_right hb x)
        (hl ▸ hst) snapshot
    rw [follow_cons, hv]
    exact ih ⟨hexec.symm hR.symm, haware h.left, h.right⟩ hlife hl' trivial
  | @turnRight st st' es es' hst _ ih =>
    obtain ⟨v, hv, hexec, hlife, haware⟩ :=
      step_turn_of_isPausing h.execution (fun x hb => hR.pause_right hb x) (hl' ▸ hst) snapshot
    rw [follow_cons, hv]
    exact ih ⟨hexec, h.left, haware h.right⟩ hl hlife hlive

end Loop
end Dataflow
