import Dataflow.Proofs.Scheduler.Lifecycle

/-!
# Turns of a run on one thread

A turn of a live run either lets the scheduler proceed, and the run is live still, or ends the run
in one of four ways (`Scheduler.Ending`): all blocks have finished, the work of one failed, none
made progress for too long, or one crashed. Which of the lifecycle states the turn acts on does not
matter for that, nor which messages it handles first.
-/

namespace Dataflow

open Lifecycle (State)
open Execution (Quietly Extends Halts)

variable {β : Type}

theorem Client.untouched_move (c : Client) (s : Scheduler β) (now : Nat) :
    Scheduler.Untouched s (c.move s now).2 := by
  simp only [move]
  split
  · exact ⟨rfl, rfl, rfl, rfl, rfl⟩
  · simp only [proceed]
    split
    case h_2 =>
      split
      · simp only [advance]
        split <;> exact ⟨rfl, rfl, rfl, rfl, rfl⟩
      · exact ⟨rfl, rfl, rfl, rfl, rfl⟩
    case h_3 =>
      simp only [advance]
      split <;> exact ⟨rfl, rfl, rfl, rfl, rfl⟩
    all_goals exact ⟨rfl, rfl, rfl, rfl, rfl⟩

theorem Loop.untouched_meet (l : Loop β) : Scheduler.Untouched l.scheduler l.meet.scheduler := by
  simp only [meet]
  split
  · exact Client.untouched_move ..
  · exact .refl

theorem Loop.untouched_meetBefore (l : Loop β) (deadline : Nat) :
    Scheduler.Untouched l.scheduler (l.meetBefore deadline).scheduler := by
  simp only [meetBefore]
  split
  · exact untouched_meet { l with now := max l.now (l.client.nextMove.getD l.now) }
  · exact .refl

/-- Ending a run in the stopped state. -/
theorem Loop.endIn_spec (s : Scheduler β) (h : s.lifecycle.canReach .stopped = true)
    (text : String) :
    ∃ s', Loop.endIn s .stopped text = .ended (.ok ()) s' ∧ Scheduler.Walks s s' ∧
      s'.lifecycle = .stopped ∧ s'.graph = s.graph ∧ s'.journal = s.journal := by
  obtain ⟨s', hs'⟩ := Scheduler.moveTo_of_canReach h
  obtain ⟨hw, hl, hg, hj⟩ := Scheduler.moveTo_spec hs'
  simp only [Loop.endIn, hs']
  exact ⟨_, rfl, hw.trans (.of_eq rfl rfl rfl), hl, hg, hj⟩

theorem Execution.isFinished_of_allFinished {x : Execution β}
    (h : x.allFinished x.everyBlock = true) (j : Nat) : x.isFinished j = true := by
  by_cases hj : j ∈ x.everyBlock
  · exact List.all_eq_true.mp h j hj
  · rw [Execution.mem_everyBlock, Option.not_isSome_iff_eq_none] at hj
    rw [Execution.isFinished_eq, hj]
    rfl

variable [Block β]

/-- How a run on one thread ends that goes on from a scheduler between two turns. -/
inductive Scheduler.Ending (s : Scheduler β) : Except SchedulerError Unit → Scheduler β → Prop where
  | completed {s' : Scheduler β} : Walks s s' → Quietly s.toExecution s'.toExecution →
      s'.lifecycle = .stopped → (∀ j, s'.isFinished j = true) → Ending s (.ok ()) s'
  | failed {s' : Scheduler β} {x x' : Execution β} {i : Nat} {e : WorkError} :
      Walks s s' → s'.lifecycle = .error →
      Quietly s.toExecution x → x.stateAt i = some .running →
      Extends x x' [⟨i, .work (.failed e)⟩, ⟨i, .stop⟩] → Halts x' s'.toExecution →
      Ending s (.error (.blockFailed (s.nameOf i) e)) s'
  | stalled {s' : Scheduler β} {x x' : Execution β} {time : Nat} :
      Walks s s' → s'.lifecycle = .error →
      Quietly s.toExecution x → x.runPass x.everyBlock = (⟨false, 0, none⟩, x') →
      1 ≤ x'.unfinished x'.everyBlock →
      Halts x' s'.toExecution → Ending s (.error (.stalled time (x'.unfinished x'.everyBlock))) s'
  | crashed {s' : Scheduler β} {x : Execution β} {i : Nat} : Walks s s' →
      Quietly s.toExecution x → Extends x s'.toExecution [⟨i, .work .crashed⟩] →
      Ending s (.error (.workerPanicked 0)) s'

open Scheduler

theorem Scheduler.Ending.after {s s' s'' : Scheduler β} {result : Except SchedulerError Unit}
    (hp : Proceeds s s') (h : Ending s' result s'') : Ending s result s'' := by
  obtain ⟨calls, he, _⟩ := hp.quietly
  cases h with
  | completed hw hq hl hfin => exact .completed (hp.walks.trans hw) (hp.quietly.trans hq) hl hfin
  | failed hw hl hq hst hx hh =>
    rw [he.nameOf]
    exact .failed (hp.walks.trans hw) hl (hp.quietly.trans hq) hst hx hh
  | stalled hw hl hq hpass hun hh =>
    exact .stalled (hp.walks.trans hw) hl (hp.quietly.trans hq) hpass hun hh
  | crashed hw hq hx => exact .crashed (hp.walks.trans hw) (hp.quietly.trans hq) hx

theorem Scheduler.Ending.before {s s' s'' : Scheduler β} {result : Except SchedulerError Unit}
    (hu : Untouched s' s'') (h : Ending s result s') : Ending s result s'' := by
  have hw : Walks s' s'' := hu.proceeds.walks
  have hn : s''.graph.nodes = s'.graph.nodes := by rw [hu.graph]
  have he : Extends s'.toExecution s''.toExecution [] := .of_eq hn hu.journal
  cases h with
  | completed hw' hq hl hfin =>
    refine .completed (hw'.trans hw) (hq.trans hu.proceeds.quietly) (hu.lifecycle.trans hl)
      fun j => ?_
    rw [← hfin j, Execution.isFinished_eq, Execution.isFinished_eq, he.states]
    rfl
  | failed hw' hl hq hst hx hh =>
    exact .failed (hw'.trans hw) (hu.lifecycle.trans hl) hq hst hx (hh.before hn hu.journal)
  | stalled hw' hl hq hpass hun hh =>
    exact .stalled (hw'.trans hw) (hu.lifecycle.trans hl) hq hpass hun
      (hh.before hn hu.journal)
  | crashed hw' hq hx => exact .crashed (hw'.trans hw) hq (hx.trans he)

/-- What a turn leads to. -/
inductive Turn.LeadsOn (s : Scheduler β) : Turn β → Prop where
  | next {l : Loop β} : Proceeds s l.scheduler → LeadsOn s (.next l)
  | ended {result : Except SchedulerError Unit} {s' : Scheduler β} : Ending s result s' →
      LeadsOn s (.ended result s')

theorem Turn.LeadsOn.after {s s' : Scheduler β} {t : Turn β} (hp : Proceeds s s')
    (h : Turn.LeadsOn s' t) : Turn.LeadsOn s t := by
  cases h with
  | next h => exact .next (hp.trans h)
  | ended h => exact .ended (h.after hp)

namespace Loop

theorem proceeds_handleFirst {l l' : Loop β} {snapshot : PropertyMap}
    (h : l.handleFirst? snapshot = some l') : Proceeds l.scheduler l'.scheduler := by
  simp only [handleFirst?] at h
  split at h
  · cases h
  next m rest _ =>
    cases h
    have hp : Proceeds l.scheduler { l.scheduler with inbox := rest } :=
      Untouched.proceeds ⟨rfl, rfl, rfl, rfl, rfl⟩
    exact hp.trans (proceeds_handle _ snapshot m)

theorem proceeds_wait (l : Loop β) (snapshot : PropertyMap) (time : Nat) :
    Proceeds l.scheduler (l.wait snapshot time).scheduler := by
  simp only [wait]
  split
  next h => exact proceeds_handleFirst h
  next =>
    refine (untouched_meetBefore l (Clock.wake l.now time)).proceeds.trans ?_
    cases h : (l.meetBefore (Clock.wake l.now time)).handleFirst? snapshot with
    | none => exact .refl
    | some l' => exact proceeds_handleFirst h

theorem proceeds_resume (l : Loop β) : Proceeds l.scheduler l.resume.scheduler := by
  simp only [resume]
  split
  · exact .of_quietly ((Execution.quietly_resumeAll _ _).trans (.of_eq rfl rfl)) rfl rfl rfl
  · exact .refl

theorem canReach_error {st : State} (h : st.IsLive) : st.canReach .error = true := by
  cases st <;> first | rfl | exact h.elim

/-- Ending a run with an error. -/
theorem failWith_spec (s : Scheduler β) (hlive : s.lifecycle.IsLive) (e : SchedulerError) :
    ∃ s', failWith s e = .ended (.error e) s' ∧ Walks s s' ∧ s'.lifecycle = .error ∧
      Halts s.toExecution s'.toExecution := by
  have hw : Walks s (s.enter .error) := .enter (canReach_error hlive)
  have hn : (s.enter .error).graph.nodes = s.graph.nodes := rfl
  have hj : (s.enter .error).journal = s.journal := rfl
  have hh := Execution.halts_stopAll (s.enter .error).toExecution
  exact ⟨_, rfl, hw.trans (.of_eq rfl rfl rfl), rfl, .after hn hj hh⟩

theorem leadsOn_afterPass {l : Loop β} {x : Execution β} {report : PassReport}
    (snapshot : PropertyMap) (hrun : l.scheduler.lifecycle = .running)
    (hpass : x.runPass x.everyBlock = (report, l.scheduler.toExecution)) {s : Scheduler β}
    (hp : Proceeds s { l.scheduler with toExecution := x }) :
    Turn.LeadsOn s (l.afterPass snapshot report) := by
  have hlive : l.scheduler.lifecycle.IsLive := by rw [hrun]; trivial
  have hwent := Execution.runPass_went x x.everyBlock
  rw [hpass] at hwent
  have hwalks : Walks s l.scheduler := hp.walks.trans (.of_eq rfl rfl rfl)
  have hquiet : Quietly s.toExecution x := hp.quietly
  simp only [afterPass]
  split
  next block e hfail =>
    rw [hfail] at hwent
    obtain ⟨s', heq, hw, hl, hh⟩ := failWith_spec l.scheduler hlive (.blockFailed block e)
    rw [heq]
    cases hwent with
    | failed hq hst hx =>
      obtain ⟨calls, he, _⟩ := id hquiet
      have he : Extends s.toExecution x calls := he
      rw [he.nameOf]
      exact .ended (.failed (hwalks.trans hw) hl (hquiet.trans hq) hst hx hh)
  next hfail =>
    rw [hfail] at hwent
    cases hwent with
    | crashed hq hx => exact .ended (.crashed hwalks (hquiet.trans hq) hx)
  next hfail =>
    rw [hfail] at hwent
    have hq : Quietly s.toExecution l.scheduler.toExecution := by
      cases hwent with
      | quietly hq => exact hquiet.trans hq
    have hproceeds : Proceeds s l.scheduler := ⟨hwalks, hq, fun _ => hlive⟩
    split
    next hall =>
      have hreach : l.scheduler.lifecycle.canReach .stopped = true := by rw [hrun]; rfl
      obtain ⟨s', heq, hw, hl, hg, hj⟩ := endIn_spec l.scheduler hreach
        s!"All {l.scheduler.graph.nodes.length} blocks finished"
      rw [heq]
      refine .ended (.completed (hwalks.trans hw) (hq.trans (.of_eq (by rw [hg]) hj)) hl
        fun j => ?_)
      have hfin := Execution.isFinished_of_allFinished hall j
      simpa only [Execution.isFinished, Graph.node?, hg] using hfin
    next hall =>
      split
      · exact .next hproceeds
      next hprog =>
        split
        · obtain ⟨s', heq, hw, hl, hh⟩ := failWith_spec l.scheduler hlive
            (.stalled (l.now - l.lastProgress) (l.scheduler.unfinished l.scheduler.everyBlock))
          rw [heq]
          rw [Execution.runPass_idle hpass (by simpa using hprog) hfail] at hpass
          have hpos := Execution.unfinished_pos (by simpa using hall)
          exact .ended (.stalled (hwalks.trans hw) hl hquiet hpass hpos hh)
        · exact .next (hproceeds.trans
            (proceeds_wait { l with backoff := l.scheduler.config.nextWait l.backoff } snapshot _))

theorem leadsOn_act (l : Loop β) (snapshot : PropertyMap) (hlive : l.scheduler.lifecycle.IsLive) :
    Turn.LeadsOn l.scheduler (l.act snapshot) := by
  simp only [act]
  split
  next hl =>
    have hp := proceeds_resume l
    have hrun : l.resume.scheduler.lifecycle = .running := by
      simp only [resume]
      split <;> exact hl
    have hpass : l.resume.scheduler.runPass l.resume.scheduler.everyBlock =
        (l.resume.makePass.1, l.resume.makePass.2.scheduler.toExecution) := rfl
    have hrun' : l.resume.makePass.2.scheduler.lifecycle = .running := hrun
    exact leadsOn_afterPass snapshot hrun' hpass hp
  next hl =>
    have hq := Execution.quietly_pauseAll l.scheduler.toExecution l.scheduler.everyBlock
    let s₁ := l.scheduler.exec fun x => x.pauseAll x.everyBlock
    have hp : Proceeds l.scheduler s₁ := .of_quietly hq rfl rfl rfl
    have hreach : s₁.lifecycle.canReach .paused = true := by
      show l.scheduler.lifecycle.canReach .paused = true
      rw [hl]
      rfl
    obtain ⟨s₂, hs₂⟩ := moveTo_of_canReach hreach
    obtain ⟨hw, hpaused, hg, hj⟩ := moveTo_spec hs₂
    have hp' : Proceeds s₁ s₂ := ⟨hw, .of_eq (by rw [hg]) hj, fun _ => by rw [hpaused]; trivial⟩
    have hsaid : Proceeds s₂ (s₂.say .info "Paused") :=
      Untouched.proceeds ⟨rfl, rfl, rfl, rfl, rfl⟩
    simp only [update, s₁] at hs₂ ⊢
    rw [hs₂]
    exact .next ((hp.trans hp').trans hsaid)
  next hl => exact .next (proceeds_wait { l with lastProgress := l.now } snapshot _)
  next hl =>
    let s₁ := l.scheduler.exec fun x => x.stopAll x.everyBlock
    have hh : Halts l.scheduler.toExecution s₁.toExecution := Execution.halts_stopAll _
    have hreach : s₁.lifecycle.canReach .stopped = true := by
      show l.scheduler.lifecycle.canReach .stopped = true
      rw [hl]
      rfl
    obtain ⟨s', heq, hw, hstopped, hg, hj⟩ := endIn_spec s₁ hreach "Stopped on request"
    have hh' : Halts l.scheduler.toExecution s'.toExecution := hh.before (by rw [hg]) hj
    rw [heq]
    have hs₁ : Walks l.scheduler s₁ := .of_eq rfl rfl rfl
    exact .ended (.completed (hs₁.trans hw) hh'.quietly hstopped hh'.isFinished)
  all_goals
    next hl =>
      rw [hl] at hlive
      exact hlive.elim

theorem leadsOn_turn (l : Loop β) (snapshot : PropertyMap)
    (hlive : l.scheduler.lifecycle.IsLive) : Turn.LeadsOn l.scheduler (l.turn snapshot) := by
  have hp := (untouched_meet l).proceeds.trans (proceeds_drain l.meet.scheduler snapshot)
  exact (leadsOn_act (l.meet.update fun s => s.drain snapshot) snapshot (hp.live hlive)).after hp

/-- However many turns a live run takes, it ends in one of the four ways. -/
theorem run_ending {snapshot : PropertyMap} {fuel : Nat} {l : Loop β}
    (hlive : l.scheduler.lifecycle.IsLive) {result : Except SchedulerError Unit}
    {s : Scheduler β} (h : l.run snapshot fuel = some (result, s)) :
    Ending l.scheduler result s := by
  induction fuel generalizing l with
  | zero => cases h
  | succ fuel ih =>
    have hturn := leadsOn_turn l snapshot hlive
    rw [run] at h
    cases hout : l.turn snapshot with
    | next l' =>
      rw [hout] at h hturn
      cases hturn with
      | next hp => exact (ih (hp.live hlive) h).after hp
    | ended result' s' =>
      rw [hout] at h hturn
      cases hturn with
      | ended hend =>
        cases h
        exact hend

end Loop
end Dataflow
