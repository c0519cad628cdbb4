import Dataflow.Proofs.Scheduler.Handling

/-!
# Runs as steps and handlings

Each part of a turn is made of steps (`Scheduler.Steps`) except for the handling of messages, which
`Loop.handlings` accounts for. Hence a whole run alternates between the two (`run_alternates`).
-/

namespace Dataflow

open Lifecycle (State)

variable {β : Type} [Block β]

/-- The scheduler after a turn. -/
def Turn.scheduler : Turn β → Scheduler β
  | next l => l.scheduler
  | ended _ s => s

namespace Scheduler

variable {s s' s'' : Scheduler β}

theorem Steps.trans (h : Steps s s') (h' : Steps s' s'') : Steps s s'' :=
  Relation.ReflTransGen.trans h h'

theorem steps_drive {x : Execution β} (h : s.toExecution.Drives x) :
    Steps s { s with toExecution := x } :=
  .single (.drive h)

theorem steps_say (s : Scheduler β) (level : LogLevel) (text : String) :
    Steps s (s.say level text) :=
  .single (.write _)

theorem steps_moveTo {st : State} (h : s.moveTo st = .ok s') : Steps s s' := by
  simp only [moveTo, State.transition] at h
  split at h
  · cases h
  next hok =>
    split at hok
    next hreach =>
      cases h
      by_cases heq : s.lifecycle = st
      · simp only [heq, if_true]
        exact .refl
      · simp only [heq, if_false, decide_false, Bool.false_or] at hreach ⊢
        exact .single (.enter hreach)
    next => cases hok

theorem steps_send (s : Scheduler β) (c : Client) (now : Nat) : Steps s (c.move s now).2 := by
  have hadvance : Steps s (c.advance s now).2 := by
    simp only [Client.advance]
    split
    · exact .refl
    · exact .single (.receive _)
  simp only [Client.move]
  split
  · exact .single (.receive _)
  · simp only [Client.proceed]
    split
    case h_2 =>
      split
      · exact hadvance
      · exact .single (.receive _)
    case h_3 => exact hadvance
    case h_6 => exact .refl
    all_goals exact .single (.receive _)

end Scheduler

open Scheduler

namespace Loop

theorem steps_meet (l : Loop β) : Steps l.scheduler l.meet.scheduler := by
  simp only [meet]
  split
  · exact steps_send l.scheduler l.client l.now
  · exact .refl

theorem steps_meetBefore (l : Loop β) (deadline : Nat) :
    Steps l.scheduler (l.meetBefore deadline).scheduler := by
  simp only [meetBefore]
  split
  · exact steps_meet { l with now := max l.now (l.client.nextMove.getD l.now) }
  · exact .refl

theorem steps_resume (l : Loop β) : Steps l.scheduler l.resume.scheduler := by
  simp only [resume]
  split
  · exact (steps_drive (Execution.drives_resumeAll _ _)).trans (steps_say ..)
  · exact .refl

theorem steps_makePass (l : Loop β) : Steps l.scheduler l.makePass.2.scheduler := by
  obtain ⟨y, lines, hy, heq⟩ :=
    Execution.drives_runPass l.scheduler.toExecution l.scheduler.everyBlock
  show Steps l.scheduler { l.scheduler with toExecution := (l.scheduler.runPass _).2 }
  rw [heq]
  exact (steps_drive hy).trans (.single (.write _))

theorem steps_endIn (s : Scheduler β) (st : State) (text : String) :
    Steps s (endIn s st text).scheduler := by
  simp only [endIn]
  split
  · exact .refl
  next hs => exact (steps_moveTo hs).trans (steps_say ..)

theorem steps_failWith (s : Scheduler β) (hlive : s.lifecycle.IsLive) (e : SchedulerError) :
    Steps s (failWith s e).scheduler := by
  have hreach : s.lifecycle.canReach .error = true := canReach_error hlive
  have henter : Steps s (s.enter .error) := .single (.enter hreach)
  exact henter.trans (steps_drive (Execution.drives_stopAll _ _))

/-! ### Turns -/

theorem handleFirst_eq (l : Loop β) (snapshot : PropertyMap) :
    l.handleFirst? snapshot =
      l.scheduler.first?.map fun h => l.update fun _ => h.after snapshot := by
  simp only [handleFirst?, first?]
  cases l.scheduler.inbox <;> rfl

theorem wait_alternates {R : Scheduler β → Scheduler β → Prop} (hrefl : ∀ s, R s s)
    (htrans : ∀ s s' s'', R s s' → R s' s'' → R s s'') (l : Loop β) (snapshot : PropertyMap)
    (time : Nat) (hmeet : R l.scheduler (l.meetBefore (Clock.wake l.now time)).scheduler) :
    Alternates R snapshot l.scheduler (l.received? time).toList
      (l.wait snapshot time).scheduler := by
  have hfirst : ∀ {s : Scheduler β} {h : Handling β}, s.first? = some h →
      Alternates R snapshot s [h] (h.after snapshot) := fun hf => by
    refine .handle ?_ (.rest (hrefl _))
    rw [before_of_first? hf]
    exact hrefl _
  simp only [wait, received?, handleFirst_eq]
  cases hf : l.scheduler.first? with
  | some h => exact hfirst hf
  | none =>
    cases hf' : (l.meetBefore (Clock.wake l.now time)).scheduler.first? with
    | none => exact .rest hmeet
    | some h => exact (hfirst hf').after htrans hmeet

theorem lifecycle_makePass (l : Loop β) :
    l.resume.makePass.2.scheduler.lifecycle = l.scheduler.lifecycle := by
  show l.resume.scheduler.lifecycle = l.scheduler.lifecycle
  simp only [resume]
  split <;> rfl

theorem afterPass_of_isIdle {l : Loop β} {report : PassReport} (h : l.isIdle report = true)
    (snapshot : PropertyMap) :
    l.afterPass snapshot report = .next
      ({ l with backoff := l.scheduler.config.nextWait l.backoff }.wait snapshot l.backoff) := by
  simp only [isIdle, Bool.and_eq_true, Bool.not_eq_true', Option.isNone_iff_eq_none] at h
  obtain ⟨⟨⟨hfail, hall⟩, hprog⟩, hstall⟩ := h
  simp only [afterPass, hfail, hall, hprog, hstall, if_false, Bool.false_eq_true]

theorem steps_afterPass {l : Loop β} {report : PassReport} (h : l.isIdle report = false)
    (snapshot : PropertyMap) (hlive : l.scheduler.lifecycle.IsLive) :
    Steps l.scheduler (l.afterPass snapshot report).scheduler := by
  simp only [afterPass]
  split
  · exact steps_failWith _ hlive _
  · exact .refl
  next hfail =>
    split
    · exact steps_endIn ..
    next hall =>
      split
      · exact .refl
      next hprog =>
        split
        · exact steps_failWith _ hlive _
        next hstall => simp [isIdle, hfail, hall, hprog, hstall] at h

/-- A loop that waits does so in a live state, after which its turn is over. -/
theorem act_of_waiting {l w : Loop β} {time : Nat} (h : l.waiting? = some (w, time))
    (snapshot : PropertyMap) :
    Steps l.scheduler w.scheduler ∧ w.scheduler.lifecycle.IsLive ∧
      l.act snapshot = .next (w.wait snapshot time) := by
  simp only [waiting?] at h
  split at h
  next hl =>
    split at h
    next hidle =>
      cases h
      refine ⟨(steps_resume l).trans (steps_makePass l.resume), ?_, ?_⟩
      · show l.resume.makePass.2.scheduler.lifecycle.IsLive
        rw [lifecycle_makePass, hl]
        trivial
      · simp only [act, hl]
        exact afterPass_of_isIdle hidle snapshot
    next => cases h
  next hl =>
    cases h
    refine ⟨.refl, ?_, by simp only [act, hl]⟩
    show l.scheduler.lifecycle.IsLive
    rw [hl]
    trivial
  next => cases h

theorem steps_act {l : Loop β} (h : l.waiting? = none) (snapshot : PropertyMap) :
    Steps l.scheduler (l.act snapshot).scheduler := by
  have hstop := steps_drive
    (Execution.drives_stopAll l.scheduler.toExecution l.scheduler.everyBlock)
  cases hl : l.scheduler.lifecycle with
  | running =>
    simp only [act, hl]
    have hlive : l.resume.makePass.2.scheduler.lifecycle.IsLive := by
      rw [lifecycle_makePass, hl]
      trivial
    have hidle : l.resume.makePass.2.isIdle l.resume.makePass.1 = false := by
      simpa [waiting?, hl] using h
    exact ((steps_resume l).trans (steps_makePass l.resume)).trans
      (steps_afterPass hidle snapshot hlive)
  | requestedPause =>
    simp only [act, hl]
    have hpause : Steps l.scheduler (l.scheduler.exec fun x => x.pauseAll x.everyBlock) :=
      steps_drive (Execution.drives_pauseAll _ _)
    split
    next => exact hpause
    next hs => exact (hpause.trans (steps_moveTo hs)).trans (steps_say ..)
  | paused => simp [waiting?, hl] at h
  | requestedStop =>
    simp only [act, hl]
    exact hstop.trans (steps_endIn ..)
  | stopped =>
    simp only [act, hl]
    exact .refl
  | idle | initialising | error =>
    simp only [act, hl]
    exact hstop

theorem act_alternates (l : Loop β) (snapshot : PropertyMap) :
    Alternates Steps snapshot l.scheduler l.awaited (l.act snapshot).scheduler := by
  simp only [awaited]
  cases h : l.waiting? with
  | none => exact .rest (steps_act h snapshot)
  | some waiting =>
    obtain ⟨w, time⟩ := waiting
    obtain ⟨hsteps, -, hact⟩ := act_of_waiting h snapshot
    rw [hact]
    exact (wait_alternates (fun _ => .refl) (fun _ _ _ => .trans) w snapshot time
      (steps_meetBefore w _)).after (fun _ _ _ => .trans) hsteps

theorem turn_alternates (l : Loop β) (snapshot : PropertyMap) :
    Alternates Steps snapshot l.scheduler (l.handled snapshot) (l.turn snapshot).scheduler := by
  have hdrain := alternates_drain Steps (fun _ => .refl) l.meet.scheduler snapshot
  have hact := act_alternates (l.meet.update fun s => s.drain snapshot) snapshot
  exact (hdrain.trans (fun _ _ _ => .trans) hact).after (fun _ _ _ => .trans) (steps_meet l)

/-- A run alternates between its own steps and the handlings of its turns. -/
theorem run_alternates {l : Loop β} {snapshot : PropertyMap} {fuel : Nat}
    {result : Except SchedulerError Unit} {s : Scheduler β}
    (h : l.run snapshot fuel = some (result, s)) :
    Alternates Steps snapshot l.scheduler (l.handlings snapshot fuel) s := by
  induction fuel generalizing l with
  | zero => cases h
  | succ fuel ih =>
    have hturn := turn_alternates l snapshot
    rw [run] at h
    rw [handlings]
    cases hout : l.turn snapshot with
    | next l' =>
      rw [hout] at h hturn
      exact hturn.trans (fun _ _ _ => .trans) (ih h)
    | ended result' s' =>
      rw [hout] at h hturn
      cases h
      rw [List.append_nil]
      exact hturn

end Loop

end Dataflow
