import Dataflow.Proofs.Scheduler.Following

/-!
# Strides

A loop that follows events handles messages that come at any times and from anyone
(`Loop.followed`), and between them it goes on in strides. A stride never stalls and never waits,
apart from that it leads on as a turn does (`Loop.leadsOn_stride`), and so does following any events
(`Loop.leadsOn_follow`): the run is live still, or it has ended in one of the ways in which a run
ends.
-/

namespace Dataflow

open Scheduler

variable {β : Type} [Block β]

namespace Loop

variable {l l' : Loop β} {snapshot : PropertyMap}

/-- A pass that is taken to have made progress can only make a difference to a run that goes on. -/
theorem afterPass_progressed (l : Loop β) (snapshot : PropertyMap) (report : PassReport) :
    l.afterPass snapshot { report with progressed := true } = l.afterPass snapshot report ∨
      report.failure = none ∧ ∃ l',
        l.afterPass snapshot { report with progressed := true } = .next l' ∧
          l'.scheduler = l.scheduler := by
  simp only [afterPass]
  split
  · exact .inl rfl
  · exact .inl rfl
  next hfail =>
    split
    · exact .inl rfl
    · exact .inr ⟨hfail, _, rfl, rfl⟩

theorem proceeds_makePass (hfail : l.makePass.1.failure = none) :
    Proceeds l.scheduler l.makePass.2.scheduler := by
  have hwent := Execution.runPass_went l.scheduler.toExecution l.scheduler.everyBlock
  have hnone : (l.scheduler.runPass l.scheduler.everyBlock).1.failure = none := hfail
  rw [hnone] at hwent
  cases hwent with
  | quietly hq => exact .of_quietly hq rfl rfl rfl

theorem leadsOn_stride (l : Loop β) (snapshot : PropertyMap)
    (hlive : l.scheduler.lifecycle.IsLive) : Turn.LeadsOn l.scheduler (l.stride snapshot) := by
  cases hl : l.scheduler.lifecycle with
  | running =>
    have hact := leadsOn_act l snapshot hlive
    simp only [act, hl] at hact
    simp only [stride, hl]
    rcases afterPass_progressed l.resume.makePass.2 snapshot l.resume.makePass.1 with
      heq | ⟨hfail, l', hnext, hs⟩
    · rw [heq]
      exact hact
    · rw [hnext]
      exact .next (hs ▸ (proceeds_resume l).trans (proceeds_makePass hfail))
  | paused =>
    simp only [stride, hl]
    exact .next .refl
  | requestedPause | requestedStop | stopped | idle | initialising | error =>
    have hact := leadsOn_act l snapshot hlive
    simpa only [stride, hl] using hact

/-- An event leads on from a live run. -/
theorem leadsOn_step (l : Loop β) (snapshot : PropertyMap) (hlive : l.scheduler.lifecycle.IsLive)
    (e : Event) : Turn.LeadsOn l.scheduler (l.step snapshot e) := by
  cases e with
  | message m => exact .next (proceeds_handle l.scheduler snapshot m)
  | turn =>
    have hcleared : Proceeds l.scheduler (l.scheduler.withInbox []) :=
      Untouched.proceeds ⟨rfl, rfl, rfl, rfl, rfl⟩
    exact (leadsOn_stride (l.update fun s => s.withInbox []) snapshot hlive).after hcleared

/-- Events lead on from a live run. -/
theorem leadsOn_follow (snapshot : PropertyMap) (hlive : l.scheduler.lifecycle.IsLive)
    (events : List Event) :
    Turn.LeadsOn l.scheduler (l.follow snapshot events) := by
  induction events generalizing l with
  | nil => exact .next .refl
  | cons e events ih =>
    have hstep := leadsOn_step l snapshot hlive e
    rw [follow]
    cases hout : l.step snapshot e with
    | next l' =>
      rw [hout] at hstep
      cases hstep with
      | next h => exact (ih (h.live hlive)).after h
    | ended result s =>
      rw [hout] at hstep
      exact hstep

/-- The handlings of the messages among events that a loop follows. -/
def followed (snapshot : PropertyMap) : Loop β → List Event → List (Handling β)
  | _, [] => []
  | l, .message m :: events =>
    ⟨l.scheduler, m⟩ :: (l.update fun s => s.handle snapshot m).followed snapshot events
  | l, .turn :: events =>
    match l.step snapshot .turn with
    | .next l => l.followed snapshot events
    | .ended _ _ => []

end Loop
end Dataflow
