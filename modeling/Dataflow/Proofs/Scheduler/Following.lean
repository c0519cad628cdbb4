import Dataflow.Proofs.Scheduler.Steps

/-!
# Runs as events

All that decides on the course of a run is which messages it handles between which of its turns: a
list of events (`Loop.Event`). A loop can follow any such list (`Loop.follow`), whatever the time is
and whoever has sent the messages, and as it does not wait it never stalls. The events of a run
(`Loop.events`) are the messages that it takes and the turns that it acts in, and to follow them
leads to where the run leads, unless that stalls (`Loop.follow_events`). On the way the two differ
in the messages that still wait, and in what only has to do with time (`Loop.SameCourse`).
-/

namespace Dataflow

open Lifecycle (State)
open Scheduler

variable {β : Type}

theorem Client.move_clear (c : Client) (s : Scheduler β) (now : Nat) :
    (c.move s now).2.withInbox [] = s.withInbox [] := by
  simp only [move]
  split
  · rfl
  · simp only [proceed]
    split
    case h_2 =>
      split
      · simp only [advance]
        split <;> rfl
      · rfl
    case h_3 =>
      simp only [advance]
      split <;> rfl
    all_goals rfl

/-- A run has failed because nothing made progress for too long. -/
def Stalled : Except SchedulerError Unit → Prop
  | .error (.stalled _ _) => True
  | _ => False

namespace Loop

/-- What happens in a run. -/
inductive Event where
  /-- A message is handled. -/
  | message (m : Message)
  /-- The loop acts by its lifecycle state. -/
  | turn

/-- Two loops differ at most in the messages that wait, in their clients and in their times. -/
structure SameCourse (l l' : Loop β) : Prop where
  scheduler : l'.scheduler.withInbox [] = l.scheduler.withInbox []
  isPaused : l'.isPaused = l.isPaused

theorem SameCourse.refl (l : Loop β) : l.SameCourse l := ⟨rfl, rfl⟩

theorem SameCourse.meet {l l' : Loop β} (h : l.SameCourse l') : l.meet.SameCourse l' := by
  simp only [Loop.meet]
  split
  · exact ⟨h.scheduler.trans (l.client.move_clear l.scheduler l.now).symm, h.isPaused⟩
  · exact h

theorem SameCourse.meetBefore {l l' : Loop β} (h : l.SameCourse l') (deadline : Nat) :
    (l.meetBefore deadline).SameCourse l' := by
  simp only [Loop.meetBefore]
  split
  · have hlater : SameCourse { l with now := max l.now (l.client.nextMove.getD l.now) } l' :=
      ⟨h.scheduler, h.isPaused⟩
    exact hlater.meet
  · exact h

theorem exists_endIn (s : Scheduler β) (st : State) (text : String) :
    ∃ result t, endIn s st text = .ended result t := by
  simp only [endIn]
  split <;> exact ⟨_, _, rfl⟩

variable [Block β]

/-- Act by the lifecycle state as in a turn, without waiting and without running out of time. -/
def stride (l : Loop β) (snapshot : PropertyMap) : Turn β :=
  match l.scheduler.lifecycle with
  | .running =>
    let (report, l) := l.resume.makePass
    l.afterPass snapshot { report with progressed := true }
  | .paused => .next l
  | _ => l.act snapshot

/-- What an event leads to. Messages that wait when the loop acts are lost. -/
def step (l : Loop β) (snapshot : PropertyMap) : Event → Turn β
  | .message m => .next (l.update fun s => s.handle snapshot m)
  | .turn => (l.update fun s => s.withInbox []).stride snapshot

/-- What events lead to, one after the other, up to the end of the run. -/
def follow (snapshot : PropertyMap) : Loop β → List Event → Turn β
  | l, [] => .next l
  | l, e :: events =>
    match l.step snapshot e with
    | .next l => l.follow snapshot events
    | .ended result s => .ended result s

/-- The events of a turn: all messages of the inbox, the turn itself, and the message that ends its
wait. -/
def turnEvents (l : Loop β) (snapshot : PropertyMap) : List Event :=
  l.meet.scheduler.inbox.map .message ++
    .turn :: (l.meet.update fun s => s.drain snapshot).awaited.map fun h => .message h.message

/-- The events of the first turns of a loop, or of all that it takes. -/
def events (snapshot : PropertyMap) : Nat → Loop β → List Event
  | 0, _ => []
  | turns + 1, l =>
    l.turnEvents snapshot ++
      match l.turn snapshot with
      | .next l => l.events snapshot turns
      | .ended _ _ => []

/-- What events lead to after a turn. -/
def Turn.follow (t : Turn β) (snapshot : PropertyMap) (events : List Event) : Turn β :=
  match t with
  | .next l => l.follow snapshot events
  | .ended result s => .ended result s

variable {l l' : Loop β} {snapshot : PropertyMap}

theorem follow_cons (l : Loop β) (e : Event) (events : List Event) :
    l.follow snapshot (e :: events) = Turn.follow (l.step snapshot e) snapshot events := by
  rw [follow]
  cases l.step snapshot e <;> rfl

theorem follow_append (l : Loop β) (before after : List Event) :
    l.follow snapshot (before ++ after) =
      Turn.follow (l.follow snapshot before) snapshot after := by
  induction before generalizing l with
  | nil => rfl
  | cons e before ih =>
    rw [List.cons_append, follow_cons, follow_cons]
    cases l.step snapshot e with
    | next l' => exact ih l'
    | ended result s => rfl

theorem follow_messages (l : Loop β) (inbox : List Message) (events : List Event) :
    l.follow snapshot (inbox.map .message ++ events) = (l.update fun s =>
      inbox.foldl (fun s m => s.handle snapshot m) s).follow snapshot events := by
  induction inbox generalizing l with
  | nil => rfl
  | cons m inbox ih => exact ih (l.update fun s => s.handle snapshot m)

/-! ### Two loops on one course -/

theorem handle_clear {s s' : Scheduler β} (h : s'.withInbox [] = s.withInbox [])
    (snapshot : PropertyMap) (m : Message) :
    (s'.handle snapshot m).withInbox [] = (s.handle snapshot m).withInbox [] := by
  rw [← handle_withInbox, h, handle_withInbox]

theorem foldl_handle_clear (s : Scheduler β) (snapshot : PropertyMap) (inbox : List Message) :
    inbox.foldl (fun s m => s.handle snapshot m) (s.withInbox []) =
      (inbox.foldl (fun s m => s.handle snapshot m) s).withInbox [] :=
  List.foldl_hom (fun s => s.withInbox []) fun s m => handle_withInbox s [] snapshot m

/-- Draining the inbox is to handle its messages one after the other. -/
theorem drain_eq (s : Scheduler β) (snapshot : PropertyMap) :
    s.drain snapshot = (s.inbox.foldl (fun s m => s.handle snapshot m) s).withInbox [] :=
  foldl_handle_clear s snapshot s.inbox

namespace SameCourse

theorem handle (h : l.SameCourse l') {handling : Handling β}
    (hfirst : l.scheduler.first? = some handling) :
    (l.update fun _ => handling.after snapshot).SameCourse
      (l'.update fun s => s.handle snapshot handling.message) := by
  have hbefore : handling.scheduler.withInbox [] = l.scheduler.withInbox [] := by
    rw [← before_of_first? hfirst]
    rfl
  exact ⟨handle_clear (h.scheduler.trans hbefore.symm) snapshot handling.message, h.isPaused⟩

/-- To wait is to handle the message that ends the wait. -/
theorem wait (h : l.SameCourse l') (snapshot : PropertyMap) (time : Nat) :
    ∃ w, l'.follow snapshot ((l.received? time).toList.map fun h => .message h.message) = .next w ∧
      (l.wait snapshot time).SameCourse w := by
  have hmeet := h.meetBefore (Clock.wake l.now time)
  simp only [Loop.wait, received?, handleFirst_eq]
  cases hfirst : l.scheduler.first? with
  | some handling => exact ⟨_, rfl, h.handle hfirst⟩
  | none =>
    cases hlater : (l.meetBefore (Clock.wake l.now time)).scheduler.first? with
    | some handling => exact ⟨_, rfl, hmeet.handle hlater⟩
    | none => exact ⟨l', rfl, hmeet.scheduler, hmeet.isPaused⟩

end SameCourse

/-- A turn leads to a loop on the same course, ends the run in the same way, or stalls. -/
inductive SameTurn : Turn β → Turn β → Prop where
  | next {l l' : Loop β} : l.SameCourse l' → SameTurn (.next l) (.next l')
  | ended (result : Except SchedulerError Unit) (s : Scheduler β) :
      SameTurn (.ended result s) (.ended result s)
  | stalled {result : Except SchedulerError Unit} (s : Scheduler β) (t : Turn β) :
      Stalled result → SameTurn (.ended result s) t

theorem SameTurn.of_ended {t : Turn β} (h : ∃ result s, t = .ended result s)
    (snapshot : PropertyMap) (events : List Event) :
    SameTurn t (Turn.follow t snapshot events) := by
  obtain ⟨result, s, rfl⟩ := h
  exact .ended result s

theorem sameTurn_afterPass (hs : l'.scheduler = l.scheduler) (hp : l'.isPaused = l.isPaused)
    (report : PassReport) {events : List Event}
    (hidle : l.isIdle report = true → events =
      (received? { l with backoff := l.scheduler.config.nextWait l.backoff } l.backoff).toList.map
        fun h => .message h.message)
    (hbusy : l.isIdle report = false → events = []) :
    SameTurn (l.afterPass snapshot report)
      (Turn.follow (l'.afterPass snapshot { report with progressed := true }) snapshot events) := by
  cases h : l.isIdle report with
  | true =>
    have hlater : SameCourse { l with backoff := l.scheduler.config.nextWait l.backoff }
        { l' with
          scheduler := l.scheduler
          backoff := l.scheduler.config.firstWait
          lastProgress := l'.now } := ⟨rfl, hp⟩
    obtain ⟨w, hfollow, hcourse⟩ := hlater.wait snapshot l.backoff
    rw [afterPass_of_isIdle h snapshot, hidle h]
    simp only [isIdle, Bool.and_eq_true, Bool.not_eq_true', Option.isNone_iff_eq_none] at h
    obtain ⟨⟨⟨hfail, hall⟩, -⟩, -⟩ := h
    simp only [afterPass, hs, hfail, hall, if_false, if_true, Bool.false_eq_true, Turn.follow]
    rw [hfollow]
    exact .next hcourse
  | false =>
    rw [hbusy h]
    simp only [afterPass, hs]
    cases hfail : report.failure with
    | some failure => cases failure <;> exact .ended ..
    | none =>
      dsimp only
      split
      · exact .of_ended (exists_endIn ..) _ _
      next hall =>
        simp only [if_true, Turn.follow]
        split
        · exact .next ⟨rfl, hp⟩
        split
        · exact .stalled _ _ trivial
        next hprog hstall => simp [isIdle, hfail, hall, hprog, hstall] at h

/-- To act is to go on as an event, and then to handle the message that ends the wait. -/
theorem sameTurn_act (l l' : Loop β) (hs : l'.scheduler = l.scheduler)
    (hp : l'.isPaused = l.isPaused) (snapshot : PropertyMap) :
    SameTurn (l.act snapshot)
      (Turn.follow (l'.stride snapshot) snapshot (l.awaited.map fun h => .message h.message)) := by
  cases hl : l.scheduler.lifecycle with
  | running =>
    have hresume : l'.resume.scheduler = l.resume.scheduler ∧
        l'.resume.isPaused = l.resume.isPaused := by
      simp only [resume, hs, hp]
      split
      · exact ⟨rfl, rfl⟩
      · exact ⟨hs, hp⟩
    have hreport : l'.resume.makePass.1 = l.resume.makePass.1 := by
      simp only [makePass, hresume.1]
    have hpass : l'.resume.makePass.2.scheduler = l.resume.makePass.2.scheduler := by
      simp only [makePass, hresume.1]
    simp only [act, stride, hs, hl, hreport]
    refine sameTurn_afterPass hpass hresume.2 l.resume.makePass.1 (fun h => ?_) fun h => ?_
    · simp only [awaited, waiting?, hl, h, if_true]
    · simp only [awaited, waiting?, hl, h, if_false, Bool.false_eq_true, List.map_nil]
  | paused =>
    have hlater : SameCourse { l with lastProgress := l.now } l' := ⟨by rw [hs], hp⟩
    obtain ⟨w, hfollow, hcourse⟩ := hlater.wait snapshot l.scheduler.config.maxBackoff
    simp only [act, stride, hs, hl, awaited, waiting?, Turn.follow]
    rw [hfollow]
    exact .next hcourse
  | requestedPause =>
    have hawaited : l.awaited = [] := by simp only [awaited, waiting?, hl]
    rw [hawaited]
    simp only [stride, act, hs, hl, update]
    split
    · exact .ended ..
    · exact .next ⟨rfl, rfl⟩
  | requestedStop | stopped | idle | initialising | error =>
    have hawaited : l.awaited = [] := by simp only [awaited, waiting?, hl]
    rw [hawaited]
    simp only [stride, act, hs, hl]
    first
      | exact .of_ended (exists_endIn ..) _ _
      | exact .ended ..

/-- To take a turn is to follow its events. -/
theorem sameTurn_turn (h : l.SameCourse l') (snapshot : PropertyMap) :
    SameTurn (l.turn snapshot) (l'.follow snapshot (l.turnEvents snapshot)) := by
  have hmeet := h.meet
  have hdrained : (l.meet.scheduler.inbox.foldl (fun s m => s.handle snapshot m)
      l'.scheduler).withInbox [] = l.meet.scheduler.drain snapshot := by
    rw [drain_eq, ← foldl_handle_clear, ← foldl_handle_clear, hmeet.scheduler]
  rw [turnEvents, follow_messages, follow_cons]
  exact sameTurn_act (l.meet.update fun s => s.drain snapshot)
    ((l'.update fun s => l.meet.scheduler.inbox.foldl (fun s m => s.handle snapshot m) s).update
      fun s => s.withInbox []) hdrained hmeet.isPaused snapshot

/-- A run leads to where following its events leads, unless it stalls. -/
theorem follow_events (h : l.SameCourse l') (snapshot : PropertyMap) (fuel : Nat) :
    match l.run snapshot fuel with
    | none => ∃ w, l'.follow snapshot (l.events snapshot fuel) = .next w
    | some (result, s) =>
      SameTurn (.ended result s) (l'.follow snapshot (l.events snapshot fuel)) := by
  induction fuel generalizing l l' with
  | zero => exact ⟨l', rfl⟩
  | succ fuel ih =>
    have hturn := sameTurn_turn h snapshot
    rw [run, events, follow_append]
    cases hout : l.turn snapshot with
    | ended result s =>
      rw [hout] at hturn
      dsimp only
      generalize l'.follow snapshot (l.turnEvents snapshot) = t at hturn
      cases hturn with
      | ended => exact .ended ..
      | stalled _ _ hstalled => exact .stalled _ _ hstalled
    | next l₁ =>
      rw [hout] at hturn
      dsimp only
      generalize l'.follow snapshot (l.turnEvents snapshot) = t at hturn
      cases hturn with
      | next hcourse => exact ih hcourse

theorem follow_of_run {fuel : Nat} {result : Except SchedulerError Unit} {s : Scheduler β}
    (h : l.run snapshot fuel = some (result, s)) (hresult : ¬ Stalled result) :
    l.follow snapshot (l.events snapshot fuel) = .ended result s := by
  have hfollow := follow_events (SameCourse.refl l) snapshot fuel
  rw [h] at hfollow
  dsimp only at hfollow
  generalize l.follow snapshot (l.events snapshot fuel) = t at hfollow
  cases hfollow with
  | ended => rfl
  | stalled _ _ hstalled => exact absurd hstalled hresult

theorem run_of_follow {fuel : Nat} {result : Except SchedulerError Unit} {s : Scheduler β}
    (h : l.follow snapshot (l.events snapshot fuel) = .ended result s)
    (hresult : ∀ result' s', l.run snapshot fuel = some (result', s') → ¬ Stalled result') :
    l.run snapshot fuel = some (result, s) := by
  have hfollow := follow_events (SameCourse.refl l) snapshot fuel
  cases hrun : l.run snapshot fuel with
  | none =>
    rw [hrun] at hfollow
    obtain ⟨w, hw⟩ := hfollow
    cases h.symm.trans hw
  | some out =>
    obtain ⟨result', s'⟩ := out
    have hended := follow_of_run hrun (hresult result' s' hrun)
    cases h.symm.trans hended
    rfl

end Loop
end Dataflow
