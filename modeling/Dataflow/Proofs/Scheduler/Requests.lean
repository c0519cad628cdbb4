import Dataflow.Proofs.Scheduler.Containment
import Dataflow.Proofs.Scheduler.Heeding
import Dataflow.Proofs.Scheduler.Stopping

/-!
# Repeated requests for a state

Between messages a run changes its lifecycle and goes on only by carrying out a pause
(`Scheduler.Drifts`). So once a request has been granted, and until another one is, the scheduler is
in the state that was asked for, or has paused since it was asked to (`Scheduler.Abides`). The same
request is granted again in the first case, and in the second it is refused
(`Loop.request_repeated`), although nobody has asked for anything else (`Scheduler.pause_refused`).
-/

namespace Dataflow

open Lifecycle (State)
open Scheduler

theorem Message.asksForState_of_asked {m : Message} {st : State} (h : m.asked? = some st) :
    m.AsksForState :=
  ⟨(isSet_of_asked h).1, (isSet_of_asked h).2.1, (isSet_of_asked h).2.2⟩

variable {β : Type} {s s' : Scheduler β} {st : State} {entered : Array State}
  {snapshot : PropertyMap}

/-! ### Between requests -/

namespace Scheduler

/-- What becomes of the lifecycle between two messages, as long as the run goes on. -/
inductive Drifts (s s' : Scheduler β) : Prop where
  | stays : Stays s s' → Drifts s s'
  | pauses : s.lifecycle = .requestedPause → s'.lifecycle = .paused →
      s'.entered = s.entered.push .paused → Drifts s s'

namespace Drifts

theorem refl (s : Scheduler β) : Drifts s s := .stays .refl

theorem trans (s s' s'' : Scheduler β) (h : Drifts s s') (h' : Drifts s' s'') : Drifts s s'' := by
  cases h with
  | stays h =>
    cases h' with
    | stays h' => exact .stays (h.trans h')
    | pauses hl hl' he => exact .pauses (h.lifecycle ▸ hl) hl' (h.entered ▸ he)
  | pauses hl hl' he =>
    cases h' with
    | stays h' => exact .pauses hl (h'.lifecycle.trans hl') (h'.entered.trans he)
    | pauses hl'' => cases hl'.symm.trans hl''

end Drifts

theorem Untouched.drifts (h : Untouched s s') : Drifts s s' := .stays h.stays

/-- A state was granted when those of a list had been entered, and no other has been since. -/
inductive Abides (st : State) (entered : Array State) (s : Scheduler β) : Prop where
  | still : s.lifecycle = st → s.entered = entered → Abides st entered s
  /-- The pause that was asked for has come about. -/
  | paused : st = .requestedPause → s.lifecycle = .paused → s.entered = entered.push .paused →
      Abides st entered s

namespace Abides

theorem stays (habides : Abides st entered s) (h : Stays s s') : Abides st entered s' := by
  cases habides with
  | still hl he => exact .still (h.lifecycle.trans hl) (h.entered.trans he)
  | paused hst hl he => exact .paused hst (h.lifecycle.trans hl) (h.entered.trans he)

theorem drifts (habides : Abides st entered s) (h : Drifts s s') : Abides st entered s' := by
  cases h with
  | stays h => exact habides.stays h
  | pauses hl hl' he =>
    cases habides with
    | still hst hentered => exact .paused (hst.symm.trans hl) hl' (hentered ▸ he)
    | paused _ hpaused => cases hpaused.symm.trans hl

/-- The state machine has no move to the state that was granted. -/
theorem canReach (habides : Abides st entered s) (hst : st.isRequestable = true) :
    s.lifecycle.canReach st = false := by
  cases habides with
  | still hl =>
    rw [hl]
    cases st <;> first | rfl | cases hst
  | paused hst' hl =>
    rw [hl, hst']
    rfl

end Abides
end Scheduler

namespace Handling

variable [Block β]

/-- A request for a state is answered, and not with an error. -/
structure Grants (snapshot : PropertyMap) (h : Handling β) : Prop where
  asks : h.message.AsksForState
  accepted : ∃ data,
    (h.after snapshot).replies = h.scheduler.replies.push (h.message.reply (.ok data))

variable {h : Handling β}

theorem settles (h : Handling β) (snapshot : PropertyMap) (hst : h.message.asked? = some st) :
    Settles h.scheduler h.message st (h.after snapshot) :=
  settles_handle h.scheduler snapshot hst

theorem Grants.of_canReach (hst : h.message.asked? = some st)
    (hreach : h.scheduler.lifecycle.canReach st = true) : h.Grants snapshot := by
  have hask := Message.asksForState_of_asked hst
  cases h.settles snapshot hst with
  | kept _ _ hr | entered _ _ _ hr => exact ⟨hask, _, hr⟩
  | refused _ hunreachable => cases hunreachable.symm.trans hreach

/-- A request that is granted asks for a state, and the scheduler is in it then. -/
theorem Grants.exists_asked (hgrants : h.Grants snapshot) :
    ∃ st, h.message.asked? = some st ∧ (h.after snapshot).lifecycle = st := by
  obtain ⟨data, hdata⟩ := hgrants.accepted
  cases hst : h.message.asked? with
  | none =>
    have hask := hgrants.asks
    obtain ⟨e, he⟩ := h.scheduler.handleOwn_of_none snapshot hask.destination hask.property
      hask.command hst
    rw [after, handle, if_pos hask.destination, he, replies_reply] at hdata
    cases data_of_replies hdata
  | some st =>
    refine ⟨st, rfl, ?_⟩
    cases h.settles snapshot hst with
    | kept hl hstays => exact hstays.lifecycle.trans hl
    | entered _ hl => exact hl
    | refused _ _ _ hr => cases data_of_replies (hdata.symm.trans hr)

/-- As long as nothing else is granted, messages leave the lifecycle as it is. -/
theorem stays_after (habides : Abides st entered h.scheduler) (hst : st.isRequestable = true)
    (hgrants : h.Grants snapshot → h.message.asked? = some st) :
    Stays h.scheduler (h.after snapshot) := by
  cases hasked : h.message.asked? with
  | none => exact stays_handle h.scheduler snapshot hasked
  | some st' =>
    cases h.settles snapshot hasked with
    | kept _ hstays => exact hstays
    | entered hreach _ _ hr =>
      have hask := Message.asksForState_of_asked hasked
      cases hasked.symm.trans (hgrants ⟨hask, _, hr⟩)
      cases hreach.symm.trans (habides.canReach hst)
    | refused _ _ hstays => exact hstays

end Handling

theorem Scheduler.Alternates.abides [Block β] {hs : List (Handling β)}
    (h : Alternates Drifts snapshot s hs s') (habides : Abides st entered s)
    (hst : st.isRequestable = true)
    (hgrants : ∀ t ∈ hs, t.Grants snapshot → t.message.asked? = some st) :
    Abides st entered s' := by
  induction h with
  | rest hR => exact habides.drifts hR
  | @handle _ _ t _ hR _ ih =>
    have hbefore : Abides st entered t.scheduler := (habides.drifts hR).stays ⟨rfl, rfl⟩
    have hstays := t.stays_after hbefore hst (hgrants t List.mem_cons_self)
    exact ih (hbefore.stays hstays) fun t' ht' => hgrants t' (List.mem_cons_of_mem _ ht')

/-! ### Turns -/

namespace Loop

variable [Block β] {l l' w : Loop β}

theorem stays_makePass (l : Loop β) : Stays l.scheduler l.resume.makePass.2.scheduler := by
  refine ⟨lifecycle_makePass l, ?_⟩
  show l.resume.scheduler.entered = l.scheduler.entered
  simp only [resume]
  split <;> rfl

/-- After a pass with progress, a loop that goes on does so at once. -/
theorem scheduler_afterPass {report : PassReport}
    (h : l.afterPass snapshot { report with progressed := true } = .next l') :
    l'.scheduler = l.scheduler := by
  simp only [afterPass, if_true] at h
  split at h
  · cases h
  · cases h
  · split at h
    next =>
      obtain ⟨_, _, hended⟩ := exists_endIn l.scheduler .stopped
        s!"All {l.scheduler.graph.nodes.length} blocks finished"
      cases hended.symm.trans h
    next =>
      cases h
      rfl

theorem drifts_stride (h : l.stride snapshot = .next l') : Drifts l.scheduler l'.scheduler := by
  cases hl : l.scheduler.lifecycle with
  | running =>
    simp only [stride, hl] at h
    rw [scheduler_afterPass h]
    exact .stays (stays_makePass l)
  | paused =>
    simp only [stride, hl] at h
    cases h
    exact .refl _
  | requestedPause =>
    simp only [stride, act, update, hl] at h
    split at h
    · cases h
    next hmove =>
      cases h
      rcases moveTo_cases hmove with ⟨hpaused, -⟩ | ⟨-, -, rfl⟩
      · cases hl.symm.trans hpaused
      · exact .pauses hl rfl rfl
  | requestedStop =>
    simp only [stride, act, hl] at h
    obtain ⟨_, _, hended⟩ := exists_endIn (l.scheduler.exec fun x => x.stopAll x.everyBlock)
      .stopped "Stopped on request"
    cases hended.symm.trans h
  | stopped | idle | initialising | error =>
    simp only [stride, act, hl] at h
    cases h

theorem drifts_act (hwaiting : l.waiting? = none) (h : l.act snapshot = .next l') :
    Drifts l.scheduler l'.scheduler := by
  have hturn := sameTurn_act l l rfl rfl snapshot
  have hawaited : l.awaited = [] := by simp only [awaited, hwaiting]
  rw [hawaited, h] at hturn
  cases hstride : l.stride snapshot with
  | ended =>
    rw [hstride] at hturn
    cases hturn
  | next w =>
    rw [hstride] at hturn
    cases hturn with
    | next hcourse =>
      have hl : w.scheduler.lifecycle = l'.scheduler.lifecycle :=
        congrArg (fun s => s.lifecycle) hcourse.scheduler
      have he : w.scheduler.entered = l'.scheduler.entered :=
        congrArg (fun s => s.entered) hcourse.scheduler
      exact (drifts_stride hstride).trans _ _ _ (.stays ⟨hl.symm, he.symm⟩)

theorem stays_waiting {time : Nat} (h : l.waiting? = some (w, time)) :
    Stays l.scheduler w.scheduler := by
  simp only [waiting?] at h
  split at h
  · split at h
    · cases h
      exact stays_makePass l
    · cases h
  · cases h
    exact .refl
  · cases h

theorem awaited_drifts (h : l.act snapshot = .next l') :
    Alternates Drifts snapshot l.scheduler l.awaited l'.scheduler := by
  simp only [awaited]
  cases hwaiting : l.waiting? with
  | none => exact .rest (drifts_act hwaiting h)
  | some waiting =>
    obtain ⟨w, time⟩ := waiting
    obtain ⟨-, -, hact⟩ := act_of_waiting hwaiting snapshot
    cases h.symm.trans hact
    exact (wait_alternates Drifts.refl Drifts.trans w snapshot time
      (untouched_meetBefore w _).drifts).after Drifts.trans (.stays (stays_waiting hwaiting))

theorem awaited_of_ended {result : Except SchedulerError Unit}
    (h : l.act snapshot = .ended result s) : l.awaited = [] := by
  simp only [awaited]
  cases hwaiting : l.waiting? with
  | none => rfl
  | some waiting => cases h.symm.trans (act_of_waiting hwaiting snapshot).2.2

/-- A loop alternates between handling messages and drifting, whether or not it comes to an end. -/
theorem handlings_drifts (l : Loop β) (snapshot : PropertyMap) (turns : Nat) :
    ∃ s', Alternates Drifts snapshot l.scheduler (l.handlings snapshot turns) s' := by
  induction turns generalizing l with
  | zero => exact ⟨l.scheduler, .rest (.refl _)⟩
  | succ turns ih =>
    have hdrain := (drain_alternates l snapshot).mono fun _ _ => Untouched.drifts
    rw [handlings, handled]
    cases hturn : l.turn snapshot with
    | ended =>
      rw [awaited_of_ended hturn, List.append_nil]
      exact ⟨_, hdrain.trans Drifts.trans (.rest (.refl _))⟩
    | next l' =>
      obtain ⟨s', hs'⟩ := ih l'
      have hturned := hdrain.trans Drifts.trans (awaited_drifts hturn)
      exact ⟨s', hturned.trans Drifts.trans hs'⟩

theorem followed_drifts (l : Loop β) (snapshot : PropertyMap) (events : List Event) :
    ∃ s', Alternates Drifts snapshot l.scheduler (l.followed snapshot events) s' := by
  induction events generalizing l with
  | nil => exact ⟨l.scheduler, .rest (.refl _)⟩
  | cons e events ih =>
    cases e with
    | message m =>
      obtain ⟨s', hs'⟩ := ih (l.update fun s => s.handle snapshot m)
      exact ⟨s', .handle (.stays ⟨rfl, rfl⟩) hs'⟩
    | turn =>
      rw [followed]
      cases hstep : l.step snapshot .turn with
      | ended => exact ⟨l.scheduler, .rest (.refl _)⟩
      | next l' =>
        obtain ⟨s', hs'⟩ := ih l'
        have hcleared : Drifts l.scheduler (l.scheduler.withInbox []) := .stays ⟨rfl, rfl⟩
        exact ⟨s', hs'.after Drifts.trans (hcleared.trans _ _ _ (drifts_stride hstep))⟩

/-- A loop handles messages: those of its turns, or any others at any times. -/
inductive Handles (l : Loop β) (snapshot : PropertyMap) : List (Handling β) → Prop where
  | turns (n : Nat) : Handles l snapshot (l.handlings snapshot n)
  | events (events : List Event) : Handles l snapshot (l.followed snapshot events)

theorem Handles.drifts {hs : List (Handling β)} (h : l.Handles snapshot hs) :
    ∃ s', Alternates Drifts snapshot l.scheduler hs s' := by
  cases h with
  | turns n => exact handlings_drifts l snapshot n
  | events events => exact followed_drifts l snapshot events

/-! ### The main result -/

/-- A request that is made again after it has been granted leaves the lifecycle as it is, however
much the run does in between, unless another request is granted. It is granted again if the
scheduler is still in the state, and this is so unless the request is to pause, and the pause has
come about since. Then it is refused. -/
theorem request_repeated {before between after : List (Handling β)} {h h' : Handling β}
    (hhandles : l.Handles snapshot (before ++ h :: (between ++ h' :: after)))
    (hgrants : h.Grants snapshot)
    (hbetween : ∀ t ∈ between, t.Grants snapshot → t.message.asked? = h.message.asked?)
    (hsame : h'.message.asked? = h.message.asked?) :
    ∃ st, h.message.asked? = some st ∧ Stays h'.scheduler (h'.after snapshot) ∧
      (h'.scheduler.lifecycle = st ∧ h'.scheduler.entered = (h.after snapshot).entered ∧
          (h'.after snapshot).replies = h'.scheduler.replies.push (granting h'.message st) ∨
        st = .requestedPause ∧ h'.scheduler.lifecycle = .paused ∧
          h'.scheduler.entered = (h.after snapshot).entered.push .paused ∧
          (h'.after snapshot).replies =
            h'.scheduler.replies.push (refusing h'.message .paused st)) := by
  obtain ⟨s', hs'⟩ := hhandles.drifts
  obtain ⟨hbefore, -⟩ := (hs'.split.2).split
  obtain ⟨st, hasked, hafter⟩ := hgrants.exists_asked
  have hst := State.isRequestable_of_asked hasked
  have habides : Abides st (h.after snapshot).entered h'.scheduler :=
    (hbefore.abides (.still hafter rfl) hst fun t ht hg =>
      (hbetween t ht hg).trans hasked).stays ⟨rfl, rfl⟩
  have hasked' := hsame.trans hasked
  have hunreachable := habides.canReach hst
  refine ⟨st, hasked, h'.stays_after habides hst fun _ => hasked', ?_⟩
  cases habides with
  | still hl he =>
    refine .inl ⟨hl, he, ?_⟩
    cases h'.settles snapshot hasked' with
    | kept _ _ hr | entered _ _ _ hr => exact hr
    | refused hne => exact absurd hl hne
  | paused hpause hl he =>
    refine .inr ⟨hpause, hl, he, ?_⟩
    cases h'.settles snapshot hasked' with
    | kept hl' => cases hpause.symm.trans (hl'.symm.trans hl)
    | entered hreach => cases hunreachable.symm.trans hreach
    | refused _ _ _ hr => exact hl ▸ hr

end Loop

namespace Scheduler

/-- A run that finds the same request to pause twice in its inbox grants it twice. -/
theorem request_repeated_pause : ∃ snapshot s₀ h h',
    let pause := Client.request "REQUESTED_PAUSE"
    Reachable (endless [pause, pause]) ∧ (endless [pause, pause]).Launches snapshot s₀ ∧
      (Loop.begin s₀ .absent).handlings snapshot 1 = [h, h'] ∧
      h.message = pause ∧ h.Grants snapshot ∧ h'.message = pause ∧ h'.Grants snapshot ∧
      Stays h'.scheduler (h'.after snapshot) := by
  let pause := Client.request "REQUESTED_PAUSE"
  have hpause : pause.asked? = some .requestedPause := rfl
  obtain ⟨snapshot, s₀, hlaunches, hmap⟩ : ∃ snapshot s₀,
      (endless [pause, pause]).Launches snapshot s₀ ∧
      ((Loop.begin s₀ .absent).handlings snapshot 1).map
          (fun h => (h.message, h.scheduler.lifecycle)) =
        [(pause, .running), (pause, .requestedPause)] :=
    ⟨_, _, ⟨_, _, rfl, rfl, rfl⟩, rfl⟩
  simp only [List.map_eq_cons_iff, List.map_eq_nil_iff, Prod.mk.injEq] at hmap
  obtain ⟨h, _, hhandlings, ⟨hm, hl⟩, h', _, rfl, ⟨hm', hl'⟩, rfl⟩ := hmap
  have hhandles : (Loop.begin s₀ .absent).Handles snapshot ([] ++ h :: ([] ++ h' :: [])) :=
    hhandlings ▸ .turns 1
  have hgrants : h.Grants snapshot := .of_canReach (hm ▸ hpause) (hl ▸ rfl)
  refine ⟨snapshot, s₀, h, h', reachable_endless _, hlaunches, hhandlings, hm, hgrants, hm', ?_⟩
  obtain ⟨st, hst, hstays, ⟨-, -, hr⟩ | ⟨-, hpaused, -⟩⟩ :=
    Loop.request_repeated hhandles hgrants (by simp) (by rw [hm, hm'])
  · exact ⟨⟨Message.asksForState_of_asked (hm' ▸ hpause), _, hr⟩, hstays⟩
  · cases hl'.symm.trans hpaused

/-- A client that asks for a pause again once the run has paused, and then for a stop. -/
def insistent : Client := .begin ["REQUESTED_PAUSE", "REQUESTED_PAUSE", "REQUESTED_STOP"]

/-- A run refuses a request to pause that it has granted before, with nothing asked for since. -/
theorem pause_refused : ∃ snapshot s₀ before h between h' after, Reachable (endless []) ∧
    (endless []).Launches snapshot s₀ ∧
    (Loop.begin s₀ insistent).handlings snapshot 24 = before ++ h :: (between ++ h' :: after) ∧
    h.Grants snapshot ∧ (∀ t ∈ between, ¬ t.message.AsksForState) ∧ h'.message = h.message ∧
    h'.scheduler.lifecycle = .paused ∧ ¬ h'.Grants snapshot := by
  let pause := Client.request "REQUESTED_PAUSE"
  have hpause : pause.asked? = some .requestedPause := rfl
  obtain ⟨snapshot, s₀, hlaunches, hmap⟩ : ∃ snapshot s₀, (endless []).Launches snapshot s₀ ∧
      ((Loop.begin s₀ insistent).handlings snapshot 24).map
          (fun h => (h.message, h.scheduler.lifecycle)) =
        [(Client.query, .running), (pause, .running), (Client.query, .paused), (pause, .paused),
          (Client.request "REQUESTED_STOP", .paused)] :=
    ⟨_, _, ⟨_, _, rfl, rfl, rfl⟩, by with_unfolding_all rfl⟩
  simp only [List.map_eq_cons_iff, Prod.mk.injEq] at hmap
  obtain ⟨q, _, hhandlings, -, h, _, rfl, ⟨hm, hl⟩, q', _, rfl, ⟨hq', -⟩, h', after, rfl,
    ⟨hm', hl'⟩, -⟩ := hmap
  have hgrants : h.Grants snapshot := .of_canReach (hm ▸ hpause) (hl ▸ rfl)
  have hrefused : ¬ h'.Grants snapshot := fun hgrants' => by
    obtain ⟨st, hst, hafter⟩ := hgrants'.exists_asked
    cases (hm' ▸ hpause : h'.message.asked? = _).symm.trans hst
    cases h'.settles snapshot hst with
    | kept hl => cases hl'.symm.trans hl
    | entered hreach => cases (hl' ▸ hreach : State.paused.canReach .requestedPause = true)
    | refused _ _ hstays => cases (hafter.symm.trans hstays.lifecycle).trans hl'
  refine ⟨snapshot, s₀, [q], h, [q'], h', after, reachable_endless [], hlaunches, hhandlings,
    hgrants, fun t ht hask => ?_, hm'.trans hm.symm, hl', hrefused⟩
  rw [List.mem_singleton.mp ht, hq'] at hask
  cases hask.command

end Scheduler
end Dataflow
