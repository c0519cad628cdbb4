import Dataflow.Proofs.Scheduler.Handling

/-!
# What messages do to the lifecycle

A request for a state is granted if the scheduler is in the state or the state machine has the move,
and refused otherwise (`Scheduler.Settles`). No other message does anything to the lifecycle
(`Scheduler.Stays`). So a message puts a run into a state that depends on the message and on the
state that it finds, and on nothing else (`State.heeding`, `lifecycle_handle`).
-/

namespace Dataflow

open Lifecycle (State)

/-- The state that a message asks the scheduler to enter. -/
def Message.asked? (m : Message) : Option State :=
  if m.destination = "" ∧ m.property = "LifecycleState" ∧ m.command = .set then
    (Scheduler.requestedState m).toOption
  else none

theorem Message.requestedState_of_asked {m : Message} {st : State} (h : m.asked? = some st) :
    Scheduler.requestedState m = .ok st := by
  rw [asked?] at h
  split at h
  · cases hst : Scheduler.requestedState m with
    | error e => simp [hst, Except.toOption] at h
    | ok st' =>
      rw [hst] at h
      cases h
      rfl
  · cases h

theorem Message.isSet_of_asked {m : Message} {st : State} (h : m.asked? = some st) :
    m.destination = "" ∧ m.property = "LifecycleState" ∧ m.command = .set := by
  rw [asked?] at h
  split at h
  next hset => exact hset
  next => cases h

namespace Lifecycle.State

/-- The state of a scheduler once it has handled a message. -/
def heeding (st : State) (m : Message) : State :=
  match m.asked? with
  | none => st
  | some target => if st.canReach target then target else st

/-- States in which a turn pauses the blocks, or waits for them to be resumed. -/
def IsPausing : State → Prop
  | .requestedPause | .paused => True
  | _ => False

theorem isRequestable_of_asked {m : Message} {st : State} (h : m.asked? = some st) :
    st.isRequestable = true :=
  Scheduler.isRequestable_of_requestedState (Message.requestedState_of_asked h)

theorem IsLive.heeding {st : State} (h : st.IsLive) (m : Message) : (st.heeding m).IsLive := by
  simp only [State.heeding]
  split
  · exact h
  next target hm =>
    split
    · exact .of_isRequestable (isRequestable_of_asked hm)
    · exact h

end Lifecycle.State

namespace Scheduler

variable {β : Type} {s s' s'' : Scheduler β} {m : Message} {st : State}

/-- The lifecycle of a scheduler is as it was, and has not changed in between. -/
structure Stays (s s' : Scheduler β) : Prop where
  lifecycle : s'.lifecycle = s.lifecycle
  entered : s'.entered = s.entered

namespace Stays

theorem refl : Stays s s := ⟨rfl, rfl⟩

theorem trans (h : Stays s s') (h' : Stays s' s'') : Stays s s'' :=
  ⟨h'.lifecycle.trans h.lifecycle, h'.entered.trans h.entered⟩

end Stays

theorem Untouched.stays (h : Untouched s s') : Stays s s' := ⟨h.lifecycle, h.entered⟩

/-- The reply to a request that is granted. -/
def granting (m : Message) (st : State) : Message := m.reply (.ok [("state", .string st.name)])

/-- The reply to a request that the state machine refuses. -/
def refusing (m : Message) (current st : State) : Message :=
  m.reply (.error (.lifecycle (.invalidTransition current st)))

/-- What a scheduler does with a request for a state. -/
inductive Settles (s : Scheduler β) (m : Message) (st : State) (s' : Scheduler β) : Prop where
  /-- It is there already. -/
  | kept : s.lifecycle = st → Stays s s' → s'.replies = s.replies.push (granting m st) →
      Settles s m st s'
  | entered : s.lifecycle.canReach st = true → s'.lifecycle = st →
      s'.entered = s.entered.push st → s'.replies = s.replies.push (granting m st) →
      Settles s m st s'
  | refused : s.lifecycle ≠ st → s.lifecycle.canReach st = false → Stays s s' →
      s'.replies = s.replies.push (refusing m s.lifecycle st) → Settles s m st s'

theorem Settles.lifecycle (h : Settles s m st s') :
    s'.lifecycle = if s.lifecycle.canReach st then st else s.lifecycle := by
  cases h with
  | kept hl hstays => rw [hstays.lifecycle, hl, ite_self]
  | entered hreach hl => rw [hl, hreach, if_pos rfl]
  | refused _ hreach hstays => rw [hstays.lifecycle, hreach, if_neg Bool.false_ne_true]

/-! ### Messages to the scheduler -/

/-- Only a request for a state changes a scheduler that answers it. -/
theorem answerOwn_of_get (s : Scheduler β) (snapshot : PropertyMap)
    (hm : ¬ (m.property = "LifecycleState" ∧ m.command = .set)) :
    (s.answerOwn snapshot m).2 = s := by
  simp only [answerOwn]
  split
  case h_2 hproperty hcommand => exact absurd ⟨hproperty, hcommand⟩ hm
  all_goals rfl

theorem handleOwn_of_set (s : Scheduler β) (snapshot : PropertyMap)
    (hproperty : m.property = "LifecycleState") (hcommand : m.command = .set) :
    s.handleOwn snapshot m = (s.requestState m).2.reply m (s.requestState m).1 := by
  simp only [handleOwn, answerOwn, hproperty, hcommand]

theorem settles_handleOwn (s : Scheduler β) (snapshot : PropertyMap) (h : m.asked? = some st) :
    Settles s m st (s.handleOwn snapshot m) := by
  have hrequested := Message.requestedState_of_asked h
  obtain ⟨-, hproperty, hcommand⟩ := Message.isSet_of_asked h
  rw [handleOwn_of_set s snapshot hproperty hcommand]
  by_cases hsame : s.lifecycle = st
  · have hrequest : s.requestState m = (.ok [("state", .string st.name)], s) := by
      simp [requestState, hrequested, moveTo, State.transition, hsame, stateMap]
    rw [hrequest]
    exact .kept hsame (untouched_reply ..).stays (replies_reply ..)
  · cases hreach : s.lifecycle.canReach st with
    | true =>
      have hrequest : s.requestState m = (.ok [("state", .string st.name)], (s.enter st).say .info
          s!"Lifecycle change requested: {s.lifecycle.name} -> {st.name}") := by
        simp [requestState, hrequested, moveTo, State.transition, hsame, hreach, stateMap, enter,
          say, exec]
      rw [hrequest]
      exact .entered hreach rfl rfl (replies_reply ..)
    | false =>
      have hrequest : s.requestState m =
          (.error (.lifecycle (.invalidTransition s.lifecycle st)), s) := by
        simp [requestState, hrequested, moveTo, State.transition, hsame, hreach]
      rw [hrequest]
      exact .refused hsame hreach (untouched_reply ..).stays (replies_reply ..)

/-- A request that does not name a state that may be asked for gets an error. -/
theorem handleOwn_of_none (s : Scheduler β) (snapshot : PropertyMap) (hm : m.destination = "")
    (hproperty : m.property = "LifecycleState") (hcommand : m.command = .set)
    (h : m.asked? = none) : ∃ e, s.handleOwn snapshot m = s.reply m (.error e) := by
  have hasked : m.asked? = (requestedState m).toOption := if_pos ⟨hm, hproperty, hcommand⟩
  rw [hasked] at h
  rw [handleOwn_of_set s snapshot hproperty hcommand]
  cases hst : requestedState m with
  | ok st => simp [hst, Except.toOption] at h
  | error e =>
    simp only [requestState, hst]
    exact ⟨e, rfl⟩

/-- A message that asks for no state, or for one that there is not. -/
theorem stays_handleOwn (s : Scheduler β) (snapshot : PropertyMap) (hm : m.destination = "")
    (h : m.asked? = none) : Stays s (s.handleOwn snapshot m) := by
  by_cases hset : m.property = "LifecycleState" ∧ m.command = .set
  · obtain ⟨e, he⟩ := s.handleOwn_of_none snapshot hm hset.1 hset.2 h
    rw [he]
    exact (untouched_reply ..).stays
  · have hown : Stays s (s.answerOwn snapshot m).2 := by
      rw [s.answerOwn_of_get snapshot hset]
      exact .refl
    exact hown.trans (untouched_reply ..).stays

theorem lifecycle_handleOwn (s : Scheduler β) (snapshot : PropertyMap) {m : Message}
    (hm : m.destination = "") :
    (s.handleOwn snapshot m).lifecycle = s.lifecycle.heeding m := by
  simp only [State.heeding]
  cases hasked : m.asked? with
  | none => exact (s.stays_handleOwn snapshot hm hasked).lifecycle
  | some st => exact (s.settles_handleOwn snapshot hasked).lifecycle

/-! ### All messages -/

variable [Block β]

theorem settles_handle (s : Scheduler β) (snapshot : PropertyMap) (h : m.asked? = some st) :
    Settles s m st (s.handle snapshot m) := by
  rw [handle, if_pos (Message.isSet_of_asked h).1]
  exact s.settles_handleOwn snapshot h

theorem stays_handle (s : Scheduler β) (snapshot : PropertyMap) (h : m.asked? = none) :
    Stays s (s.handle snapshot m) := by
  rw [handle]
  split
  next hm => exact s.stays_handleOwn snapshot hm h
  next =>
    let t : Scheduler β := { s with toExecution := (s.answerFrom s.everyBlock m).2 }
    have ht : Stays s t := ⟨rfl, rfl⟩
    exact ht.trans (untouched_reply t m _).stays

theorem lifecycle_handle (s : Scheduler β) (snapshot : PropertyMap) (m : Message) :
    (s.handle snapshot m).lifecycle = s.lifecycle.heeding m := by
  simp only [State.heeding]
  cases hasked : m.asked? with
  | none => exact (s.stays_handle snapshot hasked).lifecycle
  | some st => exact (s.settles_handle snapshot hasked).lifecycle

theorem lifecycle_drain (s : Scheduler β) (snapshot : PropertyMap) :
    (s.drain snapshot).lifecycle = s.inbox.foldl State.heeding s.lifecycle :=
  (List.foldl_hom Scheduler.lifecycle fun s m => (lifecycle_handle s snapshot m).symm).symm

end Scheduler
end Dataflow
