import Dataflow.Proofs.Execution.Pass

/-!
# The lifecycle of a scheduler

A scheduler `Walks` from one lifecycle state to another if each state that it enters on the way can
follow the one before. It `Proceeds` if meanwhile its blocks take quiet calls only, which is what
all does that a scheduler does with messages, and with a pause. A run is live (`IsLive`) as long as
no turn of it has ended it; messages keep it so.
-/

namespace Dataflow

open Lifecycle (State)
open Execution (Quietly)

/-- A path leads from a state to another by moves of the state machine. -/
def Lifecycle.State.Leads (st : State) : List State → State → Prop
  | [], last => st = last
  | next :: path, last => st.canReach next = true ∧ next.Leads path last

theorem Lifecycle.State.Leads.append {st mid last : State} {path path' : List State}
    (h : st.Leads path mid) (h' : mid.Leads path' last) : st.Leads (path ++ path') last := by
  induction path generalizing st with
  | nil =>
    cases h
    exact h'
  | cons next path ih => exact ⟨h.1, ih h.2⟩

/-- States in which a run goes on. -/
def Lifecycle.State.IsLive : State → Prop
  | .running | .requestedPause | .paused | .requestedStop => True
  | _ => False

theorem Lifecycle.State.IsLive.of_isRequestable {st : State} (h : st.isRequestable = true) :
    st.IsLive := by
  cases st <;> trivial

namespace Scheduler

variable {β : Type} {s s' s'' : Scheduler β}

/-- The lifecycle of a scheduler goes on by moves of the state machine. -/
structure Walks (s s' : Scheduler β) : Prop where
  path : ∃ path, s'.entered.toList = s.entered.toList ++ path ∧
    s.lifecycle.Leads path s'.lifecycle
  config : s'.config = s.config

namespace Walks

theorem of_eq (hl : s'.lifecycle = s.lifecycle) (he : s'.entered = s.entered)
    (hc : s'.config = s.config) : Walks s s' :=
  ⟨⟨[], by simp [he], hl.symm⟩, hc⟩

theorem refl : Walks s s := of_eq rfl rfl rfl

theorem trans (h : Walks s s') (h' : Walks s' s'') : Walks s s'' := by
  obtain ⟨⟨path, he, hl⟩, hc⟩ := h
  obtain ⟨⟨path', he', hl'⟩, hc'⟩ := h'
  exact ⟨⟨path ++ path', by rw [he', he, List.append_assoc], hl.append hl'⟩, hc'.trans hc⟩

theorem enter {st : State} (h : s.lifecycle.canReach st = true) : Walks s (s.enter st) :=
  ⟨⟨[st], by simp [Scheduler.enter, say, exec], h, rfl⟩, rfl⟩

end Walks

theorem moveTo_of_canReach {st : State} (h : s.lifecycle.canReach st = true) :
    ∃ s', s.moveTo st = .ok s' := by
  simp [moveTo, State.transition, h]

theorem moveTo_spec {st : State} (h : s.moveTo st = .ok s') :
    Walks s s' ∧ s'.lifecycle = st ∧ s'.graph = s.graph ∧ s'.journal = s.journal := by
  simp only [moveTo, State.transition] at h
  split at h
  · cases h
  next hok =>
    split at hok
    next hreach =>
      cases h
      by_cases heq : s.lifecycle = st
      · simp only [heq, if_true, and_self, and_true]
        exact .refl
      · simp only [heq, if_false, decide_false, Bool.false_or] at hreach ⊢
        exact ⟨.enter hreach, rfl, rfl, rfl⟩
    next => cases hok

theorem inbox_moveTo {st : State} (h : s.moveTo st = .ok s') : s'.inbox = s.inbox := by
  rw [moveTo] at h
  split at h
  · cases h
  · cases h
    split <;> rfl

/-- A scheduler goes on by moves of the state machine while blocks take quiet calls. -/
structure Proceeds (s s' : Scheduler β) : Prop where
  walks : Walks s s'
  quietly : Quietly s.toExecution s'.toExecution
  live : s.lifecycle.IsLive → s'.lifecycle.IsLive

namespace Proceeds

theorem refl : Proceeds s s := ⟨.refl, .refl, id⟩

theorem trans (h : Proceeds s s') (h' : Proceeds s' s'') : Proceeds s s'' :=
  ⟨h.walks.trans h'.walks, h.quietly.trans h'.quietly, fun hs => h'.live (h.live hs)⟩

/-- Quiet calls alone. -/
theorem of_quietly (hq : Quietly s.toExecution s'.toExecution)
    (hl : s'.lifecycle = s.lifecycle) (he : s'.entered = s.entered) (hc : s'.config = s.config) :
    Proceeds s s' :=
  ⟨.of_eq hl he hc, hq, fun h => hl ▸ h⟩

theorem foldl {α : Type} {f : Scheduler β → α → Scheduler β} (hf : ∀ s a, Proceeds s (f s a))
    (s : Scheduler β) (l : List α) : Proceeds s (l.foldl f s) := by
  induction l generalizing s with
  | nil => exact .refl
  | cons a l ih => exact (hf s a).trans (ih (f s a))

end Proceeds

/-- Nothing happens to blocks or lifecycle. -/
structure Untouched (s s' : Scheduler β) : Prop where
  lifecycle : s'.lifecycle = s.lifecycle
  entered : s'.entered = s.entered
  config : s'.config = s.config
  graph : s'.graph = s.graph
  journal : s'.journal = s.journal

namespace Untouched

theorem refl : Untouched s s := ⟨rfl, rfl, rfl, rfl, rfl⟩

theorem trans (h : Untouched s s') (h' : Untouched s' s'') : Untouched s s'' :=
  ⟨h'.lifecycle.trans h.lifecycle, h'.entered.trans h.entered, h'.config.trans h.config,
    h'.graph.trans h.graph, h'.journal.trans h.journal⟩

theorem proceeds (h : Untouched s s') : Proceeds s s' :=
  ⟨.of_eq h.lifecycle h.entered h.config, .of_eq (by rw [h.graph]) h.journal,
    fun hs => h.lifecycle ▸ hs⟩

end Untouched

/-! ### Messages -/

theorem untouched_reply (s : Scheduler β) (m : Message) (data : Except MessageError PropertyMap) :
    Untouched s (s.reply m data) := by
  unfold reply
  cases data <;> exact ⟨rfl, rfl, rfl, rfl, rfl⟩

theorem isRequestable_of_requestedState {m : Message} {st : State}
    (h : requestedState m = .ok st) : st.isRequestable = true := by
  simp only [requestedState, bind, Except.bind] at h
  split at h
  · cases h
  · split at h
    · split at h
      · cases h
      · split at h
        · cases h
        · split at h
          next hreq =>
            cases h
            exact hreq
          next => cases h
    · cases h

theorem proceeds_requestState (s : Scheduler β) (m : Message) :
    Proceeds s (s.requestState m).2 := by
  simp only [requestState]
  split
  · exact .refl
  next st hst =>
    split
    · exact .refl
    next s' hmove =>
      obtain ⟨hw, hl, hg, hj⟩ := moveTo_spec hmove
      have hp : Proceeds s s' := ⟨hw, .of_eq (by rw [hg]) hj,
        fun _ => hl ▸ .of_isRequestable (isRequestable_of_requestedState hst)⟩
      refine hp.trans ?_
      dsimp only
      split
      · exact .refl
      · exact Untouched.proceeds ⟨rfl, rfl, rfl, rfl, rfl⟩

theorem proceeds_handleOwn (s : Scheduler β) (snapshot : PropertyMap) (m : Message) :
    Proceeds s (s.handleOwn snapshot m) := by
  have howned : Proceeds s (s.answerOwn snapshot m).2 := by
    simp only [answerOwn]
    split
    case h_2 => exact proceeds_requestState s m
    all_goals exact .refl
  exact howned.trans (untouched_reply _ m _).proceeds

/-! ### After the run -/

theorem untouched_reject (s : Scheduler β) (snapshot : PropertyMap) (m : Message) :
    Untouched s (reject snapshot s m) := by
  simp only [reject]
  split
  next h =>
    simp only [handleOwn, answerOwn]
    split
    case h_2 hset =>
      -- requests to change the state are not answered
      simp_all
    all_goals exact untouched_reply s m _
  · exact untouched_reply s m _

theorem untouched_rejectPending (s : Scheduler β) (snapshot : PropertyMap) :
    Untouched s (s.rejectPending snapshot) := by
  have hfold : ∀ (l : List Message) (s₁ : Scheduler β), Untouched s s₁ →
      Untouched s (l.foldl (reject snapshot) s₁) := by
    intro l
    induction l with
    | nil => exact fun _ h => h
    | cons m l ih => exact fun s₁ h => ih _ (h.trans (untouched_reject s₁ snapshot m))
  exact hfold _ _ ⟨rfl, rfl, rfl, rfl, rfl⟩

theorem untouched_answerRest (s : Scheduler β) (snapshot : PropertyMap)
    (result : Except SchedulerError Unit) : Untouched s (s.answerRest snapshot result) := by
  unfold answerRest
  split
  · exact ⟨rfl, rfl, rfl, rfl, rfl⟩
  · exact untouched_rejectPending s snapshot

/-! ### Messages during the run -/

variable [Block β]

theorem proceeds_handle (s : Scheduler β) (snapshot : PropertyMap) (m : Message) :
    Proceeds s (s.handle snapshot m) := by
  simp only [handle]
  split
  · exact proceeds_handleOwn s snapshot m
  · have hq := Execution.quietly_answerFrom s.toExecution s.everyBlock m
    have hp : Proceeds s { s with toExecution := (s.answerFrom s.everyBlock m).2 } :=
      .of_quietly hq rfl rfl rfl
    exact hp.trans (untouched_reply _ m _).proceeds

theorem proceeds_drain (s : Scheduler β) (snapshot : PropertyMap) :
    Proceeds s (s.drain snapshot) := by
  have hp : Proceeds s { s with inbox := [] } := Untouched.proceeds ⟨rfl, rfl, rfl, rfl, rfl⟩
  exact hp.trans (.foldl (fun s m => proceeds_handle s snapshot m) _ _)

end Scheduler
end Dataflow
