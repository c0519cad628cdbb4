import Dataflow.Proofs.Scheduler.Heeding
import Dataflow.Proofs.Scheduler.Launch
import Dataflow.Proofs.Scheduler.Strides

/-!
# Stop requests

A stop request (`Message.IsStop`) that a loop handles is granted, in whatever state the run is. From
then on the lifecycle of the scheduler stays as it is, whichever messages follow, until the next
time that the loop acts, which is by stopping all blocks and ending the run: within a turn if the
request was there when the turn began, or else, if the request ended a wait, in the turn after
(`Loop.handlings_stop`). A loop that follows events ends with its next turn, whichever messages they
are and whenever they come (`Loop.followed_stop`).
-/

namespace Dataflow

open Lifecycle (State)
open Execution (Extends Halts)

/-- A request to the scheduler to stop. -/
structure Message.IsStop (m : Message) : Prop where
  command : m.command = .set
  destination : m.destination = ""
  property : m.property = "LifecycleState"
  state : ∃ payload, m.data = .ok payload ∧
    Dictionary.get? payload "state" = some (.string "REQUESTED_STOP")

theorem Message.IsStop.asked {m : Message} (h : m.IsStop) : m.asked? = some .requestedStop := by
  obtain ⟨payload, hdata, hstate⟩ := h.state
  rw [asked?, if_pos ⟨h.destination, h.property, h.command⟩]
  simp only [Scheduler.requestedState, hdata, bind, Except.bind, hstate]
  rfl

namespace Scheduler

variable {β : Type} {s s' s'' : Scheduler β} {snapshot : PropertyMap}

theorem canReach_requestedStop {st : State} (h : st.IsLive) (hne : st ≠ .requestedStop) :
    st.canReach .requestedStop = true := by
  cases st <;> first | rfl | exact h.elim | exact absurd rfl hne

theorem requestedStop_canReach {st : State} (h : st.isRequestable = true) :
    State.requestedStop.canReach st = false := by
  cases st <;> first | rfl | cases h

/-- What handling messages does once a stop has been granted. -/
structure Lingers (s s' : Scheduler β) : Prop where
  lifecycle : s'.lifecycle = .requestedStop
  entered : s'.entered = s.entered
  extends_ : Extends s.toExecution s'.toExecution []

theorem Lingers.trans (h : Lingers s s') (h' : Lingers s' s'') : Lingers s s'' :=
  ⟨h'.lifecycle, h'.entered.trans h.entered, h.extends_.trans h'.extends_⟩

theorem Untouched.lingers (h : Untouched s s') (hl : s.lifecycle = .requestedStop) :
    Lingers s s' :=
  ⟨h.lifecycle.trans hl, h.entered, .of_eq (by rw [h.graph]) h.journal⟩

variable [Block β]

/-- A stop request is granted in every state in which a run goes on. -/
theorem handle_isStop (hlive : s.lifecycle.IsLive) {m : Message} (h : m.IsStop) :
    (s.handle snapshot m).lifecycle = .requestedStop ∧
      (s.handle snapshot m).replies =
        s.replies.push (m.reply (.ok [("state", .string "REQUESTED_STOP")])) := by
  cases s.settles_handle snapshot h.asked with
  | kept hl hstays hr => exact ⟨hstays.lifecycle.trans hl, hr⟩
  | entered _ hl _ hr => exact ⟨hl, hr⟩
  | refused hne hreach => cases hreach.symm.trans (canReach_requestedStop hlive hne)

/-- Once a stop has been granted, no request changes the lifecycle. -/
theorem handle_requestedStop (hl : s.lifecycle = .requestedStop) (snapshot : PropertyMap)
    (m : Message) :
    (s.handle snapshot m).lifecycle = .requestedStop ∧
      (s.handle snapshot m).entered = s.entered := by
  have hstays : Stays s (s.handle snapshot m) := by
    cases hasked : m.asked? with
    | none => exact s.stays_handle snapshot hasked
    | some st =>
      cases s.settles_handle snapshot hasked with
      | kept _ hstays | refused _ _ hstays => exact hstays
      | entered hreach =>
        rw [hl, requestedStop_canReach (State.isRequestable_of_asked hasked)] at hreach
        cases hreach
  exact ⟨hstays.lifecycle.trans hl, hstays.entered⟩

/-! ### Messages while nothing else happens -/

/-- A message handled while the lifecycle stays in `requestedStop`. -/
def Handling.IsVain (snapshot : PropertyMap) (h : Handling β) : Prop :=
  h.scheduler.lifecycle = .requestedStop ∧ (h.after snapshot).lifecycle = .requestedStop

theorem Alternates.lingers {hs : List (Handling β)} (h : Alternates Untouched snapshot s hs s')
    (hl : s.lifecycle = .requestedStop) :
    (∀ h ∈ hs, Handling.IsVain snapshot h) ∧ Lingers s s' := by
  induction h with
  | rest hR => exact ⟨by simp, hR.lingers hl⟩
  | @handle s s' h hs hR _ ih =>
    have hbefore := hR.lingers hl
    have hscheduler : h.scheduler.lifecycle = .requestedStop := hbefore.lifecycle
    obtain ⟨hafter, hentered⟩ := handle_requestedStop hscheduler snapshot h.message
    obtain ⟨hvain, hlingers⟩ := ih hafter
    have hhandle : Lingers s (h.after snapshot) :=
      ⟨hafter, hentered.trans hbefore.entered, hbefore.extends_.trans (extends_after h snapshot)⟩
    refine ⟨fun h' hmem => ?_, hhandle.trans hlingers⟩
    rcases List.mem_cons.mp hmem with rfl | hmem
    · exact ⟨hscheduler, hafter⟩
    · exact hvain h' hmem

theorem Alternates.proceeds {hs : List (Handling β)} (h : Alternates Untouched snapshot s hs s') :
    Proceeds s s' := by
  induction h with
  | rest hR => exact hR.proceeds
  | @handle _ _ h _ hR _ ih =>
    have htaken : Proceeds h.before h.scheduler := Untouched.proceeds ⟨rfl, rfl, rfl, rfl, rfl⟩
    exact ((hR.proceeds.trans htaken).trans (proceeds_handle ..)).trans ih

/-- A message among others asks to stop. -/
theorem Alternates.isStop {before after : List (Handling β)} {h : Handling β}
    (halt : Alternates Untouched snapshot s (before ++ h :: after) s')
    (hlive : s.lifecycle.IsLive) (hstop : h.message.IsStop) : h.scheduler.lifecycle.IsLive ∧
      (∀ h ∈ after, Handling.IsVain snapshot h) ∧ Lingers (h.after snapshot) s' := by
  obtain ⟨hbefore, hafter⟩ := halt.split
  have hscheduler : h.scheduler.lifecycle.IsLive := hbefore.proceeds.live hlive
  exact ⟨hscheduler, hafter.lingers (handle_isStop hscheduler hstop).1⟩

end Scheduler

/-! ### Turns -/

open Scheduler

variable {β : Type}

/-- All blocks are stopped, and the run is over. -/
structure Scheduler.Stops (s s' : Scheduler β) : Prop where
  entered : s'.entered = s.entered.push .stopped
  halts : Halts s.toExecution s'.toExecution

theorem Scheduler.Lingers.stops {s s' s'' : Scheduler β} (h : Lingers s s') (h' : Stops s' s'') :
    Stops s s'' := by
  obtain ⟨calls, he, hstop⟩ := h'.halts.calls
  refine ⟨by rw [h'.entered, h.entered], ⟨calls, h.extends_.trans he, hstop⟩, fun j => ?_⟩
  rw [h'.halts.states, h.extends_.states]
  rfl

namespace Loop

variable [Block β]

theorem drain_alternates (l : Loop β) (snapshot : PropertyMap) :
    Alternates Untouched snapshot l.scheduler (l.meet.scheduler.handled snapshot)
      (l.meet.scheduler.drain snapshot) :=
  (alternates_drain Untouched (fun _ => .refl) l.meet.scheduler snapshot).after
    (fun _ _ _ => .trans) (untouched_meet l)

theorem act_requestedStop {l : Loop β} (hl : l.scheduler.lifecycle = .requestedStop)
    (snapshot : PropertyMap) : l.awaited = [] ∧
      ∃ s', l.act snapshot = .ended (.ok ()) s' ∧ Stops l.scheduler s' := by
  let s := l.scheduler.exec fun x => x.stopAll x.everyBlock
  have hmove : s.moveTo .stopped = .ok (s.enter .stopped) := by
    have hs : s.lifecycle = .requestedStop := hl
    simp [moveTo, State.transition, hs, State.canReach]
  have hh := Execution.halts_stopAll l.scheduler.toExecution
  refine ⟨by simp only [awaited, waiting?, hl], (s.enter .stopped).say .info "Stopped on request",
    ?_, rfl, hh.before rfl rfl⟩
  simp only [act, hl, endIn]
  rw [hmove]

theorem turn_requestedStop {l : Loop β} (hl : l.scheduler.lifecycle = .requestedStop)
    (snapshot : PropertyMap) : (∀ h ∈ l.handled snapshot, Handling.IsVain snapshot h) ∧
      ∃ s', l.turn snapshot = .ended (.ok ()) s' ∧ Stops l.scheduler s' := by
  obtain ⟨hvain, hlingers⟩ := (drain_alternates l snapshot).lingers hl
  obtain ⟨hawaited, s', hact, hstops⟩ :=
    act_requestedStop (l := l.meet.update fun s => s.drain snapshot) hlingers.lifecycle snapshot
  refine ⟨?_, s', hact, hlingers.stops hstops⟩
  rw [handled, hawaited, List.append_nil]
  exact hvain

theorem handlings_requestedStop {l : Loop β} (hl : l.scheduler.lifecycle = .requestedStop)
    (snapshot : PropertyMap) (turns : Nat) :
    ∀ h ∈ l.handlings snapshot turns, Handling.IsVain snapshot h := by
  obtain ⟨hvain, s', hturn, -⟩ := turn_requestedStop hl snapshot
  cases turns with
  | zero => simp [handlings]
  | succ turns =>
    rw [handlings, hturn, List.append_nil]
    exact hvain

theorem append_eq_append_cons {α : Type} {xs ys before after : List α} {a : α}
    (h : xs ++ ys = before ++ a :: after) :
    (∃ rest, xs = before ++ a :: rest ∧ after = rest ++ ys) ∨
      ∃ rest, before = xs ++ rest ∧ ys = rest ++ a :: after := by
  rcases List.append_eq_append_iff.mp h with ⟨rest, rfl, hys⟩ | ⟨rest, rfl, hys⟩
  · exact .inr ⟨rest, rfl, hys⟩
  · rcases List.cons_eq_append_iff.mp hys with ⟨rfl, hys⟩ | ⟨rest, rfl, rfl⟩
    · exact .inr ⟨[], by simp, by simpa using hys.symm⟩
    · exact .inl ⟨rest, rfl, rfl⟩

/-- A turn ends the run if a stop request was there when the turn began. -/
theorem turn_of_handled {l : Loop β} {snapshot : PropertyMap} (hlive : l.scheduler.lifecycle.IsLive)
    {before rest : List (Handling β)} {h : Handling β}
    (hh : l.meet.scheduler.handled snapshot = before ++ h :: rest) (hstop : h.message.IsStop) :
    h.scheduler.lifecycle.IsLive ∧ (∀ h ∈ rest, Handling.IsVain snapshot h) ∧
      (l.meet.update fun s => s.drain snapshot).awaited = [] ∧
      ∃ s', l.turn snapshot = .ended (.ok ()) s' ∧ Stops (h.after snapshot) s' := by
  have hdrain := drain_alternates l snapshot
  rw [hh] at hdrain
  obtain ⟨hscheduler, hvain, hlingers⟩ := hdrain.isStop hlive hstop
  obtain ⟨hawaited, s', hact, hstops⟩ :=
    act_requestedStop (l := l.meet.update fun s => s.drain snapshot) hlingers.lifecycle snapshot
  exact ⟨hscheduler, hvain, hawaited, s', hact, hlingers.stops hstops⟩

/-- A stop request ends a wait, and with it a turn. -/
theorem turn_of_awaited {l : Loop β} (snapshot : PropertyMap) {before rest : List (Handling β)}
    {h : Handling β}
    (hh : (l.meet.update fun s => s.drain snapshot).awaited = before ++ h :: rest)
    (hstop : h.message.IsStop) :
    h.scheduler.lifecycle.IsLive ∧ (∀ h ∈ rest, Handling.IsVain snapshot h) ∧
      ∃ l', l.turn snapshot = .next l' ∧ Lingers (h.after snapshot) l'.scheduler := by
  simp only [awaited] at hh
  split at hh
  · simp at hh
  next w time hwaiting =>
    obtain ⟨-, hwlive, hact⟩ := act_of_waiting hwaiting snapshot
    have hwait := wait_alternates (R := Untouched) (fun _ => .refl)
      (fun _ _ _ => .trans) w snapshot time (untouched_meetBefore w _)
    rw [hh] at hwait
    obtain ⟨hscheduler, hvain, hlingers⟩ := hwait.isStop hwlive hstop
    exact ⟨hscheduler, hvain, _, hact, hlingers⟩

theorem handlings_stop {snapshot : PropertyMap} {turns : Nat} {l : Loop β}
    (hlive : l.scheduler.lifecycle.IsLive) {before after : List (Handling β)} {h : Handling β}
    (hh : l.handlings snapshot turns = before ++ h :: after) (hstop : h.message.IsStop) :
    h.scheduler.lifecycle.IsLive ∧ (∀ h ∈ after, Handling.IsVain snapshot h) ∧
      ∃ fuel s', l.run snapshot fuel = some (.ok (), s') ∧ Stops (h.after snapshot) s' := by
  induction turns generalizing l before with
  | zero => simp [handlings] at hh
  | succ turns ih =>
    rw [handlings, handled, List.append_assoc] at hh
    -- the request was there when the turn began, or ended its wait, or belongs to a later turn
    rcases append_eq_append_cons hh with ⟨rest, hhandled, rfl⟩ | ⟨before', -, hlater⟩
    · obtain ⟨hscheduler, hvain, hawaited, s', hturn, hstops⟩ :=
        turn_of_handled hlive hhandled hstop
      refine ⟨hscheduler, ?_, 1, s', by rw [run, hturn], hstops⟩
      rw [hawaited, hturn, List.append_nil, List.append_nil]
      exact hvain
    rcases append_eq_append_cons hlater with ⟨rest, hawaited, rfl⟩ | ⟨before'', -, hnext⟩
    · obtain ⟨hscheduler, hvain, l', hturn, hlingers⟩ := turn_of_awaited snapshot hawaited hstop
      obtain ⟨-, s', hturn', hstops⟩ := turn_requestedStop hlingers.lifecycle snapshot
      refine ⟨hscheduler, fun h' hmem => ?_, 2, s', by simp only [run, hturn, hturn'],
        hlingers.stops hstops⟩
      rw [hturn] at hmem
      rcases List.mem_append.mp hmem with hmem | hmem
      · exact hvain h' hmem
      · exact handlings_requestedStop hlingers.lifecycle snapshot turns h' hmem
    · have hleads := leadsOn_turn l snapshot hlive
      cases hturn : l.turn snapshot with
      | ended result s' => simp [hturn] at hnext
      | next l' =>
        rw [hturn] at hnext hleads
        cases hleads with
        | next hproceeds =>
          obtain ⟨hscheduler, hvain, fuel, s', hrun, hstops⟩ := ih (hproceeds.live hlive) hnext
          exact ⟨hscheduler, hvain, fuel + 1, s', by rw [run, hturn]; exact hrun, hstops⟩

/-! ### Events -/

theorem step_requestedStop {l : Loop β} (hl : l.scheduler.lifecycle = .requestedStop)
    (snapshot : PropertyMap) :
    ∃ s', l.step snapshot .turn = .ended (.ok ()) s' ∧ Stops l.scheduler s' := by
  have hcleared : Untouched l.scheduler (l.scheduler.withInbox []) := ⟨rfl, rfl, rfl, rfl, rfl⟩
  obtain ⟨-, s', hact, hstops⟩ :=
    act_requestedStop (l := l.update fun s => s.withInbox []) hl snapshot
  have hl' : (l.update fun s => s.withInbox []).scheduler.lifecycle = .requestedStop := hl
  refine ⟨s', ?_, (hcleared.lingers hl).stops hstops⟩
  simp only [step, stride, hl']
  exact hact

theorem followed_requestedStop {l : Loop β} (hl : l.scheduler.lifecycle = .requestedStop)
    (snapshot : PropertyMap) (events : List Event) :
    (∀ h ∈ l.followed snapshot events, Handling.IsVain snapshot h) ∧
      ∃ s', l.follow snapshot (events ++ [.turn]) = .ended (.ok ()) s' ∧ Stops l.scheduler s' := by
  induction events generalizing l with
  | nil =>
    obtain ⟨s', hstep, hstops⟩ := step_requestedStop hl snapshot
    exact ⟨by simp [followed], s', by simp only [List.nil_append, follow, hstep], hstops⟩
  | cons e events ih =>
    cases e with
    | turn =>
      obtain ⟨s', hstep, hstops⟩ := step_requestedStop hl snapshot
      exact ⟨by simp [followed, hstep], s', by simp only [List.cons_append, follow, hstep], hstops⟩
    | message m =>
      obtain ⟨hafter, hentered⟩ := handle_requestedStop hl snapshot m
      have hlingers : Lingers l.scheduler (l.scheduler.handle snapshot m) :=
        ⟨hafter, hentered, extends_handle l.scheduler snapshot m⟩
      obtain ⟨hvain, s', hfollow, hstops⟩ :=
        ih (l := l.update fun s => s.handle snapshot m) hafter
      exact ⟨List.forall_mem_cons.mpr ⟨⟨hl, hafter⟩, hvain⟩, s', hfollow, hlingers.stops hstops⟩

/-- A loop that follows events ends with its next turn once it has handled a stop request. -/
theorem followed_stop {snapshot : PropertyMap} {events : List Event} {l : Loop β}
    (hlive : l.scheduler.lifecycle.IsLive) {before after : List (Handling β)} {h : Handling β}
    (hh : l.followed snapshot events = before ++ h :: after) (hstop : h.message.IsStop) :
    h.scheduler.lifecycle.IsLive ∧ (∀ h ∈ after, Handling.IsVain snapshot h) ∧
      ∃ s', l.follow snapshot (events ++ [.turn]) = .ended (.ok ()) s' ∧
        Stops (h.after snapshot) s' := by
  induction events generalizing l before with
  | nil => simp [followed] at hh
  | cons e events ih =>
    rw [List.cons_append, follow]
    cases e with
    | message m =>
      cases before with
      | nil =>
        obtain ⟨rfl, rfl⟩ := List.cons.inj hh
        obtain ⟨hvain, hends⟩ := followed_requestedStop
          (l := l.update fun s => s.handle snapshot m) (handle_isStop hlive hstop).1 snapshot events
        exact ⟨hlive, hvain, hends⟩
      | cons first before =>
        have hrest := (List.cons.inj hh).2
        have hlive' := (proceeds_handle l.scheduler snapshot m).live hlive
        exact ih (l := l.update fun s => s.handle snapshot m) hlive' hrest
    | turn =>
      have hleads := leadsOn_step l snapshot hlive .turn
      rw [followed] at hh
      cases hstep : l.step snapshot .turn with
      | ended result s' => simp [hstep] at hh
      | next l' =>
        rw [hstep] at hh hleads
        cases hleads with
        | next hproceeds => exact ih (hproceeds.live hlive) hh

end Loop

namespace Scheduler

variable {β : Type} [Block β] {s : Scheduler β}

/-- A stop request is honoured by a run that ends with a scheduler: it is granted and answered, no
message handled after it changes the lifecycle, and from then on blocks are only stopped, all of
them. -/
structure Honours (snapshot : PropertyMap) (h : Handling β) (after : List (Handling β))
    (s' : Scheduler β) : Prop where
  granted : (h.after snapshot).lifecycle = .requestedStop
  answered : (h.after snapshot).replies =
    h.scheduler.replies.push (h.message.reply (.ok [("state", .string "REQUESTED_STOP")]))
  vain : ∀ h' ∈ after, h'.scheduler.lifecycle = .requestedStop ∧
    (h'.after snapshot).lifecycle = .requestedStop
  calls : ∃ calls, s'.journal.toList = (h.after snapshot).journal.toList ++ calls ∧
    ∀ e ∈ calls, e.call = .stop
  entered : s'.entered = (h.after snapshot).entered.push .stopped
  lifecycle : s'.lifecycle = .stopped
  states : ∀ i st, s'.stateAt i = some st → st = .stopped

/-- What has been stopped after a granted request, and is the end of a run, honours it. -/
theorem Honours.of_stops {s₀ s' : Scheduler β} {snapshot : PropertyMap} {h : Handling β}
    {after : List (Handling β)} (hnone : NoneFailed s₀.stateAt)
    (hend : Ending s₀ (.ok ()) s') (hlive : h.scheduler.lifecycle.IsLive)
    (hstop : h.message.IsStop) (hvain : ∀ h' ∈ after, Handling.IsVain snapshot h')
    (hstops : Stops (h.after snapshot) s') : Honours snapshot h after s' := by
  obtain ⟨hgranted, hanswered⟩ := handle_isStop hlive hstop
  obtain ⟨calls, he, hcalls⟩ := hstops.halts.calls
  cases hend with
  | completed _ hq hl hfin =>
    exact ⟨hgranted, hanswered, hvain, ⟨calls, he.journal, hcalls⟩, hstops.entered, hl,
      stopped_of_isFinished hfin (hq.noneFailed hnone)⟩

theorem Honours.untouched {s' s'' : Scheduler β} {snapshot : PropertyMap} {h : Handling β}
    {after : List (Handling β)} (hh : Honours snapshot h after s') (hu : Untouched s' s'') :
    Honours snapshot h after s'' where
  granted := hh.granted
  answered := hh.answered
  vain := hh.vain
  calls := hu.journal ▸ hh.calls
  entered := hu.entered.trans hh.entered
  lifecycle := hu.lifecycle.trans hh.lifecycle
  states := by
    simp only [Execution.stateAt, Graph.node?, hu.graph]
    exact hh.states

/-- A run honours each stop request that it handles, and returns. So does a loop that follows any
events: it ends with its next turn, if it has not ended by then. -/
theorem run_stopped (hs : Reachable s) {snapshot : PropertyMap} {s₀ : Scheduler β}
    (h₀ : s.Launches snapshot s₀) (parallelism : Nat) {client : Client}
    {before after : List (Handling β)} {h : Handling β} (hstop : h.message.IsStop) :
    (∀ turns, (Loop.begin s₀ client).handlings snapshot turns = before ++ h :: after →
      ∃ fuel s', s.run parallelism fuel client = some (.ok (), s') ∧
        Honours snapshot h after s') ∧
    ∀ events, (Loop.begin s₀ client).followed snapshot events = before ++ h :: after →
      ∃ s', (Loop.begin s₀ client).follow snapshot (events ++ [.turn]) = .ended (.ok ()) s' ∧
        Honours snapshot h after s' := by
  have hlaunched := h₀.launched hs.isAtRest
  have hlive : (Loop.begin s₀ client).scheduler.lifecycle.IsLive := by
    show s₀.lifecycle.IsLive
    rw [hlaunched.running]
    trivial
  refine ⟨fun turns hh => ?_, fun events hh => ?_⟩
  · obtain ⟨hscheduler, hvain, fuel, s', hrun, hstops⟩ := Loop.handlings_stop hlive hh hstop
    have hhonours := Honours.of_stops hlaunched.noneFailed (Loop.run_ending hlive hrun) hscheduler
      hstop hvain hstops
    refine ⟨fuel, s'.rejectPending snapshot, ?_,
      hhonours.untouched (untouched_rejectPending s' snapshot)⟩
    rw [h₀.run_eq hs.isAtRest, hrun]
    rfl
  · obtain ⟨hscheduler, hvain, s', hfollow, hstops⟩ := Loop.followed_stop hlive hh hstop
    have hleads := Loop.leadsOn_follow snapshot hlive (events ++ [.turn])
    rw [hfollow] at hleads
    cases hleads with
    | ended hend =>
      exact ⟨s', hfollow, .of_stops hlaunched.noneFailed hend hscheduler hstop hvain hstops⟩

/-- A run that would never end by itself is stopped before it has paused, and if the request comes
only after the pause, from the pause. -/
theorem run_stopped_endless : ∃ snapshot s₀ before t before' t' fuel s' w,
    let pause := Client.request "REQUESTED_PAUSE"
    let stop := Client.request "REQUESTED_STOP"
    let s := endless [pause, stop]
    let events : List Loop.Event := [.message pause, .turn, .message stop]
    Reachable s ∧ s.Launches snapshot s₀ ∧
      (Loop.begin s₀ .absent).handlings snapshot 1 = before ++ ⟨t, stop⟩ :: [] ∧
      s.run 1 fuel .absent = some (.ok (), s') ∧ s'.lifecycle = .stopped ∧
      (Loop.begin s₀ .absent).followed snapshot events = before' ++ ⟨t', stop⟩ :: [] ∧
      t'.lifecycle = .paused ∧
      (Loop.begin s₀ .absent).follow snapshot (events ++ [.turn]) = .ended (.ok ()) w ∧
      w.lifecycle = .stopped := by
  let s := endless [Client.request "REQUESTED_PAUSE", Client.request "REQUESTED_STOP"]
  let events : List Loop.Event := [.message (Client.request "REQUESTED_PAUSE"), .turn,
    .message (Client.request "REQUESTED_STOP")]
  have hs : Reachable s := reachable_endless _
  obtain ⟨snapshot, s₀, before, t, before', t', h₀, hh, hh', hpaused⟩ :
      ∃ snapshot s₀ before t before' t', s.Launches snapshot s₀ ∧
        (Loop.begin s₀ .absent).handlings snapshot 1 =
          before ++ ⟨t, Client.request "REQUESTED_STOP"⟩ :: [] ∧
        (Loop.begin s₀ .absent).followed snapshot events =
          before' ++ ⟨t', Client.request "REQUESTED_STOP"⟩ :: [] ∧ t'.lifecycle = .paused :=
    ⟨_, _, [_], _, [_], _, ⟨_, _, rfl, rfl, rfl⟩, rfl, rfl, rfl⟩
  have hstop : (Client.request "REQUESTED_STOP").IsStop := ⟨rfl, rfl, rfl, _, rfl, rfl⟩
  obtain ⟨fuel, s', hrun, hstopped⟩ := (run_stopped hs h₀ 1 hstop).1 1 hh
  obtain ⟨w, hfollow, hstopped'⟩ := (run_stopped hs h₀ 1 hstop).2 events hh'
  exact ⟨snapshot, s₀, before, t, before', t', fuel, s', w, hs, h₀, hh, hrun, hstopped.lifecycle,
    hh', hpaused, hfollow, hstopped'.lifecycle⟩

end Scheduler
end Dataflow
