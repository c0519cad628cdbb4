import Dataflow.Proofs.Scheduler.Launch
import Dataflow.Proofs.Scheduler.Pausing

/-!
# Pauses do not show

As long as each turn finds the run pausing (`WithoutPass`), nothing but pauses happens to blocks and
streams (`Loop.follow_withoutPass`, `Loop.turn_of_isPausing`). Runs whose events are the same apart
from pauses (`PausesApart`) end alike (`Scheduler.run_parallels`), because both follow their events
from the same start. Together these make pauses transparent (`Scheduler.pauses_transparent`).
-/

namespace Dataflow

open Lifecycle (State)
open Block (Likeness)
open Loop (Event)

/-! ### While a run is pausing -/

/-- No turn makes a pass: each finds the run pausing, at first in a certain state. -/
def WithoutPass : State → List Event → Prop
  | _, [] => True
  | st, .message m :: events => WithoutPass (st.heeding m) events
  | st, .turn :: events => st.IsPausing ∧ WithoutPass .paused events

namespace Loop

open Scheduler

variable {β : Type} [Block β] {l : Loop β} {snapshot : PropertyMap}

theorem deeds_handle (s : Scheduler β) (snapshot : PropertyMap) (m : Message) :
    (s.handle snapshot m).deeds = s.deeds := by
  rw [Execution.deeds, Execution.deeds, (extends_handle s snapshot m).journal, List.append_nil]

theorem connections_handle (s : Scheduler β) (snapshot : PropertyMap) (m : Message) :
    (s.handle snapshot m).graph.connections = s.graph.connections := by
  by_cases hm : m.destination = ""
  · rw [(unmoved_handle s snapshot hm).graph]
  · rw [handle, if_neg hm, dispatch, (unmoved_reply _ m _).graph]
    show (s.toExecution.answerFrom s.everyBlock m).2.graph.connections = _
    simp only [Execution.answerFrom]
    split
    · rfl
    next i _ => cases s.graph.node? i <;> rfl

/-- As long as each turn finds the run pausing, it goes on, no block works or finishes, and no
stream changes. -/
theorem follow_withoutPass {events : List Event}
    (h : WithoutPass l.scheduler.lifecycle events) (snapshot : PropertyMap) :
    ∃ w, l.follow snapshot events = .next w ∧
      w.scheduler.graph.connections = l.scheduler.graph.connections ∧
      w.scheduler.deeds = l.scheduler.deeds := by
  induction events generalizing l with
  | nil => exact ⟨l, rfl, rfl, rfl⟩
  | cons e events ih =>
    cases e with
    | message m =>
      have hrest : WithoutPass (l.update fun s => s.handle snapshot m).scheduler.lifecycle events :=
        (lifecycle_handle l.scheduler snapshot m).symm ▸ h
      obtain ⟨w, hw, hconnections, hdeeds⟩ := ih hrest
      exact ⟨w, hw, hconnections.trans (connections_handle l.scheduler snapshot m),
        hdeeds.trans (deeds_handle l.scheduler snapshot m)⟩
    | turn =>
      -- any two blocks will do here, since nothing is asked of the blocks
      have hself : l.scheduler.toExecution.Parallels (fun _ _ => True) l.scheduler.toExecution :=
        .refl fun _ _ => trivial
      obtain ⟨v, hv, hexec, hlife, -⟩ :=
        step_turn_of_isPausing hself (fun _ _ => trivial) h.1 snapshot
      obtain ⟨w, hw, hconnections, hdeeds⟩ := ih (hlife ▸ h.2)
      rw [follow_cons, hv]
      exact ⟨w, hw, hconnections.trans hexec.connections, hdeeds.trans hexec.deeds⟩

theorem withoutPass_messages (st : State) (inbox : List Message) (events : List Event) :
    WithoutPass st (inbox.map .message ++ events) ↔
      WithoutPass (inbox.foldl State.heeding st) events := by
  induction inbox generalizing st with
  | nil => exact .rfl
  | cons m inbox ih => exact ih (st.heeding m)

theorem exists_act_of_isPausing (hl : l.scheduler.lifecycle.IsPausing) (snapshot : PropertyMap) :
    ∃ w, l.act snapshot = .next w := by
  cases hst : l.scheduler.lifecycle with
  | paused =>
    simp only [act, hst]
    exact ⟨_, rfl⟩
  | requestedPause =>
    have hreach : (l.scheduler.exec fun x => x.pauseAll x.everyBlock).lifecycle.canReach .paused =
        true := by
      show l.scheduler.lifecycle.canReach .paused = true
      rw [hst]
      rfl
    obtain ⟨s', hs'⟩ := moveTo_of_canReach hreach
    simp only [act, update, hst, hs']
    exact ⟨_, rfl⟩
  | idle | initialising | running | requestedStop | stopped | error =>
    rw [hst] at hl
    exact hl.elim

/-- A turn that finds the run pausing goes on without work or a change of streams, whether or not
it waits for a message. -/
theorem turn_of_isPausing (hl : (l.meet.scheduler.drain snapshot).lifecycle.IsPausing) :
    ∃ w, l.turn snapshot = .next w ∧
      w.scheduler.graph.connections = l.scheduler.graph.connections ∧
      w.scheduler.deeds = l.scheduler.deeds := by
  have hmeet : l.meet.scheduler.lifecycle = l.scheduler.lifecycle := (untouched_meet l).lifecycle
  have hevents : WithoutPass l.scheduler.lifecycle (l.turnEvents snapshot) := by
    rw [lifecycle_drain, hmeet] at hl
    refine (withoutPass_messages ..).mpr ⟨hl, ?_⟩
    have hawaited := (withoutPass_messages .paused
      ((l.meet.update fun s => s.drain snapshot).awaited.map Handling.message) []).mpr trivial
    rwa [List.append_nil, List.map_map] at hawaited
  obtain ⟨v, hv, hconnections, hdeeds⟩ := follow_withoutPass hevents snapshot
  have hturn := sameTurn_turn (SameCourse.refl l) snapshot
  obtain ⟨w, hw⟩ : ∃ w, l.turn snapshot = .next w := exists_act_of_isPausing hl snapshot
  rw [hv, hw] at hturn
  cases hturn with
  | next hcourse =>
    have hgraph : v.scheduler.graph = w.scheduler.graph :=
      congrArg (fun s => s.graph) hcourse.scheduler
    have hjournal : v.scheduler.journal = w.scheduler.journal :=
      congrArg (fun s => s.journal) hcourse.scheduler
    refine ⟨w, hw, by rw [← hgraph, hconnections], ?_⟩
    rw [← hdeeds, Execution.deeds, Execution.deeds, hjournal]

end Loop

/-! ### Runs -/

/-- Two runs both go on or have ended in the same way, and differ in pauses only. -/
inductive Turn.Parallels {β : Type} (R : β → β → Prop) : Turn β → Turn β → Prop where
  | next {l l' : Loop β} : l.scheduler.toExecution.Parallels R l'.scheduler.toExecution →
      Parallels R (.next l) (.next l')
  | ended {s s' : Scheduler β} {result : Except SchedulerError Unit} :
      s.toExecution.Parallels R s'.toExecution → s'.stateAt = s.stateAt →
      Parallels R (.ended result s) (.ended result s')

namespace Scheduler

variable {β : Type} {R : β → β → Prop} {s s₀ : Scheduler β} {snapshot : PropertyMap}

theorem unmoved_rejectPending (s : Scheduler β) (snapshot : PropertyMap) :
    s.toExecution.Unmoved (s.rejectPending snapshot).toExecution := by
  have hfold : ∀ (inbox : List Message) (s' : Scheduler β), s.toExecution.Unmoved s'.toExecution →
      s.toExecution.Unmoved (inbox.foldl (reject snapshot) s').toExecution := by
    intro inbox
    induction inbox with
    | nil => exact fun _ h => h
    | cons m inbox ih =>
      refine fun s' h => ih _ (h.trans ?_)
      simp only [reject]
      split
      · exact unmoved_handleOwn s' snapshot m
      · exact unmoved_reply s' m _
  exact hfold s.inbox { s with inbox := [] } ⟨rfl, rfl, rfl⟩

theorem unmoved_answerRest (s : Scheduler β) (snapshot : PropertyMap)
    (result : Except SchedulerError Unit) :
    s.toExecution.Unmoved (s.answerRest snapshot result).toExecution := by
  unfold answerRest
  split
  · exact ⟨rfl, rfl, rfl⟩
  · exact unmoved_rejectPending s snapshot

theorem Launched.parallels (h : Launched s s₀) (hblocks : ∀ n ∈ s₀.graph.nodes, R n.block n.block)
    (client client' : Client) : (Loop.begin s₀ client).Parallels R (Loop.begin s₀ client') := by
  have hnone : NonePaused s₀.stateAt := fun i hi => by
    rw [h.stateAt, Option.map_eq_some_iff] at hi
    obtain ⟨_, _, hi⟩ := hi
    cases hi
  exact ⟨.refl hblocks, fun _ => hnone, fun _ => hnone⟩

variable [Block β]

theorem follow_parallels (hR : Likeness R) (hs : IsAtRest s) (h₀ : s.Launches snapshot s₀)
    (hblocks : ∀ n ∈ s₀.graph.nodes, R n.block n.block) {events events' : List Event}
    (hevents : PausesApart .running .running events events') (client client' : Client) :
    Turn.Parallels R ((Loop.begin s₀ client).follow snapshot events)
      ((Loop.begin s₀ client').follow snapshot events') := by
  have hlaunched := h₀.launched hs
  obtain ⟨_, _, hturns⟩ := Loop.parallelTurns_follow hR hevents
    (hlaunched.parallels hblocks client client') hlaunched.running hlaunched.running trivial
    snapshot
  generalize (Loop.begin s₀ client).follow snapshot events = t,
    (Loop.begin s₀ client').follow snapshot events' = t' at hturns
  cases hturns with
  | next h => exact .next h.execution
  | ended result h hx hx' => exact .ended h (h.stateAt hx hx')

/-- Runs whose events are the same apart from pauses end alike. -/
theorem run_parallels (hR : Likeness R) (hs : IsAtRest s) (h₀ : s.Launches snapshot s₀)
    (hblocks : ∀ n ∈ s₀.graph.nodes, R n.block n.block) {client client' : Client}
    {parallelism fuel fuel' : Nat}
    (hevents : PausesApart .running .running ((Loop.begin s₀ client).events snapshot fuel)
      ((Loop.begin s₀ client').events snapshot fuel'))
    {result : Except SchedulerError Unit} {t : Scheduler β}
    (hrun : s.run parallelism fuel client = some (result, t)) (hstall : ¬ Stalled result)
    (hstall' : ∀ result' t', s.run parallelism fuel' client' = some (result', t') →
      ¬ Stalled result') :
    ∃ t', s.run parallelism fuel' client' = some (result, t') ∧
      t.toExecution.Parallels R t'.toExecution ∧ t'.stateAt = t.stateAt := by
  rw [h₀.run_eq hs, Option.map_eq_some_iff] at hrun
  obtain ⟨⟨result, u⟩, hloop, heq⟩ := hrun
  cases heq
  have hturns := follow_parallels hR hs h₀ hblocks hevents client client'
  rw [Loop.follow_of_run hloop hstall] at hturns
  obtain ⟨u', hfollow, hend, hstates⟩ : ∃ u', (Loop.begin s₀ client').follow snapshot
      ((Loop.begin s₀ client').events snapshot fuel') = .ended result u' ∧
      u.toExecution.Parallels R u'.toExecution ∧ u'.stateAt = u.stateAt := by
    generalize (Loop.begin s₀ client').follow snapshot _ = t' at hturns
    cases hturns with
    | ended hend hstates => exact ⟨_, rfl, hend, hstates⟩
  have hloop' := Loop.run_of_follow hfollow fun result' u' hrun' =>
    hstall' result' (u'.answerRest snapshot result') (by rw [h₀.run_eq hs, hrun']; rfl)
  have hrest := unmoved_answerRest u snapshot result
  have hrest' := unmoved_answerRest u' snapshot result
  refine ⟨u'.answerRest snapshot result, by rw [h₀.run_eq hs, hloop']; rfl,
    hend.congr hrest hrest', ?_⟩
  rw [hrest.stateAt, hrest'.stateAt, hstates]

/-- Pauses do not show. A loop that follows events into which pauses, resumptions and queries have
been put goes on or ends as without them: with the same calls on blocks but for the pauses, the
same streams, and the same blocks but for a likeness. So does a run with such events. And as long
as the run is pausing, nothing but pauses happens to blocks and streams. For built-in blocks
equality is a likeness. -/
theorem pauses_transparent (hR : Likeness R) (hs : IsAtRest s) (h₀ : s.Launches snapshot s₀)
    (hblocks : ∀ n ∈ s₀.graph.nodes, R n.block n.block) :
    (∀ client client' events events', PausesApart .running .running events events' →
      Turn.Parallels R ((Loop.begin s₀ client).follow snapshot events)
        ((Loop.begin s₀ client').follow snapshot events')) ∧
    (∀ client client' parallelism fuel fuel' result t,
      s.run parallelism fuel client = some (result, t) → ¬ Stalled result →
      (∀ result' t', s.run parallelism fuel' client' = some (result', t') → ¬ Stalled result') →
      PausesApart .running .running ((Loop.begin s₀ client).events snapshot fuel)
        ((Loop.begin s₀ client').events snapshot fuel') →
      ∃ t', s.run parallelism fuel' client' = some (result, t') ∧
        t.toExecution.Parallels R t'.toExecution ∧ t'.stateAt = t.stateAt) ∧
    (∀ (l : Loop β) events, WithoutPass l.scheduler.lifecycle events →
      ∃ w, l.follow snapshot events = .next w ∧
        w.scheduler.graph.connections = l.scheduler.graph.connections ∧
        w.scheduler.deeds = l.scheduler.deeds) ∧
    (∀ l : Loop β, (l.meet.scheduler.drain snapshot).lifecycle.IsPausing →
      ∃ w, l.turn snapshot = .next w ∧
        w.scheduler.graph.connections = l.scheduler.graph.connections ∧
        w.scheduler.deeds = l.scheduler.deeds) ∧
    Likeness (Eq : Builtin → Builtin → Prop) :=
  ⟨fun client client' _ _ hevents => follow_parallels hR hs h₀ hblocks hevents client client',
    fun _ _ _ _ _ _ _ hrun hstall hstall' hevents =>
      run_parallels hR hs h₀ hblocks hevents hrun hstall hstall',
    fun _ _ h => Loop.follow_withoutPass h snapshot,
    fun _ hl => Loop.turn_of_isPausing hl,
    Block.likeness_builtin⟩

/-- A run that makes two passes before it is stopped makes the same two if it is paused and looked
at in between. -/
theorem pauses_transparent_endless : ∃ snapshot s₀ t t',
    let s := endless []
    let stop := Event.message (Client.request "REQUESTED_STOP")
    let pause := Event.message (Client.request "REQUESTED_PAUSE")
    let resume := Event.message (Client.request "RUNNING")
    IsAtRest s ∧ s.Launches snapshot s₀ ∧
      (Loop.begin s₀ .absent).follow snapshot [.turn, .turn, stop, .turn] = .ended (.ok ()) t ∧
      (Loop.begin s₀ .absent).follow snapshot
        [.turn, pause, .turn, .message Client.query, .turn, resume, .turn, stop, .turn] =
          .ended (.ok ()) t' ∧
      t'.deeds = t.deeds ∧ t'.graph.connections = t.graph.connections ∧
      t'.stateAt = t.stateAt := by
  let s := endless []
  let stop := Event.message (Client.request "REQUESTED_STOP")
  let pause := Event.message (Client.request "REQUESTED_PAUSE")
  let resume := Event.message (Client.request "RUNNING")
  have hs : IsAtRest s := (reachable_endless []).isAtRest
  obtain ⟨snapshot, s₀, h₀, hdone⟩ : ∃ snapshot s₀, s.Launches snapshot s₀ ∧
      (match (Loop.begin s₀ .absent).follow snapshot [.turn, .turn, stop, .turn] with
        | .ended (.ok ()) _ => true
        | _ => false) = true :=
    ⟨_, _, ⟨_, _, rfl, rfl, rfl⟩, by decide +kernel⟩
  obtain ⟨t, ht⟩ : ∃ t, (Loop.begin s₀ .absent).follow snapshot [.turn, .turn, stop, .turn] =
      .ended (.ok ()) t := by
    split at hdone
    next t ht => exact ⟨t, ht⟩
    next => cases hdone
  have hevents : PausesApart .running .running [.turn, .turn, stop, .turn]
      [.turn, pause, .turn, .message Client.query, .turn, resume, .turn, stop, .turn] := by
    have hgoing : ¬ State.running.IsPausing := id
    refine .turn hgoing (.messageRight (.inr (.inl rfl)) (.turnRight trivial
      (.messageRight (.inl rfl) (.turnRight trivial (.messageRight (.inr (.inr rfl))
        (.turn hgoing (.message ?_)))))))
    show PausesApart .requestedStop .requestedStop [.turn] [.turn]
    exact .turn id .done
  obtain ⟨hfollow, -⟩ := pauses_transparent Block.likeness_builtin hs h₀ fun _ _ => rfl
  have hturns := hfollow .absent .absent _ _ hevents
  rw [ht] at hturns
  cases ht' : (Loop.begin s₀ .absent).follow snapshot
    [.turn, pause, .turn, .message Client.query, .turn, resume, .turn, stop, .turn] with
  | next l =>
    rw [ht'] at hturns
    cases hturns
  | ended result t' =>
    rw [ht'] at hturns
    cases hturns with
    | ended hexec hstates =>
      exact ⟨snapshot, s₀, t, t', hs, h₀, ht, ht', hexec.deeds, hexec.connections, hstates⟩

end Scheduler

end Dataflow
