import Dataflow.Proofs.Scheduler.Turns

/-!
# Outcomes of runs on one thread

A scheduler `IsAtRest` between runs. A run that returns leaves it at rest again, and its result
agrees with the final states and with the calls that were made on blocks (`Scheduler.Agrees`), as
long as no work call crashes. That holds of every scheduler that any history of runs, and changes
between runs, can lead to (`Scheduler.Reachable`), whatever its blocks do, which messages arrive
and how a client drives it (`Scheduler.run_agrees`).
-/

namespace Dataflow

open Lifecycle (State)
open Execution (Extends Halts)

/-- States between runs. -/
def Lifecycle.State.IsResting : State → Prop
  | .idle | .stopped | .error => True
  | _ => False

namespace Call

def isCrash : Call → Bool
  | work .crashed => true
  | _ => false

def isPause : Call → Bool
  | pause => true
  | _ => false

theorem isCrash_iff {c : Call} : c.isCrash = true ↔ c = .work .crashed := by
  cases c with
  | work outcome => cases outcome <;> simp [isCrash]
  | _ => simp [isCrash]

theorem isPause_iff {c : Call} : c.isPause = true ↔ c = .pause := by
  cases c <;> simp [isPause]

end Call

/-- No work call crashes. -/
def ReturningCalls (calls : List JournalEntry) : Prop := ∀ i, ⟨i, .work .crashed⟩ ∉ calls

instance : DecidablePred ReturningCalls := fun calls =>
  decidable_of_iff (∀ e ∈ calls, ¬e.call.isCrash)
    ⟨fun h _ hmem => h _ hmem rfl, fun h e hmem hcrash =>
      h e.block (Call.isCrash_iff.mp hcrash ▸ hmem)⟩

namespace Scheduler

variable {β : Type} {s s' : Scheduler β}

/-- A scheduler on one thread that is not running. -/
structure IsAtRest (s : Scheduler β) : Prop where
  policy : s.config.policy = .singleThreaded
  lifecycle : s.lifecycle.IsResting
  blocks : ∀ i st, s.stateAt i = some st → st.IsResting

/-- The result of a run, what it did to blocks, and the states that it left agree. -/
structure Agrees [Block β] (s s' : Scheduler β) (result : Except SchedulerError Unit)
    (calls : List JournalEntry) : Prop where
  walks : Walks s s'
  /-- Every failure has one of three causes, none of which is the lifecycle. -/
  cause : ∀ e, result = .error e →
    (∃ g, e = .graph g ∧ s.graph.validate = .error g) ∨
    (∃ i w, e = .blockFailed (s.nameOf i) w ∧
      (⟨i, .start (.error w)⟩ ∈ calls ∨ ⟨i, .work (.failed w)⟩ ∈ calls)) ∨
    ∃ time unfinished, e = .stalled time unfinished
  completed : result = .ok () →
    s'.lifecycle = .stopped ∧ ∀ j st, s'.stateAt j = some st → st = .stopped
  workFailed : ∀ i e, ⟨i, .work (.failed e)⟩ ∈ calls →
    result = .error (.blockFailed (s.nameOf i) e) ∧ s'.lifecycle = .error ∧
      s'.stateAt i = some .error ∧ ∀ j st, j ≠ i → s'.stateAt j = some st → st = .stopped
  /-- The number that is reported is that of the blocks left unfinished by the last pass, after
  which blocks were only stopped. -/
  stalled : ∀ time unfinished, result = .error (.stalled time unfinished) →
    s'.lifecycle = .error ∧ (∀ j st, s'.stateAt j = some st → st = .stopped) ∧
      1 ≤ unfinished ∧ ∃ x x' before pass stops, calls = before ++ pass ++ stops ∧
        Extends s.toExecution x before ∧
        x.runPass x.everyBlock = (⟨false, 0, none⟩, x') ∧ Extends x x' pass ∧
        unfinished = x'.unfinished x'.everyBlock ∧
        Extends x' s'.toExecution stops ∧ ∀ entry ∈ stops, entry.call = .stop
  invalid : ∀ e, s.graph.validate = .error e →
    result = .error (.graph e) ∧ s'.lifecycle = .error ∧ calls = []
  startFailed : ∀ i e, ⟨i, .start (.error e)⟩ ∈ calls →
    result = .error (.blockFailed (s.nameOf i) e) ∧ s'.lifecycle = .error ∧
      (∀ entry ∈ calls, entry.block ≤ i ∧ ∀ outcome, entry.call ≠ .work outcome) ∧
      (∀ j st, j < i → s'.stateAt j = some st → st = .stopped) ∧ s'.stateAt i = some .error
  atRest : IsAtRest s'

/-! ### Before the loop -/

theorem prepare_spec (h : s.lifecycle.IsResting) :
    ∃ s', s.prepare = .ok s' ∧ Walks s s' ∧ s'.lifecycle = .initialising ∧
      s'.graph = s.graph ∧ s'.journal = s.journal := by
  have hinit : ∀ t : Scheduler β, t.lifecycle = .idle → ∃ s', t.moveTo .initialising = .ok s' ∧
      Walks t s' ∧ s'.lifecycle = .initialising ∧ s'.graph = t.graph ∧ s'.journal = t.journal := by
    intro t ht
    have hreach : t.lifecycle.canReach .initialising = true := by rw [ht]; rfl
    obtain ⟨s', hs'⟩ := moveTo_of_canReach hreach
    exact ⟨s', hs', moveTo_spec hs'⟩
  have hreset : s.lifecycle.canReach .idle = true → ∃ s',
      (s.moveTo .idle >>= fun s => s.moveTo .initialising) = .ok s' ∧ Walks s s' ∧
      s'.lifecycle = .initialising ∧ s'.graph = s.graph ∧ s'.journal = s.journal := by
    intro hreach
    obtain ⟨t, ht⟩ := moveTo_of_canReach hreach
    obtain ⟨hw, hl, hg, hj⟩ := moveTo_spec ht
    obtain ⟨s', hs', hw', hl', hg', hj'⟩ := hinit t hl
    refine ⟨s', ?_, hw.trans hw', hl', hg'.trans hg, hj'.trans hj⟩
    rw [ht]
    exact hs'
  unfold prepare
  cases hl : s.lifecycle with
  | idle =>
    obtain ⟨s', hs', hspec⟩ := hinit s hl
    exact ⟨s', by rw [hs']; rfl, hspec⟩
  | stopped =>
    obtain ⟨s', hs', hspec⟩ := hreset (by rw [hl]; rfl)
    exact ⟨s', by rw [hs']; rfl, hspec⟩
  | error =>
    obtain ⟨s', hs', hspec⟩ := hreset (by rw [hl]; rfl)
    exact ⟨s', by rw [hs']; rfl, hspec⟩
  | _ =>
    rw [hl] at h
    exact h.elim

/-- What every move of the state machine does is done by preparing, too. -/
theorem of_prepare {R : Scheduler β → Scheduler β → Prop}
    (htrans : ∀ s s' s'', R s s' → R s' s'' → R s s'')
    (hmove : ∀ s s' st, s.moveTo st = .ok s' → R s s') (h : s.prepare = .ok s') : R s s' := by
  have hok : ∀ result : Except Lifecycle.TransitionError (Scheduler β),
      result.mapError SchedulerError.lifecycle = .ok s' → result = .ok s' := by
    intro result h
    cases result with
    | error e => cases h
    | ok t =>
      cases h
      rfl
  have hreset : (s.moveTo .idle >>= fun s => s.moveTo .initialising) = .ok s' → R s s' := by
    intro h
    cases hidle : s.moveTo .idle with
    | error e =>
      rw [hidle] at h
      cases h
    | ok t =>
      rw [hidle] at h
      exact htrans _ _ _ (hmove _ _ _ hidle) (hmove _ _ _ h)
  unfold prepare at h
  split at h
  · exact hmove _ _ _ (hok _ h)
  · exact hreset (hok _ h)
  · exact hreset (hok _ h)
  · cases h

theorem eq_of_prepare {α : Type} {f : Scheduler β → α}
    (hmove : ∀ s s' st, s.moveTo st = .ok s' → f s' = f s) (h : s.prepare = .ok s') : f s' = f s :=
  of_prepare (R := fun s s' => f s' = f s) (fun _ _ _ h h' => h'.trans h) hmove h

theorem graph_prepare (h : s.prepare = .ok s') : s'.graph = s.graph :=
  eq_of_prepare (fun _ _ _ hmove => (moveTo_spec hmove).2.2.1) h

theorem config_prepare (h : s.prepare = .ok s') : s'.config = s.config :=
  eq_of_prepare (fun _ _ _ hmove => (moveTo_spec hmove).1.config) h

theorem inbox_prepare (h : s.prepare = .ok s') : s'.inbox = s.inbox :=
  eq_of_prepare (fun _ _ _ => inbox_moveTo) h

/-! ### Final states -/

theorem stopped_of_isFinished {x : Execution β} (hfin : ∀ j, x.isFinished j = true)
    (hnone : NoneFailed x.stateAt) (j : Nat) (st : State) (hst : x.stateAt j = some st) :
    st = .stopped := by
  have hj := hfin j
  have hne : st ≠ .error := fun heq => hnone j (by rw [hst, heq])
  rw [Execution.isFinished_eq, hst] at hj
  cases st with
  | stopped => rfl
  | error => exact absurd rfl hne
  | _ => cases hj

theorem stopped_of_halts {x x' : Execution β} (hh : Halts x x') (hnone : NoneFailed x.stateAt) :
    ∀ j st, x'.stateAt j = some st → st = .stopped :=
  stopped_of_isFinished hh.isFinished (hh.quietly.noneFailed hnone)

/-- States after the blocks before a position have started, and the one there has failed to. -/
theorem replay_startsUpTo (states : Nat → Option State) (i : Nat) (e : WorkError) (j : Nat) :
    replay states ((List.range i).map (fun i => ⟨i, .start (.ok ())⟩) ++ [⟨i, .start (.error e)⟩]) j
      = (states j).map fun st => if j < i then .running else if j = i then .error else st := by
  rw [replay_append, replay_cons, replay_nil, JournalEntry.apply, Execution.replay_starts]
  simp only [List.mem_range]
  rcases Nat.lt_trichotomy j i with h | h | h
  · simp [h, Nat.ne_of_lt h]
  · simp [h, Call.next]
  · simp [Nat.not_lt.mpr (Nat.le_of_lt h), Nat.ne_of_gt h]

/-- Only blocks before the one that failed to start run. -/
theorem IsAtRest.lt_of_running (hs : IsAtRest s) {x : Execution β} {i j : Nat}
    (hx : ∀ j, x.stateAt j =
      (s.stateAt j).map fun st => if j < i then .running else if j = i then .error else st)
    (hj : x.stateAt j = some .running) : j < i := by
  rw [hx, Option.map_eq_some_iff] at hj
  obtain ⟨st, hst, hj⟩ := hj
  split at hj
  next h => exact h
  next =>
    split at hj
    next => cases hj
    next =>
      subst hj
      exact (hs.blocks j _ hst).elim

theorem mem_startsUpTo {i : Nat} {e : WorkError} {stops : List JournalEntry}
    (hstops : ∀ entry ∈ stops, entry.call = .stop ∧ entry.block < i) (entry : JournalEntry)
    (hmem : entry ∈ (List.range i).map (fun i => ⟨i, .start (.ok ())⟩) ++
      [⟨i, .start (.error e)⟩] ++ stops) :
    (∃ j < i, entry = ⟨j, .start (.ok ())⟩) ∨ entry = ⟨i, .start (.error e)⟩ ∨
      entry.call = .stop ∧ entry.block < i := by
  rcases List.mem_append.mp hmem with hmem | hmem
  · rcases List.mem_append.mp hmem with hmem | hmem
    · obtain ⟨j, hj, rfl⟩ := List.mem_map.mp hmem
      exact .inl ⟨j, List.mem_range.mp hj, rfl⟩
    · exact .inr (.inl (List.mem_singleton.mp hmem))
  · exact .inr (.inr (hstops entry hmem))

/-! ### Initialising -/

/-- Giving up after initialising has failed. -/
theorem walks_fail (hl : s.lifecycle = .initialising) (text : String) :
    Walks s ((s.say .error text).enter .error) := by
  have hsaid : Walks s (s.say .error text) := .of_eq rfl rfl rfl
  have hreach : (s.say .error text).lifecycle.canReach .error = true := by
    show s.lifecycle.canReach .error = true
    rw [hl]
    rfl
  exact hsaid.trans (.enter hreach)

variable [Block β]

/-- What initialising comes to: nothing has happened, or all blocks run, or they ran up to one
that failed to start, and those before it have been stopped. -/
inductive Initialised (s : Scheduler β) :
    Except SchedulerError PropertyMap → Scheduler β → Prop where
  | invalid {e : GraphError} : s.graph.validate = .error e → Initialised s (.error (.graph e)) s
  | started {snapshot : PropertyMap} {s' : Scheduler β} : s.graph.validate = .ok () →
      Walks s s' → s'.lifecycle = s.lifecycle →
      Extends s.toExecution s'.toExecution (s.everyBlock.map fun i => ⟨i, .start (.ok ())⟩) →
      Initialised s (.ok snapshot) s'
  | failed {s' : Scheduler β} {x : Execution β} {i : Nat} {e : WorkError}
      {stops : List JournalEntry} : s.graph.validate = .ok () → i < s.graph.nodes.length →
      Walks s s' → s'.lifecycle = s.lifecycle →
      Extends s.toExecution x
        ((List.range i).map (fun i => ⟨i, .start (.ok ())⟩) ++ [⟨i, .start (.error e)⟩]) →
      Extends x s'.toExecution stops →
      (∀ entry ∈ stops, entry.call = .stop ∧ x.stateAt entry.block = some .running) →
      (∀ j, s'.stateAt j = (x.stateAt j).map State.abandoned) →
      Initialised s (.error (.blockFailed (s.nameOf i) e)) s'

/-- What stands before a position in a range. -/
theorem eq_range_of_split {n i : Nat} {before after : List Nat}
    (h : List.range n = before ++ i :: after) : before = List.range i ∧ i < n := by
  have hlen := congrArg List.length h
  rw [List.length_range, List.length_append, List.length_cons] at hlen
  have hi : (List.range n)[before.length]? = some i := by simp [h]
  rw [List.getElem?_range (by omega), Option.some.injEq] at hi
  subst hi
  have htake : (List.range n).take before.length = before := by simp [h]
  rw [List.take_range, Nat.min_eq_left (by omega)] at htake
  exact ⟨htake.symm, by omega⟩

theorem initialise_spec (s : Scheduler β) : Initialised s s.initialise.1 s.initialise.2 := by
  simp only [initialise]
  split
  next e he => exact .invalid he
  next hvalid =>
    let y : Execution β := { s.toExecution with graph := s.graph.bind }
    have hy : Extends s.toExecution y [] := .of_eq rfl rfl
    have hstarted := Execution.startAll_started y y.everyBlock fun i hi => List.mem_range.mp hi
    show Initialised s (Prod.fst _) (Prod.snd _)
    cases hout : startAll y y.everyBlock with
    | mk failure x =>
      rw [hout] at hstarted
      have hout : startAll (s.exec fun x => { x with graph := x.graph.bind }).toExecution
        (s.exec fun x => { x with graph := x.graph.bind }).everyBlock = (failure, x) := hout
      rw [hout]
      cases hstarted with
      | all he =>
        have he : Extends s.toExecution x (s.everyBlock.map fun i => ⟨i, .start (.ok ())⟩) :=
          hy.trans he
        exact .started hvalid (.of_eq rfl rfl rfl) rfl (he.before rfl rfl)
      | @upTo _ before after i e heq he =>
        obtain ⟨rfl, hi⟩ := eq_range_of_split heq
        obtain ⟨stops, hx, hstops⟩ := Execution.extends_abandon x x.everyBlock
        have he : Extends s.toExecution x _ := hy.trans he
        dsimp only
        rw [he.nameOf]
        refine .failed hvalid hi (.of_eq rfl rfl rfl) rfl he hx hstops fun j => ?_
        show (abandon x x.everyBlock).stateAt j = _
        rw [Execution.stateAt_abandon]
        split
        next => rfl
        next hj =>
          rw [Execution.mem_everyBlock, Option.not_isSome_iff_eq_none] at hj
          rw [hj]
          rfl

/-! ### Agreement -/

theorem agrees_of_invalid (hs : IsAtRest s) {e : GraphError} (hvalid : s.graph.validate = .error e)
    (hw : Walks s s') (hl : s'.lifecycle = .error) (he : Extends s.toExecution s'.toExecution []) :
    Agrees s s' (.error (.graph e)) [] where
  walks := hw
  cause _ h := by
    cases h
    exact .inl ⟨e, rfl, hvalid⟩
  completed h := by cases h
  workFailed _ _ h := by cases h
  stalled _ _ h := by cases h
  invalid e' h := by
    rw [hvalid] at h
    cases h
    exact ⟨rfl, hl, rfl⟩
  startFailed _ _ h := by cases h
  atRest := by
    refine ⟨by rw [hw.config]; exact hs.policy, by rw [hl]; trivial, fun j st hst => ?_⟩
    rw [he.states] at hst
    exact hs.blocks j st hst

theorem agrees_of_startFailed (hs : IsAtRest s) (hvalid : s.graph.validate = .ok ())
    {x : Execution β} {i : Nat} {e : WorkError} {stops : List JournalEntry}
    (hi : i < s.graph.nodes.length) (hw : Walks s s') (hl : s'.lifecycle = .error)
    (he : Extends s.toExecution x
      ((List.range i).map (fun i => ⟨i, .start (.ok ())⟩) ++ [⟨i, .start (.error e)⟩]))
    (hstops : ∀ entry ∈ stops, entry.call = .stop ∧ x.stateAt entry.block = some .running)
    (hstates : ∀ j, s'.stateAt j = (x.stateAt j).map State.abandoned) :
    Agrees s s' (.error (.blockFailed (s.nameOf i) e))
      ((List.range i).map (fun i => ⟨i, .start (.ok ())⟩) ++ [⟨i, .start (.error e)⟩] ++
        stops) := by
  have hx : ∀ j, x.stateAt j =
      (s.stateAt j).map fun st => if j < i then .running else if j = i then .error else st :=
    fun j => by rw [he.states, replay_startsUpTo]
  have hcalls := mem_startsUpTo (e := e) fun entry hmem =>
    (hstops entry hmem).imp id (hs.lt_of_running hx)
  have hsome : (s.stateAt i).isSome := by
    rw [← Execution.mem_everyBlock]
    exact List.mem_range.mpr hi
  refine ⟨hw, ?_, ?_, ?_, ?_, ?_, ?_, ?_⟩
  · rintro _ ⟨⟩
    exact .inr (.inl ⟨i, e, rfl, .inl (by simp)⟩)
  · rintro ⟨⟩
  · intro j e' hmem
    rcases hcalls _ hmem with ⟨k, -, h⟩ | h | ⟨h, -⟩ <;> cases h
  · rintro _ _ ⟨⟩
  · intro e' h
    rw [hvalid] at h
    cases h
  · intro j e' hmem
    have heq : j = i ∧ e' = e := by
      rcases hcalls _ hmem with ⟨k, -, h⟩ | h | ⟨h, -⟩ <;> cases h
      exact ⟨rfl, rfl⟩
    obtain ⟨rfl, rfl⟩ := heq
    refine ⟨rfl, hl, fun entry hmem => ?_, fun k st hk hst => ?_, ?_⟩
    · rcases hcalls _ hmem with ⟨k, hk, rfl⟩ | rfl | ⟨h, hlt⟩
      · exact ⟨Nat.le_of_lt hk, by simp⟩
      · exact ⟨Nat.le_refl _, by simp⟩
      · exact ⟨Nat.le_of_lt hlt, by simp [h]⟩
    · rw [hstates, hx] at hst
      cases hk' : s.stateAt k with
      | none => simp [hk'] at hst
      | some _ =>
        simp [hk', hk, State.abandoned] at hst
        exact hst.symm
    · obtain ⟨st, hst⟩ := Option.isSome_iff_exists.mp hsome
      rw [hstates, hx, hst]
      simp [State.abandoned]
  · refine ⟨by rw [hw.config]; exact hs.policy, by rw [hl]; trivial, fun j st hst => ?_⟩
    rw [hstates, hx, Option.map_map, Option.map_eq_some_iff] at hst
    obtain ⟨st', hst', rfl⟩ := hst
    have hrest := hs.blocks j st' hst'
    simp only [Function.comp_apply]
    split
    · trivial
    · split
      · trivial
      · cases st' <;> trivial

/-- A run in which no call fails. -/
theorem agrees_of_quiet (hs : IsAtRest s) (hvalid : s.graph.validate = .ok ())
    {calls : List JournalEntry} (hquiet : QuietCalls calls) {result : Except SchedulerError Unit}
    (hw : Walks s s') (hl : s'.lifecycle.IsResting)
    (hstopped : ∀ j st, s'.stateAt j = some st → st = .stopped)
    (hok : result = .ok () → s'.lifecycle = .stopped)
    (herror : ∀ e, result = .error e → s'.lifecycle = .error ∧ ∃ x x' before pass stops,
      calls = before ++ pass ++ stops ∧ Extends s.toExecution x before ∧
      x.runPass x.everyBlock = (⟨false, 0, none⟩, x') ∧ Extends x x' pass ∧
      (∃ time, e = .stalled time (x'.unfinished x'.everyBlock)) ∧
      1 ≤ x'.unfinished x'.everyBlock ∧
      Extends x' s'.toExecution stops ∧ ∀ entry ∈ stops, entry.call = .stop) :
    Agrees s s' result calls where
  walks := hw
  cause e h := by
    obtain ⟨-, x, x', before, pass, stops, -, -, -, -, ⟨time, heq⟩, -⟩ := herror e h
    exact .inr (.inr ⟨time, _, heq⟩)
  completed h := ⟨hok h, hstopped⟩
  workFailed _ _ h := (hquiet _ h).elim
  stalled time unfinished h := by
    obtain ⟨herr, x, x', before, pass, stops, hcalls, hx, hpass, hx', ⟨time', heq⟩, hone, hs',
      hst⟩ := herror _ h
    cases heq
    exact ⟨herr, hstopped, hone, x, x', before, pass, stops, hcalls, hx, hpass, hx', rfl, hs', hst⟩
  invalid e h := by
    rw [hvalid] at h
    cases h
  startFailed _ _ h := (hquiet _ h).elim
  atRest := by
    refine ⟨by rw [hw.config]; exact hs.policy, hl, fun j st hst => ?_⟩
    rw [hstopped j st hst]
    trivial

/-- A run in which the work of one block failed. -/
theorem agrees_of_workFailed (hs : IsAtRest s) (hvalid : s.graph.validate = .ok ())
    {x x' : Execution β} {before stops : List JournalEntry} {i : Nat} {e : WorkError}
    (hquiet : QuietCalls before) (hw : Walks s s') (hl : s'.lifecycle = .error)
    (hnone : NoneFailed x.stateAt) (hrun : x.stateAt i = some .running)
    (hx : Extends x x' [⟨i, .work (.failed e)⟩, ⟨i, .stop⟩]) (hh : Halts x' s'.toExecution)
    (hstops : ∀ entry ∈ stops, entry.call = .stop) :
    Agrees s s' (.error (.blockFailed (s.nameOf i) e))
      (before ++ [⟨i, .work (.failed e)⟩, ⟨i, .stop⟩] ++ stops) := by
  have hcalls : ∀ entry ∈ before ++ [⟨i, .work (.failed e)⟩, ⟨i, .stop⟩] ++ stops,
      entry.call.IsQuiet ∨ entry = ⟨i, .work (.failed e)⟩ := by
    intro entry hmem
    simp only [List.mem_append, List.mem_cons, List.not_mem_nil, or_false] at hmem
    rcases hmem with (hmem | rfl | rfl) | hmem
    · exact .inl (hquiet entry hmem)
    · exact .inr rfl
    · exact .inl trivial
    · exact .inl (by rw [hstops entry hmem]; trivial)
  have hfailed : s'.stateAt i = some .error := by
    rw [hh.states, hx.states]
    simp [JournalEntry.apply, Call.next, hrun, State.halted, State.isTerminal]
  have hothers : ∀ j st, j ≠ i → s'.stateAt j = some st → st = .stopped := by
    intro j st hj hst
    rw [hh.states, hx.states, Option.map_eq_some_iff] at hst
    obtain ⟨st', hst', rfl⟩ := hst
    simp only [replay_cons, replay_nil, JournalEntry.apply, if_neg hj] at hst'
    have hne : st' ≠ .error := fun heq => hnone j (by rw [hst', heq])
    cases st' <;> first | rfl | exact absurd rfl hne
  refine ⟨hw, ?_, ?_, ?_, ?_, ?_, ?_, ?_⟩
  · rintro _ ⟨⟩
    exact .inr (.inl ⟨i, e, rfl, .inr (by simp)⟩)
  · rintro ⟨⟩
  · intro j e' hmem
    rcases hcalls _ hmem with h | h
    · exact h.elim
    · cases h
      exact ⟨rfl, hl, hfailed, hothers⟩
  · rintro _ _ ⟨⟩
  · intro e' h
    rw [hvalid] at h
    cases h
  · intro j e' hmem
    rcases hcalls _ hmem with h | h
    · exact h.elim
    · cases h
  · refine ⟨by rw [hw.config]; exact hs.policy, by rw [hl]; trivial, fun j st hst => ?_⟩
    by_cases hj : j = i
    · subst hj
      cases hfailed.symm.trans hst
      trivial
    · rw [hothers j st hj hst]
      trivial

/-- Whichever way a run ends that started all blocks, it agrees. -/
theorem agrees_of_ending (hs : IsAtRest s) (hvalid : s.graph.validate = .ok ())
    {s₁ : Scheduler β} {starts : List JournalEntry} (hw : Walks s s₁)
    (hx : Extends s.toExecution s₁.toExecution starts) (hquiet : QuietCalls starts)
    (hnone : NoneFailed s₁.stateAt) {result : Except SchedulerError Unit}
    (hend : Ending s₁ result s') :
    ∃ calls, Extends s.toExecution s'.toExecution calls ∧
      (ReturningCalls calls → Agrees s s' result calls) := by
  cases hend with
  | completed hw' hq hl hfin =>
    obtain ⟨calls, he, hcalls⟩ := id hq
    have hstopped := stopped_of_isFinished hfin (hq.noneFailed hnone)
    refine ⟨_, hx.trans he, fun _ => agrees_of_quiet hs hvalid (hquiet.append hcalls) (hw.trans hw')
      (by rw [hl]; trivial) hstopped (fun _ => hl) ?_⟩
    rintro _ ⟨⟩
  | @failed _ x x' i e hw' hl hq hrun hx' hh =>
    obtain ⟨before, he, hbefore⟩ := id hq
    obtain ⟨stops, hstop, hstops⟩ := hh.calls
    have hall := ((hx.trans he).trans hx').trans hstop
    refine ⟨_, hall, fun _ => ?_⟩
    rw [hx.nameOf]
    exact agrees_of_workFailed hs hvalid (hquiet.append hbefore) (hw.trans hw') hl
      (hq.noneFailed hnone) hrun hx' hh hstops
  | @stalled _ x x' time hw' hl hq hpass hpos hh =>
    obtain ⟨before, he, hbefore⟩ := id hq
    obtain ⟨stops, hstop, hstops⟩ := hh.calls
    have hwent := Execution.runPass_went x x.everyBlock
    rw [hpass] at hwent
    cases hwent with
    | quietly hqpass =>
      obtain ⟨pass, hepass, hpassCalls⟩ := id hqpass
      have hall := ((hx.trans he).trans hepass).trans hstop
      have hnone' := (hq.trans hqpass).noneFailed hnone
      have hstopCalls : QuietCalls stops := fun e hmem => by
        rw [hstops e hmem]
        trivial
      have hcalls := ((hquiet.append hbefore).append hpassCalls).append hstopCalls
      refine ⟨_, hall, fun _ => agrees_of_quiet hs hvalid hcalls (hw.trans hw')
        (by rw [hl]; trivial) (stopped_of_halts hh hnone') ?_ ?_⟩
      · rintro ⟨⟩
      · rintro _ ⟨⟩
        exact ⟨hl, x, x', _, pass, stops, rfl, hx.trans he, hpass, hepass, ⟨time, rfl⟩, hpos, hstop,
          hstops⟩
  | @crashed _ x i hw' hq hx' =>
    obtain ⟨before, he, hbefore⟩ := id hq
    refine ⟨_, (hx.trans he).trans hx', fun h => ?_⟩
    exact absurd (by simp) (h i)

/-! ### Runs -/

theorem run_of_isAtRest (hs : IsAtRest s) {parallelism fuel : Nat} {client : Client}
    {result : Except SchedulerError Unit}
    (h : s.run parallelism fuel client = some (result, s')) :
    ∃ calls, Extends s.toExecution s'.toExecution calls ∧
      (ReturningCalls calls → Agrees s s' result calls) := by
  obtain ⟨s₁, hs₁, hw₁, hl₁, hg₁, hj₁⟩ := prepare_spec hs.lifecycle
  have he₁ : Extends s.toExecution s₁.toExecution [] := .of_eq (by rw [hg₁]) hj₁
  have hinit := initialise_spec s₁
  rw [run, hs₁] at h
  dsimp only at h
  rcases hout : s₁.initialise with ⟨outcome, s₂⟩
  rw [hout] at h hinit
  cases hinit with
  | invalid hvalid =>
    cases h
    rw [hg₁] at hvalid
    exact ⟨[], he₁.before rfl rfl, fun _ =>
      agrees_of_invalid hs hvalid (hw₁.trans (walks_fail hl₁ _)) rfl (he₁.before rfl rfl)⟩
  | @failed _ x i e stops hvalid hi hw hl he hx hstops hstates =>
    cases h
    rw [hg₁] at hvalid hi
    have he := he₁.trans he
    have hx' := he.trans hx
    rw [he₁.nameOf]
    refine ⟨_, hx'.before rfl rfl, fun _ => ?_⟩
    exact agrees_of_startFailed hs hvalid hi ((hw₁.trans hw).trans (walks_fail (hl.trans hl₁) _))
      rfl he hstops hstates
  | @started snapshot s₂ hvalid hw hl he =>
    rw [hg₁] at hvalid
    have hreach : s₂.lifecycle.canReach .running = true := by
      rw [hl, hl₁]
      rfl
    obtain ⟨s₃, hs₃⟩ := moveTo_of_canReach hreach
    obtain ⟨hw₃, hl₃, hg₃, hj₃⟩ := moveTo_spec hs₃
    have hwalks := (hw₁.trans hw).trans hw₃
    have hstarted := (he₁.trans he).before (by rw [hg₃]) hj₃
    dsimp only at h
    rw [hs₃] at h
    simp only [runByPolicy, hwalks.config, hs.policy, Option.map_eq_some_iff] at h
    obtain ⟨⟨result', s₄⟩, hrun, heq⟩ := h
    cases heq
    have hlive : (Loop.begin s₃ client).scheduler.lifecycle.IsLive := by
      show s₃.lifecycle.IsLive
      rw [hl₃]
      trivial
    have hend := (Loop.run_ending hlive hrun).before (untouched_answerRest s₄ snapshot result')
    have hquiet : QuietCalls (s₁.everyBlock.map fun i => ⟨i, .start (.ok ())⟩) := by
      intro e hmem
      obtain ⟨i, -, rfl⟩ := List.mem_map.mp hmem
      trivial
    have hnone : NoneFailed s₃.stateAt := by
      intro j hj
      rw [hstarted.states, List.nil_append, Execution.replay_starts] at hj
      split at hj
      · rw [Option.map_eq_some_iff] at hj
        obtain ⟨st, -, hj⟩ := hj
        cases hj
      next hmem =>
        have hmem : ¬ j ∈ s.everyBlock := he₁.everyBlock ▸ hmem
        rw [Execution.mem_everyBlock, hj] at hmem
        exact hmem rfl
    exact agrees_of_ending hs hvalid hwalks hstarted hquiet hnone hend

/-- Schedulers on one thread between runs, after any history of runs whose work calls returned,
and of changes that leave the lifecycle alone and no block in the midst of a run. -/
inductive Reachable : Scheduler β → Prop where
  | new {graph : Graph β} {config : SchedulerConfig} {inboxId : Nat} :
      config.policy = .singleThreaded → (∀ n ∈ graph.nodes, n.state.IsResting) →
      Reachable (new graph config inboxId)
  | change {s s' : Scheduler β} : Reachable s → s'.lifecycle = s.lifecycle →
      s'.config = s.config → (∀ n ∈ s'.graph.nodes, n.state.IsResting) → Reachable s'
  | run {s s' : Scheduler β} {parallelism fuel : Nat} {client : Client}
      {result : Except SchedulerError Unit} {calls : List JournalEntry} : Reachable s →
      s.run parallelism fuel client = some (result, s') →
      s'.journal.toList = s.journal.toList ++ calls → ReturningCalls calls → Reachable s'

theorem Reachable.isAtRest (h : Reachable s) : IsAtRest s := by
  have hblocks : ∀ {t : Scheduler β}, (∀ n ∈ t.graph.nodes, n.state.IsResting) →
      ∀ i st, t.stateAt i = some st → st.IsResting := by
    intro t hall i st hst
    rw [Execution.stateAt, Option.map_eq_some_iff] at hst
    obtain ⟨n, hn, rfl⟩ := hst
    exact hall n (List.mem_of_getElem? hn)
  induction h with
  | new hpolicy hall => exact ⟨hpolicy, trivial, hblocks hall⟩
  | change _ hl hc hall ih =>
    exact ⟨by rw [hc]; exact ih.policy, by rw [hl]; exact ih.lifecycle, hblocks hall⟩
  | run _ hrun hcalls hreturn ih =>
    obtain ⟨calls', he, hagrees⟩ := run_of_isAtRest ih hrun
    have heq := List.append_cancel_left (he.journal.symm.trans hcalls)
    subst heq
    exact (hagrees hreturn).atRest

/-- A run that returns, of blocks whose calls return, agrees with the states and calls of its
blocks, and with what the state machine of the lifecycle allows. -/
theorem run_agrees (hs : Reachable s) {parallelism fuel : Nat} {client : Client}
    {result : Except SchedulerError Unit} {calls : List JournalEntry}
    (h : s.run parallelism fuel client = some (result, s'))
    (hcalls : s'.journal.toList = s.journal.toList ++ calls) (hreturn : ReturningCalls calls) :
    (∀ st, result ≠ .error (.invalidState st)) ∧ (∀ e, result ≠ .error (.lifecycle e)) ∧
      Agrees s s' result calls := by
  obtain ⟨calls', he, hagrees⟩ := run_of_isAtRest hs.isAtRest h
  have heq := List.append_cancel_left (he.journal.symm.trans hcalls)
  subst heq
  have hagree := hagrees hreturn
  refine ⟨fun st hst => ?_, fun e he => ?_, hagree⟩
  · rcases hagree.cause _ hst with ⟨_, h, _⟩ | ⟨_, _, h, _⟩ | ⟨_, _, h⟩ <;> cases h
  · rcases hagree.cause _ he with ⟨_, h, _⟩ | ⟨_, _, h, _⟩ | ⟨_, _, h⟩ <;> cases h

/-- A source with data, and one without, which cannot start. -/
def twoSources : Scheduler Builtin :=
  let block (data : List Sample) : Builtin := .vectorSource { VectorSource.new .raw with data }
  new ⟨[.new "VectorSource" "Raw" (block [.raw 7]) 0, .new "VectorSource" "Raw" (block []) 1], [],
    .default⟩ .default 0

/-- The first source is stopped when the second fails to start. -/
theorem run_agrees_twoSources : ∃ s' calls, Reachable twoSources ∧
    twoSources.run 1 0 .absent =
      some (.error (.blockFailed (twoSources.nameOf 1) (.block "VectorSource has no data")), s') ∧
    s'.journal.toList = twoSources.journal.toList ++ calls ∧ ReturningCalls calls ∧
    Agrees twoSources s'
      (.error (.blockFailed (twoSources.nameOf 1) (.block "VectorSource has no data"))) calls := by
  have hs : Reachable twoSources := .new rfl fun n hn => by
    simp only [List.mem_cons, List.not_mem_nil, or_false] at hn
    rcases hn with rfl | rfl <;> trivial
  have hrun : ∃ s', twoSources.run 1 0 .absent =
      some (.error (.blockFailed (twoSources.nameOf 1) (.block "VectorSource has no data")), s') ∧
      s'.journal.toList = twoSources.journal.toList ++ [⟨0, .start (.ok ())⟩,
        ⟨1, .start (.error (.block "VectorSource has no data"))⟩, ⟨0, .stop⟩] := by
    refine ⟨_, rfl, ?_⟩
    rfl
  obtain ⟨s', hrun, hcalls⟩ := hrun
  have hreturn : ReturningCalls [⟨0, .start (.ok ())⟩,
      ⟨1, .start (.error (.block "VectorSource has no data"))⟩, ⟨0, .stop⟩] := by
    simp [ReturningCalls]
  exact ⟨s', _, hs, hrun, hcalls, hreturn, (run_agrees hs hrun hcalls hreturn).2.2⟩

end Scheduler
end Dataflow
