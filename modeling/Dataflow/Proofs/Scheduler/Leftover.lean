import Dataflow.Proofs.Scheduler.Answers

/-!
# Messages left over by a run

A run that launches leaves no message behind: whatever was in the inbox has been answered. A run
that ends before its loop begins, because the graph is not valid or a block fails to start, answers
none. So what waits when it begins goes on waiting (`Scheduler.Fruitless`), through any number of
such runs, and the first run that launches takes it for its own (`Scheduler.run_after`). A stale
request to stop ends that run before it has made a call (`Scheduler.stale_stop`).
-/

namespace Dataflow

open Lifecycle (State)

namespace Scheduler

variable {β : Type} [Block β] {s s' s'' : Scheduler β} {snapshot : PropertyMap}
  {parallelism fuel : Nat} {client : Client} {result : Except SchedulerError Unit}

theorem inbox_prefix_abandon (x : Execution β) (group : List Nat) :
    x.inbox <+: (abandon x group).inbox :=
  Execution.inbox_prefix_drives (Execution.drives_abandon x group)

theorem receives_initialise (s : Scheduler β) : Receives s s.initialise.2 := by
  simp only [initialise]
  split
  · exact .refl
  · let s₀ := s.exec fun x => { x with graph := x.graph.bind }
    have hstarts := inbox_prefix_startAll s₀.toExecution s₀.everyBlock
    split
    next x hstart =>
      rw [hstart] at hstarts
      exact ⟨hstarts.trans (inbox_prefix_abandon x x.everyBlock), rfl⟩
    next x hstart =>
      rw [hstart] at hstarts
      exact ⟨hstarts, rfl⟩

/-- A run that does not launch answers nothing. -/
theorem receives_of_not_launches (h : s.run parallelism fuel client = some (result, s'))
    (hnot : ∀ snapshot s₀, ¬ s.Launches snapshot s₀) : Receives s s' := by
  have hmoves : ∀ (s s' : Scheduler β) st, s.moveTo st = .ok s' → Receives s s' :=
    fun _ _ _ h => receives_steps (steps_moveTo h)
  cases hprepare : s.prepare with
  | error e =>
    simp only [run, hprepare] at h
    cases h
    exact .refl
  | ok s₁ =>
    have hs₁ : Receives s s₁ := of_prepare (fun _ _ _ => .trans) hmoves hprepare
    have hinitialise := hs₁.trans (receives_initialise s₁)
    rcases hinit : s₁.initialise with ⟨outcome, s₂⟩
    rw [hinit] at hinitialise
    cases outcome with
    | error e =>
      simp only [run, hprepare, hinit] at h
      cases h
      exact hinitialise.trans ⟨List.prefix_refl _, rfl⟩
    | ok snapshot =>
      cases hmove : s₂.moveTo .running with
      | error e =>
        simp only [run, hprepare, hinit, hmove] at h
        cases h
        exact hinitialise
      | ok s₃ => exact absurd ⟨s₁, s₂, hprepare, hinit, hmove⟩ (hnot snapshot s₃)

/-- A run of an invalid graph leaves the inbox as it is. -/
theorem run_of_invalid (hs : IsAtRest s) {e : GraphError} (hvalid : s.graph.validate = .error e)
    (h : s.run parallelism fuel client = some (result, s')) :
    result = .error (.graph e) ∧ s'.inbox = s.inbox ∧ s'.graph = s.graph := by
  obtain ⟨s₁, hprepare, -, -, hg₁, -⟩ := prepare_spec hs.lifecycle
  have hinbox : s₁.inbox = s.inbox := inbox_prepare hprepare
  have hinit : s₁.initialise = (.error (.graph e), s₁) := by
    simp only [initialise, hg₁, hvalid]
  simp only [run, hprepare, hinit] at h
  cases h
  exact ⟨rfl, hinbox, hg₁⟩

theorem Launches.valid (hs : IsAtRest s) (h : s.Launches snapshot s') :
    s.graph.validate = .ok () := by
  obtain ⟨s₁, s₂, hprepare, hinit, -⟩ := h
  obtain ⟨_, hprepare', -, -, hg₁, -⟩ := prepare_spec hs.lifecycle
  cases hprepare'.symm.trans hprepare
  have hspec := initialise_spec s₁
  rw [hinit] at hspec
  cases hspec with
  | started hvalid => rw [← hg₁, hvalid]

/-- A run of a valid graph that does not launch fails to start a block. -/
theorem run_of_unstarted (hs : IsAtRest s) (hvalid : s.graph.validate = .ok ())
    (hnot : ∀ snapshot s₀, ¬ s.Launches snapshot s₀)
    (h : s.run parallelism fuel client = some (result, s')) :
    ∃ block e, result = .error (.blockFailed block e) := by
  obtain ⟨s₁, hprepare, -, hl₁, hg₁, -⟩ := prepare_spec hs.lifecycle
  rcases hinit : s₁.initialise with ⟨outcome, s₂⟩
  have hspec := initialise_spec s₁
  rw [hinit] at hspec
  cases outcome with
  | ok snapshot =>
    have hreach : s₂.lifecycle.canReach .running = true := by
      cases hspec with
      | started _ _ hl => rw [hl, hl₁]; rfl
    obtain ⟨s₃, hmove⟩ := moveTo_of_canReach hreach
    exact absurd ⟨s₁, s₂, hprepare, hinit, hmove⟩ (hnot snapshot s₃)
  | error e =>
    simp only [run, hprepare, hinit] at h
    cases h
    rw [← hg₁] at hvalid
    simp only [initialise, hvalid] at hinit
    split at hinit
    · cases hinit
      exact ⟨_, _, rfl⟩
    · cases hinit

/-- A scheduler comes to another by messages, by changes that leave alone what waits, and by runs
that do not launch. -/
inductive Fruitless (s : Scheduler β) : Scheduler β → Prop where
  | refl : Fruitless s s
  | change {s' s'' : Scheduler β} : Fruitless s s' → Receives s' s'' → Fruitless s s''
  | run {s' s'' : Scheduler β} {parallelism fuel : Nat} {client : Client}
      {result : Except SchedulerError Unit} : Fruitless s s' →
      s'.run parallelism fuel client = some (result, s'') →
      (∀ snapshot s₀, ¬ s'.Launches snapshot s₀) → Fruitless s s''

theorem Fruitless.receives (h : Fruitless s s') : Receives s s' := by
  induction h with
  | refl => exact .refl
  | change _ h ih => exact ih.trans h
  | run _ h hnot ih => exact ih.trans (receives_of_not_launches h hnot)

/-- What waits in the inbox goes on waiting until a run launches, which answers all of it and
leaves nothing if it returns; only a crash on the calling thread leaves what has not been handled. A
run that does not launch fails on an invalid graph or on the start of a block, and answers
nothing. -/
theorem run_after (hf : Fruitless s s') (hs : Reachable s')
    (h : s'.run parallelism fuel client = some (result, s'')) :
    ((∃ snapshot s₀, s'.Launches snapshot s₀) ∧
      (result ≠ .error (.workerPanicked 0) → s''.inbox = []) ∧
      ∃ messages posted, s.inbox <+: messages ++ s''.inbox ∧
        List.Forall₂ Message.Answers posted messages ∧
        s''.replies.toList = s.replies.toList ++ posted) ∨
    (Fruitless s s'' ∧ s.inbox <+: s''.inbox ∧ s''.replies = s.replies ∧
      ((∃ e, s'.graph.validate = .error e ∧ result = .error (.graph e) ∧
          s''.inbox = s'.inbox) ∨
        s'.graph.validate = .ok () ∧ ∃ block e, result = .error (.blockFailed block e))) := by
  have hwaits := hf.receives
  by_cases hlaunch : ∃ snapshot s₀, s'.Launches snapshot s₀
  · obtain ⟨snapshot, s₀, h₀⟩ := hlaunch
    obtain ⟨s₁, posted, late, -, -, hinbox, hreplies, hsplit, hanswers, hempty⟩ :=
      h₀.answers hs.isAtRest h
    refine .inl ⟨⟨snapshot, s₀, h₀⟩, hempty, _, posted, ?_, hanswers, ?_⟩
    · rw [List.append_assoc, ← hsplit]
      exact hwaits.inbox.trans (h₀.receives.inbox.trans hinbox)
    · rw [hreplies, hwaits.replies]
  · have hnot : ∀ snapshot s₀, ¬ s'.Launches snapshot s₀ :=
      fun snapshot s₀ h₀ => hlaunch ⟨snapshot, s₀, h₀⟩
    have hafter : Fruitless s s'' := hf.run h hnot
    refine .inr ⟨hafter, hafter.receives.inbox, hafter.receives.replies, ?_⟩
    cases hvalid : s'.graph.validate with
    | error e =>
      obtain ⟨hresult, hinbox, -⟩ := run_of_invalid hs.isAtRest hvalid h
      exact .inl ⟨e, rfl, hresult, hinbox⟩
    | ok => exact .inr ⟨rfl, run_of_unstarted hs.isAtRest hvalid hnot h⟩

/-! ### A request to stop that outlives its run -/

/-- The source and the sink of `endless`, before they are connected. -/
def unconnected (inbox : List Message) : Scheduler Builtin :=
  (endless inbox).exec fun x => x.setConnections []

/-- Connect them. -/
def connected (s : Scheduler Builtin) : Scheduler Builtin :=
  s.exec fun x => x.setConnections (endless []).graph.connections

theorem isResting_unconnected {inbox : List Message} {n : Node Builtin}
    (hn : n ∈ (unconnected inbox).graph.nodes) : n.state.IsResting := by
  simp only [unconnected, exec, Execution.setConnections, endless, new, List.mem_cons,
    List.not_mem_nil, or_false] at hn
  rcases hn with rfl | rfl <;> trivial

theorem reachable_unconnected (inbox : List Message) : Reachable (unconnected inbox) :=
  (reachable_endless inbox).change rfl rfl fun _ => isResting_unconnected

/-- A request to stop is sent, and a run fails because a sink is not connected. The request is not
answered; and when the sink has been connected, it ends the next run before any work call. -/
theorem stale_stop : ∃ s' s'',
    let s := unconnected [Client.request "REQUESTED_STOP"]
    s.run 1 1 .absent = some (.error (.graph (.unconnectedInput "NullSink#0" "in")), s') ∧
      s'.lifecycle = .error ∧ s'.inbox = [Client.request "REQUESTED_STOP"] ∧ s'.replies = #[] ∧
      (connected s').run 1 1 .absent = some (.ok (), s'') ∧ s''.inbox = [] ∧
      s''.replies.toList.map (fun m => m.data) = [.ok [("state", .string "REQUESTED_STOP")]] ∧
      s''.journal.toList =
        [⟨0, .start (.ok ())⟩, ⟨1, .start (.ok ())⟩, ⟨0, .stop⟩, ⟨1, .stop⟩] :=
  ⟨_, _, rfl, rfl, rfl, rfl, rfl, rfl, rfl, rfl⟩

theorem run_after_unconnected : ∃ s' s'',
    let s := unconnected [Client.request "REQUESTED_STOP"]
    Fruitless s (connected s') ∧ Reachable (connected s') ∧
      (connected s').run 1 1 .absent = some (.ok (), s'') ∧
      ∃ messages posted, s.inbox <+: messages ∧ List.Forall₂ Message.Answers posted messages ∧
        s''.replies.toList = posted := by
  let s := unconnected [Client.request "REQUESTED_STOP"]
  have hs : Reachable s := reachable_unconnected _
  obtain ⟨s', s'', hfirst, hjournal, hgraph, hsecond⟩ : ∃ s' s'', s.run 1 1 .absent =
      some (.error (.graph (.unconnectedInput "NullSink#0" "in")), s') ∧
      s'.journal.toList = s.journal.toList ++ [] ∧ s'.graph = s.graph ∧
      (connected s').run 1 1 .absent = some (.ok (), s'') := ⟨_, _, rfl, rfl, rfl, rfl⟩
  have hnot : ∀ snapshot s₀, ¬ s.Launches snapshot s₀ := fun snapshot s₀ h₀ => by
    cases h₀.valid hs.isAtRest
  have hf : Fruitless s (connected s') :=
    (Fruitless.refl.run hfirst hnot).change ⟨List.prefix_refl _, rfl⟩
  have hs' : Reachable (connected s') :=
    (hs.run hfirst hjournal fun _ h => by cases h).change rfl rfl fun n hn => by
      have hn : n ∈ s'.graph.nodes := hn
      rw [hgraph] at hn
      exact isResting_unconnected hn
  refine ⟨s', s'', hf, hs', hsecond, ?_⟩
  rcases run_after hf hs' hsecond with ⟨-, hempty, messages, posted, hinbox, hanswers, hreplies⟩ |
    ⟨-, -, -, ⟨e, -, he, -⟩ | ⟨-, block, e, he⟩⟩
  · rw [hempty (by simp), List.append_nil] at hinbox
    exact ⟨messages, posted, hinbox, hanswers, hreplies⟩
  · cases he
  · cases he

end Scheduler
end Dataflow
