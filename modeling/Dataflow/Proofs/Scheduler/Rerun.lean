import Dataflow.Proofs.Execution.Restart
import Dataflow.Proofs.Scheduler.Lasting
import Dataflow.Proofs.Scheduler.Launch
import Mathlib

/-!
# Running again

A scheduler that has run before (`Scheduler.Used`), whatever became of those runs, runs again like
one that has just been made of a graph that has been built anew (`Scheduler.run_again`). It looks
back upon a past (`Scheduler.past`), which a run does not depend on, and of what its blocks have
done nothing is left once they have been started.
-/

namespace Dataflow

open Lifecycle (State)

namespace Scheduler

/-! ### What a run looks back upon -/

section Past

variable {β : Type} [Block β] {s t s₁ t₁ : Scheduler β}

omit [Block β] in
/-- What a scheduler between runs looks back upon in its next run, which it begins idle. -/
def past (s : Scheduler β) : Past where
  trace := s.trace
  journal := s.journal
  log := if s.lifecycle = .idle then s.log else (s.enter .idle).log
  entered := if s.lifecycle = .idle then s.entered else (s.enter .idle).entered
  replies := s.replies

omit [Block β] in
/-- Apart from its past, a scheduler between runs is as good as new. -/
theorem withPast_past (s : Scheduler β) :
    ((new s.graph s.config s.inboxId).withInbox s.inbox).withPast s.past =
      if s.lifecycle = .idle then s else s.enter .idle := by
  by_cases h : s.lifecycle = .idle
  · simp only [withPast, Execution.withPast, past, new, withInbox, exec, Execution.withInbox,
      if_pos h, Array.append_empty]
    rw [← h]
  · simp only [withPast, Execution.withPast, past, new, withInbox, exec, Execution.withInbox,
      if_neg h, Array.append_empty]
    rfl

omit [Block β] in
theorem prepare_past (h : s.prepare = .ok s₁) :
    (((new s.graph s.config s.inboxId).withInbox s.inbox).withPast s.past).prepare = .ok s₁ := by
  rw [withPast_past]
  have hreset : ∀ t : Scheduler β, t.lifecycle.canReach .idle = true → t.lifecycle ≠ .idle →
      (t.moveTo .idle >>= fun t => t.moveTo .initialising).mapError SchedulerError.lifecycle =
        (t.enter .idle).prepare := fun t hreach hne => by
    have hmove : t.moveTo .idle = .ok (t.enter .idle) := by
      simp [moveTo, State.transition, hreach, hne]
    rw [hmove]
    rfl
  by_cases hidle : s.lifecycle = .idle
  · rw [if_pos hidle, h]
  rw [if_neg hidle]
  rw [prepare] at h
  split at h
  next hl => exact absurd hl hidle
  next hl => rw [← h, hreset s (by rw [hl]; rfl) hidle]
  next hl => rw [← h, hreset s (by rw [hl]; rfl) hidle]
  next => cases h

theorem run_congr (h : s.prepare = .ok s₁) (h' : t.prepare = .ok t₁)
    (hinit : s₁.initialise = t₁.initialise) (parallelism fuel : Nat) (client : Client) :
    s.run parallelism fuel client = t.run parallelism fuel client := by
  simp only [run, h, h', hinit]

end Past

/-! ### The main result -/

variable {s : Scheduler Builtin} {snapshot : PropertyMap}

/-- Schedulers between runs, after any history of runs, however these were driven and ended, and of
changes that leave the lifecycle and the configuration alone. -/
inductive Used : Scheduler Builtin → Prop where
  | new {graph : Graph Builtin} {config : SchedulerConfig} {inboxId : Nat} :
      graph.IsIntact → Used (new graph config inboxId)
  | change {s s' : Scheduler Builtin} : Used s → s'.lifecycle = s.lifecycle →
      s'.config = s.config → s'.graph.IsIntact → Used s'
  | run {s s' : Scheduler Builtin} {parallelism fuel : Nat} {client : Client}
      {result : Except SchedulerError Unit} : Used s →
      s.run parallelism fuel client = some (result, s') → Used s'

theorem Used.isIntact (h : Used s) : s.graph.IsIntact := by
  induction h with
  | new hintact => exact hintact
  | change _ _ _ hintact _ => exact hintact
  | run _ hrun ih => exact Graph.lasting_isIntact.run ih hrun

/-- Initialisation leaves nothing of what the blocks have done. -/
theorem initialise_of_rebuilds {g : Graph Builtin} (hg : g.Rebuilds s.graph)
    (hs : s.graph.IsIntact) (h : s.initialise.1 = .ok snapshot) :
    ({ s with graph := g } : Scheduler Builtin).initialise = s.initialise := by
  cases hvalid : s.graph.validate with
  | error e =>
    simp only [initialise, hvalid] at h
    cases h
  | ok =>
    have hvalid' : g.validate = .ok () := (hg.sameWiring hs).validate hvalid
    rw [initialise_eq s hvalid] at h ⊢
    rw [initialise_eq _ hvalid']
    rcases hstart : startAll s.toExecution.bound s.everyBlock with ⟨failure, z⟩
    rw [hstart] at h
    cases failure with
    | some failure => cases h
    | none =>
      have hagain := hg.startAll hs (x := s.toExecution.bound) rfl hstart
      exact congrArg s.concludeStart hagain

/-- A rerun equals a first run. Once a scheduler with any history gets past initialisation on one
thread, with any messages in its inbox, it goes on as would a new scheduler of a graph that has been
built anew: it makes the same calls on blocks and posts the same replies, after those of the past,
it ends with the same result, and it leaves the same lifecycle and the same graph, with all that its
blocks have done and hold. -/
theorem run_again (hs : s.Used) (hpolicy : s.config.policy = .singleThreaded)
    {g : Graph Builtin} (hg : g.Rebuilds s.graph)
    (messages : List Message) {s₀ : Scheduler Builtin}
    (hlaunch : (s.withInbox messages).Launches snapshot s₀) (parallelism fuel : Nat) :
    (s.withInbox messages).run parallelism fuel .absent =
      (((new g s.config s.inboxId).withInbox messages).run parallelism fuel .absent).map
        fun (result, t) => (result, t.withPast s.past) := by
  have hintact := hs.isIntact
  obtain ⟨s₁, s₂, hprepare, hinit, -⟩ := hlaunch
  let old : Scheduler Builtin := (new s.graph s.config s.inboxId).withInbox messages
  let first : Scheduler Builtin := (new g s.config s.inboxId).withInbox messages
  have hold : old.prepare = .ok (old.enter .initialising) := rfl
  have hfirst : first.prepare = .ok (first.enter .initialising) := rfl
  have hpast : (old.withPast s.past).prepare = .ok s₁ :=
    prepare_past (s := s.withInbox messages) hprepare
  have hs₁ : s₁ = (old.enter .initialising).withPast s.past := by
    rw [prepare_withPast, hold] at hpast
    exact (Except.ok.inj hpast).symm
  have hok : (old.enter .initialising).initialise.1 = .ok snapshot := by
    rw [hs₁, initialise_withPast] at hinit
    exact congrArg Prod.fst hinit
  have hsame : (first.enter .initialising).initialise = (old.enter .initialising).initialise :=
    initialise_of_rebuilds (s := old.enter .initialising) hg hintact hok
  rw [run_congr hprepare hpast rfl, run_withPast (s := old) hpolicy,
    run_congr hold hfirst hsame.symm]

/-- Three zeros, as they have just been built: a vector sink behind a head behind a source that
never ends. -/
def zeros : Graph Builtin :=
  let type : SampleType := .int .i32
  let g := ((Graph.empty .default).add .empty "VectorSink" "" (.vectorSink (.new type))).graph
  let g := (g.add .empty "Head" "" (.head { Head.new type with numItems := 3 })).graph
  let g := (g.add .empty "NullSource" "" (.nullSource (.new type))).graph
  match g.connect 2 (.index 0) 1 (.index 0) (some 2) with
  | .ok g =>
    match g.connect 1 (.index 0) 0 (.index 0) (some 1) with
    | .ok g => g
    | .error _ => g
  | .error _ => g

theorem isIntact_zeros : zeros.IsIntact := by
  have hsink := (Graph.isIntact_empty .default).add .empty "VectorSink" ""
    (.vectorSink (.new (.int .i32))) trivial
  have hhead := hsink.add .empty "Head" "" (.head { Head.new (.int .i32) with numItems := 3 })
    trivial
  have hsource := hhead.add .empty "NullSource" "" (.nullSource (.new (.int .i32))) trivial
  unfold zeros
  dsimp only
  split
  next g hg =>
    split
    next g' hg' => exact (hsource.connect hg).connect hg'
    next => exact hsource.connect hg
  next => exact hsource

/-- What the vector sinks of a scheduler hold, and how many samples wait in its streams. -/
def holdings (s : Scheduler Builtin) : List (List Sample) × List (Option Nat) :=
  (s.graph.nodes.filterMap fun n =>
      match n.block with
      | .vectorSink b => some b.data.toList
      | _ => none,
    s.graph.connections.map fun c => c.stream.map Stream.available)

/-- What nodes that resemble each other have in common. -/
def traits (n : Node Builtin) :
    String × String × String × Nat × BuiltinKind × SampleType × PropertyMap :=
  (n.name, n.blockType, n.parameterization, n.sequence, n.block.kind, n.block.sampleType,
    n.settings)

theorem resembles_of_traits {n m : Node Builtin} (h : traits n = traits m) : n.Resembles m := by
  simp only [traits, Prod.mk.injEq] at h
  obtain ⟨hname, htype, hparam, hsequence, hkind, hsample, hsettings⟩ := h
  exact ⟨hname, htype, hparam, hsequence, hkind, hsample, hsettings⟩

theorem rebuilds_of_traits {g old : Graph Builtin} (hg : g.IsIntact)
    (hnodes : old.nodes.map traits = g.nodes.map traits)
    (hwires : old.connections.map Connection.wire = g.connections.map Connection.wire)
    (hconfig : old.config = g.config) : g.Rebuilds old := by
  refine ⟨hg, ?_, hwires.symm, hconfig.symm⟩
  rw [← List.forall₂_eq_eq_eq, List.forall₂_map_left_iff, List.forall₂_map_right_iff] at hnodes
  exact hnodes.flip.imp fun _ _ h => resembles_of_traits h.symm

set_option maxRecDepth 4000 in
/-- A run leaves three zeros in the sink and one on the way to the head; the sink has the same three
after the next run, which answers a message. -/
theorem run_again_zeros : ∃ s snapshot s₀ t,
    let messages : List Message := [.new .get "VectorSink#0" "Settings" []]
    (new zeros .default 0).run 1 9 .absent = some (.ok (), s) ∧
    s.holdings = ([[.int .i32 0, .int .i32 0, .int .i32 0]], [some 1, some 0]) ∧
    s.Used ∧ s.config.policy = .singleThreaded ∧ zeros.Rebuilds s.graph ∧
    (s.withInbox messages).Launches snapshot s₀ ∧
    ((new zeros s.config s.inboxId).withInbox messages).run 1 9 .absent = some (.ok (), t) ∧
    (s.withInbox messages).run 1 9 .absent = some (.ok (), t.withPast s.past) ∧
    t.holdings = ([[.int .i32 0, .int .i32 0, .int .i32 0]], [some 1, some 0]) ∧
    t.replies.size = 1 := by
  let messages : List Message := [.new .get "VectorSink#0" "Settings" []]
  have hfirst : ((new zeros .default 0).run 1 9 .absent).map (fun (result, s) =>
      (result, s.config, s.inboxId, s.graph.nodes.map traits,
        s.graph.connections.map Connection.wire, s.graph.config, s.holdings,
        ((s.withInbox messages).run 1 9 .absent).map Prod.fst)) =
      some (.ok (), .default, 0, zeros.nodes.map traits, zeros.connections.map Connection.wire,
        zeros.config, ([[.int .i32 0, .int .i32 0, .int .i32 0]], [some 1, some 0]),
        some (.ok ())) := by
    cbv
  have hanew : (((new zeros .default 0).withInbox messages).run 1 9 .absent).map (fun (result, t) =>
      (result, t.holdings, t.replies.size)) =
      some (.ok (), ([[.int .i32 0, .int .i32 0, .int .i32 0]], [some 1, some 0]), 1) := by
    cbv
  obtain ⟨⟨result, s⟩, hrun, hs⟩ := Option.map_eq_some_iff.mp hfirst
  obtain ⟨⟨result', t⟩, hrun', ht⟩ := Option.map_eq_some_iff.mp hanew
  simp only [Prod.mk.injEq] at hs ht
  obtain ⟨rfl, hconfig, hid, hnodes, hwires, hgraph, hholdings, hagain⟩ := hs
  obtain ⟨rfl, hholdings', hreplies⟩ := ht
  obtain ⟨⟨result'', s'⟩, hrun'', rfl⟩ := Option.map_eq_some_iff.mp hagain
  obtain ⟨snapshot, s₀, hlaunch⟩ := exists_launches hrun''
  have hused : s.Used := (Used.new isIntact_zeros).run hrun
  have hpolicy : s.config.policy = .singleThreaded := by rw [hconfig]; rfl
  have hg : zeros.Rebuilds s.graph := rebuilds_of_traits isIntact_zeros hnodes hwires hgraph
  have hrerun := run_again hused hpolicy hg messages hlaunch 1 9
  rw [← hconfig, ← hid] at hrun'
  rw [hrun'] at hrerun
  exact ⟨s, snapshot, s₀, t, hrun, hholdings, hused, hpolicy, hg, hlaunch, hrun', hrerun,
    hholdings', hreplies⟩

end Scheduler
end Dataflow
