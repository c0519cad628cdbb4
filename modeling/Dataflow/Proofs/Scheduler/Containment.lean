import Dataflow.Proofs.Node.Placed
import Dataflow.Proofs.Scheduler.Heeding
import Dataflow.Proofs.Scheduler.Nodes

/-!
# What messages cannot do

Handling a message posts one reply, and beyond that does what the message asks for and no more
(`Scheduler.Contained`). Most messages change nothing at all (`Scheduler.OnlyReplies`). A request
for a state changes the lifecycle of the scheduler alone, and a change of settings changes the block
and the extra settings of the one node that it is addressed to. A message whose reply is an error
has changed nothing, except where a block that refused settings is not put back as it was. A
built-in block always is, at any time of a run (`handle_contained`), provided that it has accepted
its settings: checking them again brings settings into form that were made past the node
(`unsettled_rejected`).
-/

namespace Dataflow

open Lifecycle (State)

/-- A request to the scheduler to change its lifecycle state. -/
structure Message.AsksForState (m : Message) : Prop where
  destination : m.destination = ""
  property : m.property = "LifecycleState"
  command : m.command = .set

/-- A request to a block to change its settings. -/
structure Message.AsksForSettings (m : Message) : Prop where
  destination : m.destination ≠ ""
  property : m.property = "Settings"
  command : m.command = .set

variable {β : Type}

namespace Graph

variable {g : Graph β} {i : Nat} {n : Node β}

theorem modifyNode_self (hn : g.node? i = some n) : (g.modifyNode i fun _ => n) = g := by
  rw [modifyNode_eq hn, set_of_getElem? hn]

end Graph

namespace Node

variable [Block β] {n : Node β} {m : Message}

/-- A request that is refused leaves the node as it was if its block is put back. -/
theorem answer_of_error {e : MessageError} (h : (n.answer m).data = .error e)
    (hrestores : m.property = "Settings" → m.command = .set → ∀ payload, m.data = .ok payload →
      n.Restores payload) : (n.answer m).node = n := by
  by_cases hm : m.property = "Settings" ∧ m.command = .set
  · rw [answer_of_set n hm.1 hm.2, answerSet] at h ⊢
    split
    · rfl
    next payload hdata =>
      simp only [hdata] at h ⊢
      split at h
      · cases h
      next herror => exact (hrestores hm.1 hm.2 payload hdata).apply_eq herror
  · exact (answer_of_get n hm).1

end Node

namespace Scheduler

variable {s s' s'' : Scheduler β} {m : Message}

/-- All of a scheduler is as it was, but for its replies and its log. -/
def OnlyReplies (s s' : Scheduler β) : Prop :=
  ∃ replies log, s' = { s with replies, log }

namespace OnlyReplies

theorem trans (h : s.OnlyReplies s') (h' : s'.OnlyReplies s'') : s.OnlyReplies s'' := by
  obtain ⟨_, _, rfl⟩ := h
  obtain ⟨replies, log, rfl⟩ := h'
  exact ⟨replies, log, rfl⟩

theorem reply (s : Scheduler β) (m : Message) (data : Except MessageError PropertyMap) :
    s.OnlyReplies (s.reply m data) := by
  cases data <;> exact ⟨_, _, rfl⟩

end OnlyReplies

/-- What handling a message may do to a scheduler. -/
structure Contained [Block β] (s : Scheduler β) (m : Message) (s' : Scheduler β) : Prop where
  /-- One reply is posted. -/
  replied : ∃ data, s'.replies = s.replies.push (m.reply data)
  /-- A message that does not ask for a change makes none. -/
  unasked : ¬ m.AsksForState → (m.AsksForSettings → s.graph.find? m.destination = none) →
    s.OnlyReplies s'
  /-- A request for a state changes the lifecycle only, to a state that may be asked for and that
  the state machine has a move to. -/
  lifecycle : m.AsksForState →
    s.OnlyReplies s' ∨
    s.OnlyReplies { s' with lifecycle := s.lifecycle, entered := s.entered } ∧
      s'.lifecycle.isRequestable = true ∧ s.lifecycle.canReach s'.lifecycle = true ∧
      s'.entered = s.entered.push s'.lifecycle
  /-- A change of settings concerns the block and the extra settings of one node only. -/
  settings : m.AsksForSettings → ∀ i, s.graph.find? m.destination = some i →
    s.OnlyReplies { s' with graph := s.graph } ∧
      ∃ block extra, s'.graph = s.graph.modifyNode i fun n => { n with block, extra }
  /-- What is refused changes nothing, unless a block is not put back. -/
  refused : ∀ e, s'.replies = s.replies.push (m.reply (.error e)) →
    (m.AsksForSettings → ∀ i n payload, s.graph.find? m.destination = some i →
      s.graph.node? i = some n → m.data = .ok payload → n.Restores payload) →
    s.OnlyReplies s'

theorem data_of_replies {replies : Array Message} {data data' : Except MessageError PropertyMap}
    (h : replies.push (m.reply data) = replies.push (m.reply data')) : data = data' := by
  have hreply : m.reply data = m.reply data' := (Array.push_eq_push.mp h).1
  exact congrArg Message.data hreply

/-! ### Messages to the scheduler -/

theorem moveTo_cases {st : State} (h : s.moveTo st = .ok s') :
    s.lifecycle = st ∧ s' = s ∨
      s.lifecycle ≠ st ∧ s.lifecycle.canReach st = true ∧ s' = s.enter st := by
  simp only [moveTo, State.transition] at h
  split at h
  · cases h
  next hok =>
    split at hok
    next hreach =>
      cases h
      by_cases heq : s.lifecycle = st
      · exact .inl ⟨heq, if_pos heq⟩
      · simp only [heq, decide_false, Bool.false_or] at hreach
        exact .inr ⟨heq, hreach, if_neg heq⟩
    next => cases hok

/-- A request for a state is refused, finds the scheduler there, or makes it enter the state. -/
theorem requestState_cases (s : Scheduler β) (m : Message) :
    (s.requestState m).2 = s ∨
    (∃ st text, st.isRequestable = true ∧ s.lifecycle.canReach st = true ∧
      (s.requestState m).2 = (s.enter st).say .info text) ∧ (s.requestState m).1.isOk = true := by
  simp only [requestState]
  split
  · exact .inl rfl
  next st hst =>
    split
    · exact .inl rfl
    next s' hmove =>
      rcases moveTo_cases hmove with ⟨hsame, rfl⟩ | ⟨hne, hreach, rfl⟩
      · exact .inl (if_pos hsame)
      · exact .inr ⟨⟨st, _, isRequestable_of_requestedState hst, hreach, if_neg hne⟩, rfl⟩

variable [Block β]

theorem contained_handleOwn (s : Scheduler β) (snapshot : PropertyMap) (hm : m.destination = "") :
    s.Contained m (s.handleOwn snapshot m) := by
  have hreplies := replies_handleOwn s snapshot m
  have hreply : (s.answerOwn snapshot m).2.OnlyReplies (s.handleOwn snapshot m) := .reply ..
  have hget : ¬ m.AsksForState → s.OnlyReplies (s.handleOwn snapshot m) := fun hask => by
    have hsame := answerOwn_of_get s snapshot fun h => hask ⟨hm, h.1, h.2⟩
    generalize s.handleOwn snapshot m = s' at hreply ⊢
    exact hsame ▸ hreply
  -- where a state is entered, the reply is no error
  have hset : m.AsksForState → s.OnlyReplies (s.handleOwn snapshot m) ∨
      (∃ st text, st.isRequestable = true ∧ s.lifecycle.canReach st = true ∧
        ((s.enter st).say .info text).OnlyReplies (s.handleOwn snapshot m)) ∧
      (s.answerOwn snapshot m).1.isOk = true := fun hask => by
    have hown : s.answerOwn snapshot m = s.requestState m := by
      simp only [answerOwn, hask.property, hask.command]
    rw [hown] at hreply ⊢
    generalize s.handleOwn snapshot m = s' at hreply ⊢
    rcases s.requestState_cases m with hsame | ⟨⟨st, text, hst, hreach, henter⟩, hok⟩
    · exact .inl (hsame ▸ hreply)
    · exact .inr ⟨⟨st, text, hst, hreach, henter ▸ hreply⟩, hok⟩
  refine ⟨⟨_, hreplies⟩, fun hask _ => hget hask, fun hask => ?_,
    fun hask => absurd hm hask.destination, fun e he _ => ?_⟩
  · rcases hset hask with hsame | ⟨⟨st, text, hst, hreach, replies, log, henter⟩, -⟩
    · exact .inl hsame
    · rw [henter]
      exact .inr ⟨⟨replies, log, rfl⟩, hst, hreach, rfl⟩
  · by_cases hask : m.AsksForState
    · rcases hset hask with hsame | ⟨-, hok⟩
      · exact hsame
      · rw [data_of_replies (hreplies.symm.trans he)] at hok
        cases hok
    · exact hget hask

/-! ### Messages to blocks -/

/-- The first block of a name answers the messages to it. -/
theorem dispatch_cases (s : Scheduler β) (m : Message) :
    (s.graph.find? m.destination = none ∧ s.dispatch s.everyBlock m =
      s.reply m (.error (.destinationNotFound m.destination))) ∨
    ∃ i n, s.graph.find? m.destination = some i ∧ s.graph.node? i = some n ∧
      s.dispatch s.everyBlock m =
        (s.exec fun x =>
          (x.modifyNode i fun _ => (n.answer m).node).addLog (n.answer m).log).reply m
            (n.answer m).data := by
  have hfind := s.addressee?_everyBlock m.destination
  simp only [Execution.addressee?] at hfind
  simp only [dispatch, Execution.answerFrom, hfind]
  cases hi : s.graph.find? m.destination with
  | none => exact .inl ⟨rfl, rfl⟩
  | some i =>
    obtain ⟨hlt, -⟩ := List.findIdx?_eq_some_iff_getElem.mp hi
    have hn : s.graph.node? i = some s.graph.nodes[i] := List.getElem?_eq_getElem hlt
    simp only [hn]
    exact .inr ⟨i, _, rfl, hn, rfl⟩

theorem contained_dispatch (s : Scheduler β) (hm : m.destination ≠ "") :
    s.Contained m (s.dispatch s.everyBlock m) := by
  have hstate : ¬ m.AsksForState := fun hask => hm hask.destination
  rcases s.dispatch_cases m with ⟨hfind, heq⟩ | ⟨i, n, hfind, hn, heq⟩
  · rw [heq]
    have hreply : s.OnlyReplies (s.reply m (.error (.destinationNotFound m.destination))) :=
      .reply ..
    refine ⟨⟨_, replies_reply ..⟩, fun _ _ => hreply, fun hask => absurd hask hstate,
      fun _ i hi => ?_, fun _ _ _ => hreply⟩
    cases hfind.symm.trans hi
  · let y := s.exec fun x => (x.modifyNode i fun _ => (n.answer m).node).addLog (n.answer m).log
    have hreply : y.OnlyReplies (s.dispatch s.everyBlock m) := heq ▸ .reply ..
    have hreplies : (s.dispatch s.everyBlock m).replies =
        s.replies.push (m.reply (n.answer m).data) := by
      rw [heq]
      exact replies_reply ..
    -- nothing is left to show where the node is as it was
    have hsame : (n.answer m).node = n → s.OnlyReplies (s.dispatch s.everyBlock m) :=
        fun hnode => by
      have hy : s.OnlyReplies y := by
        have hgraph : y.graph = s.graph.modifyNode i fun _ => (n.answer m).node := rfl
        rw [hnode, Graph.modifyNode_self hn] at hgraph
        exact ⟨s.replies, y.log, congrArg (fun g => { y with graph := g }) hgraph⟩
      exact hy.trans hreply
    refine ⟨⟨_, hreplies⟩, fun _ hask => hsame ?_, fun hask => absurd hask hstate,
      fun _ j hj => ?_, fun e he hrestores => hsame ?_⟩
    · refine (n.answer_of_get fun h => ?_).1
      cases hfind.symm.trans (hask ⟨hm, h.1, h.2⟩)
    · cases hfind.symm.trans hj
      obtain ⟨block, extra, hnode⟩ := n.exists_answer_eq m
      obtain ⟨replies, log, hdispatch⟩ := hreply
      rw [hdispatch]
      refine ⟨⟨replies, log, rfl⟩, block, extra, ?_⟩
      rw [Graph.modifyNode_eq hn, ← hnode]
      exact Graph.modifyNode_eq hn _
    · have he := data_of_replies (hreplies.symm.trans he)
      exact Node.answer_of_error he fun hproperty hcommand payload hdata =>
        hrestores ⟨hm, hproperty, hcommand⟩ i n payload hfind hn hdata

theorem contained_handle (s : Scheduler β) (snapshot : PropertyMap) (m : Message) :
    s.Contained m (s.handle snapshot m) := by
  rw [handle]
  split
  next hm => exact contained_handleOwn s snapshot hm
  next hm => exact contained_dispatch s hm

/-! ### The main result -/

/-- Whatever the message and the state of the scheduler, handling it posts one reply, and does no
more beyond that than the message asks for. At any time of a run, this is nothing at all if a
built-in block refuses a change of settings, provided that it had accepted those it had when the
run began, as every block has of which a registry has made a node. -/
theorem handle_contained (s : Scheduler β) (snapshot : PropertyMap) :
    (∀ m, s.Contained m (s.handle snapshot m)) ∧
    ∀ embed : Builtin → β, Builtin.Embeds embed →
      (∀ (r : Registry β) typeName parameterization b settings n, b.IsTyped →
        (r.wrap typeName parameterization (embed b) settings).result = .ok n →
          n.IsPlaced embed) ∧
      ∀ s₀ hs (h : Handling β), s.Launches snapshot s₀ →
        Alternates Steps snapshot s₀ hs h.before →
          ∀ i n e, s.graph.node? i = some n → n.IsPlaced embed →
            h.scheduler.graph.find? h.message.destination = some i →
              (h.after snapshot).replies =
                h.scheduler.replies.push (h.message.reply (.error e)) →
              h.scheduler.OnlyReplies (h.after snapshot) := by
  refine ⟨s.contained_handle snapshot, fun embed hembed => ⟨fun r _ _ b _ n htyped hwrap =>
    Node.isPlaced_of_wrap hembed htyped hwrap, fun s₀ hs h h₀ halternates i n e hn hplaced hi he =>
      ?_⟩⟩
  refine (h.scheduler.contained_handle snapshot h.message).refused e he
    fun _ j n' payload hj hn' _ => ?_
  cases hi.symm.trans hj
  -- taking the message from the inbox has not changed the graph
  have hplaced' : n'.IsPlaced embed :=
    (Leads.turns h₀ halternates).node (Node.lasting_isPlaced hembed) hn hplaced hn'
  exact hplaced'.restores hembed payload

/-- A source of two samples with tags. -/
def pair (tags : List Tag) : Builtin :=
  .vectorSource ⟨.int .i32, [.int .i32 1, .int .i32 2], false, tags, #[], 0⟩

theorem accepted_pair : (pair []).Accepted where
  isTyped := by simp [pair, Builtin.IsTyped, Sample.type]
  settled := by rw [pair, Builtin.settle_vectorSource (by simp), List.mergeSort_nil]

/-- The source plays into a sink, and gets a request that it refuses. -/
def playing (tags : List Tag) : Scheduler Builtin :=
  let graph : Graph Builtin :=
    ⟨[.new "VectorSource" "" (pair tags) 0,
        .new "NullSink" "" (.nullSink (.new (.int .i32))) 0],
      [⟨⟨0, 0⟩, ⟨1, 0⟩, some 4, .int .i32, none⟩], .default⟩
  (new graph .default 0).withInbox
    [.new .set "VectorSource#0" "Settings" [("repeat", .string "always")]]

theorem reachable_playing (tags : List Tag) : Reachable (playing tags) := by
  have hrest : ∀ n ∈ (playing tags).graph.nodes, n.state.IsResting := fun n hn => by
    simp only [playing, new, withInbox, exec, Execution.withInbox, List.mem_cons, List.not_mem_nil,
      or_false] at hn
    rcases hn with rfl | rfl <;> trivial
  have hnew : Reachable (new (playing tags).graph .default 0) := .new rfl hrest
  exact hnew.change rfl rfl hrest

/-- A source whose tags were set past its node, and are not in order. -/
def unsettled : Scheduler Builtin := playing [⟨1, []⟩, ⟨0, []⟩]

/-- The first message that a run of it handles is refused, and yet puts the tags in order. -/
theorem unsettled_rejected : ∃ snapshot s₀ h n n', Reachable unsettled ∧
    unsettled.Launches snapshot s₀ ∧ h ∈ (Loop.begin s₀ .absent).handlings snapshot 1 ∧
    h.message.AsksForSettings ∧ h.scheduler.graph.find? h.message.destination = some 0 ∧
    h.scheduler.graph.node? 0 = some n ∧
    (∃ e, (h.after snapshot).replies = h.scheduler.replies.push (h.message.reply (.error e))) ∧
    (h.after snapshot).graph.node? 0 = some n' ∧ n'.settings ≠ n.settings := by
  let settings (tags : List Tag) : PropertyMap :=
    [("data", .vector [.int .i32 1, .int .i32 2]), ("repeat", .bool false),
      ("tags", .vector (tags.map Tag.toValue))]
  let tags : List Tag := [⟨1, []⟩, ⟨0, []⟩]
  have hrun : ∃ snapshot s₀ h n n' e, unsettled.Launches snapshot s₀ ∧
      s₀.handled snapshot = [h] ∧
      h.message = .new .set "VectorSource#0" "Settings" [("repeat", .string "always")] ∧
      h.scheduler.graph.find? h.message.destination = some 0 ∧
      h.scheduler.graph.node? 0 = some n ∧
      (h.after snapshot).replies = h.scheduler.replies.push (h.message.reply (.error e)) ∧
      (h.after snapshot).graph.node? 0 = some n' ∧ n.settings = settings tags ∧
      n'.settings = settings (tags.mergeSort Tag.precedes) :=
    ⟨_, _, _, _, _, _, ⟨_, _, rfl, rfl, rfl⟩, rfl, rfl, rfl, rfl, rfl, rfl, rfl, rfl⟩
  obtain ⟨snapshot, s₀, h, n, n', e, h₀, hhandled, hm, hfind, hn, he, hn', hold, hnew⟩ := hrun
  refine ⟨snapshot, s₀, h, n, n', reachable_playing _, h₀, ?_, ?_, hfind, hn, ⟨e, he⟩, hn', ?_⟩
  · have hfirst : h ∈ (Loop.begin s₀ .absent).meet.scheduler.handled snapshot :=
      hhandled ▸ List.mem_singleton_self h
    exact List.mem_append_left _ (List.mem_append_left _ hfirst)
  · rw [hm]
    exact ⟨by decide, rfl, rfl⟩
  · -- the tags are in order now, as they were not before
    rw [hold, hnew]
    intro hsame
    simp only [settings, List.cons.injEq, Prod.mk.injEq, Value.vector.injEq, true_and,
      and_true] at hsame
    have hread := VectorSource.readTags_map_toValue (tags.mergeSort Tag.precedes)
    rw [hsame, VectorSource.readTags_map_toValue] at hread
    have hordered := Tag.ordered_mergeSort tags
    rw [← Except.ok.inj hread] at hordered
    simp [tags, Tag.Ordered] at hordered

/-- Had the tags been accepted, the refused message would have changed nothing. -/
theorem handle_contained_playing : ∃ snapshot s₀ h,
    (playing []).Launches snapshot s₀ ∧ s₀.handled snapshot = [h] ∧
    h.scheduler.graph.find? h.message.destination = some 0 ∧
    (∃ e, (h.after snapshot).replies = h.scheduler.replies.push (h.message.reply (.error e))) ∧
    (∃ n, (playing []).graph.node? 0 = some n ∧ n.IsPlaced id) ∧
    h.scheduler.OnlyReplies (h.after snapshot) := by
  have hrun : ∃ snapshot s₀ h e, (playing []).Launches snapshot s₀ ∧ s₀.handled snapshot = [h] ∧
      h.before = s₀ ∧ h.scheduler.graph.find? h.message.destination = some 0 ∧
      (h.after snapshot).replies = h.scheduler.replies.push (h.message.reply (.error e)) :=
    ⟨_, _, _, _, ⟨_, _, rfl, rfl, rfl⟩, rfl, rfl, rfl, rfl⟩
  obtain ⟨snapshot, s₀, h, e, h₀, hhandled, hbefore, hfind, he⟩ := hrun
  have hplaced : (Node.new "VectorSource" "" (pair []) 0).IsPlaced id :=
    ⟨⟨pair [], rfl, accepted_pair⟩, rfl⟩
  have halternates : Alternates Steps snapshot s₀ [] h.before := .rest (hbefore ▸ .refl)
  refine ⟨snapshot, s₀, h, h₀, hhandled, hfind, ⟨e, he⟩, ⟨_, rfl, hplaced⟩, ?_⟩
  exact ((handle_contained (playing []) snapshot).2 id Builtin.embeds_id).2 s₀ [] h h₀ halternates
    0 _ e rfl hplaced hfind he

end Scheduler
end Dataflow
