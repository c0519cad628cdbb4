import Dataflow.Proofs.Scheduler.Launch
import Mathlib.Data.List.Forall2

/-!
# Answers to messages

Blocks and clients only ever append to the inbox of a scheduler, and by itself the scheduler only
ever does so either (`Scheduler.Receives`). A message leaves the inbox from its front, to be
handled, and handling posts one reply that answers it (`Message.Answers`). So the replies of a run
are those to the messages that it took, in that order, followed by those to the messages that its
end left over (`Scheduler.run_answers`).
-/

namespace Dataflow

open Lifecycle (State)

/-- A reply belongs to a request: it is final, and has the routing of the request. -/
structure Message.Answers (reply request : Message) : Prop where
  command : reply.command = .final
  destination : reply.destination = request.destination
  service : reply.service = request.service
  property : reply.property = request.property
  requestId : reply.requestId = request.requestId

theorem Message.answers_reply (m : Message) (data : Except MessageError PropertyMap) :
    (m.reply data).Answers m := ⟨rfl, rfl, rfl, rfl, rfl⟩

/-! ### Messages that blocks send -/

namespace Execution

variable {β : Type} {x y : Execution β}

theorem inbox_prefix_answerHook (op : HookOp) (x : Execution β) :
    x.inbox <+: (answerHook op x).2.inbox := by
  cases op with
  | send inbox m =>
    simp only [answerHook]
    split
    · exact List.prefix_append ..
    · exact List.prefix_refl _
  | note => exact List.prefix_refl _

theorem inbox_prefix_runHook {ρ : Type} (p : HookProgram ρ) (x : Execution β) :
    x.inbox <+: (x.runHook p).2.inbox :=
  Program.run_invariant (I := fun y => x.inbox <+: y.inbox)
    (fun op y h => h.trans (inbox_prefix_answerHook op y)) p x (List.prefix_refl _)

theorem inbox_prefix_callHook (x : Execution β) (i : Nat) (b : β) (hook : β → HookProgram β)
    (c : Call) : x.inbox <+: (x.callHook i b hook c).inbox := inbox_prefix_runHook (hook b) x

theorem inbox_prefix_runWork {ρ : Type} (i : Nat) (p : Work ρ) (x : Execution β) :
    x.inbox <+: (x.runWork i p).2.inbox := by
  refine Program.run_invariant (I := fun y => x.inbox <+: y.inbox) (fun op y h => ?_) p x
    (List.prefix_refl _)
  cases op with
  | hook op => exact h.trans (inbox_prefix_answerHook op y)
  | input | output | publish => exact h
  | peek | take => simp only [answerWork]; split <;> exact h
  | consume =>
    simp only [answerWork]
    split
    · exact h
    · split <;> exact h

variable [Block β]

theorem inbox_prefix_start (x : Execution β) (i : Nat) : x.inbox <+: (x.start i).2.inbox := by
  simp only [start]
  split
  · exact List.prefix_refl _
  next n _ => exact inbox_prefix_runHook (Block.start n.block) x

theorem inbox_prefix_finish (x : Execution β) (i : Nat) (reason : FinishReason) :
    x.inbox <+: (x.finish i reason).inbox := by
  simp only [finish]
  split
  · exact List.prefix_refl _
  next n _ =>
    split
    · exact List.prefix_refl _
    · exact inbox_prefix_callHook (x.setConnections (withdraw i x.graph.connections)) i n.block
        Block.stop .stop

theorem inbox_prefix_invoke (x : Execution β) (i : Nat) : x.inbox <+: (x.invoke i).2.inbox := by
  simp only [invoke]
  split
  · exact List.prefix_refl _
  next n _ =>
    have hwork : x.inbox <+: (x.work i n).2.inbox := inbox_prefix_runWork i (Block.work n.block) x
    have hfinish := fun reason => hwork.trans (inbox_prefix_finish (x.work i n).2 i reason)
    split
    · exact List.prefix_refl _
    · split
      · exact inbox_prefix_finish x i .detached
      · split
        case h_4 =>
          split
          · exact hfinish .endOfStream
          · exact hwork
        case h_2 => exact hfinish .failed
        case h_6 => exact hfinish .endOfStream
        case h_7 => exact hfinish .done
        all_goals exact hwork

theorem inbox_prefix_drives (h : x.Drives y) : x.inbox <+: y.inbox := by
  induction h with
  | refl => exact List.prefix_refl _
  | @tail y z _ hdrive ih =>
    refine ih.trans ?_
    cases hdrive with
    | invoke i => exact inbox_prefix_invoke y i
    | finish i reason => exact inbox_prefix_finish y i reason
    | pause i =>
      simp only [pause]
      split
      · exact List.prefix_refl _
      next n _ =>
        split
        · exact inbox_prefix_callHook y i n.block Block.pause .pause
        · exact List.prefix_refl _
    | resume i =>
      simp only [resume]
      split
      · exact List.prefix_refl _
      next n _ =>
        split
        · exact inbox_prefix_callHook y i n.block Block.resume .resume
        · exact List.prefix_refl _

end Execution

namespace Scheduler

variable {β : Type} {s s' s'' : Scheduler β} {snapshot : PropertyMap}

/-- No message is taken from the inbox, and no reply posted. -/
structure Receives (s s' : Scheduler β) : Prop where
  inbox : s.inbox <+: s'.inbox
  replies : s'.replies = s.replies

namespace Receives

theorem refl : Receives s s := ⟨List.prefix_refl _, rfl⟩

theorem trans (h : Receives s s') (h' : Receives s' s'') : Receives s s'' :=
  ⟨h.inbox.trans h'.inbox, h'.replies.trans h.replies⟩

end Receives

variable [Block β]

theorem receives_steps (h : s.Steps s') : Receives s s' := by
  induction h with
  | refl => exact .refl
  | tail _ hstep ih =>
    refine ih.trans ?_
    cases hstep with
    | receive => exact ⟨List.prefix_append .., rfl⟩
    | drive h => exact ⟨Execution.inbox_prefix_drives h, rfl⟩
    | write | enter => exact ⟨List.prefix_refl _, rfl⟩

theorem inbox_prefix_startAll (x : Execution β) (group : List Nat) :
    x.inbox <+: (startAll x group).2.inbox := by
  induction group generalizing x with
  | nil => exact List.prefix_refl _
  | cons i rest ih =>
    have hi := Execution.inbox_prefix_start x i
    rw [startAll]
    split
    next y heq =>
      rw [heq] at hi
      exact hi.trans (ih y)
    next heq =>
      rw [heq] at hi
      exact hi

theorem Launches.receives (h : s.Launches snapshot s') : Receives s s' := by
  obtain ⟨s₁, s₂, hprepare, hinit, hmove⟩ := h
  have hmoves : ∀ (s s' : Scheduler β) st, s.moveTo st = .ok s' → Receives s s' :=
    fun _ _ _ h => receives_steps (steps_moveTo h)
  refine ((of_prepare (fun _ _ _ => .trans) hmoves hprepare).trans ?_).trans (hmoves _ _ _ hmove)
  simp only [initialise] at hinit
  split at hinit
  · cases hinit
  · let s₀ := s₁.exec fun x => { x with graph := x.graph.bind }
    have hstarts := inbox_prefix_startAll s₀.toExecution s₀.everyBlock
    split at hinit
    · cases hinit
    next x hstart =>
      cases hinit
      rw [hstart] at hstarts
      exact ⟨hstarts, rfl⟩

/-! ### Replies -/

/-- The messages that a scheduler has handled were in its inbox, from the front on, and each of
them has been answered, in order. -/
theorem Alternates.answers {hs : List (Handling β)} (h : Alternates Receives snapshot s hs s') :
    s.inbox <+: hs.map Handling.message ++ s'.inbox ∧
      ∃ posted, s'.replies.toList = s.replies.toList ++ posted ∧
        List.Forall₂ Message.Answers posted (hs.map Handling.message) := by
  induction h with
  | rest hR => exact ⟨hR.inbox, [], by rw [hR.replies, List.append_nil], .nil⟩
  | @handle s s' h hs hR _ ih =>
    obtain ⟨hinbox, posted, hreplies, hanswers⟩ := ih
    obtain ⟨data, hdata⟩ := replies_handle h.scheduler snapshot h.message
    refine ⟨?_, h.message.reply data :: posted, ?_, .cons (Message.answers_reply ..) hanswers⟩
    · refine hR.inbox.trans ?_
      have hafter : (h.after snapshot).inbox = h.scheduler.inbox := inbox_handle ..
      rw [hafter] at hinbox
      exact (List.prefix_cons_inj _).mpr hinbox
    · have hbefore : s.replies = h.scheduler.replies := hR.replies.symm
      rw [hreplies, hbefore, Handling.after, hdata, Array.toList_push, List.append_assoc]
      rfl

omit [Block β] in
theorem reject_spec (snapshot : PropertyMap) (s : Scheduler β) (m : Message) :
    (reject snapshot s m).inbox = s.inbox ∧
    ∃ data, (reject snapshot s m).replies = s.replies.push (m.reply data) := by
  simp only [reject]
  split
  · exact ⟨inbox_handleOwn .., _, replies_handleOwn ..⟩
  · exact ⟨inbox_reply .., _, replies_reply ..⟩

omit [Block β] in
theorem rejectPending_spec (s : Scheduler β) (snapshot : PropertyMap) :
    (s.rejectPending snapshot).inbox = [] ∧
      ∃ posted, (s.rejectPending snapshot).replies.toList = s.replies.toList ++ posted ∧
        List.Forall₂ Message.Answers posted s.inbox := by
  have hfold : ∀ (inbox : List Message) (t : Scheduler β),
      (inbox.foldl (reject snapshot) t).inbox = t.inbox ∧
        ∃ posted, (inbox.foldl (reject snapshot) t).replies.toList = t.replies.toList ++ posted ∧
          List.Forall₂ Message.Answers posted inbox := by
    intro inbox
    induction inbox with
    | nil => exact fun t => ⟨rfl, [], by simp, .nil⟩
    | cons m inbox ih =>
      intro t
      obtain ⟨hinbox, data, hdata⟩ := reject_spec snapshot t m
      obtain ⟨hinbox', posted, hreplies, hanswers⟩ := ih (reject snapshot t m)
      refine ⟨hinbox'.trans hinbox, m.reply data :: posted, ?_,
        .cons (Message.answers_reply ..) hanswers⟩
      rw [List.foldl_cons, hreplies, hdata, Array.toList_push, List.append_assoc]
      rfl
  exact hfold s.inbox (s.withInbox [])

omit [Block β] in
/-- What is left in the inbox is answered, or stays where it is. -/
theorem answerRest_spec (s : Scheduler β) (snapshot : PropertyMap)
    (result : Except SchedulerError Unit) :
    ∃ late posted, s.inbox = late ++ (s.answerRest snapshot result).inbox ∧
      (s.answerRest snapshot result).replies.toList = s.replies.toList ++ posted ∧
      List.Forall₂ Message.Answers posted late := by
  unfold answerRest
  split
  · exact ⟨[], [], rfl, (List.append_nil _).symm, .nil⟩
  · obtain ⟨hempty, posted, hposted, hanswers⟩ := rejectPending_spec s snapshot
    exact ⟨s.inbox, posted, by rw [hempty, List.append_nil], hposted, hanswers⟩

/-- Unless a block crashes, everything is answered. -/
theorem answerRest_of_ending {s₁ : Scheduler β} {result : Except SchedulerError Unit}
    (h : Ending s result s₁) (hresult : result ≠ .error (.workerPanicked 0))
    (snapshot : PropertyMap) : s₁.answerRest snapshot result = s₁.rejectPending snapshot := by
  cases h with
  | completed | failed | stalled => rfl
  | crashed => exact absurd rfl hresult

/-- Unless a block crashes, the loop ends in a terminal state. -/
theorem isTerminal_of_ending {result : Except SchedulerError Unit} (h : Ending s result s')
    (hresult : result ≠ .error (.workerPanicked 0)) : s'.lifecycle.isTerminal = true := by
  cases h with
  | completed _ _ hl => rw [hl]; rfl
  | failed _ hl => rw [hl]; rfl
  | stalled _ hl => rw [hl]; rfl
  | crashed => exact absurd rfl hresult

/-- A loop that a launched run comes to ends in one of four ways. -/
theorem Launches.ending (hs : IsAtRest s) {s₀ s₁ : Scheduler β} (h₀ : s.Launches snapshot s₀)
    {fuel : Nat} {client : Client} {result : Except SchedulerError Unit}
    (h : (Loop.begin s₀ client).run snapshot fuel = some (result, s₁)) : Ending s₀ result s₁ := by
  have hlive : s₀.lifecycle.IsLive := by
    rw [(h₀.launched hs).running]
    trivial
  exact Loop.run_ending hlive h

/-- A launched run answers the messages that it handles, and then those that are left unless a block
crashes. -/
theorem Launches.answers (hs : IsAtRest s) {s₀ : Scheduler β} (h₀ : s.Launches snapshot s₀)
    {parallelism fuel : Nat} {client : Client} {result : Except SchedulerError Unit}
    (h : s.run parallelism fuel client = some (result, s')) :
    ∃ s₁ posted late, (Loop.begin s₀ client).run snapshot fuel = some (result, s₁) ∧
      s' = s₁.answerRest snapshot result ∧
      let messages := ((Loop.begin s₀ client).handlings snapshot fuel).map Handling.message
      s₀.inbox <+: messages ++ s₁.inbox ∧ s'.replies.toList = s.replies.toList ++ posted ∧
        s₁.inbox = late ++ s'.inbox ∧ List.Forall₂ Message.Answers posted (messages ++ late) ∧
        (result ≠ .error (.workerPanicked 0) → s'.inbox = []) := by
  rw [h₀.run_eq hs, Option.map_eq_some_iff] at h
  obtain ⟨⟨_, s₁⟩, hrun, heq⟩ := h
  cases heq
  have halt := (Loop.run_alternates hrun).mono fun _ _ => receives_steps
  obtain ⟨hinbox, posted, hreplies, hanswers⟩ := halt.answers
  obtain ⟨late, posted', hsplit, hlate, hanswers'⟩ := answerRest_spec s₁ snapshot result
  have hbegin : (Loop.begin s₀ client).scheduler.replies = s.replies := h₀.receives.replies
  refine ⟨s₁, posted ++ posted', late, hrun, rfl, hinbox, ?_, hsplit,
    List.rel_append hanswers hanswers', fun hresult => ?_⟩
  · rw [hlate, hreplies, hbegin, List.append_assoc]
  · rw [answerRest_of_ending (h₀.ending hs hrun) hresult]
    exact (rejectPending_spec s₁ snapshot).1

/-- A run that gets past initialisation and returns has answered every message once: first those
that it handled, in the order in which it took them from the inbox, then those that were left at the
end of the loop, which change neither lifecycle nor graph any more. If a block crashes, which the
caller sees in place of a result, the messages that were handled have been answered, and the others
are still in the inbox. -/
theorem run_answers (hs : Reachable s) {s₀ : Scheduler β} (h₀ : s.Launches snapshot s₀)
    {parallelism fuel : Nat} {client : Client} {result : Except SchedulerError Unit}
    (h : s.run parallelism fuel client = some (result, s')) :
    ∃ s₁ posted late, (Loop.begin s₀ client).run snapshot fuel = some (result, s₁) ∧
      s' = s₁.answerRest snapshot result ∧
      let handled := (Loop.begin s₀ client).handlings snapshot fuel
      let messages := handled.map Handling.message ++ s₁.inbox
      Receives s s₀ ∧ Alternates Receives snapshot s₀ handled s₁ ∧ s₀.inbox <+: messages ∧
        s'.replies.toList = s.replies.toList ++ posted ∧ s₁.inbox = late ++ s'.inbox ∧
        List.Forall₂ Message.Answers posted (handled.map Handling.message ++ late) ∧
        s'.lifecycle = s₁.lifecycle ∧ s'.graph = s₁.graph ∧
        (result ≠ .error (.workerPanicked 0) → s' = s₁.rejectPending snapshot ∧
          List.Forall₂ Message.Answers posted messages ∧ s'.inbox = [] ∧
          s₁.lifecycle.isTerminal = true) ∧
        (result = .error (.workerPanicked 0) → s' = s₁) := by
  obtain ⟨s₁, posted, late, hrun, rfl, hinbox, hreplies, hsplit, hanswers, hempty⟩ :=
    h₀.answers hs.isAtRest h
  have halt := (Loop.run_alternates hrun).mono fun _ _ => receives_steps
  have hend := h₀.ending hs.isAtRest hrun
  have hu := untouched_answerRest s₁ snapshot result
  refine ⟨s₁, posted, late, hrun, rfl, h₀.receives, halt, hinbox, hreplies, hsplit, hanswers,
    hu.lifecycle, hu.graph, fun hresult => ⟨answerRest_of_ending hend hresult snapshot, ?_,
      hempty hresult, isTerminal_of_ending hend hresult⟩, ?_⟩
  · rw [hsplit, hempty hresult, List.append_nil]
    exact hanswers
  · rintro rfl
    rfl

/-- A sink is asked for its settings before the run is stopped. -/
theorem run_answers_endless : ∃ snapshot s₀ s' posted,
    let s := endless [.new .get "NullSink#0" "Settings" [], Client.request "REQUESTED_STOP"]
    Reachable s ∧ s.Launches snapshot s₀ ∧ s.run 1 1 .absent = some (.ok (), s') ∧
      s'.replies.toList = posted ∧ s'.inbox = [] ∧
      ∃ sent, List.Forall₂ Message.Answers posted (s.inbox ++ sent) := by
  let s := endless [.new .get "NullSink#0" "Settings" [], Client.request "REQUESTED_STOP"]
  obtain ⟨snapshot, s₀, h₀⟩ : ∃ snapshot s₀, s.Launches snapshot s₀ := ⟨_, _, _, _, rfl, rfl, rfl⟩
  obtain ⟨s', hrun⟩ : ∃ s', s.run 1 1 .absent = some (.ok (), s') := ⟨_, rfl⟩
  obtain ⟨s₁, posted, -, -, -, hstart, -, hinbox, hreplies, -, -, -, -, hreturn, -⟩ :=
    run_answers (reachable_endless _) h₀ hrun
  obtain ⟨-, hanswers, hempty, -⟩ := hreturn (by simp)
  obtain ⟨sent, hsent⟩ := hstart.inbox.trans hinbox
  exact ⟨snapshot, s₀, s', posted, reachable_endless _, h₀, hrun, hreplies, hempty, sent,
    hsent ▸ hanswers⟩

end Scheduler
end Dataflow
