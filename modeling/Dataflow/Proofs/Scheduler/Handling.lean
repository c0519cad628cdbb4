import Dataflow.Proofs.Execution.Drive
import Dataflow.Proofs.Scheduler.Turns

/-!
# Handling of messages

A run on one thread takes messages from its inbox at two places: a turn first takes all that are
there (`Scheduler.handled`), and at its end, if it waits, at most one more (`Loop.awaited`).
`Loop.handlings` lists what the first turns of a loop handle, in order. Between two handlings the
scheduler goes on by steps of its own (`Scheduler.Step`), none of which takes a message or posts a
reply. So a run alternates between the two (`Scheduler.Alternates`, `Loop.run_alternates`), and
what each of them does is done by the run.
-/

namespace Dataflow

open Lifecycle (State)

variable {β : Type}

def Execution.withInbox (x : Execution β) (inbox : List Message) : Execution β := { x with inbox }

def Scheduler.withInbox (s : Scheduler β) (inbox : List Message) : Scheduler β :=
  s.exec fun x => x.withInbox inbox

/-- A message, and the scheduler that has just taken it from its inbox. -/
structure Handling (β : Type) where
  scheduler : Scheduler β
  message : Message

namespace Handling

/-- The scheduler that still has the message in its inbox. -/
def before (h : Handling β) : Scheduler β :=
  h.scheduler.withInbox (h.message :: h.scheduler.inbox)

def after [Block β] (h : Handling β) (snapshot : PropertyMap) : Scheduler β :=
  h.scheduler.handle snapshot h.message

end Handling

namespace Scheduler

/-- The handling of the first message of the inbox, if there is one. -/
def first? (s : Scheduler β) : Option (Handling β) :=
  match s.inbox with
  | [] => none
  | m :: rest => some ⟨s.withInbox rest, m⟩

theorem before_of_first? {s : Scheduler β} {h : Handling β} (hf : s.first? = some h) :
    h.before = s := by
  simp only [first?] at hf
  split at hf
  · cases hf
  next heq =>
    cases hf
    show s.withInbox (_ :: _) = s
    exact heq ▸ rfl

/-- What a scheduler does by itself, and what happens to it, between two messages. -/
inductive Step [Block β] (s : Scheduler β) : Scheduler β → Prop where
  | receive (m : Message) : Step s { s with inbox := s.inbox ++ [m] }
  | drive {x : Execution β} : s.toExecution.Drives x → Step s { s with toExecution := x }
  | write (log : Array LogLine) : Step s { s with log }
  | enter {st : State} : s.lifecycle.canReach st = true → Step s (s.enter st)

def Steps [Block β] : Scheduler β → Scheduler β → Prop := Relation.ReflTransGen Step

/-- A scheduler handles messages in order, and in between goes on as `R` says. -/
inductive Alternates [Block β] (R : Scheduler β → Scheduler β → Prop) (snapshot : PropertyMap) :
    Scheduler β → List (Handling β) → Scheduler β → Prop where
  | rest {s s' : Scheduler β} : R s s' → Alternates R snapshot s [] s'
  | handle {s s' : Scheduler β} {h : Handling β} {hs : List (Handling β)} : R s h.before →
      Alternates R snapshot (h.after snapshot) hs s' → Alternates R snapshot s (h :: hs) s'

namespace Alternates

variable [Block β] {R R' : Scheduler β → Scheduler β → Prop} {snapshot : PropertyMap}
  {s s' s'' : Scheduler β} {hs hs' : List (Handling β)}

theorem mono (himp : ∀ s s', R s s' → R' s s') (h : Alternates R snapshot s hs s') :
    Alternates R' snapshot s hs s' := by
  induction h with
  | rest hR => exact .rest (himp _ _ hR)
  | handle hR _ ih => exact .handle (himp _ _ hR) ih

theorem after (htrans : ∀ s s' s'', R s s' → R s' s'' → R s s'') (hR : R s s')
    (h : Alternates R snapshot s' hs s'') : Alternates R snapshot s hs s'' := by
  cases h with
  | rest hR' => exact .rest (htrans _ _ _ hR hR')
  | handle hR' h => exact .handle (htrans _ _ _ hR hR') h

theorem trans (htrans : ∀ s s' s'', R s s' → R s' s'' → R s s'')
    (h : Alternates R snapshot s hs s') (h' : Alternates R snapshot s' hs' s'') :
    Alternates R snapshot s (hs ++ hs') s'' := by
  induction h with
  | rest hR => exact h'.after htrans hR
  | handle hR _ ih => exact .handle hR (ih h')

theorem split {before after : List (Handling β)} {h : Handling β}
    (halt : Alternates R snapshot s (before ++ h :: after) s') :
    Alternates R snapshot s before h.before ∧
      Alternates R snapshot (h.after snapshot) after s' := by
  induction before generalizing s with
  | nil =>
    cases halt with
    | handle hR halt => exact ⟨.rest hR, halt⟩
  | cons h' before ih =>
    cases halt with
    | handle hR halt =>
      obtain ⟨hbefore, hafter⟩ := ih halt
      exact ⟨.handle hR hbefore, hafter⟩

end Alternates

/-! ### Messages that wait -/

@[simp] theorem lifecycle_withInbox (s : Scheduler β) (inbox : List Message) :
    (s.withInbox inbox).lifecycle = s.lifecycle := rfl

theorem reply_withInbox (s : Scheduler β) (inbox : List Message) (m : Message)
    (data : Except MessageError PropertyMap) :
    (s.withInbox inbox).reply m data = (s.reply m data).withInbox inbox := by
  cases data <;> rfl

theorem replies_moveTo {s s' : Scheduler β} {st : State} (h : s.moveTo st = .ok s') :
    s'.replies = s.replies := by
  rw [moveTo] at h
  split at h
  · cases h
  · cases h
    split <;> rfl

theorem moveTo_withInbox (s : Scheduler β) (inbox : List Message) (st : State) :
    (s.withInbox inbox).moveTo st = (s.moveTo st).map fun s' => s'.withInbox inbox := by
  simp only [moveTo, lifecycle_withInbox]
  cases s.lifecycle.transition st with
  | error e => rfl
  | ok => by_cases hst : s.lifecycle = st <;> simp only [Except.map, hst] <;> rfl

theorem answerOwn_withInbox (s : Scheduler β) (inbox : List Message) (snapshot : PropertyMap)
    (m : Message) : (s.withInbox inbox).answerOwn snapshot m =
      ((s.answerOwn snapshot m).1, (s.answerOwn snapshot m).2.withInbox inbox) := by
  simp only [answerOwn]
  split
  case h_2 =>
    simp only [requestState, moveTo_withInbox, lifecycle_withInbox]
    split
    · rfl
    next st _ =>
      cases s.moveTo st with
      | error e => rfl
      | ok s' => by_cases hst : s.lifecycle = st <;> simp only [Except.map, hst] <;> rfl
  all_goals rfl

theorem answerOwn_frame (s : Scheduler β) (snapshot : PropertyMap) (m : Message) :
    (s.answerOwn snapshot m).2.graph = s.graph ∧ (s.answerOwn snapshot m).2.journal = s.journal ∧
      (s.answerOwn snapshot m).2.inbox = s.inbox ∧
      (s.answerOwn snapshot m).2.replies = s.replies := by
  simp only [answerOwn]
  split
  case h_2 =>
    simp only [requestState]
    split
    · exact ⟨rfl, rfl, rfl, rfl⟩
    · split
      · exact ⟨rfl, rfl, rfl, rfl⟩
      next s' hmove =>
        have hi := inbox_moveTo hmove
        have hr := replies_moveTo hmove
        obtain ⟨-, -, hg, hj⟩ := moveTo_spec hmove
        dsimp only
        split <;> exact ⟨hg, hj, hi, hr⟩
  all_goals exact ⟨rfl, rfl, rfl, rfl⟩

@[simp] theorem replies_reply (s : Scheduler β) (m : Message)
    (data : Except MessageError PropertyMap) :
    (s.reply m data).replies = s.replies.push (m.reply data) := by
  cases data <;> rfl

@[simp] theorem inbox_reply (s : Scheduler β) (m : Message)
    (data : Except MessageError PropertyMap) : (s.reply m data).inbox = s.inbox := by
  cases data <;> rfl

@[simp] theorem inbox_handleOwn (s : Scheduler β) (snapshot : PropertyMap) (m : Message) :
    (s.handleOwn snapshot m).inbox = s.inbox := by
  rw [handleOwn, inbox_reply, (answerOwn_frame s snapshot m).2.2.1]

theorem replies_handleOwn (s : Scheduler β) (snapshot : PropertyMap) (m : Message) :
    (s.handleOwn snapshot m).replies =
      s.replies.push (m.reply (s.answerOwn snapshot m).1) := by
  rw [handleOwn, replies_reply, (answerOwn_frame s snapshot m).2.2.2]

variable [Block β]

theorem answerFrom_withInbox (x : Execution β) (inbox : List Message) (group : List Nat)
    (m : Message) : (x.withInbox inbox).answerFrom group m =
      ((x.answerFrom group m).1, (x.answerFrom group m).2.withInbox inbox) := by
  have hname : (x.withInbox inbox).nameOf = x.nameOf := rfl
  have hnode : (x.withInbox inbox).graph.node? = x.graph.node? := rfl
  simp only [Execution.answerFrom, hname, hnode]
  split
  · rfl
  next i _ => cases x.graph.node? i <;> rfl

/-- What handling a message does does not depend on those that wait. -/
theorem handle_withInbox (s : Scheduler β) (inbox : List Message) (snapshot : PropertyMap)
    (m : Message) :
    (s.withInbox inbox).handle snapshot m = (s.handle snapshot m).withInbox inbox := by
  simp only [handle]
  split
  · simp only [handleOwn, answerOwn_withInbox, reply_withInbox]
  · have h := answerFrom_withInbox s.toExecution inbox s.everyBlock m
    have hgroup : (s.toExecution.withInbox inbox).everyBlock = s.everyBlock := rfl
    have hexec : (s.withInbox inbox).toExecution = s.toExecution.withInbox inbox := rfl
    simp only [dispatch, hgroup, hexec, h]
    exact reply_withInbox { s with toExecution := (s.answerFrom s.everyBlock m).2 } inbox m _

@[simp] theorem inbox_handle (s : Scheduler β) (snapshot : PropertyMap) (m : Message) :
    (s.handle snapshot m).inbox = s.inbox := by
  have h : s.handle snapshot m = (s.handle snapshot m).withInbox s.inbox :=
    handle_withInbox s s.inbox snapshot m
  rw [h]
  rfl

/-! ### What handling does -/

theorem extends_handle (s : Scheduler β) (snapshot : PropertyMap) (m : Message) :
    Execution.Extends s.toExecution (s.handle snapshot m).toExecution [] := by
  simp only [handle]
  split
  · obtain ⟨hg, hj, -, -⟩ := answerOwn_frame s snapshot m
    have hu := untouched_reply (s.answerOwn snapshot m).2 m (s.answerOwn snapshot m).1
    exact .of_eq (by rw [handleOwn, hu.graph, hg]) (by rw [handleOwn, hu.journal, hj])
  · have he := Execution.extends_answerFrom s.toExecution s.everyBlock m
    have hu := untouched_reply { s with toExecution := (s.answerFrom s.everyBlock m).2 } m
      (s.answerFrom s.everyBlock m).1
    exact he.before (by rw [dispatch, hu.graph]) (by rw [dispatch, hu.journal])

theorem extends_after (h : Handling β) (snapshot : PropertyMap) :
    Execution.Extends h.before.toExecution (h.after snapshot).toExecution [] := by
  have hbefore : Execution.Extends h.before.toExecution h.scheduler.toExecution [] := .of_eq rfl rfl
  exact hbefore.trans (extends_handle h.scheduler snapshot h.message)

theorem replies_handle (s : Scheduler β) (snapshot : PropertyMap) (m : Message) :
    ∃ data, (s.handle snapshot m).replies = s.replies.push (m.reply data) := by
  simp only [handle]
  split
  · exact ⟨_, replies_handleOwn s snapshot m⟩
  · exact ⟨(s.answerFrom s.everyBlock m).1, replies_reply ..⟩

/-! ### Taking all messages -/

/-- The handlings of messages that are taken one after the other. -/
def handledFrom (snapshot : PropertyMap) : List Message → Scheduler β → List (Handling β)
  | [], _ => []
  | m :: rest, s =>
    let h : Handling β := ⟨s.withInbox rest, m⟩
    h :: handledFrom snapshot rest (h.after snapshot)

/-- The handlings of all messages of the inbox. -/
def handled (s : Scheduler β) (snapshot : PropertyMap) : List (Handling β) :=
  handledFrom snapshot s.inbox s

/-- Handling all messages at once is to take one after the other. -/
theorem alternates_drain (R : Scheduler β → Scheduler β → Prop) (hrefl : ∀ s, R s s)
    (s : Scheduler β) (snapshot : PropertyMap) :
    Alternates R snapshot s (s.handled snapshot) (s.drain snapshot) := by
  have hfrom : ∀ (inbox : List Message) (s : Scheduler β), s.inbox = inbox →
      Alternates R snapshot s (handledFrom snapshot inbox s)
        (inbox.foldl (fun s m => s.handle snapshot m) (s.withInbox [])) := by
    intro inbox
    induction inbox with
    | nil =>
      intro s hs
      have heq : s.withInbox [] = s := hs ▸ rfl
      exact .rest (heq ▸ hrefl s)
    | cons m rest ih =>
      -- `drain` empties the inbox first, whereas here the messages leave it one by one
      intro s hs
      have hbefore : Handling.before ⟨s.withInbox rest, m⟩ = s := by
        show s.withInbox (m :: rest) = s
        exact hs ▸ rfl
      refine .handle (hbefore ▸ hrefl s) ?_
      have h := ih ((s.withInbox rest).handle snapshot m) (inbox_handle ..)
      rwa [← handle_withInbox] at h
  exact hfrom s.inbox s rfl

end Scheduler

namespace Loop

open Scheduler

variable [Block β]

/-! ### Waiting -/

/-- Whether the loop waits after a pass. -/
def isIdle (l : Loop β) (report : PassReport) : Bool :=
  let s := l.scheduler
  report.failure.isNone && !s.allFinished s.everyBlock && !report.progressed &&
    !s.config.isStall (l.now - l.lastProgress)

/-- The loop as it begins to wait after acting, and for how long it will at most, if it does. -/
def waiting? (l : Loop β) : Option (Loop β × Nat) :=
  match l.scheduler.lifecycle with
  | .running =>
    let (report, l) := l.resume.makePass
    if l.isIdle report then
      some ({ l with backoff := l.scheduler.config.nextWait l.backoff }, l.backoff)
    else none
  | .paused => some ({ l with lastProgress := l.now }, l.scheduler.config.maxBackoff)
  | _ => none

/-- The handling that ends a wait, if a message comes in time. -/
def received? (l : Loop β) (time : Nat) : Option (Handling β) :=
  l.scheduler.first?.or (l.meetBefore (Clock.wake l.now time)).scheduler.first?

/-- The handling at the end of a turn that acts now. -/
def awaited (l : Loop β) : List (Handling β) :=
  match l.waiting? with
  | none => []
  | some (l, time) => (l.received? time).toList

/-- The handlings of a turn. -/
def handled (l : Loop β) (snapshot : PropertyMap) : List (Handling β) :=
  l.meet.scheduler.handled snapshot ++ (l.meet.update fun s => s.drain snapshot).awaited

/-- The handlings of the first turns of a loop, or of all that it takes. -/
def handlings (snapshot : PropertyMap) : Nat → Loop β → List (Handling β)
  | 0, _ => []
  | turns + 1, l =>
    l.handled snapshot ++
      match l.turn snapshot with
      | .next l => l.handlings snapshot turns
      | .ended _ _ => []

end Loop
end Dataflow
