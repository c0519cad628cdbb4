import Dataflow.Proofs.Stream.Answers
import Dataflow.Proofs.Stream.Backpressure

/-!
# Refusals

A push puts tags into one bounded queue and samples into another, and what is consumed leaves a
queue only after the arriving tags have been collected. So each could stop halfway, at a queue that
has no slots for what comes or less than is asked for (`Stream.pushInParts`,
`Stream.consumeInParts`). Neither ever does: while the queues of a stream keep to their slots
(`Stream.Queued`), the checks made up front leave nothing for the queues to refuse, and what is
refused up front has changed nothing (`History.refusals_exact`).

The free slots for tags are those that no tag takes which was pushed and not collected since. That
count, `Stream.uncollected`, is read off the operations alone.
-/

namespace Dataflow

variable {α : Type}

namespace Queue

/-- A queue with room for so many elements once more of them are put into it, if they fit. -/
def put? (q : Queue α) (slots : Nat) (xs : List α) : Option (Queue α) :=
  if q.length + xs.length ≤ slots then some (q.append xs) else none

/-- A queue once its first `n` elements are passed, if it has so many. -/
def pass? (q : Queue α) (n : Nat) : Option (Queue α) :=
  if n ≤ q.length then some (q.drop n) else none

end Queue

namespace Stream

variable {s : Stream α} {samples : List α} {tags : List Tag} {n : Nat}

/-- How an operation fails: it is refused before it changes anything, or a queue refuses its part
when others may have changed already. -/
inductive Refusal where
  | upFront (e : StreamError)
  | halfway (e : StreamError)

/-- A push part by part. The queues make checks of their own. -/
def pushInParts (s : Stream α) (samples : List α) (tags : List Tag) :
    Except Refusal Unit × Stream α :=
  let spaceError : StreamError := .insufficientSpace samples.length s.space
  if s.space < samples.length then (.error (.upFront spaceError), s)
  else
    let accepted := s.acceptedTags samples.length tags
    let tagError : StreamError := .insufficientTagSpace accepted.length s.tagSpace
    if s.tagSpace < accepted.length then (.error (.upFront tagError), s)
    else
      -- tags first, so that whoever sees a sample sees its tags
      match s.arriving.put? s.tagSlots accepted with
      | none => (.error (.halfway tagError), s)
      | some arriving =>
        let s := { s with arriving }
        match s.unread.put? s.capacity samples with
        | none => (.error (.halfway spaceError), s)
        | some unread => (.ok (), { s with unread, written := s.written + samples.length })

/-- Consuming part by part. -/
def consumeInParts (s : Stream α) (n : Nat) : Except Refusal (List Tag) × Stream α :=
  let dataError : StreamError := .insufficientData n s.available
  if s.available < n then (.error (.upFront dataError), s)
  else
    let s := s.collect
    match s.unread.pass? n with
    | none => (.error (.halfway dataError), s)
    | some unread => (.ok (s.tagsOn n), { s.advance n with unread })

/-- The outcome of an operation that is refused up front or not at all. -/
def outright {τ : Type} (s : Stream α) : Except StreamError (τ × Stream α) →
    Except Refusal τ × Stream α
  | .ok (result, s') => (.ok result, s')
  | .error e => (.error (.upFront e), s)

/-- No queue refuses its part of a push. -/
theorem pushInParts_eq (hq : s.Queued) (samples : List α) (tags : List Tag) :
    s.pushInParts samples tags = s.outright ((s.push samples tags).map fun s' => ((), s')) := by
  have hroom := hq.room
  have hslots := hq.slots
  by_cases hspace : s.space < samples.length
  · simp only [pushInParts, push, if_pos hspace]
    rfl
  by_cases htags : s.tagSpace < (s.acceptedTags samples.length tags).length
  · simp only [pushInParts, push, if_neg hspace, if_pos htags]
    rfl
  have harriving : s.arriving.put? s.tagSlots (s.acceptedTags samples.length tags) =
      some (s.arriving.append (s.acceptedTags samples.length tags)) := by
    unfold tagSpace at htags
    exact if_pos (by omega)
  have hunread : s.unread.put? s.capacity samples = some (s.unread.append samples) := by
    unfold space at hspace
    unfold available at hroom
    exact if_pos (by omega)
  simp only [pushInParts, push, if_neg hspace, if_neg htags, harriving, hunread]
  rfl

/-- No queue refuses its part of what is consumed. -/
theorem consumeInParts_eq (s : Stream α) (n : Nat) :
    s.consumeInParts n = s.outright (s.consume n) := by
  by_cases hn : s.available < n
  · simp only [consumeInParts, consume, if_pos hn]
    rfl
  have hunread : s.collect.unread.pass? n = some (s.collect.unread.drop n) :=
    if_pos (Nat.not_lt.mp hn)
  simp only [consumeInParts, consume, if_neg hn, hunread]
  rfl

/-! ### When operations are refused -/

theorem push_eq_error_iff {e : StreamError} : s.push samples tags = .error e ↔
    (s.space < samples.length ∧ e = .insufficientSpace samples.length s.space) ∨
    (samples.length ≤ s.space ∧ s.tagSpace < (tags.filter (s.accepts samples.length)).length ∧
      e = .insufficientTagSpace (tags.filter (s.accepts samples.length)).length s.tagSpace) := by
  rw [← length_acceptedTags]
  by_cases hspace : s.space < samples.length
  · have hpush : s.push samples tags = .error (.insufficientSpace samples.length s.space) :=
      if_pos hspace
    have hle : ¬ samples.length ≤ s.space := Nat.not_le.mpr hspace
    simp only [hpush, Except.error.injEq, hspace, hle, true_and, false_and, or_false]
    exact eq_comm
  have hle : samples.length ≤ s.space := Nat.not_lt.mp hspace
  by_cases htags : s.tagSpace < (s.acceptedTags samples.length tags).length
  · have hpush : s.push samples tags = .error
        (.insufficientTagSpace (s.acceptedTags samples.length tags).length s.tagSpace) :=
      (if_neg hspace).trans (if_pos htags)
    simp only [hpush, Except.error.injEq, hspace, hle, htags, true_and, false_and, false_or]
    exact eq_comm
  · obtain ⟨s', hpush⟩ : ∃ s', s.push samples tags = .ok s' :=
      ⟨_, (if_neg hspace).trans (if_neg htags)⟩
    simp only [hpush, reduceCtorEq, hspace, htags, false_and, and_false, or_false]

theorem consume_eq_error_iff {e : StreamError} : s.consume n = .error e ↔
    s.available < n ∧ e = .insufficientData n s.available := by
  by_cases hn : s.available < n
  · have hconsume : s.consume n = .error (.insufficientData n s.available) := if_pos hn
    simp only [hconsume, Except.error.injEq, hn, true_and]
    exact eq_comm
  · obtain ⟨result, hconsume⟩ : ∃ result, s.consume n = .ok result := ⟨_, if_neg hn⟩
    simp only [hconsume, reduceCtorEq, hn, false_and]

/-! ### Tags that wait -/

/-- The number of tags pushed and not yet collected after an operation, if it was `k` before. -/
def Op.uncollected (s : Stream α) (k : Nat) : Op α → Nat
  | .push samples tags =>
    match s.push samples tags with
    | .ok _ => k + (tags.filter (s.accepts samples.length)).length
    | .error _ => k
  | .peek _ | .take _ => 0
  | .consume n => if n ≤ s.available then 0 else k
  | .close | .detach => k

/-- The number of tags pushed and not yet collected after some operations, if it was `k` before. -/
def uncollected (s : Stream α) (k : Nat) : List (Op α) → Nat
  | [] => k
  | op :: ops => (s.perform op).2.uncollected (op.uncollected s k) ops

theorem length_arriving_perform (s : Stream α) (op : Op α) :
    (s.perform op).2.arriving.length = op.uncollected s s.arriving.length := by
  cases op with
  | push samples tags =>
    cases hs : s.push samples tags with
    | error e => simp only [perform, Op.uncollected, hs]
    | ok s' =>
      obtain ⟨-, -, rfl⟩ := push_eq_ok_iff.mp hs
      simp only [perform, Op.uncollected, hs, ← length_acceptedTags]
      rfl
  | peek limit => rfl
  | take limit => rfl
  | consume n =>
    by_cases hn : s.available < n
    · simp only [perform, Op.uncollected, consume, if_pos hn, if_neg (Nat.not_le.mpr hn)]
    · simp only [perform, Op.uncollected, consume, if_neg hn, if_pos (Nat.not_lt.mp hn)]
      rfl
  | close => rfl
  | detach => rfl

namespace History

theorem length_arriving_run (h : History α) (ops : List (Op α)) :
    (h.run ops).stream.arriving.length =
      h.stream.uncollected h.stream.arriving.length ops := by
  induction ops generalizing h with
  | nil => rfl
  | cons op ops ih =>
    rw [Stream.uncollected, ← length_arriving_perform, ← stream_step_eq]
    exact ih (h.step op)

/-- In whatever state a stream is, a push fails just when there is no room for its samples, or there
is but not for its tags in range, and consuming fails just when there is too little to consume; the
error says how much was asked for and how much there was. No queue ever refuses what has passed
these checks, and a stream stays as it is when it refuses. Each slot for tags is free unless a tag
takes it that was pushed and is not yet collected. -/
theorem refusals_exact (capacity : Nat) (ops : List (Op α)) :
    let s := ((History.new capacity).run ops).stream
    let waiting := (Stream.empty capacity).uncollected 0 ops
    (∀ samples tags,
      let inRange := tags.filter (s.accepts samples.length)
      (∀ e, s.push samples tags = .error e ↔
        (s.space < samples.length ∧ e = .insufficientSpace samples.length s.space) ∨
        (samples.length ≤ s.space ∧ s.tagSpace < inRange.length ∧
          e = .insufficientTagSpace inRange.length s.tagSpace)) ∧
      s.pushInParts samples tags =
        match s.push samples tags with
        | .ok s' => (.ok (), s')
        | .error e => (.error (.upFront e), s)) ∧
    (∀ n,
      (∀ e, s.consume n = .error e ↔
        s.available < n ∧ e = .insufficientData n s.available) ∧
      s.consumeInParts n =
        match s.consume n with
        | .ok (tags, s') => (.ok tags, s')
        | .error e => (.error (.upFront e), s)) ∧
    waiting ≤ max s.capacity 64 ∧ s.tagSpace = max s.capacity 64 - waiting := by
  intro s waiting
  have hq : s.Queued := queued_run (.empty capacity) ops
  have hwaiting : s.arriving.length = waiting := length_arriving_run (History.new capacity) ops
  refine ⟨fun samples tags => ⟨fun e => push_eq_error_iff, ?_⟩,
    fun n => ⟨fun e => consume_eq_error_iff, ?_⟩, ?_, ?_⟩
  · rw [pushInParts_eq hq]
    cases s.push samples tags <;> rfl
  · rw [consumeInParts_eq]
    cases s.consume n <;> rfl
  · rw [← hwaiting]
    exact hq.slots
  · rw [← hwaiting]
    rfl

end History
end Stream
end Dataflow
