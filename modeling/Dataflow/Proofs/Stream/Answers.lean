import Dataflow.Proofs.Stream.History

/-!
# Answers of a stream

What each operation on a stream gives back (`Stream.perform`), and what a sequence of them does
(`Stream.answers`). Two streams that are the same once their arriving tags are collected answer
alike, as long as neither refuses a push for its tags (`Stream.Resembles.answers`): where a tag
waits is seen by nobody but the writer, who finds fewer free slots.
-/

namespace Dataflow

open Tag

variable {α : Type}

namespace Stream

/-- What an operation gives back. -/
inductive Answer (α : Type) where
  | pushed (result : Except StreamError Unit)
  | read (chunk : Chunk α)
  | passed (result : Except StreamError (List Tag))
  | done

/-- Perform an operation; one that fails leaves the stream as it is. -/
def perform (s : Stream α) : Op α → Answer α × Stream α
  | .push samples tags =>
    match s.push samples tags with
    | .ok s' => (.pushed (.ok ()), s')
    | .error e => (.pushed (.error e), s)
  | .peek limit => (.read (s.peek limit).1, (s.peek limit).2)
  | .take limit => (.read (s.take limit).1, (s.take limit).2)
  | .consume n =>
    match s.consume n with
    | .ok (tags, s') => (.passed (.ok tags), s')
    | .error e => (.passed (.error e), s)
  | .close => (.done, s.close)
  | .detach => (.done, s.detach)

/-- What operations give back that are performed one after the other. -/
def answers (s : Stream α) : List (Op α) → List (Answer α)
  | [] => []
  | op :: ops => (s.perform op).1 :: (s.perform op).2.answers ops

theorem History.stream_step_eq (h : History α) (op : Op α) :
    (h.step op).stream = (h.stream.perform op).2 := by
  cases op with
  | push samples tags =>
    simp only [step, perform]
    cases h.stream.push samples tags <;> rfl
  | consume n =>
    simp only [step, perform]
    cases h.stream.consume n <;> rfl
  | _ => rfl

variable {s s' : Stream α} {n : Nat}

/-! ### Streams without arriving tags -/

theorem collect_of_arriving (h : s.arriving = .empty) : s.collect = s := by
  have hpending : s.collect.pending = s.pending := by simp [collect, h]
  rw [collect, ← h]
  exact congrArg (fun pending => { s with pending }) hpending

theorem collect_collect : s.collect.collect = s.collect := collect_of_arriving rfl

theorem peek_collect (limit : Nat) : s.collect.peek limit = s.peek limit := by
  simp only [peek, collect_collect]

theorem take_collect (limit : Nat) : s.collect.take limit = s.take limit := by
  simp only [take, collect_collect]

/-- What is consumed does not depend on where its tags waited. -/
theorem consume_eq (n : Nat) : s.consume n =
    if s.collect.available < n then .error (.insufficientData n s.collect.available)
    else .ok (s.collect.tagsOn n, s.collect.advance n) := rfl

/-- A push adds its timely tags behind those that are there. -/
theorem collect_pushed (h : Ordered s.pending) (samples : List α) (tags : List Tag) :
    (s.pushed samples tags).collect =
      { s.collect with
        unread := s.collect.unread.append samples
        written := s.collect.written + samples.length
        pending := s.collect.pending.merge
          (((s.collect.acceptedTags samples.length tags).filter fun t =>
            decide ((s.collect.read : Int) ≤ t.index)).mergeSort precedes) precedes } := by
  have hcurrent : (s.pushed samples tags).current = s.current ++
      (s.acceptedTags samples.length tags).filter fun t => decide ((s.read : Int) ≤ t.index) :=
    current_pushed
  have hpending : (s.pushed samples tags).collect.pending = s.collect.pending.merge
      (((s.collect.acceptedTags samples.length tags).filter fun t =>
        decide ((s.collect.read : Int) ≤ t.index)).mergeSort precedes) precedes := by
    show s.pending.merge ((s.pushed samples tags).current.mergeSort precedes) precedes = _
    rw [hcurrent, merge_mergeSort_append h]
    rfl
  rw [← hpending]
  rfl

/-! ### Streams that answer alike -/

/-- The same stream once the tags that are arriving are collected, of which the second may have
collected more. -/
structure Resembles (s s' : Stream α) : Prop where
  collect : s'.collect = s.collect
  slots : s'.arriving.length ≤ s.arriving.length
  ordered : Ordered s.pending
  ordered' : Ordered s'.pending

namespace Resembles

theorem refl (h : Ordered s.pending) : s.Resembles s := ⟨rfl, Nat.le_refl _, h, h⟩

theorem collected (h : Ordered s.pending) : s.Resembles s.collect :=
  ⟨collect_collect, Nat.zero_le _, h, ordered_collect h⟩

variable (h : s.Resembles s')
include h

theorem capacity : s'.capacity = s.capacity := by
  rw [← capacity_collect, h.collect, capacity_collect]

theorem written : s'.written = s.written := by
  rw [← written_collect, h.collect, written_collect]

theorem unread : s'.unread = s.unread := by
  rw [← unread_collect, h.collect, unread_collect]

theorem space : s'.space = s.space := by
  rw [Stream.space, Stream.space, h.capacity, h.unread]

theorem tagSpace_le : s.tagSpace ≤ s'.tagSpace := by
  have hslots := h.slots
  rw [Stream.tagSpace, Stream.tagSpace, tagSlots, tagSlots, h.capacity]
  omega

theorem acceptedTags (n : Nat) (tags : List Tag) :
    s'.acceptedTags n tags = s.acceptedTags n tags := by
  have haccepts : s'.accepts n = s.accepts n := by
    funext t
    rw [accepts, accepts, h.written]
  rw [Stream.acceptedTags, Stream.acceptedTags, haccepts, h.written]

theorem pushed (samples : List α) (tags : List Tag) :
    (s.pushed samples tags).Resembles (s'.pushed samples tags) := by
  refine ⟨?_, ?_, h.ordered, h.ordered'⟩
  · rw [collect_pushed h.ordered, collect_pushed h.ordered', h.collect]
  · show s'.arriving.length + (s'.acceptedTags samples.length tags).length ≤
      s.arriving.length + (s.acceptedTags samples.length tags).length
    rw [h.acceptedTags]
    exact Nat.add_le_add_right h.slots _

/-- A push is taken by both or refused by both, unless it is refused by the first for its tags. -/
theorem perform_push {samples : List α} {tags : List Tag}
    (hfit : ∀ n space, (s.perform (.push samples tags)).1 ≠
      .pushed (.error (.insufficientTagSpace n space))) :
    (s'.perform (.push samples tags)).1 = (s.perform (.push samples tags)).1 ∧
      (s.perform (.push samples tags)).2.Resembles (s'.perform (.push samples tags)).2 := by
  have hpush : s.push samples tags = if s.space < samples.length then
      .error (.insufficientSpace samples.length s.space)
    else if s.tagSpace < (s.acceptedTags samples.length tags).length then
      .error (.insufficientTagSpace (s.acceptedTags samples.length tags).length s.tagSpace)
    else .ok (s.pushed samples tags) := rfl
  have hpush' : s'.push samples tags = if s.space < samples.length then
      .error (.insufficientSpace samples.length s.space)
    else if s'.tagSpace < (s.acceptedTags samples.length tags).length then
      .error (.insufficientTagSpace (s.acceptedTags samples.length tags).length s'.tagSpace)
    else .ok (s'.pushed samples tags) := by
    rw [← h.acceptedTags, ← h.space]
    rfl
  by_cases hspace : s.space < samples.length
  · simp only [perform, hpush, hpush', if_pos hspace]
    exact ⟨trivial, h⟩
  by_cases htags : s.tagSpace < (s.acceptedTags samples.length tags).length
  · refine absurd ?_ (hfit (s.acceptedTags samples.length tags).length s.tagSpace)
    simp only [perform, hpush, if_neg hspace, if_pos htags]
  · have htags' : ¬ s'.tagSpace < (s.acceptedTags samples.length tags).length := by
      have := h.tagSpace_le
      omega
    simp only [perform, hpush, hpush', if_neg hspace, if_neg htags, if_neg htags']
    exact ⟨trivial, h.pushed samples tags⟩

theorem perform (op : Op α)
    (hfit : ∀ n space, (s.perform op).1 ≠ .pushed (.error (.insufficientTagSpace n space))) :
    (s'.perform op).1 = (s.perform op).1 ∧ (s.perform op).2.Resembles (s'.perform op).2 := by
  cases op with
  | push samples tags => exact h.perform_push hfit
  | peek limit =>
    have hpeek : s'.peek limit = s.peek limit := by
      rw [← peek_collect, h.collect, peek_collect]
    simp only [Stream.perform, hpeek]
    exact ⟨trivial, .refl (ordered_collect h.ordered)⟩
  | take limit =>
    have htake : s'.take limit = s.take limit := by
      rw [← take_collect, h.collect, take_collect]
    simp only [Stream.perform, htake]
    exact ⟨trivial, .refl ((ordered_collect h.ordered).sublist (List.dropWhile_sublist _))⟩
  | consume n =>
    simp only [Stream.perform, consume_eq, h.collect]
    split
    next hn =>
      split at hn
      · cases hn
      · cases hn
        exact ⟨rfl, .refl ((ordered_collect h.ordered).sublist (List.dropWhile_sublist _))⟩
    next => exact ⟨rfl, h⟩
  | close =>
    have hcollect : s'.close.collect = s.close.collect := congrArg Stream.close h.collect
    exact ⟨rfl, hcollect, h.slots, h.ordered, h.ordered'⟩
  | detach =>
    have hcollect : s'.detach.collect = s.detach.collect := congrArg Stream.detach h.collect
    exact ⟨rfl, hcollect, h.slots, h.ordered, h.ordered'⟩

theorem answers {ops : List (Op α)}
    (hfit : ∀ n space, .pushed (.error (.insufficientTagSpace n space)) ∉ s.answers ops) :
    s'.answers ops = s.answers ops := by
  induction ops generalizing s s' with
  | nil => rfl
  | cons op ops ih =>
    obtain ⟨hanswer, hafter⟩ := h.perform op fun n space heq =>
      hfit n space (heq ▸ List.mem_cons_self)
    have hrest := ih hafter fun n space hmem => hfit n space (List.mem_cons_of_mem _ hmem)
    rw [Stream.answers, Stream.answers, hanswer, hrest]

end Resembles
end Stream
end Dataflow
