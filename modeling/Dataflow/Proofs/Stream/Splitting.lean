import Dataflow.Proofs.Stream.Answers
import Dataflow.Proofs.Stream.Chunk

/-!
# Chunk boundaries

Where one chunk ends and the next begins cannot be seen in a stream (`History.chunks_invisible`).
Reading is looking and then consuming what was seen; two reads come to one read of both chunks, and
one push to two pushes of its parts; and a look that is put in between changes no later answer.

A read that is split takes the tags of the second chunk relative to a later position, and a push
that is split sorts the tags of its parts apart. Both come to the same since tags are ordered by
sample: those of the first part come before those of the second (`Stream.tagsOn_add`,
`Stream.acceptedTags_append`).
-/

namespace Dataflow

open Tag

variable {α : Type}

namespace Tag

/-- The tags of a chunk that stay with its first `m` samples when it is split. -/
def before (m : Nat) (ts : List Tag) : List Tag := ts.filter fun t => decide (t.index < (m : Int))

/-- The other tags, as those of the rest of the chunk. -/
def behind (m : Nat) (ts : List Tag) : List Tag :=
  (ts.filter fun t => !decide (t.index < (m : Int))).map (·.shift (-(m : Int)))

end Tag

namespace Stream

variable {s : Stream α} {m n : Nat}

/-! ### Reading in parts -/

theorem takeWhile_of_imp {p q : Tag → Bool} (h : ∀ t, p t = true → q t = true) (ts : List Tag) :
    ts.takeWhile q = ts.takeWhile p ++ (ts.dropWhile p).takeWhile q := by
  conv => lhs; rw [← List.takeWhile_append_dropWhile (p := p) (l := ts)]
  exact List.takeWhile_append_of_pos fun t ht => h t (List.mem_takeWhile_imp ht)

theorem dropWhile_of_imp {p q : Tag → Bool} (h : ∀ t, p t = true → q t = true) (ts : List Tag) :
    ts.dropWhile q = (ts.dropWhile p).dropWhile q := by
  conv => lhs; rw [← List.takeWhile_append_dropWhile (p := p) (l := ts)]
  exact List.dropWhile_append_of_pos fun t ht => h t (List.mem_takeWhile_imp ht)

/-- A tag before one position is before a later one. -/
theorem lt_add_of_lt (s : Stream α) (m n : Nat) (t : Tag)
    (h : decide (t.index < (s.read : Int) + m) = true) :
    decide (t.index < (s.read : Int) + (m + n : Nat)) = true := by
  rw [decide_eq_true_eq] at h ⊢
  omega

theorem read_add (s : Stream α) (m n : Nat) :
    ((s.advance m).read : Int) + n = (s.read : Int) + (m + n : Nat) := by
  rw [read_advance]
  omega

theorem tagsOn_add (s : Stream α) (m n : Nat) :
    s.tagsOn (m + n) = s.tagsOn m ++ ((s.advance m).tagsOn n).map (·.shift m) := by
  have hshift : ∀ t : Tag, (t.shift (-((s.advance m).read : Int))).shift m =
      t.shift (-(s.read : Int)) := fun t => by
    rw [shift_shift, read_advance]
    congr 1
    omega
  rw [tagsOn, takeWhile_of_imp (s.lt_add_of_lt m n), List.map_append, ← read_add]
  congr 1
  rw [tagsOn, List.map_map]
  exact List.map_congr_left fun t _ => (hshift t).symm

theorem advance_add (s : Stream α) (m n : Nat) : (s.advance m).advance n = s.advance (m + n) := by
  have hpending : ((s.advance m).advance n).pending = (s.advance (m + n)).pending := by
    show (s.advance m).pending.dropWhile
        (fun t => decide (t.index < ((s.advance m).read : Int) + n)) =
      s.pending.dropWhile fun t => decide (t.index < (s.read : Int) + (m + n : Nat))
    rw [read_add, dropWhile_of_imp (s.lt_add_of_lt m n) s.pending]
    rfl
  have hunread : ((s.advance m).advance n).unread = (s.advance (m + n)).unread :=
    Queue.drop_drop ..
  have hread : ((s.advance m).advance n).read = (s.advance (m + n)).read := Nat.add_assoc ..
  calc (s.advance m).advance n
      = { s.advance (m + n) with
          unread := ((s.advance m).advance n).unread
          pending := ((s.advance m).advance n).pending
          read := ((s.advance m).advance n).read } := rfl
    _ = s.advance (m + n) := by rw [hpending, hunread, hread]

theorem take_eq (s : Stream α) (limit : Nat) : s.take limit =
    (⟨s.unread.toList.take (min limit s.available), s.collect.tagsOn (min limit s.available)⟩,
      s.collect.advance (min limit s.available)) := by
  rw [take, ← Queue.take_eq]
  rfl

theorem length_take (s : Stream α) (limit : Nat) :
    (s.take limit).1.samples.length = min limit s.available := by
  rw [take_eq, List.length_take, Queue.length_toList]
  exact Nat.min_eq_left (Nat.min_le_right ..)

/-- Two reads come to one. -/
theorem take_add (s : Stream α) (m n : Nat) :
    s.take (m + n) = ((s.take m).1.append ((s.take m).2.take n).1, ((s.take m).2.take n).2) := by
  have hlength := s.length_take m
  have hcollect : (s.take m).2.collect = (s.take m).2 := collect_of_arriving rfl
  have havailable : (s.take m).2.available = s.available - min m s.available := by
    show ((s.collect.advance (min m s.available)).unread.length) = _
    rw [← Queue.length_toList, toList_unread_advance, List.length_drop, Queue.length_toList]
    rfl
  have hsecond : min n (s.take m).2.available = min (m + n) s.available - min m s.available := by
    omega
  have hsum : min (m + n) s.available = min m s.available +
      (min (m + n) s.available - min m s.available) := by omega
  rw [Chunk.append, hlength, take_eq (s.take m).2, hcollect, hsecond]
  generalize min (m + n) s.available - min m s.available = k at hsum
  rw [take_eq, take_eq, hsum, tagsOn_add, ← advance_add, toList_unread_advance, unread_collect,
    ← List.take_add]

/-- Reading is looking, and consuming what was seen. -/
theorem consume_peek (s : Stream α) (limit : Nat) :
    (s.peek limit).2.consume (s.peek limit).1.samples.length =
      .ok ((s.peek limit).1.tags, (s.take limit).2) ∧ (s.take limit).1 = (s.peek limit).1 := by
  have hlength : (s.peek limit).1.samples.length = min limit s.available := s.length_take limit
  have hle : ¬ s.collect.available < min limit s.available :=
    Nat.not_lt.mpr (Nat.min_le_right ..)
  refine ⟨?_, rfl⟩
  rw [hlength]
  show s.collect.consume _ = _
  rw [consume, if_neg hle, collect_collect]
  rfl

/-! ### Writing in parts -/

/-- The tags of a push, sorted apart into those of its two parts. -/
theorem acceptedTags_append {s' : Stream α} (h : s'.written = s.written + m) (tags : List Tag) :
    s.acceptedTags (m + n) tags =
      s.acceptedTags m (before m tags) ++ s'.acceptedTags n (behind m tags) := by
  rw [acceptedTags, mergeSort_split (s.written + m), acceptedTags, acceptedTags, before, behind]
  congr 2
  · rw [List.filter_map, List.filter_filter, List.filter_filter]
    congr 1
    refine List.filter_congr fun t _ => ?_
    rw [Bool.eq_iff_iff]
    simp only [Function.comp_apply, accepts, Bool.and_eq_true, decide_eq_true_eq]
    rw [shift_index]
    omega
  · rw [List.filter_map, List.filter_filter, List.filter_map, List.filter_filter, List.map_map]
    have hshift : (fun t : Tag => t.shift s'.written) ∘ (fun t : Tag => t.shift (-(m : Int))) =
        fun t : Tag => t.shift s.written := by
      funext t
      rw [Function.comp_apply, shift_shift, h]
      congr 1
      omega
    rw [hshift]
    congr 1
    refine List.filter_congr fun t _ => ?_
    rw [Bool.eq_iff_iff]
    simp only [Function.comp_apply, accepts, Bool.and_eq_true, Bool.not_eq_true',
      decide_eq_true_eq, decide_eq_false_iff_not, h]
    rw [shift_index, shift_index]
    omega

/-- A push comes to two pushes of its parts. -/
theorem push_append {s' : Stream α} {front back : List α} {tags : List Tag}
    (h : s.push (front ++ back) tags = .ok s') :
    ∃ s₁, s.push front (before front.length tags) = .ok s₁ ∧
      s₁.push back (behind front.length tags) = .ok s' := by
  obtain ⟨hspace, htags, rfl⟩ := push_eq_ok_iff.mp h
  let s₁ := s.pushed front (before front.length tags)
  have hsplit : s.acceptedTags (front ++ back).length tags =
      s.acceptedTags front.length (before front.length tags) ++
        s₁.acceptedTags back.length (behind front.length tags) := by
    rw [List.length_append]
    exact acceptedTags_append rfl tags
  rw [hsplit, List.length_append] at htags
  rw [List.length_append] at hspace
  unfold space at hspace
  unfold tagSpace at htags
  refine ⟨s₁, push_eq_ok_iff.mpr ⟨?_, ?_, rfl⟩, push_eq_ok_iff.mpr ⟨?_, ?_, ?_⟩⟩
  · unfold space
    omega
  · unfold tagSpace
    omega
  · show back.length ≤ s.capacity - (s.unread.length + front.length)
    omega
  · show _ ≤ s.tagSlots - (s.arriving.length +
      (s.acceptedTags front.length (before front.length tags)).length)
    omega
  · rw [pushed, pushed, hsplit, List.length_append]
    simp only [s₁, pushed, Queue.append_append, Nat.add_assoc]

namespace History

/-- In whatever state a stream is, the boundaries between chunks cannot be seen. Reading is looking
and consuming what was seen; two reads give together what one read of both chunks gives; a look
changes no later answer, unless a push is refused for its tags without it; and a push can be made
in two parts. The stream comes to the same state each time. -/
theorem chunks_invisible (capacity : Nat) (ops : List (Op α)) :
    let s := ((History.new capacity).run ops).stream
    (∀ limit, (s.peek limit).2.consume (s.peek limit).1.samples.length =
        .ok ((s.peek limit).1.tags, (s.take limit).2) ∧ (s.take limit).1 = (s.peek limit).1) ∧
      (∀ m n, s.take (m + n) =
        ((s.take m).1.append ((s.take m).2.take n).1, ((s.take m).2.take n).2)) ∧
      (∀ limit more,
        (∀ n space, .pushed (.error (.insufficientTagSpace n space)) ∉ s.answers more) →
          (s.peek limit).2.answers more = s.answers more) ∧
      ∀ front back tags s', s.push (front ++ back) tags = .ok s' →
        ∃ s₁, s.push front (before front.length tags) = .ok s₁ ∧
          s₁.push back (behind front.length tags) = .ok s' := by
  intro s
  have hs : Ordered s.pending := (Faithful.new.run ops).pending_ordered
  exact ⟨s.consume_peek, s.take_add, fun limit more hfit => (Resembles.collected hs).answers hfit,
    fun front back tags s' => push_append⟩

theorem chunks_invisible_pair :
    let s := ((History.new (α := Nat) 2).run []).stream
    let tags : List Tag := [⟨0, []⟩, ⟨1, []⟩]
    let whole := s.pushed ([1] ++ [2]) tags
    s.push ([1] ++ [2]) tags = .ok whole ∧
      (∃ s₁, s.push [1] (before 1 tags) = .ok s₁ ∧ s₁.push [2] (behind 1 tags) = .ok whole) ∧
      (∀ n space, .pushed (.error (.insufficientTagSpace n space)) ∉
        s.answers [.push ([1] ++ [2]) tags]) ∧
      (s.peek 1).2.answers [.push ([1] ++ [2]) tags] = s.answers [.push ([1] ++ [2]) tags] := by
  intro s tags whole
  have hpush : s.push ([1] ++ [2]) tags = .ok whole :=
    push_eq_ok_iff.mpr ⟨by decide, length_acceptedTags_le.trans (by decide), rfl⟩
  have hanswers : s.answers [.push ([1] ++ [2]) tags] = [.pushed (.ok ())] := by
    simp only [answers, perform, hpush]
  have hfit : ∀ n space, .pushed (.error (.insufficientTagSpace n space)) ∉
      s.answers [.push ([1] ++ [2]) tags] := fun n space hmem => by
    rw [hanswers] at hmem
    cases List.mem_singleton.mp hmem
  obtain ⟨-, -, hpeek, hsplit⟩ := chunks_invisible (α := Nat) 2 []
  exact ⟨hpush, hsplit [1] [2] tags whole hpush, hfit, hpeek 1 _ hfit⟩

end History
end Stream
end Dataflow
