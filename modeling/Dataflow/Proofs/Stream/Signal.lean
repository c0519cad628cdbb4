import Dataflow.Proofs.Stream.Basic
import Dataflow.Sample

/-!
# Signals

A signal is all that a writer will ever write into a stream: at each position before its end a
sample with the tags on it. A stream `Carries` a signal if what it holds is the part of the signal
between what has been read and what has been written. Such a stream hands out a chunk of the signal
when it is read (`Stream.Carries.take`), and carries it on when the next chunk of the signal is
pushed (`Stream.Carries.push`).
-/

namespace Dataflow

open Tag

/-- At each position before the end a sample with the tags on it. -/
abbrev Signal := Nat → Option (Sample × List PropertyMap)

namespace Signal

variable {S : Signal} {a n m : Nat}

/-- The signal that has ended before it begins. -/
def empty : Signal := fun _ => none

/-- The first `n` samples of a signal. -/
def upTo (n : Nat) (S : Signal) : Signal := fun k => if k < n then S k else none

/-- A signal without its tags. -/
def untagged (S : Signal) : Signal := fun k => (S k).map fun (x, _) => (x, [])

/-- The tags at a position. -/
def tagsAt (S : Signal) (k : Nat) : List PropertyMap := ((S k).map Prod.snd).getD []

/-- The samples at `n` positions from `a` on. -/
def samples (S : Signal) (a n : Nat) : List Sample :=
  (List.range' a n).filterMap fun k => (S k).map Prod.fst

/-- The tags at `n` positions from `a` on, indexed by position. -/
def tags (S : Signal) (a n : Nat) : List Tag :=
  (List.range' a n).flatMap fun k => (S.tagsAt k).map fun m => ⟨k, m⟩

/-- The part at `n` positions from `a` on, its tags indexed relative to the first of them. -/
def chunk (S : Signal) (a n : Nat) : Chunk Sample :=
  ⟨S.samples a n, (S.tags a n).map (·.shift (-(a : Int)))⟩

/-- The signal does not end before position `n`. -/
def Covers (S : Signal) (n : Nat) : Prop := ∀ k < n, (S k).isSome = true

/-- The signal ends at position `n`. -/
def EndsAt (S : Signal) (n : Nat) : Prop := ∀ k, (S k).isSome = true ↔ k < n

theorem Covers.mono (h : S.Covers n) (hm : m ≤ n) : S.Covers m := fun k hk => h k (by omega)

/-! ### Samples -/

theorem samples_append : S.samples a (n + m) = S.samples a n ++ S.samples (a + n) m := by
  rw [samples, ← List.range'_append_1, List.filterMap_append]
  rfl

theorem length_samples (h : S.Covers (a + n)) : (S.samples a n).length = n := by
  induction n generalizing a with
  | zero => rfl
  | succ n ih =>
    have ha := h a (by omega)
    obtain ⟨item, hitem⟩ := Option.isSome_iff_exists.mp ha
    have hrest : (S.samples (a + 1) n).length = n := ih (h.mono (by omega))
    rw [Nat.add_comm n 1, samples_append, List.length_append, hrest]
    simp [samples, List.range', hitem]

theorem take_samples (h : S.Covers (a + n)) (hn : n ≤ m) :
    (S.samples a m).take n = S.samples a n := by
  obtain ⟨k, rfl⟩ := Nat.exists_eq_add_of_le hn
  rw [samples_append, List.take_append_of_le_length (length_samples h).ge,
    List.take_of_length_le (length_samples h).le]

theorem drop_samples (h : S.Covers (a + n)) (hn : n ≤ m) :
    (S.samples a m).drop n = S.samples (a + n) (m - n) := by
  obtain ⟨k, rfl⟩ := Nat.exists_eq_add_of_le hn
  rw [samples_append, List.drop_append_of_le_length (length_samples h).ge,
    List.drop_of_length_le (length_samples h).le, List.nil_append, Nat.add_sub_cancel_left]

/-! ### Tags -/

@[simp] theorem tags_zero : S.tags a 0 = [] := rfl

theorem tags_append : S.tags a (n + m) = S.tags a n ++ S.tags (a + n) m := by
  rw [tags, ← List.range'_append_1, List.flatMap_append]
  rfl

theorem mem_tags {t : Tag} (h : t ∈ S.tags a n) : (a : Int) ≤ t.index ∧ t.index < a + n := by
  simp only [tags, List.mem_flatMap, List.mem_map, List.mem_range'_1] at h
  obtain ⟨k, hk, m, -, rfl⟩ := h
  simp only
  omega

theorem ordered_tags : Ordered (S.tags a n) := by
  induction n generalizing a with
  | zero => exact List.Pairwise.nil
  | succ n ih =>
    rw [Nat.add_comm n 1, tags_append]
    refine List.pairwise_append.mpr ⟨?_, ih, fun t ht u hu => ?_⟩
    · refine List.pairwise_of_forall_mem_list fun t ht u hu => ?_
      have := mem_tags ht
      have := mem_tags hu
      omega
    · have := mem_tags ht
      have := mem_tags hu
      omega

theorem takeWhile_tags (hn : n ≤ m) :
    (S.tags a m).takeWhile (fun t => decide (t.index < (a : Int) + n)) = S.tags a n := by
  obtain ⟨k, rfl⟩ := Nat.exists_eq_add_of_le hn
  have hpos : ∀ t ∈ S.tags a n, decide (t.index < (a : Int) + n) = true := fun t ht => by
    simpa using (mem_tags ht).2
  rw [tags_append, List.takeWhile_append_of_pos hpos, List.takeWhile_eq_nil_iff.mpr fun h => ?_,
    List.append_nil]
  have := (mem_tags (List.get_mem (S.tags (a + n) k) ⟨0, h⟩)).1
  simp only [decide_eq_true_eq]
  omega

theorem dropWhile_tags (hn : n ≤ m) :
    (S.tags a m).dropWhile (fun t => decide (t.index < (a : Int) + n)) =
      S.tags (a + n) (m - n) := by
  obtain ⟨k, rfl⟩ := Nat.exists_eq_add_of_le hn
  have hpos : ∀ t ∈ S.tags a n, decide (t.index < (a : Int) + n) = true := fun t ht => by
    simpa using (mem_tags ht).2
  rw [tags_append, List.dropWhile_append_of_pos hpos, Nat.add_sub_cancel_left]
  refine List.dropWhile_eq_self_iff.mpr fun h => ?_
  have := (mem_tags (List.getElem_mem h)).1
  simp only [decide_eq_true_eq]
  omega

/-! ### Chunks -/

theorem length_chunk (h : S.Covers (a + n)) : (S.chunk a n).samples.length = n := length_samples h

theorem mem_chunk_tags {t : Tag} (h : t ∈ (S.chunk a n).tags) : 0 ≤ t.index ∧ t.index < n := by
  simp only [chunk, List.mem_map] at h
  obtain ⟨u, hu, rfl⟩ := h
  have := mem_tags hu
  simp only [shift_index]
  omega

theorem map_shift_chunk : (S.chunk a n).tags.map (·.shift a) = S.tags a n := by
  rw [chunk, List.map_map]
  exact List.map_id'' (fun t => shift_neg_shift t a) _

end Signal

theorem Queue.drop_zero {α : Type} (q : Queue α) : q.drop 0 = q := by
  simp [Queue.drop]

theorem Queue.eq_empty {α : Type} {q : Queue α} (h : q.toList = []) : q = .empty := by
  have hlen := q.length_eq
  rcases q with ⟨front, back, length, _⟩
  simp only [Queue.toList, List.append_eq_nil_iff, List.reverse_eq_nil_iff] at h
  obtain ⟨rfl, rfl⟩ := h
  cases hlen
  rfl

namespace Stream

variable {s : Stream Sample} {S : Signal} {p n : Nat}

/-- What a stream holds is the part of a signal between what has been read and what has been
written. Of the signal, `p` positions have been published; a stream whose reader has detached does
not get all of it. -/
structure Carries (s : Stream Sample) (S : Signal) (p : Nat) : Prop where
  room : s.available ≤ s.capacity
  written_eq : s.written = s.read + s.available
  written_le : s.written ≤ p
  current : s.detached = false → s.written = p
  samples : s.unread.toList = S.samples s.read s.available
  tags : s.pending ++ s.arriving.toList = S.tags s.read s.available

namespace Carries

theorem empty {capacity : Nat} : (Stream.empty capacity).Carries S 0 :=
  ⟨Nat.zero_le _, rfl, Nat.le_refl _, fun _ => rfl, rfl, rfl⟩

theorem close (h : s.Carries S p) : s.close.Carries S p :=
  ⟨h.room, h.written_eq, h.written_le, h.current, h.samples, h.tags⟩

theorem detach (h : s.Carries S p) : s.detach.Carries S p :=
  ⟨h.room, h.written_eq, h.written_le, (fun hd => nomatch hd), h.samples, h.tags⟩

/-- Once it has looked, the reader knows of all tags that are there. -/
theorem pending_collect (h : s.Carries S p) : s.collect.pending = S.tags s.read s.available := by
  have harriving : ∀ t ∈ s.arriving.toList, t ∈ S.tags s.read s.available := fun t ht => by
    rw [← h.tags]
    exact List.mem_append_right _ ht
  have hordered : Ordered (s.pending ++ s.arriving.toList) := by
    rw [h.tags]
    exact Signal.ordered_tags
  obtain ⟨-, hsecond, hcross⟩ := List.pairwise_append.mp hordered
  have hkept : s.arriving.toList.filter (fun t => decide ((s.read : Int) ≤ t.index)) =
      s.arriving.toList := List.filter_eq_self.mpr fun t ht => by
    simpa using (Signal.mem_tags (harriving t ht)).1
  simp only [collect, hkept, mergeSort_of_ordered hsecond]
  rw [List.merge_of_le fun t u ht hu => precedes_iff.mpr (hcross t ht u hu), h.tags]

theorem available_advance : (s.advance n).available = s.available - n := by
  rw [available, ← Queue.length_toList, toList_unread_advance, List.length_drop,
    Queue.length_toList, available]

/-- Reading hands out a chunk of the signal. -/
theorem take (h : s.Carries S p) (hS : S.Covers p) (hn : n ≤ s.available) :
    (s.take n).1 = S.chunk s.read n ∧ (s.take n).2 = s.collect.advance n ∧
      (s.collect.advance n).Carries S p := by
  have hcovers : S.Covers (s.read + s.available) := by
    rw [← h.written_eq]
    exact hS.mono h.written_le
  have hmin : min n s.collect.available = n := Nat.min_eq_left hn
  have havail : (s.collect.advance n).available = s.available - n := available_advance
  refine ⟨?_, by simp [Stream.take, hmin], ?_⟩
  · simp only [Stream.take, hmin, Signal.chunk, tagsOn, h.pending_collect, read_collect,
      Signal.takeWhile_tags hn, unread_collect, Queue.take_eq, h.samples,
      Signal.take_samples (hcovers.mono (Nat.add_le_add_left hn _)) hn]
  · refine ⟨?_, ?_, h.written_le, h.current, ?_, ?_⟩
    · have := h.room
      simp only [havail, capacity_advance, capacity_collect]
      omega
    · have := h.written_eq
      simp only [havail, written_advance, written_collect, read_advance, read_collect]
      omega
    · rw [havail, toList_unread_advance, unread_collect, h.samples, read_advance, read_collect,
        Signal.drop_samples (hcovers.mono (Nat.add_le_add_left hn _)) hn]
    · rw [havail, arriving_advance, arriving_collect, Queue.toList_empty, List.append_nil,
        read_advance, read_collect, ← Signal.dropWhile_tags hn, ← h.pending_collect]
      rfl

/-- A stream without unread samples stays as it is when it is read. -/
theorem advance_zero (h : s.Carries S p) (ha : s.available = 0) : s.collect.advance 0 = s := by
  have htags := h.tags
  rw [ha, Signal.tags_zero, List.append_eq_nil_iff] at htags
  have hpending : s.collect.pending = [] := by rw [h.pending_collect, ha, Signal.tags_zero]
  have harriving : s.arriving = .empty := Queue.eq_empty htags.2
  have hunread : s.unread.drop 0 = s.unread := Queue.drop_zero _
  rw [advance, unread_collect, hunread, hpending]
  rcases s with ⟨capacity, unread, arriving, pending, written, read, closed, detached⟩
  cases htags.1
  cases harriving
  rfl

/-- The tags of the next chunk all belong to the stream. -/
theorem acceptedTags_chunk (h : s.Carries S p) (hlive : s.detached = false) :
    s.acceptedTags n (S.chunk p n).tags = S.tags p n := by
  have hp := h.current hlive
  have hall : (S.chunk p n).tags.filter (s.accepts n) = (S.chunk p n).tags :=
    List.filter_eq_self.mpr fun t ht => by
      have := Signal.mem_chunk_tags ht
      rw [accepts_iff]
      omega
  rw [acceptedTags, hall, hp, Signal.map_shift_chunk, mergeSort_of_ordered Signal.ordered_tags]

/-- A stream into which the next chunk is pushed carries the signal on. -/
theorem push (h : s.Carries S p) (hlive : s.detached = false) (hS : S.Covers (p + n))
    (hroom : n ≤ s.space) :
    (s.pushed (S.chunk p n).samples (S.chunk p n).tags).Carries S (p + n) := by
  have hp := h.current hlive
  have hlen := Signal.length_chunk hS
  have havail : (s.pushed (S.chunk p n).samples (S.chunk p n).tags).available =
      s.available + n := by
    rw [available, length_unread_pushed, hlen, available]
  have hwritten : (s.pushed (S.chunk p n).samples (S.chunk p n).tags).written = p + n := by
    rw [written_pushed, hlen, hp]
  refine ⟨?_, ?_, hwritten.le, fun _ => hwritten, ?_, ?_⟩
  · have := h.room
    simp only [space, available] at *
    simp only [length_unread_pushed, hlen, capacity_pushed]
    omega
  · have := h.written_eq
    simp only [hwritten, havail, read_pushed]
    omega
  · rw [toList_unread_pushed, havail, read_pushed, Signal.samples_append, h.samples,
      ← h.written_eq, hp]
    rfl
  · rw [havail, pending_pushed, toList_arriving_pushed, read_pushed, hlen,
      h.acceptedTags_chunk hlive, ← List.append_assoc, h.tags, Signal.tags_append,
      ← h.written_eq, hp]

end Carries
end Stream
end Dataflow
