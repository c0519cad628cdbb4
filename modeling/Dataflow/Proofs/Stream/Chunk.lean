import Dataflow.Proofs.Stream.FanOut
import Dataflow.Proofs.Stream.History

/-!
# Chunks with tags in place

Tags are in place in a chunk if they are on its own samples and sorted (`Tag.Within`). What is read
from a stream is such a chunk (`Stream.History.Faithful.take`), and a stream that receives such a
chunk takes all of its tags (`Stream.receive_of_within`).
-/

namespace Dataflow

open Tag

/-- Tags on `n` samples, sorted by sample. -/
structure Tag.Within (n : Nat) (ts : List Tag) : Prop where
  ordered : Ordered ts
  bounds : ∀ t ∈ ts, 0 ≤ t.index ∧ t.index < n

namespace Chunk

variable {α : Type}

/-- Two chunks as one, the second behind the first. -/
def append (c d : Chunk α) : Chunk α :=
  ⟨c.samples ++ d.samples, c.tags ++ d.tags.map (·.shift c.samples.length)⟩

@[simp] theorem samples_append (c d : Chunk α) :
    (c.append d).samples = c.samples ++ d.samples := rfl

@[simp] theorem append_empty (c : Chunk α) : c.append .empty = c := by simp [append, empty]

@[simp] theorem empty_append (c : Chunk α) : append .empty c = c := by simp [append, empty]

end Chunk

namespace Stream

variable {α : Type} {s : Stream α} {chunk : Chunk α}

theorem acceptedTags_of_within {n : Nat} {tags : List Tag} (h : Within n tags) :
    s.acceptedTags n tags = tags.map (·.shift s.written) := by
  have hall : tags.filter (s.accepts n) = tags := List.filter_eq_self.mpr fun t ht => by
    have := h.bounds t ht
    rw [accepts_iff]
    omega
  have hordered : Ordered (tags.map (·.shift s.written)) :=
    List.pairwise_map.mpr (h.ordered.imp fun hle => by
      rw [shift_index, shift_index]
      omega)
  rw [acceptedTags, hall, mergeSort_of_ordered hordered]

/-- A stream that receives a chunk has all its samples and tags behind those it had. -/
theorem receive_of_within (hlive : s.detached = false)
    (h : Within chunk.samples.length chunk.tags) :
    (s.receive chunk).unread.toList = s.unread.toList ++ chunk.samples ∧
      (s.receive chunk).arriving.toList =
        s.arriving.toList ++ chunk.tags.map (·.shift s.written) := by
  rw [receive, hlive]
  exact ⟨toList_unread_pushed, by
    rw [if_neg Bool.false_ne_true, toList_arriving_pushed, acceptedTags_of_within h]⟩

/-- The chunk read from a stream with a history has its tags on its samples. -/
theorem History.Faithful.take {capacity : Nat} {h : History α} (hf : h.Faithful capacity) {r : Nat}
    (hr : r ≤ h.stream.available) :
    let chunk := (h.stream.take r).1
    chunk.samples = h.stream.unread.toList.take r ∧ chunk.samples.length = r ∧
      Within chunk.samples.length chunk.tags := by
  intro chunk
  have hmin : min r h.stream.collect.available = r := Nat.min_eq_left hr
  have hsamples : chunk.samples = h.stream.unread.toList.take r := by
    show h.stream.collect.unread.take (min r h.stream.collect.available) = _
    rw [hmin, unread_collect, Queue.take_eq]
  have htags : chunk.tags = (h.stream.collect.passed r).map (·.shift (-(h.stream.read : Int))) := by
    show h.stream.collect.tagsOn (min r h.stream.collect.available) = _
    rw [hmin]
    rfl
  have hsub : (h.stream.collect.passed r).Sublist h.stream.collect.pending :=
    List.takeWhile_sublist _
  have hlength : chunk.samples.length = r := by
    rw [hsamples, List.length_take, Queue.length_toList]
    exact Nat.min_eq_left hr
  rw [hlength]
  refine ⟨hsamples, rfl, ?_, fun t ht => ?_⟩
  · rw [htags]
    refine List.pairwise_map.mpr ((hf.collect.pending_ordered.sublist hsub).imp fun hle => ?_)
    rw [shift_index, shift_index]
    omega
  · rw [htags] at ht
    obtain ⟨u, hu, rfl⟩ := List.mem_map.mp ht
    have hle : (h.stream.read : Int) ≤ u.index := hf.collect.le_pending u (hsub.subset hu)
    have hlt : u.index < (h.stream.read : Int) + r := passed_lt (s := h.stream.collect) hu
    rw [shift_index]
    omega

/-- A chunk comes out of an empty stream as it went in. -/
theorem take_pushed_empty (capacity : Nat) (h : Within chunk.samples.length chunk.tags) :
    (((Stream.empty capacity).pushed chunk.samples chunk.tags).take chunk.samples.length).1 =
      chunk := by
  let s := (Stream.empty capacity).pushed chunk.samples chunk.tags
  have hshift : ∀ d : Int, d = 0 → chunk.tags.map (·.shift d) = chunk.tags := by
    rintro d rfl
    simp
  have harriving : s.arriving.toList = chunk.tags := by
    rw [toList_arriving_pushed, acceptedTags_of_within h]
    exact hshift _ rfl
  have hkept : s.arriving.toList.filter (fun t => decide ((s.read : Int) ≤ t.index)) =
      chunk.tags := by
    rw [harriving]
    exact List.filter_eq_self.mpr fun t ht => decide_eq_true (h.bounds t ht).1
  have hpending : s.collect.pending = chunk.tags := by
    simp only [collect, hkept, mergeSort_of_ordered h.ordered]
    exact List.nil_merge ..
  have hmin : min chunk.samples.length s.collect.available = chunk.samples.length := by
    show min _ (0 + chunk.samples.length) = _
    omega
  have hall : chunk.tags.takeWhile (fun t => decide (t.index < (s.collect.read : Int) +
      chunk.samples.length)) = chunk.tags :=
    List.takeWhile_eq_self_iff.mpr fun t ht => by
      have := (h.bounds t ht).2
      exact decide_eq_true (by show t.index < ((0 : Nat) : Int) + _; omega)
  have htags : s.collect.tagsOn chunk.samples.length = chunk.tags := by
    rw [tagsOn, hpending, hall]
    exact hshift _ rfl
  have hsamples : s.collect.unread.take chunk.samples.length = chunk.samples := by
    rw [unread_collect, Queue.take_eq, toList_unread_pushed]
    exact List.take_length
  show Chunk.mk (s.collect.unread.take (min _ _)) (s.collect.tagsOn (min _ _)) = chunk
  rw [hmin, hsamples, htags]

theorem space_le_space_take (r : Nat) : s.space ≤ (s.take r).2.space := by
  have havailable : (s.take r).2.available ≤ s.available := by
    show (s.collect.advance _).unread.length ≤ _
    rw [← Queue.length_toList, toList_unread_advance, List.length_drop, Queue.length_toList]
    exact Nat.sub_le ..
  unfold space
  show _ ≤ s.capacity - (s.take r).2.available
  unfold available at *
  omega

end Stream

end Dataflow
