import Dataflow.Proofs.Tag.Order
import Dataflow.Stream
import Mathlib.Data.List.TakeWhile

/-!
# Operations on streams

What single operations do to a stream: when a push succeeds and what it leaves
(`Stream.push_eq_ok_iff`), and what collecting the arriving tags does to the tags of one index
(`Stream.on_collect`).
-/

namespace Dataflow

open Tag

variable {α : Type} {s s' : Stream α} {samples : List α} {tags : List Tag} {n : Nat}

namespace Stream

theorem exhausted_iff : s.exhausted = true ↔ s.closed = true ∧ s.available = 0 := by
  simp [exhausted, available, Queue.isEmpty]

/-! ### Pushing -/

/-- The stream after a push that fits. -/
def pushed (s : Stream α) (samples : List α) (tags : List Tag) : Stream α :=
  { s with
    unread := s.unread.append samples
    arriving := s.arriving.append (s.acceptedTags samples.length tags)
    written := s.written + samples.length }

theorem push_eq_ok_iff : s.push samples tags = .ok s' ↔
    samples.length ≤ s.space ∧ (s.acceptedTags samples.length tags).length ≤ s.tagSpace ∧
      s' = s.pushed samples tags := by
  simp only [push, pushed]
  by_cases h : s.space < samples.length
  · simp only [h, if_true, reduceCtorEq, false_iff]
    omega
  by_cases h' : s.tagSpace < (s.acceptedTags samples.length tags).length
  · simp only [h, h', if_true, if_false, reduceCtorEq, false_iff]
    omega
  · simp only [h, h', if_false, Except.ok.injEq]
    constructor
    · rintro rfl; exact ⟨by omega, by omega, rfl⟩
    · rintro ⟨-, -, rfl⟩; rfl

theorem accepts_iff {t : Tag} :
    s.accepts n t = true ↔ t.index < n ∧ 0 ≤ (s.written : Int) + t.index := by
  simp [accepts]

theorem length_acceptedTags_le : (s.acceptedTags n tags).length ≤ tags.length := by
  simpa [acceptedTags] using List.length_filter_le _ _

@[simp] theorem on_acceptedTags (k : Int) :
    on k (s.acceptedTags n tags) = on k ((tags.filter (s.accepts n)).map (·.shift s.written)) :=
  on_mergeSort k _

@[simp] theorem toList_unread_pushed :
    (s.pushed samples tags).unread.toList = s.unread.toList ++ samples := by simp [pushed]

@[simp] theorem toList_arriving_pushed : (s.pushed samples tags).arriving.toList =
    s.arriving.toList ++ s.acceptedTags samples.length tags := by simp [pushed]

@[simp] theorem pending_pushed : (s.pushed samples tags).pending = s.pending := rfl
@[simp] theorem read_pushed : (s.pushed samples tags).read = s.read := rfl
@[simp] theorem capacity_pushed : (s.pushed samples tags).capacity = s.capacity := rfl
@[simp] theorem written_pushed : (s.pushed samples tags).written = s.written + samples.length := rfl

@[simp] theorem length_unread_pushed :
    (s.pushed samples tags).unread.length = s.unread.length + samples.length := rfl

/-! ### Collecting -/

@[simp] theorem unread_collect : s.collect.unread = s.unread := rfl
@[simp] theorem read_collect : s.collect.read = s.read := rfl
@[simp] theorem written_collect : s.collect.written = s.written := rfl
@[simp] theorem capacity_collect : s.collect.capacity = s.capacity := rfl
@[simp] theorem arriving_collect : s.collect.arriving = .empty := rfl

/-- The arriving tags on samples not read yet. -/
def current (s : Stream α) : List Tag :=
  s.arriving.toList.filter fun t => decide ((s.read : Int) ≤ t.index)

theorem current_pushed : (s.pushed samples tags).current = s.current ++
    (s.acceptedTags samples.length tags).filter fun t => decide ((s.read : Int) ≤ t.index) := by
  rw [current, toList_arriving_pushed, List.filter_append]
  rfl

theorem current_of_arriving (h : s.arriving = .empty) : s.current = [] := by simp [current, h]

theorem ordered_collect (h : Ordered s.pending) : Ordered s.collect.pending :=
  ordered_merge h (ordered_mergeSort _)

theorem on_collect (k : Int) (h : Ordered s.pending) :
    on k s.collect.pending = on k s.pending ++ on k s.current := by
  simp only [collect]
  rw [on_merge k h, on_mergeSort]
  rfl

theorem mem_pending_collect {t : Tag} :
    t ∈ s.collect.pending ↔ t ∈ s.pending ∨ t ∈ s.current := by
  simp [collect, current, List.mem_merge]

/-! ### Advancing -/

@[simp] theorem read_advance : (s.advance n).read = s.read + n := rfl
@[simp] theorem written_advance : (s.advance n).written = s.written := rfl
@[simp] theorem capacity_advance : (s.advance n).capacity = s.capacity := rfl
@[simp] theorem arriving_advance : (s.advance n).arriving = s.arriving := rfl

@[simp] theorem toList_unread_advance : (s.advance n).unread.toList = s.unread.toList.drop n :=
  Queue.toList_drop ..

/-- The tags that `advance` leaves behind, indexed from the start of the stream. -/
def passed (s : Stream α) (n : Nat) : List Tag :=
  s.pending.takeWhile fun t => decide (t.index < (s.read : Int) + n)

theorem passed_append_pending_advance : s.passed n ++ (s.advance n).pending = s.pending :=
  List.takeWhile_append_dropWhile

theorem map_shift_tagsOn : (s.tagsOn n).map (·.shift s.read) = s.passed n := by
  rw [tagsOn, List.map_map, passed]
  exact List.map_id'' (fun t => shift_neg_shift t s.read) _

theorem passed_lt {t : Tag} (h : t ∈ s.passed n) : t.index < (s.read : Int) + n := by
  simpa using List.mem_takeWhile_imp h

theorem le_pending_advance (h : Ordered s.pending) {t : Tag} (ht : t ∈ (s.advance n).pending) :
    (s.read : Int) + n ≤ t.index := by
  simp only [advance] at ht
  cases hd : s.pending.dropWhile fun t => decide (t.index < (s.read : Int) + n) with
  | nil => simp [hd] at ht
  | cons u us =>
    have hu : ¬ u.index < (s.read : Int) + n := by
      have h := List.head?_dropWhile_not (fun t : Tag => decide (t.index < (s.read : Int) + n))
        s.pending
      simpa [hd] using h
    have hus : Ordered (u :: us) := hd ▸ h.sublist (List.dropWhile_sublist _)
    rw [hd] at ht
    rcases List.mem_cons.mp ht with rfl | ht
    · omega
    · have := (List.pairwise_cons.mp hus).1 t ht
      omega

end Stream
end Dataflow
