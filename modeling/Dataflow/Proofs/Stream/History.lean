import Dataflow.Proofs.Stream.Basic

/-!
# The history of a stream

A stream is used by any sequence of operations (`Stream.Op`). A `History` keeps, beside the
stream, what its successful pushes wrote and what its reads gave. Over any such sequence the
samples read and those still unread are the samples written, and the tags read are the tags
written for samples that were not read yet, in the order of the samples (`History.run_faithful`).

The invariant behind it is `History.Faithful`: tags of one index are, in the order in which they
were written, first among those given, then pending, then arriving.
-/

namespace Dataflow

open Tag

variable {α : Type}

namespace Stream

/-- An operation of the writer or the reader of a stream. -/
inductive Op (α : Type) where
  | push (samples : List α) (tags : List Tag)
  | peek (limit : Nat)
  | take (limit : Nat)
  | consume (n : Nat)
  | close
  | detach

/-- A push that succeeded, with the counts of samples written and read before it. -/
structure Push (α : Type) where
  written : Nat
  read : Nat
  samples : List α
  tags : List Tag

/-- The tags of a push on a sample of the stream, indexed from the start of the stream. -/
def Push.kept (w : Push α) : List Tag :=
  (w.tags.filter fun t => decide (0 ≤ (w.written : Int) + t.index) &&
    decide (t.index < (w.samples.length : Int))).map (·.shift w.written)

/-- The kept tags of a push that lie on a sample not read before it. -/
def Push.timely (w : Push α) : List Tag := w.kept.filter fun t => decide ((w.read : Int) ≤ t.index)

/-- What a read gave or passed over, with the count of samples read before it. -/
structure Reading (α : Type) where
  read : Nat
  samples : List α
  tags : List Tag

/-- The tags of a read, indexed from the start of the stream. -/
def Reading.placedTags (r : Reading α) : List Tag := r.tags.map (·.shift r.read)

/-- A stream with all that was written to it and read from it. -/
structure History (α : Type) where
  stream : Stream α
  pushes : List (Push α)
  readings : List (Reading α)

namespace History

/-- A new stream. -/
def new (capacity : Nat) : History α := ⟨.empty capacity, [], []⟩

/-- Perform an operation. -/
def step (h : History α) : Op α → History α
  | .push samples tags =>
    match h.stream.push samples tags with
    | .error _ => h
    | .ok s =>
      { h with
        stream := s
        pushes := h.pushes ++ [⟨h.stream.written, h.stream.read, samples, tags⟩] }
  | .peek limit => { h with stream := (h.stream.peek limit).2 }
  | .take limit =>
    let (chunk, s) := h.stream.take limit
    { h with
      stream := s
      readings := h.readings ++ [⟨h.stream.read, chunk.samples, chunk.tags⟩] }
  | .consume n =>
    match h.stream.consume n with
    | .error _ => h
    | .ok (tags, s) =>
      { h with
        stream := s
        readings := h.readings ++ [⟨h.stream.read, h.stream.unread.take n, tags⟩] }
  | .close => { h with stream := h.stream.close }
  | .detach => { h with stream := h.stream.detach }

/-- Perform operations one after the other. -/
def run (h : History α) (ops : List (Op α)) : History α := ops.foldl step h

/-- All samples written. -/
def accepted (h : History α) : List α := h.pushes.flatMap Push.samples

/-- All samples given or passed over. -/
def handed (h : History α) : List α := h.readings.flatMap Reading.samples

/-- The tags written for samples not read yet, in the order in which they were written. -/
def timely (h : History α) : List Tag := h.pushes.flatMap Push.timely

/-- All tags given. -/
def given (h : History α) : List Tag := h.readings.flatMap Reading.placedTags

/-- The stream holds what was written to it and not read from it. -/
structure Faithful (capacity : Nat) (h : History α) : Prop where
  capacity_eq : h.stream.capacity = max capacity 1
  samples : h.handed ++ h.stream.unread.toList = h.accepted
  read_eq : h.stream.read = h.handed.length
  written_eq : h.stream.written = h.accepted.length
  room : h.stream.unread.length ≤ h.stream.capacity
  given_ordered : Ordered h.given
  given_lt : ∀ t ∈ h.given, t.index < h.stream.read
  pending_ordered : Ordered h.stream.pending
  le_pending : ∀ t ∈ h.stream.pending, (h.stream.read : Int) ≤ t.index
  tags : ∀ k, on k h.given ++ on k h.stream.pending ++ on k h.stream.current = on k h.timely

/-! ### Single operations -/

/-- The kept tags of a push are those that the stream accepts. -/
theorem kept_push (s : Stream α) (read : Nat) (samples : List α) (tags : List Tag) :
    Push.kept ⟨s.written, read, samples, tags⟩ =
      (tags.filter (s.accepts samples.length)).map (·.shift s.written) := by
  have hfilter : s.accepts samples.length = fun t : Tag =>
      decide (0 ≤ (s.written : Int) + t.index) && decide (t.index < (samples.length : Int)) :=
    funext fun t => Bool.and_comm _ _
  rw [hfilter]
  rfl

namespace Faithful
variable {capacity : Nat} {h : History α}

theorem new : Faithful capacity (History.new (α := α) capacity) := by
  refine ⟨rfl, rfl, rfl, rfl, Nat.zero_le _, .nil, ?_, .nil, ?_, fun k => rfl⟩ <;>
    simp [History.new, History.given, Stream.empty]

/-- Flags of the stream say nothing about its contents. -/
theorem flags (hf : Faithful capacity h) (closed detached : Bool) :
    Faithful capacity { h with stream := { h.stream with closed, detached } } :=
  ⟨hf.capacity_eq, hf.samples, hf.read_eq, hf.written_eq, hf.room, hf.given_ordered, hf.given_lt,
    hf.pending_ordered, hf.le_pending, hf.tags⟩

theorem push (hf : Faithful capacity h) {samples : List α} {tags : List Tag} {s : Stream α}
    (hs : h.stream.push samples tags = .ok s) :
    Faithful capacity { h with
      stream := s
      pushes := h.pushes ++ [⟨h.stream.written, h.stream.read, samples, tags⟩] } := by
  obtain ⟨hspace, -, rfl⟩ := push_eq_ok_iff.mp hs
  refine ⟨hf.capacity_eq, ?_, hf.read_eq, ?_, ?_, hf.given_ordered, hf.given_lt,
    hf.pending_ordered, hf.le_pending, fun k => ?_⟩
  · have := hf.samples
    simp only [accepted, handed] at this ⊢
    simp [← this]
  · simp [accepted, hf.written_eq]
  · have := hf.room
    simp only [space] at hspace
    simp only [length_unread_pushed, capacity_pushed]
    omega
  · have hnew : on k (Push.timely ⟨h.stream.written, h.stream.read, samples, tags⟩) =
        on k ((h.stream.acceptedTags samples.length tags).filter
          fun t => decide ((h.stream.read : Int) ≤ t.index)) := by
      rw [Push.timely, on_filter k (fun i => decide ((h.stream.read : Int) ≤ i)),
        on_filter k (fun i => decide ((h.stream.read : Int) ≤ i)), on_acceptedTags,
        kept_push h.stream h.stream.read]
    show on k h.given ++ on k h.stream.pending ++ on k (h.stream.pushed samples tags).current =
      on k (List.flatMap Push.timely (h.pushes ++ [_]))
    rw [current_pushed, on_append, ← List.append_assoc, hf.tags k, List.flatMap_append, on_append,
      List.flatMap_singleton, hnew]
    rfl

/-- Looking at the arriving tags changes nothing about the history. -/
theorem collect (hf : Faithful capacity h) :
    Faithful capacity { h with stream := h.stream.collect } := by
  refine ⟨hf.capacity_eq, hf.samples, hf.read_eq, hf.written_eq, hf.room, hf.given_ordered,
    hf.given_lt, ordered_collect hf.pending_ordered, fun t ht => ?_, fun k => ?_⟩
  · rcases mem_pending_collect.mp ht with ht | ht
    · exact hf.le_pending t ht
    · simpa [current] using (List.mem_filter.mp ht).2
  · have hnil : on k h.stream.collect.current = [] := rfl
    show on k h.given ++ on k h.stream.collect.pending ++ on k h.stream.collect.current =
      on k h.timely
    rw [← hf.tags k, hnil, on_collect k hf.pending_ordered, List.append_nil, List.append_assoc]

/-- Reading the next `n` samples once no tag is arriving. -/
theorem advance (hf : Faithful capacity h) (ha : h.stream.arriving = .empty) {n : Nat}
    (hn : n ≤ h.stream.available) :
    Faithful capacity { h with
      stream := h.stream.advance n
      readings := h.readings ++
        [⟨h.stream.read, h.stream.unread.take n, h.stream.tagsOn n⟩] } := by
  have hsplit := passed_append_pending_advance (s := h.stream) (n := n)
  have hgiven : History.given { h with
      stream := h.stream.advance n
      readings := h.readings ++
        [⟨h.stream.read, h.stream.unread.take n, h.stream.tagsOn n⟩] } =
      h.given ++ h.stream.passed n := by
    simp [given, Reading.placedTags, map_shift_tagsOn]
  have hsub : (h.stream.passed n).Sublist h.stream.pending := List.takeWhile_sublist _
  have hlen : (h.stream.unread.toList.take n).length = n := by
    rw [List.length_take, Queue.length_toList]
    exact Nat.min_eq_left hn
  refine ⟨hf.capacity_eq, ?_, ?_, hf.written_eq, ?_, ?_, fun t ht => ?_, ?_, fun t ht => ?_,
    fun k => ?_⟩
  · have := hf.samples
    simp only [accepted, handed] at this ⊢
    rw [← this]
    simp
  · simp only [handed, List.flatMap_append, List.flatMap_cons, List.flatMap_nil, List.append_nil,
      List.length_append, read_advance, Queue.take_eq, hlen]
    rw [hf.read_eq, handed]
  · have := hf.room
    rw [← Queue.length_toList, toList_unread_advance]
    simp only [List.length_drop, Queue.length_toList, capacity_advance]
    omega
  · rw [hgiven]
    refine List.pairwise_append.mpr ⟨hf.given_ordered, hf.pending_ordered.sublist hsub, ?_⟩
    intro t ht u hu
    have := hf.given_lt t ht
    have := hf.le_pending u (hsub.subset hu)
    omega
  · rw [hgiven] at ht
    simp only [read_advance, Int.natCast_add]
    rcases List.mem_append.mp ht with ht | ht
    · have := hf.given_lt t ht
      omega
    · exact passed_lt ht
  · exact hf.pending_ordered.sublist (List.dropWhile_sublist _)
  · simpa using le_pending_advance hf.pending_ordered ht
  · have hk := hf.tags k
    rw [current_of_arriving ha, ← hsplit, on_append, on_nil, List.append_nil,
      ← List.append_assoc] at hk
    rw [hgiven, current_of_arriving (by simpa using ha), on_append, on_nil, List.append_nil]
    exact hk

theorem step (hf : Faithful capacity h) (op : Op α) : Faithful capacity (h.step op) := by
  cases op with
  | push samples tags =>
    simp only [History.step]
    split
    · exact hf
    next s hs => exact hf.push hs
  | peek limit => exact hf.collect
  | take limit => exact hf.collect.advance rfl (Nat.min_le_right ..)
  | consume n =>
    simp only [History.step, Stream.consume]
    by_cases hn : h.stream.available < n
    · simpa only [hn, if_true] using hf
    · simp only [hn, if_false]
      exact hf.collect.advance rfl (Nat.not_lt.mp hn)
  | close => exact hf.flags true h.stream.detached
  | detach => exact hf.flags h.stream.closed true

theorem run (hf : Faithful capacity h) (ops : List (Op α)) : Faithful capacity (h.run ops) := by
  induction ops generalizing h with
  | nil => exact hf
  | cons op ops ih => exact ih (hf.step op)

/-- The tags given so far are the timely ones on samples already read. -/
theorem on_given (hf : Faithful capacity h) (k : Int) :
    on k h.given = on k (h.timely.filter fun t => decide (t.index < (h.stream.read : Int))) := by
  rw [on_filter k (fun i => decide (i < (h.stream.read : Int))), ← hf.tags k]
  by_cases hk : k < h.stream.read
  · have hpending : on k h.stream.pending = [] := on_eq_nil fun t ht => by
      have := hf.le_pending t ht
      omega
    have hcurrent : on k h.stream.current = [] := on_eq_nil fun t ht => by
      have : (h.stream.read : Int) ≤ t.index := by simpa [current] using (List.mem_filter.mp ht).2
      omega
    simp [hk, hpending, hcurrent]
  · have hgiven : on k h.given = [] := on_eq_nil fun t ht => by
      have := hf.given_lt t ht
      omega
    simp [hk, hgiven]

end Faithful

/-! ### Whole histories -/

/-- However a stream is used, what is read from it is what was written to it: all samples in
order, and of the tags those that were written for a sample not yet read, sorted by sample, and
for one sample in the order in which they were written. -/
theorem run_faithful (capacity : Nat) (ops : List (Op α)) :
    let h := (History.new capacity).run ops
    h.handed ++ h.stream.unread.toList = h.accepted ∧
      h.stream.written = h.accepted.length ∧ h.stream.read = h.handed.length ∧
      h.stream.read + h.stream.available = h.stream.written ∧
      h.stream.capacity = max capacity 1 ∧ h.stream.available ≤ h.stream.capacity ∧
      h.stream.space + h.stream.available = h.stream.capacity ∧
      h.given.Pairwise (fun t u => t.index ≤ u.index) ∧
      (∀ t ∈ h.given, t.index < h.stream.read) ∧
      ∀ k, h.given.filter (fun t => decide (t.index = k)) =
        (h.timely.filter fun t => decide (t.index < (h.stream.read : Int))).filter
          fun t => decide (t.index = k) := by
  intro h
  have hf : Faithful capacity h := Faithful.new.run ops
  have hlen := congrArg List.length hf.samples
  rw [List.length_append, Queue.length_toList, ← hf.read_eq, ← hf.written_eq] at hlen
  refine ⟨hf.samples, hf.written_eq, hf.read_eq, hlen, hf.capacity_eq, hf.room, ?_,
    hf.given_ordered, hf.given_lt, hf.on_given⟩
  have := hf.room
  simp only [space, available]
  omega

end History
end Stream
end Dataflow
