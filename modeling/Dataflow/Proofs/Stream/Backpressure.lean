import Dataflow.Proofs.Stream.FanOut
import Dataflow.Proofs.Stream.History

/-!
# Backpressure

A writer is held back by `FanOut.taggedSpace`: the free sample slots of a stream, and its free
slots for arriving tags. Samples give their slots back when they are read, but tags only when a
read collects them, and a tag may be written for a sample that is already read. So a stream whose
reader has nothing left to read may still hold its writer back: exactly when all tag slots are
taken, and then by tags that are too late to be given to anyone (`History.taggedSpace_drained`).
Nothing but a read ends this, and a reader that waits for samples does not read.

`Stream.Queued` is the invariant that counts slots; `Stream.Punctual` says that no waiting tag is
late, which is so as long as no tag is written for a sample of an earlier push.
-/

namespace Dataflow

variable {α : Type}

namespace Stream
variable {s : Stream α} {samples : List α} {tags : List Tag} {n : Nat}

theorem length_acceptedTags :
    (s.acceptedTags n tags).length = (tags.filter (s.accepts n)).length := by
  simp [acceptedTags]

theorem mem_acceptedTags {t : Tag} : t ∈ s.acceptedTags n tags ↔
    ∃ u ∈ tags, s.accepts n u = true ∧ u.shift s.written = t := by
  simp only [acceptedTags, List.mem_mergeSort, List.mem_map, List.mem_filter, and_assoc]

theorem capacity_le_tagSlots (s : Stream α) : s.capacity ≤ s.tagSlots := Nat.le_max_left ..

theorem available_advance : (s.advance n).available = s.available - n := by
  unfold available
  rw [← Queue.length_toList, toList_unread_advance, List.length_drop, Queue.length_toList]

theorem taggedSpace_singleton (hlive : s.detached = false) :
    FanOut.taggedSpace [s] = .bounded (min s.space s.tagSpace) := by
  simp [FanOut.taggedSpace, FanOut.least, FanOut.live, hlive]

theorem taggedSpace_of_detached (hgone : s.detached = true) :
    FanOut.taggedSpace [s] = .bounded 0 := by
  simp [FanOut.taggedSpace, FanOut.least, FanOut.live, hgone]

theorem space_of_drained (hdrained : s.available = 0) : s.space = s.capacity := by
  unfold space
  unfold available at hdrained
  omega

/-- A drained stream without arriving tags has room for as much as it ever holds. -/
theorem taggedSpace_of_collected (hlive : s.detached = false) (hdrained : s.available = 0)
    (harriving : s.arriving.length = 0) : FanOut.taggedSpace [s] = .bounded s.capacity := by
  have := s.capacity_le_tagSlots
  have htags : s.tagSpace = s.tagSlots := by
    unfold tagSpace
    omega
  rw [taggedSpace_singleton hlive, space_of_drained hdrained, htags]
  congr 1
  omega

/-- Samples and arriving tags fit their slots, and each of the tags lies on a written sample. -/
structure Queued (s : Stream α) : Prop where
  positive : 0 < s.capacity
  room : s.available ≤ s.capacity
  slots : s.arriving.length ≤ s.tagSlots
  balance : s.read + s.available = s.written
  below : ∀ t ∈ s.arriving.toList, t.index < (s.written : Int)

/-- No arriving tag lies on a sample that is read. -/
def Punctual (s : Stream α) : Prop := ∀ t ∈ s.arriving.toList, (s.read : Int) ≤ t.index

namespace Queued

theorem empty (capacity : Nat) : (Stream.empty (α := α) capacity).Queued := by
  refine ⟨?_, Nat.zero_le _, Nat.zero_le _, rfl, fun t ht => by cases ht⟩
  show 0 < max capacity 1
  omega

theorem pushed (hq : s.Queued) (hspace : samples.length ≤ s.space)
    (htags : (s.acceptedTags samples.length tags).length ≤ s.tagSpace) :
    (s.pushed samples tags).Queued := by
  have hroom := hq.room
  have hslots := hq.slots
  have hbalance := hq.balance
  unfold space at hspace
  unfold tagSpace at htags
  unfold available at hroom hbalance
  refine ⟨hq.positive, ?_, ?_, ?_, fun t ht => ?_⟩
  · show s.unread.length + samples.length ≤ s.capacity
    omega
  · show s.arriving.length + (s.acceptedTags samples.length tags).length ≤ s.tagSlots
    omega
  · show s.read + (s.unread.length + samples.length) = s.written + samples.length
    omega
  · rw [toList_arriving_pushed, List.mem_append] at ht
    rw [written_pushed]
    rcases ht with ht | ht
    · have := hq.below t ht
      omega
    · obtain ⟨u, -, hu, rfl⟩ := mem_acceptedTags.mp ht
      have := (accepts_iff.mp hu).1
      rw [Tag.shift_index]
      omega

theorem collect (hq : s.Queued) : s.collect.Queued :=
  ⟨hq.positive, hq.room, Nat.zero_le _, hq.balance, fun t ht => by cases ht⟩

theorem advance (hq : s.Queued) (hn : n ≤ s.available) : (s.advance n).Queued := by
  have hroom := hq.room
  have hbalance := hq.balance
  refine ⟨hq.positive, ?_, hq.slots, ?_, hq.below⟩
  · rw [available_advance, capacity_advance]
    omega
  · rw [available_advance, read_advance, written_advance]
    omega

theorem flags (hq : s.Queued) (closed detached : Bool) :
    Queued { s with closed, detached } :=
  ⟨hq.positive, hq.room, hq.slots, hq.balance, hq.below⟩

/-- A drained stream holds no tag but late ones. -/
theorem late_of_drained (hq : s.Queued) (hdrained : s.available = 0) {t : Tag}
    (ht : t ∈ s.arriving.toList) : t.index < (s.read : Int) := by
  have := hq.balance
  have := hq.below t ht
  omega

end Queued

theorem Punctual.of_drained (hp : s.Punctual) (hq : s.Queued) (hdrained : s.available = 0) :
    s.arriving.length = 0 := by
  rw [← Queue.length_toList, List.length_eq_zero_iff, List.eq_nil_iff_forall_not_mem]
  intro t ht
  have := hp t ht
  have := hq.late_of_drained hdrained ht
  omega

theorem Punctual.pushed (hp : s.Punctual) (hq : s.Queued) (hindex : ∀ t ∈ tags, 0 ≤ t.index) :
    (s.pushed samples tags).Punctual := by
  intro t h
  rw [toList_arriving_pushed, List.mem_append] at h
  rw [read_pushed]
  rcases h with h | h
  · exact hp t h
  · obtain ⟨u, hu, -, rfl⟩ := mem_acceptedTags.mp h
    have := hindex u hu
    have := hq.balance
    rw [Tag.shift_index]
    omega

/-! ### Histories -/

/-- The operations of the reader that look at the stream. -/
def Op.reads : Op α → Bool
  | .push _ _ => false
  | .peek _ => true
  | .take _ => true
  | .consume _ => true
  | .close => false
  | .detach => false

/-- A push that tags no sample written before it, or no push at all. -/
def Op.Prompt : Op α → Prop
  | .push _ tags => ∀ t ∈ tags, 0 ≤ t.index
  | _ => True

namespace History
variable {h : History α}

/-- What one operation does to the stream: nothing, a push that fits, a read, or a flag. -/
theorem stream_step (h : History α) (op : Op α) :
    (h.step op).stream = h.stream ∨
    (∃ samples tags, op = .push samples tags ∧ samples.length ≤ h.stream.space ∧
      (h.stream.acceptedTags samples.length tags).length ≤ h.stream.tagSpace ∧
      (h.step op).stream = h.stream.pushed samples tags) ∨
    (op.reads = true ∧ ((h.step op).stream = h.stream.collect ∨
      ∃ n ≤ h.stream.available, (h.step op).stream = h.stream.collect.advance n)) ∨
    (op.reads = false ∧ ∃ closed detached,
      (h.step op).stream = { h.stream with closed, detached }) := by
  cases op with
  | push samples tags =>
    cases hs : h.stream.push samples tags with
    | error e => exact .inl (by simp only [step, hs])
    | ok s =>
      obtain ⟨hspace, htags, rfl⟩ := push_eq_ok_iff.mp hs
      exact .inr (.inl ⟨samples, tags, rfl, hspace, htags, by simp only [step, hs]⟩)
  | peek limit => exact .inr (.inr (.inl ⟨rfl, .inl rfl⟩))
  | take limit => exact .inr (.inr (.inl ⟨rfl, .inr ⟨_, Nat.min_le_right .., rfl⟩⟩))
  | consume n =>
    by_cases hn : h.stream.available < n
    · exact .inl (by simp only [step, Stream.consume, hn, if_true])
    · refine .inr (.inr (.inl ⟨rfl, .inr ⟨n, Nat.not_lt.mp hn, ?_⟩⟩))
      simp only [step, Stream.consume, hn, if_false]
  | close => exact .inr (.inr (.inr ⟨rfl, true, h.stream.detached, rfl⟩))
  | detach => exact .inr (.inr (.inr ⟨rfl, h.stream.closed, true, rfl⟩))

theorem queued_step (hq : h.stream.Queued) (op : Op α) : (h.step op).stream.Queued := by
  rcases stream_step h op with hs | ⟨samples, tags, -, hspace, htags, hs⟩ |
    ⟨-, hs | ⟨n, hn, hs⟩⟩ | ⟨-, closed, detached, hs⟩ <;> rw [hs]
  · exact hq
  · exact hq.pushed hspace htags
  · exact hq.collect
  · exact hq.collect.advance hn
  · exact hq.flags closed detached

theorem queued_run (hq : h.stream.Queued) (ops : List (Op α)) : (h.run ops).stream.Queued := by
  induction ops generalizing h with
  | nil => exact hq
  | cons op ops ih => exact ih (queued_step hq op)

theorem punctual_run (hq : h.stream.Queued) (hp : h.stream.Punctual) {ops : List (Op α)}
    (hops : ∀ op ∈ ops, op.Prompt) : (h.run ops).stream.Punctual := by
  induction ops generalizing h with
  | nil => exact hp
  | cons op ops ih =>
    obtain ⟨hop, hops⟩ := List.forall_mem_cons.mp hops
    refine ih (queued_step hq op) ?_ hops
    rcases stream_step h op with hs | ⟨samples, tags, rfl, -, -, hs⟩ |
      ⟨-, hs | ⟨n, -, hs⟩⟩ | ⟨-, closed, detached, hs⟩ <;> rw [hs]
    · exact hp
    · exact hp.pushed hq hop
    · exact fun t ht => by cases ht
    · exact fun t ht => by cases ht
    · exact hp

/-- Without a read, no slot for tags becomes free. -/
theorem tagSpace_run_le {ops : List (Op α)} (hops : ∀ op ∈ ops, op.reads = false) :
    (h.run ops).stream.tagSpace ≤ h.stream.tagSpace := by
  induction ops generalizing h with
  | nil => exact Nat.le_refl _
  | cons op ops ih =>
    obtain ⟨hop, hops⟩ := List.forall_mem_cons.mp hops
    refine (ih hops).trans ?_
    rcases stream_step h op with hs | ⟨samples, tags, -, -, -, hs⟩ | ⟨hread, -⟩ |
      ⟨-, closed, detached, hs⟩
    · rw [hs]
    · rw [hs]
      show h.stream.tagSlots - (h.stream.arriving.length +
        (h.stream.acceptedTags samples.length tags).length) ≤ h.stream.tagSpace
      unfold tagSpace
      omega
    · rw [hread] at hop
      cases hop
    · rw [hs]
      exact Nat.le_refl _

/-- Without a read, a writer that has no slot for tags goes on being told of no room. -/
theorem isZero_taggedSpace_run {ops : List (Op α)} (hops : ∀ op ∈ ops, op.reads = false)
    (hfull : h.stream.tagSpace = 0) : (FanOut.taggedSpace [(h.run ops).stream]).isZero = true := by
  have hle := tagSpace_run_le (h := h) hops
  have htags : (h.run ops).stream.tagSpace = 0 := by omega
  cases hd : (h.run ops).stream.detached with
  | false =>
    rw [taggedSpace_singleton hd, htags, Nat.min_zero]
    rfl
  | true =>
    rw [taggedSpace_of_detached hd]
    rfl

/-- However a stream was used, when its reader has read all there is, every sample slot is free,
and its writer is told how many of the tag slots are. So it is told of no room exactly when tags
fill all of their slots. All of these are late. A look at the stream by its reader frees the slots
again and nothing else does; and slots are never all taken if tags are written along with their
samples. -/
theorem taggedSpace_drained (capacity : Nat) (ops : List (Op α))
    (hlive : ((History.new capacity).run ops).stream.detached = false)
    (hdrained : ((History.new capacity).run ops).stream.available = 0) :
    let h := (History.new capacity).run ops
    let s := h.stream
    0 < s.capacity ∧ FanOut.space [s] = .bounded s.capacity ∧
      FanOut.taggedSpace [s] = .bounded (min s.capacity (s.tagSlots - s.arriving.length)) ∧
      ((FanOut.taggedSpace [s]).isZero = true ↔ s.arriving.length = s.tagSlots) ∧
      (∀ t ∈ s.arriving.toList, t.index < (s.read : Int)) ∧
      (∀ limit, FanOut.taggedSpace [(s.peek limit).2] = .bounded s.capacity ∧
        FanOut.taggedSpace [(s.take limit).2] = .bounded s.capacity) ∧
      (∀ more : List (Op α), (∀ op ∈ more, op.reads = false) →
        (FanOut.taggedSpace [s]).isZero = true →
          (FanOut.taggedSpace [(h.run more).stream]).isZero = true) ∧
      ((∀ op ∈ ops, op.Prompt) → FanOut.taggedSpace [s] = .bounded s.capacity) := by
  intro h s
  have hq : s.Queued := queued_run (.empty capacity) ops
  have hpositive := hq.positive
  have hslots := hq.slots
  have hspace : s.space = s.capacity := space_of_drained hdrained
  have htagged : FanOut.taggedSpace [s] =
      .bounded (min s.capacity (s.tagSlots - s.arriving.length)) := by
    rw [taggedSpace_singleton hlive, hspace]
    rfl
  have hzero : (FanOut.taggedSpace [s]).isZero = true ↔ s.arriving.length = s.tagSlots := by
    rw [htagged]
    simp only [Room.isZero, decide_eq_true_eq]
    omega
  refine ⟨hpositive, ?_, htagged, hzero, fun t ht => hq.late_of_drained hdrained ht,
    fun limit => ⟨?_, ?_⟩, fun more hmore hfull => ?_, fun hops => ?_⟩
  · simp [FanOut.space, FanOut.least, FanOut.live, hspace, show s.detached = false from hlive]
  · exact taggedSpace_of_collected (s := s.collect) hlive hdrained rfl
  · refine taggedSpace_of_collected (s := s.collect.advance _) hlive ?_ rfl
    rw [available_advance]
    have : s.collect.available = 0 := hdrained
    omega
  · refine isZero_taggedSpace_run hmore ?_
    show s.tagSlots - s.arriving.length = 0
    rw [hzero.mp hfull, Nat.sub_self]
  · have hp : s.Punctual := punctual_run (.empty capacity) (fun t ht => by cases ht) hops
    exact taggedSpace_of_collected hlive hdrained (hp.of_drained hq hdrained)

/-- One sample comes and is read, and then as many tags on it as there are slots for. -/
def lateTags : List (Op Nat) :=
  [.push [1] [], .take 1, .push [] (List.replicate 64 ⟨-1, []⟩)]

/-- The stream of `lateTags` before the tags come. -/
def readOnce : Stream Nat := ((Stream.empty 4).pushed [1] []).collect.advance 1

theorem stream_lateTags : ((History.new 4).run lateTags).stream =
    readOnce.pushed [] (List.replicate 64 ⟨-1, []⟩) := by
  have hfirst : (Stream.empty 4).push [1] [] = .ok ((Stream.empty 4).pushed [1] []) :=
    push_eq_ok_iff.mpr ⟨by decide, by simp [acceptedTags], rfl⟩
  have hlate : readOnce.push [] (List.replicate 64 ⟨-1, []⟩) =
      .ok (readOnce.pushed [] (List.replicate 64 ⟨-1, []⟩)) := by
    refine push_eq_ok_iff.mpr ⟨by decide, length_acceptedTags_le.trans ?_, rfl⟩
    decide
  have hread : (((Stream.empty 4).pushed [1] []).take 1).2 = readOnce := rfl
  simp only [lateTags, run, List.foldl_cons, List.foldl_nil, step, new, hfirst, hread, hlate]

theorem length_arriving_lateTags : ((History.new 4).run lateTags).stream.arriving.length = 64 := by
  rw [stream_lateTags]
  show 0 + (readOnce.acceptedTags 0 (List.replicate 64 ⟨-1, []⟩)).length = 64
  rw [length_acceptedTags]
  decide

/-- Nothing is left to read, each of the four samples has a free slot, and the writer is told of no
room. -/
theorem lateTags_stall :
    let s := ((History.new 4).run lateTags).stream
    s.detached = false ∧ s.available = 0 ∧ FanOut.space [s] = .bounded 4 ∧
      (FanOut.taggedSpace [s]).isZero = true := by
  intro s
  have hlive : s.detached = false := by rw [show s = _ from stream_lateTags]; rfl
  have hspace : s.space = 4 := by rw [show s = _ from stream_lateTags]; rfl
  have htags : s.tagSpace = 0 := by
    have hslots : s.tagSlots = 64 := by rw [show s = _ from stream_lateTags]; rfl
    unfold tagSpace
    rw [hslots, show s.arriving.length = 64 from length_arriving_lateTags]
  refine ⟨hlive, ?_, ?_, ?_⟩
  · rw [show s = _ from stream_lateTags]
    rfl
  · simp [FanOut.space, FanOut.least, FanOut.live, hlive, hspace]
  · rw [taggedSpace_singleton hlive, htags, Nat.min_zero]
    rfl

theorem taggedSpace_drained_lateTags :
    let s := ((History.new 4).run lateTags).stream
    s.detached = false ∧ s.available = 0 ∧
      FanOut.taggedSpace [s] = .bounded (min s.capacity (s.tagSlots - s.arriving.length)) ∧
      FanOut.taggedSpace [(s.peek 0).2] = .bounded s.capacity := by
  have hlive : ((History.new 4).run lateTags).stream.detached = false := by
    rw [stream_lateTags]
    rfl
  have hdrained : ((History.new 4).run lateTags).stream.available = 0 := by
    rw [stream_lateTags]
    rfl
  obtain ⟨-, -, htagged, -, -, hread, -⟩ := taggedSpace_drained 4 lateTags hlive hdrained
  exact ⟨hlive, hdrained, htagged, (hread 0).1⟩

end History
end Stream
end Dataflow
