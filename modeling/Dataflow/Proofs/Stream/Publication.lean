import Dataflow.Proofs.Stream.FanOut

/-!
# Publications

A `Publication` is an output with any number of destinations, used by any sequence of operations:
its writer publishes and closes, and each reader looks at its stream, reads, and detaches. It keeps
what was published successfully and what each reader has passed.

Publishing happens to all live destinations or to none, so they agree: what a reader has passed and
what it can still read is what was published, up to the moment it detached
(`Publication.Destination.Agrees`). Whether publishing succeeds is decided before anything is
pushed, and the room an output reports is room that it has (`Publication.run_allOrNone`).
-/

namespace Dataflow

variable {α : Type}

/-- There is room for `n`. -/
def Room.Admits : Room → Nat → Prop
  | bounded m, n => n ≤ m
  | unbounded, _ => True

/-! ### When publishing succeeds -/

namespace FanOut

variable {streams : List (Stream α)} {samples : List α} {tags : List Tag}

theorem publish_eq_ok_iff : (publish streams samples tags).1 = .ok () ↔
    streams = [] ∨ refusal? streams samples tags = none := by
  refine ⟨fun hok => ?_, fun h => by rw [(publish_of_fits h).1]⟩
  by_cases hne : streams = []
  · exact .inl hne
  · cases h : refusal? streams samples tags with
    | none => exact .inr rfl
    | some e =>
      rw [publish_of_refusal hne h] at hok
      cases hok

/-- The room that an output reports to a writer of tagged samples. -/
theorem publish_of_taggedSpace (hspace : (taggedSpace streams).Admits samples.length)
    (htags : tags.length ≤ samples.length) : (publish streams samples tags).1 = .ok () := by
  rw [publish_eq_ok_iff]
  rw [taggedSpace] at hspace
  split at hspace
  next hnil => exact .inl (List.isEmpty_iff.mp hnil)
  next =>
    have hspace' : least (fun s => min s.space s.tagSpace) streams ≤ least Stream.space streams :=
      least_mono fun s => Nat.min_le_left ..
    have htagSpace : least (fun s => min s.space s.tagSpace) streams ≤
        least Stream.tagSpace streams := least_mono fun s => Nat.min_le_right ..
    exact .inr (refusal?_eq_none_iff.mpr
      ⟨Nat.le_trans hspace hspace', htags.trans (Nat.le_trans hspace htagSpace)⟩)

/-- Samples without tags are accepted just when the output reports room for them. -/
theorem publish_untagged_iff :
    (publish streams samples []).1 = .ok () ↔ (space streams).Admits samples.length := by
  rw [publish_eq_ok_iff, refusal?_eq_none_iff, space]
  by_cases hnil : streams = []
  · simp [hnil, Room.Admits]
  · simp [hnil, Room.Admits]

end FanOut

/-! ### Histories of an output -/

namespace Publication

/-- A stream that an output feeds, with the samples its reader has passed. -/
structure Destination (α : Type) where
  stream : Stream α
  passed : List α

/-- What the reader of a stream does. -/
inductive Use where
  | peek (limit : Nat)
  | take (limit : Nat)
  | consume (n : Nat)
  | detach

/-- What is done at an output. Each way to publish has some samples and some tags. -/
inductive Op (α : Type) where
  | publish (samples : List α) (tags : List Tag)
  | close
  | use (destination : Nat) (u : Use)

namespace Destination

/-- The destination after its reader did something. -/
def use (d : Destination α) : Use → Destination α
  | .peek limit => { d with stream := (d.stream.peek limit).2 }
  | .take limit =>
    let (chunk, s) := d.stream.take limit
    ⟨s, d.passed ++ chunk.samples⟩
  | .consume n =>
    match d.stream.consume n with
    | .error _ => d
    | .ok (_, s) => ⟨s, d.passed ++ (d.stream.peek n).1.samples⟩
  | .detach => { d with stream := d.stream.detach }

theorem capacity_use (d : Destination α) (u : Use) :
    (d.use u).stream.capacity = d.stream.capacity := by
  cases u with
  | peek | take | detach => rfl
  | consume n =>
    simp only [use, Stream.consume]
    by_cases hn : d.stream.available < n <;> simp [hn]

/-- What a reader has passed and what it can read is what was published, all of it unless the
reader has detached. -/
structure Agrees (published : List α) (d : Destination α) : Prop where
  isPrefix : d.passed ++ d.stream.unread.toList <+: published
  all : d.stream.detached = false → d.passed ++ d.stream.unread.toList = published
  written : d.stream.written = (d.passed ++ d.stream.unread.toList).length

namespace Agrees
variable {published : List α} {d : Destination α}

theorem new (capacity : Nat) : Agrees [] (⟨Stream.empty capacity, []⟩ : Destination α) :=
  ⟨List.prefix_rfl, fun _ => rfl, rfl⟩

/-- Passing the next samples does not change what was passed or is unread. -/
theorem advance (h : Agrees published d) (n : Nat) :
    Agrees published
      ⟨d.stream.collect.advance n, d.passed ++ d.stream.unread.toList.take n⟩ := by
  have hsame : d.passed ++ d.stream.unread.toList.take n ++
      (d.stream.collect.advance n).unread.toList = d.passed ++ d.stream.unread.toList := by
    simp [List.append_assoc]
  exact ⟨by rw [hsame]; exact h.isPrefix, fun hd => by rw [hsame]; exact h.all hd,
    by rw [hsame]; exact h.written⟩

theorem use (h : Agrees published d) (u : Use) : Agrees published (d.use u) := by
  cases u with
  | peek limit => exact ⟨h.isPrefix, h.all, h.written⟩
  | take limit =>
    have := h.advance (min limit d.stream.available)
    simpa [Destination.use, Stream.take, Stream.available] using this
  | consume n =>
    simp only [Destination.use, Stream.consume]
    by_cases hn : d.stream.available < n
    · simpa only [hn, if_true] using h
    · have hpeek : (d.stream.peek n).1.samples = d.stream.unread.toList.take n := by
        simp only [Stream.available] at hn
        simp [Stream.peek, Stream.available, Nat.min_eq_left (Nat.not_lt.mp hn)]
      simp only [hn, if_false, hpeek]
      exact h.advance n
  | detach => exact ⟨h.isPrefix, fun hd => (by cases hd), h.written⟩

theorem close (h : Agrees published d) :
    Agrees published { d with stream := d.stream.close } := ⟨h.isPrefix, h.all, h.written⟩

theorem receive (h : Agrees published d) (samples : List α) (tags : List Tag) :
    Agrees (published ++ samples) { d with stream := d.stream.receive ⟨samples, tags⟩ } := by
  cases hd : d.stream.detached with
  | true =>
    rw [Stream.receive, hd]
    exact ⟨h.isPrefix.trans (List.prefix_append ..), fun hlive => by simp [hd] at hlive, h.written⟩
  | false =>
    have hall := h.all hd
    have hnow : d.passed ++ (d.stream.pushed samples tags).unread.toList =
        published ++ samples := by
      rw [Stream.toList_unread_pushed, ← List.append_assoc, hall]
    have hwritten := h.written
    rw [hall] at hwritten
    rw [Stream.receive, hd]
    exact ⟨hnow ▸ List.prefix_rfl, fun _ => hnow,
      (congrArg (· + samples.length) hwritten).trans
        ((congrArg List.length hnow).trans List.length_append).symm⟩

end Agrees
end Destination

end Publication

/-- An output with the streams it feeds and all samples it has published. -/
structure Publication (α : Type) where
  destinations : List (Publication.Destination α)
  published : List α

namespace Publication

/-- An output that feeds new streams. -/
def new (capacities : List Nat) : Publication α :=
  ⟨capacities.map fun capacity => ⟨Stream.empty capacity, []⟩, []⟩

def streams (p : Publication α) : List (Stream α) := p.destinations.map (·.stream)

/-- The streams after something was done to them. -/
def setStreams (p : Publication α) (streams : List (Stream α)) : Publication α :=
  { p with destinations := p.destinations.zipWith (fun d s => { d with stream := s }) streams }

/-- Perform an operation. -/
def step (p : Publication α) : Op α → Publication α
  | .publish samples tags =>
    let (result, streams) := FanOut.publish p.streams samples tags
    match result with
    | .ok () => { p.setStreams streams with published := p.published ++ samples }
    | .error _ => p.setStreams streams
  | .close => p.setStreams (p.streams.map Stream.close)
  | .use i u => { p with destinations := p.destinations.modify i (·.use u) }

/-- Perform operations one after the other. -/
def run (p : Publication α) (ops : List (Op α)) : Publication α := ops.foldl step p

/-- All destinations agree with what was published. -/
def Agrees (p : Publication α) : Prop := ∀ d ∈ p.destinations, d.Agrees p.published

theorem setStreams_map (p : Publication α) (f : Stream α → Stream α) :
    p.setStreams (p.streams.map f) =
      { p with destinations := p.destinations.map fun d => { d with stream := f d.stream } } := by
  simp [setStreams, streams, List.zipWith_map_right, List.zipWith_self]

theorem streams_setStreams_map (p : Publication α) (f : Stream α → Stream α) :
    (p.setStreams (p.streams.map f)).streams = p.streams.map f := by
  rw [setStreams_map]
  simp [streams]

theorem setStreams_streams (p : Publication α) : p.setStreams p.streams = p := by
  simpa using p.setStreams_map id

theorem Agrees.step {p : Publication α} (h : p.Agrees) (op : Op α) : (p.step op).Agrees := by
  cases op with
  | publish samples tags =>
    rw [Publication.step]
    rcases FanOut.publish_exact p.streams samples tags with ⟨e, -, hrefused⟩ | ⟨hreceived, -⟩
    · simp only [hrefused, setStreams_streams]
      exact h
    · simp only [hreceived, setStreams_map]
      intro d hd
      obtain ⟨d', hd', rfl⟩ := List.mem_map.mp hd
      exact (h d' hd').receive samples tags
  | close =>
    rw [Publication.step, setStreams_map]
    intro d hd
    obtain ⟨d', hd', rfl⟩ := List.mem_map.mp hd
    exact (h d' hd').close
  | use i u =>
    intro d hd
    obtain ⟨j, hj, rfl⟩ := List.mem_iff_getElem.mp hd
    simp only [Publication.step, List.getElem_modify]
    split
    · exact (h _ (List.getElem_mem _)).use u
    · exact h _ (List.getElem_mem _)

theorem Agrees.run {p : Publication α} (h : p.Agrees) (ops : List (Op α)) : (p.run ops).Agrees := by
  induction ops generalizing p with
  | nil => exact h
  | cons op ops ih => exact ih (h.step op)

theorem Agrees.new (capacities : List Nat) : (new capacities : Publication α).Agrees := by
  intro d hd
  obtain ⟨capacity, -, rfl⟩ := List.mem_map.mp hd
  exact .new capacity

/-- The destinations stay the ones that the output was given. -/
theorem capacities_step (p : Publication α) (op : Op α) :
    (p.step op).streams.map Stream.capacity = p.streams.map Stream.capacity := by
  have hreceive : ∀ (chunk : Chunk α) (s : Stream α), (s.receive chunk).capacity = s.capacity :=
    fun chunk s => by rw [Stream.receive]; split <;> rfl
  have hmap : ∀ f : Stream α → Stream α, (∀ s, (f s).capacity = s.capacity) →
      (p.setStreams (p.streams.map f)).streams.map Stream.capacity =
        p.streams.map Stream.capacity := fun f hf => by
    rw [streams_setStreams_map, List.map_map]
    exact List.map_congr_left fun s _ => hf s
  cases op with
  | publish samples tags =>
    rw [Publication.step]
    rcases FanOut.publish_exact p.streams samples tags with ⟨e, -, hrefused⟩ | ⟨hreceived, -⟩
    · simp only [hrefused, setStreams_streams]
    · simp only [hreceived]
      exact hmap _ (hreceive _)
  | close => exact hmap _ fun _ => rfl
  | use i u =>
    refine List.ext_getElem (by simp [Publication.step, streams]) fun j _ _ => ?_
    simp only [Publication.step, streams, List.map_map, List.getElem_map, List.getElem_modify,
      Function.comp_apply]
    split
    · rw [Destination.capacity_use]
    · rfl

theorem capacities_run (p : Publication α) (ops : List (Op α)) :
    (p.run ops).streams.map Stream.capacity = p.streams.map Stream.capacity := by
  induction ops generalizing p with
  | nil => rfl
  | cons op ops ih => exact (ih (p.step op)).trans (p.capacities_step op)

/-- However an output is used, its live destinations agree with what was published, and every
other has a prefix of it. Publishing is refused up front and changes nothing, or each live
destination receives the chunk and no other changes; no single push fails. It is accepted wherever
the output reports room for it. -/
theorem run_allOrNone (capacities : List Nat) (ops : List (Op α)) :
    let p := (new capacities).run ops
    p.streams.map Stream.capacity = capacities.map (max · 1) ∧
    (∀ d ∈ p.destinations, d.passed ++ d.stream.unread.toList <+: p.published ∧
      (d.stream.detached = false → d.passed ++ d.stream.unread.toList = p.published ∧
        d.stream.written = p.published.length)) ∧
    ∀ samples tags,
      ((∃ e, FanOut.refusal? p.streams samples tags = some e ∧
          FanOut.publish p.streams samples tags = (.error e, p.streams)) ∨
        (FanOut.publish p.streams samples tags =
            (.ok (), p.streams.map (Stream.receive ⟨samples, tags⟩)) ∧
          ∀ s ∈ p.streams, s.detached = false →
            s.push samples tags = .ok (s.receive ⟨samples, tags⟩))) ∧
      ((FanOut.taggedSpace p.streams).Admits samples.length → tags.length ≤ samples.length →
        (FanOut.publish p.streams samples tags).1 = .ok ()) ∧
      ((FanOut.publish p.streams samples []).1 = .ok () ↔
        (FanOut.space p.streams).Admits samples.length) := by
  intro p
  have hp : p.Agrees := (Agrees.new capacities).run ops
  have hcapacities := capacities_run (new capacities) ops
  refine ⟨hcapacities.trans (by simp [new, streams, Stream.empty]),
    fun d hd => ⟨(hp d hd).isPrefix, fun hlive => ?_⟩,
    fun samples tags => ⟨FanOut.publish_exact p.streams samples tags,
      FanOut.publish_of_taggedSpace, FanOut.publish_untagged_iff⟩⟩
  have hall := (hp d hd).all hlive
  exact ⟨hall, hall ▸ (hp d hd).written⟩

end Publication
end Dataflow
