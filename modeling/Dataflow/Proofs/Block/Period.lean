import Dataflow.Proofs.Block.Signal
import Dataflow.Proofs.Stream.Chunk
import Mathlib.Data.Nat.ModEq

/-!
# Data that repeats

The data of a vector source with its tags, again and again, is a signal (`VectorSource.rounds`).
What the source publishes in one go is a chunk of it (`nextChunk_eq_chunk`), even if the source does
not repeat. Chunks of a signal join to one (`Signal.chunk_append`), and here it does not matter in
which round a chunk begins (`chunk_rounds_congr`).

A chunk can be made up by a loop that copies segments of the data, from the position to the end of
the data or of the chunk, and selects the tags between the ends of the segment (`copyLoop`). The
obvious measure, the number of samples that are missing, does not decrease with each pass: the loop
copies nothing when it begins at the end of the data, and only a source that repeats gets away from
there. The invariant `Copying` says so, and with it the loop ends with the next chunk
(`exists_copyLoop_eq`).
-/

namespace Dataflow

open Tag

namespace Signal

variable {S : Signal} {a b n m k : Nat}

/-- A chunk and the next one. -/
theorem chunk_append (h : S.Covers (a + n)) :
    (S.chunk a n).append (S.chunk (a + n) m) = S.chunk a (n + m) := by
  rw [Chunk.append, length_chunk h]
  simp only [chunk, samples_append, tags_append, List.map_append, List.map_map]
  congr 2
  refine List.map_congr_left fun t _ => ?_
  rw [Function.comp_apply, shift_shift]
  congr 1
  omega

theorem chunk_congr (h : ∀ i, S (a + i) = S (b + i)) : S.chunk a n = S.chunk b n := by
  have hsamples : S.samples a n = S.samples b n := by
    simp only [samples, List.range'_eq_map_range, List.filterMap_map, Function.comp_def, h]
  have htags : (S.chunk a n).tags = (S.chunk b n).tags := by
    simp only [chunk_tags, tagsAt, h]
  exact congrArg₂ Chunk.mk hsamples htags

theorem getElem?_samples (h : S.Covers (a + n)) (hk : k < n) :
    (S.chunk a n).samples[k]? = (S (a + k)).map Prod.fst := by
  obtain ⟨item, hitem⟩ := Option.isSome_iff_exists.mp (h (a + k) (by omega))
  obtain ⟨j, rfl⟩ := Nat.exists_eq_add_of_lt hk
  have hlength : (S.samples a k).length = k := length_samples (h.mono (by omega))
  show (S.samples a (k + j + 1))[k]? = _
  rw [Nat.add_assoc, samples_append, List.getElem?_append_right hlength.le, hlength, Nat.sub_self]
  simp [samples, List.range', hitem]

theorem on_tags_chunk : on k (S.chunk a n).tags =
    if k < n then (S.tagsAt (a + k)).map fun m => ⟨k, m⟩ else [] := by
  have hplaced : ∀ (i : Nat) (maps : List PropertyMap), on k (maps.map fun m => ⟨(i : Int), m⟩) =
      if k = i then maps.map fun m => ⟨(k : Int), m⟩ else [] := fun i maps => by
    simp only [on, List.filter_map, Function.comp_def]
    by_cases hi : k = i
    · simp [hi]
    · have : ¬ (i : Int) = k := by omega
      simp [hi, this]
  simp only [chunk_tags]
  induction n with
  | zero => rfl
  | succ n ih =>
    rw [List.range_succ, List.flatMap_append, List.flatMap_singleton, on_append, ih, hplaced]
    rcases lt_trichotomy k n with hk | rfl | hk
    · rw [if_pos hk, if_neg hk.ne, if_pos (by omega), List.append_nil]
    · rw [if_neg (Nat.lt_irrefl k), if_pos rfl, if_pos (Nat.lt_succ_self k), List.nil_append]
    · rw [if_neg (by omega), if_neg (by omega), if_neg (by omega), List.append_nil]

theorem within_tags_chunk : Within n (S.chunk a n).tags :=
  ⟨List.pairwise_map.mpr (ordered_tags.imp fun h => by
    rw [shift_index, shift_index]
    omega), fun _ ht => mem_chunk_tags ht⟩

end Signal

namespace VectorSource

variable {data : List Sample} {tags : List Tag} {p q n m : Nat}

/-- Data with the tags on each sample, again and again. -/
def rounds (data : List Sample) (tags : List Tag) : Signal := fun k =>
  data[k % data.length]?.map fun x => (x, (on (k % data.length : Nat) tags).map Tag.map)

theorem rounds_eq (hne : data ≠ []) (tags : List Tag) (k : Nat) : ∃ x,
    data[k % data.length]? = some x ∧
      rounds data tags k = some (x, (on (k % data.length : Nat) tags).map Tag.map) := by
  have hlt : k % data.length < data.length := Nat.mod_lt _ (List.length_pos_iff.mpr hne)
  refine ⟨_, List.getElem?_eq_getElem hlt, ?_⟩
  rw [rounds, List.getElem?_eq_getElem hlt]
  rfl

theorem covers_rounds (hne : data ≠ []) (tags : List Tag) (n : Nat) :
    (rounds data tags).Covers n := fun k _ => by
  obtain ⟨x, -, hx⟩ := rounds_eq hne tags k
  rw [hx]
  rfl

theorem tagsAt_rounds (hne : data ≠ []) (tags : List Tag) (k : Nat) :
    (rounds data tags).tagsAt k = (on (k % data.length : Nat) tags).map Tag.map := by
  obtain ⟨x, -, hx⟩ := rounds_eq hne tags k
  rw [Signal.tagsAt, hx]
  rfl

/-- It does not matter in which round a chunk begins. -/
theorem chunk_rounds_congr (h : p ≡ q [MOD data.length]) (tags : List Tag) (n : Nat) :
    (rounds data tags).chunk p n = (rounds data tags).chunk q n :=
  Signal.chunk_congr fun i => by
    have hmod : (p + i) % data.length = (q + i) % data.length := h.add_right i
    rw [rounds, rounds, hmod]

theorem rounds_mergeSort (data : List Sample) (tags : List Tag) :
    rounds data (tags.mergeSort precedes) = rounds data tags := by
  funext k
  rw [rounds, rounds, on_mergeSort]

/-! ### Chunks -/

variable {b : VectorSource}

/-- The next chunk is the part of the rounds that begins at the position. -/
theorem nextChunk_eq_chunk (hround : b.round = roundOf data tags) (hne : data ≠ []) (n : Nat) :
    (b.nextChunk n).1 = (rounds data tags).chunk b.position n := by
  show toChunk (b.upcoming n) = _
  induction n with
  | zero => rfl
  | succ n ih =>
    obtain ⟨x, hx, hitem⟩ := rounds_eq hne tags (b.position + n)
    have hlen : (b.upcoming n).length = n := by
      have := congrArg (fun c => c.samples.length) ih
      simpa [toChunk, Signal.length_chunk (covers_rounds hne tags _)] using this
    have hnext : b.upcoming (n + 1) =
        b.upcoming n ++ [(x, on ((b.position + n) % data.length : Nat) tags)] := by
      have hitem : b.round[(b.position + n) % b.round.size]? =
          some (x, on ((b.position + n) % data.length : Nat) tags) := by
        rw [hround, size_roundOf, getElem?_roundOf, hx]
        rfl
      simp only [upcoming, List.range_succ, List.filterMap_append, List.filterMap_cons,
        List.filterMap_nil, hitem]
    rw [hnext, toChunk_append, ih, hlen, Signal.chunk_succ hitem, List.map_map]
    rfl

/-- The tags from position `p` up to position `q`, which is left out. -/
def between (p q : Nat) (tags : List Tag) : List Tag :=
  tags.filter fun t => decide ((p : Int) ≤ t.index) && decide (t.index < (q : Int))

/-- One pass of the loop that makes up a chunk of `n` samples: it copies on to the end of the chunk
or of the data. -/
def copySegment (n : Nat) (chunk : Chunk Sample) (b : VectorSource) : Chunk Sample × VectorSource :=
  let start := b.position
  let stop := min (start + n - chunk.samples.length) b.data.length
  let offset : Int := chunk.samples.length - start
  (⟨chunk.samples ++ (b.data.take stop).drop start,
      chunk.tags ++ (between start stop b.tags).map (·.shift offset)⟩,
    { b with position := if stop = b.data.length ∧ b.repeating then 0 else stop })

/-- The chunk and the source once the loop ends, if it ends within so many passes. -/
def copyLoop (n : Nat) : Nat → Chunk Sample → VectorSource → Option (Chunk Sample × VectorSource)
  | 0, chunk, b => if n ≤ chunk.samples.length then some (chunk, b) else none
  | fuel + 1, chunk, b =>
    if n ≤ chunk.samples.length then some (chunk, b)
    else copyLoop n fuel (b.copySegment n chunk).1 (b.copySegment n chunk).2

theorem between_self (p : Nat) (tags : List Tag) : between p p tags = [] :=
  List.filter_eq_nil_iff.mpr fun t _ => by simp

theorem between_succ (h : Ordered tags) (hq : p ≤ q) :
    between p (q + 1) tags = between p q tags ++ on q tags := by
  unfold between
  refine Ordered.ext (h.sublist List.filter_sublist) ?_ fun k => ?_
  · refine List.pairwise_append.mpr ⟨h.sublist List.filter_sublist,
      h.sublist List.filter_sublist, fun t ht u hu => ?_⟩
    simp only [on, List.mem_filter, Bool.and_eq_true, decide_eq_true_eq] at ht hu
    omega
  · have hon : on k (on q tags) = if k = q then on k tags else [] := by
      have := on_filter k (fun i => decide (i = (q : Int))) tags
      simpa [on] using this
    rw [on_append, hon,
      on_filter k fun i => decide ((p : Int) ≤ i) && decide (i < ((q + 1 : Nat) : Int)),
      on_filter k fun i => decide ((p : Int) ≤ i) && decide (i < (q : Int))]
    simp only [Bool.and_eq_true, decide_eq_true_eq]
    rcases lt_trichotomy k q with hk | hk | hk
    · rw [if_neg (by omega : ¬ k = q), List.append_nil]
      congr 1
      simp only [eq_iff_iff]
      omega
    · rw [if_pos (by omega), if_neg (by omega), if_pos hk, List.nil_append]
    · rw [if_neg (by omega), if_neg (by omega), if_neg (by omega), List.nil_append]

/-- A segment of the data, as the loop copies it, is a chunk of the rounds. -/
theorem segment_eq (hne : data ≠ []) (h : Ordered tags) (p m : Nat) (hle : p + m ≤ data.length) :
    (data.take (p + m)).drop p = ((rounds data tags).chunk p m).samples ∧
      (between p (p + m) tags).map (·.shift (-(p : Int))) =
        ((rounds data tags).chunk p m).tags := by
  induction m with
  | zero =>
    rw [Nat.add_zero, between_self]
    exact ⟨by simp [Signal.chunk, Signal.samples], rfl⟩
  | succ m ih =>
    obtain ⟨hsamples, htags⟩ := ih (by omega)
    obtain ⟨x, hx, hitem⟩ := rounds_eq hne tags (p + m)
    have hmod : (p + m) % data.length = p + m := Nat.mod_eq_of_lt (by omega)
    rw [hmod] at hx hitem
    rw [Signal.chunk_succ hitem, ← hsamples, ← htags, ← Nat.add_assoc]
    constructor
    · rw [List.take_add_one, List.drop_append_of_le_length (by simp; omega), hx]
      rfl
    · rw [between_succ h (Nat.le_add_right p m), List.map_append, List.map_map]
      congr 1
      refine List.map_congr_left fun t ht => ?_
      have hindex : t.index = (p + m : Nat) := by simpa [on] using (List.mem_filter.mp ht).2
      simp only [Function.comp_apply, Tag.shift, hindex]
      congr 1
      omega

theorem copySegment_eq (hne : b.data ≠ []) (h : Ordered b.tags)
    (hle : b.position ≤ b.data.length) {chunk : Chunk Sample} (hn : chunk.samples.length ≤ n) :
    let m := min (n - chunk.samples.length) (b.data.length - b.position)
    b.copySegment n chunk = (chunk.append ((rounds b.data b.tags).chunk b.position m),
      { b with position :=
          if b.position + m = b.data.length ∧ b.repeating then 0 else b.position + m }) := by
  intro m
  have hstop : min (b.position + n - chunk.samples.length) b.data.length = b.position + m := by
    omega
  have hstays : b.position + m ≤ b.data.length := by omega
  obtain ⟨hsamples, htags⟩ := segment_eq hne h b.position m hstays
  have hshift : ∀ t : Tag, t.shift ((chunk.samples.length : Int) - b.position) =
      (t.shift (-(b.position : Int))).shift chunk.samples.length := fun t => by
    rw [shift_shift]
    congr 1
    omega
  rw [copySegment, hstop, Chunk.append, ← hsamples, ← htags, List.map_map]
  refine Prod.ext (congrArg (Chunk.mk _) (congrArg (chunk.tags ++ ·) ?_)) rfl
  exact List.map_congr_left fun t _ => hshift t

/-- The loop that makes up a chunk of `n` samples from position `p` on has copied `k` of them and
come to position `q`. -/
structure Copying (b : VectorSource) (p n k q : Nat) : Prop where
  le : k ≤ n
  within : q ≤ b.data.length
  repeating : b.repeating = true → q ≡ p + k [MOD b.data.length] ∧ (q < b.data.length ∨ k = 0)
  once : b.repeating = false → q = p + k ∧ p + n ≤ b.data.length

namespace Copying

variable {k : Nat}

theorem start (hp : p ≤ b.data.length) (honce : b.repeating = false → p + n ≤ b.data.length) :
    Copying b p n 0 p :=
  ⟨Nat.zero_le n, hp, fun _ => ⟨rfl, .inr rfl⟩, fun h => ⟨rfl, honce h⟩⟩

theorem modEq (h : Copying b p n k q) : q ≡ p + k [MOD b.data.length] := by
  cases hrep : b.repeating with
  | true => exact (h.repeating hrep).1
  | false => rw [(h.once hrep).1]

/-- Where the loop ends. -/
theorem position_eq (h : Copying b p n n q) (hn : 0 < n) :
    q = if b.repeating then (p + n) % b.data.length else p + n := by
  cases hrep : b.repeating with
  | true =>
    obtain ⟨hmod, hlt⟩ := h.repeating hrep
    exact (Nat.mod_eq_of_modEq hmod.symm (hlt.resolve_right hn.ne')).symm
  | false => exact (h.once hrep).1

/-- What one pass does. -/
theorem pass (h : Copying b p n k q) (hne : b.data ≠ []) :
    let m := min (n - k) (b.data.length - q)
    Copying b p n (k + m) (if q + m = b.data.length ∧ b.repeating then 0 else q + m) := by
  intro m
  have hpos := List.length_pos_iff.mpr hne
  have hle := h.le
  have hwithin := h.within
  have hmod : q + m ≡ p + (k + m) [MOD b.data.length] := by
    rw [← Nat.add_assoc]
    exact h.modEq.add_right m
  refine ⟨by omega, ?_, fun hrep => ?_, fun hrep => ?_⟩
  · split
    · exact Nat.zero_le _
    · omega
  · by_cases hend : q + m = b.data.length
    · rw [if_pos ⟨hend, hrep⟩]
      refine ⟨?_, .inl hpos⟩
      rw [hend] at hmod
      exact (Nat.modEq_zero_iff_dvd.mpr (Nat.dvd_refl _)).symm.trans hmod
    · rw [if_neg fun h => hend h.1]
      exact ⟨hmod, .inl (by omega)⟩
  · obtain ⟨hq, hn⟩ := h.once hrep
    rw [if_neg fun h => by simp [hrep] at h]
    exact ⟨by omega, hn⟩

end Copying

/-- The loop ends: it copies some samples with each pass, except with the first if that begins at
the end of the data. -/
theorem copyLoop_eq (hne : b.data ≠ []) (hordered : Ordered b.tags) (hn : 0 < n) {k : Nat}
    (h : Copying b p n k q) (fuel : Nat)
    (hfuel : n - k + (if q = b.data.length ∧ b.repeating then 1 else 0) ≤ fuel) :
    copyLoop n fuel ((rounds b.data b.tags).chunk p k) { b with position := q } =
      some ((rounds b.data b.tags).chunk p n,
        { b with position := if b.repeating then (p + n) % b.data.length else p + n }) := by
  have hlength : ((rounds b.data b.tags).chunk p k).samples.length = k :=
    Signal.length_chunk (covers_rounds hne b.tags _)
  induction fuel generalizing k q with
  | zero =>
    obtain rfl : k = n := by
      have := h.le
      omega
    rw [copyLoop, hlength, if_pos (Nat.le_refl k), ← h.position_eq hn]
  | succ fuel ih =>
    rw [copyLoop, hlength]
    by_cases hk : n ≤ k
    · obtain rfl : k = n := Nat.le_antisymm h.le hk
      rw [if_pos hk, ← h.position_eq hn]
    · have hpos := List.length_pos_iff.mpr hne
      have hle := h.within
      have hsegment := copySegment_eq (b := { b with position := q }) hne hordered hle
        (hlength.trans_le h.le)
      simp only [hlength] at hsegment
      rw [if_neg hk, hsegment, chunk_rounds_congr h.modEq,
        Signal.chunk_append (covers_rounds hne b.tags _)]
      refine ih (h.pass hne) ?_ (Signal.length_chunk (covers_rounds hne b.tags _))
      cases hrep : b.repeating with
      | true =>
        simp only [hrep, and_true] at hfuel ⊢
        split_ifs at hfuel ⊢ <;> omega
      | false =>
        obtain ⟨hq, hp⟩ := h.once hrep
        simp only [hrep, Bool.false_eq_true, and_false, if_false] at hfuel ⊢
        omega

/-- The loop makes up the next chunk, and ends. -/
theorem exists_copyLoop_eq (hround : b.round = roundOf b.data b.tags) (hne : b.data ≠ [])
    (hordered : Ordered b.tags) (hp : b.position ≤ b.data.length) (hn : 0 < n)
    (honce : b.repeating = false → b.position + n ≤ b.data.length) :
    ∃ fuel, copyLoop n fuel .empty b = some (b.nextChunk n) := by
  refine ⟨n + 1, ?_⟩
  have hloop := copyLoop_eq hne hordered hn (Copying.start hp honce) (n + 1)
    (by split <;> omega)
  rw [← nextChunk_eq_chunk hround hne n] at hloop
  have hsize : b.round.size = b.data.length := by rw [hround, size_roundOf]
  rw [show b.nextChunk n = ((b.nextChunk n).1, _) from rfl, hsize]
  exact hloop

end VectorSource
end Dataflow
