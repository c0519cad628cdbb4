import Dataflow.Block.Builtin
import Dataflow.Proofs.Stream.Signal

/-!
# Signals of blocks

The signal that a built-in block makes of the signal at its input (`Builtin.signal`), and the chunks
that sources publish, which are chunks of their signals (`VectorSource.nextChunk_eq`).
-/

namespace Dataflow

/-- The data with the tags on each sample, once or again and again. -/
def VectorSource.signal (b : VectorSource) : Signal := fun k =>
  let i := if b.repeating then k % b.data.length else k
  b.data[i]?.map fun x => (x, (b.tags.filter fun t => decide (t.index = (i : Int))).map Tag.map)

/-- What a block makes of the signal at its input. A sink makes none. -/
def Builtin.signal (b : Builtin) (input : Signal) : Signal :=
  match b with
  | nullSource b => fun _ => some (b.type.zero, [])
  | vectorSource b => b.signal
  | copy _ => input
  | tagGate _ => input.untagged
  | head b => input.upTo b.numItems.toNat
  | nullSink _ | vectorSink _ => .empty

/-! ### Chunks of changed signals -/

namespace Signal

variable {S : Signal} {a n m : Nat}

theorem chunk_tags : (S.chunk a n).tags =
    (List.range n).flatMap fun i => (S.tagsAt (a + i)).map fun m => ⟨i, m⟩ := by
  rw [chunk, tags, List.range'_eq_map_range, List.flatMap_map, List.map_flatMap]
  refine List.flatMap_congr fun i _ => ?_
  rw [List.map_map]
  refine List.map_congr_left fun m _ => ?_
  have hindex : ((a + i : Nat) : Int) + -(a : Int) = i := by omega
  simp only [Function.comp_apply, Tag.shift, hindex]

theorem chunk_succ {x : Sample} {maps : List PropertyMap} (h : S (a + n) = some (x, maps)) :
    S.chunk a (n + 1) = ⟨(S.chunk a n).samples ++ [x],
      (S.chunk a n).tags ++ maps.map fun m => ⟨n, m⟩⟩ := by
  have hsamples : S.samples a (n + 1) = S.samples a n ++ [x] := by
    rw [samples_append]
    simp [samples, h]
  have htags : (S.chunk a (n + 1)).tags = (S.chunk a n).tags ++ maps.map fun m => ⟨n, m⟩ := by
    rw [chunk_tags, chunk_tags, List.range_succ, List.flatMap_append, List.flatMap_singleton,
      tagsAt, h]
    rfl
  rw [← htags, chunk, hsamples]
  rfl

theorem chunk_untagged : S.untagged.chunk a n = ⟨(S.chunk a n).samples, []⟩ := by
  have htags : (S.untagged.chunk a n).tags = [] := by
    rw [chunk_tags, List.flatMap_eq_nil_iff]
    intro i _
    cases h : S (a + i) <;> simp [tagsAt, untagged, h]
  have hsamples : S.untagged.samples a n = S.samples a n := by
    simp [samples, untagged, Function.comp_def]
  rw [← htags, chunk, hsamples]
  rfl

theorem chunk_upTo (h : a + n ≤ m) : (S.upTo m).chunk a n = S.chunk a n := by
  have hmem : ∀ k ∈ List.range' a n, S.upTo m k = S k := fun k hk => by
    rw [List.mem_range'_1] at hk
    exact if_pos (by omega)
  have hsamples : (S.upTo m).samples a n = S.samples a n :=
    List.filterMap_congr fun k hk => by rw [hmem k hk]
  have htags : (S.upTo m).tags a n = S.tags a n :=
    List.flatMap_congr fun k hk => by rw [tagsAt, hmem k hk, tagsAt]
  rw [chunk, hsamples, htags, chunk]

theorem Covers.untagged (h : S.Covers n) : S.untagged.Covers n := fun k hk => by
  simpa [Signal.untagged] using h k hk

theorem Covers.upTo (h : S.Covers n) (hn : n ≤ m) : (S.upTo m).Covers n := fun k hk => by
  rw [Signal.upTo, if_pos (by omega)]
  exact h k hk

theorem Covers.endsAt_upTo (h : (S.upTo m).Covers n) (hn : m ≤ n) : (S.upTo m).EndsAt n := by
  refine fun k => ⟨fun hk => ?_, h k⟩
  simp only [Signal.upTo] at hk
  split at hk
  next hlt => omega
  next => cases hk

end Signal

/-! ### Ends -/

namespace Signal

variable {S : Signal} {n m : Nat}

theorem endsAt_empty : empty.EndsAt 0 := by
  intro k
  simp [empty]

theorem EndsAt.untagged (h : S.EndsAt n) : S.untagged.EndsAt n := by
  intro k
  rw [← h k, Signal.untagged, Option.isSome_map]

theorem EndsAt.upTo (h : S.EndsAt n) : (S.upTo m).EndsAt (min n m) := by
  intro k
  rw [Signal.upTo]
  split
  next hk =>
    rw [h k]
    omega
  next hk =>
    have hmin : ¬ k < min n m := by omega
    simp [hmin]

theorem endsAt_upTo (h : ∀ k, (S k).isSome = true) : (S.upTo m).EndsAt m := by
  intro k
  rw [upTo]
  split
  next hk => simp [h k, hk]
  next hk => simp [hk]

end Signal

/-! ### Null source -/

theorem chunk_nullSource (b : NullSource) (a n : Nat) :
    Signal.chunk (fun _ => some (b.type.zero, [])) a n = ⟨List.replicate n b.type.zero, []⟩ := by
  have htags : (Signal.chunk (fun _ => some (b.type.zero, [])) a n).tags = [] := by
    rw [Signal.chunk_tags, List.flatMap_eq_nil_iff]
    intro i _
    rfl
  have hsamples : Signal.samples (fun _ => some (b.type.zero, [])) a n =
      List.replicate n b.type.zero := by
    simp [Signal.samples, List.filterMap_eq_map', List.map_const']
  rw [← htags, Signal.chunk, hsamples]

/-! ### Vector source -/

namespace VectorSource

variable {data : List Sample} {tags : List Tag} {b : VectorSource} {p n : Nat}

/-- Each sample of a round comes with the tags on it. -/
theorem getElem?_roundOf (i : Nat) : (roundOf data tags)[i]? =
    data[i]?.map fun x => (x, tags.filter fun t => decide (t.index = (i : Int))) := by
  induction tags with
  | nil => simp [roundOf]
  | cons t tags ih =>
    rw [roundOf, List.foldr_cons, ← roundOf, attach]
    split
    next hneg =>
      have hne : ¬ t.index = (i : Int) := by omega
      simp [ih, hne]
    next hpos =>
      rw [Array.getElem?_modify, ih]
      by_cases hi : t.index = (i : Int)
      · have : t.index.toNat = i := by omega
        cases data[i]? <;> simp [hi]
      · have : ¬ t.index.toNat = i := by omega
        simp [hi, this]

theorem size_roundOf : (roundOf data tags).size = data.length := by
  induction tags with
  | nil => simp [roundOf]
  | cons t tags ih =>
    rw [roundOf, List.foldr_cons, ← roundOf, attach]
    split
    · exact ih
    · rw [Array.size_modify, ih]

/-- What a source publishes at a position: a sample of its round. -/
def item (b : VectorSource) (k : Nat) : Option (Sample × List Tag) :=
  (roundOf b.data b.tags)[if b.repeating then k % b.data.length else k]?

theorem signal_eq (b : VectorSource) (k : Nat) :
    b.signal k = (b.item k).map fun (x, tags) => (x, tags.map Tag.map) := by
  rw [signal, item, getElem?_roundOf, Option.map_map]
  rfl

theorem endsAt_signal (h : b.repeating = false ∨ b.data = []) :
    b.signal.EndsAt b.data.length := by
  intro k
  rw [signal, Option.isSome_map]
  rcases h with hrep | hempty
  · simp [hrep]
  · simp [hempty]

theorem isSome_signal (hrep : b.repeating = true) (hne : b.data ≠ []) (k : Nat) :
    (b.signal k).isSome = true := by
  have hpos := List.length_pos_iff.mpr hne
  rw [signal, Option.isSome_map]
  simpa [hrep] using Nat.mod_lt k hpos

/-- A source that has published `p` samples since it was started. -/
structure At (b : VectorSource) (p : Nat) : Prop where
  round : b.round = roundOf b.data b.tags
  position : b.position = if b.repeating then p % b.data.length else p
  le : b.repeating = false → p ≤ b.data.length

/-- The next samples are those of the signal. -/
theorem upcoming_eq (h : b.At p) (hn : b.signal.Covers (p + n)) :
    b.upcoming n = (List.range n).filterMap fun i => b.item (p + i) := by
  refine List.filterMap_congr fun i hi => ?_
  have hi := List.mem_range.mp hi
  rw [h.round, size_roundOf, h.position, item]
  cases hrep : b.repeating with
  | true => simp
  | false =>
    have hcover := hn (p + i) (by omega)
    simp only [signal, hrep, Option.isSome_map, Bool.false_eq_true, if_false] at hcover ⊢
    rw [Nat.mod_eq_of_lt]
    simpa using hcover

theorem toChunk_append (items : List (Sample × List Tag)) (item : Sample × List Tag) :
    toChunk (items ++ [item]) = ⟨(toChunk items).samples ++ [item.1],
      (toChunk items).tags ++ item.2.map fun t => { t with index := items.length }⟩ := by
  simp [toChunk, List.zipIdx_append]

theorem nextChunk_eq (h : b.At p) (hn : b.signal.Covers (p + n)) :
    (b.nextChunk n).1 = b.signal.chunk p n := by
  show toChunk (b.upcoming n) = b.signal.chunk p n
  rw [upcoming_eq h hn]
  induction n with
  | zero => rfl
  | succ n ih =>
    have hprefix := ih (hn.mono (by omega))
    have hlen := congrArg (fun c => c.samples.length) hprefix
    simp only [Signal.length_chunk (hn.mono (by omega : p + n ≤ p + (n + 1))), toChunk,
      List.length_map] at hlen
    -- the signal covers the last position, so the round has an item there
    have hlast := hn (p + n) (by omega)
    rw [signal_eq, Option.isSome_map] at hlast
    obtain ⟨⟨x, tags⟩, hitem⟩ := Option.isSome_iff_exists.mp hlast
    have hsignal : b.signal (p + n) = some (x, tags.map Tag.map) := by
      rw [signal_eq, hitem]
      rfl
    rw [Signal.chunk_succ hsignal, ← hprefix, List.range_succ, List.filterMap_append,
      List.filterMap_cons, hitem, List.filterMap_nil, toChunk_append, hlen, List.map_map]
    rfl

/-- A source that has published the next samples. -/
theorem At.next (h : b.At p) (hn : b.signal.Covers (p + n)) : (b.nextChunk n).2.At (p + n) := by
  refine ⟨h.round, ?_, fun hrep => ?_⟩
  · simp only [nextChunk, h.position, h.round, size_roundOf]
    split
    · exact Nat.mod_add_mod ..
    · rfl
  · have hrep : b.repeating = false := hrep
    rcases Nat.eq_zero_or_pos (p + n) with hzero | hpos
    · omega
    · have hlast := hn (p + n - 1) (by omega)
      simp only [signal, hrep, Option.isSome_map, Bool.false_eq_true, if_false] at hlast
      have hlast : p + n - 1 < b.data.length := by simpa using hlast
      show p + n ≤ b.data.length
      omega

/-- There is as much of the signal as a source publishes. -/
theorem At.covers (h : b.At p) (hne : b.data ≠ [])
    (hn : b.repeating = false → n ≤ b.round.size - b.position) : b.signal.Covers (p + n) := by
  intro k hk
  have hpos := List.length_pos_iff.mpr hne
  rw [signal, Option.isSome_map]
  cases hrep : b.repeating with
  | true => simpa using Nat.mod_lt k hpos
  | false =>
    have hlen := hn hrep
    have hposition := h.position
    have hle := h.le hrep
    rw [h.round, size_roundOf] at hlen
    simp only [hrep, Bool.false_eq_true, if_false] at hposition
    have : k < b.data.length := by omega
    simpa using this

/-- The signal of a source that has nothing, or nothing more, to publish has ended. -/
theorem At.endsAt (h : b.At p) (hcovers : b.signal.Covers p)
    (hend : b.data = [] ∨ b.repeating = false ∧ b.round.size ≤ b.position) :
    b.signal.EndsAt p := by
  refine fun k => ⟨fun hk => ?_, hcovers k⟩
  rw [signal, Option.isSome_map] at hk
  rcases hend with hempty | ⟨hrep, hend⟩
  · simp [hempty] at hk
  · have hposition := h.position
    rw [h.round, size_roundOf] at hend
    simp only [hrep, Bool.false_eq_true, if_false] at hposition hk
    have : k < b.data.length := by simpa using hk
    omega

end VectorSource
end Dataflow
