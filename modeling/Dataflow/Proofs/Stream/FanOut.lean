import Dataflow.Proofs.Stream.Basic
import Dataflow.Stream.FanOut
import Mathlib.Data.List.Forall2

/-!
# Publishing to several streams

Publishing is refused up front and changes nothing, or it pushes to every live stream
(`FanOut.publish_exact`), and how much room there is for it is decided by one of them
(`FanOut.exists_least`).
-/

namespace Dataflow

variable {α : Type}

/-- A stream after a chunk has been published to it; a detached one is skipped. -/
def Stream.receive (chunk : Chunk α) (s : Stream α) : Stream α :=
  if s.detached then s else s.pushed chunk.samples chunk.tags

theorem Room.clip_le (room : Room) (n : Nat) : room.clip n ≤ n := by
  cases room with
  | bounded m => exact Nat.min_le_left ..
  | unbounded => exact Nat.le_refl n

theorem Room.clip_of_isZero {room : Room} (hroom : room.isZero = true) (n : Nat) :
    room.clip n = 0 := by
  cases room with
  | unbounded => cases hroom
  | bounded m =>
    simp only [isZero, decide_eq_true_eq] at hroom
    rw [clip, hroom, Nat.min_zero]

theorem Room.clip_pos {room : Room} {n : Nat} (hroom : room.isZero = false) (hn : 0 < n) :
    0 < room.clip n := by
  cases room with
  | bounded m =>
    simp only [isZero, decide_eq_false_iff_not] at hroom
    simp only [clip]
    omega
  | unbounded => exact hn

namespace FanOut

variable {streams : List (Stream α)} {samples : List α} {tags : List Tag} {f g : Stream α → Nat}

theorem mem_live {s : Stream α} : s ∈ live streams ↔ s ∈ streams ∧ s.detached = false := by
  simp [live]

theorem least_le {s : Stream α} (hs : s ∈ streams) (hlive : s.detached = false) :
    least f streams ≤ f s := by
  have hmem : f s ∈ (live streams).map f := List.mem_map_of_mem (mem_live.mpr ⟨hs, hlive⟩)
  rw [least]
  cases hmin : ((live streams).map f).min? with
  | none =>
    rw [List.min?_eq_none_iff] at hmin
    rw [hmin] at hmem
    cases hmem
  | some k => exact (List.min?_eq_some_iff.mp hmin).2 _ hmem

theorem exists_least {s : Stream α} (hs : s ∈ streams) (hlive : s.detached = false) :
    ∃ t ∈ streams, t.detached = false ∧ f t = least f streams := by
  rw [least]
  cases hmin : ((live streams).map f).min? with
  | none =>
    rw [List.min?_eq_none_iff, List.map_eq_nil_iff] at hmin
    have := mem_live.mpr ⟨hs, hlive⟩
    rw [hmin] at this
    cases this
  | some k =>
    obtain ⟨t, ht, hk⟩ := List.mem_map.mp (List.min?_mem hmin)
    obtain ⟨ht, htl⟩ := mem_live.mp ht
    exact ⟨t, ht, htl, hk⟩

theorem exists_of_forall₂_mem {β : Type} {R : α → β → Prop} {xs : List α} {ys : List β}
    (h : List.Forall₂ R xs ys) {y : β} (hy : y ∈ ys) : ∃ x ∈ xs, R x y := by
  induction h with
  | nil => cases hy
  | cons hxy _ ih =>
    rcases List.mem_cons.mp hy with rfl | hy
    · exact ⟨_, List.mem_cons_self, hxy⟩
    · obtain ⟨x, hx, hxy⟩ := ih hy
      exact ⟨x, List.mem_cons_of_mem _ hx, hxy⟩

theorem least_le_least {streams' : List (Stream α)}
    (h : List.Forall₂ (fun s s' => s'.detached = s.detached ∧ f s ≤ g s') streams streams') :
    least f streams ≤ least g streams' := by
  have hlive : List.Forall₂ (fun s s' => f s ≤ g s') (live streams) (live streams') := by
    induction h with
    | nil => exact .nil
    | @cons s s' rest rest' hs _ ih =>
      simp only [live, List.filter_cons, hs.1]
      cases s.detached
      · exact .cons hs.2 ih
      · exact ih
  conv => rhs; rw [least]
  cases hmin : ((live streams').map g).min? with
  | none =>
    rw [List.min?_eq_none_iff, List.map_eq_nil_iff] at hmin
    rw [hmin, List.forall₂_nil_right_iff] at hlive
    rw [least, hlive]
    exact Nat.le_refl _
  | some k =>
    obtain ⟨s', hs', rfl⟩ := List.mem_map.mp (List.min?_mem hmin)
    obtain ⟨s, hs, hle⟩ := exists_of_forall₂_mem hlive hs'
    exact (least_le (mem_live.mp hs).1 (mem_live.mp hs).2).trans hle

theorem least_mono (h : ∀ s, f s ≤ g s) : least f streams ≤ least g streams :=
  least_le_least (List.forall₂_same.mpr fun s _ => ⟨rfl, h s⟩)

theorem pushLive_eq
    (hfit : ∀ s ∈ streams, s.detached = false →
      samples.length ≤ s.space ∧ tags.length ≤ s.tagSpace) :
    pushLive samples tags streams = (.ok (), streams.map (Stream.receive ⟨samples, tags⟩)) := by
  induction streams with
  | nil => rfl
  | cons s rest ih =>
    have hrest := ih fun t ht => hfit t (List.mem_cons_of_mem _ ht)
    rw [pushLive, hrest]
    cases hd : s.detached with
    | true => simp [Stream.receive, hd]
    | false =>
      obtain ⟨hspace, htags⟩ := hfit s (List.mem_cons_self ..) hd
      have hpush : s.push samples tags = .ok (s.pushed samples tags) :=
        Stream.push_eq_ok_iff.mpr ⟨hspace, Stream.length_acceptedTags_le.trans htags, rfl⟩
      simp [Stream.receive, hd, hpush]

theorem refusal?_eq_none_iff : refusal? streams samples tags = none ↔
    samples.length ≤ least Stream.space streams ∧
      tags.length ≤ least Stream.tagSpace streams := by
  simp only [refusal?]
  split
  · simp; omega
  · split
    · simp; omega
    · simp; omega

theorem refusal?_of_space (h : least Stream.space streams < samples.length) :
    refusal? streams samples tags =
      some (.insufficientSpace samples.length (least Stream.space streams)) :=
  if_pos h

theorem refusal?_of_tagSpace (hspace : samples.length ≤ least Stream.space streams)
    (htags : least Stream.tagSpace streams < tags.length) :
    refusal? streams samples tags =
      some (.insufficientTagSpace tags.length (least Stream.tagSpace streams)) := by
  rw [refusal?, if_neg (Nat.not_lt.mpr hspace), if_pos htags]

/-- What nothing refuses is pushed to every live stream; no single push fails. -/
theorem publish_of_fits (h : streams = [] ∨ refusal? streams samples tags = none) :
    publish streams samples tags = (.ok (), streams.map (Stream.receive ⟨samples, tags⟩)) ∧
      ∀ s ∈ streams, s.detached = false →
        s.push samples tags = .ok (s.receive ⟨samples, tags⟩) := by
  have hfit : ∀ s ∈ streams, s.detached = false →
      samples.length ≤ s.space ∧ tags.length ≤ s.tagSpace := fun s hs hsl => by
    rcases h with rfl | h
    · cases hs
    · obtain ⟨hspace, htags⟩ := refusal?_eq_none_iff.mp h
      exact ⟨hspace.trans (least_le hs hsl), htags.trans (least_le hs hsl)⟩
  constructor
  · rw [publish]
    split
    next hvoid =>
      rw [isVoid, Bool.or_eq_true, Bool.and_eq_true, List.isEmpty_iff, List.isEmpty_iff,
        List.isEmpty_iff] at hvoid
      rcases hvoid with ⟨rfl, rfl⟩ | rfl
      · -- a chunk of nothing is not pushed at all, which makes no difference
        have hsame : ∀ s : Stream α, s.receive ⟨[], []⟩ = s := fun s => by
          simp [Stream.receive, Stream.pushed, Stream.acceptedTags, Queue.append]
        rw [funext hsame, List.map_id']
      · rfl
    next hvoid =>
      have hnone : refusal? streams samples tags = none := h.resolve_left fun hnil => hvoid (by
        simp [isVoid, hnil])
      rw [hnone]
      exact pushLive_eq hfit
  · intro s hs hsl
    obtain ⟨hspace, htags⟩ := hfit s hs hsl
    rw [Stream.receive, hsl]
    exact Stream.push_eq_ok_iff.mpr ⟨hspace, Stream.length_acceptedTags_le.trans htags, rfl⟩

theorem publish_of_refusal {e : StreamError} (hne : streams ≠ [])
    (h : refusal? streams samples tags = some e) :
    publish streams samples tags = (.error e, streams) := by
  have hvoid : isVoid streams samples tags = false := by
    cases samples with
    | cons => simp [isVoid, hne]
    | nil =>
      cases tags with
      | cons => simp [isVoid, hne]
      | nil => cases (refusal?_eq_none_iff.mpr ⟨Nat.zero_le _, Nat.zero_le _⟩).symm.trans h
  rw [publish, if_neg (by simp [hvoid]), h]

theorem publish_of_overfull (hnil : streams ≠ [])
    (hspace : samples.length ≤ least Stream.space streams)
    (htags : least Stream.tagSpace streams < tags.length) :
    publish streams samples tags =
      (.error (.insufficientTagSpace tags.length (least Stream.tagSpace streams)), streams) :=
  publish_of_refusal hnil (refusal?_of_tagSpace hspace htags)

/-- Publishing is refused up front and changes nothing, or every live stream receives the chunk. -/
theorem publish_exact (streams : List (Stream α)) (samples : List α) (tags : List Tag) :
    (∃ e, refusal? streams samples tags = some e ∧
        publish streams samples tags = (.error e, streams)) ∨
      (publish streams samples tags = (.ok (), streams.map (Stream.receive ⟨samples, tags⟩)) ∧
        ∀ s ∈ streams, s.detached = false →
          s.push samples tags = .ok (s.receive ⟨samples, tags⟩)) := by
  by_cases hne : streams = []
  · exact .inr (publish_of_fits (.inl hne))
  · cases h : refusal? streams samples tags with
    | none => exact .inr (publish_of_fits (.inr h))
    | some e => exact .inl ⟨e, rfl, publish_of_refusal hne h⟩

/-- Publishing to streams of which one is live either fits all of them, and each that is live
receives the chunk, or it changes nothing, since samples or tags do not fit one of them. -/
theorem publish_cases (samples : List α) (tags : List Tag)
    (hlive : ∃ s ∈ streams, s.detached = false) :
    (publish streams samples tags = (.ok (), streams.map (Stream.receive ⟨samples, tags⟩)) ∧
      ∀ s ∈ streams, s.detached = false → samples.length ≤ s.space) ∨
    ∃ e, publish streams samples tags = (.error e, streams) ∧
      ∃ s ∈ streams, s.detached = false ∧
        (s.space < samples.length ∨ s.tagSpace < tags.length) := by
  obtain ⟨s, hs, hsl⟩ := hlive
  rcases publish_exact streams samples tags with ⟨e, hrefusal, hpublish⟩ | ⟨hpublish, hpush⟩
  · have hunfit : ¬(samples.length ≤ least Stream.space streams ∧
        tags.length ≤ least Stream.tagSpace streams) := fun hfit => by
      cases hrefusal.symm.trans (refusal?_eq_none_iff.mpr hfit)
    refine .inr ⟨e, hpublish, ?_⟩
    by_cases hspace : samples.length ≤ least Stream.space streams
    · obtain ⟨t, ht, htl, hleast⟩ := exists_least (f := Stream.tagSpace) hs hsl
      have htags : least Stream.tagSpace streams < tags.length :=
        Nat.not_le.mp fun htags => hunfit ⟨hspace, htags⟩
      exact ⟨t, ht, htl, .inr (hleast ▸ htags)⟩
    · obtain ⟨t, ht, htl, hleast⟩ := exists_least (f := Stream.space) hs hsl
      exact ⟨t, ht, htl, .inl (hleast ▸ Nat.not_le.mp hspace)⟩
  · exact .inl ⟨hpublish, fun t ht htl => (Stream.push_eq_ok_iff.mp (hpush t ht htl)).1⟩

theorem clip_taggedSpace_le (streams : List (Stream α)) (n : Nat) :
    streams = [] ∨ (taggedSpace streams).clip n ≤ least Stream.space streams := by
  by_cases hnil : streams = []
  · exact .inl hnil
  · have hspace : least (fun s => min s.space s.tagSpace) streams ≤ least Stream.space streams :=
      least_mono fun s => Nat.min_le_left ..
    rw [taggedSpace, if_neg (by simpa using hnil), Room.clip]
    exact .inr (Nat.min_le_right .. |>.trans hspace)

end FanOut
end Dataflow
