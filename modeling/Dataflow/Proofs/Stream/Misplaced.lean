import Dataflow.Proofs.Stream.Publication

/-!
# Misplaced tags

A tag that is on no sample of a stream is dropped when it is written, so a push is the same
without it (`Stream.push_filter_accepts`). A writer checks for room before it pushes, and counts all
tags it is given, misplaced ones among them. So publishing is the same without the misplaced tags
unless tags are what it is refused for, and then it is the same only if none is misplaced
(`Publication.publish_placed_exact`).
-/

namespace Dataflow

variable {α : Type}

namespace Stream

variable {s : Stream α} {n : Nat} {samples : List α} {tags : List Tag}

theorem acceptedTags_filter_accepts :
    s.acceptedTags n (tags.filter (s.accepts n)) = s.acceptedTags n tags := by
  simp only [acceptedTags, List.filter_filter, Bool.and_self]

/-- The tags that a push drops make no difference to it. -/
theorem push_filter_accepts :
    s.push samples (tags.filter (s.accepts samples.length)) = s.push samples tags := by
  simp only [push, acceptedTags_filter_accepts]

theorem receive_filter_accepts :
    s.receive ⟨samples, tags.filter (s.accepts samples.length)⟩ = s.receive ⟨samples, tags⟩ := by
  simp only [receive, pushed, acceptedTags_filter_accepts]

end Stream

namespace FanOut

variable {streams : List (Stream α)} {samples : List α} {tags tags' : List Tag}

variable (hreceive : ∀ s ∈ streams, s.receive ⟨samples, tags'⟩ = s.receive ⟨samples, tags⟩)
include hreceive

/-- Fewer tags that come to the same on every stream are published alike, unless the tags are too
many for some stream. -/
theorem publish_congr (hlength : tags'.length ≤ tags.length)
    (h : streams = [] ∨ least Stream.space streams < samples.length ∨
      tags.length ≤ least Stream.tagSpace streams) :
    publish streams samples tags = publish streams samples tags' := by
  by_cases hnil : streams = []
  · rw [(publish_of_fits (.inl hnil)).1, (publish_of_fits (.inl hnil)).1, hnil]
    rfl
  by_cases hspace : least Stream.space streams < samples.length
  · rw [publish_of_refusal hnil (refusal?_of_space hspace),
      publish_of_refusal hnil (refusal?_of_space hspace)]
  · have htags := (h.resolve_left hnil).resolve_left hspace
    have hspace' := Nat.not_lt.mp hspace
    rw [(publish_of_fits (.inr (refusal?_eq_none_iff.mpr ⟨hspace', htags⟩))).1,
      (publish_of_fits (.inr (refusal?_eq_none_iff.mpr ⟨hspace', hlength.trans htags⟩))).1]
    exact congrArg _ (List.map_congr_left fun s hs => (hreceive s hs).symm)

/-- If the tags are too many, those that come to the same may be few enough. -/
theorem publish_fewer (hnil : streams ≠ [])
    (hspace : samples.length ≤ least Stream.space streams) :
    publish streams samples tags' =
      if tags'.length ≤ least Stream.tagSpace streams then
        (.ok (), streams.map (Stream.receive ⟨samples, tags⟩))
      else
        (.error (.insufficientTagSpace tags'.length (least Stream.tagSpace streams)), streams) := by
  split
  next hfit =>
    rw [(publish_of_fits (.inr (refusal?_eq_none_iff.mpr ⟨hspace, hfit⟩))).1]
    exact congrArg _ (List.map_congr_left hreceive)
  next hfit => exact publish_of_overfull hnil hspace (Nat.not_le.mp hfit)

theorem publish_congr_iff (hsub : tags'.Sublist tags) :
    publish streams samples tags = publish streams samples tags' ↔
      streams = [] ∨ least Stream.space streams < samples.length ∨
        tags.length ≤ least Stream.tagSpace streams ∨ tags' = tags := by
  constructor
  · intro heq
    by_contra hnot
    simp only [not_or, Nat.not_lt, Nat.not_le] at hnot
    obtain ⟨hnil, hspace, htags, hne⟩ := hnot
    have hshorter : tags'.length ≠ tags.length := fun hsame => hne (hsub.eq_of_length hsame)
    -- both calls may fail, but then they count different tags
    rw [publish_of_overfull hnil hspace htags, publish_fewer hreceive hnil hspace] at heq
    split at heq
    · cases heq
    · simp only [Prod.mk.injEq, Except.error.injEq, StreamError.insufficientTagSpace.injEq,
        and_true] at heq
      exact hshorter heq.symm
  · rintro (hnil | hspace | htags | hsame)
    · exact publish_congr hreceive hsub.length_le (.inl hnil)
    · exact publish_congr hreceive hsub.length_le (.inr (.inl hspace))
    · exact publish_congr hreceive hsub.length_le (.inr (.inr htags))
    · rw [hsame]

end FanOut

namespace Publication

/-- The tags published along with `count` samples that are on one of these or on a sample published
before. -/
def placed (p : Publication α) (count : Nat) (tags : List Tag) : List Tag :=
  tags.filter fun t => t.index < count && 0 ≤ (p.published.length : Int) + t.index

variable {p : Publication α} {samples : List α} {tags : List Tag}

theorem Agrees.placed_eq (h : p.Agrees) {s : Stream α} (hs : s ∈ p.streams)
    (hlive : s.detached = false) (n : Nat) (tags : List Tag) :
    p.placed n tags = tags.filter (s.accepts n) := by
  obtain ⟨d, hd, rfl⟩ := List.mem_map.mp hs
  have hwritten : d.stream.written = p.published.length :=
    (h d hd).written.trans (congrArg _ ((h d hd).all hlive))
  rw [placed, ← hwritten]
  rfl

theorem Agrees.receive_placed (h : p.Agrees) {s : Stream α} (hs : s ∈ p.streams) :
    s.receive ⟨samples, p.placed samples.length tags⟩ = s.receive ⟨samples, tags⟩ := by
  cases hd : s.detached with
  | true => simp only [Stream.receive, hd, if_true]
  | false => rw [h.placed_eq hs hd, Stream.receive_filter_accepts]

/-- However an output was used, every live destination takes tags as it takes those of them that
are on published samples, and so does the output, unless there is room for the samples but not for
all the tags, and some are misplaced. Then the misplaced tags are fatal: publishing changes nothing
and fails with a count of all tags, though the others may well fit. -/
theorem publish_placed_exact (capacities : List Nat) (ops : List (Op α)) (samples : List α)
    (tags : List Tag) :
    let p := (new capacities).run ops
    let tags' := p.placed samples.length tags
    let tagSpace := FanOut.least Stream.tagSpace p.streams
    (∀ s ∈ p.streams, s.detached = false → s.push samples tags = s.push samples tags') ∧
      (FanOut.publish p.streams samples tags = FanOut.publish p.streams samples tags' ↔
        p.streams = [] ∨ FanOut.least Stream.space p.streams < samples.length ∨
          tags.length ≤ tagSpace ∨ tags' = tags) ∧
      (FanOut.publish p.streams samples tags ≠ FanOut.publish p.streams samples tags' →
        FanOut.publish p.streams samples tags =
            (.error (.insufficientTagSpace tags.length tagSpace), p.streams) ∧
          FanOut.publish p.streams samples tags' =
            if tags'.length ≤ tagSpace then (.ok (), p.streams.map (Stream.receive ⟨samples, tags⟩))
            else (.error (.insufficientTagSpace tags'.length tagSpace), p.streams)) := by
  intro p tags' tagSpace
  have hp : p.Agrees := (Agrees.new capacities).run ops
  have hreceive : ∀ s ∈ p.streams, s.receive ⟨samples, tags'⟩ = s.receive ⟨samples, tags⟩ :=
    fun s hs => hp.receive_placed hs
  have hiff : FanOut.publish p.streams samples tags = FanOut.publish p.streams samples tags' ↔
      p.streams = [] ∨ FanOut.least Stream.space p.streams < samples.length ∨
        tags.length ≤ tagSpace ∨ tags' = tags :=
    FanOut.publish_congr_iff hreceive List.filter_sublist
  refine ⟨fun s hs hlive => ?_, hiff, fun hne => ?_⟩
  · show _ = s.push samples (p.placed samples.length tags)
    rw [hp.placed_eq hs hlive, Stream.push_filter_accepts]
  · simp only [ne_eq, hiff, not_or, Nat.not_lt, Nat.not_le] at hne
    obtain ⟨hnil, hspace, htags, -⟩ := hne
    exact ⟨FanOut.publish_of_overfull hnil hspace htags,
      FanOut.publish_fewer hreceive hnil hspace⟩

/-- One more tag than there are slots for, all behind the one sample they come with. -/
def misplacedTags : List Tag := List.replicate 65 ⟨1, []⟩

/-- Tags of which none would be kept keep a sample from being published. -/
theorem publish_misplacedTags :
    let p : Publication Nat := new [4]
    p.placed 1 misplacedTags = [] ∧
      (FanOut.publish p.streams [7] misplacedTags).1 = .error (.insufficientTagSpace 65 64) ∧
      (FanOut.publish p.streams [7] (p.placed 1 misplacedTags)).1 = .ok () := by
  intro p
  have hplaced : p.placed 1 misplacedTags = [] := by decide
  have hrefusal : FanOut.refusal? p.streams [7] misplacedTags =
      some (.insufficientTagSpace 65 64) := by decide
  have hnil : p.streams ≠ [] := List.cons_ne_nil _ _
  refine ⟨hplaced, by rw [FanOut.publish_of_refusal hnil hrefusal], ?_⟩
  rw [hplaced]
  exact FanOut.publish_eq_ok_iff.mpr (.inr (by decide))

theorem publish_placed_exact_misplacedTags :
    let p : Publication Nat := (new [4]).run []
    let tags' := p.placed [7].length misplacedTags
    FanOut.publish p.streams [7] misplacedTags ≠ FanOut.publish p.streams [7] tags' ∧
      FanOut.publish p.streams [7] tags' =
        (.ok (), p.streams.map (Stream.receive ⟨[7], misplacedTags⟩)) := by
  intro p tags'
  obtain ⟨-, hiff, hexact⟩ := publish_placed_exact [4] [] [7] misplacedTags
  have hne : FanOut.publish p.streams [7] misplacedTags ≠ FanOut.publish p.streams [7] tags' := by
    refine mt hiff.mp ?_
    rintro (hnil | hspace | htags | hsame)
    · cases hnil
    · exact absurd hspace (by decide)
    · exact absurd htags (by decide)
    · cases hsame
  exact ⟨hne, (hexact hne).2.trans (if_pos (by decide))⟩

end Publication
end Dataflow
