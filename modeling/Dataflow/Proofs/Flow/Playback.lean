import Dataflow.Proofs.Block.Form
import Dataflow.Proofs.Block.Period
import Dataflow.Proofs.Flow.Start
import Dataflow.Proofs.Flow.Watch
import Mathlib

/-!
# Playback

A vector source plays its data: work calls come one after the other, and between them anything may
happen to the streams around the source, and its settings may be updated (`Playback.run`). What its
calls emit, put together, is the data again and again (`Playback.playback_exact`).

How far the source has come is told by the number of samples emitted so far, except at the end of
the data. There the position is the length of the data if the source did not repeat when it emitted
the last sample, and zero if it did, whether or not it repeats by now. So the invariant
(`Playback.Stands`) asks what the last call came to that has emitted anything
(`Emission.HasEnded`).
-/

namespace Dataflow

open Tag

/-! ### Updates -/

theorem Builtin.settle_vectorSource_iff {b : VectorSource} {b' : Builtin} :
    Block.settle (vectorSource b) = (.ok (), b') ↔
      (∀ t ∈ b.tags, VectorSource.isStray b.data.length t = false) ∧
        b' = vectorSource { b with tags := b.tags.mergeSort precedes } := by
  constructor
  · intro h
    cases hfind : b.tags.find? (VectorSource.isStray b.data.length) with
    | some t =>
      have hsettle : Block.settle (vectorSource b) = b.settle.map id vectorSource := rfl
      rw [hsettle, VectorSource.settle, hfind] at h
      cases h
    | none =>
      have hstray : ∀ t ∈ b.tags, VectorSource.isStray b.data.length t = false := fun t ht => by
        simpa using List.find?_eq_none.mp hfind t ht
      rw [settle_vectorSource hstray] at h
      cases h
      exact ⟨hstray, rfl⟩
  · rintro ⟨hstray, rfl⟩
    exact settle_vectorSource hstray

/-- Whether settings are accepted does not depend on whether the source repeats. -/
theorem Builtin.Accepted.repeating {b : VectorSource} (h : (vectorSource b).Accepted)
    (repeating : Bool) : (vectorSource { b with repeating }).Accepted := by
  obtain ⟨hstray, hsame⟩ := settle_vectorSource_iff.mp h.settled
  refine ⟨h.isTyped, settle_vectorSource_iff.mpr ⟨hstray, ?_⟩⟩
  exact congrArg (fun tags => vectorSource { b with repeating, tags })
    (congrArg VectorSource.tags (vectorSource.inj hsame))

namespace Node

variable {n : Node Builtin} {b : VectorSource}

/-- Of a source that runs only one setting may be changed. -/
theorem eq_repeat_of_keyError {key : String} (hb : n.block = .vectorSource b)
    (h : n.keyError? true key = none) : key = "repeat" := by
  rw [keyError?] at h
  split at h
  next d hd =>
    have hmem : d ∈ VectorSource.descriptors := by
      have := List.mem_of_find?_eq_some hd
      rwa [hb] at this
    have hkey : d.key = key := by simpa using List.find?_some hd
    have hmutable : d.isMutable = true := by simpa using h
    subst hkey
    simp only [VectorSource.descriptors, List.mem_cons, List.not_mem_nil, or_false] at hmem
    rcases hmem with rfl | rfl | rfl
    · cases hmutable
    · rfl
    · cases hmutable
  next =>
    rw [hb] at h
    cases h

theorem setAll_repeat (b : VectorSource) {entries : List (String × Value)}
    (h : ∀ entry ∈ entries, entry.1 = "repeat") : ∃ result repeating,
      setAll (Builtin.vectorSource b) entries = (result, .vectorSource { b with repeating }) := by
  induction entries generalizing b with
  | nil => exact ⟨.ok (), b.repeating, rfl⟩
  | cons entry rest ih =>
    obtain ⟨key, v⟩ := entry
    obtain rfl : key = "repeat" := h _ List.mem_cons_self
    have hset : Block.set (Builtin.vectorSource b) "repeat" v =
        (b.set "repeat" v).map id Builtin.vectorSource := rfl
    rw [setAll, hset, VectorSource.set]
    cases hread : v.asBool with
    | error e =>
      refine ⟨.error (.value "repeat" e), b.repeating, ?_⟩
      simp only [VectorSource.update, hread]
      rfl
    | ok repeating =>
      obtain ⟨result, repeating', hrest⟩ := ih { b with repeating } fun entry hentry =>
        h entry (List.mem_cons_of_mem _ hentry)
      refine ⟨result, repeating', ?_⟩
      simp only [VectorSource.update, hread]
      exact hrest

/-- An update of a source that runs is refused or made, and changes nothing else. -/
theorem apply_vectorSource (hb : n.block = .vectorSource b) (h : n.block.Accepted)
    (settings : PropertyMap) : ∃ repeating,
      (n.apply settings true).node.block = .vectorSource { b with repeating } := by
  rw [apply]
  split
  · exact ⟨b.repeating, hb⟩
  next hkeys =>
    have hrepeat : ∀ entry ∈ settings, entry.1 = "repeat" := fun entry hentry =>
      eq_repeat_of_keyError hb
        (List.findSome?_eq_none_iff.mp hkeys entry.1 (List.mem_map_of_mem hentry))
    obtain ⟨result, repeating, hall⟩ := setAll_repeat b fun entry hentry =>
      hrepeat entry (List.mem_filter.mp hentry).1
    rw [← hb] at hall
    have haccepted := (hb ▸ h).repeating repeating
    rw [tryApply, hall]
    cases result with
    | ok =>
      simp only [haccepted.settled]
      exact ⟨repeating, rfl⟩
    | error e =>
      have hback : restore (.vectorSource { b with repeating }) (Block.settings n.block) =
          ⟨n.block, [], none⟩ := Builtin.restore_eq h (by rw [hb]; rfl)
      simp only [hback]
      exact ⟨b.repeating, hb⟩

end Node

/-! ### Calls -/

/-- A work call of a source: the source before it, the room that it found at its output, what it
emitted, and how it ended. -/
structure Emission where
  source : Builtin
  room : Room
  chunk : Chunk Sample
  outcome : WorkOutcome

namespace Emission

/-- What has been emitted after an exchange. -/
def note (emitted : Chunk Sample) : Exchange → Chunk Sample
  | ⟨.publish _ samples tags, .ok ()⟩ => emitted.append ⟨samples, tags⟩
  | ⟨.publish _ _ _, .error _⟩ => emitted
  | _ => emitted

/-- What calls have emitted, as one chunk. -/
def together (calls : List Emission) : Chunk Sample :=
  calls.foldl (fun emitted call => emitted.append call.chunk) .empty

theorem together_concat (calls : List Emission) (call : Emission) :
    together (calls ++ [call]) = (together calls).append call.chunk := List.foldl_concat ..

/-- The last call that has emitted samples was done with it. -/
def HasEnded (calls : List Emission) : Prop :=
  (calls.filter fun call => !call.chunk.samples.isEmpty).getLast?.map outcome = some (.status .done)

theorem hasEnded_concat {calls : List Emission} {call : Emission} :
    HasEnded (calls ++ [call]) ↔
      if call.chunk.samples = [] then HasEnded calls else call.outcome = .status .done := by
  rw [HasEnded, List.filter_append]
  split
  next hempty => simp [hempty, HasEnded]
  next hsome =>
    have hlast : [call].filter (fun call => !call.chunk.samples.isEmpty) = [call] := by
      simp [hsome]
    rw [hlast, List.getLast?_concat, Option.map_some, Option.some.injEq]

end Emission

/-- A chunk is refused, which ends the call, or it is emitted. -/
theorem Execution.watch_emitting_cases {γ : Type} (x : Execution Builtin) (i : Nat)
    (chunk : Chunk Sample) (b : γ) (status : WorkStatus) :
    let run := watch Emission.note i
      (Work.publishing 0 chunk.samples chunk.tags b (Work.report status b)) x .empty
    (∃ e, run.1.1.1 = .failed e) ∨ ∃ y, run = (((.status status, b), y), chunk) := by
  intro run
  rcases watch_publishing_cases Emission.note i x .empty b chunk.samples chunk.tags
    (Work.report status b) with ⟨e, y, seen, hrun⟩ | ⟨-, log, hrun⟩
  · exact .inl ⟨e, congrArg (·.1.1.1) hrun⟩
  · exact .inr ⟨_, hrun.trans (congrArg (Prod.mk _) (Chunk.empty_append chunk))⟩

namespace VectorSource

/-- How many samples a work call emits that finds space for so many. -/
def share (b : VectorSource) (space : Nat) : Nat :=
  if b.repeating then space else min space (b.round.size - b.position)

/-- How a work call reports on the samples that it has emitted. -/
def report (b : VectorSource) (n : Nat) : WorkStatus :=
  if b.repeating = false ∧ b.position + n = b.round.size then .done else .ok

theorem work_eq (b : VectorSource) (hne : b.data ≠ []) : b.work =
    if b.repeating = false ∧ b.round.size ≤ b.position then Work.report .done b
    else
      Work.withWriter 0 b.type b fun output =>
        let space := output.taggedSpace.clip maxSourceChunk
        if space = 0 then Work.report .insufficientOutput b
        else
          let (chunk, moved) := b.nextChunk (b.share space)
          Work.publishing 0 chunk.samples chunk.tags moved
            (Work.report (b.report (b.share space)) moved) := by
  have hend : (b.data.isEmpty || (!b.repeating && decide (b.round.size - b.position = 0))) = true ↔
      b.repeating = false ∧ b.round.size ≤ b.position := by
    simp [hne, Nat.sub_eq_zero_iff_le]
  have hlast : ∀ n, (!b.repeating && decide ((b.nextChunk n).2.position = b.round.size)) = true ↔
      b.repeating = false ∧ b.position + n = b.round.size := fun n => by
    cases hrep : b.repeating <;> simp [nextChunk, hrep]
  have hreport : ∀ n (moved : VectorSource), Work.report (b.report n) moved =
      if b.repeating = false ∧ b.position + n = b.round.size then Work.report .done moved
      else Work.report .ok moved := fun n moved => apply_ite (Work.report · moved) ..
  simp only [work, hend, hlast, hreport, share]

/-- What a work call of a source comes to. -/
theorem watch_work_cases (b : VectorSource) (x : Execution Builtin) (i : Nat) (hne : b.data ≠ []) :
    let space :=
      (FanOut.taggedSpace (Graph.outputStreams x.graph.connections ⟨i, 0⟩)).clip maxSourceChunk
    let run := Execution.watch Emission.note i b.work x .empty
    (∃ e, run.1.1.1 = .failed e) ∨
      ((b.repeating = false ∧ b.round.size ≤ b.position) ∧
        run = (((.status .done, b), x), .empty)) ∨
      (¬ (b.repeating = false ∧ b.round.size ≤ b.position) ∧
        ((space = 0 ∧ run = (((.status .insufficientOutput, b), x), .empty)) ∨
          (0 < space ∧ ∃ y, run = (((.status (b.report (b.share space)),
            (b.nextChunk (b.share space)).2), y), (b.nextChunk (b.share space)).1)))) := by
  intro space run
  have hrun : run = Execution.watch Emission.note i b.work x .empty := rfl
  clear_value run
  rw [work_eq b hne] at hrun
  by_cases hend : b.repeating = false ∧ b.round.size ≤ b.position
  · rw [if_pos hend] at hrun
    exact .inr (.inl ⟨hend, hrun⟩)
  rw [if_neg hend] at hrun
  rcases Execution.watch_withWriter_cases Emission.note i x .empty b.type b (fun _ _ => rfl) _ with
    ⟨e, hopen⟩ | ⟨schema, hopen⟩
  · exact .inl ⟨e, by rw [hrun, hopen]⟩
  replace hrun := hrun.trans hopen
  change run = Execution.watch Emission.note i (if space = 0 then _ else _) x .empty at hrun
  by_cases hspace : space = 0
  · rw [if_pos hspace] at hrun
    exact .inr (.inr ⟨hend, .inl ⟨hspace, hrun⟩⟩)
  · rw [if_neg hspace] at hrun
    rcases Execution.watch_emitting_cases x i (b.nextChunk (b.share space)).1
      (b.nextChunk (b.share space)).2 (b.report (b.share space)) with ⟨e, hfail⟩ | ⟨y, hemit⟩
    · exact .inl ⟨e, hrun ▸ hfail⟩
    · exact .inr (.inr ⟨hend, .inr ⟨Nat.pos_of_ne_zero hspace, y, hrun.trans hemit⟩⟩)

end VectorSource

/-- What a call of source `b` does behind those before it. -/
structure Emission.Follows (b : VectorSource) (before : List Emission) (call : Emission) :
    Prop where
  ended : b.repeating = false ∧ HasEnded before →
    call.outcome = .status .done ∧ call.chunk = .empty
  blocked : ¬ (b.repeating = false ∧ HasEnded before) → call.room.clip maxSourceChunk = 0 →
    call.outcome = .status .insufficientOutput ∧ call.chunk = .empty
  /-- The number of samples is what fits, and at most what is left of the data unless the source
  repeats. They are made up by a loop that ends. -/
  emits : ¬ (b.repeating = false ∧ HasEnded before) → 0 < call.room.clip maxSourceChunk →
    let total := (together before).samples.length
    let space := call.room.clip maxSourceChunk
    let n := if b.repeating then space else min space (b.data.length - total % b.data.length)
    call.chunk.samples.length = n ∧ 0 < n ∧
      (∃ fuel, (VectorSource.copyLoop n fuel .empty b).map Prod.fst = some call.chunk) ∧
      call.outcome =
        .status (if b.repeating = false ∧ b.data.length ∣ total + n then .done else .ok)

/-- An execution, and the work calls that were made on a source. -/
structure Playback where
  exec : Execution Builtin
  calls : List Emission

namespace Playback

/-- What happens while a source plays. -/
inductive Event where
  | call
  /-- Someone updates the settings of the source, which may be refused. -/
  | update (settings : PropertyMap)
  /-- Streams are bound to the source, written, read, closed or dropped. -/
  | rewire (connections : List Connection)

def new (x : Execution Builtin) : Playback := ⟨x, []⟩

/-- What becomes of a playback with block `i` as its source. -/
def step (i : Nat) (p : Playback) : Event → Playback
  | .call =>
    match p.exec.graph.node? i with
    | none => p
    | some n =>
      let room := FanOut.taggedSpace (Graph.outputStreams p.exec.graph.connections ⟨i, 0⟩)
      let ((result, _), chunk) :=
        Execution.watch Emission.note i (Block.work n.block) p.exec .empty
      ⟨(p.exec.work i n).2, p.calls ++ [⟨n.block, room, chunk, result.1⟩]⟩
  | .update settings =>
    { p with exec := p.exec.modifyNode i fun n => (n.apply settings true).node }
  | .rewire connections => { p with exec := p.exec.setConnections connections }

def run (i : Nat) (p : Playback) (events : List Event) : Playback := events.foldl (step i) p

theorem run_concat (i : Nat) (p : Playback) (events : List Event) (event : Event) :
    p.run i (events ++ [event]) = (p.run i events).step i event := List.foldl_concat ..

/-- The calls made are those that were made before, and those of the step. -/
theorem calls_step (i : Nat) (p : Playback) (event : Event) :
    ∃ calls, (p.step i event).calls = p.calls ++ calls := by
  cases event with
  | call =>
    rw [step]
    split
    · exact ⟨[], (List.append_nil _).symm⟩
    · exact ⟨_, rfl⟩
  | update settings => exact ⟨[], (List.append_nil _).symm⟩
  | rewire connections => exact ⟨[], (List.append_nil _).symm⟩

/-- A call runs the source as it would run anywhere. -/
theorem step_call {i : Nat} {p : Playback} {n : Node Builtin} (hn : p.exec.graph.node? i = some n) :
    let watched := Execution.watch Emission.note i (Block.work n.block) p.exec .empty
    ∃ m, (p.step i .call).exec.graph.node? i = some m ∧ m.block = watched.1.1.2 ∧
      (p.step i .call).calls = p.calls ++ [⟨n.block,
        FanOut.taggedSpace (Graph.outputStreams p.exec.graph.connections ⟨i, 0⟩), watched.2,
        watched.1.1.1⟩] := by
  intro watched
  obtain ⟨-, -, m, hm, hblock⟩ := Execution.work_eq_watch hn Emission.note .empty
  simp only [step, hn]
  exact ⟨m, hm, hblock, rfl⟩

/-- A source that was configured as `source` is where its calls have left it. -/
structure Stands (source : VectorSource) (calls : List Emission) (b : VectorSource) : Prop where
  accepted : (Builtin.vectorSource b).Accepted
  data : b.data = source.data
  tags : b.tags = source.tags.mergeSort precedes
  round : b.round = VectorSource.roundOf b.data b.tags
  together : Emission.together calls = (VectorSource.rounds source.data source.tags).chunk 0
    (Emission.together calls).samples.length
  ended : Emission.HasEnded calls → b.position = source.data.length ∧
    source.data.length ∣ (Emission.together calls).samples.length
  going : ¬ Emission.HasEnded calls →
    b.position = (Emission.together calls).samples.length % source.data.length

namespace Stands

variable {source b : VectorSource} {calls : List Emission} {call : Emission}

theorem size_round (h : Stands source calls b) : b.round.size = source.data.length := by
  rw [h.round, VectorSource.size_roundOf, h.data]

theorem modEq (h : Stands source calls b) :
    b.position ≡ (Emission.together calls).samples.length [MOD source.data.length] := by
  by_cases hended : Emission.HasEnded calls
  · obtain ⟨hposition, hdvd⟩ := h.ended hended
    rw [hposition]
    exact (Nat.modEq_zero_iff_dvd.mpr (Nat.dvd_refl _)).trans (Nat.modEq_zero_iff_dvd.mpr hdvd).symm
  · rw [h.going hended]
    exact Nat.mod_modEq _ _

theorem hasEnded_iff (h : Stands source calls b) (hne : source.data ≠ []) :
    Emission.HasEnded calls ↔ b.round.size ≤ b.position := by
  rw [h.size_round]
  by_cases hended : Emission.HasEnded calls
  · exact iff_of_true hended (h.ended hended).1.ge
  · refine iff_of_false hended ?_
    rw [h.going hended, not_le]
    exact Nat.mod_lt _ (List.length_pos_iff.mpr hne)

theorem repeating (h : Stands source calls b) (repeating : Bool) :
    Stands source calls { b with repeating } :=
  ⟨h.accepted.repeating repeating, h.data, h.tags, h.round, h.together, h.ended, h.going⟩

/-- A call that emits nothing leaves the source where it is. -/
theorem quiet (h : Stands source calls b) (hempty : call.chunk = .empty) :
    Stands source (calls ++ [call]) b := by
  have htogether : Emission.together (calls ++ [call]) = Emission.together calls := by
    rw [Emission.together_concat, hempty, Chunk.append_empty]
  have hended : Emission.HasEnded (calls ++ [call]) ↔ Emission.HasEnded calls := by
    rw [Emission.hasEnded_concat, if_pos (by rw [hempty]; rfl)]
  exact ⟨h.accepted, h.data, h.tags, h.round, by rw [htogether]; exact h.together,
    by rw [htogether, hended]; exact h.ended, by rw [htogether, hended]; exact h.going⟩

/-- The next chunk goes on where the calls have left off. -/
theorem next (h : Stands source calls b) (hne : source.data ≠ []) {n : Nat}
    (hchunk : call.chunk = (b.nextChunk n).1) : call.chunk.samples.length = n ∧
      Emission.together (calls ++ [call]) = (VectorSource.rounds source.data source.tags).chunk 0
        ((Emission.together calls).samples.length + n) := by
  have hcovers := VectorSource.covers_rounds hne source.tags
  have hnext : call.chunk = (VectorSource.rounds source.data source.tags).chunk
      (0 + (Emission.together calls).samples.length) n := by
    rw [Nat.zero_add, hchunk, ← VectorSource.chunk_rounds_congr h.modEq,
      VectorSource.nextChunk_eq_chunk (h.round.trans (by rw [h.data, h.tags])) hne,
      VectorSource.rounds_mergeSort]
  refine ⟨by rw [hnext, Signal.length_chunk (hcovers _)], ?_⟩
  rw [Emission.together_concat, ← Signal.chunk_append (hcovers _), ← h.together, ← hnext]

section Emitting

variable (h : Stands source calls b) (hne : source.data ≠ [])
  (hgoes : ¬ (b.repeating = false ∧ b.round.size ≤ b.position))
include h hne hgoes

/-- A source that is not at its end, and does not repeat, is in its round where the number of
samples says. -/
theorem position_eq (hrep : b.repeating = false) :
    b.position = (Emission.together calls).samples.length % source.data.length ∧
      b.position < source.data.length := by
  have hlt : b.position < source.data.length := by
    rw [← h.size_round]
    exact not_le.mp fun hle => hgoes ⟨hrep, hle⟩
  refine ⟨h.going fun hended => ?_, hlt⟩
  exact absurd ((h.hasEnded_iff hne).mp hended) fun hle => hgoes ⟨hrep, hle⟩

theorem share_spec {space : Nat} (hspace : 0 < space) :
    b.share space = (if b.repeating then space else min space (source.data.length -
      (Emission.together calls).samples.length % source.data.length)) ∧
      0 < b.share space ∧
      (b.repeating = false → b.position + b.share space ≤ source.data.length) := by
  rw [VectorSource.share, h.size_round]
  cases hrep : b.repeating with
  | true => exact ⟨rfl, hspace, nofun⟩
  | false =>
    obtain ⟨hposition, hlt⟩ := h.position_eq hne hgoes hrep
    rw [← hposition, if_neg Bool.false_ne_true]
    exact ⟨rfl, by omega, fun _ => by omega⟩

omit hne hgoes in
/-- Samples up to the end of the data make whole rounds. -/
theorem add_eq_length_iff {n : Nat} (hn : 0 < n) (hle : b.position + n ≤ source.data.length) :
    b.position + n = source.data.length ↔
      source.data.length ∣ (Emission.together calls).samples.length + n := by
  have hmod : b.position + n ≡ (Emission.together calls).samples.length + n
      [MOD source.data.length] := h.modEq.add_right n
  rw [← Nat.modEq_zero_iff_dvd]
  constructor
  · intro heq
    rw [heq] at hmod
    exact hmod.symm.trans (Nat.modEq_zero_iff_dvd.mpr (Nat.dvd_refl _))
  · intro hzero
    exact Nat.le_antisymm hle
      (Nat.le_of_dvd (by omega) (Nat.modEq_zero_iff_dvd.mp (hmod.trans hzero)))

omit hne hgoes in
theorem report_eq {n : Nat} (hn : 0 < n)
    (hle : b.repeating = false → b.position + n ≤ source.data.length) :
    b.report n = if b.repeating = false ∧
      source.data.length ∣ (Emission.together calls).samples.length + n then .done else .ok := by
  rw [VectorSource.report, h.size_round]
  exact if_congr (and_congr_right fun hrep => h.add_eq_length_iff hn (hle hrep)) rfl rfl

/-- A call that emits the next chunk takes the source behind it. -/
theorem emit {space : Nat} (hspace : 0 < space)
    (hchunk : call.chunk = (b.nextChunk (b.share space)).1)
    (houtcome : call.outcome = .status (b.report (b.share space))) :
    Stands source (calls ++ [call]) (b.nextChunk (b.share space)).2 := by
  obtain ⟨-, hpos, hle⟩ := h.share_spec hne hgoes hspace
  have hreport := h.report_eq hpos hle
  generalize b.share space = n at *
  obtain ⟨hlength, htogether⟩ := h.next hne hchunk
  have htotal : (Emission.together (calls ++ [call])).samples.length =
      (Emission.together calls).samples.length + n := by
    rw [htogether, Signal.length_chunk (VectorSource.covers_rounds hne _ _)]
  have hended : Emission.HasEnded (calls ++ [call]) ↔ b.repeating = false ∧
      source.data.length ∣ (Emission.together calls).samples.length + n := by
    have hsome : call.chunk.samples ≠ [] := List.ne_nil_of_length_pos (hlength ▸ hpos)
    rw [Emission.hasEnded_concat, if_neg hsome, houtcome, hreport]
    split
    next hlast => exact iff_of_true rfl hlast
    next hlast => exact iff_of_false (by simp) hlast
  have hposition : (b.nextChunk n).2.position =
      if b.repeating then (b.position + n) % b.round.size else b.position + n := rfl
  have hform : (Builtin.vectorSource (b.nextChunk n).2).form = (Builtin.vectorSource b).form := rfl
  refine ⟨h.accepted.of_form hform, h.data, h.tags, h.round, ?_, fun hend => ?_, fun hend => ?_⟩
  · rw [htotal, htogether]
  · obtain ⟨hrep, hdvd⟩ := hended.mp hend
    rw [hposition, if_neg (by simp [hrep]), htotal]
    exact ⟨(h.add_eq_length_iff hpos (hle hrep)).mpr hdvd, hdvd⟩
  · have hmod : (b.position + n) % source.data.length =
        ((Emission.together calls).samples.length + n) % source.data.length := h.modEq.add_right n
    rw [hposition, htotal, h.size_round, ← hmod]
    split
    · rfl
    next hrep =>
      rw [Bool.not_eq_true] at hrep
      have hne_length : b.position + n ≠ source.data.length := fun heq =>
        hend (hended.mpr ⟨hrep, (h.add_eq_length_iff hpos (hle hrep)).mp heq⟩)
      have hbound := hle hrep
      exact (Nat.mod_eq_of_lt (by omega)).symm

/-- Such a call follows those before it. -/
theorem follows {space : Nat} (hspace : 0 < space)
    (hroom : call.room.clip maxSourceChunk = space)
    (hchunk : call.chunk = (b.nextChunk (b.share space)).1)
    (houtcome : call.outcome = .status (b.report (b.share space))) :
    Emission.Follows b calls call := by
  obtain ⟨hshare, hpos, hle⟩ := h.share_spec hne hgoes hspace
  have hreport := h.report_eq hpos hle
  have hgoing : ¬ (b.repeating = false ∧ Emission.HasEnded calls) := by
    rwa [h.hasEnded_iff hne]
  have hwithin : b.position ≤ b.data.length := by
    rw [h.data]
    by_cases hended : Emission.HasEnded calls
    · exact (h.ended hended).1.le
    · rw [h.going hended]
      exact (Nat.mod_lt _ (List.length_pos_iff.mpr hne)).le
  refine ⟨fun hended => absurd hended hgoing, fun _ hzero => by omega, fun _ _ => ?_⟩
  rw [hroom, h.data]
  dsimp only
  rw [← hshare]
  have hordered : Ordered b.tags := h.tags ▸ ordered_mergeSort _
  obtain ⟨fuel, hloop⟩ := VectorSource.exists_copyLoop_eq h.round (h.data ▸ hne) hordered hwithin
    hpos fun hrep => h.data ▸ hle hrep
  exact ⟨(h.next hne hchunk).1, hpos, ⟨fuel, by rw [hloop, hchunk]; rfl⟩,
    houtcome.trans (congrArg WorkOutcome.status hreport)⟩

end Emitting

/-- What a work call comes to, unless it fails. -/
theorem work (h : Stands source calls b) (hne : source.data ≠ []) (x : Execution Builtin) (i : Nat)
    (hok : ∀ e, (Execution.watch Emission.note i (Block.work (Builtin.vectorSource b)) x
      .empty).1.1.1 ≠ .failed e) :
    let room := FanOut.taggedSpace (Graph.outputStreams x.graph.connections ⟨i, 0⟩)
    ∃ outcome b' y chunk,
      Execution.watch Emission.note i (Block.work (Builtin.vectorSource b)) x .empty =
        (((outcome, .vectorSource b'), y), chunk) ∧
      Stands source (calls ++ [⟨.vectorSource b, room, chunk, outcome⟩]) b' ∧
      Emission.Follows b calls ⟨.vectorSource b, room, chunk, outcome⟩ := by
  intro room
  have hwork : Block.work (Builtin.vectorSource b) =
      (VectorSource.work b).map (·.map id Builtin.vectorSource) := rfl
  have hended := h.hasEnded_iff hne
  rw [hwork, Execution.watch_map] at hok ⊢
  rcases b.watch_work_cases x i (h.data ▸ hne) with ⟨e, hrun⟩ | ⟨hend, hrun⟩ |
    ⟨hgoes, ⟨hspace, hrun⟩ | ⟨hspace, y, hrun⟩⟩
  · exact absurd hrun (hok e)
  · rw [hrun]
    refine ⟨_, b, x, .empty, rfl, h.quiet rfl, fun _ => ⟨rfl, rfl⟩, ?_, ?_⟩ <;>
      exact fun hgoing => absurd ⟨hend.1, hended.mpr hend.2⟩ hgoing
  · rw [hrun]
    refine ⟨_, b, x, .empty, rfl, h.quiet rfl, fun hend => ?_, fun _ _ => ⟨rfl, rfl⟩,
      fun _ hpos => absurd hspace hpos.ne'⟩
    exact absurd ⟨hend.1, hended.mp hend.2⟩ hgoes
  · rw [hrun]
    exact ⟨_, _, y, _, rfl, h.emit hne hgoes hspace rfl rfl, h.follows hne hgoes hspace rfl rfl rfl⟩

end Stands

/-- Block `i` is a source that was configured as `source`, and each of its calls has followed those
before it. -/
structure Playing (i : Nat) (source : VectorSource) (p : Playback) : Prop where
  node : ∃ n b, p.exec.graph.node? i = some n ∧ n.block = .vectorSource b ∧ Stands source p.calls b
  calls : ∀ before call after, p.calls = before ++ call :: after →
    ∃ b, call.source = .vectorSource b ∧ b.data = source.data ∧ call.Follows b before

namespace Playing

variable {i : Nat} {source : VectorSource} {p : Playback}

theorem new {x : Execution Builtin} {n : Node Builtin} (hn : x.graph.node? i = some n)
    (hne : source.data ≠ []) (htyped : (Builtin.vectorSource source).IsTyped)
    (hsettle : Block.settle (.vectorSource source) = (.ok (), n.block)) :
    Playing i source (.new (x.start i).2) := by
  obtain ⟨-, hblock⟩ := Builtin.settle_vectorSource_iff.mp hsettle
  have hdata : n.block.HasData := hblock ▸ hne
  have haccepted : n.block.Accepted := by
    rcases (Builtin.vectorSource source).settle_cases with ⟨e, -, h⟩ | ⟨b, h, -, haccepted, -⟩
    · cases h.symm.trans hsettle
    · cases h.symm.trans hsettle
      exact haccepted htyped
  have hstart : (x.start i).2 = x.starting i := by rw [Execution.start_of_hasData hn hdata]
  rw [hstart]
  refine ⟨⟨n.started, _, ?_, congrArg Builtin.started hblock, haccepted.of_form ?_, rfl, rfl, rfl,
    rfl, nofun, fun _ => rfl⟩, fun before call after h => ?_⟩
  · show (x.modifyNode i Node.started).graph.node? i = _
    rw [Execution.node?_modifyNode, hn, Option.map_some, if_pos rfl]
  · rw [hblock]
    rfl
  · cases before <;> cases h

theorem call (h : Playing i source p) (hne : source.data ≠ [])
    (hok : ∀ call ∈ (p.step i .call).calls, ∀ e, call.outcome ≠ .failed e) :
    Playing i source (p.step i .call) := by
  obtain ⟨n, b, hn, hb, hstands⟩ := h.node
  obtain ⟨m, hm, hafter, hcalls⟩ := step_call hn
  rw [hb] at hafter hcalls
  obtain ⟨outcome, b', y, chunk, hwatch, hstands', hfollows⟩ := hstands.work hne p.exec i fun e =>
    hok _ (hcalls ▸ List.mem_append_right _ (List.mem_singleton_self _)) e
  rw [hwatch] at hafter hcalls
  refine ⟨⟨m, b', hm, hafter, hcalls ▸ hstands'⟩, fun before call after hsplit => ?_⟩
  rw [hcalls] at hsplit
  rcases List.eq_nil_or_concat after with rfl | ⟨rest, last, rfl⟩
  · obtain ⟨rfl, hcall⟩ := List.append_inj' hsplit rfl
    cases hcall
    exact ⟨b, rfl, hstands.data, hfollows⟩
  · rw [List.concat_eq_append, ← List.cons_append, ← List.append_assoc] at hsplit
    exact h.calls before call rest (List.append_inj' hsplit rfl).1

theorem step (h : Playing i source p) (hne : source.data ≠ []) (event : Event)
    (hok : ∀ call ∈ (p.step i event).calls, ∀ e, call.outcome ≠ .failed e) :
    Playing i source (p.step i event) := by
  cases event with
  | call => exact h.call hne hok
  | update settings =>
    obtain ⟨n, b, hn, hb, hstands⟩ := h.node
    obtain ⟨repeating, hblock⟩ := n.apply_vectorSource hb (hb ▸ hstands.accepted) settings
    refine ⟨⟨_, { b with repeating }, ?_, hblock, hstands.repeating repeating⟩, h.calls⟩
    show (p.exec.modifyNode i _).graph.node? i = _
    rw [Execution.node?_modifyNode, hn, Option.map_some, if_pos rfl]
  | rewire connections => exact ⟨h.node, h.calls⟩

theorem run (h : Playing i source p) (hne : source.data ≠ []) (events : List Event)
    (hok : ∀ call ∈ (p.run i events).calls, ∀ e, call.outcome ≠ .failed e) :
    Playing i source (p.run i events) := by
  induction events using List.reverseRecOn with
  | nil => exact h
  | append_singleton events event ih =>
    rw [run_concat] at hok ⊢
    obtain ⟨calls, hcalls⟩ := calls_step i (p.run i events) event
    refine (ih fun call hcall => hok call ?_).step hne event hok
    rw [hcalls]
    exact List.mem_append_left calls hcall

end Playing

/-- A vector source with any data plays it as one stream that repeats, whatever the output space at
each call, and whatever is updated while it runs. It is started with settings that were accepted,
its work calls come at any time, and between them streams change and settings are updated, or are
refused. As long as no call fails, sample `k` of all that is emitted is sample `k` of the data,
counted round and round, and the tags on it are the configured ones, in their order; there are no
other tags. A call emits as many samples as fit, at most what is left of the data unless the source
repeats, and is done if it does not repeat and the samples make up whole rounds. If nothing fits it
emits nothing, for want of output. But if the source does not repeat, and the last call that emitted
anything was done with it, then every call is done and emits nothing, with or without space. -/
theorem playback_exact (x : Execution Builtin) (i : Nat) {n : Node Builtin}
    (hn : x.graph.node? i = some n) {source : VectorSource} (hne : source.data ≠ [])
    (htyped : ∀ sample ∈ source.data, sample.type = source.type)
    (hsettle : Block.settle (.vectorSource source) = (.ok (), n.block)) (events : List Event) :
    let p := (Playback.new (x.start i).2).run i events
    let emitted := Emission.together p.calls
    (∀ call ∈ p.calls, ∀ e, call.outcome ≠ .failed e) →
      (∀ k < emitted.samples.length,
        emitted.samples[k]? = source.data[k % source.data.length]? ∧
        on k emitted.tags =
          (on (k % source.data.length : Nat) source.tags).map fun t => { t with index := k }) ∧
      Within emitted.samples.length emitted.tags ∧
      ∀ before call after, p.calls = before ++ call :: after →
        ∃ b, call.source = .vectorSource b ∧ b.data = source.data ∧ call.Follows b before := by
  intro p emitted hok
  obtain ⟨⟨_, b, -, -, hstands⟩, hcalls⟩ := (Playing.new hn hne htyped hsettle).run hne events hok
  have htogether : emitted = (VectorSource.rounds source.data source.tags).chunk 0
      emitted.samples.length := hstands.together
  have hcovers := VectorSource.covers_rounds hne source.tags
  rw [htogether, Signal.length_chunk (hcovers _)]
  refine ⟨fun k hk => ⟨?_, ?_⟩, Signal.within_tags_chunk, hcalls⟩
  · obtain ⟨sample, hsample, hround⟩ := VectorSource.rounds_eq hne source.tags k
    rw [Signal.getElem?_samples (hcovers _) hk, Nat.zero_add, hround, hsample]
    rfl
  · rw [Signal.on_tags_chunk, if_pos hk, Nat.zero_add, VectorSource.tagsAt_rounds hne, List.map_map]
    rfl

/-- A source whose settings have been accepted, and a sink. -/
def player (source : VectorSource) (capacity : Nat) : Execution Builtin where
  graph :=
    { nodes := [.new "Source" "" (.vectorSource source) 0,
        .new "Sink" "" (.nullSink (.new source.type)) 0]
      connections := [⟨⟨0, 0⟩, ⟨1, 0⟩, some capacity, source.type, some (.empty capacity)⟩]
      config := .default }
  inboxId := 0
  inbox := []
  trace := #[]
  journal := #[]
  log := #[]

/-- Two samples with a tag on each. -/
def twoSamples (tags : List Tag) : VectorSource :=
  { VectorSource.new (.int .i32) with data := [.int .i32 5, .int .i32 6], tags }

/-- The data is played once, and again when the source is told to repeat, until there is no space.
With space again, it plays what is left of the round, for it has been told not to repeat. -/
def encore : List Event :=
  [.call, .call, .update [("repeat", .bool true)], .call, .call,
    .update [("repeat", .bool false)],
    .rewire [⟨⟨0, 0⟩, ⟨1, 0⟩, some 4, .int .i32, some (.empty 4)⟩], .call]

theorem outcomes_encore : ((Playback.new ((player (twoSamples [⟨0, []⟩, ⟨1, []⟩]) 3).start 0).2).run
    0 encore).calls.map Emission.outcome =
      [.status .done, .status .done, .status .ok, .status .insufficientOutput, .status .done] := by
  cbv

theorem playback_exact_encore :
    Block.settle (.vectorSource (twoSamples [⟨1, []⟩, ⟨0, []⟩])) =
        (.ok (), Builtin.vectorSource (twoSamples [⟨0, []⟩, ⟨1, []⟩])) ∧
      let p := (Playback.new ((player (twoSamples [⟨0, []⟩, ⟨1, []⟩]) 3).start 0).2).run 0 encore
      let emitted := Emission.together p.calls
      p.calls.map Emission.outcome =
          [.status .done, .status .done, .status .ok, .status .insufficientOutput, .status .done] ∧
        (∀ k < emitted.samples.length,
          emitted.samples[k]? = [Sample.int .i32 5, .int .i32 6][k % 2]? ∧
          on k emitted.tags = (on (k % 2 : Nat) [⟨1, []⟩, ⟨0, []⟩]).map
            fun t => { t with index := k }) ∧
        Within emitted.samples.length emitted.tags := by
  have hsettle : Block.settle (.vectorSource (twoSamples [⟨1, []⟩, ⟨0, []⟩])) =
      (.ok (), Builtin.vectorSource (twoSamples [⟨0, []⟩, ⟨1, []⟩])) := by cbv
  have hnode : (player (twoSamples [⟨0, []⟩, ⟨1, []⟩]) 3).graph.node? 0 =
      some (.new "Source" "" (.vectorSource (twoSamples [⟨0, []⟩, ⟨1, []⟩])) 0) := rfl
  have htyped : ∀ sample ∈ (twoSamples [⟨1, []⟩, ⟨0, []⟩]).data, sample.type = .int .i32 :=
    fun sample hsample => by
      rcases List.mem_pair.mp hsample with rfl | rfl <;> rfl
  refine ⟨hsettle, ?_⟩
  have h := playback_exact _ 0 hnode (List.cons_ne_nil _ _) htyped hsettle encore
  have houtcomes := outcomes_encore
  generalize (Playback.new ((player (twoSamples [⟨0, []⟩, ⟨1, []⟩]) 3).start 0).2).run 0 encore = p
    at h houtcomes ⊢
  obtain ⟨hsamples, hwithin, -⟩ := h fun call hcall e he => by
    have hmem := List.mem_map_of_mem (f := Emission.outcome) hcall
    rw [houtcomes, he] at hmem
    simp at hmem
  exact ⟨houtcomes, hsamples, hwithin⟩

/-- A source of one sample, which does not repeat. -/
def oneSample : VectorSource := { VectorSource.new (.int .i32) with data := [.int .i32 5] }

theorem calls_oneSample : ((Playback.new ((player oneSample 1).start 0).2).run 0
    [.call, .call]).calls.map (fun call => (call.room, call.chunk.samples, call.outcome)) =
      [(.bounded 1, [.int .i32 5], .status .done), (.bounded 0, [], .status .done)] := by
  cbv

/-- A call that finds no space may be done. -/
theorem done_without_space :
    oneSample.data ≠ [] ∧
      Block.settle (.vectorSource oneSample) = (.ok (), Builtin.vectorSource oneSample) ∧
      let p := (Playback.new ((player oneSample 1).start 0).2).run 0 [.call, .call]
      (∀ call ∈ p.calls, ∀ e, call.outcome ≠ .failed e) ∧
        ¬ ∀ call ∈ p.calls, call.room.clip maxSourceChunk = 0 →
          call.outcome = .status .insufficientOutput := by
  refine ⟨List.cons_ne_nil _ _, by cbv, ?_⟩
  have hcalls := calls_oneSample
  generalize (Playback.new ((player oneSample 1).start 0).2).run 0 [.call, .call] = p at hcalls ⊢
  refine ⟨fun call hcall e he => ?_, fun hblocked => ?_⟩
  · have hmem := List.mem_map_of_mem (f := fun call => (call.room, call.chunk.samples,
      call.outcome)) hcall
    rw [hcalls, he] at hmem
    simp at hmem
  · have hmem : (Room.bounded 0, ([] : List Sample), WorkOutcome.status .done) ∈
        p.calls.map fun call => (call.room, call.chunk.samples, call.outcome) := by
      rw [hcalls]
      exact List.mem_cons_of_mem _ List.mem_cons_self
    obtain ⟨call, hcall, heq⟩ := List.mem_map.mp hmem
    simp only [Prod.mk.injEq] at heq
    obtain ⟨hroom, -, hdone⟩ := heq
    have hnone := hblocked call hcall (by rw [hroom]; rfl)
    rw [hdone] at hnone
    cases hnone

end Playback
end Dataflow
