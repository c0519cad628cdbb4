import Dataflow.Proofs.Flow.Effect
import Dataflow.Proofs.Stream.Chunk

/-!
# Handing samples over

`Copy` and `Head` read a chunk before they publish it. They read no more samples than there is
room for if each of these has a tag, but a sample may have several: then a stream may have no room
for the tags of the chunk, publishing fails, and the chunk is lost, since it is read. This is all
that can go wrong (`Execution.handover_exact`): the tags of a chunk are in place (`Tag.Within`), so
that a stream with room for them accepts them all.
-/

namespace Dataflow

open Tag

namespace Graph

/-- The streams at an output after the stream at an input has changed, which may be one of them. -/
theorem outputStreams_modifyInput {connections : List Connection} {target : Endpoint}
    {s : Stream Sample} (source : Endpoint) (s' : Stream Sample)
    (htargets : connections.Pairwise fun c d => c.target ≠ d.target)
    (hs : inputStream? connections target = some s) :
    List.Forall₂ (fun t t' => t' = t ∨ t = s ∧ t' = s') (outputStreams connections source)
      (outputStreams (modifyInput target (fun _ => s') connections) source) := by
  obtain ⟨d, hd, hdt, hds⟩ := exists_of_inputStream? hs
  have honly : ∀ c ∈ connections, c.target = target → c.stream = some s := fun c hc hct => by
    have hcd : c = d := List.inj_on_of_nodup_map (List.pairwise_map.mpr htargets) hc hd
      (hct.trans hdt.symm)
    rw [hcd, hds]
  clear htargets hs hd
  simp only [outputStreams, modifyInput]
  induction connections with
  | nil => exact .nil
  | cons c rest ih =>
    have hrest := ih fun c hc => honly c (List.mem_cons_of_mem _ hc)
    simp only [List.map_cons, List.filterMap_cons]
    by_cases htarget : c.target = target
    · have hstream := honly c List.mem_cons_self htarget
      by_cases hsource : c.source = source
      · simp only [htarget, hsource, hstream, if_true, Option.map_some]
        exact .cons (.inr ⟨rfl, rfl⟩) hrest
      · simp only [htarget, hsource, if_true, if_false]
        exact hrest
    · by_cases hsource : c.source = source
      · simp only [htarget, hsource, if_true, if_false]
        cases c.stream with
        | none => exact hrest
        | some t => exact .cons (.inl rfl) hrest
      · simp only [htarget, hsource, if_false]
        exact hrest

end Graph

namespace Execution

section Steps

variable {β γ : Type} (x : Execution β) (i : Nat) (b : γ) (t : SampleType)

theorem runWork_withReader_cases (next : InputStatus → Work (WorkOutcome × γ)) :
    (∃ e, x.runWork i (Work.withReader 0 t b next) = ((.failed e, b), x)) ∨
      ∃ s schema, Graph.inputStream? x.graph.connections ⟨i, 0⟩ = some s ∧
        x.runWork i (Work.withReader 0 t b next) =
          x.runWork i (next ⟨schema, true, s.available, s.closed, s.exhausted⟩) := by
  simp only [runWork, Work.withReader, Program.run, answerWork]
  cases x.port i Node.inputs 0 with
  | error e => exact .inl ⟨_, rfl⟩
  | ok schema =>
    simp only [Except.map, Graph.inputStatus]
    cases hs : Graph.inputStream? x.graph.connections ⟨i, 0⟩ with
    | none => exact .inl ⟨_, rfl⟩
    | some s =>
      by_cases htype : schema.type = t
      · exact .inr ⟨s, schema, rfl, by simp [Work.readerError?, htype]⟩
      · exact .inl ⟨_, by simp [Work.readerError?, htype, Work.fail, Program.run]; rfl⟩

theorem runWork_withWriter_cases (next : OutputStatus → Work (WorkOutcome × γ)) :
    (∃ e, x.runWork i (Work.withWriter 0 t b next) = ((.failed e, b), x)) ∨
      ∃ schema, x.runWork i (Work.withWriter 0 t b next) =
          x.runWork i (next (Graph.outputStatus x.graph.connections ⟨i, 0⟩ schema)) := by
  simp only [runWork, Work.withWriter, Program.run, answerWork]
  cases x.port i Node.outputs 0 with
  | error e => exact .inl ⟨_, rfl⟩
  | ok schema =>
    simp only [Except.map]
    cases Work.writerError? (Graph.outputStatus x.graph.connections ⟨i, 0⟩ schema) t with
    | none => exact .inr ⟨schema, rfl⟩
    | some e => exact .inl ⟨_, rfl⟩

end Steps

/-- What becomes of a chunk that block `i` has read, which made the connections `read`. Either there
is room for its tags in all live streams at the output, and each of them receives the chunk with
all tags, or there is not, and none receives it. -/
inductive Handover (i : Nat) (read : List Connection) (chunk : Chunk Sample) :
    WorkOutcome → List Connection → Prop where
  | received {status : WorkStatus} (hstatus : status = .ok ∨ status = .done)
    (hfits : Graph.outputStreams read ⟨i, 0⟩ = [] ∨
      chunk.tags.length ≤ FanOut.least Stream.tagSpace (Graph.outputStreams read ⟨i, 0⟩))
    (hall : ∀ t ∈ Graph.outputStreams read ⟨i, 0⟩, t.detached = false →
      (t.receive chunk).unread.toList = t.unread.toList ++ chunk.samples ∧
        (t.receive chunk).arriving.toList =
          t.arriving.toList ++ chunk.tags.map (·.shift t.written)) :
    Handover i read chunk (.status status) (Graph.setOutputs ⟨i, 0⟩ read
      ((Graph.outputStreams read ⟨i, 0⟩).map (Stream.receive chunk)))
  | lost (hne : Graph.outputStreams read ⟨i, 0⟩ ≠ [])
    (hfull : FanOut.least Stream.tagSpace (Graph.outputStreams read ⟨i, 0⟩) < chunk.tags.length) :
    Handover i read chunk (.failed (.stream (.insufficientTagSpace chunk.tags.length
      (FanOut.least Stream.tagSpace (Graph.outputStreams read ⟨i, 0⟩))))) read

theorem Handover.of_full {i : Nat} {read connections : List Connection} {chunk : Chunk Sample}
    {outcome : WorkOutcome} (h : Handover i read chunk outcome connections)
    (hne : Graph.outputStreams read ⟨i, 0⟩ ≠ [])
    (hfull : FanOut.least Stream.tagSpace (Graph.outputStreams read ⟨i, 0⟩) < chunk.tags.length) :
    outcome = .failed (.stream (.insufficientTagSpace chunk.tags.length
      (FanOut.least Stream.tagSpace (Graph.outputStreams read ⟨i, 0⟩)))) ∧ connections = read := by
  cases h with
  | received _ hfits => exact absurd (hfits.resolve_left hne) (Nat.not_le.mpr hfull)
  | lost => exact ⟨rfl, rfl⟩

section Handing

variable {β γ : Type} {x : Execution β} {i r : Nat} {b b' : γ} {s : Stream Sample}
  {status : WorkStatus}

theorem handover_publishing {chunk : Chunk Sample} (hstatus : status = .ok ∨ status = .done)
    (hwithin : Within chunk.samples.length chunk.tags)
    (hroom : Graph.outputStreams x.graph.connections ⟨i, 0⟩ = [] ∨ chunk.samples.length ≤
      FanOut.least Stream.space (Graph.outputStreams x.graph.connections ⟨i, 0⟩)) :
    let run := x.runWork i
      (Work.publishing 0 chunk.samples chunk.tags b (Work.report status b'))
    Handover i x.graph.connections chunk run.1.1 run.2.graph.connections := by
  intro run
  let streams := Graph.outputStreams x.graph.connections ⟨i, 0⟩
  let log := FanOut.publishLog streams chunk.samples chunk.tags
  by_cases hfits : streams = [] ∨ chunk.tags.length ≤ FanOut.least Stream.tagSpace streams
  · have hnone : streams = [] ∨ FanOut.refusal? streams chunk.samples chunk.tags = none := by
      rcases hroom with hnil | hroom
      · exact .inl hnil
      · exact hfits.imp id fun hfits => FanOut.refusal?_eq_none_iff.mpr ⟨hroom, hfits⟩
    have hpublish : FanOut.publish (Graph.outputStreams x.graph.connections ⟨i, 0⟩) chunk.samples
        chunk.tags = (.ok (), streams.map (Stream.receive chunk)) :=
      (FanOut.publish_of_fits hnone).1
    have hanswer : answerWork i (.publish 0 chunk.samples chunk.tags) x =
        (.ok (), (x.setConnections (Graph.setOutputs ⟨i, 0⟩ x.graph.connections
          (streams.map (Stream.receive chunk)))).addLog log) := by
      simp only [answerWork, hpublish]
      rfl
    rw [show run = _ from runWork_ask hanswer]
    exact .received hstatus hfits fun t _ hlive => Stream.receive_of_within hlive hwithin
  · obtain ⟨hne, hfull⟩ := not_or.mp hfits
    have hsame : Graph.setOutputs ⟨i, 0⟩ x.graph.connections streams = x.graph.connections := by
      simpa using Graph.setOutputs_map ⟨i, 0⟩ id x.graph.connections
    have hpublish : FanOut.publish (Graph.outputStreams x.graph.connections ⟨i, 0⟩) chunk.samples
        chunk.tags = (.error (.insufficientTagSpace chunk.tags.length
          (FanOut.least Stream.tagSpace streams)), streams) :=
      FanOut.publish_of_overfull hne (hroom.resolve_left hne) (Nat.not_le.mp hfull)
    have hanswer : answerWork i (.publish 0 chunk.samples chunk.tags) x =
        (.error (.insufficientTagSpace chunk.tags.length (FanOut.least Stream.tagSpace streams)),
          (x.setConnections x.graph.connections).addLog log) := by
      simp only [answerWork, hpublish, hsame]
      rfl
    rw [show run = _ from runWork_ask hanswer]
    exact .lost hne (Nat.not_le.mp hfull)

variable (htargets : x.graph.connections.Pairwise fun c d => c.target ≠ d.target)
  (hreached : ∀ s, Graph.inputStream? x.graph.connections ⟨i, 0⟩ = some s →
    ∃ (capacity : Nat) (ops : List (Stream.Op Sample)),
      s = ((Stream.History.new capacity).run ops).stream)
include htargets hreached

theorem handover_taking (hs : Graph.inputStream? x.graph.connections ⟨i, 0⟩ = some s)
    (hr : r ≤ s.available) (hstatus : status = .ok ∨ status = .done)
    (hroom : Graph.outputStreams x.graph.connections ⟨i, 0⟩ = [] ∨
      r ≤ FanOut.least Stream.space (Graph.outputStreams x.graph.connections ⟨i, 0⟩)) :
    let run := x.runWork i (Work.taking 0 r fun chunk =>
      Work.publishing 0 chunk.samples chunk.tags b (Work.report status b'))
    Handover i (Graph.modifyInput ⟨i, 0⟩ (fun _ => (s.take r).2) x.graph.connections) (s.take r).1
      run.1.1 run.2.graph.connections := by
  intro run
  obtain ⟨hlength, hwithin⟩ : (s.take r).1.samples.length = r ∧
      Within (s.take r).1.samples.length (s.take r).1.tags := by
    obtain ⟨capacity, ops, rfl⟩ := hreached s hs
    exact ((Stream.History.Faithful.new.run ops).take hr).2
  have hanswer : answerWork i (.take 0 r) x =
      ((s.take r).1, (x.setInput ⟨i, 0⟩ (s.take r).2).addLog s.collectLog) := by
    simp only [answerWork, hs]
    rfl
  rw [show run = _ from runWork_ask hanswer]
  refine handover_publishing (x := (x.setInput ⟨i, 0⟩ (s.take r).2).addLog s.collectLog) hstatus
    hwithin ?_
  -- reading may free room at the output too, but takes none
  have hread := Graph.outputStreams_modifyInput ⟨i, 0⟩ (s.take r).2 htargets hs
  rw [hlength]
  refine hroom.imp (fun hnil => ?_) fun hroom => hroom.trans (FanOut.least_le_least ?_)
  · rw [hnil, List.forall₂_nil_left_iff] at hread
    exact hread
  · refine hread.imp fun t t' ht => ?_
    rcases ht with rfl | ⟨rfl, rfl⟩
    · exact ⟨rfl, Nat.le_refl _⟩
    · exact ⟨rfl, Stream.space_le_space_take r⟩

theorem handover_forwarding {t : SampleType} {most : Nat → Nat}
    {next : Nat → Work (WorkOutcome × γ)} (hmost : ∀ k, most k ≤ k ∧ (0 < k → 0 < most k))
    (hnext : ∀ k, ∃ status b', next k = Work.report status b' ∧ (status = .ok ∨ status = .done)) :
    let run := x.runWork i (forwarding t most id b next)
    run.2 = x ∨ ∃ s r, Graph.inputStream? x.graph.connections ⟨i, 0⟩ = some s ∧ 0 < r ∧
      r ≤ s.available ∧
      Handover i (Graph.modifyInput ⟨i, 0⟩ (fun _ => (s.take r).2) x.graph.connections) (s.take r).1
        run.1.1 run.2.graph.connections := by
  intro run
  rcases x.runWork_withReader_cases i b t _ with ⟨e, hrun⟩ | ⟨s, schema, hs, hrun⟩
  · exact .inl (congrArg Prod.snd hrun)
  rcases x.runWork_withWriter_cases i b t _ with ⟨e, hrun'⟩ | ⟨schema', hrun'⟩
  · exact .inl (congrArg Prod.snd (hrun.trans hrun'))
  replace hrun := hrun.trans hrun'
  let room := (Graph.outputStatus x.graph.connections ⟨i, 0⟩ schema').taggedSpace
  by_cases havail : s.available = 0
  · rw [if_pos havail] at hrun
    exact .inl (congrArg Prod.snd hrun)
  by_cases hzero : room.isZero = true
  · rw [if_neg havail, if_pos hzero] at hrun
    exact .inl (congrArg Prod.snd hrun)
  rw [if_neg havail, if_neg hzero] at hrun
  obtain ⟨hle, hpos⟩ := hmost (room.clip s.available)
  obtain ⟨status, b', hreport, hstatus⟩ := hnext (most (room.clip s.available))
  rw [show next (most (Room.clip _ _)) = _ from hreport] at hrun
  refine .inr ⟨s, most (room.clip s.available), hs, hpos (Room.clip_pos (by simpa using hzero)
    (Nat.pos_of_ne_zero havail)), hle.trans (room.clip_le _), ?_⟩
  rw [show run = _ from hrun]
  exact handover_taking htargets hreached hs (hle.trans (room.clip_le _)) hstatus
    ((FanOut.clip_taggedSpace_le _ _).imp id hle.trans)

end Handing

/-- A work call of a copying or heading block leaves everything as it was, or reads `r` samples at
its input and hands them over with all of their tags to every live stream at its output, unless
some stream there has no room for the tags. Then, and only then, the call fails with the input
advanced, and the samples are lost. Ports that cannot be used do no harm, and neither does a
stream that leads from the block back to it. -/
theorem handover_exact {β : Type} (x : Execution β) (i : Nat) {b : Builtin}
    (hb : b.kind = .copy ∨ b.kind = .head)
    (htargets : x.graph.connections.Pairwise fun c d => c.target ≠ d.target)
    (hreached : ∀ s, Graph.inputStream? x.graph.connections ⟨i, 0⟩ = some s →
      ∃ (capacity : Nat) (ops : List (Stream.Op Sample)),
        s = ((Stream.History.new capacity).run ops).stream) :
    let run := x.runWork i (Block.work b)
    run.2 = x ∨ ∃ s r, Graph.inputStream? x.graph.connections ⟨i, 0⟩ = some s ∧ 0 < r ∧
      r ≤ s.available ∧ (s.take r).1.samples = s.unread.toList.take r ∧
      (s.take r).2.read = s.read + r ∧
      Handover i (Graph.modifyInput ⟨i, 0⟩ (fun _ => (s.take r).2) x.graph.connections) (s.take r).1
        run.1.1 run.2.graph.connections := by
  intro run
  have hread : ∀ s : Stream Sample, Graph.inputStream? x.graph.connections ⟨i, 0⟩ = some s →
      ∀ r ≤ s.available, (s.take r).1.samples = s.unread.toList.take r ∧
        (s.take r).2.read = s.read + r := by
    intro s hs r hr
    obtain ⟨capacity, ops, rfl⟩ := hreached s hs
    exact ⟨((Stream.History.Faithful.new.run ops).take hr).1,
      congrArg _ (Nat.min_eq_left hr)⟩
  suffices hhanded : run.2 = x ∨ ∃ s r, Graph.inputStream? x.graph.connections ⟨i, 0⟩ = some s ∧
      0 < r ∧ r ≤ s.available ∧
      Handover i (Graph.modifyInput ⟨i, 0⟩ (fun _ => (s.take r).2) x.graph.connections) (s.take r).1
        run.1.1 run.2.graph.connections by
    refine hhanded.imp id ?_
    rintro ⟨s, r, hs, hpos, hr, hover⟩
    obtain ⟨hsamples, hadvanced⟩ := hread s hs r hr
    exact ⟨s, r, hs, hpos, hr, hsamples, hadvanced, hover⟩
  cases b with
  | head b =>
    by_cases hrest : (b.numItems - b.published).toNat = 0
    · rw [show run = _ from congrArg (x.runWork i) (work_head_of_done hrest)]
      exact .inl rfl
    · rw [show run = _ from (congrArg (x.runWork i) (work_head hrest)).trans (runWork_map ..)]
      refine handover_forwarding htargets hreached
        (fun k => ⟨Nat.min_le_left .., fun hk => by omega⟩) fun k => ?_
      unfold ending
      dsimp only
      split
      · exact ⟨.done, _, rfl, .inr rfl⟩
      · exact ⟨.ok, _, rfl, .inl rfl⟩
  | copy b =>
    rw [show run = _ from (congrArg (x.runWork i) (work_copy b)).trans (runWork_map ..)]
    exact handover_forwarding htargets hreached (fun k => ⟨Nat.le_refl k, id⟩)
      fun k => ⟨.ok, b, rfl, .inl rfl⟩
  | _ => rcases hb with hb | hb <;> cases hb

/-- One sample with more tags than a small stream has slots for. -/
def crowded : Chunk Sample := ⟨[.int .i32 1], List.replicate 65 ⟨0, []⟩⟩

/-- A large stream that has been given a crowded chunk. -/
def crowdedStream : Stream Sample :=
  ((Stream.History.new 65).run [.push crowded.samples crowded.tags]).stream

/-- A source has published a crowded chunk, which is to be copied into a small stream. -/
def crowding : Execution Builtin where
  graph :=
    { nodes := [.new "Source" "" (.nullSource (.new (.int .i32))) 0,
        .new "Copy" "" (.copy ⟨.int .i32⟩) 0, .new "Sink" "" (.nullSink (.new (.int .i32))) 0]
      connections := [⟨⟨0, 0⟩, ⟨1, 0⟩, some 65, .int .i32, some crowdedStream⟩,
        ⟨⟨1, 0⟩, ⟨2, 0⟩, some 4, .int .i32, some (.empty 4)⟩]
      config := .default }
  inboxId := 0
  inbox := []
  trace := #[]
  journal := #[]
  log := #[]

theorem within_crowded : Within crowded.samples.length crowded.tags := by
  refine ⟨?_, fun t ht => ?_⟩
  · exact List.pairwise_replicate.mpr (.inr (Int.le_refl 0))
  · rw [List.eq_of_mem_replicate ht]
    decide

theorem crowdedStream_eq :
    crowdedStream = (Stream.empty 65).pushed crowded.samples crowded.tags := by
  have hpush : (Stream.empty 65).push crowded.samples crowded.tags =
      .ok ((Stream.empty 65).pushed crowded.samples crowded.tags) := by
    refine Stream.push_eq_ok_iff.mpr ⟨by decide, ?_, rfl⟩
    exact Stream.length_acceptedTags_le.trans (by decide)
  simp only [crowdedStream, Stream.History.run, List.foldl_cons, List.foldl_nil,
    Stream.History.step, Stream.History.new, hpush]

theorem take_crowdedStream : (crowdedStream.take 1).1 = crowded := by
  rw [crowdedStream_eq]
  exact Stream.take_pushed_empty 65 within_crowded

/-- The one copy of the sample is gone: the call has failed, the input is advanced, and the stream
at the output is as empty as before. -/
theorem crowding_lost :
    let run := crowding.runWork 1 (Block.work (Builtin.copy ⟨.int .i32⟩))
    run.1.1 = .failed (.stream (.insufficientTagSpace 65 64)) ∧
      (crowding.graph.feed? 1).map Stream.available = some 1 ∧
      (run.2.graph.feed? 1).map Stream.available = some 0 ∧
      (run.2.graph.feed? 2).map Stream.written = some 0 := by
  intro run
  have hfeed : crowding.graph.feed? 1 = some crowdedStream := rfl
  have havail : crowdedStream.available = 1 := by
    rw [crowdedStream_eq]
    rfl
  let copy : Copy := ⟨.int .i32⟩
  let call := crowding.runWork 1 (Work.taking 0 1 fun chunk =>
    Work.publishing 0 chunk.samples chunk.tags copy (Work.report .ok copy))
  have hnode : crowding.graph.node? 1 = some (.new "Copy" "" (.copy copy) 0) := rfl
  have hcall : crowding.runWork 1
      (forwarding (.int .i32) id id copy fun _ => Work.report .ok copy) = call := by
    rw [forwarding, runWork_withReader (t := .int .i32) hnode ⟨rfl, rfl⟩ rfl rfl hfeed,
      runWork_withWriter (t := .int .i32) hnode ⟨rfl, rfl⟩ rfl rfl]
    dsimp only
    rw [havail]
    rfl
  have hrun : run = (call.1.map id Builtin.copy, call.2) :=
    (runWork_map _ (forwarding (.int .i32) id id copy fun _ => Work.report .ok copy)).trans
      (by rw [hcall])
  have hover : Handover 1 (Graph.modifyInput ⟨1, 0⟩ (fun _ => (crowdedStream.take 1).2)
      crowding.graph.connections) (crowdedStream.take 1).1 call.1.1 call.2.graph.connections :=
    handover_taking (by decide) (fun s hs => ⟨65, _, Option.some.inj (hs.symm.trans hfeed)⟩) hfeed
      havail.ge (.inl rfl) (.inr (by decide))
  rw [take_crowdedStream] at hover
  obtain ⟨houtcome, hconnections⟩ := hover.of_full (List.cons_ne_nil _ _) (by decide)
  refine ⟨?_, ?_, ?_, ?_⟩
  · rw [hrun]
    exact houtcome
  · rw [hfeed, Option.map_some, havail]
  · rw [hrun]
    show (Graph.inputStream? call.2.graph.connections ⟨1, 0⟩).map Stream.available = some 0
    rw [hconnections]
    show some (crowdedStream.take 1).2.available = some 0
    rw [crowdedStream_eq]
    rfl
  · rw [hrun]
    show (Graph.inputStream? call.2.graph.connections ⟨2, 0⟩).map Stream.written = some 0
    rw [hconnections]
    rfl

/-- The same call as a case of the general result. -/
theorem handover_exact_crowding :
    (crowding.graph.connections.Pairwise fun c d => c.target ≠ d.target) ∧
      (∀ s, Graph.inputStream? crowding.graph.connections ⟨1, 0⟩ = some s →
        ∃ (capacity : Nat) (ops : List (Stream.Op Sample)),
          s = ((Stream.History.new capacity).run ops).stream) ∧
      let run := crowding.runWork 1 (Block.work (Builtin.copy ⟨.int .i32⟩))
      run.2 = crowding ∨ ∃ r, 0 < r ∧ r ≤ 1 ∧ Handover 1
        (Graph.modifyInput ⟨1, 0⟩ (fun _ => (crowdedStream.take r).2) crowding.graph.connections)
        (crowdedStream.take r).1 run.1.1 run.2.graph.connections := by
  have htargets : crowding.graph.connections.Pairwise fun c d => c.target ≠ d.target := by decide
  have hfeed : Graph.inputStream? crowding.graph.connections ⟨1, 0⟩ = some crowdedStream := rfl
  have hreached : ∀ s, Graph.inputStream? crowding.graph.connections ⟨1, 0⟩ = some s →
      ∃ (capacity : Nat) (ops : List (Stream.Op Sample)),
        s = ((Stream.History.new capacity).run ops).stream :=
    fun s hs => ⟨65, _, Option.some.inj (hs.symm.trans hfeed)⟩
  refine ⟨htargets, hreached, ?_⟩
  have h := handover_exact crowding 1 (b := .copy ⟨.int .i32⟩) (.inl rfl) htargets hreached
  refine h.imp id ?_
  rintro ⟨s, r, hs, hpos, hr, -, -, hover⟩
  cases hs.symm.trans hfeed
  refine ⟨r, hpos, ?_, hover⟩
  rw [crowdedStream_eq] at hr
  exact hr

end Execution
end Dataflow
