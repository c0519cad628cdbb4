import Dataflow.Proofs.Flow.Bench
import Dataflow.Proofs.Flow.Start
import Mathlib

/-!
# Blocks that pass samples on

`Copy`, `TagGate` and `Head` move samples from their input to their output. How many they move in
one call depends on what is there, on the room in the streams that are still read, and for `Head` on
what is left of its number of items; so a call may split a stream anywhere. On a bench, however,
each stream at the output that is still read has got all that the block has read so far
(`Bench.Passing`). The invariant says so in positions counted from the start of a stream: a tag is
shifted when it is read and shifted back when it is written, and the two shifts are the same, since
as many samples were written to a live output as were read (`Bench.Feeds.move`).
-/

namespace Dataflow

open Tag

namespace Builtin

/-- What a block leaves of the tags on the samples that it passes. -/
def passedTags : Builtin → List Tag → List Tag
  | tagGate _, _ => []
  | _, tags => tags

/-- The number of samples that a block passes, if it stops at some. -/
def limit? : Builtin → Option Nat
  | head h => some h.numItems.toNat
  | _ => none

/-- How many of the samples that are there and fit a block passes in a call, if it has passed `k`
since it was started. -/
def share (k : Nat) : Builtin → Nat → Nat
  | head h, n => min n (h.numItems.toNat - k)
  | _, n => n

/-- A block that has passed `k` samples since it was started. -/
def having (k : Nat) : Builtin → Builtin
  | head h => head { h with published := k }
  | b => b

/-- What a block reports that has just passed its `k`-th sample. -/
def reportAt (b : Builtin) (k : Nat) : WorkStatus := if b.limit? = some k then .done else .ok

variable {b : Builtin}

theorem passedTags_append (b : Builtin) (ts us : List Tag) :
    b.passedTags (ts ++ us) = b.passedTags ts ++ b.passedTags us := by
  cases b <;> rfl

theorem passedTags_map (b : Builtin) (f : Tag → Tag) (ts : List Tag) :
    b.passedTags (ts.map f) = (b.passedTags ts).map f := by
  cases b <;> rfl

theorem passedTags_sublist (b : Builtin) (ts : List Tag) : (b.passedTags ts).Sublist ts := by
  cases b with
  | tagGate => exact List.nil_sublist ts
  | _ => exact List.Sublist.refl ts

end Builtin

namespace Execution

section Wrapping

variable {β γ : Type} (wrap : β → γ) (t : SampleType) (b : β)

theorem map_withReader (next : InputStatus → Work (WorkOutcome × β)) :
    (Work.withReader 0 t b next).map (·.map id wrap) =
      Work.withReader 0 t (wrap b) fun s => (next s).map (·.map id wrap) := by
  refine congrArg (Program.ask _) (funext fun reply => ?_)
  cases reply with
  | error e => rfl
  | ok s =>
    dsimp only
    cases Work.readerError? s t <;> rfl

theorem map_withWriter (next : OutputStatus → Work (WorkOutcome × β)) :
    (Work.withWriter 0 t b next).map (·.map id wrap) =
      Work.withWriter 0 t (wrap b) fun s => (next s).map (·.map id wrap) := by
  refine congrArg (Program.ask _) (funext fun reply => ?_)
  cases reply with
  | error e => rfl
  | ok s =>
    dsimp only
    cases Work.writerError? s t <;> rfl

theorem map_publishing (samples : List Sample) (tags : List Tag)
    (next : Work (WorkOutcome × β)) :
    (Work.publishing 0 samples tags b next).map (·.map id wrap) =
      Work.publishing 0 samples tags (wrap b) (next.map (·.map id wrap)) :=
  congrArg (Program.ask _) (funext fun reply => by cases reply <;> rfl)

theorem map_forwarding (most : Nat → Nat) (keep : List Tag → List Tag)
    (next : Nat → Work (WorkOutcome × β)) :
    (forwarding t most keep b next).map (·.map id wrap) =
      forwarding t most keep (wrap b) fun m => (next m).map (·.map id wrap) := by
  rw [forwarding, map_withReader, forwarding]
  congr 1
  funext input
  rw [map_withWriter]
  congr 1
  funext output
  split
  · rfl
  split
  · rfl
  exact congrArg (Program.ask _) (funext fun chunk => map_publishing wrap b _ _ _)

end Wrapping

/-- A block that passes samples on is done, or it forwards. -/
theorem work_passing {b : Builtin} (hkind : b.kind = .copy ∨ b.kind = .tagGate ∨ b.kind = .head)
    (k : Nat) :
    (∃ limit, b.limit? = some limit ∧ limit ≤ k ∧ (∀ j, b.share k j = 0) ∧
        Block.work (b.having k) = Work.report .done (b.having k)) ∨
      (∀ j, b.share k j ≤ j ∧ (0 < j → 0 < b.share k j)) ∧
        (∀ limit, b.limit? = some limit → k < limit ∧ ∀ j, k + b.share k j ≤ limit) ∧
        Block.work (b.having k) = forwarding b.sampleType (b.share k) b.passedTags (b.having k)
          fun m => Work.report (b.reportAt (k + m)) (b.having (k + m)) := by
  have hall : ∀ j, id j ≤ j ∧ (0 < j → 0 < id j) := fun j => ⟨Nat.le_refl j, id⟩
  cases b with
  | copy b =>
    refine .inr ⟨hall, fun _ hlimit => (by cases hlimit), ?_⟩
    exact (work_copy b).trans (map_forwarding Builtin.copy ..)
  | tagGate b =>
    refine .inr ⟨hall, fun _ hlimit => (by cases hlimit), ?_⟩
    exact map_forwarding Builtin.tagGate b.type b id (fun _ => []) fun _ => Work.report .ok b
  | head b =>
    have hleft : (b.numItems - k).toNat = b.numItems.toNat - k := by omega
    by_cases hrest : (b.numItems - k).toNat = 0
    · refine .inl ⟨b.numItems.toNat, rfl, by omega, fun j => ?_, ?_⟩
      · simp only [Builtin.share, ← hleft, hrest, Nat.min_zero]
      · exact work_head_of_done (b := { b with published := k }) hrest
    · have hshare : (Builtin.head b).share k = (min · (b.numItems - k).toNat) := by
        funext j
        rw [hleft, Builtin.share]
      have hmost : ∀ j, min j (b.numItems - k).toNat ≤ j ∧
          (0 < j → 0 < min j (b.numItems - k).toNat) := fun j => by omega
      have hlimit : k < b.numItems.toNat ∧
          ∀ j, k + min j (b.numItems - k).toNat ≤ b.numItems.toNat := ⟨by omega, fun j => by omega⟩
      rw [hshare]
      refine .inr ⟨hmost, fun limit h => ?_, ?_⟩
      · cases h
        exact hlimit
      · refine (work_head (b := { b with published := k }) hrest).trans ?_
        refine (map_forwarding Builtin.head ..).trans (congrArg (forwarding _ _ _ _) ?_)
        funext m
        -- the number of samples passed is compared as an integer, and is one
        have hend : ((k + m : Nat) : Int) = b.numItems ↔
            (Builtin.head b).limit? = some (k + m) := by
          simp only [Builtin.limit?, Option.some.injEq]
          omega
        rw [ending]
        simp only [hend, Builtin.reportAt]
        split <;> rfl
  | _ => rcases hkind with hkind | hkind | hkind <;> cases hkind

section Forwarding

variable {γ : Type} (x : Execution Builtin) (i : Nat) (connections : List Connection)

/-- Forwarding fails, or it finds nothing to do, or it moves samples from the input to all live
streams at the output. -/
theorem watch_forwarding_cases {t : SampleType} {most : Nat → Nat} {keep : List Tag → List Tag}
    (hmost : ∀ j, most j ≤ j ∧ (0 < j → 0 < most j)) (c : γ)
    (next : Nat → Work (WorkOutcome × γ)) (hs : Histories) :
    let run := watch (Histories.note connections i) i (forwarding t most keep c next) x hs
    let room := FanOut.taggedSpace (Graph.outputStreams x.graph.connections ⟨i, 0⟩)
    (∃ e, run.1.1.1 = .failed e) ∨
    (∃ st s, (st = .insufficientInput ∨ st = .insufficientOutput) ∧
      Graph.inputStream? x.graph.connections ⟨i, 0⟩ = some s ∧ room.clip s.available = 0 ∧
      run = (((.status st, c), x), hs)) ∨
    ∃ s r log, Graph.inputStream? x.graph.connections ⟨i, 0⟩ = some s ∧ r ≤ s.available ∧
      r = most (room.clip s.available) ∧
      let read := Graph.modifyInput ⟨i, 0⟩ (fun _ => (s.take r).2) x.graph.connections
      let chunk : Chunk Sample := ⟨(s.take r).1.samples, keep (s.take r).1.tags⟩
      (∀ s ∈ Graph.outputStreams read ⟨i, 0⟩, s.detached = false →
        s.push chunk.samples chunk.tags = .ok (s.receive chunk)) ∧
      run = watch (Histories.note connections i) i (next r)
        (x.rewired (read.map fun c =>
          if c.source = ⟨i, 0⟩ then { c with stream := c.stream.map (.receive chunk) } else c) log)
        ((hs.perform ⟨i, 0⟩ (.take r)).publish connections ⟨i, 0⟩ chunk) := by
  intro run room
  have hquiet : ∀ (hs : Histories) (reply : Except PortError InputStatus),
      hs.note connections i ⟨.input 0, reply⟩ = hs := fun hs reply => rfl
  have hquiet' : ∀ (hs : Histories) (reply : Except PortError OutputStatus),
      hs.note connections i ⟨.output 0, reply⟩ = hs := fun hs reply => rfl
  rcases watch_withReader_cases _ i x hs t c hquiet _ with ⟨e, hrun⟩ | ⟨s, schema, hs', hrun⟩
  · exact .inl ⟨e, congrArg (·.1.1.1) hrun⟩
  rcases watch_withWriter_cases _ i x hs t c hquiet' _ with ⟨e, hrun'⟩ | ⟨schema', hrun'⟩
  · exact .inl ⟨e, congrArg (·.1.1.1) (hrun.trans hrun')⟩
  replace hrun := hrun.trans hrun'
  rw [show (Graph.outputStatus x.graph.connections ⟨i, 0⟩ schema').taggedSpace = room from rfl]
    at hrun
  by_cases havail : s.available = 0
  · rw [if_pos havail] at hrun
    have hclip : room.clip s.available = 0 := by
      have hle := room.clip_le s.available
      omega
    exact .inr (.inl ⟨.insufficientInput, s, .inl rfl, hs', hclip, hrun⟩)
  by_cases hzero : room.isZero = true
  · rw [if_neg havail, if_pos hzero] at hrun
    exact .inr (.inl ⟨.insufficientOutput, s, .inr rfl, hs', room.clip_of_isZero hzero _, hrun⟩)
  rw [if_neg havail, if_neg hzero] at hrun
  let r := most (room.clip s.available)
  have hr : r ≤ s.available := (hmost _).1.trans (room.clip_le _)
  replace hrun := hrun.trans (watch_taking hs' _)
  rcases watch_publishing_cases (Histories.note connections i) i
    ((x.setInput ⟨i, 0⟩ (s.take r).2).addLog s.collectLog) (hs.perform ⟨i, 0⟩ (.take r)) c
    (s.take r).1.samples (keep (s.take r).1.tags) (next r) with
    ⟨e, y, hs'', hpub⟩ | ⟨hpush, log, hpub⟩
  · exact .inl ⟨e, congrArg (·.1.1.1) (hrun.trans hpub)⟩
  · exact .inr (.inr ⟨s, r, _, hs', hr, rfl, hpush, hrun.trans hpub⟩)

end Forwarding

end Execution

/-- A stream keeps all tags of a chunk that has them in place. -/
theorem Stream.Push.kept_of_within {α : Type} {w : Stream.Push α}
    (h : Within w.samples.length w.tags) : w.kept = w.placedTags := by
  rw [Stream.Push.kept, Stream.Push.placedTags]
  congr 1
  refine List.filter_eq_self.mpr fun t ht => ?_
  have := h.bounds t ht
  simp only [Bool.and_eq_true, decide_eq_true_eq]
  omega

namespace Bench

/-- A stream has got what `b` passes on of all that was read from another one, if it is still read,
and it has kept all tags that it has got. -/
structure Feeds (b : Builtin) (input output : Stream.History Sample) : Prop where
  live : output.stream.detached = false →
    output.accepted = input.handed ∧ output.published = b.passedTags input.given
  kept : ∀ w ∈ output.pushes, w.kept = w.placedTags

namespace Feeds

variable {b : Builtin} {input output input' output' : Stream.History Sample} {capacity : Nat}

theorem congr (h : Feeds b input output) (hinput : input'.readings = input.readings)
    (houtput : output'.pushes = output.pushes)
    (hlive : output'.stream.detached = false → output.stream.detached = false) :
    Feeds b input' output' := by
  refine ⟨fun hdetached => ?_, houtput ▸ h.kept⟩
  simp only [Stream.History.accepted, Stream.History.handed, Stream.History.published,
    Stream.History.given, hinput, houtput]
  exact h.live (hlive hdetached)

/-- Nothing more goes to a stream whose reader has detached. -/
theorem of_detached (h : Feeds b input output) (hdetached : output.stream.detached ≠ false) :
    Feeds b input' output :=
  ⟨fun hlive => absurd hlive hdetached, h.kept⟩

/-- A chunk is read and written on. -/
theorem move (h : Feeds b input output) (hf : input.Faithful capacity) {capacity' : Nat}
    (hf' : output.Faithful capacity') (hlive : output.stream.detached = false) {r : Nat}
    (hr : r ≤ input.stream.available) {s : Stream Sample}
    (hpush : output.stream.push (input.stream.take r).1.samples
      (b.passedTags (input.stream.take r).1.tags) = .ok s) :
    Feeds b (input.step (.take r)) (output.step (.push (input.stream.take r).1.samples
      (b.passedTags (input.stream.take r).1.tags))) := by
  obtain ⟨haccepted, hpublished⟩ := h.live hlive
  obtain ⟨-, -, hwithin⟩ := hf.take hr
  generalize hchunk : (input.stream.take r).1 = chunk at hpush hwithin ⊢
  -- all that was read was written, so the chunk goes where it came from
  have hwritten : output.stream.written = input.stream.read := by
    rw [hf'.written_eq, hf.read_eq, haccepted]
  have hpushes : (output.step (.push chunk.samples (b.passedTags chunk.tags))).pushes =
      output.pushes ++ [⟨input.stream.read, output.stream.read, chunk.samples,
        b.passedTags chunk.tags⟩] := by
    simp only [Stream.History.step, hpush, hwritten]
  have hreadings : (input.step (.take r)).readings =
      input.readings ++ [⟨input.stream.read, chunk.samples, chunk.tags⟩] := by
    rw [← hchunk]
    rfl
  have hhanded : (input.step (.take r)).handed = input.handed ++ chunk.samples := by
    simp [Stream.History.handed, hreadings]
  have hgiven : b.passedTags (input.step (.take r)).given = b.passedTags input.given ++
      (b.passedTags chunk.tags).map (·.shift input.stream.read) := by
    simp only [Stream.History.given, hreadings, List.flatMap_append, List.flatMap_singleton,
      Stream.Reading.placedTags, b.passedTags_append, b.passedTags_map]
  rw [Stream.History.accepted] at haccepted
  rw [Stream.History.published] at hpublished
  refine ⟨fun _ => ?_, fun w hw => ?_⟩
  · simp only [Stream.History.accepted, Stream.History.published, hpushes, List.flatMap_append,
      List.flatMap_singleton, hhanded, hgiven, haccepted, hpublished, true_and]
    rfl
  · rw [hpushes] at hw
    rcases List.mem_append.mp hw with hw | hw
    · exact h.kept w hw
    · rw [List.mem_singleton.mp hw]
      have hsub := b.passedTags_sublist chunk.tags
      exact Stream.Push.kept_of_within
        ⟨hwithin.ordered.sublist hsub, fun t ht => hwithin.bounds t (hsub.subset ht)⟩

end Feeds

/-- Each stream at the output of block `i` has got what `b` passes on of the stream at its input. -/
structure Passing (i : Nat) (b : Builtin) (connections : List Connection) (hs : Histories) :
    Prop extends Tied i connections hs where
  feeds : ∀ c ∈ connections, c.source = ⟨i, 0⟩ → Feeds b (hs ⟨i, 0⟩) (hs c.target)

namespace Passing

variable {i : Nat} {b : Builtin} {connections : List Connection} {hs : Histories}

/-- What others do to the streams around the block. -/
theorem elsewhere (h : Passing i b connections hs) {target : Endpoint} {op : Stream.Op Sample}
    (hwrite : op.isWriting = true → Graph.linked connections ⟨i, 0⟩ target = false)
    (hread : op.isWriting = false → target ≠ ⟨i, 0⟩) :
    Passing i b (Graph.modifyInput target (fun s => (s.perform op).2) connections)
        (hs.perform target op) ∧
      (hs.perform target op ⟨i, 0⟩).stream.read = (hs ⟨i, 0⟩).stream.read := by
  have htied := h.toTied.perform target op
  have hinput : (hs.perform target op ⟨i, 0⟩).readings = (hs ⟨i, 0⟩).readings := by
    cases hop : op.isWriting with
    | true => exact Histories.readings_perform hop
    | false => rw [hs.perform_of_ne (Ne.symm (hread hop))]
  have houtput : ∀ c ∈ connections, c.source = ⟨i, 0⟩ →
      (hs.perform target op c.target).pushes = (hs c.target).pushes := fun c hc hsource => by
    cases hop : op.isWriting with
    | true =>
      have hne : c.target ≠ target := fun heq => by
        have hlinked := (h.linked_iff hc _).mpr hsource
        rw [heq, hwrite hop] at hlinked
        cases hlinked
      rw [hs.perform_of_ne hne]
    | false => exact Histories.pushes_perform hop
  refine ⟨⟨htied, fun d hd hsource => ?_⟩, ?_⟩
  · obtain ⟨c, hc, hcs, hct⟩ := Graph.exists_of_mem_modifyInput hd
    rw [← hct]
    exact (h.feeds c hc (hcs.trans hsource)).congr hinput (houtput c hc (hcs.trans hsource))
      Histories.detached_perform
  · obtain ⟨capacity, hf⟩ := h.faithful ⟨i, 0⟩
    obtain ⟨capacity', hf'⟩ := htied.faithful ⟨i, 0⟩
    rw [hf'.read_eq, hf.read_eq, Stream.History.handed, hinput, Stream.History.handed]

/-- The block moves a chunk to its output. -/
theorem move (h : Passing i b connections hs) {s : Stream Sample} {r : Nat}
    (hs' : Graph.inputStream? connections ⟨i, 0⟩ = some s) (hr : r ≤ s.available) :
    let read := Graph.modifyInput ⟨i, 0⟩ (fun _ => (s.take r).2) connections
    let chunk : Chunk Sample := ⟨(s.take r).1.samples, b.passedTags (s.take r).1.tags⟩
    (∀ s ∈ Graph.outputStreams read ⟨i, 0⟩, s.detached = false →
      s.push chunk.samples chunk.tags = .ok (s.receive chunk)) →
    let hs' := (hs.perform ⟨i, 0⟩ (.take r)).publish connections ⟨i, 0⟩ chunk
    Passing i b (read.map fun c =>
        if c.source = ⟨i, 0⟩ then { c with stream := c.stream.map (.receive chunk) } else c) hs' ∧
      (hs' ⟨i, 0⟩).stream.read = (hs ⟨i, 0⟩).stream.read + r := by
  intro read chunk hpush hs₂
  obtain rfl := h.stream_eq hs'
  obtain ⟨capacity, hf⟩ := h.faithful ⟨i, 0⟩
  obtain ⟨-, hlength, -⟩ := hf.take hr
  let hs₁ := hs.perform ⟨i, 0⟩ (.take r)
  have htied : Tied i read hs₁ := by
    show Tied i (Graph.modifyInput _ _ _) _
    rw [h.modifyInput_eq hs' fun s => (s.take r).2]
    exact h.toTied.perform ⟨i, 0⟩ (.take r)
  have hs₂_eq : hs₂ = hs₁.publish read ⟨i, 0⟩ chunk := by rw [Histories.publish_modifyInput]
  have hreadings : (hs₂ ⟨i, 0⟩).readings = ((hs ⟨i, 0⟩).step (.take r)).readings := by
    rw [Histories.readings_publish, hs.perform_self]
  have htied₂ := htied.publish hpush
  rw [hs₂_eq] at hreadings ⊢
  refine ⟨⟨htied₂, fun d hd hsource => ?_⟩, ?_⟩
  · obtain ⟨c, hc, rfl⟩ := List.mem_map.mp hd
    have hwire : ∀ f : Stream Sample → Stream Sample,
        (if c.source = ⟨i, 0⟩ then { c with stream := c.stream.map f } else c).source = c.source ∧
        (if c.source = ⟨i, 0⟩ then { c with stream := c.stream.map f } else c).target = c.target :=
      fun f => by split <;> exact ⟨rfl, rfl⟩
    rw [(hwire _).1] at hsource
    rw [(hwire _).2, htied.publish_apply hc]
    obtain ⟨c₀, hc₀, hsource₀, htarget₀⟩ := Graph.exists_of_mem_modifyInput hc
    have hfeeds : Feeds b (hs ⟨i, 0⟩) (hs₁ c.target) :=
      htarget₀ ▸ (h.feeds c₀ hc₀ (hsource₀.trans hsource)).congr rfl
        (Histories.pushes_perform rfl) Histories.detached_perform
    by_cases hlive : (hs₁ c.target).stream.detached = false
    · have hstream := htied.streams c hc (.inl hsource)
      have haccept := hpush _ (Graph.mem_outputStreams.mpr ⟨c, hc, hsource, hstream⟩) hlive
      obtain ⟨capacity', hf'⟩ := htied.faithful c.target
      rw [if_pos ⟨hsource, hlive⟩]
      exact (hfeeds.move hf hf' hlive hr haccept).congr hreadings rfl id
    · rw [if_neg fun hboth => hlive hboth.2]
      exact hfeeds.of_detached hlive
  · obtain ⟨capacity₂, hf₂⟩ := htied₂.faithful ⟨i, 0⟩
    have hhanded : (hs₁.publish read ⟨i, 0⟩ chunk ⟨i, 0⟩).handed =
        (hs ⟨i, 0⟩).handed ++ chunk.samples := by
      simp [Stream.History.handed, hreadings, Stream.History.step, chunk]
    rw [hf₂.read_eq, hhanded, List.length_append, hf.read_eq, hlength]

end Passing

/-- How many samples block `i` finds at its input that fit into its output, even if each of them
carries a tag. -/
def passable (b : Bench) (i : Nat) : Nat :=
  (FanOut.taggedSpace (Graph.outputStreams b.exec.graph.connections ⟨i, 0⟩)).clip
    (b.histories ⟨i, 0⟩).stream.available

/-- Block `i`, which was `block` at first, passes on what it reads, up to its limit. -/
structure Transfers (i : Nat) (block : Builtin) (b : Bench) : Prop where
  passing : Passing i block b.exec.graph.connections b.histories
  node : ∃ n, b.exec.graph.node? i = some n ∧
    n.block = block.having (b.histories ⟨i, 0⟩).stream.read
  within_limit : ∀ limit, block.limit? = some limit → (b.histories ⟨i, 0⟩).stream.read ≤ limit
  calls : ∀ call ∈ b.calls, ∃ k, call.block = block.having k ∧
    (call.outcome = .status .done ↔ block.limit? = some k)

namespace Transfers

variable {i : Nat} {block : Builtin} {b : Bench}
  (hkind : block.kind = .copy ∨ block.kind = .tagGate ∨ block.kind = .head)
include hkind

theorem new {x : Execution Builtin} {n : Node Builtin} (hn : x.graph.node? i = some n)
    (hblock : n.block = block)
    (htargets : x.graph.connections.Pairwise fun c d => c.target ≠ d.target)
    (hfresh : ∀ c ∈ x.graph.connections, c.source = ⟨i, 0⟩ ∨ c.target = ⟨i, 0⟩ →
      ∃ capacity, c.stream = some (.empty capacity)) :
    Transfers i block (.new (x.start i).2) := by
  have hdata : ∀ m, x.graph.node? i = some m → m.block.HasData := fun m hm => by
    cases hn.symm.trans hm
    rw [hblock]
    cases block <;> first | trivial | (rcases hkind with h | h | h <;> cases h)
  obtain ⟨-, hgraph, -⟩ := Execution.start_spec x i hdata
  have hconnections : (x.start i).2.graph.connections = x.graph.connections := by
    rw [hgraph]
    rfl
  refine ⟨⟨⟨hconnections ▸ htargets, fun c hc hat => ?_, fun target => ⟨_, .new⟩⟩, ?_⟩,
    ⟨n.started, ?_, ?_⟩, fun limit _ => Nat.zero_le limit, fun call hcall => by cases hcall⟩
  · replace hc : c ∈ x.graph.connections := hconnections ▸ hc
    obtain ⟨capacity, hstream⟩ := hfresh c hc hat
    have hhistory : (Bench.new (x.start i).2).histories c.target = .new (max capacity 1) := by
      show Stream.History.new ((Graph.inputStream? (x.start i).2.graph.connections c.target).elim 0
        Stream.capacity) = _
      rw [hconnections, Graph.inputStream?_eq htargets hc hstream]
      rfl
    rw [hhistory, hstream, Stream.History.new, Stream.empty, Stream.empty,
      Nat.max_eq_left (Nat.le_max_right capacity 1)]
  · exact fun c _ _ => ⟨fun _ => ⟨rfl, by cases block <;> rfl⟩, fun w hw => by cases hw⟩
  · show (x.start i).2.graph.node? i = _
    rw [hgraph]
    simp [Graph.node?, Graph.modifyNode] at hn ⊢
    exact ⟨_, hn, rfl⟩
  · show n.block.started = _
    rw [hblock]
    cases block <;> first | rfl | (rcases hkind with h | h | h <;> cases h)

/-- What the program of the block comes to if it does not fail. -/
theorem watched (h : Transfers i block b) {n : Node Builtin}
    (hblock : n.block = block.having (b.histories ⟨i, 0⟩).stream.read)
    (hok : ∀ e, (Execution.watch (Histories.note b.exec.graph.connections i) i
      (Block.work n.block) b.exec b.histories).1.1.1 ≠ .failed e) :
    ∃ k outcome connections log hs,
      Execution.watch (Histories.note b.exec.graph.connections i) i (Block.work n.block) b.exec
        b.histories = (((outcome, block.having k), b.exec.rewired connections log), hs) ∧
      Passing i block connections hs ∧ (hs ⟨i, 0⟩).stream.read = k ∧
      k = (b.histories ⟨i, 0⟩).stream.read +
        block.share (b.histories ⟨i, 0⟩).stream.read (b.passable i) ∧
      (∀ limit, block.limit? = some limit → k ≤ limit) ∧
      (outcome = .status .done ↔ block.limit? = some k) := by
  let read := (b.histories ⟨i, 0⟩).stream.read
  rw [show n.block = block.having read from hblock] at hok ⊢
  rcases Execution.work_passing hkind read with ⟨limit, hlimit, hle, hnone, hwork⟩ |
    ⟨hmost, hbelow, hwork⟩
  · have heq : block.limit? = some read :=
      hlimit.trans (congrArg some (Nat.le_antisymm hle (h.within_limit limit hlimit)))
    refine ⟨read, .status .done, b.exec.graph.connections, b.exec.log, b.histories, ?_, h.passing,
      rfl, by rw [hnone, Nat.add_zero], h.within_limit, by simp [heq]⟩
    rw [hwork]
    rfl
  rw [hwork] at hok ⊢
  rcases Execution.watch_forwarding_cases b.exec i b.exec.graph.connections hmost
    (block.having read)
    (fun m => Work.report (block.reportAt (read + m)) (block.having (read + m))) b.histories with
    ⟨e, hrun⟩ | ⟨st, s, hst, hs, hnone, hrun⟩ | ⟨s, r, log, hs, hr, hmoved, hpush, hrun⟩
  · exact absurd hrun (hok e)
  · have hpassable : b.passable i = 0 := by rw [passable, h.passing.stream_eq hs, hnone]
    have hshare : block.share read 0 = 0 := Nat.le_zero.mp (hmost 0).1
    refine ⟨read, .status st, b.exec.graph.connections, b.exec.log, b.histories, hrun, h.passing,
      rfl, by rw [hpassable, hshare, Nat.add_zero], h.within_limit, ?_⟩
    have hne : block.limit? ≠ some read := fun heq => absurd (hbelow read heq).1 (Nat.lt_irrefl _)
    rcases hst with rfl | rfl <;> simp [hne]
  · obtain ⟨hpassing, hread⟩ := h.passing.move hs hr hpush
    have hpassable : block.share read (b.passable i) = r := by
      rw [passable, h.passing.stream_eq hs, hmoved]
    refine ⟨read + r, .status (block.reportAt (read + r)), _, log, _, hrun, hpassing, hread,
      by rw [hpassable], fun limit hlimit => hmoved ▸ (hbelow limit hlimit).2 _, ?_⟩
    rw [Builtin.reportAt]
    split
    next heq => simp [heq]
    next hne => simp [hne]

/-- A call moves as many samples as there are that fit, or what is left up to the limit. -/
theorem call (h : Transfers i block b)
    (hok : ∀ call ∈ (b.step i .call).calls, ∀ e, call.outcome ≠ .failed e) :
    Transfers i block (b.step i .call) ∧
      ((b.step i .call).histories ⟨i, 0⟩).stream.read = (b.histories ⟨i, 0⟩).stream.read +
        block.share (b.histories ⟨i, 0⟩).stream.read (b.passable i) := by
  obtain ⟨n, hn, hblock⟩ := h.node
  obtain ⟨hconnections, ⟨m, hm, hafter⟩, hhistories, hcalls⟩ := step_call hn
  obtain ⟨k, outcome, connections, log, hs, hwatch, hpassing, hread, hmoved, hlimit, hdone⟩ :=
    h.watched hkind hblock (hok ⟨_, _⟩ (hcalls ▸ List.mem_append_right _ List.mem_cons_self))
  rw [hwatch] at hconnections hafter hhistories hcalls
  refine ⟨⟨?_, ⟨m, hm, ?_⟩, ?_, fun call hcall => ?_⟩, ?_⟩
  · rw [hconnections, hhistories]
    exact hpassing
  · rw [hafter, hhistories, hread]
  · rw [hhistories, hread]
    exact hlimit
  · rw [hcalls] at hcall
    rcases List.mem_append.mp hcall with hcall | hcall
    · exact h.calls call hcall
    · rw [List.mem_singleton.mp hcall]
      exact ⟨k, rfl, hdone⟩
  · rw [hhistories, hread]
    exact hmoved

theorem step (h : Transfers i block b) (event : Event)
    (hok : ∀ call ∈ (b.step i event).calls, ∀ e, call.outcome ≠ .failed e) :
    Transfers i block (b.step i event) := by
  cases event with
  | call => exact (h.call hkind hok).1
  | elsewhere target op =>
    rw [Bench.step]
    split
    · exact h
    next hfree =>
      have hwrite : op.isWriting = true →
          Graph.linked b.exec.graph.connections ⟨i, 0⟩ target = false := fun hop => by
        simpa [isReserved, hop] using hfree
      have hread : op.isWriting = false → target ≠ ⟨i, 0⟩ := fun hop => by
        simpa [isReserved, hop] using hfree
      obtain ⟨hpassing, hcount⟩ := h.passing.elsewhere hwrite hread
      exact ⟨hpassing, hcount ▸ h.node, hcount ▸ h.within_limit, h.calls⟩

theorem run (h : Transfers i block b) (events : List Event)
    (hok : ∀ call ∈ (b.run i events).calls, ∀ e, call.outcome ≠ .failed e) :
    Transfers i block (b.run i events) := by
  induction events using List.reverseRecOn with
  | nil => exact h
  | append_singleton events event ih =>
    rw [run_concat] at hok ⊢
    obtain ⟨calls, hcalls⟩ := calls_step i (b.run i events) event
    refine (ih fun call hcall => hok call ?_).step hkind event hok
    rw [hcalls]
    exact List.mem_append_left calls hcall

end Transfers

/-- A copying, gating or heading block as what it does to streams, whatever goes on around it: it is
started with new streams at its ports, its work calls come at any time, and others write to its
input, read its outputs and detach from them as they like. As long as none of its calls fails, each
stream at its output that is still read has got just the samples that the block has read, and the
tags that it has read with them, at the same positions and in the same order, if it is no gate; a
gate hands on no tags. No tag is lost on the way into a stream. The next call moves all samples that
there are and fit, of which a heading block takes no more than are left of its number of items. A
heading block has published as many samples as it has read, which is at most its number of items,
and it is done with a call just if the call leaves it with that number published. -/
theorem transfer_exact (x : Execution Builtin) (i : Nat) {n : Node Builtin}
    (hn : x.graph.node? i = some n)
    (hkind : n.block.kind = .copy ∨ n.block.kind = .tagGate ∨ n.block.kind = .head)
    (htargets : x.graph.connections.Pairwise fun c d => c.target ≠ d.target)
    (hfresh : ∀ c ∈ x.graph.connections, c.source = ⟨i, 0⟩ ∨ c.target = ⟨i, 0⟩ →
      ∃ capacity, c.stream = some (.empty capacity)) (events : List Event) :
    let b := (Bench.new (x.start i).2).run i events
    let input := b.histories ⟨i, 0⟩
    (∀ call ∈ b.calls, ∀ e, call.outcome ≠ .failed e) →
      (∀ c ∈ b.exec.graph.connections, c.source = ⟨i, 0⟩ ∨ c.target = ⟨i, 0⟩ →
        c.stream = some (b.histories c.target).stream) ∧
      (∀ c ∈ b.exec.graph.connections, c.source = ⟨i, 0⟩ →
        let output := b.histories c.target
        (∀ w ∈ output.pushes, w.kept = w.placedTags) ∧
        (output.stream.detached = false → output.accepted = input.handed ∧
          output.published = if n.block.kind = .tagGate then [] else input.given)) ∧
      ((∀ call ∈ (b.step i .call).calls, ∀ e, call.outcome ≠ .failed e) →
        ((b.step i .call).histories ⟨i, 0⟩).stream.read =
          input.stream.read + n.block.share input.stream.read (b.passable i)) ∧
      ∀ head, n.block = .head head →
        (∃ m, b.exec.graph.node? i = some m ∧
          m.block = .head { head with published := input.stream.read }) ∧
        input.stream.read ≤ head.numItems.toNat ∧
        (∀ c ∈ b.exec.graph.connections, c.source = ⟨i, 0⟩ →
          (b.histories c.target).stream.detached = false →
          (b.histories c.target).stream.written = input.stream.read) ∧
        ∀ call ∈ b.calls, ∃ published, call.block = .head { head with published } ∧
          (call.outcome = .status .done ↔ published = head.numItems.toNat) := by
  intro b input hok
  have htransfers := (Transfers.new hkind hn rfl htargets hfresh).run hkind events hok
  obtain ⟨hpassing, hnode, hlimit, hcalls⟩ := id htransfers
  refine ⟨hpassing.streams, fun c hc hsource =>
    ⟨(hpassing.feeds c hc hsource).kept, fun hlive => ?_⟩,
    fun hnext => (htransfers.call hkind hnext).2, fun head hhead => ?_⟩
  · obtain ⟨haccepted, hpublished⟩ := (hpassing.feeds c hc hsource).live hlive
    refine ⟨haccepted, hpublished.trans ?_⟩
    cases n.block <;> rfl
  · rw [hhead] at hnode hlimit hcalls
    refine ⟨hnode, hlimit _ rfl, fun c hc hsource hlive => ?_, fun call hcall => ?_⟩
    · obtain ⟨capacity, hf⟩ := hpassing.faithful c.target
      obtain ⟨capacity', hf'⟩ := hpassing.faithful ⟨i, 0⟩
      rw [hf.written_eq, ((hpassing.feeds c hc hsource).live hlive).1, ← hf'.read_eq]
    · obtain ⟨k, hblock, hdone⟩ := hcalls call hcall
      refine ⟨k, hblock, hdone.trans ?_⟩
      simp only [Builtin.limit?, Option.some.injEq]
      exact eq_comm

/-- A head that is to pass two samples, between a source and a sink. -/
def heading : Execution Builtin where
  graph :=
    { nodes := [.new "Source" "" (.nullSource (.new (.int .i32))) 0,
        .new "Head" "" (.head ⟨.int .i32, 2, 7⟩) 0, .new "Sink" "" (.nullSink (.new (.int .i32))) 0]
      connections := [⟨⟨0, 0⟩, ⟨1, 0⟩, some 4, .int .i32, some (.empty 4)⟩,
        ⟨⟨1, 0⟩, ⟨2, 0⟩, some 4, .int .i32, some (.empty 4)⟩]
      config := .default }
  inboxId := 0
  inbox := []
  trace := #[]
  journal := #[]
  log := #[]

/-- Three samples arrive, of which the last is too many, and a tag on the first comes late. -/
def arrivals : List Event :=
  [.elsewhere ⟨1, 0⟩ (.push [.int .i32 5] []), .call, .elsewhere ⟨2, 0⟩ (.take 1),
    .elsewhere ⟨1, 0⟩ (.push [.int .i32 6, .int .i32 7] [⟨-1, []⟩, ⟨0, []⟩]), .call, .call]

theorem outcomes_heading : ((Bench.new (heading.start 1).2).run 1 arrivals).calls.map
    WorkCall.outcome = [.status .ok, .status .done, .status .done] := by
  cbv

theorem outcomes_first : (((Bench.new (heading.start 1).2).run 1 (arrivals.take 1)).step 1
    .call).calls.map WorkCall.outcome = [.status .ok] := by
  cbv

theorem not_failed_of_outcomes {calls : List WorkCall} {outcomes : List WorkOutcome}
    (h : calls.map WorkCall.outcome = outcomes) (hok : ∀ e, .failed e ∉ outcomes) :
    ∀ call ∈ calls, ∀ e, call.outcome ≠ .failed e := fun _ hcall e he =>
  hok e (h ▸ he ▸ List.mem_map_of_mem hcall)

/-- The first call moves the one sample that has arrived. -/
theorem transfer_exact_heading :
    let b := (Bench.new (heading.start 1).2).run 1 arrivals
    let first := ((Bench.new (heading.start 1).2).run 1 (arrivals.take 1)).step 1 .call
    (heading.graph.connections.Pairwise fun c d => c.target ≠ d.target) ∧
      (∀ c ∈ heading.graph.connections, c.stream = some (.empty 4)) ∧
      b.calls.map WorkCall.outcome = [.status .ok, .status .done, .status .done] ∧
      (∀ c ∈ b.exec.graph.connections, c.source = ⟨1, 0⟩ →
        (b.histories c.target).stream.detached = false →
        (b.histories c.target).accepted = (b.histories ⟨1, 0⟩).handed ∧
          (b.histories c.target).published = (b.histories ⟨1, 0⟩).given) ∧
      (b.histories ⟨1, 0⟩).stream.read ≤ 2 ∧
      first.calls.map WorkCall.outcome = [.status .ok] ∧
      (first.histories ⟨1, 0⟩).stream.read = 1 := by
  intro b first
  have htargets : heading.graph.connections.Pairwise fun c d => c.target ≠ d.target := by decide
  have hfresh : ∀ c ∈ heading.graph.connections, c.stream = some (.empty 4) := fun c hc => by
    rcases List.mem_pair.mp hc with rfl | rfl <;> rfl
  have hnode : heading.graph.node? 1 = some (.new "Head" "" (.head ⟨.int .i32, 2, 7⟩) 0) := rfl
  have h := transfer_exact heading 1 hnode (.inr (.inr rfl)) htargets
    (fun c hc _ => ⟨4, hfresh c hc⟩)
  obtain ⟨-, houtputs, -, hhead⟩ := h arrivals (not_failed_of_outcomes outcomes_heading (by simp))
  have hnone : ((Bench.new (heading.start 1).2).run 1 (arrivals.take 1)).calls = [] := rfl
  obtain ⟨-, -, hmoved, -⟩ := h (arrivals.take 1) (by simp [hnone])
  have hfirst := hmoved (not_failed_of_outcomes outcomes_first (by simp))
  exact ⟨htargets, hfresh, outcomes_heading, fun c hc hsource => (houtputs c hc hsource).2,
    (hhead _ rfl).2.1, outcomes_first, hfirst.trans (by cbv)⟩

end Bench
end Dataflow
