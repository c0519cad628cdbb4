import Dataflow.Proofs.Flow.Work

/-!
# Effects of work calls

What a work call of a built-in block comes to while samples flow (`Execution.Worked`): the block
waits for input or for room, has come to its end, has moved samples, or fails. It fails only if its
input is not connected, or if some stream has no room for the tags of a chunk.
-/

namespace Dataflow

namespace Execution

/-- A block may read `r` samples: some of those at its input, none if it has no input. -/
structure MayRead (x : Execution Builtin) (i : Nat) (b : Builtin) (r : Nat) : Prop where
  source : b.hasInput = false → r = 0
  input : b.hasInput = true → ∃ s, x.graph.feed? i = some s ∧ 0 < r ∧ r ≤ s.available

/-- A block may write `m` samples: as many as there is room for, none if it has no output. -/
structure MayWrite (x : Execution Builtin) (i : Nat) (b : Builtin) (m : Nat) : Prop where
  sink : b.hasOutput = false → m = 0
  output : b.hasOutput = true → 0 < m ∧ m ≤ x.room i

/-- What a work call of block `i` comes to: its outcome, block and connections after it, and the
number of samples published. -/
inductive Worked (g : Graph Builtin) (S : Nat → Signal) (p : Nat → Nat) (x : Execution Builtin)
    (i : Nat) (b : Builtin) : WorkOutcome → Builtin → List Connection → Nat → Prop where
  | starved {s : Stream Sample} : b.hasInput = true → x.graph.feed? i = some s →
      s.available = 0 → Worked g S p x i b (.status .insufficientInput) b x.graph.connections 0
  | blocked : b.hasOutput = true → x.room i = 0 →
      (∀ s, x.graph.feed? i = some s → 0 < s.available) →
      Worked g S p x i b (.status .insufficientOutput) b x.graph.connections 0
  | ended : b.hasOutput = true → (S i).EndsAt (p i) →
      Worked g S p x i b (.status .done) b x.graph.connections 0
  | moved {st : WorkStatus} {b' : Builtin} {r m : Nat} : b'.form = b.form → x.MayRead i b r →
      x.MayWrite i b m → (S i).Covers (p i + m) →
      b'.HasDone (g.inputSignal S i) (x.graph.consumed i + r) (p i + m) →
      (st = .ok ∨ st = .done ∧ b.hasOutput = true ∧ (S i).EndsAt (p i + m)) →
      Worked g S p x i b (.status st) b'
        ((x.graph.connections.map (Connection.reading i r)).map
          (Connection.writing i ((S i).chunk (p i) m))) m
  | unfed {e : WorkError} : b.hasInput = true → x.graph.feed? i = none →
      Worked g S p x i b (.failed e) b x.graph.connections 0
  | overfull {e : WorkError} {b' : Builtin} {r m : Nat} {s : Stream Sample} : b'.form = b.form →
      b.hasOutput = true → (∀ s, x.graph.feed? i = some s → r ≤ s.available) →
      s ∈ x.graph.outlets i → s.detached = false → m ≤ s.tagSpace →
      s.tagSpace < ((S i).chunk (p i) m).tags.length → (S i).Covers (p i + m) →
      Worked g S p x i b (.failed e) b' (x.graph.connections.map (Connection.reading i r)) 0

/-- A block whose turn it is to work: it has done what the streams show, and has a reader. -/
structure Ready (g : Graph Builtin) (S : Nat → Signal) (p : Nat → Nat) (x : Execution Builtin)
    (i : Nat) (n : Node Builtin) : Prop extends Carried g S p x where
  node : x.graph.node? i = some n
  done : n.block.HasDone (g.inputSignal S i) (x.graph.consumed i) (p i)
  live : n.block.hasOutput = true → ∃ s ∈ x.graph.outlets i, s.detached = false

variable {g : Graph Builtin} {S : Nat → Signal} {p : Nat → Nat} {x : Execution Builtin} {i : Nat}
  {n : Node Builtin}

theorem taggedSpace_eq (h : ∃ s ∈ x.graph.outlets i, s.detached = false) (schema : PortSchema) :
    (Graph.outputStatus x.graph.connections ⟨i, 0⟩ schema).taggedSpace = .bounded (x.room i) := by
  have hne : (Graph.outputStreams x.graph.connections ⟨i, 0⟩).isEmpty = false := by
    obtain ⟨s, hs, -⟩ := h
    rw [Graph.outlets] at hs
    cases hl : Graph.outputStreams x.graph.connections ⟨i, 0⟩ with
    | nil =>
      rw [hl] at hs
      cases hs
    | cons _ _ => rfl
  simp only [Graph.outputStatus, FanOut.taggedSpace, hne, Bool.false_eq_true, if_false]
  rfl

theorem rewired_self : x.rewired x.graph.connections x.log = x := rfl

theorem consumed_eq {s : Stream Sample} (h : x.graph.feed? i = some s) :
    x.graph.consumed i = s.read := by
  rw [Graph.consumed, h]
  rfl

/-- What the result of a work call comes to. -/
def Comes (g : Graph Builtin) (S : Nat → Signal) (p : Nat → Nat) (x : Execution Builtin) (i : Nat)
    (b : Builtin) (run : (WorkOutcome × Builtin) × Execution Builtin) : Prop :=
  ∃ connections log m, run.2 = x.rewired connections log ∧
    Worked g S p x i b run.1.1 run.1.2 connections m

theorem Worked.comes {b b' : Builtin} {outcome : WorkOutcome} {connections : List Connection}
    {m : Nat} {log : Array LogLine} (h : Worked g S p x i b outcome b' connections m) :
    Comes g S p x i b ((outcome, b'), x.rewired connections log) := ⟨connections, log, m, rfl, h⟩

/-- A work call that lacks input has moved nothing. -/
theorem Worked.of_insufficientInput {b b' : Builtin} {connections : List Connection} {m : Nat}
    (h : Worked g S p x i b (.status .insufficientInput) b' connections m) :
    b' = b ∧ connections = x.graph.connections ∧ m = 0 ∧ b.hasInput = true ∧
      ∃ s, x.graph.feed? i = some s ∧ s.available = 0 := by
  cases h with
  | starved hin hfeed havail => exact ⟨rfl, rfl, rfl, hin, _, hfeed, havail⟩
  | moved _ _ _ _ _ hst => rcases hst with hst | ⟨hst, -⟩ <;> cases hst

theorem Worked.ne_endOfStream {b b' : Builtin} {connections : List Connection} {m : Nat} :
    ¬ Worked g S p x i b (.status .endOfStream) b' connections m := by
  intro h
  cases h with
  | moved _ _ _ _ _ hst => rcases hst with hst | ⟨hst, -⟩ <;> cases hst

/-! ### Forwarding -/

/-- The work of a block that passes on what is there and fits, at most `most` of it. -/
def forwarding {β : Type} (t : SampleType) (most : Nat → Nat) (keep : List Tag → List Tag) (b : β)
    (next : Nat → Work (WorkOutcome × β)) : Work (WorkOutcome × β) :=
  Work.withReader 0 t b fun input =>
    Work.withWriter 0 t b fun output =>
      if input.available = 0 then Work.report .insufficientInput b
      else if output.taggedSpace.isZero then Work.report .insufficientOutput b
      else
        Work.taking 0 (most (output.taggedSpace.clip input.available)) fun chunk =>
          Work.publishing 0 chunk.samples (keep chunk.tags) b
            (next (most (output.taggedSpace.clip input.available)))

theorem work_copy (b : Copy) : Block.work (Builtin.copy b) =
    (forwarding b.type id id b fun _ => Work.report .ok b).map (·.map id Builtin.copy) := rfl

/-- How a head that has passed `m` more samples ends its work call. -/
def ending (b : Head) (m : Nat) : Work (WorkOutcome × Head) :=
  let moved := { b with published := b.published + m }
  if (moved.published : Int) = b.numItems then Work.report .done moved else Work.report .ok moved

theorem work_head {b : Head} (h : (b.numItems - b.published).toNat ≠ 0) :
    Block.work (Builtin.head b) =
      (forwarding b.type (min · (b.numItems - b.published).toNat) id b (ending b)).map
        (·.map id Builtin.head) := by
  show (Head.work b).map _ = _
  rw [Head.work, if_neg h]
  rfl

theorem work_head_of_done {b : Head} (h : (b.numItems - b.published).toNat = 0) :
    Block.work (Builtin.head b) = (Work.report .done b).map (·.map id Builtin.head) := by
  show (Head.work b).map _ = _
  rw [Head.work, if_pos h]

theorem comes_forwarding {β : Type} {wrap : β → Builtin} {b : β} {t : SampleType}
    {most : Nat → Nat} {keep : List Tag → List Tag} {next : Nat → Work (WorkOutcome × β)}
    (h : Ready g S p x i n) (hg : g.Signals S) (hb : n.block = wrap b)
    (ht : t = n.block.sampleType) (hin : n.block.hasInput = true)
    (hout : n.block.hasOutput = true) (hp : p i = x.graph.consumed i)
    (hmost : ∀ k, most k ≤ k ∧ (0 < k → 0 < most k))
    (hkeep : ∀ k, (g.inputSignal S i).Covers (p i + most k) → (S i).Covers (p i + most k) ∧
      (S i).chunk (p i) (most k) = ⟨((g.inputSignal S i).chunk (p i) (most k)).samples,
        keep ((g.inputSignal S i).chunk (p i) (most k)).tags⟩)
    (hnext : ∀ k, (g.inputSignal S i).Covers (p i + most k) → ∃ st b',
      next (most k) = Work.report st b' ∧ (wrap b').form = (wrap b).form ∧
        (wrap b').HasDone (g.inputSignal S i) (x.graph.consumed i + most k) (p i + most k) ∧
        (st = .ok ∨ st = .done ∧ (S i).EndsAt (p i + most k))) :
    Comes g S p x i n.block
      (((x.runWork i (forwarding t most keep b next)).1.map id wrap),
        (x.runWork i (forwarding t most keep b next)).2) := by
  have hsound := h.toCarried.sound hg
  have hports := h.toCarried.portsAgree hg h.node
  cases hfeed : x.graph.feed? i with
  | none =>
    rw [forwarding, runWork_unconnected h.node hports hin hfeed, ← rewired_self (x := x)]
    rw [hb] at hin ⊢
    exact (Worked.unfed hin hfeed).comes
  | some s =>
    obtain ⟨c, hc, hci, hup, hinput, hcarries, hspans⟩ := h.toCarried.feed hg hfeed
    rw [forwarding, runWork_withReader h.node hports hin ht hfeed,
      runWork_withWriter h.node hports hout ht, taggedSpace_eq (h.live hout)]
    by_cases havail : s.available = 0
    · rw [if_pos havail, ← rewired_self (x := x)]
      rw [hb] at hin ⊢
      exact (Worked.starved hin hfeed havail).comes
    by_cases hroom : x.room i = 0
    · have hzero : (Room.bounded (x.room i)).isZero = true := by simp [Room.isZero, hroom]
      rw [if_neg havail, if_pos hzero, ← rewired_self (x := x)]
      have hall : ∀ s', x.graph.feed? i = some s' → 0 < s'.available := by
        intro s' hs'
        cases hfeed.symm.trans hs'
        exact Nat.pos_of_ne_zero havail
      rw [hb] at hout ⊢
      exact (Worked.blocked hout hroom hall).comes
    have hopen : ¬ (Room.bounded (x.room i)).isZero = true := by simp [Room.isZero, hroom]
    rw [if_neg havail, if_neg hopen, Room.clip]
    generalize hk : min s.available (x.room i) = k
    obtain ⟨hle, hpos⟩ := hmost k
    have hpos := hpos (by omega)
    have hread : p i = s.read := hp.trans (consumed_eq hfeed)
    -- what is there to be read has been written, so it is part of the signal
    have hcovers : (g.inputSignal S i).Covers (p i + most k) := by
      have hwritten := hcarries.written_eq
      have hwritten' := hcarries.written_le
      rw [hinput]
      exact (h.covers c.source.block).mono (by omega)
    obtain ⟨hU, hchunk⟩ := hkeep k hcovers
    obtain ⟨st, b', hreport, hform, hdone, hst⟩ := hnext k hcovers
    rw [hread] at hU hchunk
    have hcarries' : s.Carries (g.inputSignal S i) (p c.source.block) := by
      rw [hinput]
      exact hcarries
    have hT : (g.inputSignal S i).Covers (p c.source.block) := by
      rw [hinput]
      exact h.covers c.source.block
    rcases runWork_forwarding hsound (h.toCarried.acyclic hg) (h.live hout) hfeed hcarries' hT
      (by omega) (by omega) hU hchunk (next (most k)) (b := b) with
      ⟨log, hrun⟩ | ⟨e, log, ⟨s', hs', hsl, hle', hfull⟩, hrun⟩
    · rw [hrun, hreport]
      rw [← hread] at hU ⊢
      rw [← hb] at hform
      have hmoved := Worked.moved (g := g) (b := n.block) (r := most k) hform
        ⟨by simp [hin], fun _ => ⟨s, hfeed, hpos, by omega⟩⟩
        ⟨by simp [hout], fun _ => ⟨hpos, by omega⟩⟩ hU hdone
        (hst.imp id fun h => ⟨h.1, hout, h.2⟩)
      exact hmoved.comes
    · rw [hrun]
      rw [← hread] at hU hfull
      have hall : ∀ s'', x.graph.feed? i = some s'' → most k ≤ s''.available := by
        intro s'' hs''
        cases hfeed.symm.trans hs''
        omega
      have hform : (wrap b).form = n.block.form := by rw [hb]
      exact (Worked.overfull hform hout hall hs' hsl hle' hfull hU).comes

theorem runWork_map {γ ρ τ : Type} {x : Execution γ} (f : ρ → τ) (q : Work ρ) :
    x.runWork i (q.map f) = (f (x.runWork i q).1, (x.runWork i q).2) :=
  Program.run_map _ f q x

theorem comes_copy {b : Copy} (h : Ready g S p x i n) (hg : g.Signals S)
    (hb : n.block = .copy b) : Comes g S p x i n.block (x.runWork i (Block.work n.block)) := by
  have hsignal : S i = g.inputSignal S i := by
    rw [h.toCarried.signal_eq hg h.node, hb]
    rfl
  have hp : p i = x.graph.consumed i := by
    have := h.done
    rw [hb] at this
    exact this
  have hwork := (congrArg Block.work hb).trans (work_copy b)
  rw [hwork, runWork_map]
  refine comes_forwarding h hg hb (by rw [hb]; rfl) (by rw [hb]; rfl) (by rw [hb]; rfl) hp
    (fun k => ⟨Nat.le_refl k, id⟩) ?_ ?_
  · intro k hk
    rw [hsignal]
    exact ⟨hk, rfl⟩
  · intro k hk
    refine ⟨.ok, b, rfl, rfl, ?_, .inl rfl⟩
    show p i + k = x.graph.consumed i + k
    rw [hp]

theorem comes_tagGate {b : TagGate} (h : Ready g S p x i n) (hg : g.Signals S)
    (hb : n.block = .tagGate b) : Comes g S p x i n.block (x.runWork i (Block.work n.block)) := by
  have hsignal : S i = (g.inputSignal S i).untagged := by
    rw [h.toCarried.signal_eq hg h.node, hb]
    rfl
  have hp : p i = x.graph.consumed i := by
    have := h.done
    rw [hb] at this
    exact this
  have hwork : Block.work n.block =
      (forwarding b.type id (fun _ => []) b fun _ => Work.report .ok b).map
        (·.map id Builtin.tagGate) := by
    rw [hb]
    rfl
  rw [hwork, runWork_map]
  refine comes_forwarding h hg hb (by rw [hb]; rfl) (by rw [hb]; rfl) (by rw [hb]; rfl) hp
    (fun k => ⟨Nat.le_refl k, id⟩) ?_ ?_
  · intro k hk
    rw [hsignal]
    exact ⟨hk.untagged, Signal.chunk_untagged⟩
  · intro k hk
    refine ⟨.ok, b, rfl, rfl, ?_, .inl rfl⟩
    show p i + k = x.graph.consumed i + k
    rw [hp]

theorem comes_head {b : Head} (h : Ready g S p x i n) (hg : g.Signals S)
    (hb : n.block = .head b) : Comes g S p x i n.block (x.runWork i (Block.work n.block)) := by
  have hsignal : S i = (g.inputSignal S i).upTo b.numItems.toNat := by
    rw [h.toCarried.signal_eq hg h.node, hb]
    rfl
  have hdone := h.done
  rw [hb] at hdone
  obtain ⟨hpublished, hp, hle⟩ := hdone
  have hends : ∀ k, k = b.numItems.toNat → (S i).Covers k → (S i).EndsAt k := by
    intro k hk hcovers
    rw [hsignal] at hcovers ⊢
    exact hcovers.endsAt_upTo hk.ge
  by_cases hrest : (b.numItems - b.published).toNat = 0
  · have hwork := (congrArg Block.work hb).trans (work_head_of_done hrest)
    rw [hwork, runWork_map, ← rewired_self (x := x)]
    have hout : n.block.hasOutput = true := by rw [hb]; rfl
    have hended : (S i).EndsAt (p i) := hends _ (by omega) (h.covers i)
    have hworked := Worked.ended (g := g) (x := x) hout hended
    rw [hb] at hworked ⊢
    exact hworked.comes
  · have hwork := (congrArg Block.work hb).trans (work_head hrest)
    rw [hwork, runWork_map]
    refine comes_forwarding h hg hb (by rw [hb]; rfl) (by rw [hb]; rfl) (by rw [hb]; rfl) hp
      (fun k => ⟨Nat.min_le_left .., fun hk => ?_⟩) ?_ ?_
    · omega
    · intro k hk
      rw [hsignal]
      exact ⟨hk.upTo (by omega), Signal.chunk_upTo (by omega)⟩
    · intro k hk
      generalize hm : min k (b.numItems - b.published).toNat = m at hk ⊢
      have hform : ∀ j, (Builtin.head { b with published := j }).form = (Builtin.head b).form :=
        fun j => rfl
      have hdone : (Builtin.head { b with published := b.published + m }).HasDone
          (g.inputSignal S i) (x.graph.consumed i + m) (p i + m) := by
        refine ⟨?_, ?_, ?_⟩
        · show b.published + m = p i + m
          rw [hpublished]
        · rw [hp]
        · show p i + m ≤ b.numItems.toNat
          omega
      show ∃ st b', (if ((b.published + m : Nat) : Int) = b.numItems then
        Work.report .done { b with published := b.published + m }
        else Work.report .ok { b with published := b.published + m }) = Work.report st b' ∧ _
      split
      next hlast =>
        refine ⟨.done, _, rfl, hform _, hdone, .inr ⟨rfl, hends _ (by omega) ?_⟩⟩
        rw [hsignal]
        exact hk.upTo (by omega)
      next => exact ⟨.ok, _, rfl, hform _, hdone, .inl rfl⟩

/-! ### Sinks -/

/-- A block that writes nothing changes no connection by writing. -/
theorem map_writing_sink (h : Carried g S p x) (hg : g.Signals S) (hn : x.graph.node? i = some n)
    (hout : n.block.hasOutput = false) (r : Nat) (chunk : Chunk Sample) :
    (x.graph.connections.map (Connection.reading i r)).map (Connection.writing i chunk) =
      x.graph.connections.map (Connection.reading i r) := by
  rw [List.map_map]
  refine List.map_congr_left fun c hc => ?_
  have hsource : (c.reading i r).source = c.source := congrArg (·.source) (c.wire_reading (n := r))
  rw [Function.comp_apply, Connection.writing, hsource, if_neg (h.source_ne hg hn hout hc)]

/-- Reading nothing where nothing is changes no connection. -/
theorem map_reading_zero (h : Carried g S p x) (hg : g.Signals S) {s : Stream Sample}
    (hfeed : x.graph.feed? i = some s) (havail : s.available = 0) :
    x.graph.connections.map (Connection.reading i 0) = x.graph.connections := by
  refine (List.map_congr_left fun c hc => ?_).trans (List.map_id _)
  rw [Connection.reading, id]
  split
  next ht =>
    obtain ⟨s', hs', hcarries, -⟩ := h.streams c hc
    cases hfeed.symm.trans ((h.sound hg).feed?_eq hc hs' ht)
    have hsame : s.collect.advance 0 = s := hcarries.advance_zero havail
    rcases c with ⟨source, target, bufferSize, type, stream⟩
    cases hs'
    rw [Option.map_some, hsame]
  next => rfl

/-- A sink that has read all that was there. -/
theorem Ready.worked_draining {b : Builtin} {s : Stream Sample} (h : Ready g S p x i n)
    (hg : g.Signals S) (hin : n.block.hasInput = true) (hout : n.block.hasOutput = false)
    (hfeed : x.graph.feed? i = some s) (havail : ¬ s.available = 0)
    (hform : b.form = n.block.form)
    (hdone : b.HasDone (g.inputSignal S i) (x.graph.consumed i + s.available) (p i)) :
    Worked g S p x i n.block (.status .ok) b
      (x.graph.connections.map (Connection.reading i s.available)) 0 := by
  have hread : x.MayRead i n.block s.available :=
    ⟨by simp [hin], fun _ => ⟨s, hfeed, Nat.pos_of_ne_zero havail, Nat.le_refl _⟩⟩
  have hwrite : x.MayWrite i n.block 0 := ⟨fun _ => rfl, by simp [hout]⟩
  rw [← map_writing_sink h.toCarried hg h.node hout s.available ((S i).chunk (p i) 0)]
  exact .moved hform hread hwrite (h.covers i) hdone (.inl rfl)

theorem comes_nullSink {b : NullSink} (h : Ready g S p x i n) (hg : g.Signals S)
    (hb : n.block = .nullSink b) : Comes g S p x i n.block (x.runWork i (Block.work n.block)) := by
  have hsound := h.toCarried.sound hg
  have hports := h.toCarried.portsAgree hg h.node
  have hin : n.block.hasInput = true := by rw [hb]; rfl
  have hout : n.block.hasOutput = false := by rw [hb]; rfl
  have ht : b.type = n.block.sampleType := by rw [hb]; rfl
  have hwork : Block.work n.block = (NullSink.work b).map (·.map id Builtin.nullSink) := by
    rw [hb]
    rfl
  rw [hwork, runWork_map, NullSink.work]
  cases hfeed : x.graph.feed? i with
  | none =>
    rw [runWork_unconnected h.node hports hin hfeed, ← rewired_self (x := x)]
    rw [hb] at hin ⊢
    exact (Worked.unfed hin hfeed).comes
  | some s =>
    rw [runWork_withReader h.node hports hin ht hfeed]
    by_cases havail : s.available = 0
    · rw [if_pos havail, ← rewired_self (x := x)]
      rw [hb] at hin ⊢
      exact (Worked.starved hin hfeed havail).comes
    · rw [if_neg havail, runWork_consuming hsound hfeed (Nat.le_refl _)]
      have hform : (Builtin.nullSink { b with consumed := b.consumed + s.available }).form =
          n.block.form := by
        rw [hb]
        rfl
      exact (h.worked_draining hg hin hout hfeed havail hform trivial).comes

theorem comes_vectorSink {b : VectorSink} (h : Ready g S p x i n) (hg : g.Signals S)
    (hb : n.block = .vectorSink b) :
    Comes g S p x i n.block (x.runWork i (Block.work n.block)) := by
  have hsound := h.toCarried.sound hg
  have hports := h.toCarried.portsAgree hg h.node
  have hin : n.block.hasInput = true := by rw [hb]; rfl
  have hout : n.block.hasOutput = false := by rw [hb]; rfl
  have ht : b.type = n.block.sampleType := by rw [hb]; rfl
  have hdone := h.done
  rw [hb] at hdone
  obtain ⟨hdata, htags⟩ := hdone
  have hwork : Block.work n.block = (VectorSink.work b).map (·.map id Builtin.vectorSink) := by
    rw [hb]
    rfl
  rw [hwork, runWork_map, VectorSink.work]
  cases hfeed : x.graph.feed? i with
  | none =>
    rw [runWork_unconnected h.node hports hin hfeed, ← rewired_self (x := x)]
    rw [hb] at hin ⊢
    exact (Worked.unfed hin hfeed).comes
  | some s =>
    obtain ⟨c, hc, hci, hup, hinput, hcarries, hspans⟩ := h.toCarried.feed hg hfeed
    have hread : x.graph.consumed i = s.read := consumed_eq hfeed
    have hcovers : (S c.source.block).Covers (s.read + s.available) := by
      rw [← hcarries.written_eq]
      exact (h.covers c.source.block).mono hcarries.written_le
    have hlen := Signal.length_chunk hcovers
    rw [runWork_withReader h.node hports hin ht hfeed,
      runWork_taking hsound hfeed hcarries (h.covers c.source.block) (Nat.le_refl _)]
    by_cases havail : s.available = 0
    · have hempty : ((S c.source.block).chunk s.read s.available).samples.isEmpty = true := by
        rw [List.isEmpty_iff_length_eq_zero, hlen, havail]
      have hsame := map_reading_zero h.toCarried hg hfeed havail
      rw [if_pos hempty, havail, hsame]
      rw [hb] at hin ⊢
      exact (Worked.starved hin hfeed havail).comes
    · have hne : ¬ ((S c.source.block).chunk s.read s.available).samples.isEmpty = true := by
        rw [List.isEmpty_iff_length_eq_zero, hlen]
        exact havail
      have hlength : b.data.length = s.read := by
        rw [← Queue.length_toList, hdata, hread, hinput, Signal.length_samples]
        exact hcovers.mono (by omega)
      rw [if_neg hne, hlength]
      have hform : (Builtin.vectorSink { b with
          data := b.data.append ((S c.source.block).chunk s.read s.available).samples
          tags := b.tags.append (((S c.source.block).chunk s.read s.available).tags.map
            (·.shift s.read)) }).form = n.block.form := by
        rw [hb]
        rfl
      have hdone' : (Builtin.vectorSink { b with
          data := b.data.append ((S c.source.block).chunk s.read s.available).samples
          tags := b.tags.append (((S c.source.block).chunk s.read s.available).tags.map
            (·.shift s.read)) }).HasDone (g.inputSignal S i) (x.graph.consumed i + s.available)
              (p i) := by
        refine ⟨?_, ?_⟩
        · rw [Queue.toList_append, hdata, Signal.samples_append, hread, hinput, Nat.zero_add]
          rfl
        · rw [Queue.toList_append, htags, Signal.tags_append, Signal.map_shift_chunk, hread,
            hinput, Nat.zero_add]
      exact (h.worked_draining hg hin hout hfeed havail hform hdone').comes

/-! ### Sources -/

/-- A block that reads nothing changes no connection by reading. -/
theorem map_reading_source (h : Carried g S p x) (hg : g.Signals S)
    (hn : x.graph.node? i = some n) (hin : n.block.hasInput = false) (r : Nat) :
    x.graph.connections.map (Connection.reading i r) = x.graph.connections := by
  refine (List.map_congr_left fun c hc => ?_).trans (List.map_id _)
  rw [Connection.reading, if_neg (h.target_ne hg hn hin hc), id]

theorem Carried.feed?_eq_none (h : Carried g S p x) (hg : g.Signals S)
    (hn : x.graph.node? i = some n) (hin : n.block.hasInput = false) :
    x.graph.feed? i = none := by
  cases hfeed : x.graph.feed? i with
  | none => rfl
  | some s =>
    obtain ⟨c, hc, hci, -⟩ := h.feed hg hfeed
    exact absurd hci (h.target_ne hg hn hin hc)

theorem comes_publishing {β : Type} {wrap : β → Builtin} {b b' : β} {st : WorkStatus} {m : Nat}
    (h : Ready g S p x i n) (hg : g.Signals S) (hin : n.block.hasInput = false)
    (hout : n.block.hasOutput = true) (hm : 0 < m) (hroom : m ≤ x.room i)
    (hcovers : (S i).Covers (p i + m)) (hform : (wrap b).form = n.block.form)
    (hform' : (wrap b').form = n.block.form)
    (hdone : (wrap b').HasDone (g.inputSignal S i) (x.graph.consumed i) (p i + m))
    (hst : st = .ok ∨ st = .done ∧ (S i).EndsAt (p i + m)) :
    Comes g S p x i n.block
      ((x.runWork i (Work.publishing 0 ((S i).chunk (p i) m).samples ((S i).chunk (p i) m).tags b
        (Work.report st b'))).1.map id wrap,
      (x.runWork i (Work.publishing 0 ((S i).chunk (p i) m).samples ((S i).chunk (p i) m).tags b
        (Work.report st b'))).2) := by
  have hsame := map_reading_source h.toCarried hg h.node hin 0
  rcases runWork_publishing (h.toCarried.sound hg) (h.live hout) hcovers hroom
    (Work.report st b') (b := b) with ⟨log, hrun⟩ | ⟨e, log, ⟨s, hs, hsl, hle, hfull⟩, hrun⟩
  · rw [hrun]
    have hmoved := Worked.moved (g := g) (b := n.block) (x := x) (r := 0) hform'
      ⟨fun _ => rfl, by simp [hin]⟩ ⟨by simp [hout], fun _ => ⟨hm, hroom⟩⟩ hcovers hdone
      (hst.imp id fun h => ⟨h.1, hout, h.2⟩)
    rw [hsame] at hmoved
    exact hmoved.comes
  · rw [hrun]
    have hoverfull := Worked.overfull (g := g) (b := n.block) (x := x) (e := .stream e) (r := 0)
      hform hout (fun _ _ => Nat.zero_le _) hs hsl hle hfull hcovers
    rw [hsame] at hoverfull
    exact hoverfull.comes

theorem comes_nullSource {b : NullSource} (h : Ready g S p x i n) (hg : g.Signals S)
    (hb : n.block = .nullSource b) :
    Comes g S p x i n.block (x.runWork i (Block.work n.block)) := by
  have hports := h.toCarried.portsAgree hg h.node
  have hin : n.block.hasInput = false := by rw [hb]; rfl
  have hout : n.block.hasOutput = true := by rw [hb]; rfl
  have ht : b.type = n.block.sampleType := by rw [hb]; rfl
  have hsignal : S i = fun _ => some (b.type.zero, []) := by
    rw [h.toCarried.signal_eq hg h.node, hb]
    rfl
  have hunfed := h.toCarried.feed?_eq_none hg h.node hin
  have hwork : Block.work n.block = (NullSource.work b).map (·.map id Builtin.nullSource) := by
    rw [hb]
    rfl
  rw [hwork, runWork_map, NullSource.work, runWork_withWriter h.node hports hout ht,
    taggedSpace_eq (h.live hout)]
  dsimp only
  generalize hm : (Room.bounded (x.room i)).clip maxSourceChunk = m
  have hm : min maxSourceChunk (x.room i) = m := hm
  by_cases hzero : m = 0
  · rw [if_pos hzero, ← rewired_self (x := x)]
    have hroom : x.room i = 0 := by
      unfold maxSourceChunk at hm
      omega
    have hall : ∀ s, x.graph.feed? i = some s → 0 < s.available := by
      intro s hs
      cases hunfed.symm.trans hs
    rw [hb] at hout ⊢
    exact (Worked.blocked hout hroom hall).comes
  · rw [if_neg hzero]
    have hchunk : (S i).chunk (p i) m = ⟨List.replicate m b.type.zero, []⟩ := by
      rw [hsignal]
      exact chunk_nullSource b (p i) m
    have hcovers : (S i).Covers (p i + m) := by
      intro k hk
      rw [hsignal]
      rfl
    have hsamples : List.replicate m b.type.zero = ((S i).chunk (p i) m).samples := by rw [hchunk]
    have htags : ([] : List Tag) = ((S i).chunk (p i) m).tags := by rw [hchunk]
    rw [hsamples, htags]
    refine comes_publishing h hg hin hout (Nat.pos_of_ne_zero hzero) (by omega) hcovers ?_ ?_
      trivial (.inl rfl)
    · rw [hb]
    · rw [hb]
      rfl

/-- How much a vector source publishes. -/
theorem share_spec {repeating : Bool} {space rest m : Nat}
    (hm : (if repeating = true then space else min space rest) = m) (hspace : ¬ space = 0)
    (hrest : repeating = false → ¬ rest = 0) :
    0 < m ∧ m ≤ space ∧ (repeating = false → m ≤ rest) := by
  cases repeating with
  | true =>
    rw [if_pos rfl] at hm
    exact ⟨by omega, by omega, by simp⟩
  | false =>
    have hrest := hrest rfl
    rw [if_neg Bool.false_ne_true] at hm
    exact ⟨by omega, by omega, fun _ => by omega⟩

theorem comes_vectorSource {b : VectorSource} (h : Ready g S p x i n) (hg : g.Signals S)
    (hb : n.block = .vectorSource b) :
    Comes g S p x i n.block (x.runWork i (Block.work n.block)) := by
  have hports := h.toCarried.portsAgree hg h.node
  have hin : n.block.hasInput = false := by rw [hb]; rfl
  have hout : n.block.hasOutput = true := by rw [hb]; rfl
  have ht : b.type = n.block.sampleType := by rw [hb]; rfl
  have hsignal : S i = b.signal := by
    rw [h.toCarried.signal_eq hg h.node, hb]
    rfl
  have hat := h.done
  rw [hb] at hat
  have hat : b.At (p i) := hat
  have hunfed := h.toCarried.feed?_eq_none hg h.node hin
  have hwork : Block.work n.block = (VectorSource.work b).map (·.map id Builtin.vectorSource) := by
    rw [hb]
    rfl
  rw [hwork, runWork_map, VectorSource.work]
  dsimp only
  by_cases hend :
    (b.data.isEmpty || (!b.repeating && decide (b.round.size - b.position = 0))) = true
  · rw [if_pos hend, ← rewired_self (x := x)]
    have hended : (S i).EndsAt (p i) := by
      have hcovers := h.covers i
      rw [hsignal] at hcovers ⊢
      refine hat.endsAt hcovers ?_
      simpa [Nat.sub_eq_zero_iff_le] using hend
    rw [hb] at hout ⊢
    exact (Worked.ended hout hended).comes
  rw [if_neg hend, runWork_withWriter h.node hports hout ht, taggedSpace_eq (h.live hout)]
  generalize hspace : (Room.bounded (x.room i)).clip maxSourceChunk = space
  have hspace : min maxSourceChunk (x.room i) = space := hspace
  by_cases hzero : space = 0
  · rw [if_pos hzero, ← rewired_self (x := x)]
    have hroom : x.room i = 0 := by
      unfold maxSourceChunk at hspace
      omega
    have hall : ∀ s, x.graph.feed? i = some s → 0 < s.available := by
      intro s hs
      cases hunfed.symm.trans hs
    rw [hb] at hout ⊢
    exact (Worked.blocked hout hroom hall).comes
  · simp only [Bool.or_eq_true, List.isEmpty_iff, Bool.and_eq_true, Bool.not_eq_true',
      decide_eq_true_eq, not_or, not_and] at hend
    obtain ⟨hne, hrest⟩ := hend
    rw [if_neg hzero]
    generalize hm :
      (if b.repeating = true then space else min space (b.round.size - b.position)) = m
    obtain ⟨hpos, hle, hcut⟩ := share_spec hm hzero hrest
    have hcovers : b.signal.Covers (p i + m) := hat.covers hne hcut
    have hchunk := VectorSource.nextChunk_eq hat hcovers
    have hmoved := hat.next hcovers
    have hsame : (b.nextChunk m).2.signal = b.signal := rfl
    have hround : (b.nextChunk m).2.round = b.round := rfl
    have hrepeating : (b.nextChunk m).2.repeating = b.repeating := rfl
    have hform : (Builtin.vectorSource (b.nextChunk m).2).form = n.block.form := by
      rw [hb]
      rfl
    rw [← hsignal] at hcovers hchunk hsame
    rcases hnext : b.nextChunk m with ⟨chunk, moved⟩
    rw [hnext] at hchunk hmoved hsame hround hrepeating hform
    cases hchunk
    dsimp only
    split
    next hlast =>
      simp only [Bool.and_eq_true, Bool.not_eq_true', decide_eq_true_eq] at hlast
      refine comes_publishing h hg hin hout hpos (by omega) hcovers hform hform hmoved
        (.inr ⟨rfl, ?_⟩)
      rw [← hsame] at hcovers ⊢
      refine hmoved.endsAt hcovers (.inr ⟨hrepeating.trans hlast.1, ?_⟩)
      rw [hround]
      exact hlast.2.ge
    next =>
      exact comes_publishing h hg hin hout hpos (by omega) hcovers hform hform hmoved (.inl rfl)

/-- What a work call of any built-in block comes to. -/
theorem runWork_comes (h : Ready g S p x i n) (hg : g.Signals S) :
    Comes g S p x i n.block (x.runWork i (Block.work n.block)) := by
  cases hb : n.block with
  | nullSource b => exact hb ▸ comes_nullSource h hg hb
  | nullSink b => exact hb ▸ comes_nullSink h hg hb
  | vectorSource b => exact hb ▸ comes_vectorSource h hg hb
  | vectorSink b => exact hb ▸ comes_vectorSink h hg hb
  | head b => exact hb ▸ comes_head h hg hb
  | copy b => exact hb ▸ comes_copy h hg hb
  | tagGate b => exact hb ▸ comes_tagGate h hg hb

end Execution
end Dataflow
