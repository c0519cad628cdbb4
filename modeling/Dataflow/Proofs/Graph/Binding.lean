import Dataflow.Proofs.Graph.Board
import Dataflow.Proofs.Graph.SameWiring

/-!
# Graphs as their ports show them

Once the connections of a graph have been bound, its ports own just what the connections say
(`Board.Carries`), and a block that uses its ports reads and writes the streams of the bound graph
(`Board.Shows`). In particular a port hands out a reader or a writer just when a work call gets one.
The port looks at the type of the end that it owns, and the work call at the type that the port is
declared with; these agree because the connections of a wired graph have the type of both their
ports (`Binds.of_consumer`, `Binds.type_of_mem_producers`).
-/

namespace Dataflow

variable {β : Type} {g : Graph β} {e : Endpoint}

namespace Graph

theorem inputStream?_bind (g : Graph β) (e : Endpoint) :
    inputStream? g.bind.connections e =
      (g.connections.find? fun c => c.target = e).map fun c => .empty (g.bufferSize c) := by
  rw [inputStream?, bind]
  dsimp only
  generalize g.connections = connections
  induction connections with
  | nil => rfl
  | cons c rest ih =>
    rw [List.map_cons, List.findSome?_cons, List.find?_cons]
    by_cases h : c.target = e
    · simp [h]
    · simp [h, ih]

theorem outputStreams_bind (g : Graph β) (e : Endpoint) :
    outputStreams g.bind.connections e =
      (g.connections.filter fun c => c.source = e).map fun c => .empty (g.bufferSize c) := by
  rw [outputStreams, bind]
  dsimp only
  generalize g.connections = connections
  induction connections with
  | nil => rfl
  | cons c rest ih =>
    rw [List.map_cons, List.filterMap_cons, List.filter_cons]
    by_cases h : c.source = e
    · simp [h, ih]
    · simp [h, ih]

/-- In a valid graph every required input is connected. -/
theorem isFed_of_validate [Block β] (hvalid : g.validate = .ok ()) {p : PortSchema}
    (hp : g.input? e = some p) (hrequired : p.optional = false) : g.isFed e = true := by
  obtain ⟨n, hn, hport⟩ := Option.bind_eq_some_iff.mp hp
  have hunfed := validate_eq_ok_iff.mp hvalid e.block n hn
  rw [unfedInput?, Option.map_eq_none_iff, List.find?_eq_none] at hunfed
  have hnot := hunfed (p, e.port) (List.mem_zipIdx_iff_getElem?.mpr hport)
  simpa [hrequired] using hnot

end Graph

namespace Board

variable {b : Board} {old : List (Stream Sample)} {c : Connection} {half : Half} {first : Nat}

/-! ### The ends of buffers -/

theorem fst_halves (first : Nat) (connections : List Connection) :
    (halves first connections).map Prod.fst = connections := by
  rw [halves, List.map_map]
  exact List.zipIdx_map_fst first connections

theorem find?_eq_halves (e : Endpoint) (first : Nat) (connections : List Connection) :
    (connections.find? fun c => c.target = e) =
      ((halves first connections).find? fun (c, _) => c.target = e).map Prod.fst := by
  conv => lhs; rw [← fst_halves first connections, List.find?_map]
  rfl

theorem filter_eq_halves (e : Endpoint) (first : Nat) (connections : List Connection) :
    (connections.filter fun c => c.source = e) =
      ((halves first connections).filter fun (c, _) => c.source = e).map Prod.fst := by
  conv => lhs; rw [← fst_halves first connections, List.filter_map]
  rfl

theorem links_of_mem_halves (hg : g.Wired) (hmem : (c, half) ∈ halves first g.connections) :
    g.Links c ∧ half.type = c.type := by
  obtain ⟨k, hk, rfl⟩ := mem_halves.mp hmem
  exact ⟨hg.links c (List.mem_of_getElem? hk), rfl⟩

/-- If no input is connected twice, an input owns the end of any connection to it. -/
theorem consumerAt_eq_some_iff (hg : g.Wired) :
    consumerAt e (halves first g.connections) = some half ↔
      ∃ c, (c, half) ∈ halves first g.connections ∧ c.target = e := by
  refine ⟨of_consumerAt, ?_⟩
  rintro ⟨c, hmem, rfl⟩
  have hnodup : ((halves first g.connections).map fun entry => entry.1.target).Nodup := by
    have htargets : (((halves first g.connections).map Prod.fst).map Connection.target).Nodup := by
      rw [fst_halves]
      exact List.pairwise_map.mpr hg.targets
    rwa [List.map_map] at htargets
  rw [consumerAt, Option.map_eq_some_iff]
  cases hfind : (halves first g.connections).find? fun (d, _) => d.target = c.target with
  | none => exact absurd (List.find?_eq_none.mp hfind _ hmem) (by simp)
  | some entry =>
    have htarget : entry.1.target = c.target := by simpa using List.find?_some hfind
    have heq := List.inj_on_of_nodup_map hnodup (List.mem_of_find?_eq_some hfind) hmem htarget
    exact ⟨entry, rfl, heq ▸ rfl⟩

/-! ### What the ports own -/

/-- What an input owns, if it is there. -/
def consumer? (b : Board) (e : Endpoint) : Option Half := (b.input? e).bind InputPort.consumer

/-- What an output owns, if it is there. -/
def producers (b : Board) (e : Endpoint) : List Half := (b.output? e).elim [] OutputPort.producers

/-- The buffer that an end belongs to. -/
def stream? (b : Board) (half : Half) : Option (Stream Sample) := b.buffers[half.buffer]?

/-- The ports of a board own just what the connections of a graph say. The buffers are in the order
of the connections, behind the old ones. -/
structure Carries (g : Graph β) (old : List (Stream Sample)) (b : Board) : Prop where
  fits : b.Fits g
  /-- An output owns one end for each connection from it, in the order of the connections. -/
  producers : ∀ e p, b.output? e = some p →
    p.producers = producersAt e (halves old.length g.connections) ∧
    p.producers.length = g.fanOut e
  /-- An input owns an end if and only if a connection leads to it. -/
  consumer : ∀ e p, b.input? e = some p →
    p.consumer = consumerAt e (halves old.length g.connections) ∧
    p.consumer.isSome = g.isFed e
  /-- The two ports of a connection own the two ends of one new buffer. -/
  joined : ∀ k c, g.connections[k]? = some c →
    ⟨old.length + k, c.type⟩ ∈ b.producers c.source ∧
    b.consumer? c.target = some ⟨old.length + k, c.type⟩ ∧
    b.buffers[old.length + k]? = some (.empty (c.bufferSize.getD g.config.defaultBufferSize))
  /-- No port owns an end of an old buffer. -/
  fresh : ∀ e half, b.consumer? e = some half ∨ half ∈ b.producers e → old.length ≤ half.buffer
  buffers : old <+: b.buffers ∧ b.buffers.length = old.length + g.connections.length

/-- Through its ports a board shows the streams of a graph. -/
structure Shows (g : Graph β) (b : Board) : Prop where
  read : ∀ e, (b.consumer? e).bind b.stream? = Graph.inputStream? g.connections e
  written : ∀ e, (b.producers e).filterMap b.stream? = Graph.outputStreams g.connections e
  readerError? : ∀ e p t, b.input? e = some p →
    p.readerError? t = Work.readerError? (Graph.inputStatus g.connections e p.schema) t
  writerError? : ∀ e p t, b.output? e = some p →
    p.writerError? t = Work.writerError? (Graph.outputStatus g.connections e p.schema) t

namespace Binds

section Ports

variable (h : b.Binds g old g.connections) {p : InputPort} {q : OutputPort}
include h

theorem of_input? (hp : b.input? e = some p) :
    g.input? e = some p.schema ∧ p.consumer = consumerAt e (halves old.length g.connections) := by
  rw [h.inputs] at hp
  obtain ⟨schema, hschema, rfl⟩ := Option.map_eq_some_iff.mp hp
  exact ⟨hschema, rfl⟩

theorem of_output? (hq : b.output? e = some q) :
    g.output? e = some q.schema ∧
      q.producers = producersAt e (halves old.length g.connections) := by
  rw [h.outputs] at hq
  obtain ⟨schema, hschema, rfl⟩ := Option.map_eq_some_iff.mp hq
  exact ⟨hschema, rfl⟩

theorem isSome_consumer (hp : b.input? e = some p) : p.consumer.isSome = g.isFed e := by
  rw [(h.of_input? hp).2, consumerAt, Option.isSome_map, Graph.isFed, ← List.isSome_find?,
    find?_eq_halves e old.length, Option.isSome_map]

theorem length_producers (hq : b.output? e = some q) : q.producers.length = g.fanOut e := by
  rw [(h.of_output? hq).2, producersAt, List.length_map, Graph.fanOut,
    List.countP_eq_length_filter, filter_eq_halves e old.length, List.length_map]

theorem stream? (hmem : (c, half) ∈ halves old.length g.connections) :
    b.stream? half = some (.empty (g.bufferSize c)) := by
  obtain ⟨k, hk, rfl⟩ := mem_halves.mp hmem
  rw [Board.stream?, h.buffers, List.getElem?_append_right (Nat.le_add_right ..),
    Nat.add_sub_cancel_left, List.getElem?_map, hk]
  rfl

end Ports

section Wired

variable (h : b.Binds g old g.connections) (hg : g.Wired) {p : InputPort} {q : OutputPort}
include h hg

/-- What a connection to a place would give it is owned by a port, as the place has one. -/
theorem consumer? (e : Endpoint) :
    b.consumer? e = consumerAt e (halves old.length g.connections) := by
  rw [Board.consumer?, h.inputs]
  cases hp : g.input? e with
  | some p => rfl
  | none =>
    refine (Option.eq_none_iff_forall_ne_some.mpr fun half hhalf => ?_).symm
    obtain ⟨c, hmem, rfl⟩ := of_consumerAt hhalf
    obtain ⟨p, hp', -⟩ := (links_of_mem_halves hg hmem).1.input?
    cases hp.symm.trans hp'

theorem producers (e : Endpoint) :
    b.producers e = producersAt e (halves old.length g.connections) := by
  rw [Board.producers, h.outputs]
  cases hq : g.output? e with
  | some q => rfl
  | none =>
    refine (List.eq_nil_iff_forall_not_mem.mpr fun half hhalf => ?_).symm
    obtain ⟨c, hmem, rfl⟩ := mem_producersAt.mp hhalf
    obtain ⟨q, hq', -⟩ := (links_of_mem_halves hg hmem).1.output?
    cases hq.symm.trans hq'

/-- The end that an input owns is of a connection to it, and so of its type. -/
theorem of_consumer (hp : b.input? e = some p) (hhalf : p.consumer = some half) :
    half.type = p.schema.type ∧ ∃ c, (c, half) ∈ halves old.length g.connections := by
  obtain ⟨hschema, hconsumer⟩ := h.of_input? hp
  obtain ⟨c, hmem, rfl⟩ := of_consumerAt (hconsumer.symm.trans hhalf)
  obtain ⟨hlinks, htype⟩ := links_of_mem_halves hg hmem
  obtain ⟨schema, hschema', htype'⟩ := hlinks.input?
  cases hschema.symm.trans hschema'
  exact ⟨htype.trans htype'.symm, c, hmem⟩

theorem type_of_mem_producers (hq : b.output? e = some q) (hhalf : half ∈ q.producers) :
    half.type = q.schema.type := by
  obtain ⟨hschema, hproducers⟩ := h.of_output? hq
  obtain ⟨c, hmem, rfl⟩ := mem_producersAt.mp (hproducers ▸ hhalf)
  obtain ⟨hlinks, htype⟩ := links_of_mem_halves hg hmem
  obtain ⟨schema, hschema', htype'⟩ := hlinks.output?
  cases hschema.symm.trans hschema'
  exact htype.trans htype'.symm

theorem read (e : Endpoint) :
    (b.consumer? e).bind b.stream? = Graph.inputStream? g.bind.connections e := by
  rw [h.consumer? hg, consumerAt, Graph.inputStream?_bind, find?_eq_halves e old.length]
  cases hfind : (halves old.length g.connections).find? fun (c, _) => c.target = e with
  | none => rfl
  | some entry => exact h.stream? (List.mem_of_find?_eq_some hfind)

theorem written (e : Endpoint) :
    (b.producers e).filterMap b.stream? = Graph.outputStreams g.bind.connections e := by
  rw [h.producers hg, producersAt, Graph.outputStreams_bind, filter_eq_halves e old.length,
    List.filterMap_map, List.map_map, ← List.filterMap_eq_map]
  refine List.filterMap_congr fun entry hentry => ?_
  exact h.stream? (List.mem_of_mem_filter hentry)

theorem readerError? (hp : b.input? e = some p) (t : SampleType) :
    p.readerError? t =
      Work.readerError? (Graph.inputStatus g.bind.connections e p.schema) t := by
  have hread := h.read hg e
  rw [Board.consumer?, hp, Option.bind_some] at hread
  rw [InputPort.readerError?, Graph.inputStatus, ← hread]
  cases hhalf : p.consumer with
  | none => rfl
  | some half =>
    obtain ⟨htype, c, hmem⟩ := h.of_consumer hg hp hhalf
    rw [Option.bind_some, h.stream? hmem]
    simp [Work.readerError?, htype]

theorem writerError? (hq : b.output? e = some q) (t : SampleType) :
    q.writerError? t =
      Work.writerError? (Graph.outputStatus g.bind.connections e q.schema) t := by
  have hlength : (Graph.outputStreams g.bind.connections e).length = q.producers.length := by
    rw [Graph.outputStreams_bind, List.length_map, h.length_producers hq, Graph.fanOut,
      List.countP_eq_length_filter]
  rw [OutputPort.writerError?, Work.writerError?, Graph.outputStatus, hlength]
  refine if_congr ?_ rfl rfl
  simp only [List.all_eq_true, decide_eq_true_eq, Bool.or_eq_true, List.length_eq_zero_iff]
  constructor
  · intro hall
    cases hproducers : q.producers with
    | nil => exact .inl rfl
    | cons half rest =>
      have hhalf : half ∈ q.producers := hproducers ▸ List.mem_cons_self
      exact .inr ((h.type_of_mem_producers hg hq hhalf).symm.trans (hall half hhalf))
  · rintro (hnil | htype) half hhalf
    · rw [hnil] at hhalf
      cases hhalf
    · exact (h.type_of_mem_producers hg hq hhalf).trans htype

theorem shows : b.Shows g.bind :=
  ⟨h.read hg, h.written hg, fun _ _ t hp => h.readerError? hg hp t,
    fun _ _ t hq => h.writerError? hg hq t⟩

theorem carries : b.Carries g old where
  fits := h.fits
  producers e q hq := ⟨(h.of_output? hq).2, h.length_producers hq⟩
  consumer e p hp := ⟨(h.of_input? hp).2, h.isSome_consumer hp⟩
  joined k c hk := by
    have hmem : (c, ⟨old.length + k, c.type⟩) ∈ halves old.length g.connections :=
      mem_halves.mpr ⟨k, hk, rfl⟩
    refine ⟨?_, ?_, h.stream? hmem⟩
    · rw [h.producers hg]
      exact mem_producersAt.mpr ⟨c, hmem, rfl⟩
    · rw [h.consumer? hg]
      exact (consumerAt_eq_some_iff hg).mpr ⟨c, hmem, rfl⟩
  fresh e half hhalf := by
    have hmem : ∃ c, (c, half) ∈ halves old.length g.connections := by
      rw [h.consumer? hg, h.producers hg] at hhalf
      rcases hhalf with hhalf | hhalf
      · exact (of_consumerAt hhalf).imp fun c hc => hc.1
      · exact (mem_producersAt.mp hhalf).imp fun c hc => hc.1
    obtain ⟨c, hmem⟩ := hmem
    obtain ⟨k, -, rfl⟩ := mem_halves.mp hmem
    exact Nat.le_add_right ..
  buffers := by
    rw [h.buffers]
    exact ⟨List.prefix_append .., by rw [List.length_append, List.length_map]⟩

end Wired

end Binds
end Board
end Dataflow
