import Dataflow.Proofs.Graph.Construction

/-!
# Ports and their buffers

A connection of a bound graph owns its stream. Seen from the blocks it is the ports that own
something: an input at most one end of a buffer, an output one end of each buffer it feeds
(`Board`). Binding takes away what the ports own, and then gives every connection a new buffer, the
ends of which go to the ports that the connection names (`Board.bindPorts`). This fails when a type
may not be carried by connections, and crashes when there is no port where a connection says so.

For a well-formed graph neither happens, and the ports of the board own what the connections of the
graph say, whatever they owned before (`Board.binds_bindPorts`). `Board.Binds` is the invariant: it
says what the ports own when the first connections have been bound.
-/

namespace Dataflow

/-- One end of a buffer. -/
structure Half where
  /-- Position of the buffer among all that were ever made. -/
  buffer : Nat
  type : SampleType
  deriving DecidableEq, Repr

/-- An input of a block. -/
structure InputPort where
  schema : PortSchema
  consumer : Option Half
  deriving DecidableEq, Repr

/-- An output of a block. -/
structure OutputPort where
  schema : PortSchema
  producers : List Half
  deriving DecidableEq, Repr

/-- The ports of all blocks, in one row for each, and all buffers that were ever made. -/
structure Board where
  inputs : List (List InputPort)
  outputs : List (List OutputPort)
  buffers : List (Stream Sample)

/-- How binding can fail. -/
inductive BindFailure where
  | error (e : GraphError)
  /-- No port is at this place. -/
  | crash (e : Endpoint)
  deriving DecidableEq, Repr

namespace InputPort

def unbind (p : InputPort) : InputPort := { p with consumer := none }

def bind (half : Half) (p : InputPort) : InputPort := { p with consumer := some half }

/-- Why the port cannot be read as samples of type `t`, if it cannot. -/
def readerError? (p : InputPort) (t : SampleType) : Option PortError :=
  match p.consumer with
  | none => some (.notConnected p.schema.name)
  | some half =>
    if half.type = t then none
    else some (.typeMismatch p.schema.name p.schema.type.name t.name)

end InputPort

namespace OutputPort

def unbind (p : OutputPort) : OutputPort := { p with producers := [] }

def attach (half : Half) (p : OutputPort) : OutputPort :=
  { p with producers := p.producers ++ [half] }

/-- Why the port cannot be written with samples of type `t`, if it cannot. -/
def writerError? (p : OutputPort) (t : SampleType) : Option PortError :=
  if p.producers.all fun half => half.type = t then none
  else some (.typeMismatch p.schema.name p.schema.type.name t.name)

end OutputPort

namespace Graph

variable {β : Type}

/-- What the port at a place has been declared as. -/
def input? (g : Graph β) (e : Endpoint) : Option PortSchema :=
  (g.node? e.block).bind fun n => n.inputs[e.port]?

@[inherit_doc input?]
def output? (g : Graph β) (e : Endpoint) : Option PortSchema :=
  (g.node? e.block).bind fun n => n.outputs[e.port]?

namespace Links
variable {g : Graph β} {c : Connection}

theorem output? (h : g.Links c) : ∃ p, g.output? c.source = some p ∧ p.type = c.type := by
  obtain ⟨n, p, hn, hp, htype⟩ := h.source
  exact ⟨p, by rw [Graph.output?, hn]; exact hp, htype⟩

theorem input? (h : g.Links c) : ∃ p, g.input? c.target = some p ∧ p.type = c.type := by
  obtain ⟨n, p, hn, hp, htype⟩ := h.target
  exact ⟨p, by rw [Graph.input?, hn]; exact hp, htype⟩

end Links

end Graph

namespace Endpoint

variable {π ρ : Type}

/-- The port at this place. -/
def port? (e : Endpoint) (rows : List (List π)) : Option π :=
  rows[e.block]?.bind fun row => row[e.port]?

/-- Change the port at this place, if it is there. -/
def modify (e : Endpoint) (f : π → π) (rows : List (List π)) : List (List π) :=
  rows.modify e.block fun row => row.modify e.port f

/-- Change the port at this place, which must be there: rows are indexed without a check. -/
def change (e : Endpoint) (f : π → π) (rows : List (List π)) :
    Except BindFailure (List (List π)) :=
  match e.port? rows with
  | none => .error (.crash e)
  | some _ => .ok (e.modify f rows)

theorem port?_map (e : Endpoint) (f : π → ρ) (rows : List (List π)) :
    e.port? (rows.map (List.map f)) = (e.port? rows).map f := by
  rw [port?, port?, List.getElem?_map]
  cases rows[e.block]? with
  | none => rfl
  | some row => exact List.getElem?_map ..

theorem port?_modify (e e' : Endpoint) (f : π → π) (rows : List (List π)) :
    e'.port? (e.modify f rows) = if e = e' then (e'.port? rows).map f else e'.port? rows := by
  obtain ⟨i, j⟩ := e
  obtain ⟨i', j'⟩ := e'
  simp only [port?, modify, List.getElem?_modify, Endpoint.mk.injEq]
  cases rows[i']? with
  | none => simp
  | some row =>
    by_cases hi : i = i'
    · by_cases hj : j = j' <;> simp [hi, hj]
    · simp [hi]

theorem change_of_isSome {e : Endpoint} {rows : List (List π)} (h : (e.port? rows).isSome)
    (f : π → π) : e.change f rows = .ok (e.modify f rows) := by
  obtain ⟨p, hp⟩ := Option.isSome_iff_exists.mp h
  rw [change, hp]

end Endpoint

namespace Board

variable {β : Type} {g : Graph β} {b : Board}

def input? (b : Board) (e : Endpoint) : Option InputPort := e.port? b.inputs

def output? (b : Board) (e : Endpoint) : Option OutputPort := e.port? b.outputs

/-! ### Binding -/

/-- Take away what the ports own. -/
def unbind (b : Board) : Board :=
  { b with
    inputs := b.inputs.map (List.map InputPort.unbind)
    outputs := b.outputs.map (List.map OutputPort.unbind) }

/-- Make a buffer, of a type that connections may carry. -/
def create (b : Board) (type : SampleType) (capacity : Nat) : Except BindFailure (Half × Board) :=
  if type ∈ SampleType.registered then
    .ok (⟨b.buffers.length, type⟩, { b with buffers := b.buffers ++ [.empty capacity] })
  else .error (.error (.connection (.unregisteredType type.name)))

/-- Give a connection a buffer, and its ends to the two ports. -/
def bindOne (g : Graph β) (b : Board) (c : Connection) : Except BindFailure Board := do
  let (half, b) ← b.create c.type (g.bufferSize c)
  let outputs ← c.source.change (·.attach half) b.outputs
  let inputs ← c.target.change (·.bind half) b.inputs
  return { b with inputs, outputs }

/-- Bind all connections of a graph. -/
def bindPorts (g : Graph β) (b : Board) : Except BindFailure Board :=
  g.connections.foldlM (bindOne g) b.unbind

/-! ### What the ports own -/

/-- The connections with the ends of their buffers, which are numbered on from `first`. -/
def halves (first : Nat) (connections : List Connection) : List (Connection × Half) :=
  (connections.zipIdx first).map fun (c, k) => (c, ⟨k, c.type⟩)

/-- What an input owns. -/
def consumerAt (e : Endpoint) (halves : List (Connection × Half)) : Option Half :=
  (halves.find? fun (c, _) => c.target = e).map Prod.snd

/-- What an output owns. -/
def producersAt (e : Endpoint) (halves : List (Connection × Half)) : List Half :=
  (halves.filter fun (c, _) => c.source = e).map Prod.snd

theorem halves_concat (first : Nat) (connections : List Connection) (c : Connection) :
    halves first (connections ++ [c]) =
      halves first connections ++ [(c, ⟨first + connections.length, c.type⟩)] := by
  simp [halves, List.zipIdx_append]

theorem mem_halves {first : Nat} {connections : List Connection} {c : Connection} {half : Half} :
    (c, half) ∈ halves first connections ↔
      ∃ k, connections[k]? = some c ∧ half = ⟨first + k, c.type⟩ := by
  rw [List.mem_iff_getElem?]
  simp only [halves, List.getElem?_map, List.getElem?_zipIdx, Option.map_map,
    Option.map_eq_some_iff]
  constructor
  · rintro ⟨k, d, hd, heq⟩
    cases heq
    exact ⟨k, hd, rfl⟩
  · rintro ⟨k, hc, rfl⟩
    exact ⟨k, c, hc, rfl⟩

theorem mem_producersAt {e : Endpoint} {hs : List (Connection × Half)} {half : Half} :
    half ∈ producersAt e hs ↔ ∃ c, (c, half) ∈ hs ∧ c.source = e := by
  simp [producersAt]

theorem of_consumerAt {e : Endpoint} {hs : List (Connection × Half)} {half : Half}
    (h : consumerAt e hs = some half) : ∃ c, (c, half) ∈ hs ∧ c.target = e := by
  obtain ⟨⟨c, _⟩, hfind, rfl⟩ := Option.map_eq_some_iff.mp h
  exact ⟨c, List.mem_of_find?_eq_some hfind, by simpa using List.find?_some hfind⟩

theorem producersAt_concat (e : Endpoint) (first : Nat) (connections : List Connection)
    (c : Connection) :
    producersAt e (halves first (connections ++ [c])) =
      producersAt e (halves first connections) ++
        if c.source = e then [⟨first + connections.length, c.type⟩] else [] := by
  rw [halves_concat, producersAt, producersAt, List.filter_append, List.map_append]
  split
  next h => simp [h]
  next h => simp [h]

theorem consumerAt_concat {first : Nat} {connections : List Connection} {c : Connection}
    (hfree : ∀ d ∈ connections, d.target ≠ c.target) (e : Endpoint) :
    consumerAt e (halves first (connections ++ [c])) =
      if c.target = e then some ⟨first + connections.length, c.type⟩
      else consumerAt e (halves first connections) := by
  rw [halves_concat, consumerAt, consumerAt, List.find?_append]
  split
  next h =>
    subst h
    have hnone : ((halves first connections).find? fun (d, _) => d.target = c.target) = none := by
      refine List.find?_eq_none.mpr fun ⟨d, half⟩ hd => ?_
      obtain ⟨k, hk, -⟩ := mem_halves.mp hd
      simpa using hfree d (List.mem_of_getElem? hk)
    simp [hnone]
  next h => simp [h]

/-- The ports of the board are those that the nodes of a graph declare. -/
structure Fits (g : Graph β) (b : Board) : Prop where
  inputs : ∀ e, (b.input? e).map InputPort.schema = g.input? e
  outputs : ∀ e, (b.output? e).map OutputPort.schema = g.output? e

/-- Of the connections of a graph, the first ones have been bound. -/
structure Binds (g : Graph β) (old : List (Stream Sample)) (bound : List Connection) (b : Board) :
    Prop where
  inputs : ∀ e, b.input? e = (g.input? e).map fun p =>
    ⟨p, consumerAt e (halves old.length bound)⟩
  outputs : ∀ e, b.output? e = (g.output? e).map fun p =>
    ⟨p, producersAt e (halves old.length bound)⟩
  buffers : b.buffers = old ++ bound.map fun c => .empty (g.bufferSize c)

namespace Binds
variable {old : List (Stream Sample)} {bound : List Connection} {c : Connection}

theorem fits (h : b.Binds g old bound) : b.Fits g where
  inputs e := by
    rw [h.inputs, Option.map_map]
    exact Option.map_id'
  outputs e := by
    rw [h.outputs, Option.map_map]
    exact Option.map_id'

theorem unbind (h : b.Fits g) : b.unbind.Binds g b.buffers [] where
  inputs e := by
    rw [← h.inputs, Option.map_map]
    exact e.port?_map InputPort.unbind b.inputs
  outputs e := by
    rw [← h.outputs, Option.map_map]
    exact e.port?_map OutputPort.unbind b.outputs
  buffers := (List.append_nil _).symm

theorem bindOne (h : b.Binds g old bound) (hc : g.Links c)
    (htype : c.type ∈ SampleType.registered) (hfree : ∀ d ∈ bound, d.target ≠ c.target) :
    ∃ b', bindOne g b c = .ok b' ∧ b'.Binds g old (bound ++ [c]) := by
  obtain ⟨p, hp, -⟩ := hc.output?
  obtain ⟨q, hq, -⟩ := hc.input?
  let half : Half := ⟨old.length + bound.length, c.type⟩
  have hcreate : b.create c.type (g.bufferSize c) =
      .ok (half, { b with buffers := b.buffers ++ [.empty (g.bufferSize c)] }) := by
    rw [create, if_pos htype, h.buffers]
    simp [half]
  have hsource : (c.source.port? b.outputs).isSome := by
    rw [← Board.output?, h.outputs, hp]
    rfl
  have htarget : (c.target.port? b.inputs).isSome := by
    rw [← Board.input?, h.inputs, hq]
    rfl
  refine ⟨{
    inputs := c.target.modify (·.bind half) b.inputs
    outputs := c.source.modify (·.attach half) b.outputs
    buffers := b.buffers ++ [.empty (g.bufferSize c)] }, ?_, ?_, ?_, ?_⟩
  · rw [Board.bindOne, hcreate]
    simp only [bind, Except.bind, Endpoint.change_of_isSome hsource,
      Endpoint.change_of_isSome htarget]
    rfl
  · -- no earlier connection leads to this input, so nothing is replaced there
    intro e
    rw [Board.input?, Endpoint.port?_modify, ← Board.input?, h.inputs, consumerAt_concat hfree]
    split
    · rw [Option.map_map]
      rfl
    · rfl
  · intro e
    rw [Board.output?, Endpoint.port?_modify, ← Board.output?, h.outputs, producersAt_concat]
    split
    · rw [Option.map_map]
      rfl
    · rw [List.append_nil]
  · rw [h.buffers, List.map_append, List.append_assoc]
    rfl

theorem bindAll (h : b.Binds g old bound) (rest : List Connection)
    (hlinks : ∀ c ∈ rest, g.Links c) (htypes : ∀ c ∈ rest, c.type ∈ SampleType.registered)
    (htargets : (bound ++ rest).Pairwise fun c d => c.target ≠ d.target) :
    ∃ b', rest.foldlM (Board.bindOne g) b = .ok b' ∧ b'.Binds g old (bound ++ rest) := by
  induction rest generalizing b bound with
  | nil => exact ⟨b, rfl, by rwa [List.append_nil]⟩
  | cons c rest ih =>
    have hfree : ∀ d ∈ bound, d.target ≠ c.target := fun d hd =>
      (List.pairwise_append.mp htargets).2.2 d hd c List.mem_cons_self
    obtain ⟨b', hone, hb'⟩ :=
      h.bindOne (hlinks c List.mem_cons_self) (htypes c List.mem_cons_self) hfree
    rw [List.append_cons] at htargets ⊢
    obtain ⟨b'', hrest, hb''⟩ := ih hb' (fun d hd => hlinks d (List.mem_cons_of_mem _ hd))
      (fun d hd => htypes d (List.mem_cons_of_mem _ hd)) htargets
    refine ⟨b'', ?_, hb''⟩
    rw [List.foldlM_cons, hone]
    exact hrest

end Binds

/-- Binding succeeds, and leaves the ports with what the connections of the graph say. -/
theorem binds_bindPorts (hg : g.WellFormed) (hb : b.Fits g) :
    ∃ b', b.bindPorts g = .ok b' ∧ b'.Binds g b.buffers g.connections :=
  (Binds.unbind hb).bindAll g.connections hg.links hg.registered hg.targets

end Board
end Dataflow
