import Dataflow.Proofs.Flow.Invariant

/-!
# Work calls

What a work call of a built-in block comes to while samples flow (`Execution.Worked`): the block
waits for input or for room, has come to its end, has moved samples, or fails. It fails only if its
input is not connected, or if a stream has no room for the tags of a chunk.
-/

namespace Dataflow

namespace Execution

variable {x : Execution Builtin} {i : Nat} {n : Node Builtin}

/-- An execution with other connections and another log. -/
def rewired (x : Execution Builtin) (connections : List Connection) (log : Array LogLine) :
    Execution Builtin :=
  { x with graph := { x.graph with connections }, log }

/-- Room for samples that may each carry a tag in all live streams at the output of a block. -/
def room (x : Execution Builtin) (i : Nat) : Nat :=
  FanOut.least (fun s => min s.space s.tagSpace) (x.graph.outlets i)

/-! ### Steps -/

section Steps

variable {β : Type} {b : β} {t : SampleType}

theorem runWork_ask {γ ρ : Type} {x y : Execution γ} {op : WorkOp} {next : op.Reply → Work ρ}
    {reply : op.Reply} (h : answerWork i op x = (reply, y)) :
    x.runWork i (.ask op next) = y.runWork i (next reply) := by
  rw [runWork, Program.run, h, runWork]

theorem port_input (hn : x.graph.node? i = some n) (hports : n.PortsAgree)
    (hin : n.block.hasInput = true) :
    x.port i Node.inputs 0 = .ok (.input "in" n.block.sampleType 0) := by
  simp [port, hn, hports.1, Builtin.inputs_eq, hin]

theorem port_output (hn : x.graph.node? i = some n) (hports : n.PortsAgree)
    (hout : n.block.hasOutput = true) :
    x.port i Node.outputs 0 = .ok (.output "out" n.block.sampleType 0) := by
  simp [port, hn, hports.2, Builtin.outputs_eq, hout]

theorem runWork_unconnected (hn : x.graph.node? i = some n) (hports : n.PortsAgree)
    (hin : n.block.hasInput = true) (hfeed : x.graph.feed? i = none)
    (next : InputStatus → Work (WorkOutcome × β)) :
    x.runWork i (Work.withReader 0 t b next) = ((.failed (.port (.notConnected "in")), b), x) := by
  have hstream : Graph.inputStream? x.graph.connections ⟨i, 0⟩ = none := hfeed
  simp [runWork, Work.withReader, Program.run, answerWork, port_input hn hports hin, Except.map,
    Graph.inputStatus, hstream, Work.readerError?, Work.fail, PortSchema.input]

theorem runWork_withReader (hn : x.graph.node? i = some n) (hports : n.PortsAgree)
    (hin : n.block.hasInput = true) (ht : t = n.block.sampleType) {s : Stream Sample}
    (hfeed : x.graph.feed? i = some s) (next : InputStatus → Work (WorkOutcome × β)) :
    x.runWork i (Work.withReader 0 t b next) = x.runWork i
      (next ⟨.input "in" t 0, true, s.available, s.closed, s.exhausted⟩) := by
  subst ht
  have hstream : Graph.inputStream? x.graph.connections ⟨i, 0⟩ = some s := hfeed
  simp [runWork, Work.withReader, Program.run, answerWork, port_input hn hports hin, Except.map,
    Graph.inputStatus, hstream, Work.readerError?, PortSchema.input]

theorem runWork_withWriter (hn : x.graph.node? i = some n) (hports : n.PortsAgree)
    (hout : n.block.hasOutput = true) (ht : t = n.block.sampleType)
    (next : OutputStatus → Work (WorkOutcome × β)) :
    x.runWork i (Work.withWriter 0 t b next) = x.runWork i
      (next (Graph.outputStatus x.graph.connections ⟨i, 0⟩ (.output "out" t 0))) := by
  subst ht
  simp [runWork, Work.withWriter, Program.run, answerWork, port_output hn hports hout, Except.map,
    Graph.outputStatus, Work.writerError?, PortSchema.output]

theorem runWork_taking {s : Stream Sample} {r : Nat} (hs : x.graph.Sound)
    (hfeed : x.graph.feed? i = some s) {T : Signal} {k : Nat} (hcarries : s.Carries T k)
    (hcovers : T.Covers k) (hr : r ≤ s.available) (next : Chunk Sample → Work (WorkOutcome × β)) :
    x.runWork i (Work.taking 0 r next) =
      (x.rewired (x.graph.connections.map (Connection.reading i r))
        (x.log ++ s.collectLog)).runWork i (next (T.chunk s.read r)) := by
  obtain ⟨hchunk, hstream, -⟩ := hcarries.take hcovers hr
  have hinput : Graph.inputStream? x.graph.connections ⟨i, 0⟩ = some s := hfeed
  have hanswer : answerWork i (.take 0 r) x = (T.chunk s.read r, x.rewired
      (x.graph.connections.map (Connection.reading i r)) (x.log ++ s.collectLog)) := by
    simp only [answerWork, hinput, hchunk, hstream, setInput, setConnections, addLog,
      hs.modifyInput_eq hfeed, rewired]
    rfl
  exact runWork_ask hanswer

theorem runWork_consuming {s : Stream Sample} {r : Nat} (hs : x.graph.Sound)
    (hfeed : x.graph.feed? i = some s) (hr : r ≤ s.available)
    (next : List Tag → Work (WorkOutcome × β)) :
    x.runWork i (Work.consuming 0 r b next) =
      (x.rewired (x.graph.connections.map (Connection.reading i r))
        (x.log ++ s.consumeLog r)).runWork i (next (s.collect.tagsOn r)) := by
  have hinput : Graph.inputStream? x.graph.connections ⟨i, 0⟩ = some s := hfeed
  have hanswer : answerWork i (.consume 0 r) x = (.ok (s.collect.tagsOn r), x.rewired
      (x.graph.connections.map (Connection.reading i r)) (x.log ++ s.consumeLog r)) := by
    simp only [answerWork, hinput, Stream.consume, if_neg (Nat.not_lt.mpr hr), setInput,
      setConnections, addLog, hs.modifyInput_eq hfeed, rewired]
  exact runWork_ask hanswer

theorem setOutputs_outlets (hs : x.graph.Sound) (f : Stream Sample → Stream Sample) :
    Graph.setOutputs ⟨i, 0⟩ x.graph.connections ((x.graph.outlets i).map f) =
      x.graph.connections.map fun c =>
        if c.source.block = i then { c with stream := c.stream.map f } else c := by
  rw [Graph.outlets, Graph.setOutputs_map]
  refine List.map_congr_left fun c hc => ?_
  simp only [hs.source_eq hc]

/-- Publishing a chunk for which there is room succeeds unless its tags do not fit. -/
theorem runWork_publishing {T : Signal} {k m : Nat} (hs : x.graph.Sound)
    (hlive : ∃ s ∈ x.graph.outlets i, s.detached = false) (hcovers : T.Covers (k + m))
    (hroom : m ≤ x.room i) (next : Work (WorkOutcome × β)) :
    (∃ log, x.runWork i (Work.publishing 0 (T.chunk k m).samples (T.chunk k m).tags b next) =
      (x.rewired (x.graph.connections.map (Connection.writing i (T.chunk k m))) log).runWork i
        next) ∨
    ∃ e log, (∃ s ∈ x.graph.outlets i, s.detached = false ∧ m ≤ s.tagSpace ∧
        s.tagSpace < (T.chunk k m).tags.length) ∧
      x.runWork i (Work.publishing 0 (T.chunk k m).samples (T.chunk k m).tags b next) =
        ((.failed (.stream e), b), x.rewired x.graph.connections log) := by
  have hlen := Signal.length_chunk hcovers
  rcases FanOut.publish_cases (T.chunk k m).samples (T.chunk k m).tags hlive with
    ⟨hpublish, -⟩ | ⟨e, hpublish, s, hs', hsl, hfull⟩
  · refine .inl ⟨x.log ++ FanOut.publishLog (x.graph.outlets i) (T.chunk k m).samples
      (T.chunk k m).tags, ?_⟩
    have hpublish' := hpublish
    rw [Graph.outlets] at hpublish'
    have hanswer : answerWork i (.publish 0 (T.chunk k m).samples (T.chunk k m).tags) x =
        (.ok (), x.rewired (x.graph.connections.map (Connection.writing i (T.chunk k m)))
          (x.log ++ FanOut.publishLog (x.graph.outlets i) (T.chunk k m).samples
            (T.chunk k m).tags)) := by
      simp only [answerWork, hpublish']
      rw [← Graph.outlets, setOutputs_outlets hs]
      rfl
    exact runWork_ask hanswer
  · refine .inr ⟨e, x.log ++ FanOut.publishLog (x.graph.outlets i) (T.chunk k m).samples
      (T.chunk k m).tags, ⟨s, hs', hsl, ?_⟩, ?_⟩
    · have hleast := FanOut.least_le (f := fun s : Stream Sample => min s.space s.tagSpace) hs' hsl
      rw [room] at hroom
      omega
    · have hsame : Graph.setOutputs ⟨i, 0⟩ x.graph.connections (x.graph.outlets i) =
          x.graph.connections := by
        have := setOutputs_outlets (i := i) hs id
        simpa using this
      have hpublish' := hpublish
      rw [Graph.outlets] at hpublish' hsame
      have hanswer : answerWork i (.publish 0 (T.chunk k m).samples (T.chunk k m).tags) x =
          (.error e, x.rewired x.graph.connections
            (x.log ++ FanOut.publishLog (x.graph.outlets i) (T.chunk k m).samples
              (T.chunk k m).tags)) := by
        simp only [answerWork, hpublish', hsame]
        rfl
      exact runWork_ask hanswer

/-- Forwarding samples to all live streams succeeds unless their tags do not fit. -/
theorem runWork_forwarding {T U : Signal} {k m : Nat} {s : Stream Sample} (hs : x.graph.Sound)
    (ha : x.graph.Acyclic) (hlive : ∃ s ∈ x.graph.outlets i, s.detached = false)
    (hfeed : x.graph.feed? i = some s) (hcarries : s.Carries T k) (hT : T.Covers k)
    (havail : m ≤ s.available) (hroom : m ≤ x.room i) {keep : List Tag → List Tag}
    (hU : U.Covers (s.read + m))
    (hkeep : U.chunk s.read m = ⟨(T.chunk s.read m).samples, keep (T.chunk s.read m).tags⟩)
    (next : Work (WorkOutcome × β)) :
    (∃ log, x.runWork i (Work.taking 0 m fun chunk =>
        Work.publishing 0 chunk.samples (keep chunk.tags) b next) =
      (x.rewired ((x.graph.connections.map (Connection.reading i m)).map
        (Connection.writing i (U.chunk s.read m))) log).runWork i next) ∨
    ∃ e log, (∃ s' ∈ x.graph.outlets i, s'.detached = false ∧ m ≤ s'.tagSpace ∧
        s'.tagSpace < (U.chunk s.read m).tags.length) ∧
      x.runWork i (Work.taking 0 m fun chunk =>
        Work.publishing 0 chunk.samples (keep chunk.tags) b next) =
          ((.failed (.stream e), b),
            x.rewired (x.graph.connections.map (Connection.reading i m)) log) := by
  rw [runWork_taking hs hfeed hcarries hT havail]
  have hsamples : (T.chunk s.read m).samples = (U.chunk s.read m).samples := by rw [hkeep]
  have htags : keep (T.chunk s.read m).tags = (U.chunk s.read m).tags := by rw [hkeep]
  rw [hsamples, htags]
  have hread : Graph.Sound { x.graph with
      connections := x.graph.connections.map (Connection.reading i m) } :=
    ((Graph.Alike.refl hs).mapConnections Connection.wire_reading).sound hs
  have houtlets := Graph.outlets_reading (i := i) (n := m) ha
  let y := x.rewired (x.graph.connections.map (Connection.reading i m)) (x.log ++ s.collectLog)
  have hroom' : m ≤ y.room i := by
    rw [room]
    show m ≤ FanOut.least _ (Graph.outlets { x.graph with
      connections := x.graph.connections.map (Connection.reading i m) } i)
    rw [houtlets]
    exact hroom
  have hlive' : ∃ s ∈ y.graph.outlets i, s.detached = false := by
    show ∃ s ∈ Graph.outlets { x.graph with
      connections := x.graph.connections.map (Connection.reading i m) } i, s.detached = false
    rw [houtlets]
    exact hlive
  rcases runWork_publishing (x := y) hread hlive' hU hroom' next with
    ⟨log, hrun⟩ | ⟨e, log, ⟨s', hs', hsl, hfull⟩, hrun⟩
  · exact .inl ⟨log, hrun⟩
  · refine .inr ⟨e, log, ⟨s', ?_, hsl, hfull⟩, hrun⟩
    rw [← houtlets]
    exact hs'

end Steps

end Execution
end Dataflow
