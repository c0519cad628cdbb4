import Dataflow.Proofs.Execution.Parallel
import Dataflow.Proofs.Flow.Wiring

/-!
# Watching work calls

Whoever watches a work call sees the operations that its program asks for, each with the reply
(`Program.exchanges`), and may take note of them (`Execution.watch`). The call does not know: what
it comes to is what it comes to unwatched. So what a block has published or read can be told
without a word of it in the block, in a call that is cut short by an error too.
-/

namespace Dataflow

namespace Program

variable {Op : Type} {Reply : Op → Type} {ρ τ σ : Type}

/-- What a program asks for while it runs in a state, with the replies. -/
def exchanges (answer : (op : Op) → σ → Reply op × σ) :
    Program Op Reply ρ → σ → List ((op : Op) × Reply op)
  | done _, _ => []
  | ask op next, s =>
    ⟨op, (answer op s).1⟩ :: (next (answer op s).1).exchanges answer (answer op s).2

theorem exchanges_map (answer : (op : Op) → σ → Reply op × σ) (f : ρ → τ)
    (p : Program Op Reply ρ) (s : σ) : (p.map f).exchanges answer s = p.exchanges answer s := by
  induction p generalizing s with
  | done result => rfl
  | ask op next ih => exact congrArg (List.cons _) (ih _ _)

end Program

/-- An operation of a work call with the reply to it. -/
abbrev Exchange := (op : WorkOp) × op.Reply

namespace Execution

variable {β ρ σ τ : Type}

/-- Run the program of a work call of the block at `block`, and note each operation. -/
def watch (note : τ → Exchange → τ) (block : Nat) (p : Work ρ) (x : Execution β) (seen : τ) :
    (ρ × Execution β) × τ :=
  (x.runWork block p, (p.exchanges (answerWork block) x).foldl note seen)

variable {note : τ → Exchange → τ} {i : Nat} {x y : Execution β} {seen : τ}

theorem watch_ask {op : WorkOp} {next : op.Reply → Work ρ} {reply : op.Reply}
    (h : answerWork i op x = (reply, y)) :
    watch note i (.ask op next) x seen = watch note i (next reply) y (note seen ⟨op, reply⟩) := by
  simp only [watch, runWork, Program.run, Program.exchanges, h, List.foldl_cons]

/-- An operation that changes nothing and is not noted. -/
theorem watch_query {op : WorkOp} {next : op.Reply → Work ρ} (h : (answerWork i op x).2 = x)
    (hnote : ∀ reply, note seen ⟨op, reply⟩ = seen) :
    watch note i (.ask op next) x seen = watch note i (next (answerWork i op x).1) x seen := by
  have hanswer : answerWork i op x = ((answerWork i op x).1, x) := Prod.ext rfl h
  rw [watch_ask hanswer, hnote]

theorem watch_map (f : ρ → σ) (p : Work ρ) : watch note i (p.map f) x seen =
    ((f (watch note i p x seen).1.1, (watch note i p x seen).1.2), (watch note i p x seen).2) := by
  simp only [watch, runWork, Program.run_map, Program.exchanges_map]

/-- A call that is watched does what it does unwatched. -/
theorem work_eq_watch [Block β] {n : Node β} (hn : x.graph.node? i = some n)
    (note : τ → Exchange → τ) (seen : τ) :
    let run := (watch note i (Block.work n.block) x seen).1
    (x.work i n).1 = run.1.1 ∧ (x.work i n).2.graph.connections = run.2.graph.connections ∧
      ∃ m, (x.work i n).2.graph.node? i = some m ∧ m.block = run.1.2 := by
  intro run
  have hnode : (x.runWork i (Block.work n.block)).2.graph.node? i = some n := by
    rw [Graph.node?, (runWork_frame i (Block.work n.block) x).1]
    exact hn
  refine ⟨rfl, rfl, ?_⟩
  show ∃ m, (modifyNode _ i _).graph.node? i = some m ∧ _
  rw [node?_modifyNode]
  exact ⟨_, congrArg (Option.map _) hnode, congrArg Node.block (if_pos rfl)⟩

section Steps

variable {γ : Type}

theorem watch_taking {s : Stream Sample} {n : Nat}
    (hs : Graph.inputStream? x.graph.connections ⟨i, 0⟩ = some s)
    (next : Chunk Sample → Work ρ) :
    watch note i (.ask (.take 0 n) next) x seen =
      watch note i (next (s.take n).1) ((x.setInput ⟨i, 0⟩ (s.take n).2).addLog s.collectLog)
        (note seen ⟨.take 0 n, (s.take n).1⟩) :=
  watch_ask (by simp only [answerWork, hs])

variable (note i x seen) (t : SampleType) (b : γ)

/-- A reader is refused, which ends the call, or there is a stream to read. -/
theorem watch_withReader_cases (hnote : ∀ seen reply, note seen ⟨.input 0, reply⟩ = seen)
    (next : InputStatus → Work (WorkOutcome × γ)) :
    (∃ e, watch note i (Work.withReader 0 t b next) x seen = (((.failed e, b), x), seen)) ∨
      ∃ s schema, Graph.inputStream? x.graph.connections ⟨i, 0⟩ = some s ∧
        watch note i (Work.withReader 0 t b next) x seen =
          watch note i (next ⟨schema, true, s.available, s.closed, s.exhausted⟩) x seen := by
  rw [Work.withReader, watch_query rfl (hnote seen)]
  simp only [answerWork]
  cases x.port i Node.inputs 0 with
  | error e => exact .inl ⟨_, rfl⟩
  | ok schema =>
    simp only [Except.map, Graph.inputStatus]
    cases hs : Graph.inputStream? x.graph.connections ⟨i, 0⟩ with
    | none => exact .inl ⟨_, rfl⟩
    | some s =>
      by_cases htype : schema.type = t
      · exact .inr ⟨s, schema, rfl, by simp [Work.readerError?, htype]⟩
      · exact .inl ⟨_, by simp only [Work.readerError?, htype]; rfl⟩

/-- A writer is refused, which ends the call, or there is an output to write to. -/
theorem watch_withWriter_cases (hnote : ∀ seen reply, note seen ⟨.output 0, reply⟩ = seen)
    (next : OutputStatus → Work (WorkOutcome × γ)) :
    (∃ e, watch note i (Work.withWriter 0 t b next) x seen = (((.failed e, b), x), seen)) ∨
      ∃ schema, watch note i (Work.withWriter 0 t b next) x seen =
        watch note i (next (Graph.outputStatus x.graph.connections ⟨i, 0⟩ schema)) x seen := by
  rw [Work.withWriter, watch_query rfl (hnote seen)]
  simp only [answerWork]
  cases x.port i Node.outputs 0 with
  | error e => exact .inl ⟨_, rfl⟩
  | ok schema =>
    simp only [Except.map]
    cases Work.writerError? (Graph.outputStatus x.graph.connections ⟨i, 0⟩ schema) t with
    | none => exact .inr ⟨schema, rfl⟩
    | some e => exact .inl ⟨_, rfl⟩

/-- What a block publishes is refused, which ends the call, or every live stream at the output
receives it. -/
theorem watch_publishing_cases (samples : List Sample) (tags : List Tag)
    (next : Work (WorkOutcome × γ)) :
    (∃ e y seen', watch note i (Work.publishing 0 samples tags b next) x seen =
        (((.failed e, b), y), seen')) ∨
      ((∀ s ∈ Graph.outputStreams x.graph.connections ⟨i, 0⟩, s.detached = false →
          s.push samples tags = .ok (s.receive ⟨samples, tags⟩)) ∧
        ∃ log, watch note i (Work.publishing 0 samples tags b next) x seen =
          watch note i next ((x.setConnections (x.graph.connections.map fun c =>
            if c.source = ⟨i, 0⟩ then { c with stream := c.stream.map (.receive ⟨samples, tags⟩) }
            else c)).addLog log) (note seen ⟨.publish 0 samples tags, .ok ()⟩)) := by
  rcases FanOut.publish_exact (Graph.outputStreams x.graph.connections ⟨i, 0⟩) samples tags with
    ⟨e, -, hpublish⟩ | ⟨hpublish, hpush⟩
  · have hanswer : ∃ y, answerWork i (.publish 0 samples tags) x = (.error e, y) := by
      simp only [answerWork, hpublish]
      exact ⟨_, rfl⟩
    obtain ⟨y, hanswer⟩ := hanswer
    exact .inl ⟨_, y, _, watch_ask hanswer⟩
  · have hanswer : answerWork i (.publish 0 samples tags) x =
        (.ok (), (x.setConnections (x.graph.connections.map fun c =>
          if c.source = ⟨i, 0⟩ then { c with stream := c.stream.map (.receive ⟨samples, tags⟩) }
          else c)).addLog (FanOut.publishLog
            (Graph.outputStreams x.graph.connections ⟨i, 0⟩) samples tags)) := by
      simp only [answerWork, hpublish, Graph.setOutputs_map]
    exact .inr ⟨hpush, _, watch_ask hanswer⟩

end Steps

end Execution
end Dataflow
