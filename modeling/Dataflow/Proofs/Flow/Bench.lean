import Dataflow.Proofs.Flow.Handover
import Dataflow.Proofs.Flow.Watch
import Dataflow.Proofs.Stream.Answers

/-!
# Blocks on a bench

A block on a bench is called to work again and again, while others use the streams around it
(`Bench.run`): they write to those that its output does not feed, and read those that its input does
not end, or detach from them. The bench keeps the history of each stream, by the input at which it
ends. For the streams at the block, these are the histories of the streams that the block finds
(`Bench.Tied`), whatever it asks for.
-/

namespace Dataflow

namespace Stream

variable {α : Type}

/-- Whether an operation is one of the writer. -/
def Op.isWriting : Op α → Bool
  | .push _ _ | .close => true
  | .peek _ | .take _ | .consume _ | .detach => false

/-- The tags of a push, indexed from the start of the stream. -/
def Push.placedTags (w : Push α) : List Tag := w.tags.map (·.shift w.written)

/-- All tags of the successful pushes, whether or not the stream has kept them. -/
def History.published (h : History α) : List Tag := h.pushes.flatMap Push.placedTags

namespace History

variable {h : History α} {op : Op α}

theorem pushes_step (hop : op.isWriting = false) : (h.step op).pushes = h.pushes := by
  cases op with
  | consume n =>
    simp only [step]
    split <;> rfl
  | push | close => cases hop
  | _ => rfl

theorem readings_step (hop : op.isWriting = true) : (h.step op).readings = h.readings := by
  cases op with
  | push samples tags =>
    simp only [step]
    split <;> rfl
  | close => rfl
  | _ => cases hop

/-- No operation brings a reader back. -/
theorem detached_step (hop : (h.step op).stream.detached = false) : h.stream.detached = false := by
  cases op with
  | push samples tags =>
    simp only [step] at hop
    split at hop
    · exact hop
    next hpush =>
      obtain ⟨-, -, rfl⟩ := push_eq_ok_iff.mp hpush
      exact hop
  | consume n =>
    simp only [step, consume] at hop
    split at hop
    · exact hop
    next hconsume =>
      split at hconsume
      · cases hconsume
      · cases hconsume
        exact hop
  | detach => cases hop
  | _ => exact hop

end History
end Stream

/-- Whether an output feeds an input. -/
def Graph.linked (connections : List Connection) (source target : Endpoint) : Bool :=
  connections.any fun c => c.source = source ∧ c.target = target

/-- Where no two connections end, the stream that ends at an input is that of its connection. -/
theorem Graph.inputStream?_eq {connections : List Connection}
    (htargets : connections.Pairwise fun c d => c.target ≠ d.target) {c : Connection}
    (hc : c ∈ connections) {s : Stream Sample} (hs : c.stream = some s) :
    inputStream? connections c.target = some s := by
  cases h : inputStream? connections c.target with
  | none =>
    have hnone := List.findSome?_eq_none_iff.mp h c hc
    rw [if_pos rfl, hs] at hnone
    cases hnone
  | some s' =>
    obtain ⟨d, hd, htarget, hstream⟩ := exists_of_inputStream? h
    rw [List.inj_on_of_nodup_map (List.pairwise_map.mpr htargets) hd hc htarget, hs] at hstream
    exact hstream.symm

theorem Graph.linked_modifyInput (connections : List Connection) (e : Endpoint)
    (f : Stream Sample → Stream Sample) :
    Graph.linked (Graph.modifyInput e f connections) = Graph.linked connections := by
  funext source target
  rw [linked, modifyInput, List.any_map]
  refine congrArg (connections.any ·) (funext fun c => ?_)
  rw [Function.comp_apply]
  split <;> rfl

theorem Graph.exists_of_mem_modifyInput {connections : List Connection} {e : Endpoint}
    {f : Stream Sample → Stream Sample} {d : Connection}
    (hd : d ∈ Graph.modifyInput e f connections) :
    ∃ c ∈ connections, c.source = d.source ∧ c.target = d.target := by
  obtain ⟨c, hc, rfl⟩ := List.mem_map.mp hd
  exact ⟨c, hc, by split <;> exact ⟨rfl, rfl⟩⟩

/-- The histories of streams, by the inputs at which they end. -/
abbrev Histories := Endpoint → Stream.History Sample

namespace Histories

/-- The histories once an operation is performed on the stream at an input. -/
def perform (hs : Histories) (target : Endpoint) (op : Stream.Op Sample) : Histories :=
  Function.update hs target ((hs target).step op)

theorem perform_self (hs : Histories) (target : Endpoint) (op : Stream.Op Sample) :
    hs.perform target op target = (hs target).step op := Function.update_self ..

theorem perform_of_ne (hs : Histories) {target e : Endpoint} (h : e ≠ target)
    (op : Stream.Op Sample) : hs.perform target op e = hs e := Function.update_of_ne h ..

section Perform

variable {hs : Histories} {target e : Endpoint} {op : Stream.Op Sample}

theorem pushes_perform (hop : op.isWriting = false) :
    (hs.perform target op e).pushes = (hs e).pushes := by
  by_cases h : e = target
  · rw [h, perform_self, Stream.History.pushes_step hop]
  · rw [perform_of_ne hs h]

theorem readings_perform (hop : op.isWriting = true) :
    (hs.perform target op e).readings = (hs e).readings := by
  by_cases h : e = target
  · rw [h, perform_self, Stream.History.readings_step hop]
  · rw [perform_of_ne hs h]

theorem detached_perform (hlive : (hs.perform target op e).stream.detached = false) :
    (hs e).stream.detached = false := by
  by_cases h : e = target
  · rw [h, perform_self] at hlive
    exact h ▸ Stream.History.detached_step hlive
  · rwa [perform_of_ne hs h] at hlive

end Perform

/-- The histories once a chunk is pushed to every live stream at an output. -/
def publish (hs : Histories) (connections : List Connection) (source : Endpoint)
    (chunk : Chunk Sample) : Histories := fun target =>
  if Graph.linked connections source target && !(hs target).stream.detached then
    (hs target).step (.push chunk.samples chunk.tags)
  else hs target

theorem publish_modifyInput (hs : Histories) (connections : List Connection) (e source : Endpoint)
    (f : Stream Sample → Stream Sample) (chunk : Chunk Sample) :
    hs.publish (Graph.modifyInput e f connections) source chunk =
      hs.publish connections source chunk := by
  unfold publish
  rw [Graph.linked_modifyInput]

theorem readings_publish (hs : Histories) (connections : List Connection) (source e : Endpoint)
    (chunk : Chunk Sample) :
    (hs.publish connections source chunk e).readings = (hs e).readings := by
  unfold publish
  split
  · exact Stream.History.readings_step rfl
  · rfl

/-- The histories once block `i` has got a reply to an operation. -/
def note (connections : List Connection) (i : Nat) (hs : Histories) : Exchange → Histories
  | ⟨.peek port limit, _⟩ => hs.perform ⟨i, port⟩ (.peek limit)
  | ⟨.take port limit, _⟩ => hs.perform ⟨i, port⟩ (.take limit)
  | ⟨.consume port n, _⟩ => hs.perform ⟨i, port⟩ (.consume n)
  | ⟨.publish port samples tags, .ok ()⟩ => hs.publish connections ⟨i, port⟩ ⟨samples, tags⟩
  | ⟨.publish _ _ _, .error _⟩ => hs
  | _ => hs

end Histories

/-- A work call: how it ended, and the block after it. -/
structure WorkCall where
  outcome : WorkOutcome
  block : Builtin

/-- An execution, the histories of its streams, and the work calls that were made on a block. -/
structure Bench where
  exec : Execution Builtin
  histories : Histories
  calls : List WorkCall

namespace Bench

/-- What happens on a bench. -/
inductive Event where
  | call
  /-- Someone performs an operation on the stream that ends at an input. -/
  | elsewhere (target : Endpoint) (op : Stream.Op Sample)

/-- An execution whose streams are new. -/
def new (x : Execution Builtin) : Bench where
  exec := x
  histories target := .new ((Graph.inputStream? x.graph.connections target).elim 0 Stream.capacity)
  calls := []

/-- Whether block `i`, the one on the bench, is the only one to perform an operation on the stream
at an input. -/
def isReserved (b : Bench) (i : Nat) (target : Endpoint) (op : Stream.Op Sample) : Bool :=
  if op.isWriting then Graph.linked b.exec.graph.connections ⟨i, 0⟩ target
  else target = ⟨i, 0⟩

/-- What becomes of a bench with block `i` on it. -/
def step (i : Nat) (b : Bench) : Event → Bench
  | .call =>
    match b.exec.graph.node? i with
    | none => b
    | some n =>
      let ((result, _), histories) := Execution.watch
        (Histories.note b.exec.graph.connections i) i (Block.work n.block) b.exec b.histories
      ⟨(b.exec.work i n).2, histories, b.calls ++ [⟨result.1, result.2⟩]⟩
  | .elsewhere target op =>
    if b.isReserved i target op then b
    else
      { b with
        exec := b.exec.setConnections (Graph.modifyInput target (fun s => (s.perform op).2)
          b.exec.graph.connections)
        histories := b.histories.perform target op }

def run (i : Nat) (b : Bench) (events : List Event) : Bench := events.foldl (step i) b

theorem run_concat (i : Nat) (b : Bench) (events : List Event) (event : Event) :
    b.run i (events ++ [event]) = (b.run i events).step i event := List.foldl_concat ..

/-- The calls made are those that were made before, and those of the step. -/
theorem calls_step (i : Nat) (b : Bench) (event : Event) :
    ∃ calls, (b.step i event).calls = b.calls ++ calls := by
  cases event with
  | call =>
    rw [step]
    split
    · exact ⟨[], (List.append_nil _).symm⟩
    · exact ⟨_, rfl⟩
  | elsewhere target op =>
    rw [step]
    split <;> exact ⟨[], (List.append_nil _).symm⟩

/-- A call runs the block as it would run anywhere. -/
theorem step_call {i : Nat} {b : Bench} {n : Node Builtin} (hn : b.exec.graph.node? i = some n) :
    let watched := Execution.watch (Histories.note b.exec.graph.connections i) i
      (Block.work n.block) b.exec b.histories
    (b.step i .call).exec.graph.connections = watched.1.2.graph.connections ∧
      (∃ m, (b.step i .call).exec.graph.node? i = some m ∧ m.block = watched.1.1.2) ∧
      (b.step i .call).histories = watched.2 ∧
      (b.step i .call).calls = b.calls ++ [⟨watched.1.1.1, watched.1.1.2⟩] := by
  intro watched
  obtain ⟨-, hconnections, hafter⟩ := Execution.work_eq_watch hn
    (Histories.note b.exec.graph.connections i) b.histories
  simp only [step, hn]
  exact ⟨hconnections, hafter, rfl, rfl⟩

/-! ### Streams at the block -/

/-- The histories are those of the streams at block `i`. -/
structure Tied (i : Nat) (connections : List Connection) (hs : Histories) : Prop where
  targets : connections.Pairwise fun c d => c.target ≠ d.target
  streams : ∀ c ∈ connections, c.source = ⟨i, 0⟩ ∨ c.target = ⟨i, 0⟩ →
    c.stream = some (hs c.target).stream
  faithful : ∀ target, ∃ capacity, (hs target).Faithful capacity

namespace Tied

variable {i : Nat} {connections : List Connection} {hs hs' : Histories}

theorem eq_of_target (h : Tied i connections hs) {c d : Connection} (hc : c ∈ connections)
    (hd : d ∈ connections) (heq : c.target = d.target) : c = d :=
  List.inj_on_of_nodup_map (List.pairwise_map.mpr h.targets) hc hd heq

theorem linked_iff (h : Tied i connections hs) {c : Connection} (hc : c ∈ connections)
    (source : Endpoint) : Graph.linked connections source c.target = true ↔ c.source = source := by
  simp only [Graph.linked, List.any_eq_true, decide_eq_true_eq]
  constructor
  · rintro ⟨d, hd, hsource, htarget⟩
    rw [← h.eq_of_target hd hc htarget, hsource]
  · exact fun hsource => ⟨c, hc, hsource, rfl⟩

/-- The stream at the input has the history that is kept for it. -/
theorem stream_eq (h : Tied i connections hs) {s : Stream Sample}
    (hs' : Graph.inputStream? connections ⟨i, 0⟩ = some s) : (hs ⟨i, 0⟩).stream = s := by
  obtain ⟨c, hc, htarget, hstream⟩ := Graph.exists_of_inputStream? hs'
  have htied := h.streams c hc (.inr htarget)
  rw [hstream, htarget] at htied
  exact (Option.some.inj htied).symm

/-- Streams and histories change alike. -/
theorem map (h : Tied i connections hs) {f : Connection → Connection}
    (hwire : ∀ c, (f c).source = c.source ∧ (f c).target = c.target)
    (hstream : ∀ c ∈ connections, c.source = ⟨i, 0⟩ ∨ c.target = ⟨i, 0⟩ →
      c.stream = some (hs c.target).stream → (f c).stream = some (hs' c.target).stream)
    (hstep : ∀ target, hs' target = hs target ∨ ∃ op, hs' target = (hs target).step op) :
    Tied i (connections.map f) hs' := by
  refine ⟨?_, fun c hc hat => ?_, fun target => ?_⟩
  · exact List.pairwise_map.mpr (h.targets.imp fun hne => by rwa [(hwire _).2, (hwire _).2])
  · obtain ⟨d, hd, rfl⟩ := List.mem_map.mp hc
    rw [(hwire d).1, (hwire d).2] at hat
    rw [(hwire d).2]
    exact hstream d hd hat (h.streams d hd hat)
  · obtain ⟨capacity, hf⟩ := h.faithful target
    rcases hstep target with heq | ⟨op, heq⟩ <;> rw [heq]
    · exact ⟨capacity, hf⟩
    · exact ⟨capacity, hf.step op⟩

theorem perform (h : Tied i connections hs) (target : Endpoint) (op : Stream.Op Sample) :
    Tied i (Graph.modifyInput target (fun s => (s.perform op).2) connections)
      (hs.perform target op) := by
  refine h.map (fun c => by split <;> exact ⟨rfl, rfl⟩) (fun c hc _ hstream => ?_) fun e => ?_
  · by_cases htarget : c.target = target
    · subst htarget
      rw [if_pos rfl, hs.perform_self, Stream.History.stream_step_eq, hstream]
      rfl
    · rw [if_neg htarget, hs.perform_of_ne htarget, hstream]
  · by_cases htarget : e = target
    · subst htarget
      exact .inr ⟨op, hs.perform_self e op⟩
    · exact .inl (hs.perform_of_ne htarget op)

/-- Reading the stream at the input is performing it there. -/
theorem modifyInput_eq (h : Tied i connections hs) {s : Stream Sample}
    (hs' : Graph.inputStream? connections ⟨i, 0⟩ = some s) (f : Stream Sample → Stream Sample) :
    Graph.modifyInput ⟨i, 0⟩ (fun _ => f s) connections =
      Graph.modifyInput ⟨i, 0⟩ f connections := by
  refine List.map_congr_left fun c hc => ?_
  by_cases htarget : c.target = ⟨i, 0⟩
  · rw [if_pos htarget, if_pos htarget, h.streams c hc (.inr htarget), htarget, h.stream_eq hs']
    rfl
  · rw [if_neg htarget, if_neg htarget]

theorem publish_apply (h : Tied i connections hs) {c : Connection} (hc : c ∈ connections)
    (chunk : Chunk Sample) : hs.publish connections ⟨i, 0⟩ chunk c.target =
      if c.source = ⟨i, 0⟩ ∧ (hs c.target).stream.detached = false then
        (hs c.target).step (.push chunk.samples chunk.tags)
      else hs c.target := by
  simp only [Histories.publish, Bool.and_eq_true, h.linked_iff hc, Bool.not_eq_true']

theorem publish (h : Tied i connections hs) {chunk : Chunk Sample}
    (hpush : ∀ s ∈ Graph.outputStreams connections ⟨i, 0⟩, s.detached = false →
      s.push chunk.samples chunk.tags = .ok (s.receive chunk)) :
    Tied i (connections.map fun c =>
        if c.source = ⟨i, 0⟩ then { c with stream := c.stream.map (.receive chunk) } else c)
      (hs.publish connections ⟨i, 0⟩ chunk) := by
  refine h.map (fun c => by split <;> exact ⟨rfl, rfl⟩) (fun c hc _ hstream => ?_) fun e => ?_
  · rw [h.publish_apply hc]
    by_cases hsource : c.source = ⟨i, 0⟩
    · rw [if_pos hsource, hstream, Option.map_some]
      by_cases hlive : (hs c.target).stream.detached = false
      · have haccept := hpush _ (Graph.mem_outputStreams.mpr ⟨c, hc, hsource, hstream⟩) hlive
        simp only [hsource, hlive, and_self, if_true, Stream.History.step, haccept]
      · rw [if_neg fun h => hlive h.2, Stream.receive, if_pos (Bool.not_eq_false _ ▸ hlive)]
    · rw [if_neg hsource, if_neg fun hlive => hsource hlive.1, hstream]
  · rw [Histories.publish]
    split
    · exact .inr ⟨_, rfl⟩
    · exact .inl rfl

end Tied

end Bench
end Dataflow
