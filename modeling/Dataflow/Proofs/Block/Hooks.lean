import Dataflow.Proofs.Block.Form

/-!
# Hooks of built-in blocks

Whatever a block is told by those that answer its operations, it ends a hook in the form that it
had before (`Builtin.ends_work`, `Builtin.ends_start`).
-/

namespace Dataflow

namespace Program

variable {Op : Type} {Reply : Op → Type} {ρ τ σ : Type} {P : ρ → Prop}

/-- Whatever the replies are, a program ends with a result that has a property. -/
def Ends (P : ρ → Prop) : Program Op Reply ρ → Prop
  | done result => P result
  | ask _ next => ∀ reply, (next reply).Ends P

theorem Ends.run {p : Program Op Reply ρ} (h : p.Ends P)
    (answer : (op : Op) → σ → Reply op × σ) (s : σ) : P (p.run answer s).1 := by
  induction p generalizing s with
  | done result => exact h
  | ask op next ih => exact ih _ (h _) _

theorem Ends.mono {Q : ρ → Prop} {p : Program Op Reply ρ} (h : p.Ends P) (hPQ : ∀ r, P r → Q r) :
    p.Ends Q := by
  induction p with
  | done result => exact hPQ result h
  | ask op next ih => exact fun reply => ih reply (h reply)

theorem ends_of_forall (h : ∀ r, P r) (p : Program Op Reply ρ) : p.Ends P := by
  induction p with
  | done result => exact h result
  | ask op next ih => exact ih

theorem ends_bind {f : τ → Program Op Reply ρ} (h : ∀ r, (f r).Ends P)
    (p : Program Op Reply τ) : (p.bind f).Ends P := by
  induction p with
  | done result => exact h result
  | ask op next ih => exact ih

theorem ends_map {f : τ → ρ} {p : Program Op Reply τ} :
    (p.map f).Ends P ↔ p.Ends fun result => P (f result) := by
  induction p with
  | done result => exact Iff.rfl
  | ask op next ih => exact forall_congr' fun reply => ih reply

end Program

namespace Work

variable {β : Type} {P : β → Prop} {b : β} {port : Nat} {t : SampleType}

/-- Whatever the replies are, a work call leaves a block that has a property. -/
def Leaves (P : β → Prop) (w : Work (WorkOutcome × β)) : Prop := w.Ends fun result => P result.2

theorem leaves_withReader {next : InputStatus → Work (WorkOutcome × β)} (hb : P b)
    (h : ∀ s, (next s).Leaves P) : (withReader port t b next).Leaves P := by
  intro reply
  cases reply with
  | error e => exact hb
  | ok s =>
    dsimp only
    split
    · exact hb
    · exact h s

theorem leaves_withWriter {next : OutputStatus → Work (WorkOutcome × β)} (hb : P b)
    (h : ∀ s, (next s).Leaves P) : (withWriter port t b next).Leaves P := by
  intro reply
  cases reply with
  | error e => exact hb
  | ok s =>
    dsimp only
    split
    · exact hb
    · exact h s

theorem leaves_taking {limit : Nat} {next : Chunk Sample → Work (WorkOutcome × β)}
    (h : ∀ chunk, (next chunk).Leaves P) : (taking port limit next).Leaves P := h

theorem leaves_consuming {n : Nat} {next : List Tag → Work (WorkOutcome × β)} (hb : P b)
    (h : ∀ tags, (next tags).Leaves P) : (consuming port n b next).Leaves P := by
  intro reply
  cases reply with
  | error e => exact hb
  | ok tags => exact h tags

theorem leaves_publishing {samples : List Sample} {tags : List Tag}
    {next : Work (WorkOutcome × β)} (hb : P b) (h : next.Leaves P) :
    (publishing port samples tags b next).Leaves P := by
  intro reply
  cases reply with
  | error e => exact hb
  | ok => exact h

theorem leaves_passing {keep : List Tag → List Tag} (hb : P b) :
    (passing t keep b).Leaves P := by
  refine leaves_withReader hb fun input => leaves_withWriter hb fun output => ?_
  split
  · exact hb
  split
  · exact hb
  · exact leaves_taking fun chunk => leaves_publishing hb hb

theorem leaves_map {γ : Type} {f : γ → β} {w : Work (WorkOutcome × γ)}
    (h : w.Leaves fun b => P (f b)) : Leaves P (w.map (·.map id f)) :=
  Program.ends_map.mpr h

end Work

open Work

theorem NullSource.leaves_work (b : NullSource) : b.work.Leaves fun b' =>
    (Builtin.nullSource b').form = (Builtin.nullSource b).form := by
  refine leaves_withWriter rfl fun output => ?_
  dsimp only
  split
  · exact rfl
  · exact leaves_publishing rfl rfl

theorem NullSink.leaves_work (b : NullSink) : b.work.Leaves fun b' =>
    (Builtin.nullSink b').form = (Builtin.nullSink b).form := by
  refine leaves_withReader rfl fun input => ?_
  split
  · exact rfl
  · exact leaves_consuming rfl fun _ => rfl

theorem VectorSource.leaves_work (b : VectorSource) : b.work.Leaves fun b' =>
    (Builtin.vectorSource b').form = (Builtin.vectorSource b).form := by
  rw [VectorSource.work]
  split
  · exact rfl
  refine leaves_withWriter rfl fun output => ?_
  dsimp only
  split
  · exact rfl
  refine leaves_publishing rfl ?_
  -- how many samples the block takes from its round does not matter
  generalize (if b.repeating then output.taggedSpace.clip maxSourceChunk else
    min (output.taggedSpace.clip maxSourceChunk) (b.round.size - b.position)) = n
  split <;> exact rfl

theorem VectorSink.leaves_work (b : VectorSink) : b.work.Leaves fun b' =>
    (Builtin.vectorSink b').form = (Builtin.vectorSink b).form := by
  refine leaves_withReader rfl fun input => leaves_taking fun chunk => ?_
  split <;> exact rfl

theorem Head.leaves_work (b : Head) : b.work.Leaves fun b' =>
    (Builtin.head b').form = (Builtin.head b).form := by
  rw [Head.work]
  dsimp only
  split
  · exact rfl
  refine leaves_withReader rfl fun input => leaves_withWriter rfl fun output => ?_
  split
  · exact rfl
  split
  · exact rfl
  refine leaves_taking fun chunk => leaves_publishing rfl ?_
  split <;> exact rfl

theorem Copy.leaves_work (b : Copy) : b.work.Leaves fun b' =>
    (Builtin.copy b').form = (Builtin.copy b).form :=
  leaves_passing rfl

theorem TagGate.leaves_work (b : TagGate) : b.work.Leaves fun b' =>
    (Builtin.tagGate b').form = (Builtin.tagGate b).form :=
  leaves_passing rfl

namespace Builtin

/-- A work call changes nothing but what the block has done. -/
theorem leaves_work (b : Builtin) : (Block.work b).Leaves fun b' => b'.form = b.form := by
  cases b with
  | nullSource b => exact leaves_map b.leaves_work
  | nullSink b => exact leaves_map b.leaves_work
  | vectorSource b => exact leaves_map b.leaves_work
  | vectorSink b => exact leaves_map b.leaves_work
  | head b => exact leaves_map b.leaves_work
  | copy b => exact leaves_map b.leaves_work
  | tagGate b => exact leaves_map b.leaves_work

theorem ends_start (b : Builtin) : (Block.start b).Ends fun result => result.2.form = b.form := by
  cases b with
  | vectorSource b =>
    refine Program.ends_map.mpr ?_
    show (vectorSource b.start.2).form = _
    rw [VectorSource.start]
    split <;> rfl
  | _ => exact rfl

end Builtin
end Dataflow
