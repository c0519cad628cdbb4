/-!
# Programs over operations

A block does not touch the graph it is part of: its hooks are programs that ask for operations
and go on with the replies. Whoever runs a program answers the operations one by one
(`Program.run`). What holds of every answer therefore holds of every program, whatever block it
belongs to (`Program.run_invariant`).
-/

namespace Dataflow

/-- A computation that asks for operations; the type of a reply depends on the operation. -/
inductive Program (Op : Type) (Reply : Op → Type) (ρ : Type) where
  | done (result : ρ)
  | ask (op : Op) (next : Reply op → Program Op Reply ρ)

namespace Program

variable {Op : Type} {Reply : Op → Type} {ρ τ σ : Type}

/-- Go on with the result of a program. -/
def bind (p : Program Op Reply ρ) (f : ρ → Program Op Reply τ) : Program Op Reply τ :=
  match p with
  | done result => f result
  | ask op next => ask op fun reply => (next reply).bind f

instance : Monad (Program Op Reply) where
  pure := done
  bind := bind

/-- Change the result of a program. -/
def map (f : ρ → τ) (p : Program Op Reply ρ) : Program Op Reply τ :=
  match p with
  | done result => done (f result)
  | ask op next => ask op fun reply => (next reply).map f

/-- Ask for one operation. -/
def perform (op : Op) : Program Op Reply (Reply op) := ask op done

/-- Run a program in a state, answering each operation. -/
def run (answer : (op : Op) → σ → Reply op × σ) : Program Op Reply ρ → σ → ρ × σ
  | done result, s => (result, s)
  | ask op next, s => (next (answer op s).1).run answer (answer op s).2

/-- A property of the state that every answer keeps is kept by every program. -/
theorem run_invariant {answer : (op : Op) → σ → Reply op × σ} {I : σ → Prop}
    (keep : ∀ op s, I s → I (answer op s).2) (p : Program Op Reply ρ) (s : σ) (h : I s) :
    I (p.run answer s).2 := by
  induction p generalizing s with
  | done result => exact h
  | ask op next ih => exact ih _ _ (keep op s h)

theorem run_map (answer : (op : Op) → σ → Reply op × σ) (f : ρ → τ) (p : Program Op Reply ρ)
    (s : σ) : (p.map f).run answer s = (f (p.run answer s).1, (p.run answer s).2) := by
  induction p generalizing s with
  | done result => rfl
  | ask op next ih => exact ih _ _

end Program

end Dataflow
