import Dataflow.Scheduler.Run

/-!
# The past of an execution

Executions only ever add to their trace, their journal and their log, and nothing that they do
depends on what is there already. So an execution that has a `Past` goes on just as it would
without one: all that is done to executions commutes with `Execution.withPast`.
-/

namespace Dataflow

open Lifecycle (State)

/-- What earlier runs have left to look back upon. -/
structure Past where
  trace : Array TraceEntry
  journal : Array JournalEntry
  log : Array LogLine
  entered : Array State
  replies : Array Message

/-- A function on states that all answers commute with commutes with every program. -/
theorem Program.run_commute {Op : Type} {Reply : Op → Type} {ρ σ : Type}
    {answer : (op : Op) → σ → Reply op × σ} {f : σ → σ}
    (h : ∀ op s, answer op (f s) = (answer op s).map id f) (p : Program Op Reply ρ) (s : σ) :
    p.run answer (f s) = (p.run answer s).map id f := by
  induction p generalizing s with
  | done result => rfl
  | ask op next ih =>
    rw [run, run, h]
    exact ih _ _

namespace Execution

variable {β : Type} (p : Past) (x : Execution β)

/-- The execution after a past. -/
def withPast : Execution β :=
  { x with
    trace := p.trace ++ x.trace
    journal := p.journal ++ x.journal
    log := p.log ++ x.log }

@[simp] theorem graph_withPast : (x.withPast p).graph = x.graph := rfl

@[simp] theorem addLog_withPast (lines : List LogLine) :
    (x.withPast p).addLog lines = (x.addLog lines).withPast p := by
  have h : p.log ++ x.log ++ lines = p.log ++ (x.log ++ lines) :=
    Array.toList_inj.mp (by simp)
  simp only [addLog, withPast, h]

@[simp] theorem addLine_withPast (level : LogLevel) (text : String) :
    (x.withPast p).addLine level text = (x.addLine level text).withPast p := by
  simp only [addLine, withPast, Array.append_push]

@[simp] theorem record_withPast (block : Nat) (call : Call) :
    (x.withPast p).record block call = (x.record block call).withPast p := by
  simp only [record, withPast, Array.append_push]

@[simp] theorem modifyNode_withPast (block : Nat) (f : Node β → Node β) :
    (x.withPast p).modifyNode block f = (x.modifyNode block f).withPast p := rfl

@[simp] theorem setState_withPast (block : Nat) (state : State) :
    (x.withPast p).setState block state = (x.setState block state).withPast p := rfl

@[simp] theorem setConnections_withPast (connections : List Connection) :
    (x.withPast p).setConnections connections = (x.setConnections connections).withPast p := rfl

@[simp] theorem setInput_withPast (target : Endpoint) (s : Stream Sample) :
    (x.withPast p).setInput target s = (x.setInput target s).withPast p := rfl

/-! ### Programs -/

theorem answerHook_withPast (op : HookOp) :
    answerHook op (x.withPast p) = (answerHook op x).map id (withPast p) := by
  cases op with
  | send inbox m =>
    have hid : (x.withPast p).inboxId = x.inboxId := rfl
    simp only [answerHook, hid]
    split <;> rfl
  | note entry => simp only [answerHook, withPast, Array.append_push, Prod.map, id]

theorem runHook_withPast {ρ : Type} (program : HookProgram ρ) :
    (x.withPast p).runHook program = (x.runHook program).map id (withPast p) :=
  Program.run_commute (fun op x => answerHook_withPast p x op) program x

@[simp] theorem callHook_withPast (block : Nat) (b : β) (hook : β → HookProgram β) (call : Call) :
    (x.withPast p).callHook block b hook call = (x.callHook block b hook call).withPast p := by
  simp only [callHook, runHook_withPast, Prod.map, id, modifyNode_withPast, record_withPast]

theorem answerWork_withPast (block : Nat) (op : WorkOp) :
    answerWork block op (x.withPast p) = (answerWork block op x).map id (withPast p) := by
  cases op with
  | hook op => exact answerHook_withPast p x op
  | input i => rfl
  | output i => rfl
  | peek i limit | take i limit =>
    simp only [answerWork, graph_withPast]
    cases Graph.inputStream? x.graph.connections ⟨block, i⟩ with
    | none => rfl
    | some s => simp only [setInput_withPast, addLog_withPast, Prod.map, id]
  | consume i n =>
    simp only [answerWork, graph_withPast]
    cases Graph.inputStream? x.graph.connections ⟨block, i⟩ with
    | none => rfl
    | some s =>
      cases hconsume : s.consume n with
      | error e => simp only [hconsume, Prod.map, id]
      | ok result => simp only [hconsume, setInput_withPast, addLog_withPast, Prod.map, id]
  | publish i samples tags =>
    simp only [answerWork, graph_withPast, setConnections_withPast, addLog_withPast, Prod.map, id]

theorem runWork_withPast {ρ : Type} (block : Nat) (program : Work ρ) :
    (x.withPast p).runWork block program = (x.runWork block program).map id (withPast p) :=
  Program.run_commute (fun op x => answerWork_withPast p x block op) program x

/-! ### Calls on blocks -/

variable [Block β]

theorem start_withPast (block : Nat) :
    (x.withPast p).start block = (x.start block).map id (withPast p) := by
  simp only [start, graph_withPast]
  cases x.graph.node? block with
  | none => rfl
  | some n => simp only [runHook_withPast, modifyNode_withPast, record_withPast, Prod.map, id]

@[simp] theorem finish_withPast (block : Nat) (reason : FinishReason) :
    (x.withPast p).finish block reason = (x.finish block reason).withPast p := by
  simp only [finish, graph_withPast]
  cases x.graph.node? block with
  | none => rfl
  | some n =>
    dsimp only
    split
    · rfl
    · simp only [setConnections_withPast, callHook_withPast, setState_withPast, addLine_withPast]

@[simp] theorem pause_withPast (block : Nat) :
    (x.withPast p).pause block = (x.pause block).withPast p := by
  simp only [pause, graph_withPast]
  cases x.graph.node? block with
  | none => rfl
  | some n =>
    dsimp only
    split
    · simp only [callHook_withPast, setState_withPast]
    · rfl

@[simp] theorem resume_withPast (block : Nat) :
    (x.withPast p).resume block = (x.resume block).withPast p := by
  simp only [resume, graph_withPast]
  cases x.graph.node? block with
  | none => rfl
  | some n =>
    dsimp only
    split
    · simp only [callHook_withPast, setState_withPast]
    · rfl

theorem work_withPast (block : Nat) (n : Node β) :
    (x.withPast p).work block n = (x.work block n).map id (withPast p) := by
  simp only [work, runWork_withPast, modifyNode_withPast, record_withPast, Prod.map, id]

theorem invoke_withPast (block : Nat) :
    (x.withPast p).invoke block = (x.invoke block).map id (withPast p) := by
  simp only [invoke, graph_withPast]
  cases x.graph.node? block with
  | none => rfl
  | some n =>
    have hdeserted : (x.withPast p).isDeserted block n = x.isDeserted block n := rfl
    dsimp only
    rw [hdeserted, work_withPast]
    by_cases hrun : n.state ≠ .running
    · simp only [if_pos hrun]
      rfl
    by_cases hlost : x.isDeserted block n
    · simp only [if_neg hrun, if_pos hlost, finished, finish_withPast, Prod.map, id]
    simp only [if_neg hrun, if_neg hlost]
    rcases x.work block n with ⟨outcome, y⟩
    have hstarved : (y.withPast p).isStarved block n = y.isStarved block n := rfl
    cases outcome with
    | status st =>
      cases st with
      | insufficientInput =>
        simp only [Prod.map, id, hstarved]
        split
        · simp only [finished, finish_withPast]
        · rfl
      | _ => simp only [Prod.map, id, finished, finish_withPast]
    | failed e => simp only [Prod.map, id, finish_withPast, setState_withPast]
    | crashed => rfl

/-! ### Groups of blocks -/

theorem runPass_withPast (group : List Nat) :
    (x.withPast p).runPass group = (x.runPass group).map id (withPast p) := by
  induction group generalizing x with
  | nil => rfl
  | cons i rest ih =>
    have hfinished : (x.withPast p).isFinished i = x.isFinished i := rfl
    rw [runPass, runPass, hfinished, invoke_withPast]
    by_cases h : x.isFinished i
    · simp only [if_pos h, ih]
    simp only [if_neg h]
    rcases x.invoke i with ⟨invocation, y⟩
    cases invocation with
    | failed e =>
      have hname : (y.withPast p).nameOf i = y.nameOf i := rfl
      simp only [Prod.map, id, hname, addLine_withPast]
    | crashed => rfl
    | _ => simp only [Prod.map, id, ih]

omit [Block β] in
theorem foldl_withPast {f : Execution β → Nat → Execution β}
    (hf : ∀ x i, f (x.withPast p) i = (f x i).withPast p) (group : List Nat) :
    group.foldl f (x.withPast p) = (group.foldl f x).withPast p :=
  List.foldl_hom (withPast p) hf

@[simp] theorem stopAll_withPast (group : List Nat) :
    (x.withPast p).stopAll group = (x.stopAll group).withPast p :=
  foldl_withPast p x (fun x i => finish_withPast p x i .stopRequested) group

@[simp] theorem pauseAll_withPast (group : List Nat) :
    (x.withPast p).pauseAll group = (x.pauseAll group).withPast p :=
  foldl_withPast p x (fun x i => pause_withPast p x i) group

@[simp] theorem resumeAll_withPast (group : List Nat) :
    (x.withPast p).resumeAll group = (x.resumeAll group).withPast p :=
  foldl_withPast p x (fun x i => resume_withPast p x i) group

theorem abandon_withPast (group : List Nat) :
    Scheduler.abandon (x.withPast p) group = (Scheduler.abandon x group).withPast p := by
  refine foldl_withPast p x (fun x i => ?_) group
  rw [graph_withPast]
  split
  · exact finish_withPast p x i .failed
  · rfl

theorem startAll_withPast (group : List Nat) :
    Scheduler.startAll (x.withPast p) group = (Scheduler.startAll x group).map id (withPast p) := by
  induction group generalizing x with
  | nil => rfl
  | cons i rest ih =>
    rw [Scheduler.startAll, Scheduler.startAll, start_withPast]
    rcases x.start i with ⟨result, y⟩
    cases result with
    | ok => simp only [Prod.map, id, ih]
    | error e => rfl

theorem answerFrom_withPast (group : List Nat) (m : Message) :
    (x.withPast p).answerFrom group m = (x.answerFrom group m).map id (withPast p) := by
  have hname : (x.withPast p).nameOf = x.nameOf := rfl
  simp only [answerFrom, hname, graph_withPast]
  split
  · rfl
  next i _ =>
    cases x.graph.node? i with
    | none => rfl
    | some n => simp only [modifyNode_withPast, addLog_withPast, Prod.map, id]

end Execution
end Dataflow
