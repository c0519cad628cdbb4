import Dataflow.Scheduler.Run
import Mathlib.Logic.Relation

/-!
# Driving an execution

All that a scheduler does to the blocks that it has started are single calls of four kinds
(`Execution.Drive`). Passes, and whatever else the scheduler does to all blocks at once, are
sequences of these (`Execution.Drives`), so what each of the four keeps is kept by them all.
-/

namespace Dataflow
namespace Execution

variable {β : Type} [Block β] {x y : Execution β}

/-- One call of a scheduler on a block. -/
inductive Drive (x : Execution β) : Execution β → Prop where
  | invoke (i : Nat) : Drive x (x.invoke i).2
  | finish (i : Nat) (reason : FinishReason) : Drive x (x.finish i reason)
  | pause (i : Nat) : Drive x (x.pause i)
  | resume (i : Nat) : Drive x (x.resume i)

/-- Any number of calls of a scheduler on blocks. -/
def Drives : Execution β → Execution β → Prop := Relation.ReflTransGen Drive

theorem Drives.foldl {f : Execution β → Nat → Execution β} (hf : ∀ x i, Drives x (f x i))
    (x : Execution β) (group : List Nat) : x.Drives (group.foldl f x) := by
  induction group generalizing x with
  | nil => exact .refl
  | cons i rest ih => exact (hf x i).trans (ih (f x i))

theorem drives_stopAll (x : Execution β) (group : List Nat) : x.Drives (x.stopAll group) :=
  .foldl (fun _ i => .single (.finish i .stopRequested)) x group

theorem drives_pauseAll (x : Execution β) (group : List Nat) : x.Drives (x.pauseAll group) :=
  .foldl (fun _ i => .single (.pause i)) x group

theorem drives_resumeAll (x : Execution β) (group : List Nat) : x.Drives (x.resumeAll group) :=
  .foldl (fun _ i => .single (.resume i)) x group

theorem drives_abandon (x : Execution β) (group : List Nat) :
    x.Drives (Scheduler.abandon x group) := by
  refine .foldl (fun x i => ?_) x group
  split
  · exact .single (.finish i .failed)
  · exact .refl

/-- Beside its calls a pass only puts a line into the log, if it fails. -/
theorem drives_runPass (x : Execution β) (group : List Nat) :
    ∃ y lines, x.Drives y ∧ (x.runPass group).2 = y.addLog lines := by
  induction group generalizing x with
  | nil => exact ⟨x, [], .refl, by simp [runPass, addLog]⟩
  | cons i rest ih =>
    rw [runPass]
    split
    · exact ih x
    · have hi : x.Drive (x.invoke i).2 := .invoke i
      obtain ⟨z, lines, hz, heq⟩ := ih (x.invoke i).2
      rcases hout : x.invoke i with ⟨invocation, y⟩
      rw [hout] at hi hz heq
      cases invocation with
      | idle => exact ⟨z, lines, .head hi hz, heq⟩
      | progress => exact ⟨z, lines, .head hi hz, heq⟩
      | finished => exact ⟨z, lines, .head hi hz, heq⟩
      | failed e =>
        let line : LogLine := ⟨.error, s!"[{y.nameOf i}] Work error: {e.message}"⟩
        exact ⟨y, [line], .single hi, by simp [addLine, addLog, line]⟩
      | crashed => exact ⟨y, [], .single hi, by simp [addLog]⟩

end Execution
end Dataflow
