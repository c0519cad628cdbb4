import Dataflow.Execution

/-!
# Passes

A pass invokes each unfinished block of a group once, in order (`Execution.runPass`). A group is
a list of positions: all blocks of the graph, or those that one worker owns.
-/

namespace Dataflow

open Lifecycle (State)

/-- Why a pass was cut short. -/
inductive PassFailure where
  /-- The work call of the block of this name failed. -/
  | failed (block : String) (e : WorkError)
  | crashed
  deriving DecidableEq, Repr

/-- What a pass achieved. -/
structure PassReport where
  progressed : Bool
  newlyFinished : Nat
  failure : Option PassFailure
  deriving DecidableEq, Repr

namespace Execution

variable {β : Type} [Block β]

/-- Positions of all blocks. -/
def everyBlock (x : Execution β) : List Nat := List.range x.graph.nodes.length

/-- Whether the block at a position is finished. -/
def isFinished (x : Execution β) (block : Nat) : Bool :=
  match x.graph.node? block with
  | none => true
  | some n => n.isFinished

/-- Number of unfinished blocks of a group. -/
def unfinished (x : Execution β) (group : List Nat) : Nat :=
  group.countP fun i => !x.isFinished i

/-- Whether all blocks of a group are finished. -/
def allFinished (x : Execution β) (group : List Nat) : Bool := group.all x.isFinished

/-- Unique name of the block at a position. -/
def nameOf (x : Execution β) (block : Nat) : String :=
  ((x.graph.node? block).map Node.uniqueName).getD ""

/-- Invoke each unfinished block of a group once. A failure cuts the pass short. -/
def runPass (x : Execution β) : List Nat → PassReport × Execution β
  | [] => (⟨false, 0, none⟩, x)
  | i :: rest =>
    if x.isFinished i then x.runPass rest
    else
      match x.invoke i with
      | (.idle, x) => x.runPass rest
      | (.progress, x) =>
        let (report, x) := x.runPass rest
        ({ report with progressed := true }, x)
      | (.finished, x) =>
        let (report, x) := x.runPass rest
        (⟨true, report.newlyFinished + 1, report.failure⟩, x)
      | (.failed e, x) =>
        (⟨false, 0, some (.failed (x.nameOf i) e)⟩,
          x.addLine .error s!"[{x.nameOf i}] Work error: {e.message}")
      | (.crashed, x) => (⟨false, 0, some .crashed⟩, x)

/-- Finish every block of a group. -/
def stopAll (x : Execution β) (group : List Nat) : Execution β :=
  group.foldl (fun x i => x.finish i .stopRequested) x

def pauseAll (x : Execution β) (group : List Nat) : Execution β := group.foldl pause x

def resumeAll (x : Execution β) (group : List Nat) : Execution β := group.foldl resume x

/-- Answer a message to a block of a group. -/
def answerFrom (x : Execution β) (group : List Nat) (m : Message) :
    Except MessageError PropertyMap × Execution β :=
  match group.find? fun i => x.nameOf i = m.destination with
  | none => (.error (.destinationNotFound m.destination), x)
  | some i =>
    match x.graph.node? i with
    | none => (.error (.destinationNotFound m.destination), x)
    | some n =>
      let a := n.answer m
      (a.data, (x.modifyNode i fun _ => a.node).addLog a.log)

end Execution

end Dataflow
