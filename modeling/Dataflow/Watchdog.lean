import Dataflow.Log
import Dataflow.Number

/-!
# Watchdog

A watchdog reports operations that take longer than a threshold. Each registered monitor knows
when its current operation began; a check counts the operations that have been going on for too
long, and warns of each of them once. Times are in whole microseconds. A threshold may be any
duration, but is compared in 64 bits (`Watchdog.limit`).

A monitor has two cells, the start of its operation and a flag. The calls of its handle and the
checks set them one at a time (`Monitor.setStart`, `Monitor.setWarned`).
-/

namespace Dataflow

/-- What is known of the operations of one block. -/
structure Monitor where
  /-- Number of monitors registered before. -/
  id : Nat
  block : String
  operation : String
  /-- When the current operation began, if there is one. -/
  startedAt : Option Nat
  /-- The current operation has been warned of. -/
  hasWarned : Bool
  /-- Nobody will use the monitor again. -/
  isDropped : Bool
  deriving DecidableEq, Repr

structure Watchdog where
  threshold : Nat
  monitors : List Monitor
  /-- Number of monitors ever registered. -/
  registered : Nat
  deriving DecidableEq, Repr

namespace Monitor

def setStart (m : Monitor) (startedAt : Option Nat) : Monitor := { m with startedAt }

def setWarned (m : Monitor) (hasWarned : Bool) : Monitor := { m with hasWarned }

/-- An operation begins. -/
def start (m : Monitor) (now : Nat) : Monitor := (m.setStart (some now)).setWarned false

/-- The operation ends. -/
def finish (m : Monitor) : Monitor :=
  (if m.hasWarned then m.setWarned false else m).setStart none

/-- The line about the end of an operation that was warned of. -/
def finishLog (m : Monitor) : List LogLine :=
  if m.hasWarned then [⟨.info, s!"UNBLOCKED: [{m.block}] {m.operation} returned"⟩] else []

/-- For how long the current operation has been going on, if that is longer than the limit. -/
def excess? (m : Monitor) (limit now : Nat) : Option Nat :=
  m.startedAt.bind fun start => if limit < now - start then some (now - start) else none

theorem excess?_eq_some_iff {m : Monitor} {limit now us : Nat} : m.excess? limit now = some us ↔
    ∃ start, m.startedAt = some start ∧ limit < now - start ∧ us = now - start := by
  rw [excess?]
  cases m.startedAt with
  | none => simp
  | some start => simp [eq_comm]

/-- Seconds with one decimal place. The duration goes through a double, twice rounded. -/
def seconds (us : Nat) : String :=
  let whole := FloatKind.double.quotient us 1
  (FloatKind.double.quotient whole.numerator (whole.denominator * 1000000)).withTenths

/-- The line about an operation that has been going on for `us`, unless it was warned of. -/
def warnLog (m : Monitor) (us : Nat) : List LogLine :=
  if m.hasWarned then []
  else [⟨.warn, s!"BLOCKED: [{m.block}] {m.operation} running for {seconds us}s"⟩]

/-- The line about a blocked operation that has not been warned of. -/
def checkLog (m : Monitor) (limit now : Nat) : List LogLine :=
  ((m.excess? limit now).map m.warnLog).getD []

/-- Take note of a check. -/
def check (m : Monitor) (limit now : Nat) : Monitor :=
  if (m.excess? limit now).isSome then m.setWarned true else m

end Monitor

namespace Watchdog

def new (threshold : Nat) : Watchdog := ⟨threshold, [], 0⟩

/-- The threshold as it is compared: an operation that takes longer is blocked. -/
def limit (w : Watchdog) : Nat := w.threshold % UInt64.size

/-- Register a monitor, which gets the number of monitors before it. -/
def register (w : Watchdog) (block operation : String) : Watchdog :=
  { w with
    monitors := w.monitors ++ [⟨w.registered, block, operation, none, false, false⟩]
    registered := w.registered + 1 }

/-- The monitor of a number, unless it was dropped. -/
def monitor? (w : Watchdog) (id : Nat) : Option Monitor :=
  w.monitors.find? fun m => m.id = id && !m.isDropped

/-- Change the monitor of a number. -/
def modify (w : Watchdog) (id : Nat) (f : Monitor → Monitor) : Watchdog :=
  { w with monitors := w.monitors.map fun m => if m.id = id then f m else m }

def start (w : Watchdog) (id now : Nat) : Watchdog := w.modify id (·.start now)

def finish (w : Watchdog) (id : Nat) : Watchdog := w.modify id Monitor.finish

/-- The lines about the end of the operation of a monitor. -/
def finishLog (w : Watchdog) (id : Nat) : List LogLine :=
  ((w.monitor? id).map Monitor.finishLog).getD []

def drop (w : Watchdog) (id : Nat) : Watchdog := w.modify id fun m => { m with isDropped := true }

/-- The monitors still in use. -/
def live (w : Watchdog) : List Monitor := w.monitors.filter fun m => !m.isDropped

/-- Number of operations that have been going on for too long. -/
def blocked (w : Watchdog) (now : Nat) : Nat :=
  w.live.countP fun m => (m.excess? w.limit now).isSome

/-- The lines of a check. -/
def checkLog (w : Watchdog) (now : Nat) : List LogLine :=
  w.live.flatMap fun m => m.checkLog w.limit now

/-- Forget the dropped monitors, and take note of what has been warned of. -/
def check (w : Watchdog) (now : Nat) : Watchdog :=
  { w with monitors := w.live.map fun m => m.check w.limit now }

end Watchdog

end Dataflow
