import Dataflow.Clock
import Dataflow.Watchdog

/-!
# Vigils

A vigil is a watchdog at a moment of time. A thread may check on the watchdog at regular
intervals while time goes by (`Vigil.wait`); what that thread logs is not in the log of the vigil,
but a block that it has warned of is no longer warned of by anyone else.
-/

namespace Dataflow

/-- A watchdog at a moment of time. -/
structure Vigil where
  watchdog : Watchdog
  now : Nat
  /-- When the checking thread was started, if there is one. -/
  checkedSince : Option Nat
  log : Array LogLine

namespace Vigil

def new (threshold : Nat) : Vigil := ⟨.new threshold, 0, none, #[]⟩

/-- Time for which the checking thread sleeps between two looks. -/
def interval (v : Vigil) : Nat := min (max (v.watchdog.threshold / 4) 10000) 1000000

/-- The last look of a thread started at `since`, if it falls between `now` and `later`. An
earlier look in that time finds no operation that the last one does not find. -/
def lastLook? (v : Vigil) (since later : Nat) : Option Nat :=
  let period := Clock.wake 0 v.interval
  let look := since + (later - since) / period * period
  if v.now < look then some look else none

/-- Let time go by. -/
def wait (v : Vigil) (time : Nat) : Vigil :=
  let later := Clock.wake v.now time
  let look? := v.checkedSince.bind fun since => v.lastLook? since later
  { v with
    watchdog := (look?.map v.watchdog.check).getD v.watchdog
    now := later }

/-- Check on the watchdog; gives the number of blocked operations. -/
def check (v : Vigil) : Nat × Vigil :=
  (v.watchdog.blocked v.now,
    { v with
      watchdog := v.watchdog.check v.now
      log := v.log ++ v.watchdog.checkLog v.now })

def register (v : Vigil) (block operation : String) : Vigil :=
  { v with watchdog := v.watchdog.register block operation }

def drop (v : Vigil) (id : Nat) : Vigil := { v with watchdog := v.watchdog.drop id }

def start (v : Vigil) (id : Nat) : Vigil := { v with watchdog := v.watchdog.start id v.now }

def finish (v : Vigil) (id : Nat) : Vigil :=
  { v with
    watchdog := v.watchdog.finish id
    log := v.log ++ v.watchdog.finishLog id }

/-- Start the checking thread. -/
def beginChecking (v : Vigil) : Vigil := { v with checkedSince := some v.now }

/-- Stop the checking thread. -/
def endChecking (v : Vigil) : Vigil := { v with checkedSince := none }

end Vigil

end Dataflow
