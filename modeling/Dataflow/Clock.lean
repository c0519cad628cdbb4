/-!
# Time

Times are in microseconds. Nothing is done in no time: a pass over blocks takes a little, and a
thread wakes up a little later than it asked for (`Clock.wake`). So a limit is exceeded once the
waits add up to it, and a limit of zero as soon as anything happens.
-/

namespace Dataflow.Clock

/-- Time that a pass over blocks takes. -/
def passTime : Nat := 10

/-- How much later than it asked for a thread wakes up. -/
def latency : Nat := 50

/-- When a thread wakes up that goes to sleep now. -/
def wake (now time : Nat) : Nat := now + time + latency

end Dataflow.Clock
