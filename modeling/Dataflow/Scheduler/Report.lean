import Dataflow.Scheduler

/-!
# What a run reports

The trace and the replies of a scheduler, in an order that does not depend on how its threads take
turns: several workers may add to them at once, so the trace of a worker pool goes by label, and
its replies by request.
-/

namespace Dataflow.Scheduler

variable {β : Type}

/-- Whether several threads may add to the trace. -/
def isShared (s : Scheduler β) : Bool := s.config.policy ≠ .singleThreaded

/-- The trace; each block's own entries stay in order. -/
def traceReport (s : Scheduler β) : List TraceEntry :=
  if s.isShared then s.trace.toList.mergeSort fun a b => decide (a.label ≤ b.label)
  else s.trace.toList

/-- The replies; those to requests of the same name stay in order. -/
def replyReport (s : Scheduler β) : List Message :=
  if s.isShared then s.replies.toList.mergeSort fun a b => decide (a.requestId ≤ b.requestId)
  else s.replies.toList

end Dataflow.Scheduler
