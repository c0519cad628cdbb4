import Dataflow.Block

/-!
# Null sink

A sink that discards everything it reads, and counts it.
-/

namespace Dataflow

structure NullSink where
  type : SampleType
  /-- Samples discarded since the last start. -/
  consumed : Nat

namespace NullSink

def new (type : SampleType) : NullSink := ⟨type, 0⟩

def work (b : NullSink) : Work (WorkOutcome × NullSink) :=
  Work.withReader 0 b.type b fun input =>
    if input.available = 0 then Work.report .insufficientInput b
    else
      Work.consuming 0 input.available b fun _ =>
        Work.report .ok { b with consumed := b.consumed + input.available }

instance : Block NullSink where
  description _ := "Discards all input"
  inputs b := [.input "in" b.type 0]
  outputs _ := []
  descriptors _ := []
  settings _ := []
  set b key _ := Block.refuse b key
  settle b := (.ok (), b)
  isPermissive _ := false
  start b := .done (.ok (), { b with consumed := 0 })
  stop := .done
  pause := .done
  resume := .done
  work := work

end NullSink

end Dataflow
