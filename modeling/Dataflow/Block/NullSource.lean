import Dataflow.Block

/-!
# Null source

A source of default-valued samples that never ends by itself: it stops when every reader has
detached, or on request.
-/

namespace Dataflow

/-- Upper bound on the samples that a source produces in one work call. -/
def maxSourceChunk : Nat := 65536

structure NullSource where
  type : SampleType
  /-- Samples written since the last start. -/
  produced : Nat

namespace NullSource

def new (type : SampleType) : NullSource := ⟨type, 0⟩

def work (b : NullSource) : Work (WorkOutcome × NullSource) :=
  Work.withWriter 0 b.type b fun output =>
    let n := output.taggedSpace.clip maxSourceChunk
    if n = 0 then Work.report .insufficientOutput b
    else
      Work.publishing 0 (List.replicate n b.type.zero) [] b
        (Work.report .ok { b with produced := b.produced + n })

instance : Block NullSource where
  description _ := "Produces default-valued samples without end"
  inputs _ := []
  outputs b := [.output "out" b.type 0]
  descriptors _ := []
  settings _ := []
  set b key _ := Block.refuse b key
  settle b := (.ok (), b)
  isPermissive _ := false
  start b := .done (.ok (), { b with produced := 0 })
  stop := .done
  pause := .done
  resume := .done
  work := work

end NullSource

end Dataflow
