import Dataflow.Block

/-!
# Copy and tag gate

`Copy` passes samples and tags unchanged; `TagGate` passes the samples and drops the tags.
-/

namespace Dataflow

structure Copy where
  type : SampleType

structure TagGate where
  type : SampleType

/-- Pass what is available and fits, with the tags that `keep` leaves of those on it. -/
def Work.passing {β : Type} (t : SampleType) (keep : List Tag → List Tag) (b : β) :
    Work (WorkOutcome × β) :=
  Work.withReader 0 t b fun input =>
    Work.withWriter 0 t b fun output =>
      if input.available = 0 then Work.report .insufficientInput b
      else if output.taggedSpace.isZero then Work.report .insufficientOutput b
      else
        Work.taking 0 (output.taggedSpace.clip input.available) fun chunk =>
          Work.publishing 0 chunk.samples (keep chunk.tags) b (Work.report .ok b)

namespace Copy

def work (b : Copy) : Work (WorkOutcome × Copy) := Work.passing b.type id b

instance : Block Copy where
  description _ := "Copies input to output, tags included"
  inputs b := [.input "in" b.type 0]
  outputs b := [.output "out" b.type 0]
  descriptors _ := []
  settings _ := []
  set b key _ := Block.refuse b key
  settle b := (.ok (), b)
  isPermissive _ := false
  start b := .done (.ok (), b)
  stop := .done
  pause := .done
  resume := .done
  work := work

end Copy

namespace TagGate

def work (b : TagGate) : Work (WorkOutcome × TagGate) := Work.passing b.type (fun _ => []) b

instance : Block TagGate where
  description _ := "Copies samples to output without propagating tags"
  inputs b := [.input "in" b.type 0]
  outputs b := [.output "out" b.type 0]
  descriptors _ := []
  settings _ := []
  set b key _ := Block.refuse b key
  settle b := (.ok (), b)
  isPermissive _ := false
  start b := .done (.ok (), b)
  stop := .done
  pause := .done
  resume := .done
  work := work

end TagGate

end Dataflow
