import Dataflow.Block

/-!
# Head

A block that passes a fixed number of samples with their tags, and is then done. Being done
detaches its input, which lets a source that feeds nothing else end.
-/

namespace Dataflow

structure Head where
  type : SampleType
  /-- Number of samples to pass. -/
  numItems : Int
  /-- Samples passed since the last start. -/
  published : Nat

namespace Head

def new (type : SampleType) : Head := ⟨type, 0, 0⟩

def descriptors : List SettingDescriptor := [⟨"num_items", "Number of samples to pass", false⟩]

def settings (b : Head) : PropertyMap := [("num_items", .int .u64 b.numItems)]

def set (b : Head) (key : String) (v : Value) : Except SettingsError Unit × Head :=
  if key = "num_items" then
    match v.asInt .u64 with
    | .ok numItems => (.ok (), { b with numItems })
    | .error e => (.error (.value key e), b)
  else Block.refuse b key

def work (b : Head) : Work (WorkOutcome × Head) :=
  let remaining := (b.numItems - b.published).toNat
  if remaining = 0 then Work.report .done b
  else
    Work.withReader 0 b.type b fun input =>
      Work.withWriter 0 b.type b fun output =>
        if input.available = 0 then Work.report .insufficientInput b
        else if output.taggedSpace.isZero then Work.report .insufficientOutput b
        else
          let n := min (output.taggedSpace.clip input.available) remaining
          Work.taking 0 n fun chunk =>
            Work.publishing 0 chunk.samples chunk.tags b <|
              let moved := { b with published := b.published + n }
              if (moved.published : Int) = b.numItems then Work.report .done moved
              else Work.report .ok moved

instance : Block Head where
  description _ := "Passes the first num_items samples, then finishes"
  inputs b := [.input "in" b.type 0]
  outputs b := [.output "out" b.type 0]
  descriptors _ := descriptors
  settings := settings
  set := set
  settle b := (.ok (), b)
  isPermissive _ := false
  start b := .done (.ok (), { b with published := 0 })
  stop := .done
  pause := .done
  resume := .done
  work := work

end Head

end Dataflow
