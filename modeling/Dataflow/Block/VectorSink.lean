import Dataflow.Block

/-!
# Vector sink

A sink that keeps every sample it reads, and every tag by its place among them.
-/

namespace Dataflow

structure VectorSink where
  type : SampleType
  /-- Samples read since the last start. -/
  data : Queue Sample
  /-- Tags read since the last start, indexed into `data`. -/
  tags : Queue Tag
  /-- Number of samples to make room for; it has no effect on what is kept. -/
  reserveItems : Int

namespace VectorSink

def new (type : SampleType) : VectorSink := ⟨type, .empty, .empty, 0⟩

def descriptors : List SettingDescriptor := [⟨"reserve_items", "Capacity to preallocate", false⟩]

def settings (b : VectorSink) : PropertyMap := [("reserve_items", .int .u64 b.reserveItems)]

def set (b : VectorSink) (key : String) (v : Value) : Except SettingsError Unit × VectorSink :=
  if key = "reserve_items" then
    match v.asInt .u64 with
    | .ok reserveItems => (.ok (), { b with reserveItems })
    | .error e => (.error (.value key e), b)
  else Block.refuse b key

def work (b : VectorSink) : Work (WorkOutcome × VectorSink) :=
  Work.withReader 0 b.type b fun input =>
    Work.taking 0 input.available fun chunk =>
      if chunk.samples.isEmpty then Work.report .insufficientInput b
      else
        let offset := b.data.length
        Work.report .ok { b with
          data := b.data.append chunk.samples
          tags := b.tags.append (chunk.tags.map (·.shift offset)) }

instance : Block VectorSink where
  description _ := "Collects samples and tags into memory"
  inputs b := [.input "in" b.type 0]
  outputs _ := []
  descriptors _ := descriptors
  settings := settings
  set := set
  settle b := (.ok (), b)
  isPermissive _ := false
  start b := .done (.ok (), { b with data := .empty, tags := .empty })
  stop := .done
  pause := .done
  resume := .done
  work := work

end VectorSink

end Dataflow
