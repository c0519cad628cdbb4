import Dataflow.Block.NullSource

/-!
# Vector source

A source that publishes a list of samples with tags, once or again and again. When it repeats,
each tag is published again along with its sample.
-/

namespace Dataflow

structure VectorSource where
  type : SampleType
  data : List Sample
  repeating : Bool
  /-- Tags indexed into `data`. -/
  tags : List Tag
  /-- The samples of a round, each with the tags on it, as of the last start. -/
  round : Array (Sample × List Tag)
  /-- Position in the round of the next sample. -/
  position : Nat

namespace VectorSource

def new (type : SampleType) : VectorSource := ⟨type, [], false, [], #[], 0⟩

/-! ### Settings -/

def descriptors : List SettingDescriptor :=
  [⟨"data", "Samples to publish", false⟩,
    ⟨"repeat", "Restart from the beginning after the last sample", true⟩,
    ⟨"tags", "Tags indexed into data", false⟩]

def settings (b : VectorSource) : PropertyMap :=
  [("data", .vector (b.data.map Sample.toValue)), ("repeat", .bool b.repeating),
    ("tags", .vector (b.tags.map Tag.toValue))]

/-- Read a list of tags; the first value that is no tag fails the whole list. -/
def readTags : List Value → Except ValueError (List Tag)
  | [] => .ok []
  | v :: rest => do
    let t ← Tag.ofValue v
    return t :: (← readTags rest)

/-- The block with one setting changed. -/
def update (b : VectorSource) (key : String) (v : Value) : Except SettingsError VectorSource :=
  match key with
  | "data" => do
    let data ← (v.asVector >>= b.type.readAll).mapError (.value key)
    return { b with data }
  | "repeat" => do
    let repeating ← v.asBool.mapError (.value key)
    return { b with repeating }
  | "tags" => do
    let tags ← (v.asVector >>= readTags).mapError (.value key)
    return { b with tags }
  | _ => .error (.unknownKey "" key)

def set (b : VectorSource) (key : String) (v : Value) : Except SettingsError Unit × VectorSource :=
  match b.update key v with
  | .ok b => (.ok (), b)
  | .error e => (.error e, b)

/-- Whether a tag lies outside data of a length. -/
def isStray (length : Nat) (t : Tag) : Bool := t.index < 0 || (length : Int) ≤ t.index

/-- Every tag must lie on a sample; tags are kept stably sorted. -/
def settle (b : VectorSource) : Except SettingsError Unit × VectorSource :=
  let length := b.data.length
  match b.tags.find? (isStray length) with
  | some t =>
    (.error (.invalidValue "tags" s!"tag index {t.index} outside data of length {length}"), b)
  | none => (.ok (), { b with tags := b.tags.mergeSort Tag.precedes })

/-! ### Running -/

/-- Put a tag before those on its sample; a tag on no sample is left out. -/
def attach (t : Tag) (round : Array (Sample × List Tag)) : Array (Sample × List Tag) :=
  if t.index < 0 then round else round.modify t.index.toNat fun (x, tags) => (x, t :: tags)

/-- Each sample of `data` with the tags on it, in their order. -/
def roundOf (data : List Sample) (tags : List Tag) : Array (Sample × List Tag) :=
  tags.foldr attach (data.map fun x => (x, [])).toArray

/-- The next `n` samples, each with the tags on it; behind the last of a round comes the first. -/
def upcoming (b : VectorSource) (n : Nat) : List (Sample × List Tag) :=
  (List.range n).filterMap fun i => b.round[(b.position + i) % b.round.size]?

/-- Samples with the tags on them as a chunk. -/
def toChunk (items : List (Sample × List Tag)) : Chunk Sample :=
  ⟨items.map Prod.fst,
    items.zipIdx.flatMap fun ((_, tags), i) => tags.map fun t => { t with index := i }⟩

/-- The next `n` samples with their tags, and the block moved behind them. -/
def nextChunk (b : VectorSource) (n : Nat) : Chunk Sample × VectorSource :=
  let behind := b.position + n
  (toChunk (b.upcoming n),
    { b with position := if b.repeating then behind % b.round.size else behind })

def start (b : VectorSource) : Except WorkError Unit × VectorSource :=
  if b.data.isEmpty then (.error (.block "VectorSource has no data"), b)
  else (.ok (), { b with round := roundOf b.data b.tags, position := 0 })

/-- A work call publishes from the round of the last start, which is what data and tags say as long
as they are changed through the node only. Before the first start there is no round, and the block
reports that it is done whatever its data; but no block is worked before it is started. -/
def work (b : VectorSource) : Work (WorkOutcome × VectorSource) :=
  let remaining := b.round.size - b.position
  if b.data.isEmpty || (!b.repeating && remaining = 0) then Work.report .done b
  else
    Work.withWriter 0 b.type b fun output =>
      let space := output.taggedSpace.clip maxSourceChunk
      if space = 0 then Work.report .insufficientOutput b
      else
        let (chunk, moved) := b.nextChunk (if b.repeating then space else min space remaining)
        Work.publishing 0 chunk.samples chunk.tags moved <|
          if !b.repeating && moved.position = b.round.size then Work.report .done moved
          else Work.report .ok moved

instance : Block VectorSource where
  description _ := "Publishes a vector of samples with tags, optionally repeating"
  inputs _ := []
  outputs b := [.output "out" b.type 0]
  descriptors _ := descriptors
  settings := settings
  set := set
  settle := settle
  isPermissive _ := false
  start b := .done b.start
  stop := .done
  pause := .done
  resume := .done
  work := work

end VectorSource

end Dataflow
