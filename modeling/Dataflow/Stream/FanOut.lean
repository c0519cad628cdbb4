import Dataflow.Stream

/-!
# Fan-out

An output may feed several streams. Every chunk is published to all of them whose reader has not
detached, or to none; the others are skipped and no longer limit the writer. An output that feeds
no stream discards what is published.
-/

namespace Dataflow

/-- How many samples a writer may publish. -/
inductive Room where
  | bounded (n : Nat)
  | unbounded
  deriving DecidableEq, Repr

namespace Room

/-- As much of `n` as there is room for. -/
def clip (r : Room) (n : Nat) : Nat :=
  match r with
  | bounded m => min n m
  | unbounded => n

def isZero : Room → Bool
  | bounded n => n = 0
  | unbounded => false

end Room

namespace FanOut

variable {α : Type}

/-- The streams whose reader has not detached. -/
def live (streams : List (Stream α)) : List (Stream α) := streams.filter fun s => !s.detached

/-- The least value of `f` on a live stream, zero if there is none. -/
def least (f : Stream α → Nat) (streams : List (Stream α)) : Nat :=
  ((live streams).map f).min?.getD 0

/-- Samples that fit into every live stream. -/
def space (streams : List (Stream α)) : Room :=
  if streams.isEmpty then .unbounded else .bounded (least Stream.space streams)

/-- Samples that fit into every live stream even if each of them carries a tag. -/
def taggedSpace (streams : List (Stream α)) : Room :=
  if streams.isEmpty then .unbounded
  else .bounded (least (fun s => min s.space s.tagSpace) streams)

/-- Every reader has detached, which is so of an output that feeds nothing. -/
def allDetached (streams : List (Stream α)) : Bool := streams.all (·.detached)

/-- Push to the live streams in order, up to the first that refuses. -/
def pushLive (samples : List α) (tags : List Tag) :
    List (Stream α) → Except StreamError Unit × List (Stream α)
  | [] => (.ok (), [])
  | s :: rest =>
    if s.detached then
      let (result, rest) := pushLive samples tags rest
      (result, s :: rest)
    else
      match s.push samples tags with
      | .error e => (.error e, s :: rest)
      | .ok s =>
        let (result, rest) := pushLive samples tags rest
        (result, s :: rest)

/-- Why publishing a chunk is refused, if it is. All tags count, also those that would be
dropped. -/
def refusal? (streams : List (Stream α)) (samples : List α) (tags : List Tag) :
    Option StreamError :=
  let space := least Stream.space streams
  let tagSpace := least Stream.tagSpace streams
  if space < samples.length then some (.insufficientSpace samples.length space)
  else if tagSpace < tags.length then some (.insufficientTagSpace tags.length tagSpace)
  else none

/-- Whether publishing a chunk does nothing. -/
def isVoid (streams : List (Stream α)) (samples : List α) (tags : List Tag) : Bool :=
  (samples.isEmpty && tags.isEmpty) || streams.isEmpty

/-- Publish samples and tags to every live stream, or to none. -/
def publish (streams : List (Stream α)) (samples : List α) (tags : List Tag) :
    Except StreamError Unit × List (Stream α) :=
  if isVoid streams samples tags then (.ok (), streams)
  else
    match refusal? streams samples tags with
    | some e => (.error e, streams)
    | none => pushLive samples tags streams

/-- Lines about the tags that `publish` drops. -/
def publishLog (streams : List (Stream α)) (samples : List α) (tags : List Tag) : List LogLine :=
  if isVoid streams samples tags then []
  else
    match refusal? streams samples tags with
    | some _ => []
    | none => (live streams).flatMap (·.pushLog samples tags)

end FanOut

end Dataflow
