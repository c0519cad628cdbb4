import Dataflow.Log
import Dataflow.Queue
import Dataflow.Tag

/-!
# Streams

A stream connects one writer with one reader. It holds a bounded number of samples that are
written but not yet read, and the tags on them. Inside, a tag is indexed by the number of samples
written before its own; a reader sees it indexed relative to the chunk it reads.

Tags wait in two places. `push` puts them into `arriving`, which has a bounded number of slots;
every read first moves them on into `pending`, which is sorted by index. A tag that arrives for a
sample already read is dropped.

The writer may close the stream: what is in it stays readable. The reader may detach from it: it
will never read again.
-/

namespace Dataflow

/-- Why a stream refused to be written or read. -/
inductive StreamError where
  | insufficientSpace (requested space : Nat)
  | insufficientTagSpace (requested space : Nat)
  | insufficientData (requested available : Nat)
  deriving DecidableEq, Repr

def StreamError.message : StreamError → String
  | insufficientSpace requested space =>
    s!"Cannot publish {requested} samples, only {space} slots free"
  | insufficientTagSpace requested space =>
    s!"Cannot publish {requested} tags, only {space} tag slots free"
  | insufficientData requested available =>
    s!"Cannot consume {requested} samples, only {available} available"

/-- The kind of an error. -/
def StreamError.kind : StreamError → String
  | insufficientSpace _ _ => "InsufficientSpace"
  | insufficientTagSpace _ _ => "InsufficientTagSpace"
  | insufficientData _ _ => "InsufficientData"

instance : Failure StreamError := ⟨StreamError.kind, StreamError.message⟩

/-- Samples read from a stream, with tags indexed relative to the first of them. -/
structure Chunk (α : Type) where
  samples : List α
  tags : List Tag

namespace Chunk

def empty {α : Type} : Chunk α := ⟨[], []⟩

end Chunk

/-- A bounded queue of samples between a writer and a reader, with tags. -/
structure Stream (α : Type) where
  capacity : Nat
  /-- Samples written but not yet read. -/
  unread : Queue α
  /-- Tags the reader has not looked at yet, in the order in which they were written. -/
  arriving : Queue Tag
  /-- Tags the reader has looked at but not passed, sorted by index. -/
  pending : List Tag
  /-- Number of samples ever written. -/
  written : Nat
  /-- Number of samples ever read. -/
  read : Nat
  closed : Bool
  detached : Bool

namespace Stream

variable {α : Type}

/-- A stream has at least this many slots for arriving tags. -/
def minTagSlots : Nat := 64

/-- An open stream without samples, holding at least one. -/
def empty (capacity : Nat) : Stream α :=
  ⟨max capacity 1, .empty, .empty, [], 0, 0, false, false⟩

/-- Number of samples that can be read. -/
def available (s : Stream α) : Nat := s.unread.length

/-- Number of samples that can be written. -/
def space (s : Stream α) : Nat := s.capacity - s.unread.length

/-- Number of slots for arriving tags. -/
def tagSlots (s : Stream α) : Nat := max s.capacity minTagSlots

/-- Number of tags that can be written. -/
def tagSpace (s : Stream α) : Nat := s.tagSlots - s.arriving.length

/-- Closed by the writer, and read to its end. -/
def exhausted (s : Stream α) : Bool := s.closed && s.unread.isEmpty

def close (s : Stream α) : Stream α := { s with closed := true }

def detach (s : Stream α) : Stream α := { s with detached := true }

/-! ### Writing -/

/-- Whether a tag written along with `count` samples belongs to one of them or to an earlier
sample of the stream. -/
def accepts (s : Stream α) (count : Nat) (t : Tag) : Bool :=
  t.index < count && 0 ≤ s.written + t.index

/-- The tags of a chunk of `count` samples that belong to the stream, indexed from its start and
stably sorted. -/
def acceptedTags (s : Stream α) (count : Nat) (tags : List Tag) : List Tag :=
  ((tags.filter (s.accepts count)).map (·.shift s.written)).mergeSort Tag.precedes

/-- Append samples and tags, which are indexed relative to the first of the samples; a negative
index tags a sample written earlier. Tags outside the stream are dropped. Nothing is written if
samples or tags do not fit. -/
def push (s : Stream α) (samples : List α) (tags : List Tag) : Except StreamError (Stream α) :=
  let accepted := s.acceptedTags samples.length tags
  if s.space < samples.length then
    .error (.insufficientSpace samples.length s.space)
  else if s.tagSpace < accepted.length then
    .error (.insufficientTagSpace accepted.length s.tagSpace)
  else
    .ok { s with
      unread := s.unread.append samples
      arriving := s.arriving.append accepted
      written := s.written + samples.length }

/-- Lines about the tags that `push` drops. -/
def pushLog (s : Stream α) (samples : List α) (tags : List Tag) : List LogLine :=
  if s.space < samples.length then []
  else
    (tags.filter fun t => !s.accepts samples.length t).map fun t =>
      ⟨.warn, s!"Dropping {t.text} outside published range {-(s.written : Int)}..{samples.length}"⟩

/-! ### Reading -/

/-- Move the arriving tags on, dropping those for samples already read. Each comes behind the
tags of the same or a smaller index. -/
def collect (s : Stream α) : Stream α :=
  let arrived := s.arriving.toList.filter fun t => decide ((s.read : Int) ≤ t.index)
  { s with
    arriving := .empty
    pending := s.pending.merge (arrived.mergeSort Tag.precedes) Tag.precedes }

/-- Lines about the tags that `collect` drops. -/
def collectLog (s : Stream α) : List LogLine :=
  (s.arriving.toList.filter fun t => decide (t.index < (s.read : Int))).map fun t =>
    ⟨.warn, s!"Dropping {(t.shift (-(s.read : Int))).text} rebased before the read position"⟩

/-- The pending tags on the next `n` samples, indexed relative to the first of them. -/
def tagsOn (s : Stream α) (n : Nat) : List Tag :=
  (s.pending.takeWhile fun t => decide (t.index < (s.read : Int) + n)).map
    (·.shift (-(s.read : Int)))

/-- Pass the next `n` samples and the pending tags on them. -/
def advance (s : Stream α) (n : Nat) : Stream α :=
  { s with
    unread := s.unread.drop n
    pending := s.pending.dropWhile fun t => decide (t.index < (s.read : Int) + n)
    read := s.read + n }

/-- The next samples, at most `limit`, with their tags; nothing is passed. -/
def peek (s : Stream α) (limit : Nat) : Chunk α × Stream α :=
  let s := s.collect
  let n := min limit s.available
  (⟨s.unread.take n, s.tagsOn n⟩, s)

/-- Read the next samples, at most `limit`, with their tags. -/
def take (s : Stream α) (limit : Nat) : Chunk α × Stream α :=
  let s := s.collect
  let n := min limit s.available
  (⟨s.unread.take n, s.tagsOn n⟩, s.advance n)

/-- Pass exactly `n` samples, giving the tags on them. -/
def consume (s : Stream α) (n : Nat) : Except StreamError (List Tag × Stream α) :=
  if s.available < n then .error (.insufficientData n s.available)
  else
    let s := s.collect
    .ok (s.tagsOn n, s.advance n)

/-- Lines about the tags that `consume` drops. -/
def consumeLog (s : Stream α) (n : Nat) : List LogLine :=
  if s.available < n then [] else s.collectLog

end Stream

end Dataflow
