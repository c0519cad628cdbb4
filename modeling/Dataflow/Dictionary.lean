/-!
# Dictionaries

A dictionary is a list of entries in strictly increasing order of their keys. Keys are ordered by
code points, which is also the order of their UTF-8 bytes. `insert` keeps the order and replaces
an entry of the same key, so that two dictionaries with the same entries are equal.
-/

namespace Dataflow

/-- Entries in strictly increasing order of their keys. -/
abbrev Dictionary (α : Type) := List (String × α)

namespace Dictionary

variable {α : Type}

/-- The keys increase strictly, so that no key occurs twice. -/
def Sorted (d : Dictionary α) : Prop := d.Pairwise fun a b => a.1 < b.1

/-- The value of a key. -/
def get? (d : Dictionary α) (key : String) : Option α :=
  match d with
  | [] => none
  | (k, v) :: rest => if k = key then some v else get? rest key

/-- Whether a key occurs. -/
def hasKey (d : Dictionary α) (key : String) : Bool := (d.get? key).isSome

/-- Give `key` the value `value`. -/
def insert (d : Dictionary α) (key : String) (value : α) : Dictionary α :=
  match d with
  | [] => [(key, value)]
  | (k, v) :: rest =>
    if key < k then (key, value) :: (k, v) :: rest
    else if key = k then (key, value) :: rest
    else (k, v) :: insert rest key value

/-- Insert the entries of a list, a later one replacing an earlier one of the same key. -/
def overwrite (d : Dictionary α) (entries : List (String × α)) : Dictionary α :=
  entries.foldl (fun d (k, v) => d.insert k v) d

/-- The dictionary of a list of entries, in which a later one counts. -/
def ofList (entries : List (String × α)) : Dictionary α := overwrite [] entries

def keys (d : Dictionary α) : List String := d.map Prod.fst

end Dictionary

end Dataflow
