import Dataflow.Proofs.Dictionary
import Dataflow.Sample
import Dataflow.Tag

/-!
# Reading values back

A value is read as a number of a kind just when it holds one, so that samples are read from the
values they are written to and from no others (`SampleType.read_eq_ok_iff`). Tags are read back
from their values (`Tag.ofValue_toValue`), but also from values with further keys, which are then
lost (`Tag.toValue_of_ofValue`). A list is read value by value, up to the first that cannot be read
(`mapM_eq_error_iff`).
-/

namespace Dataflow

theorem map_eq_ok_iff {ε α β : Type} {r : Except ε α} {f : α → β} {b : β} :
    r.map f = .ok b ↔ ∃ a, r = .ok a ∧ f a = b := by
  cases r <;> simp [Except.map]

theorem bind_eq_ok_iff {ε α β : Type} {r : Except ε α} {f : α → Except ε β} {b : β} :
    r >>= f = .ok b ↔ ∃ a, r = .ok a ∧ f a = .ok b := by
  cases r <;> simp [bind, Except.bind]

/-- A list is refused for its first element that is refused. -/
theorem mapM_eq_error_iff {ε α β : Type} {f : α → Except ε β} {xs : List α} {e : ε} :
    xs.mapM f = .error e ↔ ∃ before x after, xs = before ++ x :: after ∧
      (∀ y ∈ before, ∃ z, f y = .ok z) ∧ f x = .error e := by
  induction xs with
  | nil => exact iff_of_false (by rw [List.mapM_nil]; nofun) (by simp)
  | cons x rest ih =>
    rw [List.mapM_cons]
    constructor
    · intro h
      cases hx : f x with
      | error e' =>
        rw [hx] at h
        cases h
        exact ⟨[], x, rest, rfl, by simp, hx⟩
      | ok z =>
        rw [hx] at h
        have hrest : rest.mapM f = .error e := by
          cases hrest : rest.mapM f with
          | error e' =>
            simp only [bind, Except.bind, hrest] at h
            exact h
          | ok zs => simp [bind, Except.bind, hrest, pure, Except.pure] at h
        obtain ⟨before, y, after, rfl, hbefore, hy⟩ := ih.mp hrest
        exact ⟨x :: before, y, after, rfl, List.forall_mem_cons.mpr ⟨⟨z, hx⟩, hbefore⟩, hy⟩
    · rintro ⟨before, y, after, hsplit, hbefore, hy⟩
      cases before with
      | nil =>
        cases hsplit
        rw [hy]
        rfl
      | cons x' before =>
        cases hsplit
        obtain ⟨⟨z, hx⟩, hbefore⟩ := List.forall_mem_cons.mp hbefore
        rw [hx, ih.mpr ⟨before, y, after, rfl, hbefore, hy⟩]
        rfl

namespace Value

variable {v : Value}

theorem asBool_eq_ok_iff {b : Bool} : v.asBool = .ok b ↔ v = .bool b := by
  cases v <;> simp [asBool]

theorem asInt_eq_ok_iff {kind : IntKind} {n : Int} : v.asInt kind = .ok n ↔ v = .int kind n := by
  cases v with
  | int k m =>
    rw [asInt]
    split
    next h => simp [h]
    next h => simp [h]
  | _ => simp [asInt]

theorem asFloat_eq_ok_iff {kind : FloatKind} {bits : Nat} :
    v.asFloat kind = .ok bits ↔ v = .float kind bits := by
  cases v with
  | float k m =>
    rw [asFloat]
    split
    next h => simp [h]
    next h => simp [h]
  | _ => simp [asFloat]

theorem asComplex_eq_ok_iff {kind : FloatKind} {re im : Nat} :
    v.asComplex kind = .ok (re, im) ↔ v = .complex kind re im := by
  cases v with
  | complex k a b =>
    rw [asComplex]
    split
    next h => simp [h]
    next h => simp [h]
  | _ => simp [asComplex]

theorem asVector_eq_ok_iff {items : List Value} : v.asVector = .ok items ↔ v = .vector items := by
  cases v <;> simp [asVector]

theorem asMap_eq_ok_iff {fields : PropertyMap} : v.asMap = .ok fields ↔ v = .map fields := by
  cases v <;> simp [asMap]

end Value

theorem PropertyMap.require_eq_ok_iff {m : PropertyMap} {key : String} {v : Value} :
    m.require key = .ok v ↔ Dictionary.get? m key = some v := by
  rw [require]
  cases Dictionary.get? m key <;> simp

namespace SampleType

variable {t : SampleType} {v : Value} {x : Sample}

theorem read_toValue (x : Sample) : x.type.read x.toValue = .ok x := by
  cases x with
  | iq8 => rfl
  | _ => simp [Sample.type, Sample.toValue, read, Value.asInt, Value.asFloat, Value.asComplex,
      Except.map]

/-- A sample is read from its own value, and from no other. -/
theorem read_eq_ok_iff : t.read v = .ok x ↔ x.type = t ∧ x.toValue = v := by
  constructor
  · intro h
    cases t with
    | int | raw =>
      obtain ⟨n, hn, rfl⟩ := map_eq_ok_iff.mp h
      exact ⟨rfl, (Value.asInt_eq_ok_iff.mp hn).symm⟩
    | float =>
      obtain ⟨bits, hbits, rfl⟩ := map_eq_ok_iff.mp h
      exact ⟨rfl, (Value.asFloat_eq_ok_iff.mp hbits).symm⟩
    | complex =>
      obtain ⟨⟨re, im⟩, hpair, rfl⟩ := map_eq_ok_iff.mp h
      exact ⟨rfl, (Value.asComplex_eq_ok_iff.mp hpair).symm⟩
    | iq8 =>
      obtain ⟨items, hitems, h⟩ := bind_eq_ok_iff.mp h
      rw [Value.asVector_eq_ok_iff.mp hitems]
      split at h
      next a b =>
        obtain ⟨i, hi, h⟩ := bind_eq_ok_iff.mp h
        obtain ⟨q, hq, h⟩ := bind_eq_ok_iff.mp h
        cases h
        rw [Value.asInt_eq_ok_iff.mp hi, Value.asInt_eq_ok_iff.mp hq]
        exact ⟨rfl, rfl⟩
      next => cases h
  · rintro ⟨rfl, rfl⟩
    exact read_toValue x

/-- Samples of one type are read from their values, and from nothing else. -/
theorem readAll_eq_ok_iff {values : List Value} {samples : List Sample} :
    t.readAll values = .ok samples ↔
      (∀ x ∈ samples, x.type = t) ∧ samples.map Sample.toValue = values := by
  induction values generalizing samples with
  | nil =>
    rw [readAll, Except.ok.injEq, List.map_eq_nil_iff]
    exact ⟨fun h => h ▸ ⟨by simp, rfl⟩, fun h => h.2.symm⟩
  | cons v rest ih =>
    rw [readAll]
    constructor
    · intro h
      obtain ⟨x, hx, h⟩ := bind_eq_ok_iff.mp h
      obtain ⟨xs, hxs, h⟩ := bind_eq_ok_iff.mp h
      cases h
      obtain ⟨htype, rfl⟩ := read_eq_ok_iff.mp hx
      obtain ⟨htypes, rfl⟩ := ih.mp hxs
      exact ⟨by simpa using ⟨htype, htypes⟩, rfl⟩
    · rintro ⟨htypes, hvalues⟩
      cases samples with
      | nil => cases hvalues
      | cons x xs =>
        obtain ⟨rfl, hrest⟩ := List.cons.inj hvalues
        obtain ⟨htype, htypes⟩ := List.forall_mem_cons.mp htypes
        rw [read_eq_ok_iff.mpr ⟨htype, rfl⟩, ih.mpr ⟨htypes, hrest⟩]
        rfl

theorem readAll_eq_mapM (t : SampleType) (values : List Value) :
    t.readAll values = values.mapM t.read := by
  induction values with
  | nil => rfl
  | cons v rest ih => rw [readAll, List.mapM_cons, ih]

end SampleType

namespace Tag

theorem ofValue_toValue (t : Tag) : ofValue t.toValue = .ok t := rfl

/-- A tag is read from a map with its index and its map, whatever else is there. -/
theorem ofValue_eq_ok_iff {v : Value} {t : Tag} :
    ofValue v = .ok t ↔ ∃ fields : PropertyMap, v = .map fields ∧
      Dictionary.get? fields "index" = some (.int .i64 t.index) ∧
      Dictionary.get? fields "map" = some (.map t.map) := by
  constructor
  · intro h
    obtain ⟨fields, hfields, h⟩ := bind_eq_ok_iff.mp h
    obtain ⟨indexValue, hindex, h⟩ := bind_eq_ok_iff.mp h
    obtain ⟨index, hindexValue, h⟩ := bind_eq_ok_iff.mp h
    obtain ⟨mapValue, hmap, h⟩ := bind_eq_ok_iff.mp h
    obtain ⟨map, hmapValue, h⟩ := bind_eq_ok_iff.mp h
    cases h
    rw [Value.asInt_eq_ok_iff.mp hindexValue] at hindex
    rw [Value.asMap_eq_ok_iff.mp hmapValue] at hmap
    exact ⟨fields, Value.asMap_eq_ok_iff.mp hfields, PropertyMap.require_eq_ok_iff.mp hindex,
      PropertyMap.require_eq_ok_iff.mp hmap⟩
  · rintro ⟨fields, rfl, hindex, hmap⟩
    have hindex := PropertyMap.require_eq_ok_iff.mpr hindex
    have hmap := PropertyMap.require_eq_ok_iff.mpr hmap
    refine bind_eq_ok_iff.mpr ⟨fields, rfl, bind_eq_ok_iff.mpr ⟨_, hindex, ?_⟩⟩
    refine bind_eq_ok_iff.mpr ⟨t.index, Value.asInt_eq_ok_iff.mpr rfl, ?_⟩
    exact bind_eq_ok_iff.mpr ⟨_, hmap, rfl⟩

/-- Of a value from which a tag is read, the tag keeps the index and the map. -/
theorem toValue_of_ofValue {fields : PropertyMap} {t : Tag} (h : ofValue (.map fields) = .ok t)
    (hsorted : Dictionary.Sorted fields) :
    t.toValue = .map (fields.filter fun entry => entry.1 = "index" || entry.1 = "map") := by
  obtain ⟨fields', heq, hindex, hmap⟩ := ofValue_eq_ok_iff.mp h
  cases heq
  have hkept : Dictionary.Sorted [("index", Value.int .i64 t.index), ("map", Value.map t.map)] := by
    refine List.pairwise_cons.mpr ⟨?_, List.pairwise_singleton _ _⟩
    simp only [List.mem_cons, List.not_mem_nil, or_false, forall_eq]
    decide
  refine congrArg Value.map (hkept.ext (hsorted.filter _) fun key => ?_)
  rw [Dictionary.get?_filter (fun key => key = "index" || key = "map")]
  by_cases hkeyIndex : key = "index"
  · subst hkeyIndex
    exact hindex.symm
  by_cases hkeyMap : key = "map"
  · subst hkeyMap
    exact hmap.symm
  · simp [Dictionary.get?, hkeyIndex, hkeyMap, Ne.symm hkeyIndex, Ne.symm hkeyMap]

end Tag
end Dataflow
