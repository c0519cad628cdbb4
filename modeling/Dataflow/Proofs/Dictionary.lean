import Dataflow.Dictionary
import Mathlib.Data.List.Nodup
import Mathlib.Data.String.Basic

/-!
# Entries of dictionaries

What inserting an entry does to the value of a key (`Dictionary.get?_insert`), and to a dictionary
of which every value is changed (`Dictionary.mapValues_insert`). Two dictionaries with the same
values are the same (`Dictionary.Sorted.ext`), so that overwriting is determined by what it does to
each key (`Dictionary.get?_overwrite`).
-/

namespace Dataflow

namespace Dictionary

variable {α : Type}

theorem get?_insert (d : Dictionary α) (key : String) (v : α) (k : String) :
    (d.insert key v).get? k = if key = k then some v else d.get? k := by
  induction d with
  | nil => rfl
  | cons entry rest ih =>
    obtain ⟨k', w⟩ := entry
    simp only [insert]
    split
    · rfl
    · split
      next heq =>
        subst heq
        simp only [get?]
        split <;> rfl
      next hne =>
        simp only [get?, ih]
        by_cases hk : k' = k
        · simp [hk, show key ≠ k from fun h => hne (h.trans hk.symm)]
        · simp [hk]

theorem eq_or_mem_of_mem_insert {d : Dictionary α} {key : String} {v : α} {entry : String × α}
    (h : entry ∈ d.insert key v) : entry = (key, v) ∨ entry ∈ d := by
  induction d with
  | nil => simpa [Dictionary.insert] using h
  | cons first rest ih =>
    obtain ⟨k, w⟩ := first
    simp only [Dictionary.insert] at h
    split at h
    · simpa using h
    split at h
    · exact (List.mem_cons.mp h).imp_right (List.mem_cons_of_mem _)
    · rcases List.mem_cons.mp h with rfl | h
      · exact .inr (List.mem_cons_self ..)
      · exact (ih h).imp_right (List.mem_cons_of_mem _)

theorem insert_ne_nil (d : Dictionary α) (key : String) (v : α) : d.insert key v ≠ [] := by
  intro h
  have hget := get?_insert d key v key
  rw [h, if_pos rfl] at hget
  cases hget

/-- Change the value of every key. -/
def mapValues (f : String → α → α) (d : Dictionary α) : Dictionary α :=
  d.map fun (key, v) => (key, f key v)

theorem mapValues_insert (f : String → α → α) (d : Dictionary α) (key : String) (v : α) :
    (d.insert key v).mapValues f = (d.mapValues f).insert key (f key v) := by
  induction d with
  | nil => rfl
  | cons entry rest ih =>
    obtain ⟨k, w⟩ := entry
    simp only [insert]
    split
    next hlt => simp [mapValues, insert, hlt]
    next hlt =>
      split
      next heq => simp [mapValues, insert, heq]
      next heq =>
        rw [show mapValues f ((k, w) :: insert rest key v) =
          (k, f k w) :: mapValues f (insert rest key v) from rfl, ih]
        simp [mapValues, insert, hlt, heq]

/-- Overwriting respects what is told apart by the values of `f`. -/
theorem mapValues_overwrite_congr {f : String → α → α} {d d' : Dictionary α}
    (h : d.mapValues f = d'.mapValues f) (entries : List (String × α)) :
    (overwrite d entries).mapValues f = (overwrite d' entries).mapValues f := by
  induction entries generalizing d d' with
  | nil => exact h
  | cons entry rest ih => exact ih (by rw [mapValues_insert, mapValues_insert, h])

theorem mapValues_overwrite (f : String → α → α) (d : Dictionary α) (entries : List (String × α)) :
    (overwrite d entries).mapValues f = overwrite (d.mapValues f) (mapValues f entries) := by
  induction entries generalizing d with
  | nil => rfl
  | cons entry rest ih =>
    obtain ⟨key, v⟩ := entry
    show (overwrite (d.insert key v) rest).mapValues f = _
    rw [ih, mapValues_insert]
    rfl

/-! ### Values of keys -/

theorem get?_append (d d' : Dictionary α) (k : String) :
    get? (d ++ d') k = (d.get? k).or (d'.get? k) := by
  induction d with
  | nil => rfl
  | cons entry rest ih =>
    obtain ⟨key, v⟩ := entry
    simp only [List.cons_append, get?, ih]
    split <;> rfl

theorem get?_filter (p : String → Bool) (d : Dictionary α) (k : String) :
    get? (d.filter fun entry => p entry.1) k = if p k then d.get? k else none := by
  induction d with
  | nil => simp [get?]
  | cons entry rest ih =>
    obtain ⟨key, v⟩ := entry
    by_cases hkey : key = k
    · subst hkey
      cases hp : p key <;> simp [get?, hp, ih]
    · cases hp : p key <;> simp [get?, hp, hkey, ih]

/-- Of several entries of a key, the last one counts. -/
theorem get?_overwrite (d : Dictionary α) (entries : List (String × α)) (k : String) :
    (overwrite d entries).get? k = (get? entries.reverse k).or (d.get? k) := by
  induction entries generalizing d with
  | nil => rfl
  | cons entry rest ih =>
    obtain ⟨key, v⟩ := entry
    show (overwrite (d.insert key v) rest).get? k = _
    rw [ih, List.reverse_cons, get?_append, get?_insert, Option.or_assoc]
    congr 1
    by_cases hkey : key = k <;> simp [get?, hkey]

theorem hasKey_eq (d : Dictionary α) (k : String) : d.hasKey k = d.keys.any (· = k) := by
  induction d with
  | nil => rfl
  | cons entry rest ih =>
    obtain ⟨key, v⟩ := entry
    rw [hasKey, get?]
    by_cases hkey : key = k
    · simp [keys, hkey]
    · rw [if_neg hkey]
      rw [hasKey] at ih
      simpa [keys, hkey] using ih

theorem hasKey_iff_mem_keys {d : Dictionary α} {k : String} : d.hasKey k = true ↔ k ∈ d.keys := by
  simp [hasKey_eq]

theorem mem_of_get? {d : Dictionary α} {k : String} {v : α} (h : d.get? k = some v) :
    (k, v) ∈ d := by
  induction d with
  | nil => cases h
  | cons entry rest ih =>
    obtain ⟨key, w⟩ := entry
    rw [get?] at h
    split at h
    next heq =>
      cases h
      exact heq ▸ List.mem_cons_self ..
    next => exact List.mem_cons_of_mem _ (ih h)

/-- Where no key occurs twice, the value of a key is that of its entry. -/
theorem get?_eq_some_iff {d : Dictionary α} (h : d.keys.Nodup) {k : String} {v : α} :
    d.get? k = some v ↔ (k, v) ∈ d := by
  refine ⟨mem_of_get?, fun hmem => ?_⟩
  induction d with
  | nil => cases hmem
  | cons entry rest ih =>
    obtain ⟨key, w⟩ := entry
    obtain ⟨hkey, hrest⟩ := List.nodup_cons.mp h
    rw [get?]
    rcases List.mem_cons.mp hmem with heq | hmem
    · cases heq
      exact if_pos rfl
    · have hne : key ≠ k := by
        rintro rfl
        exact hkey (List.mem_map.mpr ⟨_, hmem, rfl⟩)
      rw [if_neg hne]
      exact ih hrest hmem

theorem get?_mapValues (f : String → α → α) (d : Dictionary α) (k : String) :
    (d.mapValues f).get? k = (d.get? k).map (f k) := by
  induction d with
  | nil => rfl
  | cons entry rest ih =>
    obtain ⟨key, v⟩ := entry
    rw [mapValues, List.map_cons, get?, get?]
    split
    next heq => rw [heq, Option.map_some]
    next => exact ih

theorem get?_reverse {d : Dictionary α} (h : d.keys.Nodup) (k : String) :
    get? d.reverse k = d.get? k := by
  have hreverse : keys d.reverse = d.keys.reverse := List.map_reverse
  refine Option.ext fun v => ?_
  rw [get?_eq_some_iff (hreverse ▸ List.nodup_reverse.mpr h), get?_eq_some_iff h, List.mem_reverse]

/-! ### Order of keys -/

namespace Sorted

variable {d d' : Dictionary α}

theorem nodup_keys (h : d.Sorted) : d.keys.Nodup :=
  List.pairwise_map.mpr (h.imp fun hlt => ne_of_lt hlt)

/-- Two dictionaries with the same values are the same. -/
theorem ext (h : d.Sorted) (h' : d'.Sorted) (heq : ∀ k, d.get? k = d'.get? k) : d = d' := by
  have hmem : ∀ entry, entry ∈ d ↔ entry ∈ d' := fun (k, v) => by
    rw [← get?_eq_some_iff h.nodup_keys, heq, get?_eq_some_iff h'.nodup_keys]
  have hperm : d.Perm d' :=
    (List.perm_ext_iff_of_nodup (h.imp fun hlt heq => by simp [heq] at hlt)
      (h'.imp fun hlt heq => by simp [heq] at hlt)).mpr hmem
  exact hperm.eq_of_pairwise (fun _ _ _ _ hlt hlt' => absurd hlt (lt_asymm hlt')) h h'

theorem insert (h : d.Sorted) (key : String) (v : α) : (d.insert key v).Sorted := by
  induction d with
  | nil => exact List.pairwise_singleton _ _
  | cons first rest ih =>
    obtain ⟨k, w⟩ := first
    obtain ⟨hfirst, hrest⟩ := List.pairwise_cons.mp h
    simp only [Dictionary.insert]
    split
    next hlt =>
      refine List.pairwise_cons.mpr ⟨fun entry hentry => ?_, h⟩
      rcases List.mem_cons.mp hentry with rfl | hentry
      · exact hlt
      · exact lt_trans hlt (hfirst entry hentry)
    next hlt =>
      split
      next heq =>
        subst heq
        exact List.pairwise_cons.mpr ⟨hfirst, hrest⟩
      next hne =>
        refine List.pairwise_cons.mpr ⟨fun entry hentry => ?_, ih hrest⟩
        rcases eq_or_mem_of_mem_insert hentry with rfl | hentry
        · exact lt_of_le_of_ne (not_lt.mp hlt) (Ne.symm hne)
        · exact hfirst entry hentry

/-- To give a key the value that it has changes nothing. -/
theorem insert_eq_self (h : d.Sorted) {key : String} {v : α} (hget : d.get? key = some v) :
    d.insert key v = d := by
  refine (h.insert key v).ext h fun k => ?_
  rw [get?_insert]
  split
  next heq => rw [← heq, hget]
  next => rfl

/-- Of two values that a key is given, the second stays. -/
theorem insert_insert (h : d.Sorted) (key : String) (v w : α) :
    (d.insert key v).insert key w = d.insert key w := by
  refine ((h.insert key v).insert key w).ext (h.insert key w) fun k => ?_
  simp only [get?_insert]
  split <;> rfl

theorem mapValues (h : d.Sorted) (f : String → α → α) : (d.mapValues f).Sorted :=
  List.pairwise_map.mpr h

theorem overwrite (h : d.Sorted) (entries : List (String × α)) : (d.overwrite entries).Sorted :=
  List.foldlRecOn entries _ h fun _ hd entry _ => hd.insert entry.1 entry.2

/-- To overwrite twice with the same entries is to do so once. -/
theorem overwrite_overwrite (h : d.Sorted) (entries : List (String × α)) :
    (d.overwrite entries).overwrite entries = d.overwrite entries := by
  refine ((h.overwrite entries).overwrite entries).ext (h.overwrite entries) fun k => ?_
  rw [get?_overwrite, get?_overwrite, ← Option.or_assoc, Option.or_self]

/-- What has all keys of a dictionary replaces it. -/
theorem overwrite_eq (h : d.Sorted) (h' : d'.Sorted)
    (hkeys : ∀ k, d.hasKey k = true → d'.hasKey k = true) : d.overwrite d' = d' := by
  refine (h.overwrite d').ext h' fun k => ?_
  rw [get?_overwrite, get?_reverse h'.nodup_keys]
  cases hk : d'.get? k with
  | some v => rfl
  | none =>
    cases hk' : d.get? k with
    | none => rfl
    | some v =>
      have := hkeys k (by simp [hasKey, hk'])
      simp [hasKey, hk] at this

end Sorted

end Dictionary

end Dataflow
