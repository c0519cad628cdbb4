import Dataflow.Tag
import Mathlib.Data.List.Basic

/-!
# The order of tags

`Tag.precedes` orders tags by index alone, so sorting has to be stable for tags of one index to
stay as they were. Stability is said per index: the tags `on k` of a sorted list are those of the
list itself, in the same order (`Tag.on_mergeSort`, `Tag.on_merge`).
-/

namespace Dataflow
namespace Tag

/-- The tags of index `k`, in order. -/
def on (k : Int) (ts : List Tag) : List Tag := ts.filter fun t => decide (t.index = k)

/-- No tag comes before one of a smaller index. -/
def Ordered (ts : List Tag) : Prop := ts.Pairwise fun t u => t.index ≤ u.index

@[simp] theorem shift_index (t : Tag) (d : Int) : (t.shift d).index = t.index + d := rfl

@[simp] theorem shift_shift (t : Tag) (d e : Int) : (t.shift d).shift e = t.shift (d + e) := by
  simp [shift, Int.add_assoc]

@[simp] theorem shift_zero (t : Tag) : t.shift 0 = t := by simp [shift]

theorem shift_neg_shift (t : Tag) (d : Int) : (t.shift (-d)).shift d = t := by
  rw [shift_shift, Int.add_left_neg, shift_zero]

theorem precedes_iff {t u : Tag} : precedes t u = true ↔ t.index ≤ u.index := by simp [precedes]

theorem precedes_trans (t u v : Tag) (h : precedes t u) (h' : precedes u v) : precedes t v := by
  rw [precedes_iff] at *; omega

theorem precedes_total (t u : Tag) : (precedes t u || precedes u t) = true := by
  simp only [Bool.or_eq_true, precedes_iff]; omega

/-! ### Tags of one index -/

@[simp] theorem on_nil (k : Int) : on k [] = [] := rfl

@[simp] theorem on_append (k : Int) (ts us : List Tag) : on k (ts ++ us) = on k ts ++ on k us := by
  simp [on]

theorem on_cons (k : Int) (t : Tag) (ts : List Tag) :
    on k (t :: ts) = if t.index = k then t :: on k ts else on k ts := by
  by_cases h : t.index = k <;> simp [on, h]

theorem on_eq_nil {k : Int} {ts : List Tag} (h : ∀ t ∈ ts, t.index ≠ k) : on k ts = [] :=
  List.filter_eq_nil_iff.mpr fun t ht => by simpa using h t ht

theorem ordered_on (k : Int) (ts : List Tag) : (on k ts).Pairwise fun t u => precedes t u := by
  refine List.pairwise_of_forall_mem_list fun t ht u hu => ?_
  have ht : t.index = k := by simpa [on] using (List.mem_filter.mp ht).2
  have hu : u.index = k := by simpa [on] using (List.mem_filter.mp hu).2
  rw [precedes_iff]; omega

/-- Tags of one index pass a test on the index all or none. -/
theorem on_filter (k : Int) (p : Int → Bool) (ts : List Tag) :
    on k (ts.filter fun t => p t.index) = if p k then on k ts else [] := by
  induction ts with
  | nil => simp
  | cons t ts ih =>
    by_cases hp : p t.index <;> by_cases hk : t.index = k
    · subst hk; simp only [hp, if_true] at ih; simp [hp, on_cons, ih]
    · simp [hp, on_cons, hk, ih]
    · subst hk; simp only [hp] at ih; simp [hp, ih]
    · simp [hp, on_cons, hk, ih]

/-! ### Sorting -/

theorem ordered_mergeSort (ts : List Tag) : Ordered (ts.mergeSort precedes) := by
  have h := List.pairwise_mergeSort precedes_trans precedes_total ts
  exact h.imp fun h => precedes_iff.mp h

theorem mergeSort_of_ordered {ts : List Tag} (h : Ordered ts) : ts.mergeSort precedes = ts :=
  List.mergeSort_of_pairwise (h.imp fun h => precedes_iff.mpr h)

/-- Sorting keeps the tags of one index in their order. -/
@[simp] theorem on_mergeSort (k : Int) (ts : List Tag) :
    on k (ts.mergeSort precedes) = on k ts := by
  have hsub : (on k ts).Sublist (ts.mergeSort precedes) :=
    List.sublist_mergeSort precedes_trans precedes_total (ordered_on k ts) List.filter_sublist
  have hkeep : on k (on k ts) = on k ts := by simp [on]
  have hlen : (on k (ts.mergeSort precedes)).length = (on k ts).length :=
    ((List.mergeSort_perm ts precedes).filter _).length_eq
  have h : (on k (on k ts)).Sublist (on k (ts.mergeSort precedes)) := hsub.filter _
  rw [hkeep] at h
  exact (h.eq_of_length hlen.symm).symm

theorem ordered_merge {ts us : List Tag} (ht : Ordered ts) (hu : Ordered us) :
    Ordered (ts.merge us precedes) := by
  have h := List.pairwise_merge precedes_trans precedes_total ts us
    (ht.imp fun h => precedes_iff.mpr h) (hu.imp fun h => precedes_iff.mpr h)
  exact h.imp fun h => precedes_iff.mp h

/-- In a merged list, the tags of one index from the first list come before those from the
second. -/
theorem on_merge (k : Int) {ts us : List Tag} (ht : Ordered ts) :
    on k (ts.merge us precedes) = on k ts ++ on k us := by
  induction ts generalizing us with
  | nil => simp
  | cons t ts iht =>
    induction us with
    | nil => simp
    | cons u us ihu =>
      obtain ⟨hle, hts⟩ := List.pairwise_cons.mp ht
      by_cases h : precedes t u = true
      · rw [List.cons_merge_cons_pos _ _ _ h, on_cons, iht hts, on_cons k t ts]
        split <;> rfl
      · rw [List.cons_merge_cons_neg _ _ _ h, on_cons, ihu, on_cons k u us]
        split
        next hk =>
          -- `u` is placed first because every tag of the first list has a greater index
          have hlt : u.index < t.index := by rw [precedes_iff] at h; omega
          have hnil : on k (t :: ts) = [] := on_eq_nil fun v hv => by
            rcases List.mem_cons.mp hv with rfl | hv
            · omega
            · have := hle v hv; omega
          simp [hnil]
        next => rfl

/-! ### Lists that are the same -/

/-- An ordered list is known from its tags of each index. -/
theorem Ordered.ext {ts us : List Tag} (ht : Ordered ts) (hu : Ordered us)
    (h : ∀ k, on k ts = on k us) : ts = us := by
  have hmem : ∀ t, t ∈ ts ↔ t ∈ us := fun t => by
    have := congrArg (t ∈ ·) (h t.index)
    simpa [on] using this
  induction ts generalizing us with
  | nil =>
    cases us with
    | nil => rfl
    | cons u us => exact absurd ((hmem u).mpr List.mem_cons_self) List.not_mem_nil
  | cons t ts ih =>
    cases us with
    | nil => exact absurd ((hmem t).mp List.mem_cons_self) List.not_mem_nil
    | cons u us =>
      obtain ⟨hle, hts⟩ := List.pairwise_cons.mp ht
      obtain ⟨hle', hus⟩ := List.pairwise_cons.mp hu
      -- neither of the first two tags has a smaller index than the other, so they are of one index
      have htu : t.index ≤ u.index := by
        rcases List.mem_cons.mp ((hmem u).mpr List.mem_cons_self) with rfl | hmem
        · exact Int.le_refl _
        · exact hle u hmem
      have hut : u.index ≤ t.index := by
        rcases List.mem_cons.mp ((hmem t).mp List.mem_cons_self) with rfl | hmem
        · exact Int.le_refl _
        · exact hle' t hmem
      have hindex : u.index = t.index := Int.le_antisymm hut htu
      have hfirst := h t.index
      rw [on_cons, on_cons, if_pos rfl, if_pos hindex, List.cons.injEq] at hfirst
      obtain ⟨rfl, -⟩ := hfirst
      have htail : ∀ k, on k ts = on k us := fun k => by
        have hk := h k
        rw [on_cons, on_cons] at hk
        split at hk
        · exact (List.cons.inj hk).2
        · exact hk
      rw [ih hts hus htail fun v => by
        have := congrArg (v ∈ ·) (htail v.index)
        simpa [on] using this]

/-- Tags that come later are merged behind the others either way. -/
theorem merge_mergeSort_append {ts : List Tag} (ht : Ordered ts) (us vs : List Tag) :
    ts.merge ((us ++ vs).mergeSort precedes) precedes =
      (ts.merge (us.mergeSort precedes) precedes).merge (vs.mergeSort precedes) precedes := by
  have hfirst := ordered_merge ht (ordered_mergeSort us)
  refine (ordered_merge ht (ordered_mergeSort _)).ext
    (ordered_merge hfirst (ordered_mergeSort vs)) fun k => ?_
  rw [on_merge k ht, on_merge k hfirst, on_merge k ht]
  simp

/-- Tags below an index come before the others. -/
theorem mergeSort_split (k : Int) (ts : List Tag) : ts.mergeSort precedes =
    (ts.filter fun t => decide (t.index < k)).mergeSort precedes ++
      (ts.filter fun t => !decide (t.index < k)).mergeSort precedes := by
  refine (ordered_mergeSort ts).ext ?_ fun j => ?_
  · refine List.pairwise_append.mpr ⟨ordered_mergeSort _, ordered_mergeSort _, fun t ht u hu => ?_⟩
    simp only [List.mem_mergeSort, List.mem_filter, decide_eq_true_eq, Bool.not_eq_true',
      decide_eq_false_iff_not] at ht hu
    omega
  · rw [on_append, on_mergeSort, on_mergeSort, on_mergeSort, on_filter j fun i => decide (i < k),
      on_filter j fun i => !decide (i < k)]
    by_cases hj : j < k <;> simp [hj]

end Tag
end Dataflow
