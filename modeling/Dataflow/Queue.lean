/-!
# Queues

A queue is a list to which elements are added at the end, and from which they are taken at the
front. It holds its elements (`Queue.toList`) in two parts, the later one in reverse, so that both
ends are near, and knows how many they are.
-/

namespace Dataflow

/-- A queue of elements. -/
structure Queue (α : Type) where
  front : List α
  /-- The elements behind those of `front`, the last one first. -/
  back : List α
  length : Nat
  length_eq : length = front.length + back.length

namespace Queue

variable {α : Type}

/-- The elements in order. -/
def toList (q : Queue α) : List α := q.front ++ q.back.reverse

def empty : Queue α := ⟨[], [], 0, rfl⟩

def isEmpty (q : Queue α) : Bool := q.length = 0

/-- Add elements at the end. -/
def append (q : Queue α) (xs : List α) : Queue α where
  front := q.front
  back := xs.reverseAux q.back
  length := q.length + xs.length
  length_eq := by simp [q.length_eq, List.reverseAux_eq]; omega

/-- The first `n` elements. -/
def take (q : Queue α) (n : Nat) : List α :=
  let xs := q.front.take n
  if xs.length = n then xs else q.toList.take n

/-- The queue without its first `n` elements. -/
def drop (q : Queue α) (n : Nat) : Queue α :=
  if h : (q.front.take n).length = n then
    { front := q.front.drop n
      back := q.back
      length := q.length - n
      length_eq := by simp at h; simp [q.length_eq]; omega }
  else
    { front := q.toList.drop n
      back := []
      length := q.length - n
      length_eq := by simp [toList, q.length_eq] }

/-! ### The elements -/

@[simp] theorem length_toList (q : Queue α) : q.toList.length = q.length := by
  simp [toList, q.length_eq]

@[simp] theorem toList_empty : (empty : Queue α).toList = [] := rfl

@[simp] theorem isEmpty_toList (q : Queue α) : q.toList.isEmpty = q.isEmpty := by
  rw [isEmpty, ← length_toList, Bool.eq_iff_iff]
  simp only [List.isEmpty_iff, decide_eq_true_eq, List.length_eq_zero_iff]

@[simp] theorem toList_append (q : Queue α) (xs : List α) :
    (q.append xs).toList = q.toList ++ xs := by
  simp [toList, append, List.reverseAux_eq]

@[simp] theorem take_eq (q : Queue α) (n : Nat) : q.take n = q.toList.take n := by
  simp only [take]
  split
  next h =>
    have hn : n ≤ q.front.length := by simp at h; omega
    simp [toList, List.take_append_of_le_length hn]
  next => rfl

@[simp] theorem toList_drop (q : Queue α) (n : Nat) : (q.drop n).toList = q.toList.drop n := by
  simp only [drop]
  split
  next h =>
    have hn : n ≤ q.front.length := by simp at h; omega
    simp [toList, List.drop_append_of_le_length hn]
  next => simp [toList]

/-! ### In parts -/

theorem append_append (q : Queue α) (xs ys : List α) :
    (q.append xs).append ys = q.append (xs ++ ys) := by
  simp [append, List.reverseAux_eq, Nat.add_assoc]

theorem drop_of_le {q : Queue α} {n : Nat} (h : n ≤ q.front.length) :
    (q.drop n).front = q.front.drop n ∧ (q.drop n).back = q.back := by
  simp [drop, Nat.min_eq_left h]

theorem drop_of_gt {q : Queue α} {n : Nat} (h : q.front.length < n) :
    (q.drop n).front = q.toList.drop n ∧ (q.drop n).back = [] := by
  have hn : ¬ (q.front.take n).length = n := by
    rw [List.length_take]
    omega
  rw [drop, dif_neg hn]
  exact ⟨rfl, rfl⟩

theorem drop_of_back {q : Queue α} (h : q.back = []) (n : Nat) :
    (q.drop n).front = q.toList.drop n ∧ (q.drop n).back = [] := by
  by_cases hn : n ≤ q.front.length
  · obtain ⟨hfront, hback⟩ := drop_of_le hn
    exact ⟨by rw [hfront, toList, h, List.reverse_nil, List.append_nil], hback.trans h⟩
  · exact drop_of_gt (Nat.not_le.mp hn)

theorem eq_of_parts {q r : Queue α} (hfront : q.front = r.front) (hback : q.back = r.back) :
    q = r := by
  have hlength : q.length = r.length := by rw [q.length_eq, r.length_eq, hfront, hback]
  cases q
  cases r
  cases hfront
  cases hback
  cases hlength
  rfl

theorem drop_drop (q : Queue α) (m n : Nat) : (q.drop m).drop n = q.drop (m + n) := by
  by_cases hm : m ≤ q.front.length
  · obtain ⟨hfront, hback⟩ := drop_of_le hm
    by_cases hn : m + n ≤ q.front.length
    · obtain ⟨hfront', hback'⟩ := drop_of_le hn
      have hle : n ≤ (q.drop m).front.length := by
        rw [hfront, List.length_drop]
        omega
      obtain ⟨hfront'', hback''⟩ := drop_of_le hle
      refine eq_of_parts ?_ ?_
      · rw [hfront'', hfront', hfront, List.drop_drop]
      · rw [hback'', hback', hback]
    · obtain ⟨hfront', hback'⟩ := drop_of_gt (Nat.not_le.mp hn)
      have hgt : (q.drop m).front.length < n := by
        rw [hfront, List.length_drop]
        omega
      obtain ⟨hfront'', hback''⟩ := drop_of_gt hgt
      refine eq_of_parts ?_ (hback''.trans hback'.symm)
      rw [hfront'', hfront', toList_drop, List.drop_drop]
  · obtain ⟨-, hback⟩ := drop_of_gt (Nat.not_le.mp hm)
    obtain ⟨hfront', hback'⟩ := drop_of_gt (q := q) (n := m + n) (by omega)
    obtain ⟨hfront'', hback''⟩ := drop_of_back hback n
    refine eq_of_parts ?_ (hback''.trans hback'.symm)
    rw [hfront'', hfront', toList_drop, List.drop_drop]

end Queue

end Dataflow
