import Dataflow.Proofs.Dictionary
import Dataflow.Registry
import Mathlib.Data.List.Basic

/-!
# Unique names

A unique name tells the instantiated name of a node and its number (`Node.uniqueName_inj`), since
a number has no `#` in it. A registry never gives a number twice under one instantiated name
(`Registry.Numbers`), so no two nodes that it makes have one unique name
(`Numbers.nodup_uniqueNames`).
-/

namespace Dataflow

/-- Lists that are equal are split alike at the last of a symbol. -/
theorem eq_of_append_cons {α : Type} {a : α} {xs ys zs ws : List α} (hzs : a ∉ zs) (hws : a ∉ ws)
    (h : xs ++ a :: zs = ys ++ a :: ws) : xs = ys ∧ zs = ws := by
  have hrev : zs.reverse ++ a :: xs.reverse = ws.reverse ++ a :: ys.reverse := by
    simpa using congrArg List.reverse h
  have hsplit : ∀ {us vs us' vs' : List α}, a ∉ us → a ∉ us' →
      us ++ a :: vs = us' ++ a :: vs' → us = us' ∧ vs = vs' := by
    intro us vs us' vs' hus hus' heq
    induction us generalizing us' with
    | nil =>
      cases us' with
      | nil => exact ⟨rfl, (List.cons.inj heq).2⟩
      | cons u us' => exact absurd ((List.cons.inj heq).1 ▸ List.mem_cons_self ..) hus'
    | cons u us ih =>
      cases us' with
      | nil => exact absurd ((List.cons.inj heq).1 ▸ List.mem_cons_self ..) hus
      | cons u' us' =>
        obtain ⟨rfl, htail⟩ := List.cons.inj heq
        obtain ⟨rfl, rfl⟩ := ih (fun hm => hus (List.mem_cons_of_mem _ hm))
          (fun hm => hus' (List.mem_cons_of_mem _ hm)) htail
        exact ⟨rfl, rfl⟩
  obtain ⟨hzs, hxs⟩ := hsplit (by simpa using hzs) (by simpa using hws) hrev
  exact ⟨List.reverse_injective hxs, List.reverse_injective hzs⟩

namespace Node

variable {β : Type} {n m : Node β}

theorem toList_uniqueName (n : Node β) :
    n.uniqueName.toList = n.typeName.toList ++ '#' :: Nat.toDigits 10 n.sequence := by
  show (n.typeName ++ "#" ++ toString n.sequence).toList = _
  simp only [String.toList_append, Nat.toString_eq_ofList_toDigits, String.toList_ofList,
    List.append_assoc]
  rfl

theorem uniqueName_inj :
    n.uniqueName = m.uniqueName ↔ n.typeName = m.typeName ∧ n.sequence = m.sequence := by
  have hdigits : ∀ k, '#' ∉ Nat.toDigits 10 k := fun k h => by
    cases Nat.isDigit_of_mem_toDigits (by decide) (by decide) h
  constructor
  · intro h
    have hlist := congrArg String.toList h
    rw [toList_uniqueName, toList_uniqueName] at hlist
    obtain ⟨htype, hsequence⟩ := eq_of_append_cons (hdigits _) (hdigits _) hlist
    have hnumber := congrArg (fun ds => Nat.ofDigitChars 10 ds 0) hsequence
    exact ⟨String.toList_injective htype, by simpa using hnumber⟩
  · rintro ⟨htype, hsequence⟩
    rw [uniqueName, uniqueName, htype, hsequence]

theorem identity_apply [Block β] (n : Node β) (settings : PropertyMap) (isRunning : Bool) :
    (n.apply settings isRunning).node.typeName = n.typeName ∧
      (n.apply settings isRunning).node.sequence = n.sequence := by
  simp only [apply]
  split
  · exact ⟨rfl, rfl⟩
  · split <;> exact ⟨rfl, rfl⟩

end Node

variable {β : Type}

namespace Registry
variable {r r' r'' : Registry β} {ns : List (Node β)}

theorem nextSequence_countNode (r : Registry β) (name name' : String) :
    (r.countNode name).nextSequence name' =
      if name = name' then r.nextSequence name + 1 else r.nextSequence name' := by
  simp only [nextSequence, countNode, Dictionary.get?_insert]
  split <;> rfl

/-- The nodes that a creation has made, which are one or none. -/
def Creation.made (c : Creation β) : List (Node β) := c.result.toOption.toList

/-- Nodes have numbers that the registry has given, and no two under one instantiated name have
the same. -/
structure Numbers (r : Registry β) (ns : List (Node β)) : Prop where
  given : ∀ n ∈ ns, n.sequence < r.nextSequence n.typeName
  distinct : ns.Pairwise fun n m => n.typeName = m.typeName → n.sequence ≠ m.sequence

theorem Numbers.learn (h : r.Numbers ns) {typeName parameterization : String} {block : β}
    (hadd : r.add typeName parameterization block = .ok r') : r'.Numbers ns := by
  simp only [add] at hadd
  split at hadd
  · cases hadd
  · cases hadd
    exact ⟨h.given, h.distinct⟩

theorem Numbers.nodup_uniqueNames (h : r.Numbers ns) : (ns.map Node.uniqueName).Nodup := by
  refine List.pairwise_map.mpr (h.distinct.imp fun hne heq => ?_)
  obtain ⟨htype, hsequence⟩ := Node.uniqueName_inj.mp heq
  exact hne htype hsequence

variable [Block β]

/-- A registry becomes another one by learning of blocks and by making nodes, of which these are
all, in order. -/
inductive Makes (r : Registry β) : List (Node β) → Registry β → Prop where
  | refl : Makes r [] r
  | learn {ns : List (Node β)} {r' r'' : Registry β} {typeName parameterization : String}
      {block : β} : Makes r ns r' → r'.add typeName parameterization block = .ok r'' →
      Makes r ns r''
  | create {ns : List (Node β)} {r' : Registry β} (typeName parameterization : String)
      (settings : PropertyMap) : Makes r ns r' →
      Makes r (ns ++ (r'.create typeName parameterization settings).made)
        (r'.create typeName parameterization settings).registry
  | wrap {ns : List (Node β)} {r' : Registry β} (typeName parameterization : String) (block : β)
      (settings : PropertyMap) : Makes r ns r' →
      Makes r (ns ++ (r'.wrap typeName parameterization block settings).made)
        (r'.wrap typeName parameterization block settings).registry

theorem identity_wrap {typeName parameterization : String} {block : β} {settings : PropertyMap}
    {n : Node β} (h : n ∈ (r.wrap typeName parameterization block settings).made) :
    n.typeName = instantiatedName typeName parameterization ∧
      n.sequence = r.nextSequence (instantiatedName typeName parameterization) := by
  let new := Node.new typeName parameterization block
    (r.nextSequence (instantiatedName typeName parameterization))
  have hn : n = (new.initialise settings).node := by
    simp only [Creation.made, wrap] at h
    split at h
    · exact List.mem_singleton.mp h
    · cases h
  rw [hn, Node.initialise]
  split <;> exact new.identity_apply settings false

namespace Numbers

theorem wrap (h : r.Numbers ns) (typeName parameterization : String) (block : β)
    (settings : PropertyMap) :
    (r.wrap typeName parameterization block settings).registry.Numbers
      (ns ++ (r.wrap typeName parameterization block settings).made) := by
  let name := instantiatedName typeName parameterization
  have hnext : ∀ name', (r.wrap typeName parameterization block settings).registry.nextSequence
      name' = if name = name' then r.nextSequence name + 1 else r.nextSequence name' :=
    nextSequence_countNode r name
  constructor
  · intro n hn
    rw [hnext]
    rcases List.mem_append.mp hn with hn | hn
    · have := h.given n hn
      split
      next heq =>
        rw [heq]
        omega
      next => exact this
    · obtain ⟨htype, hsequence⟩ := identity_wrap hn
      rw [if_pos htype.symm, hsequence]
      exact Nat.lt_succ_self _
  · refine List.pairwise_append.mpr ⟨h.distinct, ?_, fun n hn m hm htype => ?_⟩
    · -- at most one node is made
      simp only [Creation.made]
      cases (r.wrap typeName parameterization block settings).result.toOption <;> simp
    · obtain ⟨htype', hsequence⟩ := identity_wrap hm
      have := h.given n hn
      rw [htype, htype', ← hsequence] at this
      omega

theorem create (h : r.Numbers ns) (typeName parameterization : String) (settings : PropertyMap) :
    (r.create typeName parameterization settings).registry.Numbers
      (ns ++ (r.create typeName parameterization settings).made) := by
  simp only [Registry.create]
  split
  · have hnone : Creation.made (β := β)
        ⟨.error (.unknownBlock typeName parameterization), r, []⟩ = [] := rfl
    rw [hnone, List.append_nil]
    exact h
  · exact h.wrap typeName parameterization _ settings

end Numbers

theorem Makes.numbers (h : r.Makes ns r') : r'.Numbers ns := by
  induction h with
  | refl => exact ⟨by simp, .nil⟩
  | learn _ hadd ih => exact ih.learn hadd
  | create typeName parameterization settings _ ih =>
    exact ih.create typeName parameterization settings
  | wrap typeName parameterization block settings _ ih =>
    exact ih.wrap typeName parameterization block settings

end Registry
end Dataflow
