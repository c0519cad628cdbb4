import Dataflow.Graph.Inspect
import Dataflow.Proofs.Flow.Preservation

/-!
# Orderly graphs

A graph is orderly if each of its inputs is connected and no sample carries more than one tag
(`Graph.Orderly`). Then no invocation fails (`Execution.Invoked.ne_failed`): a chunk for which
there is room has no more tags than samples, and a writer only counts on as much room as there is
for both.
-/

namespace Dataflow

/-- No sample carries more than one tag. -/
def Signal.Sparse (S : Signal) : Prop := ∀ k, (S.tagsAt k).length ≤ 1

/-- No sample of a vector source carries more than one tag. -/
def Builtin.HasSparseTags : Builtin → Prop
  | vectorSource b =>
    ∀ i < b.data.length, (b.tags.filter fun t => decide (t.index = (i : Int))).length ≤ 1
  | _ => True

namespace Signal.Sparse

variable {S : Signal} {a n : Nat}

theorem length_tags_le (h : S.Sparse) : (S.tags a n).length ≤ n := by
  induction n generalizing a with
  | zero => exact Nat.le_refl 0
  | succ n ih =>
    have hrest : (S.tags (a + 1) n).length ≤ n := ih
    have hfirst := h a
    rw [Nat.add_comm n 1, tags_append, List.length_append]
    have hone : (S.tags a 1).length = (S.tagsAt a).length := by simp [tags]
    omega

theorem length_chunk_tags_le (h : S.Sparse) : (S.chunk a n).tags.length ≤ n := by
  rw [chunk, List.length_map]
  exact h.length_tags_le

theorem empty : Signal.empty.Sparse := fun _ => Nat.zero_le 1

theorem signal {b : Builtin} (hb : b.HasSparseTags) (h : S.Sparse) : (b.signal S).Sparse := by
  intro k
  cases b with
  | nullSource => exact Nat.zero_le 1
  | nullSink | vectorSink => exact Nat.zero_le 1
  | vectorSource b =>
    simp only [tagsAt, Builtin.signal, VectorSource.signal]
    generalize (if b.repeating = true then k % b.data.length else k) = i
    cases hx : b.data[i]? with
    | none => exact Nat.zero_le 1
    | some x =>
      obtain ⟨hi, -⟩ := List.getElem?_eq_some_iff.mp hx
      simp only [Option.map_some, Option.getD_some, List.length_map]
      exact hb i hi
  | head b =>
    have hk := h k
    simp only [tagsAt, Builtin.signal, upTo] at hk ⊢
    split
    · exact hk
    · exact Nat.zero_le 1
  | copy => exact h k
  | tagGate =>
    simp only [tagsAt, Builtin.signal, untagged]
    cases S k <;> exact Nat.zero_le 1

end Signal.Sparse

namespace Graph

variable {g : Graph Builtin} {S : Nat → Signal} {i : Nat} {n : Node Builtin}

/-- A graph whose inputs are connected, with signals of which no sample carries two tags. -/
structure Orderly (g : Graph Builtin) (S : Nat → Signal) : Prop extends g.Signals S where
  fed : ∀ i n, g.node? i = some n → n.block.hasInput = true → ∃ j, g.upstream? i = some j
  sparse : ∀ i n, g.node? i = some n → (S i).Sparse

/-- In a valid graph every input is connected. -/
theorem Sound.fed (hs : g.Sound) (hvalid : g.validate = .ok ()) (hn : g.node? i = some n)
    (hin : n.block.hasInput = true) : ∃ j, g.upstream? i = some j := by
  have hports := hs.ports n (List.mem_of_getElem? hn)
  have hnone : g.unfedInput? i n = none := validate_eq_ok_iff.mp hvalid i n hn
  rw [unfedInput?, hports.1, Builtin.inputs_eq, if_pos hin, Option.map_eq_none_iff,
    List.find?_eq_none] at hnone
  have hfed := hnone (.input "in" n.block.sampleType 0, 0) (by simp)
  simp only [PortSchema.input, Bool.not_false, Bool.true_and, Bool.not_eq_true',
    Bool.not_eq_false, isFed, List.any_eq_true, decide_eq_true_eq] at hfed
  obtain ⟨c, hc, ht⟩ := hfed
  have hup := hs.upstream?_eq hc
  rw [ht] at hup
  exact ⟨_, hup⟩

theorem Signals.sparse (h : g.Signals S)
    (htags : ∀ i n, g.node? i = some n → n.block.HasSparseTags) (hn : g.node? i = some n) :
    (S i).Sparse := by
  induction i using (h.acyclic.wellFounded h.sound).induction generalizing n with
  | _ i ih =>
    rw [h.solves i n hn]
    refine Signal.Sparse.signal (htags i n hn) ?_
    rw [inputSignal]
    cases hup : g.upstream? i with
    | none => exact Signal.Sparse.empty
    | some j =>
      have hf := feeds_of_upstream? hup
      exact ih j hf (List.getElem?_eq_getElem (h.sound.feeds_lt hf).1)

end Graph

namespace Execution

variable {g : Graph Builtin} {S : Nat → Signal} {p p' : Nat → Nat} {x y : Execution Builtin}
  {i : Nat} {n : Node Builtin}

/-- In an orderly graph every input has a stream. -/
theorem Carried.exists_feed (h : Carried g S p x) (ho : g.Orderly S)
    (hn : x.graph.node? i = some n) (hin : n.block.hasInput = true) :
    ∃ s, x.graph.feed? i = some s := by
  obtain ⟨m, hm, hform⟩ := h.alike.node? hn
  have hin' : m.block.hasInput = true := by
    rw [← Builtin.hasInput_form, ← hform, Builtin.hasInput_form, hin]
  obtain ⟨j, hup⟩ := ho.fed i m hm hin'
  obtain ⟨c, hc, -, rfl⟩ := (h.alike.symm ho.sound).feeds (Graph.feeds_of_upstream? hup)
  obtain ⟨s, hs, -⟩ := h.streams c hc
  exact ⟨s, (h.sound ho.toSignals).feed?_eq hc hs rfl⟩

theorem Worked.ne_failed {b : Builtin} {connections : List Connection} {m : Nat} {e : WorkError}
    (h : Ready g S p x i n) (ho : g.Orderly S) :
    ¬ Worked g S p x i n.block (.failed e) b connections m := by
  intro hw
  cases hw with
  | unfed hin hfeed =>
    obtain ⟨s, hs⟩ := h.toCarried.exists_feed ho h.node hin
    cases hfeed.symm.trans hs
  | overfull hform hout hr hs hsl hle hfull =>
    obtain ⟨k, hk, -⟩ := h.alike.node? h.node
    exact absurd (Nat.lt_of_le_of_lt hle hfull)
      (Nat.not_lt.mpr (ho.sparse i k hk).length_chunk_tags_le)

theorem Invoked.ne_failed (ho : g.Orderly S) {r : Invocation} (hi : Invoked g S p x i r y p')
    (e : WorkError) : r ≠ .failed e := by
  cases hi with
  | rests | deserted | ends => exact fun h => nomatch h
  | goesOn => split <;> exact fun h => nomatch h
  | fails _ hready hw => exact absurd hw (Worked.ne_failed hready ho)

theorem Invoked.ne_crashed {r : Invocation} (hi : Invoked g S p x i r y p') : r ≠ .crashed := by
  cases hi with
  | goesOn => split <;> exact fun h => nomatch h
  | _ => exact fun h => nomatch h

end Execution
end Dataflow
