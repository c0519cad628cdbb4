import Dataflow.Proofs.Graph.Built

/-!
# Construction of graphs

A graph is constructed by any sequence of operations, each of which may fail (`Graph.Operation`,
`Graph.construct`). One that fails leaves the graph as it was, and one that connects two ports adds
their connection and nothing else. So a constructed graph is well-formed (`Graph.WellFormed`): its
connections link ports that exist, each to each at most once on the side of the input, and as often
as its configuration allows on the side of the output (`Graph.construct_exact`).
-/

namespace Dataflow

/-- An operation by which a graph is constructed. -/
inductive Graph.Operation (β : Type) where
  /-- Put a node that was made elsewhere into the graph. -/
  | insert (n : Node β)
  | emplace (r : Registry β) (typeName parameterization : String) (settings : PropertyMap)
  | add (r : Registry β) (typeName parameterization : String) (block : β)
  | connect (source : Nat) (sourcePort : PortRef) (target : Nat) (targetPort : PortRef)
    (bufferSize : Option Nat)

namespace Graph

/-- A graph in which later operations may rely on all connections. -/
structure WellFormed {β : Type} (g : Graph β) : Prop extends Wired g where
  fanOut : ∀ source, g.fanOut source ≤ g.config.maxFanOut
  registered : ∀ c ∈ g.connections, c.type ∈ SampleType.registered

variable {β : Type} [Block β] {g g' : Graph β}

/-- Perform an operation. -/
def perform (g : Graph β) : Operation β → Except GraphError Unit × Graph β
  | .insert n => (.ok (), g.insert n)
  | .emplace r typeName parameterization settings =>
    let grown := g.emplace r typeName parameterization settings
    (grown.result.map fun _ => (), grown.graph)
  | .add r typeName parameterization block =>
    let grown := g.add r typeName parameterization block
    (grown.result.map fun _ => (), grown.graph)
  | .connect source sourcePort target targetPort bufferSize =>
    match g.connect source sourcePort target targetPort bufferSize with
    | .ok g' => (.ok (), g')
    | .error e => (.error (.connection e), g)

/-- Perform operations one after the other, whether or not they succeed. -/
def construct (g : Graph β) (operations : List (Operation β)) : Graph β :=
  operations.foldl (fun g operation => (g.perform operation).2) g

/-! ### Single operations -/

theorem perform_connect_eq_ok_iff {source target : Nat} {sourcePort targetPort : PortRef}
    {bufferSize : Option Nat} :
    g.perform (.connect source sourcePort target targetPort bufferSize) = (.ok (), g') ↔
      ∃ i j type, g.MayConnect source sourcePort target targetPort i j type ∧
        g' = { g with connections :=
          g.connections ++ [⟨⟨source, i⟩, ⟨target, j⟩, bufferSize, type, none⟩] } := by
  refine Iff.trans ?_ connect_eq_ok_iff
  rw [perform]
  cases g.connect source sourcePort target targetPort bufferSize <;> simp

omit [Block β] in
/-- Growing by a node that could not be made changes nothing. -/
theorem grow_of_error {made : Registry.Creation β} {e : GraphError}
    (h : (g.grow made).result = .error e) : (g.grow made).graph = g := by
  simp only [grow] at h ⊢
  split at h
  · rfl
  · cases h

theorem perform_of_error {operation : Operation β} {e : GraphError}
    (h : (g.perform operation).1 = .error e) : (g.perform operation).2 = g := by
  have hgrown : ∀ {result : Except GraphError Nat}, result.map (fun _ => ()) = .error e →
      result = .error e := fun {result} h => by
    cases result <;> cases h
    rfl
  cases operation with
  | insert => cases h
  | emplace => exact grow_of_error (hgrown h)
  | add => exact grow_of_error (hgrown h)
  | connect source sourcePort target targetPort bufferSize =>
    rw [perform] at h ⊢
    split at h
    · cases h
    · rfl

theorem config_perform (g : Graph β) (operation : Operation β) :
    (g.perform operation).2.config = g.config := by
  have hgrow : ∀ made : Registry.Creation β, (g.grow made).graph.config = g.config := fun made => by
    simp only [grow]
    split <;> rfl
  cases operation with
  | insert => rfl
  | emplace => exact hgrow _
  | add => exact hgrow _
  | connect source sourcePort target targetPort bufferSize =>
    rw [perform]
    split
    next h =>
      obtain ⟨i, j, type, -, rfl⟩ := connect_eq_ok_iff.mp h
      rfl
    next => rfl

namespace WellFormed

omit [Block β] in
theorem empty (config : GraphConfig) : (Graph.empty config : Graph β).WellFormed :=
  ⟨⟨by simp [Graph.empty], .nil⟩, fun _ => Nat.zero_le _, by simp [Graph.empty]⟩

omit [Block β] in
theorem insert (h : g.WellFormed) (n : Node β) : (g.insert n).WellFormed :=
  ⟨h.toWired.insert n, h.fanOut, h.registered⟩

omit [Block β] in
theorem grow (h : g.WellFormed) (made : Registry.Creation β) : (g.grow made).graph.WellFormed := by
  simp only [Graph.grow]
  split
  · exact h
  · exact h.insert _

theorem connect (h : g.WellFormed) {source target : Nat} {sourcePort targetPort : PortRef}
    {bufferSize : Option Nat}
    (hc : g.connect source sourcePort target targetPort bufferSize = .ok g') : g'.WellFormed := by
  have hwired := h.toWired.connect hc
  obtain ⟨i, j, type, hmay, rfl⟩ := connect_eq_ok_iff.mp hc
  refine ⟨hwired, fun out => ?_, fun c hc => ?_⟩
  · rw [Graph.fanOut, List.countP_append, List.countP_singleton]
    split
    next hout =>
      rw [← of_decide_eq_true hout]
      exact hmay.room
    next => exact h.fanOut out
  · rcases List.mem_append.mp hc with hc | hc
    · exact h.registered c hc
    · cases List.mem_singleton.mp hc
      exact hmay.registered

theorem perform (h : g.WellFormed) (operation : Operation β) :
    (g.perform operation).2.WellFormed := by
  cases operation with
  | insert n => exact h.insert n
  | emplace => exact h.grow _
  | add => exact h.grow _
  | connect source sourcePort target targetPort bufferSize =>
    rw [Graph.perform]
    split
    next hc => exact h.connect hc
    next => exact h

end WellFormed

/-! ### Whole constructions -/

theorem config_construct (g : Graph β) (operations : List (Operation β)) :
    (g.construct operations).config = g.config := by
  induction operations generalizing g with
  | nil => rfl
  | cons operation rest ih => exact (ih _).trans (config_perform g operation)

theorem WellFormed.construct (h : g.WellFormed) (operations : List (Operation β)) :
    (g.construct operations).WellFormed := by
  induction operations generalizing g with
  | nil => exact h
  | cons operation rest ih => exact ih (h.perform operation)

/-- Whatever operations a graph has been constructed by, it is well-formed, an operation on it that
fails leaves it as it is, and connecting two ports succeeds if and only if they may be connected, in
which case it adds the connection between them and changes nothing else. -/
theorem construct_exact (config : GraphConfig) (operations : List (Operation β)) :
    let g := (Graph.empty config).construct operations
    g.config = config ∧ g.WellFormed ∧
      (∀ operation e, (g.perform operation).1 = .error e → (g.perform operation).2 = g) ∧
      ∀ source sourcePort target targetPort bufferSize g',
        g.perform (.connect source sourcePort target targetPort bufferSize) = (.ok (), g') ↔
          ∃ i j type, g.MayConnect source sourcePort target targetPort i j type ∧
            g' = { g with connections :=
              g.connections ++ [⟨⟨source, i⟩, ⟨target, j⟩, bufferSize, type, none⟩] } :=
  ⟨config_construct _ operations, (WellFormed.empty config).construct operations,
    fun _ _ => perform_of_error, fun _ _ _ _ _ _ => perform_connect_eq_ok_iff⟩

end Graph
end Dataflow
