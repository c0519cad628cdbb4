import Dataflow.Graph

/-!
# Connecting ports

When two ports may be connected (`Graph.MayConnect`), and that connecting them succeeds just then
and adds the one connection between them (`Graph.connect_eq_ok_iff`).
-/

namespace Dataflow

namespace Graph

variable {β : Type} [Block β] {g g' : Graph β} {source target : Nat}
  {sourcePort targetPort : PortRef} {bufferSize : Option Nat}

/-- Two references mean an output and an input of one type, of which the input is free, the output
may feed one more input, and the type may be carried by connections. -/
structure MayConnect (g : Graph β) (source : Nat) (sourcePort : PortRef) (target : Nat)
    (targetPort : PortRef) (i j : Nat) (type : SampleType) : Prop where
  output : ∃ n p, g.node? source = some n ∧ sourcePort.resolve n.outputs = some i ∧
    n.outputs[i]? = some p ∧ p.type = type
  input : ∃ n p, g.node? target = some n ∧ targetPort.resolve n.inputs = some j ∧
    n.inputs[j]? = some p ∧ p.type = type
  free : ∀ c ∈ g.connections, c.target ≠ ⟨target, j⟩
  room : g.fanOut ⟨source, i⟩ < g.config.maxFanOut
  registered : type ∈ SampleType.registered

theorem newConnection_eq_ok_iff {c : Connection} :
    g.newConnection source sourcePort target targetPort bufferSize = .ok c ↔
      ∃ i j type, g.MayConnect source sourcePort target targetPort i j type ∧
        c = ⟨⟨source, i⟩, ⟨target, j⟩, bufferSize, type, none⟩ := by
  constructor
  · intro hc
    simp only [newConnection] at hc
    split at hc
    · cases hc
    · cases hc
    next n m hn hm =>
      split at hc
      · cases hc
      · cases hc
      next i j hi hj =>
        split at hc
        next output input houtput hinput =>
          split at hc
          · cases hc
          next hsame =>
            split at hc
            · cases hc
            next hfree =>
              split at hc
              · cases hc
              next hroom =>
                split at hc
                next hregistered =>
                  cases hc
                  have hsame : input.type = output.type := (Decidable.not_not.mp hsame).symm
                  refine ⟨i, j, output.type, ⟨⟨n, output, hn, hi, houtput, rfl⟩,
                    ⟨m, input, hm, hj, hinput, hsame⟩, fun d hd => ?_, Nat.not_le.mp hroom,
                    hregistered⟩, rfl⟩
                  simpa using List.find?_eq_none.mp hfree d hd
                next => cases hc
        · cases hc
        · cases hc
  · rintro ⟨i, j, type, h, rfl⟩
    obtain ⟨n, output, hn, hi, houtput, rfl⟩ := h.output
    obtain ⟨m, input, hm, hj, hinput, hsame⟩ := h.input
    have hfree : (g.connections.find? fun c => decide (c.target = ⟨target, j⟩)) = none :=
      List.find?_eq_none.mpr fun c hc => by simpa using h.free c hc
    have hroom : ¬ g.config.maxFanOut ≤ g.fanOut ⟨source, i⟩ := Nat.not_le.mpr h.room
    simp [newConnection, hn, hm, hi, hj, houtput, hinput, hsame, hfree, hroom, h.registered]

/-- Connecting two ports succeeds if and only if they may be connected, and adds the connection
between them. -/
theorem connect_eq_ok_iff :
    g.connect source sourcePort target targetPort bufferSize = .ok g' ↔
      ∃ i j type, g.MayConnect source sourcePort target targetPort i j type ∧
        g' = { g with connections :=
          g.connections ++ [⟨⟨source, i⟩, ⟨target, j⟩, bufferSize, type, none⟩] } := by
  rw [connect]
  split
  next e he =>
    simp only [reduceCtorEq, false_iff]
    rintro ⟨i, j, type, h, -⟩
    cases he.symm.trans (newConnection_eq_ok_iff.mpr ⟨i, j, type, h, rfl⟩)
  next c hc =>
    rw [Except.ok.injEq]
    constructor
    · rintro rfl
      obtain ⟨i, j, type, h, rfl⟩ := newConnection_eq_ok_iff.mp hc
      exact ⟨i, j, type, h, rfl⟩
    · rintro ⟨i, j, type, h, rfl⟩
      cases hc.symm.trans (newConnection_eq_ok_iff.mpr ⟨i, j, type, h, rfl⟩)
      rfl

end Graph
end Dataflow
