import Dataflow.Proofs.Execution.Sweeps
import Dataflow.Proofs.Scheduler.Addressing
import Dataflow.Proofs.Scheduler.Lasting
import Dataflow.Proofs.Scheduler.Launch

/-!
# What lasts at a node from run to run

A graph may be run more than once, under either policy (`Scheduler.Leads`). A property that lasts at
each node (`Node.Lasting`) holds of a node at any time of any of the runs if it held of it at the
beginning (`Leads.node`).
-/

namespace Dataflow

variable {β : Type} [Block β]

namespace Scheduler

/-- The graphs that a scheduler comes to in runs of either policy, between which the settings of a
node may be changed directly. -/
inductive Leads : Scheduler β → Graph β → Prop where
  | rest (s : Scheduler β) : s.Leads s.graph
  | turns {s s₀ s' : Scheduler β} {snapshot : PropertyMap} {hs : List (Handling β)} :
    s.Launches snapshot s₀ → Alternates Steps snapshot s₀ hs s' → s.Leads s'.graph
  | pools {s s₀ : Scheduler β} {snapshot : PropertyMap} (workers : Nat) (client : Client)
    (steps : Nat) : s.Launches snapshot s₀ →
    s.Leads ((Pool.begin s₀ workers client).after snapshot steps).scheduler.graph
  | again {s s' : Scheduler β} {g : Graph β} {parallelism fuel : Nat} {client : Client}
    {result : Except SchedulerError Unit} : s.run parallelism fuel client = some (result, s') →
    s'.Leads g → s.Leads g
  | change {s : Scheduler β} {g : Graph β} (i : Nat) (settings : PropertyMap) :
    (s.exec fun x => x.modifyNode i fun n => (n.apply settings true).node).Leads g → s.Leads g

variable {s : Scheduler β} {g : Graph β} {i : Nat} {n : Node β}

theorem Launches.lasting {I : Graph β → Prop} (hI : Graph.Lasting I) (h : I s.graph)
    {snapshot : PropertyMap} {s₀ : Scheduler β}
    (h₀ : s.Launches snapshot s₀) : I s₀.graph := by
  obtain ⟨s₁, s₂, hprepare, hinit, hmove⟩ := h₀
  have h₁ : I s₁.graph := graph_prepare hprepare ▸ h
  have h₂ := hI.initialise h₁
  rw [hinit] at h₂
  exact (moveTo_spec hmove).2.2.1 ▸ h₂

/-- All blocks have been started when the loop begins. -/
theorem Launches.started {snapshot : PropertyMap} {s₀ : Scheduler β}
    (h₀ : s.Launches snapshot s₀) : s₀.graph.Each fun _ => Node.IsStarted := by
  obtain ⟨s₁, s₂, -, hinit, hmove⟩ := h₀
  rw [(moveTo_spec hmove).2.2.1]
  simp only [initialise] at hinit
  split at hinit
  · cases hinit
  split at hinit
  · cases hinit
  next x hstart =>
    cases hinit
    let y := (s₁.exec fun x => { x with graph := x.graph.bind }).toExecution
    have hy : y.graph.Each fun _ _ => True := fun _ _ _ => trivial
    have hx := Execution.each_startAll (Execution.midway_everyBlock hy) hstart
    exact hx

/-- What lasts at a node lasts in runs and from run to run. -/
theorem Leads.each (h : s.Leads g) {I : Nat → Node β → Prop} (hI : ∀ i, Node.Lasting (I i))
    (hs : s.graph.Each I) : g.Each I := by
  have hlasting := Graph.lasting_each hI
  induction h with
  | rest s => exact hs
  | turns h₀ halternates => exact hlasting.alternates (h₀.lasting hlasting hs) halternates
  | pools workers client steps h₀ =>
    have hbegin : (Pool.begin _ workers client).Holds (Graph.Each I) _ :=
      ⟨h₀.lasting hlasting hs, rfl⟩
    exact (hbegin.after hlasting _ steps).graph
  | again hrun _ ih => exact ih (hlasting.run hs hrun)
  | change i settings _ ih => exact ih (hs.modifyNode fun n hn => (hI i).apply settings (hs i n hn))

theorem Leads.node (h : s.Leads g) {J : Node β → Prop} (hJ : Node.Lasting J) {n' : Node β}
    (hn : s.graph.node? i = some n) (hs : J n) (hn' : g.node? i = some n') : J n' := by
  refine h.each (fun j => hJ.imp (j = i)) ?_ i n' hn' rfl
  rintro j m hm rfl
  cases hm.symm.trans hn
  exact hs

end Scheduler
end Dataflow
