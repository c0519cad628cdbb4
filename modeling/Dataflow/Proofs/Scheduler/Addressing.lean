import Dataflow.Proofs.Registry.UniqueName
import Dataflow.Proofs.Scheduler.Lasting

/-!
# Who answers a message

On one thread a message goes to the first block of its name (`Execution.addressee?`). On several
workers it goes to the worker that owns the last block of the name, and there to the first that this
worker owns (`Pool.addressee?`). Both find a block or neither does, and they find the same one if
and only if the first and the last block of the name belong to one worker
(`Pool.addressee_exact`). So it is as long as no two blocks share a name, as those of one registry
never do; blocks of two registries may.
-/

namespace Dataflow

variable {β : Type}

namespace Execution
variable {x y : Execution β} {name : String}

/-- The block of a group that answers messages to a name. -/
def addressee? (x : Execution β) (group : List Nat) (name : String) : Option Nat :=
  group.find? fun i => x.nameOf i = name

/-- The last block of a name. -/
def lastNamed? (x : Execution β) (name : String) : Option Nat :=
  (x.everyBlock.filter fun i => x.nameOf i = name).getLast?

/-- What a message is answered, and does, depends on the one who answers it. -/
theorem answerFrom_congr [Block β] {group group' : List Nat} {m : Message}
    (h : x.addressee? group m.destination = x.addressee? group' m.destination) :
    x.answerFrom group m = x.answerFrom group' m := by
  unfold addressee? at h
  rw [answerFrom, answerFrom, h]

theorem nameOf_eq (x : Execution β) (i : Nat) : x.nameOf i = (x.names[i]?).getD "" := by
  simp [nameOf, names, Graph.node?]

theorem nameOf_congr (h : x.graph.SameFrame y.graph) : y.nameOf = x.nameOf := by
  funext i
  rw [nameOf_eq, nameOf_eq, show y.names = x.names from h.names]

theorem everyBlock_congr (h : x.graph.SameFrame y.graph) : y.everyBlock = x.everyBlock := by
  rw [everyBlock, everyBlock, h.length_nodes]

theorem nameOf_eq_getElem {i : Nat} (hi : i < x.graph.nodes.length) :
    x.nameOf i = x.graph.nodes[i].uniqueName := by
  rw [nameOf, Graph.node?, List.getElem?_eq_getElem hi]
  rfl

theorem addressee?_everyBlock_eq_some_iff {i : Nat} :
    x.addressee? x.everyBlock name = some i ↔
      i < x.graph.nodes.length ∧ x.nameOf i = name ∧ ∀ j < i, x.nameOf j ≠ name := by
  simp only [addressee?, everyBlock, List.find?_range_eq_some, decide_eq_true_eq, List.mem_range,
    Bool.not_eq_true', decide_eq_false_iff_not]
  exact and_left_comm

/-- Among all blocks, the first of a name answers. -/
theorem addressee?_everyBlock [Block β] (x : Execution β) (name : String) :
    x.addressee? x.everyBlock name = x.graph.find? name := by
  refine Option.ext fun i => ?_
  rw [addressee?_everyBlock_eq_some_iff, Graph.find?, List.findIdx?_eq_some_iff_getElem]
  simp only [decide_eq_true_eq]
  constructor
  · rintro ⟨hi, hname, hfirst⟩
    refine ⟨hi, nameOf_eq_getElem hi ▸ hname, fun j hj => ?_⟩
    rw [← nameOf_eq_getElem (Nat.lt_trans hj hi)]
    exact hfirst j hj
  · rintro ⟨hi, hname, hfirst⟩
    refine ⟨hi, (nameOf_eq_getElem hi).trans hname, fun j hj => ?_⟩
    rw [nameOf_eq_getElem (Nat.lt_trans hj hi)]
    exact hfirst j hj

theorem addressee?_congr [Block β] (h : x.graph.SameFrame y.graph) (name : String) :
    y.addressee? y.everyBlock name = x.graph.find? name := by
  rw [← x.addressee?_everyBlock, addressee?, addressee?, everyBlock_congr h, nameOf_congr h]

theorem lastNamed?_eq_none_iff :
    x.lastNamed? name = none ↔ x.addressee? x.everyBlock name = none := by
  rw [lastNamed?, addressee?, List.getLast?_eq_none_iff, List.filter_eq_nil_iff,
    List.find?_eq_none]

theorem of_lastNamed? {last : Nat} (h : x.lastNamed? name = some last) :
    last < x.graph.nodes.length ∧ x.nameOf last = name := by
  have hmem := List.mem_of_getLast? h
  simpa [everyBlock] using hmem

/-- Names tell blocks apart. -/
theorem eq_of_nameOf (h : x.names.Nodup) {i j : Nat} (hi : i < x.graph.nodes.length)
    (hj : j < x.graph.nodes.length) (heq : x.nameOf i = x.nameOf j) : i = j := by
  rw [nameOf_eq_getElem hi, nameOf_eq_getElem hj] at heq
  have hi' : i < x.names.length := by simpa [names] using hi
  have hj' : j < x.names.length := by simpa [names] using hj
  have hname : x.names[i] = x.names[j] := by simpa [names] using heq
  exact h.getElem_inj_iff.mp hname

end Execution

namespace Pool

/-- The block that answers messages to a name: the first of it that is owned by the worker to which
messages to this name are passed on. -/
def addressee? [Block β] (p : Pool β) (name : String) : Option Nat := do
  let w ← p.workers[← p.owner? name]?
  p.scheduler.addressee? w.group name

/-- The run after some steps. -/
def after [Block β] (p : Pool β) (snapshot : PropertyMap) : Nat → Pool β
  | 0 => p
  | steps + 1 => (p.step snapshot).2.after snapshot steps

theorem mem_group {blocks workers i b : Nat} :
    b ∈ group blocks workers i ↔ b < blocks ∧ b % workers = i := by
  simp [group]

/-- Every block is dealt to one worker. -/
theorem perm_flatMap_group {workers : Nat} (hworkers : 0 < workers) (blocks : Nat) :
    ((List.range workers).flatMap (group blocks workers)).Perm (List.range blocks) := by
  refine (List.perm_ext_iff_of_nodup ?_ List.nodup_range).mpr fun b => ?_
  · refine List.nodup_flatMap.mpr ⟨fun i _ => List.nodup_range.filter _, ?_⟩
    refine List.nodup_range.imp fun {i j} hij b hi hj => hij ?_
    exact (mem_group.mp hi).2.symm.trans (mem_group.mp hj).2
  · simp only [List.mem_flatMap, mem_group, List.mem_range]
    constructor
    · rintro ⟨i, -, hb, -⟩
      exact hb
    · exact fun hb => ⟨b % workers, Nat.mod_lt b hworkers, hb, rfl⟩

/-- The workers of a run that has begun with a scheduler, which it may have changed since but for
the frame of its graph. -/
def Deals [Block β] (s : Scheduler β) (workers : Nat) (p : Pool β) : Prop :=
  p.Holds s.graph.SameFrame ((List.range workers).map (group s.graph.nodes.length workers))

variable [Block β] {s : Scheduler β} {workers : Nat} {p : Pool β} {name : String}

theorem deals_begin (s : Scheduler β) (workers : Nat) (client : Client) :
    (begin s workers client).Deals s workers :=
  ⟨.refl _, by simp [begin, recruit, Function.comp_def]⟩

theorem Holds.after {I : Graph β → Prop} {groups : List (List Nat)} (hI : Graph.Lasting I)
    (h : p.Holds I groups) (snapshot : PropertyMap) (steps : Nat) :
    (p.after snapshot steps).Holds I groups := by
  induction steps generalizing p with
  | zero => exact h
  | succ steps ih => exact ih (h.step hI snapshot)

theorem Deals.after (h : p.Deals s workers) (snapshot : PropertyMap) (steps : Nat) :
    (p.after snapshot steps).Deals s workers :=
  Holds.after (Graph.lasting_sameFrame s.graph) h snapshot steps

theorem Deals.owner?_eq (h : p.Deals s workers) (name : String) :
    p.owner? name = (s.lastNamed? name).map fun last => last % workers := by
  have hlength : p.workers.length = workers := by
    simpa using congrArg List.length h.groups
  have hlast : p.scheduler.lastNamed? name = s.lastNamed? name := by
    rw [Execution.lastNamed?, Execution.everyBlock_congr h.graph, Execution.nameOf_congr h.graph]
    rfl
  show (p.scheduler.lastNamed? name).map (fun i => i % p.workers.length) = _
  rw [hlast, hlength]

theorem Deals.worker (h : p.Deals s workers) {k : Nat} (hk : k < workers) :
    ∃ w, p.workers[k]? = some w ∧ w.group = group s.graph.nodes.length workers k := by
  have hgroups := congrArg (fun groups => groups[k]?) h.groups
  simp only [List.getElem?_map, List.getElem?_range hk, Option.map_some] at hgroups
  exact Option.map_eq_some_iff.mp hgroups

theorem Deals.addressee?_eq (h : p.Deals s workers) (hworkers : 0 < workers) (name : String) :
    p.addressee? name = (s.lastNamed? name).bind fun last =>
      s.everyBlock.find? fun i => i % workers = last % workers ∧ s.nameOf i = name := by
  simp only [addressee?, h.owner?_eq]
  cases s.lastNamed? name with
  | none => rfl
  | some last =>
    obtain ⟨w, hw, hgroup⟩ := h.worker (Nat.mod_lt last hworkers)
    simp only [Option.map_some, Option.bind_eq_bind, Option.bind_some, hw]
    rw [Execution.addressee?, hgroup, group, List.find?_filter, Execution.nameOf_congr h.graph]
    simp only [decide_eq_true_eq]
    rfl

/-- The worker that owns the last block of a name finds one of this name. -/
theorem Deals.addressee?_eq_none_iff (h : p.Deals s workers) (hworkers : 0 < workers)
    (name : String) : p.addressee? name = none ↔ s.graph.find? name = none := by
  rw [h.addressee?_eq hworkers, ← s.addressee?_everyBlock, ← Execution.lastNamed?_eq_none_iff]
  cases hlast : s.lastNamed? name with
  | none => simp
  | some last =>
    obtain ⟨hbound, hname⟩ := Execution.of_lastNamed? hlast
    have hmem : last ∈ s.everyBlock := List.mem_range.mpr hbound
    simp only [Option.bind_some, reduceCtorEq, iff_false, List.find?_eq_none]
    intro hnone
    exact hnone last hmem (by simp [hname])

/-- The first block of a name is found if it belongs to the same worker as the last. -/
theorem Deals.addressee?_eq_first_iff (h : p.Deals s workers) (hworkers : 0 < workers)
    {first last : Nat} (hfirst : s.graph.find? name = some first)
    (hlast : s.lastNamed? name = some last) :
    p.addressee? name = some first ↔ first % workers = last % workers := by
  rw [← s.addressee?_everyBlock, Execution.addressee?_everyBlock_eq_some_iff] at hfirst
  obtain ⟨hbound, hname, hbefore⟩ := hfirst
  rw [h.addressee?_eq hworkers, hlast, Option.bind_some]
  simp only [Execution.everyBlock, List.find?_range_eq_some, decide_eq_true_eq, List.mem_range,
    Bool.not_eq_true', decide_eq_false_iff_not]
  constructor
  · rintro ⟨⟨hsame, -⟩, -⟩
    exact hsame
  · intro hsame
    exact ⟨⟨hsame, hname⟩, hbound, fun j hj hboth => hbefore j hj hboth.2⟩

theorem Deals.addressee?_of_nodup (h : p.Deals s workers) (hworkers : 0 < workers)
    (hnames : s.names.Nodup) (name : String) : p.addressee? name = s.graph.find? name := by
  cases hfirst : s.graph.find? name with
  | none => exact (h.addressee?_eq_none_iff hworkers name).mpr hfirst
  | some first =>
    have hfound := hfirst
    rw [← s.addressee?_everyBlock] at hfound
    obtain ⟨hbound, hname, -⟩ := Execution.addressee?_everyBlock_eq_some_iff.mp hfound
    cases hlast : s.lastNamed? name with
    | none =>
      rw [Execution.lastNamed?_eq_none_iff, hfound] at hlast
      cases hlast
    | some last =>
      obtain ⟨hbound', hname'⟩ := Execution.of_lastNamed? hlast
      have hsame := Execution.eq_of_nameOf hnames hbound hbound' (hname.trans hname'.symm)
      rw [h.addressee?_eq_first_iff hworkers hfirst hlast, hsame]

end Pool

/-- At any time of a run on several workers, the blocks are dealt out to these, each to one. Names
lead to the blocks to which they lead in the graph and in a run on one thread, at any time of that:
the two differ at most in which of several blocks of one name they choose, and this they do if and
only if the first and the last of these belong to different workers. They never do if a single
registry has made all blocks. Where they choose the same block, it gives the same answer. -/
theorem Pool.addressee_exact [Block β] {workers : Nat} (hworkers : 0 < workers) (s : Scheduler β)
    (client : Client) (snapshot : PropertyMap) (steps : Nat) (name : String) :
    let p := (Pool.begin s workers client).after snapshot steps
    (p.workers.flatMap Worker.group).Perm s.everyBlock ∧
      (∀ hs s', Scheduler.Alternates Scheduler.Steps snapshot s hs s' →
        s'.addressee? s'.everyBlock name = s.graph.find? name) ∧
      (p.addressee? name = none ↔ s.graph.find? name = none) ∧
      (∀ first last, s.graph.find? name = some first → s.lastNamed? name = some last →
        (p.addressee? name = s.graph.find? name ↔ first % workers = last % workers)) ∧
      (∀ (r r' : Registry β) (made : List (Node β)), r.Makes made r' →
        s.names.Subperm (made.map Node.uniqueName) →
          p.addressee? name = s.graph.find? name) ∧
      (∀ (m : Message) (k : Nat) (w : Worker), m.destination = name → p.owner? name = some k →
        p.workers[k]? = some w → p.addressee? name = s.graph.find? name →
          p.scheduler.answerFrom w.group m = p.scheduler.answerFrom p.scheduler.everyBlock m) := by
  intro p
  have h : p.Deals s workers := (deals_begin s workers client).after snapshot steps
  refine ⟨?_, fun hs s' hcourse => ?_, h.addressee?_eq_none_iff hworkers name,
    fun first last hfirst hlast => ?_, fun r r' made hmade hnames => ?_,
    fun m k w hm hk hw hsame => ?_⟩
  · have hgroups : p.workers.flatMap Worker.group =
        (List.range workers).flatMap (group s.graph.nodes.length workers) := by
      rw [List.flatMap_def, h.groups, List.flatMap_def]
    rw [hgroups]
    exact perm_flatMap_group hworkers s.graph.nodes.length
  · exact Execution.addressee?_congr
      ((Graph.lasting_sameFrame s.graph).alternates (.refl _) hcourse) name
  · rw [hfirst]
    exact h.addressee?_eq_first_iff hworkers hfirst hlast
  · obtain ⟨names, hperm, hsub⟩ := hnames
    have hnodup : s.names.Nodup :=
      hperm.nodup_iff.mp (hmade.numbers.nodup_uniqueNames.sublist hsub)
    exact h.addressee?_of_nodup hworkers hnodup name
  · subst hm
    have hlocal : p.addressee? m.destination = p.scheduler.addressee? w.group m.destination := by
      simp only [addressee?, hk, Option.bind_eq_bind, Option.bind_some, hw]
    refine Execution.answerFrom_congr ?_
    rw [← hlocal, hsame, Execution.addressee?_congr h.graph]

/-- Two blocks made by different registries under one name. -/
def namesakes : Scheduler Builtin :=
  let block : Builtin := .nullSource (.new (.int .u8))
  let g := ((Graph.empty .default).add .empty "NullSource" "" block).graph
  .new (g.add .empty "NullSource" "" block).graph .default 0

/-- The first of two namesakes is found in the graph and on one thread, the second on two
workers. -/
theorem Pool.addressee_namesakes :
    let p := Pool.begin namesakes 2 .absent
    namesakes.names = ["NullSource#0", "NullSource#0"] ∧
      namesakes.graph.find? "NullSource#0" = some 0 ∧
      namesakes.addressee? namesakes.everyBlock "NullSource#0" = some 0 ∧
      p.owner? "NullSource#0" = some 1 ∧ p.addressee? "NullSource#0" = some 1 := by
  decide

theorem Pool.addressee_exact_namesakes :
    let p := (Pool.begin namesakes 2 .absent).after [] 3
    0 < 2 ∧ (p.workers.flatMap Worker.group).Perm namesakes.everyBlock ∧
      (p.addressee? "NullSource#0" = namesakes.graph.find? "NullSource#0" ↔ 0 % 2 = 1 % 2) := by
  have h := Pool.addressee_exact (by decide : 0 < 2) namesakes .absent [] 3 "NullSource#0"
  exact ⟨by decide, h.1, h.2.2.2.1 0 1 (by decide) (by decide)⟩

end Dataflow
