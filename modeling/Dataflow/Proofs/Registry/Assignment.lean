import Dataflow.Proofs.Registry.UniqueName

/-!
# The numbers that a registry gives

A registry names a node before the node's first settings are made, so a node whose settings are
refused has a name too, though nobody gets it: the nodes that a registry hands out (`Makes`) say
less than the names that it has given. `Registry.assigned` lists the nodes of a history of calls
as they are named, refused ones among them. `Registry.Tally` is what the registry keeps of them,
for each instantiated name how many there were. So the number of a node is the count of the nodes
of its name before it, and no two names are equal (`assigned_exact`).
-/

namespace Dataflow

namespace Registry

/-- A call on a registry by which it learns of a block or names a node. -/
inductive Operation (β : Type) where
  | add (typeName parameterization : String) (block : β)
  | create (typeName parameterization : String) (settings : PropertyMap)
  | wrap (typeName parameterization : String) (block : β)

variable {β : Type} [Block β]

/-- The node that a block is put into, as it is before any setting is made. -/
def fresh (r : Registry β) (typeName parameterization : String) (block : β) : Node β :=
  Node.new typeName parameterization block
    (r.nextSequence (instantiatedName typeName parameterization))

namespace Operation

/-- What a call answers, a node if it is one that makes nodes, and the registry after it. -/
def perform (r : Registry β) : Operation β →
    Except RegistryError (Option (Node β)) × Registry β
  | add typeName parameterization block =>
    match r.add typeName parameterization block with
    | .ok r' => (.ok none, r')
    | .error e => (.error e, r)
  | create typeName parameterization settings =>
    let c := r.create typeName parameterization settings
    (c.result.map some, c.registry)
  | wrap typeName parameterization block =>
    let c := r.wrap typeName parameterization block []
    (c.result.map some, c.registry)

/-- The node that a call names. -/
def assigned? (r : Registry β) : Operation β → Option (Node β)
  | add .. => none
  | create typeName parameterization _ =>
    ((r.entries typeName).get? parameterization).map (r.fresh typeName parameterization)
  | wrap typeName parameterization block => some (r.fresh typeName parameterization block)

end Operation

/-- A registry after calls. -/
def after (r : Registry β) : List (Operation β) → Registry β
  | [] => r
  | op :: ops => (op.perform r).2.after ops

/-- The nodes that calls name, in order. -/
def assigned (r : Registry β) : List (Operation β) → List (Node β)
  | [] => []
  | op :: ops => (op.assigned? r).toList ++ (op.perform r).2.assigned ops

variable {r : Registry β} {ns : List (Node β)} {op : Operation β}

theorem assigned_concat (r : Registry β) (ops : List (Operation β)) (op : Operation β) :
    r.assigned (ops ++ [op]) = r.assigned ops ++ (op.assigned? (r.after ops)).toList := by
  induction ops generalizing r with
  | nil => exact List.append_nil _
  | cons op' ops ih => simp only [List.cons_append, assigned, after, ih, List.append_assoc]

/-! ### One call -/

/-- Settings are made on the node that has been named, and the name counts in any case. -/
theorem wrap_eq (r : Registry β) (typeName parameterization : String) (block : β)
    (settings : PropertyMap) :
    r.wrap typeName parameterization block settings =
      let n := r.fresh typeName parameterization block
      let u := n.initialise settings
      ⟨match u.result with
        | .ok () => .ok u.node
        | .error e => .error (.settings e), r.countNode n.typeName, u.log⟩ :=
  rfl

theorem create_of_known {typeName parameterization : String} {block : β}
    (h : (r.entries typeName).get? parameterization = some block) (settings : PropertyMap) :
    r.create typeName parameterization settings =
      r.wrap typeName parameterization block settings := by
  simp only [create, h]

theorem create_of_unknown {typeName parameterization : String}
    (h : (r.entries typeName).get? parameterization = none) (settings : PropertyMap) :
    r.create typeName parameterization settings =
      ⟨.error (.unknownBlock typeName parameterization), r, []⟩ := by
  simp only [create, h]

theorem result_wrap_ne_unknownBlock (r : Registry β) (typeName parameterization : String)
    (block : β) (settings : PropertyMap) (typeName' parameterization' : String) :
    (r.wrap typeName parameterization block settings).result ≠
      .error (.unknownBlock typeName' parameterization') := by
  rw [wrap_eq]
  dsimp only
  split <;> simp

/-- A node that is handed out keeps the name under which it was made. -/
theorem uniqueName_of_result_wrap {typeName parameterization : String} {block : β}
    {settings : PropertyMap} {n : Node β}
    (h : (r.wrap typeName parameterization block settings).result = .ok n) :
    n.uniqueName = (r.fresh typeName parameterization block).uniqueName := by
  have hn : n ∈ (r.wrap typeName parameterization block settings).made := by
    simp only [Creation.made, h, Except.toOption, Option.toList_some, List.mem_singleton]
  obtain ⟨htype, hsequence⟩ := identity_wrap hn
  exact Node.uniqueName_inj.mpr ⟨htype, hsequence⟩

omit [Block β] in
theorem map_some_eq_ok {x : Except RegistryError (Node β)} {n : Node β}
    (h : x.map some = .ok (some n)) : x = .ok n := by
  cases x with
  | ok m => cases h; rfl
  | error e => cases h

omit [Block β] in
theorem map_some_eq_error {x : Except RegistryError (Node β)} {e : RegistryError} :
    x.map some = .error e ↔ x = .error e := by
  cases x <;> simp [Except.map]

/-- A call names no node if it adds a block or asks for one that is not known, and no other. -/
theorem Operation.assigned?_eq_none_iff :
    op.assigned? r = none ↔
      (∃ typeName parameterization block, op = .add typeName parameterization block) ∨
        ∃ typeName parameterization,
          (op.perform r).1 = .error (.unknownBlock typeName parameterization) := by
  rcases op with ⟨typeName, parameterization, block⟩ | ⟨typeName, parameterization, settings⟩ |
    ⟨typeName, parameterization, block⟩
  · exact iff_of_true rfl (.inl ⟨_, _, _, rfl⟩)
  · rcases hentry : (r.entries typeName).get? parameterization with _ | block
    · refine iff_of_true (by rw [assigned?, hentry]; rfl) (.inr ⟨typeName, parameterization, ?_⟩)
      rw [perform, create_of_unknown hentry]
      rfl
    · simp [assigned?, perform, hentry, create_of_known hentry, map_some_eq_error,
        result_wrap_ne_unknownBlock]
  · simp [assigned?, perform, map_some_eq_error, result_wrap_ne_unknownBlock]

theorem Operation.uniqueName_of_perform {n : Node β}
    (h : (op.perform r).1 = .ok (some n)) :
    ∃ m, op.assigned? r = some m ∧ n.uniqueName = m.uniqueName := by
  rcases op with ⟨typeName, parameterization, block⟩ | ⟨typeName, parameterization, settings⟩ |
    ⟨typeName, parameterization, block⟩
  · simp only [perform] at h
    split at h <;> cases h
  · have hresult := map_some_eq_ok h
    rcases hentry : (r.entries typeName).get? parameterization with _ | block
    · rw [create_of_unknown hentry] at hresult
      cases hresult
    · rw [create_of_known hentry] at hresult
      exact ⟨_, by rw [assigned?, hentry]; rfl, uniqueName_of_result_wrap hresult⟩
  · exact ⟨_, rfl, uniqueName_of_result_wrap (map_some_eq_ok h)⟩

/-- Numbers change by the node that is named, and by nothing else. -/
theorem Operation.nextSequence_perform (r : Registry β) (op : Operation β) (name : String) :
    (op.perform r).2.nextSequence name = r.nextSequence name +
      (op.assigned? r).toList.countP fun n => n.typeName = name := by
  have hwrap : ∀ typeName parameterization block settings,
      (r.wrap typeName parameterization block settings).registry.nextSequence name =
        r.nextSequence name +
          [r.fresh typeName parameterization block].countP fun n => n.typeName = name := by
    intro typeName parameterization block settings
    rw [wrap_eq, nextSequence_countNode, List.countP_singleton]
    by_cases hname : (r.fresh typeName parameterization block).typeName = name
    · simp [hname]
    · simp [hname]
  rcases op with ⟨typeName, parameterization, block⟩ | ⟨typeName, parameterization, settings⟩ |
    ⟨typeName, parameterization, block⟩
  · simp only [perform, Registry.add]
    by_cases hkey : (r.entries typeName).hasKey parameterization
    · rw [if_pos hkey]
      rfl
    · rw [if_neg hkey]
      rfl
  · simp only [perform, assigned?]
    rcases hentry : (r.entries typeName).get? parameterization with _ | block
    · rw [create_of_unknown hentry]
      rfl
    · rw [create_of_known hentry]
      exact hwrap typeName parameterization block settings
  · exact hwrap typeName parameterization block []

theorem Operation.sequence_of_assigned? {n : Node β} (h : op.assigned? r = some n) :
    n.sequence = r.nextSequence n.typeName := by
  rcases op with ⟨typeName, parameterization, block⟩ | ⟨typeName, parameterization, settings⟩ |
    ⟨typeName, parameterization, block⟩
  · cases h
  · obtain ⟨block, _, rfl⟩ := Option.map_eq_some_iff.mp h
    rfl
  · cases h
    rfl

/-! ### A history of calls -/

/-- The registry counts the nodes named so far, and each of them has the count that its name had
before it. -/
structure Tally (r : Registry β) (ns : List (Node β)) : Prop where
  next : ∀ name, r.nextSequence name = ns.countP fun n => n.typeName = name
  index : ∀ before n after, ns = before ++ n :: after →
    n.sequence = before.countP fun m => m.typeName = n.typeName

namespace Tally

theorem perform (h : r.Tally ns) (op : Operation β) :
    (op.perform r).2.Tally (ns ++ (op.assigned? r).toList) := by
  constructor
  · intro name
    rw [op.nextSequence_perform, h.next, List.countP_append]
  · intro before n after hsplit
    rcases List.eq_nil_or_concat after with rfl | ⟨after, last, rfl⟩
    · -- `n` is the last of all: it was named by this call, or this call names no node
      rcases hnew : op.assigned? r with _ | m
      · exact h.index before n [] (by simpa [hnew] using hsplit)
      · rw [hnew] at hsplit
        obtain ⟨rfl, hlast⟩ := List.append_inj' hsplit rfl
        cases hlast
        rw [op.sequence_of_assigned? hnew, h.next]
    · rcases hnew : op.assigned? r with _ | m
      · exact h.index before n (after ++ [last]) (by simpa [hnew] using hsplit)
      · rw [hnew, List.concat_eq_append, ← List.cons_append, ← List.append_assoc] at hsplit
        obtain ⟨rfl, _⟩ := List.append_inj' hsplit rfl
        exact h.index before n after rfl

theorem run (h : r.Tally ns) (ops : List (Operation β)) :
    (r.after ops).Tally (ns ++ r.assigned ops) := by
  induction ops generalizing r ns with
  | nil => rwa [assigned, List.append_nil]
  | cons op ops ih =>
    rw [assigned, ← List.append_assoc]
    exact ih (h.perform op)

omit [Block β] in
theorem numbers (h : r.Tally ns) : r.Numbers ns := by
  constructor
  · intro n hn
    obtain ⟨before, after, rfl⟩ := List.append_of_mem hn
    rw [h.next, h.index before n after rfl, List.countP_append, List.countP_cons_of_pos (by simp)]
    omega
  · refine List.pairwise_iff_getElem.mpr fun i j hi hj hij htype hsequence => ?_
    have hsplit : ∀ k (hk : k < ns.length), ns = ns.take k ++ ns[k] :: ns.drop (k + 1) :=
      fun k hk => by rw [List.getElem_cons_drop, List.take_append_drop]
    have hcount : ((ns.take i ++ [ns[i]]).countP fun n => n.typeName = ns[j].typeName) ≤
        (ns.take j).countP fun n => n.typeName = ns[j].typeName := by
      rw [List.take_append_getElem]
      exact (List.take_prefix_take_left (by omega)).sublist.countP_le
    rw [h.index _ _ _ (hsplit i hi), h.index _ _ _ (hsplit j hj), htype] at hsequence
    rw [List.countP_append, List.countP_singleton, if_pos (by simpa using htype)] at hcount
    omega

end Tally

/-- Whatever calls are made on a registry, all names that it gives are different, and the number in
each is the count of the nodes named before it under the same instantiated name. A call names
one node, whether or not the settings of this are then accepted, unless it adds a block or fails
since no such block is known; and a node that it hands out has the name that was given. -/
theorem assigned_exact (ops : List (Operation β)) :
    (((empty : Registry β).assigned ops).map Node.uniqueName).Nodup ∧
      (∀ before n after, (empty : Registry β).assigned ops = before ++ n :: after →
        n.uniqueName = s!"{n.typeName}#{before.countP fun m => m.typeName = n.typeName}") ∧
      ∀ op : Operation β, let r := empty.after ops
        empty.assigned (ops ++ [op]) = empty.assigned ops ++ (op.assigned? r).toList ∧
          (op.assigned? r = none ↔
            (∃ typeName parameterization block, op = .add typeName parameterization block) ∨
              ∃ typeName parameterization,
                (op.perform r).1 = .error (.unknownBlock typeName parameterization)) ∧
          ∀ n, (op.perform r).1 = .ok (some n) →
            ∃ m, op.assigned? r = some m ∧ n.uniqueName = m.uniqueName := by
  have hempty : (empty : Registry β).Tally [] :=
    ⟨fun _ => rfl, fun before n after h => by simp at h⟩
  have h : ((empty : Registry β).after ops).Tally (empty.assigned ops) := hempty.run ops
  refine ⟨h.numbers.nodup_uniqueNames, fun before n after hsplit => ?_, fun op =>
    ⟨assigned_concat _ ops op, Operation.assigned?_eq_none_iff, fun n hn =>
      Operation.uniqueName_of_perform hn⟩⟩
  rw [Node.uniqueName, h.index before n after hsplit]

/-- Of three nodes of one instantiated name, which two pairs of names have, the second is refused
for its settings. -/
theorem assigned_exact_refused :
    let block : Builtin := .head (.new (.int .u8))
    let ops : List (Operation Builtin) :=
      [.wrap "Tap<u8>" "" block, .add "Tap" "u8" block,
        .create "Tap" "u8" [("num_items", .string "many")], .create "Tap" "i8" [],
        .create "Tap" "u8" []]
    let first := Node.new "Tap<u8>" "" block 0
    let second := Node.new "Tap" "u8" block 1
    let third := Node.new "Tap" "u8" block 2
    empty.assigned ops = [first, second] ++ third :: [] ∧
      (∃ e, (Operation.perform (empty.after (ops.take 2)) ops[2]).1 = .error (.settings e)) ∧
      third.uniqueName =
        s!"{third.typeName}#{[first, second].countP fun m => m.typeName = third.typeName}" ∧
      third.uniqueName = "Tap<u8>#2" := by
  intro block ops first second third
  have hops : empty.assigned ops = [first, second] ++ third :: [] := rfl
  exact ⟨hops, ⟨_, rfl⟩, (assigned_exact ops).2.1 _ _ _ hops, by decide⟩

end Registry
end Dataflow
