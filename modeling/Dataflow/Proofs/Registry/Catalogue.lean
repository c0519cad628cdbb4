import Dataflow.Proofs.Registry.Assignment

/-!
# What a registry lists

A registry keeps its blocks in a dictionary of dictionaries, which is asked in four ways: for the
type names that have blocks, for all type names, for the parameterizations of one, and for a pair
of both. The answers agree only as long as no type name stands there without a parameterization,
which a lookup of a pair cannot tell. `Registry.Catalogued` says so, and that names are in strict
order; each call keeps it, also if an addition makes room for its type name before it finds that
the pair is taken (`Registry.addInParts`). What a registry lists then follows from the additions
that were made: under each pair stands the block that was offered first, whatever was asked for in
between (`catalogue_exact`).
-/

namespace Dataflow

namespace Registry

variable {β : Type}

/-- Type names are in strict order, and each has parameterizations, in strict order too. -/
structure Catalogued (r : Registry β) : Prop where
  sorted : r.blocks.Sorted
  entry : ∀ typeName known, (typeName, known) ∈ r.blocks → known.Sorted ∧ known ≠ []

/-- Make room for the parameterizations of a type name. -/
def reserve (r : Registry β) (typeName : String) : Registry β :=
  { r with blocks := r.blocks.insert typeName (r.entries typeName) }

/-- Make a block known, room for its type name being made before the parameterization is looked
up. -/
def addInParts (r : Registry β) (typeName parameterization : String) (block : β) :
    Except RegistryError Unit × Registry β :=
  let reserved := r.reserve typeName
  if reserved.isKnown typeName parameterization then
    (.error (.duplicateBlock typeName parameterization), reserved)
  else
    let known := (reserved.entries typeName).insert parameterization block
    (.ok (), { reserved with blocks := reserved.blocks.insert typeName known })

/-- The block that a call offers to have under a pair. -/
def Operation.offers? (typeName parameterization : String) : Operation β → Option β
  | add typeName' parameterization' block =>
    if typeName' = typeName ∧ parameterization' = parameterization then some block else none
  | create .. => none
  | wrap .. => none

variable {r : Registry β}

/-! ### One registry -/

theorem entries_insert (r : Registry β) (typeName : String) (known : Dictionary β)
    (typeName' : String) :
    entries { r with blocks := r.blocks.insert typeName known } typeName' =
      if typeName = typeName' then known else r.entries typeName' := by
  simp only [entries, Dictionary.get?_insert]
  split <;> rfl

/-- A new entry of one pair changes the block of this pair only. -/
theorem get?_entries_insert (r : Registry β) (typeName parameterization : String) (block : β)
    (typeName' parameterization' : String) :
    (entries { r with
        blocks := r.blocks.insert typeName ((r.entries typeName).insert parameterization block) }
      typeName').get? parameterization' =
      if typeName = typeName' ∧ parameterization = parameterization' then some block
      else (r.entries typeName').get? parameterization' := by
  rw [entries_insert]
  by_cases htype : typeName = typeName'
  · subst htype
    rw [if_pos rfl, Dictionary.get?_insert]
    simp
  · simp [htype]

theorem mem_parameterizations_iff {typeName parameterization : String} :
    parameterization ∈ r.parameterizations typeName ↔
      r.isKnown typeName parameterization = true :=
  Dictionary.hasKey_iff_mem_keys.symm

theorem isKnown_iff {typeName parameterization : String} :
    r.isKnown typeName parameterization = true ↔
      ∃ block, (r.entries typeName).get? parameterization = some block :=
  Option.isSome_iff_exists

theorem add_of_known {typeName parameterization : String}
    (h : r.isKnown typeName parameterization = true) (block : β) :
    r.add typeName parameterization block =
      .error (.duplicateBlock typeName parameterization) :=
  if_pos h

theorem add_of_unknown {typeName parameterization : String}
    (h : r.isKnown typeName parameterization = false) (block : β) :
    r.add typeName parameterization block = .ok { r with
      blocks := r.blocks.insert typeName ((r.entries typeName).insert parameterization block) } :=
  if_neg (Bool.eq_false_iff.mp h)

/-- A pair is known if a node can be asked for by it; whether the settings are accepted is
another question. -/
theorem isKnown_iff_create [Block β] {typeName parameterization : String}
    (settings : PropertyMap) :
    r.isKnown typeName parameterization = true ↔
      (r.create typeName parameterization settings).result ≠
        .error (.unknownBlock typeName parameterization) := by
  rw [isKnown_iff]
  rcases hentry : (r.entries typeName).get? parameterization with _ | block
  · simp [create_of_unknown hentry]
  · simp [create_of_known hentry, result_wrap_ne_unknownBlock]

namespace Catalogued

theorem empty : (empty : Registry β).Catalogued :=
  ⟨List.Pairwise.nil, fun _ _ h => by cases h⟩

theorem sorted_entries (h : r.Catalogued) (typeName : String) : (r.entries typeName).Sorted := by
  rw [entries]
  rcases hget : r.blocks.get? typeName with _ | known
  · exact List.Pairwise.nil
  · exact (h.entry _ _ (Dictionary.mem_of_get? hget)).1

theorem insert (h : r.Catalogued) (typeName : String) {known : Dictionary β}
    (hsorted : known.Sorted) (hknown : known ≠ []) :
    Catalogued { r with blocks := r.blocks.insert typeName known } := by
  refine ⟨h.sorted.insert typeName known, fun typeName' known' hmem => ?_⟩
  rcases Dictionary.eq_or_mem_of_mem_insert hmem with heq | hmem
  · cases heq
    exact ⟨hsorted, hknown⟩
  · exact h.entry _ _ hmem

/-- Room is made for a type name only where it has no parameterization yet, so that an addition
which is then refused leaves none without one. -/
theorem addInParts (h : r.Catalogued) (typeName parameterization : String) (block : β) :
    r.addInParts typeName parameterization block =
      match r.add typeName parameterization block with
      | .ok r' => (.ok (), r')
      | .error e => (.error e, r) := by
  have hentries : (r.reserve typeName).entries typeName = r.entries typeName := by
    rw [reserve, entries_insert, if_pos rfl]
  have hisKnown : (r.reserve typeName).isKnown typeName parameterization =
      r.isKnown typeName parameterization := by
    rw [isKnown, hentries, isKnown]
  simp only [Registry.addInParts, hisKnown, hentries]
  cases hknown : r.isKnown typeName parameterization with
  | true =>
    -- the type name has a parameterization, so it has its entry too
    obtain ⟨known, hget⟩ : ∃ known, r.blocks.get? typeName = some known := by
      refine Option.ne_none_iff_exists'.mp fun hnone => ?_
      simp [isKnown, entries, hnone, Dictionary.hasKey, Dictionary.get?] at hknown
    have hreserve : r.reserve typeName = r := by
      rw [reserve, h.sorted.insert_eq_self (by rw [entries, hget]; rfl)]
    rw [if_pos rfl, add_of_known hknown, hreserve]
  | false =>
    rw [if_neg Bool.false_ne_true, add_of_unknown hknown]
    simp only [reserve, h.sorted.insert_insert]

theorem providedBlocks_eq (h : r.Catalogued) : r.providedBlocks = r.knownBlocks := by
  rw [providedBlocks, List.filter_eq_self.mpr, knownBlocks]
  intro entry hmem
  simpa using (h.entry entry.1 entry.2 hmem).2

theorem mem_knownBlocks_iff (h : r.Catalogued) {typeName : String} :
    typeName ∈ r.knownBlocks ↔ r.parameterizations typeName ≠ [] := by
  rw [knownBlocks, ← Dictionary.hasKey_iff_mem_keys, Dictionary.hasKey, parameterizations, entries]
  rcases hget : r.blocks.get? typeName with _ | known
  · simp [Dictionary.keys]
  · simpa [Dictionary.keys] using (h.entry _ _ (Dictionary.mem_of_get? hget)).2

end Catalogued

/-! ### A history of calls -/

variable [Block β]

theorem after_eq_foldl (r : Registry β) (ops : List (Operation β)) :
    r.after ops = ops.foldl (fun r op => (op.perform r).2) r := by
  induction ops generalizing r with
  | nil => rfl
  | cons op ops ih => exact ih _

theorem blocks_create (r : Registry β) (typeName parameterization : String)
    (settings : PropertyMap) :
    (r.create typeName parameterization settings).registry.blocks = r.blocks := by
  rw [create]
  split <;> rfl

/-- A block comes to stand under a pair if it is offered for it, and if none stands there. -/
theorem Operation.get?_perform (r : Registry β) (op : Operation β)
    (typeName parameterization : String) :
    ((op.perform r).2.entries typeName).get? parameterization =
      ((r.entries typeName).get? parameterization).or
        (op.offers? typeName parameterization) := by
  rcases op with ⟨typeName', parameterization', block⟩ | ⟨typeName', parameterization', settings⟩ |
    ⟨typeName', parameterization', block⟩
  · rcases hknown : r.isKnown typeName' parameterization' with _ | _
    · simp only [perform, add_of_unknown hknown, offers?, get?_entries_insert]
      split
      next heq =>
        obtain ⟨rfl, rfl⟩ := heq
        have hnone : (r.entries typeName').get? parameterization' = none :=
          Option.isNone_iff_eq_none.mp (Option.isSome_eq_false_iff.mp hknown)
        rw [hnone, Option.none_or]
      next => exact (Option.or_none).symm
    · simp only [perform, add_of_known hknown, offers?]
      split
      next heq =>
        obtain ⟨rfl, rfl⟩ := heq
        obtain ⟨first, hfirst⟩ := isKnown_iff.mp hknown
        rw [hfirst, Option.some_or]
      next => rw [Option.or_none]
  · simp only [perform, entries, blocks_create, offers?, Option.or_none]
  · exact (Option.or_none).symm

theorem Catalogued.perform (h : r.Catalogued) (op : Operation β) : (op.perform r).2.Catalogued := by
  rcases op with ⟨typeName, parameterization, block⟩ | ⟨typeName, parameterization, settings⟩ |
    ⟨typeName, parameterization, block⟩
  · rcases hknown : r.isKnown typeName parameterization with _ | _
    · simpa only [Operation.perform, add_of_unknown hknown] using
        h.insert typeName ((h.sorted_entries typeName).insert parameterization block)
          (Dictionary.insert_ne_nil _ _ _)
    · simpa only [Operation.perform, add_of_known hknown] using h
  · have heq := blocks_create r typeName parameterization settings
    exact ⟨heq ▸ h.sorted, heq ▸ h.entry⟩
  · exact ⟨h.sorted, h.entry⟩

theorem Catalogued.run (h : r.Catalogued) (ops : List (Operation β)) :
    (r.after ops).Catalogued := by
  induction ops generalizing r with
  | nil => exact h
  | cons op ops ih => exact ih (h.perform op)

/-- A registry after calls of which the additions are made in parts. -/
def afterInParts (r : Registry β) : List (Operation β) → Registry β
  | [] => r
  | .add typeName parameterization block :: ops =>
    (r.addInParts typeName parameterization block).2.afterInParts ops
  | op :: ops => (op.perform r).2.afterInParts ops

theorem Catalogued.afterInParts (h : r.Catalogued) (ops : List (Operation β)) :
    r.afterInParts ops = r.after ops := by
  induction ops generalizing r with
  | nil => rfl
  | cons op ops ih =>
    rcases op with ⟨typeName, parameterization, block⟩ | _ | _
    · have hadd : (r.addInParts typeName parameterization block).2 =
          ((Operation.add typeName parameterization block).perform r).2 := by
        rw [h.addInParts, Operation.perform]
        cases r.add typeName parameterization block <;> rfl
      rw [Registry.afterInParts, hadd, ih (h.perform _), after]
    · exact ih (h.perform _)
    · exact ih (h.perform _)

/-- Of the blocks that are offered for a pair, the first stays. -/
theorem get?_after (r : Registry β) (ops : List (Operation β))
    (typeName parameterization : String) :
    ((r.after ops).entries typeName).get? parameterization =
      ((r.entries typeName).get? parameterization).or
        (ops.findSome? fun op => op.offers? typeName parameterization) := by
  induction ops generalizing r with
  | nil => exact (Option.or_none).symm
  | cons op ops ih =>
    rw [after, ih, op.get?_perform, List.findSome?_cons, Option.or_assoc]
    cases op.offers? typeName parameterization <;> rfl

/-- The additions by which built-in blocks become known. -/
def builtinAdditions (embed : Builtin → β) (kinds : List BuiltinKind) (types : List SampleType) :
    List (Operation β) :=
  kinds.flatMap fun kind => types.map fun type =>
    .add kind.typeName type.name (embed (.new kind type))

/-- Built-in blocks are made known by additions, so that a registry which starts with them is one
after a history of calls too. -/
theorem addBuiltins_eq_after (r : Registry β) (embed : Builtin → β) (kinds : List BuiltinKind)
    (types : List SampleType) :
    r.addBuiltins embed kinds types = r.after (builtinAdditions embed kinds types) := by
  rw [addBuiltins, after_eq_foldl, builtinAdditions, List.foldl_flatMap]
  congr 1
  funext r kind
  rw [List.foldl_map]
  congr 1
  funext r type
  simp only [Operation.perform]
  cases r.add kind.typeName type.name (embed (.new kind type)) <;> rfl

theorem Catalogued.withBuiltins (embed : Builtin → β) :
    (Registry.withBuiltins embed).Catalogued := by
  rw [Registry.withBuiltins, addBuiltins_eq_after]
  exact Catalogued.empty.run _

/-- Whatever calls are made on a registry, what it lists is consistent: it provides the type names
that it knows, in strict order; a type name is listed if it has a parameterization; and a pair is
known if its parameterization is listed, which is if a node can be asked for by it, with any
settings. The block of a pair is the one that was offered for it first: an addition is refused if
the pair is known, and leaves all as it is, also if room for its type name is made before this is
found; one that is accepted changes this pair only, and to make nodes changes none. -/
theorem catalogue_exact (ops : List (Operation β)) :
    let r : Registry β := empty.after ops
    empty.afterInParts ops = r ∧ r.providedBlocks = r.knownBlocks ∧ r.knownBlocks.Pairwise (· < ·) ∧
      (∀ typeName, (r.parameterizations typeName).Pairwise (· < ·) ∧
        (typeName ∈ r.knownBlocks ↔ r.parameterizations typeName ≠ [])) ∧
      (∀ typeName parameterization,
        (r.isKnown typeName parameterization = true ↔
          parameterization ∈ r.parameterizations typeName) ∧
        ∀ settings, let c := r.create typeName parameterization settings
          (r.isKnown typeName parameterization = true ↔
            c.result ≠ .error (.unknownBlock typeName parameterization)) ∧
          c = (match ops.findSome? fun op => op.offers? typeName parameterization with
            | some block => r.wrap typeName parameterization block settings
            | none => ⟨.error (.unknownBlock typeName parameterization), r, []⟩) ∧
          c.registry.blocks = r.blocks) ∧
      (∀ typeName parameterization block,
        (r.isKnown typeName parameterization = true →
          r.add typeName parameterization block =
              .error (.duplicateBlock typeName parameterization) ∧
            r.addInParts typeName parameterization block =
              (.error (.duplicateBlock typeName parameterization), r)) ∧
        (r.isKnown typeName parameterization = false →
          ∃ r', r.add typeName parameterization block = .ok r' ∧
            r.addInParts typeName parameterization block = (.ok (), r') ∧
            ∀ typeName' parameterization',
              (r'.entries typeName').get? parameterization' =
                if typeName = typeName' ∧ parameterization = parameterization' then some block
                else (r.entries typeName').get? parameterization')) ∧
      ∀ typeName parameterization block settings,
        (r.wrap typeName parameterization block settings).registry.blocks = r.blocks := by
  intro r
  have h : r.Catalogued := Catalogued.empty.run ops
  have hfirst : ∀ typeName parameterization,
      (r.entries typeName).get? parameterization =
        ops.findSome? fun op => op.offers? typeName parameterization :=
    fun typeName parameterization => get?_after empty ops typeName parameterization
  refine ⟨Catalogued.empty.afterInParts ops, h.providedBlocks_eq, List.pairwise_map.mpr h.sorted,
    fun typeName => ⟨List.pairwise_map.mpr (h.sorted_entries typeName), h.mem_knownBlocks_iff⟩,
    fun typeName parameterization => ⟨mem_parameterizations_iff.symm, fun settings =>
      ⟨isKnown_iff_create settings, ?_, blocks_create r _ _ _⟩⟩,
    fun typeName parameterization block => ⟨fun hknown => ?_, fun hunknown => ?_⟩,
    fun _ _ _ _ => rfl⟩
  · rw [← hfirst]
    rcases hentry : (r.entries typeName).get? parameterization with _ | block
    · exact create_of_unknown hentry settings
    · exact create_of_known hentry settings
  · rw [h.addInParts, add_of_known hknown]
    exact ⟨rfl, rfl⟩
  · have hadd := add_of_unknown hunknown block
    exact ⟨_, hadd, by rw [h.addInParts, hadd], r.get?_entries_insert _ _ block⟩

end Registry
end Dataflow
