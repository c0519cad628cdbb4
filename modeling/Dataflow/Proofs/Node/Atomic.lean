import Dataflow.Registry
import Dataflow.Proofs.Block.Form
import Dataflow.Proofs.Node.Settings
import Mathlib

/-!
# Atomic changes of settings

A node of a built-in block that a registry has made has accepted settings and no extra ones,
however its settings have changed since (`Node.IsMade.accepted`). So a change of its settings
overwrites them, or it fails and leaves the node as it was. With what holds of every block, this
makes changes of settings atomic (`Node.apply_atomic`).
-/

namespace Dataflow

namespace Registry

/-- Each block of a registry is typed. -/
def IsTyped (r : Registry Builtin) : Prop :=
  ∀ typeName parameterization block,
    (r.entries typeName).get? parameterization = some block → block.IsTyped

theorem IsTyped.add {r r' : Registry Builtin} {typeName parameterization : String}
    {block : Builtin} (h : r.IsTyped) (htyped : block.IsTyped)
    (hadd : r.add typeName parameterization block = .ok r') : r'.IsTyped := by
  simp only [Registry.add] at hadd
  split at hadd
  · cases hadd
  · cases hadd
    intro typeName' parameterization' block' hget
    simp only [entries, Dictionary.get?_insert] at hget
    split at hget
    · rw [Option.getD_some, Dictionary.get?_insert] at hget
      split at hget
      · cases hget
        exact htyped
      · exact h _ _ _ hget
    · exact h _ _ _ hget

theorem isTyped_new (kind : BuiltinKind) (type : SampleType) : (Builtin.new kind type).IsTyped := by
  cases kind with
  | vectorSource => exact fun x hx => by cases hx
  | _ => trivial

theorem IsTyped.addBuiltins {r : Registry Builtin} (h : r.IsTyped) (kinds : List BuiltinKind)
    (types : List SampleType) : (r.addBuiltins id kinds types).IsTyped := by
  refine List.foldlRecOn kinds _ h fun r hr kind _ => ?_
  refine List.foldlRecOn types _ hr fun r hr type _ => ?_
  cases hadd : r.add kind.typeName type.name (id (Builtin.new kind type)) with
  | ok r' => exact hr.add (isTyped_new kind type) hadd
  | error e => exact hr

/-- The registry of all built-in blocks, from which nodes are made. -/
theorem isTyped_withBuiltins : (withBuiltins id : Registry Builtin).IsTyped :=
  IsTyped.addBuiltins (fun _ _ _ hget => by cases hget) _ _

end Registry

namespace Node

/-- A node that a registry has made, and that has had its settings changed and its block at work
since. -/
inductive IsMade : Node Builtin → Prop where
  | wrap {r : Registry Builtin} {typeName parameterization : String} {block : Builtin}
    {settings : PropertyMap} {n : Node Builtin} : block.IsTyped →
    (r.wrap typeName parameterization block settings).result = .ok n → IsMade n
  | create {r : Registry Builtin} {typeName parameterization : String} {settings : PropertyMap}
    {n : Node Builtin} : r.IsTyped →
    (r.create typeName parameterization settings).result = .ok n → IsMade n
  | apply {n : Node Builtin} (settings : PropertyMap) (isRunning : Bool) : IsMade n →
    IsMade (n.apply settings isRunning).node
  | initialise {n : Node Builtin} (settings : PropertyMap) : IsMade n →
    IsMade (n.initialise settings).node
  | act {n m : Node Builtin} : IsMade n → m.block.form = n.block.form → m.extra = n.extra →
    IsMade m

/-- A node whose block has accepted its settings, and keeps no others. -/
structure Accepted (n : Node Builtin) : Prop where
  block : n.block.Accepted
  extra : n.extra = []

variable {n : Node Builtin} {settings : PropertyMap} {isRunning : Bool}

/-- The settings of a built-in block are in the order of their keys. -/
theorem settings_eq (h : n.extra = []) : n.settings = Block.settings n.block := by
  rw [Node.settings, h]
  cases n.block <;> rfl

/-- No built-in block takes a key that it does not declare. -/
theorem declares_of_keyError {key : String} (h : n.keyError? isRunning key = none) :
    declares n.block key = true := by
  rw [keyError?] at h
  split at h
  next d hd =>
    exact List.any_eq_true.mpr
      ⟨d, List.mem_of_find?_eq_some hd, by simpa using List.find?_some hd⟩
  next => cases h

theorem declares_of_keyErrors (h : settings.keys.findSome? (n.keyError? isRunning) = none) :
    ∀ entry ∈ settings, declares n.block entry.1 = true := fun entry hentry =>
  declares_of_keyError (List.findSome?_eq_none_iff.mp h entry.1 (List.mem_map_of_mem hentry))

/-- A change of settings is refused for a key, refused by the block, or made. -/
theorem apply_cases (n : Node Builtin) (settings : PropertyMap) (isRunning : Bool) :
    (∃ e, n.apply settings isRunning = ⟨.error e, n, []⟩ ∧ e.IsPlain) ∨
    (∃ e block, settings.keys.findSome? (n.keyError? isRunning) = none ∧
      tryApply n.block settings = (.error e, block) ∧ e.IsPlain ∧ block.bare = n.block.bare) ∨
    ∃ block, n.apply settings isRunning = ⟨.ok (), { n with block }, []⟩ ∧
      (n.block.IsTyped → block.Accepted) ∧
      Block.settings block =
        (Dictionary.overwrite (Block.settings n.block) settings).mapValues
          n.block.kind.canonical := by
  cases hkeys : settings.keys.findSome? (n.keyError? isRunning) with
  | some e =>
    obtain ⟨key, -, hkey⟩ := List.exists_of_findSome?_eq_some hkeys
    exact .inl ⟨e, apply_of_keyError hkeys, isPlain_of_keyError hkey⟩
  | none =>
    have hdeclared := declares_of_keyErrors hkeys
    rcases Builtin.tryApply_cases hdeclared with ⟨e, block, htry, he, hbare⟩ |
      ⟨block, htry, hbare, haccepted, hsettings⟩
    · exact .inr (.inl ⟨e, block, rfl, htry, he, hbare⟩)
    · refine .inr (.inr ⟨block, ?_, haccepted, hsettings⟩)
      have hnone : settings.filter (fun entry => !declares n.block entry.1) = [] :=
        List.filter_eq_nil_iff.mpr fun entry hentry => by simp [hdeclared entry hentry]
      simp only [apply, hkeys, htry]
      rw [hnone]
      rfl

/-- A change of accepted settings overwrites them, or leaves the node as it was. -/
theorem Accepted.apply_cases (h : n.Accepted) (settings : PropertyMap) (isRunning : Bool) :
    (∃ e, n.apply settings isRunning = ⟨.error e, n, []⟩ ∧ e.IsPlain) ∨
    ∃ block, n.apply settings isRunning = ⟨.ok (), { n with block }, []⟩ ∧ block.Accepted ∧
      Block.settings block =
        (Dictionary.overwrite (Block.settings n.block) settings).mapValues
          n.block.kind.canonical := by
  rcases Node.apply_cases n settings isRunning with hkey | ⟨e, block, hkeys, htry, he, hbare⟩ |
    ⟨block, happly, haccepted, hsettings⟩
  · exact .inl hkey
  · refine .inl ⟨e, ?_, he⟩
    have hback : restore block (Block.settings n.block) = ⟨n.block, [], none⟩ :=
      Builtin.restore_eq h.block hbare
    simp only [apply, hkeys, htry, hback]
    rfl
  · exact .inr ⟨block, happly, haccepted h.block.isTyped, hsettings⟩

theorem Accepted.apply (h : n.Accepted) (settings : PropertyMap) (isRunning : Bool) :
    (n.apply settings isRunning).node.Accepted := by
  rcases h.apply_cases settings isRunning with ⟨e, happly, -⟩ | ⟨block, happly, hblock, -⟩
  · rw [happly]
    exact h
  · rw [happly]
    exact ⟨hblock, h.extra⟩

theorem Accepted.initialise (h : n.Accepted) (settings : PropertyMap) :
    (n.initialise settings).node.Accepted := by
  have happly := h.apply settings false
  obtain ⟨-, hblock, hextra⟩ := n.initialise_eq settings
  exact ⟨hblock ▸ happly.block, hextra.trans happly.extra⟩

theorem accepted_of_initialise (hextra : n.extra = []) (htyped : n.block.IsTyped)
    (h : (n.initialise settings).result = .ok ()) : (n.initialise settings).node.Accepted := by
  simp only [Node.initialise] at h ⊢
  rcases n.apply_cases settings false with ⟨e, happly, -⟩ | ⟨e, block, hkeys, htry, -, -⟩ |
    ⟨block, happly, haccepted, -⟩
  · rw [happly] at h
    cases h
  · simp only [Node.apply, hkeys, htry] at h
    cases h
  · rw [happly]
    exact ⟨haccepted htyped, hextra⟩

theorem accepted_of_wrap {r : Registry Builtin} {typeName parameterization : String}
    {block : Builtin} (htyped : block.IsTyped)
    (h : (r.wrap typeName parameterization block settings).result = .ok n) : n.Accepted := by
  simp only [Registry.wrap] at h
  split at h
  next hok =>
    cases h
    exact accepted_of_initialise rfl htyped hok
  next => cases h

theorem IsMade.accepted (h : n.IsMade) : n.Accepted := by
  induction h with
  | wrap htyped hwrap => exact accepted_of_wrap htyped hwrap
  | @create r typeName parameterization settings n htyped hcreate =>
    rw [Registry.create] at hcreate
    split at hcreate
    · cases hcreate
    next block hblock => exact accepted_of_wrap (htyped _ _ _ hblock) hcreate
  | apply settings isRunning _ ih => exact ih.apply settings isRunning
  | initialise settings _ ih => exact ih.initialise settings
  | act _ hform hextra ih => exact ⟨ih.block.of_form hform, hextra.trans ih.extra⟩

/-! ### The main result -/

/-- What a change of the settings of any block does. -/
structure ChangesAtomically {β : Type} [Block β] (n : Node β) (settings : PropertyMap)
    (isRunning : Bool) : Prop where
  /-- A recorded block does what the block does. -/
  recorded : (n.record.apply settings isRunning).result = (n.apply settings isRunning).result ∧
    (n.record.apply settings isRunning).node.erase = (n.apply settings isRunning).node
  /-- A key that may not be set fails the change before any call to the block. -/
  uncalled : (∃ key ∈ settings.keys, n.Forbids isRunning key) →
    (∃ key ∈ settings.keys,
      (n.apply settings isRunning).result = .error (.immutable n.uniqueName key) ∨
      (n.apply settings isRunning).result = .error (.unknownKey n.uniqueName key)) ∧
    (n.record.apply settings isRunning).node.block.calls = [] ∧
    (n.apply settings isRunning).node = n
  /-- A change that fails leaves the extra settings alone. -/
  extra : ∀ e, (n.apply settings isRunning).result = .error e →
    (n.apply settings isRunning).node.extra = n.extra
  /-- Where the settings can be put back, a change that fails leaves them as they were, and reports
  its own error. -/
  restored :
    let back := restore (tryApply n.block settings).2 (Block.settings n.block)
    back.failure? = none → Block.settings back.block = Block.settings n.block →
    ∀ e, (n.apply settings isRunning).result = .error e →
      (n.apply settings isRunning).node.settings = n.settings ∧
      (settings.keys.findSome? (n.keyError? isRunning) = some e ∨
        (tryApply n.block settings).1 = .error e) ∧
      (ReportsPlainly β → e.IsPlain)

theorem changesAtomically {β : Type} [Block β] (n : Node β) (settings : PropertyMap)
    (isRunning : Bool) : n.ChangesAtomically settings isRunning where
  recorded := by
    have herase := n.record.apply_erase settings isRunning
    rw [show n.record.erase = n from rfl] at herase
    rw [herase]
    exact ⟨rfl, rfl⟩
  uncalled h := by
    have hrecord : n.record.keyError? isRunning = n.keyError? isRunning := rfl
    obtain ⟨key, hkey, e, hfind, he⟩ := exists_keyError h
    rw [apply_of_keyError hfind, apply_of_keyError (hrecord ▸ hfind)]
    refine ⟨⟨key, hkey, ?_⟩, rfl, rfl⟩
    exact he.imp (congrArg Except.error) (congrArg Except.error)
  extra _ := extra_of_error
  restored hback hsame e h := by
    obtain ⟨hsettings, hown⟩ := settings_of_restored hback hsame h
    refine ⟨hsettings, hown, fun hplain => hown.elim (fun hfind => ?_) fun htry => ?_⟩
    · obtain ⟨key, -, hkey⟩ := List.exists_of_findSome?_eq_some hfind
      exact isPlain_of_keyError hkey
    · exact hplain.tryApply n.block htry

/-- Changes of settings are atomic. A key that may not be set fails a change before the block is
called, a failure never touches the extra settings, and it leaves all settings as they were where
the block lets them be put back. For a built-in block that is always so: a change overwrites its
settings, or it fails with an error of its own and leaves them as they were. The settings of
construction are changed in the same way. -/
theorem apply_atomic :
    (∀ (β : Type) [Block β] (n : Node β) settings isRunning,
      n.ChangesAtomically settings isRunning ∧
        (n.initialise settings).result = (n.apply settings false).result ∧
        (n.initialise settings).node.block = (n.apply settings false).node.block ∧
        (n.initialise settings).node.extra = (n.apply settings false).node.extra) ∧
    ∀ n : Node Builtin, n.IsMade → ∀ settings isRunning,
      (∀ e, (n.apply settings isRunning).result = .error e →
        e.IsPlain ∧ (n.apply settings isRunning).node.settings = n.settings) ∧
      ((n.apply settings isRunning).result = .ok () →
        (n.apply settings isRunning).node.settings =
          (Dictionary.overwrite n.settings settings).mapValues n.block.kind.canonical) := by
  refine ⟨fun _ _ n settings isRunning =>
    ⟨n.changesAtomically settings isRunning, n.initialise_eq settings⟩,
    fun n hn settings isRunning => ?_⟩
  rcases hn.accepted.apply_cases settings isRunning with ⟨e, happly, he⟩ |
    ⟨block, happly, -, hsettings⟩
  · rw [happly]
    exact ⟨fun e' h => Except.error.inj h ▸ ⟨he, rfl⟩, nofun⟩
  · rw [happly]
    refine ⟨nofun, fun _ => ?_⟩
    rw [settings_eq hn.accepted.extra, ← hsettings]
    exact settings_eq (n := { n with block }) hn.accepted.extra

set_option maxRecDepth 10000 in
theorem get?_withBuiltins_vectorSource :
    ((Registry.withBuiltins id : Registry Builtin).entries "flowgraph::VectorSource").get? "i32" =
      some (.vectorSource (.new (.int .i32))) := rfl

/-- A vector source refuses new data because of a tag on no sample of it, and keeps the old data. It
takes a change while it runs. -/
theorem apply_atomic_vectorSource :
    let r : Registry Builtin := .withBuiltins id
    let stray : PropertyMap :=
      [("data", .vector [.int .i32 8]), ("tags", .vector [(⟨3, []⟩ : Tag).toValue])]
    let endless : PropertyMap := [("repeat", .bool true)]
    ∃ n : Node Builtin,
      (r.create "flowgraph::VectorSource" "i32" [("data", .vector [.int .i32 7])]).result = .ok n ∧
      n.IsMade ∧
      (∃ e, (n.apply stray false).result = .error e ∧ e.IsPlain) ∧
      (n.apply stray false).node.settings =
        [("data", .vector [.int .i32 7]), ("repeat", .bool false), ("tags", .vector [])] ∧
      (n.apply endless true).result = .ok () ∧
      (n.apply endless true).node.settings =
        [("data", .vector [.int .i32 7]), ("repeat", .bool true), ("tags", .vector [])] := by
  intro r stray endless
  have hcreate : (r.create "flowgraph::VectorSource" "i32"
      [("data", .vector [.int .i32 7])]).result.toOption.map (fun n => (n.settings, n.block.kind,
        (n.apply stray false).result.toOption, (n.apply endless true).result)) =
      some ([("data", .vector [.int .i32 7]), ("repeat", .bool false), ("tags", .vector [])],
        .vectorSource, none, .ok ()) := by
    simp only [r, Registry.create, get?_withBuiltins_vectorSource, Registry.wrap]
    generalize (Registry.withBuiltins id : Registry Builtin).nextSequence _ = k
    cbv
  cases hn : (r.create "flowgraph::VectorSource" "i32"
      [("data", .vector [.int .i32 7])]).result with
  | error e =>
    rw [hn] at hcreate
    cases hcreate
  | ok n =>
    rw [hn] at hcreate
    simp only [Except.toOption, Option.map_some, Option.some.injEq, Prod.mk.injEq] at hcreate
    obtain ⟨hsettings, hkind, hrefused, haccepted⟩ := hcreate
    have hmade : n.IsMade := .create Registry.isTyped_withBuiltins hn
    have hchanged := (apply_atomic.2 n hmade endless true).2 haccepted
    rw [hsettings, hkind] at hchanged
    cases hstray : (n.apply stray false).result with
    | ok =>
      rw [hstray] at hrefused
      cases hrefused
    | error e =>
      obtain ⟨hplain, hkept⟩ := (apply_atomic.2 n hmade stray false).1 e hstray
      exact ⟨n, rfl, hmade, ⟨e, hstray, hplain⟩, hkept.trans hsettings, haccepted,
        hchanged.trans (by cbv)⟩

end Node
end Dataflow
