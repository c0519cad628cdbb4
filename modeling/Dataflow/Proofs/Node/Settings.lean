import Dataflow.Node

/-!
# Changes of settings

What a change of settings does to a node of any block. It does the same to a block that is mapped
to one of another type, as long as that has the same settings (`Node.apply_mapBlock`). Keys are
checked before the block is asked for anything, which is seen on a block that keeps the calls that
change it (`Recorded`), and such a block behaves like the block inside it (`Node.apply_erase`). A
change that fails leaves the extra settings alone (`Node.extra_of_error`), and where putting the
settings back succeeds, it leaves all settings as they were and reports its own error
(`Node.settings_of_restored`); where it puts the whole block back, it leaves the node as it was
(`Node.Restores.apply_eq`).
-/

namespace Dataflow

/-- Any error other than that settings could not be put back. -/
def SettingsError.IsPlain : SettingsError → Prop
  | rollbackFailed _ _ _ _ => False
  | _ => True

/-! ### Declared settings -/

namespace Node

variable {β : Type} [Block β]

/-- The entries of which a block declares the keys. -/
def declared (b : β) (settings : PropertyMap) : PropertyMap :=
  settings.filter fun (key, _) => declares b key

/-- The other entries, which are kept beside the block. -/
def undeclared (b : β) (settings : PropertyMap) : PropertyMap :=
  settings.filter fun (key, _) => !declares b key

theorem mem_declared {b : β} {settings : PropertyMap} {entry : String × Value} :
    entry ∈ declared b settings ↔ entry ∈ settings ∧ declares b entry.1 = true :=
  List.mem_filter

/-- The declared entries are set, and then the settings are checked as a whole. -/
theorem tryApply_eq (b : β) (settings : PropertyMap) :
    tryApply b settings = match setAll b (declared b settings) with
      | (.ok (), b) => Block.settle b
      | (.error e, b) => (.error e, b) := rfl

end Node

/-! ### Blocks seen through a map -/

/-- A map of blocks that leaves all that concerns their settings as it is. -/
structure Block.KeepsSettings {β γ : Type} [Block β] [Block γ] (f : β → γ) : Prop where
  descriptors : ∀ b, Block.descriptors (f b) = Block.descriptors b
  settings : ∀ b, Block.settings (f b) = Block.settings b
  isPermissive : ∀ b, Block.isPermissive (f b) = Block.isPermissive b
  set : ∀ b key v, Block.set (f b) key v = (Block.set b key v).map id f
  settle : ∀ b, Block.settle (f b) = (Block.settle b).map id f

namespace Node

variable {β γ : Type}

/-- The same node with another block, which its block is mapped to. -/
def mapBlock (n : Node β) (f : β → γ) : Node γ := { n with block := f n.block }

variable [Block β] [Block γ] {f : β → γ} (hf : Block.KeepsSettings f)

include hf

theorem declares_map (b : β) : declares (f b) = declares b := by
  funext key
  rw [declares, declares, hf.descriptors]

theorem declared_map (b : β) (settings : PropertyMap) :
    declared (f b) settings = declared b settings := by
  rw [declared, declared, declares_map hf]

theorem setAll_map (b : β) (entries : List (String × Value)) :
    setAll (f b) entries = (setAll b entries).map id f := by
  induction entries generalizing b with
  | nil => rfl
  | cons entry rest ih =>
    obtain ⟨key, v⟩ := entry
    rw [setAll, setAll, hf.set]
    rcases Block.set b key v with ⟨result, b'⟩
    cases result with
    | ok => exact ih b'
    | error => rfl

theorem tryApply_map (b : β) (settings : PropertyMap) :
    tryApply (f b) settings = (tryApply b settings).map id f := by
  rw [tryApply_eq, tryApply_eq, declared_map hf, setAll_map hf]
  rcases setAll b (declared b settings) with ⟨result, b'⟩
  cases result with
  | ok => exact hf.settle b'
  | error => rfl

theorem setEach_map (b : β) (entries : List (String × Value)) :
    setEach (f b) entries = (setEach b entries).map id f := by
  induction entries generalizing b with
  | nil => rfl
  | cons entry rest ih =>
    obtain ⟨key, v⟩ := entry
    rw [setEach, setEach, hf.set]
    rcases Block.set b key v with ⟨result, b'⟩
    cases result with
    | ok => exact ih b'
    | error => simp only [Prod.map, id, ih b']

theorem restore_map (b : β) (previous : PropertyMap) :
    restore (f b) previous =
      ⟨f (restore b previous).block, (restore b previous).refused,
        (restore b previous).rejection⟩ := by
  rw [restore, restore, setEach_map hf]
  rcases setEach b previous with ⟨refused, b'⟩
  simp only [Prod.map, id, hf.settle]
  rcases Block.settle b' with ⟨result, b''⟩
  cases result <;> rfl

theorem keyError_mapBlock (n : Node β) (isRunning : Bool) :
    (n.mapBlock f).keyError? isRunning = n.keyError? isRunning := by
  funext key
  simp only [keyError?, mapBlock, hf.descriptors, hf.isPermissive]
  rfl

/-- A change of settings is the same whether or not a block is mapped first. -/
theorem apply_mapBlock (n : Node β) (settings : PropertyMap) (isRunning : Bool) :
    (n.mapBlock f).apply settings isRunning =
      ⟨(n.apply settings isRunning).result, (n.apply settings isRunning).node.mapBlock f,
        (n.apply settings isRunning).log⟩ := by
  have hblock : (n.mapBlock f).block = f n.block := rfl
  simp only [apply, keyError_mapBlock hf, hblock, tryApply_map hf, hf.settings]
  cases settings.keys.findSome? (n.keyError? isRunning) with
  | some e => rfl
  | none =>
    rcases tryApply n.block settings with ⟨result, b⟩
    cases result with
    | ok =>
      simp only [Prod.map, id, declares_map hf]
      rfl
    | error e =>
      simp only [Prod.map, id, restore_map hf]
      rfl

end Node

/-! ### Recorded blocks -/

/-- A call that changes the settings of a block. -/
inductive SettingsCall where
  | set (key : String) (v : Value)
  | settle

/-- A block with the calls by which its settings were changed. -/
structure Recorded (β : Type) where
  block : β
  calls : List SettingsCall

namespace Recorded

variable {β : Type}

/-- The block with another one inside. -/
def put (r : Recorded β) (b : β) : Recorded β := { r with block := b }

/-- The block after a call that left another one inside. -/
def note (r : Recorded β) (call : SettingsCall) (b : β) : Recorded β := ⟨b, r.calls ++ [call]⟩

instance [Block β] : Block (Recorded β) where
  description r := Block.description r.block
  inputs r := Block.inputs r.block
  outputs r := Block.outputs r.block
  descriptors r := Block.descriptors r.block
  settings r := Block.settings r.block
  set r key v := (Block.set r.block key v).map id (r.note (.set key v))
  settle r := (Block.settle r.block).map id (r.note .settle)
  isPermissive r := Block.isPermissive r.block
  start r := (Block.start r.block).map (·.map id r.put)
  stop r := (Block.stop r.block).map r.put
  pause r := (Block.pause r.block).map r.put
  resume r := (Block.resume r.block).map r.put
  work r := (Block.work r.block).map (·.map id r.put)

theorem keepsSettings_block [Block β] : Block.KeepsSettings (Recorded.block : Recorded β → β) where
  descriptors _ := rfl
  settings _ := rfl
  isPermissive _ := rfl
  set _ _ _ := rfl
  settle _ := rfl

end Recorded

namespace Node

variable {β : Type} [Block β] {n : Node β} {settings : PropertyMap} {isRunning : Bool}
  {e : SettingsError}

/-- The node of a block from which nothing has been asked yet. -/
def record (n : Node β) : Node (Recorded β) := { n with block := ⟨n.block, []⟩ }

omit [Block β] in
/-- The node without the record. -/
def erase (n : Node (Recorded β)) : Node β := { n with block := n.block.block }

/-- A recorded block takes part in a change of settings just like the block inside it. -/
theorem apply_erase (n : Node (Recorded β)) (settings : PropertyMap) (isRunning : Bool) :
    n.erase.apply settings isRunning =
      ⟨(n.apply settings isRunning).result, (n.apply settings isRunning).node.erase,
        (n.apply settings isRunning).log⟩ :=
  n.apply_mapBlock Recorded.keepsSettings_block settings isRunning

/-! ### Keys -/

/-- A key that may not be set: one that is declared but fixed while the block runs, or one that is
not declared although the block keeps no foreign ones. -/
def Forbids (n : Node β) (isRunning : Bool) (key : String) : Prop :=
  match (Block.descriptors n.block).find? fun d => d.key = key with
  | some d => isRunning = true ∧ d.isMutable = false
  | none => Block.isPermissive n.block = false

theorem keyError_cases (n : Node β) (isRunning : Bool) (key : String) :
    (n.Forbids isRunning key ∧ (n.keyError? isRunning key = some (.immutable n.uniqueName key) ∨
      n.keyError? isRunning key = some (.unknownKey n.uniqueName key))) ∨
    (¬ n.Forbids isRunning key ∧ n.keyError? isRunning key = none) := by
  rw [Forbids, keyError?]
  cases (Block.descriptors n.block).find? fun d => d.key = key with
  | some d => cases isRunning <;> cases hmutable : d.isMutable <;> simp [hmutable]
  | none => cases Block.isPermissive n.block <;> simp

theorem isPlain_of_keyError {key : String} (h : n.keyError? isRunning key = some e) :
    e.IsPlain := by
  rcases n.keyError_cases isRunning key with ⟨-, hkey | hkey⟩ | ⟨-, hkey⟩ <;>
    cases hkey.symm.trans h <;> trivial

/-- A key that may not be set is found, and the first such key decides. -/
theorem exists_keyError (h : ∃ key ∈ settings.keys, n.Forbids isRunning key) :
    ∃ key ∈ settings.keys, ∃ e, settings.keys.findSome? (n.keyError? isRunning) = some e ∧
      (e = .immutable n.uniqueName key ∨ e = .unknownKey n.uniqueName key) := by
  cases hfind : settings.keys.findSome? (n.keyError? isRunning) with
  | none =>
    obtain ⟨key, hkey, hforbids⟩ := h
    have hnone := List.findSome?_eq_none_iff.mp hfind key hkey
    rcases n.keyError_cases isRunning key with ⟨-, hsome | hsome⟩ | ⟨hnot, -⟩
    · cases hnone.symm.trans hsome
    · cases hnone.symm.trans hsome
    · exact absurd hforbids hnot
  | some e =>
    obtain ⟨key, hkey, hsome⟩ := List.exists_of_findSome?_eq_some hfind
    refine ⟨key, hkey, e, rfl, ?_⟩
    rcases n.keyError_cases isRunning key with ⟨-, he | he⟩ | ⟨-, he⟩
    · exact .inl (Option.some.inj (hsome.symm.trans he))
    · exact .inr (Option.some.inj (hsome.symm.trans he))
    · cases hsome.symm.trans he

/-! ### Changes that fail -/

/-- The first key that may not be set decides, and the block is not asked. -/
theorem apply_of_keyError (h : settings.keys.findSome? (n.keyError? isRunning) = some e) :
    n.apply settings isRunning = ⟨.error e, n, []⟩ := by
  rw [apply, h]

theorem extra_of_error (h : (n.apply settings isRunning).result = .error e) :
    (n.apply settings isRunning).node.extra = n.extra := by
  simp only [apply] at h ⊢
  split
  · rfl
  next hkeys =>
    rw [hkeys] at h
    split
    next htry =>
      simp only [htry] at h
      cases h
    next => rfl

/-- Where putting the settings back succeeds, a change that fails leaves them as they were, and its
error is that of a key or of the block. -/
theorem settings_of_restored
    (hback : (restore (tryApply n.block settings).2 (Block.settings n.block)).failure? = none)
    (hsame : Block.settings (restore (tryApply n.block settings).2 (Block.settings n.block)).block =
      Block.settings n.block)
    (h : (n.apply settings isRunning).result = .error e) :
    (n.apply settings isRunning).node.settings = n.settings ∧
      (settings.keys.findSome? (n.keyError? isRunning) = some e ∨
        (tryApply n.block settings).1 = .error e) := by
  simp only [apply] at h ⊢
  split
  next e' hkeys =>
    rw [hkeys] at h
    cases h
    exact ⟨rfl, .inl hkeys⟩
  next hkeys =>
    rw [hkeys] at h
    cases htry : tryApply n.block settings with
    | mk result block =>
      simp only [htry] at h hback hsame ⊢
      cases result with
      | ok => cases h
      | error update =>
        simp only [hback] at h
        cases h
        exact ⟨congrArg (Dictionary.overwrite n.extra) hsame, .inr rfl⟩

/-- A refused change of settings puts the block back as it was. -/
def Restores (n : Node β) (settings : PropertyMap) : Prop :=
  (restore (tryApply n.block settings).2 (Block.settings n.block)).block = n.block

/-- Where the block is put back, a refused change leaves the whole node as it was. -/
theorem Restores.apply_eq (h : n.Restores settings)
    (he : (n.apply settings isRunning).result = .error e) :
    (n.apply settings isRunning).node = n := by
  simp only [apply] at he ⊢
  cases hkeys : settings.keys.findSome? (n.keyError? isRunning) with
  | some e => rfl
  | none =>
    rw [Restores] at h
    rcases htry : tryApply n.block settings with ⟨result, b⟩
    rw [htry] at h
    cases result with
    | ok => simp only [hkeys, htry, reduceCtorEq] at he
    | error update =>
      show { n with block := (restore b (Block.settings n.block)).block } = n
      rw [h]

/-- Settings of construction are changed like others; only the ports are read again. -/
theorem initialise_eq (n : Node β) (settings : PropertyMap) :
    (n.initialise settings).result = (n.apply settings false).result ∧
      (n.initialise settings).node.block = (n.apply settings false).node.block ∧
      (n.initialise settings).node.extra = (n.apply settings false).node.extra := by
  simp only [initialise]
  split
  · exact ⟨rfl, rfl, rfl⟩
  · exact ⟨rfl, rfl, rfl⟩

/-! ### Requests -/

theorem answer_of_get (n : Node β) {m : Message}
    (hm : ¬ (m.property = "Settings" ∧ m.command = .set)) :
    (n.answer m).node = n ∧ (n.answer m).log = [] := by
  simp only [answer]
  split
  case h_2 hproperty hcommand => exact absurd ⟨hproperty, hcommand⟩ hm
  all_goals exact ⟨rfl, rfl⟩

theorem answer_of_set (n : Node β) {m : Message} (hproperty : m.property = "Settings")
    (hcommand : m.command = .set) : n.answer m = n.answerSet m := by
  simp only [answer, hproperty, hcommand]

/-- A change of settings concerns the block and the extra settings only. -/
theorem exists_apply_eq (n : Node β) (settings : PropertyMap) (isRunning : Bool) :
    ∃ block extra, (n.apply settings isRunning).node = { n with block, extra } := by
  simp only [apply]
  split
  · exact ⟨n.block, n.extra, rfl⟩
  · split <;> exact ⟨_, _, rfl⟩

theorem exists_answer_eq (n : Node β) (m : Message) :
    ∃ block extra, (n.answer m).node = { n with block, extra } := by
  simp only [answer]
  split
  case h_2 =>
    simp only [answerSet]
    split
    · exact ⟨n.block, n.extra, rfl⟩
    · split <;> exact n.exists_apply_eq _ true
  all_goals exact ⟨n.block, n.extra, rfl⟩

/-! ### Errors -/

/-- No call of a block reports that settings could not be put back. -/
def ReportsPlainly (β : Type) [Block β] : Prop :=
  (∀ (b : β) key v e, (Block.set b key v).1 = .error e → e.IsPlain) ∧
    ∀ (b : β) e, (Block.settle b).1 = .error e → e.IsPlain

theorem ReportsPlainly.setAll (h : ReportsPlainly β) (b : β) (entries : List (String × Value))
    (he : (Node.setAll b entries).1 = .error e) : e.IsPlain := by
  induction entries generalizing b with
  | nil => cases he
  | cons entry rest ih =>
    obtain ⟨key, v⟩ := entry
    rw [Node.setAll] at he
    split at he
    next b' _ => exact ih b' he
    next hset =>
      cases he
      exact h.1 b key v e (congrArg Prod.fst hset)

theorem ReportsPlainly.tryApply (h : ReportsPlainly β) (b : β)
    (he : (Node.tryApply b settings).1 = .error e) : e.IsPlain := by
  rw [Node.tryApply] at he
  split at he
  next b' _ => exact h.2 b' e he
  next hall =>
    cases he
    exact h.setAll b _ (congrArg Prod.fst hall)

end Node
end Dataflow
