import Dataflow.Block.Scripted
import Dataflow.Proofs.Block.Faithful
import Dataflow.Proofs.Execution.Nodes

/-!
# Scripted blocks are faithful to their settings

A scripted block takes every value of a setting that its script admits, and no other
(`Scripted.exists_set_eq`). So a block that has admitted values for the settings of its script
(`Scripted.Configured`) is faithful to its settings (`Scripted.faithful`), and remains one with the
same settings whatever its script makes it do (`Scripted.upholds_settled`).
-/

namespace Dataflow

/-- The values of a setting have the type of the initial one, and are among the allowed ones. -/
def Script.Setting.admits (s : Script.Setting) (v : Value) : Bool :=
  v.type = s.value.type && (s.allowed.isEmpty || s.allowed.any (·.same v))

/-- The setting of a key. -/
def Script.setting? (script : Script) (key : String) : Option Script.Setting :=
  script.settings.find? (·.key = key)

/-- Whether a value may be given to a key. -/
def Script.admits (script : Script) (key : String) (v : Value) : Bool :=
  (script.setting? key).any (·.admits v)

namespace Scripted

/-- A block of a script with admitted values for its settings. -/
structure Configured (script : Script) (b : Scripted) : Prop where
  script_eq : b.script = script
  sorted : b.values.Sorted
  keys : ∀ key, b.values.hasKey key = (script.setting? key).isSome
  admitted : ∀ key v, b.values.get? key = some v → script.admits key v = true

variable {script : Script} {b : Scripted} {key : String} {v : Value}

/-- Whether a value is admitted, and the error if it is not, is up to the script. -/
theorem exists_set_eq (script : Script) (key : String) (v : Value) :
    ∃ e, ∀ b, Configured script b → Block.set b key v =
      if script.admits key v then
        (.ok (), { b with values := b.values.insert key v })
      else (.error e, b) := by
  cases hfind : script.setting? key with
  | none =>
    refine ⟨.unknownKey "" key, fun b hb => ?_⟩
    have hfind' : b.script.settings.find? (·.key = key) = none := hb.script_eq ▸ hfind
    rw [Script.admits, hfind]
    show b.set key v = _
    rw [Scripted.set, hfind']
    rfl
  | some s =>
    -- the current value has the type of the initial one
    have hset : ∀ b, Configured script b → Block.set b key v =
        if v.type ≠ s.value.type then (.error (.value key (v.mismatch s.value.type)), b)
        else if !s.allowed.isEmpty && !s.allowed.any (·.same v) then
          (.error (.invalidValue key "not allowed"), b)
        else (.ok (), { b with values := b.values.insert key v }) := fun b hb => by
      have hkey := hb.keys key
      rw [hfind, Option.isSome_some, Dictionary.hasKey, Option.isSome_iff_exists] at hkey
      obtain ⟨current, hcurrent⟩ := hkey
      have hadmits := hb.admitted key current hcurrent
      simp only [Script.admits, hfind, Option.any_some, Script.Setting.admits, Bool.and_eq_true,
        decide_eq_true_eq] at hadmits
      have hfind' : b.script.settings.find? (·.key = key) = some s := hb.script_eq ▸ hfind
      show b.set key v = _
      simp only [Scripted.set, hfind', hcurrent, hadmits.1]
    by_cases htype : v.type = s.value.type
    · refine ⟨.invalidValue key "not allowed", fun b hb => ?_⟩
      rw [hset b hb, if_neg (not_not_intro htype)]
      simp only [Script.admits, hfind, Option.any_some, Script.Setting.admits, htype, decide_true,
        Bool.true_and]
      cases s.allowed.isEmpty <;> cases s.allowed.any (·.same v) <;> rfl
    · refine ⟨.value key (v.mismatch s.value.type), fun b hb => ?_⟩
      rw [hset b hb, if_pos htype]
      simp [Script.admits, hfind, Script.Setting.admits, htype]

theorem Configured.insert (h : b.Configured script) (hadmits : script.admits key v = true) :
    Configured script { b with values := b.values.insert key v } where
  script_eq := h.script_eq
  sorted := h.sorted.insert key v
  keys k := by
    have hkey : (script.setting? key).isSome = true := by
      rw [Script.admits] at hadmits
      cases hfind : script.setting? key with
      | none =>
        rw [hfind] at hadmits
        cases hadmits
      | some s => rfl
    have hkeys := h.keys k
    simp only [Dictionary.hasKey, Dictionary.get?_insert] at hkeys ⊢
    split
    next heq =>
      subst heq
      exact hkey.symm
    next => exact hkeys
  admitted k w hget := by
    rw [Dictionary.get?_insert] at hget
    split at hget
    next heq =>
      cases hget
      exact heq ▸ hadmits
    next => exact h.admitted k w hget

theorem settle_eq (b : Scripted) : (Block.settle b).2 = b := by
  show b.settle.2 = b
  rw [Scripted.settle]
  split
  · rfl
  · split <;> rfl

theorem settle_congr {b' : Scripted} (h : Configured script b) (h' : Configured script b')
    (hsame : Block.settings b' = Block.settings b) : (Block.settle b').1 = (Block.settle b).1 := by
  have hvalues : b'.values = b.values := hsame
  show b'.settle.1 = b.settle.1
  simp only [Scripted.settle, h.script_eq, h'.script_eq, hvalues]
  cases script.veto with
  | none => rfl
  | some veto =>
    dsimp only
    split <;> rfl

/-- A scripted block is faithful to its settings as long as they are admitted ones. -/
theorem faithful (script : Script) : Block.Faithful .plain (Configured script) where
  descriptors {b b'} h h' := by
    show b'.script.settings.map _ = b.script.settings.map _
    rw [h.script_eq, h'.script_eq]
  isPermissive {b b'} h h' := by
    show b'.script.isPermissive = b.script.isPermissive
    rw [h.script_eq, h'.script_eq]
  sorted h := h.sorted
  keys {b} h key := by
    rw [Node.declares]
    refine (h.keys key).trans ?_
    show _ = (b.script.settings.map _).any _
    rw [h.script_eq, List.any_map, Script.setting?, List.isSome_find?]
    rfl
  set h key v := by
    obtain ⟨e, hset⟩ := exists_set_eq script key v
    rw [hset _ h]
    split
    next hadmits => exact h.insert hadmits
    next => exact h
  verdict h h' key v := by
    obtain ⟨e, hset⟩ := exists_set_eq script key v
    rw [hset _ h, hset _ h']
    split <;> rfl
  stores h key v _ hok := by
    obtain ⟨e, hset⟩ := exists_set_eq script key v
    rw [hset _ h] at hok ⊢
    split at hok
    next hadmits =>
      rw [if_pos hadmits]
      rfl
    next => cases hok
  reported h key v hget := by
    obtain ⟨e, hset⟩ := exists_set_eq script key v
    rw [hset _ h, if_pos (h.admitted key v hget)]
    exact ⟨rfl, rfl⟩
  settle {b} h := b.settle_eq.symm ▸ h
  arranges {b} _ _ := by
    rw [b.settle_eq, Block.Forms.mapValues_plain]
  check h h' hsame := settle_congr h h' hsame
  accepts h h' hsame hok := by
    rw [Block.Forms.mapValues_plain, Block.Forms.mapValues_plain] at hsame
    exact (settle_congr h h' hsame).trans hok
  plain _ _ _ _ := ⟨rfl, rfl⟩

/-- Calls of a scripted block count its work calls, and that is all they change in it. -/
theorem upholds_settled (script : Script) :
    Block.Upholds (Block.Settled .plain (Configured script)) := by
  have hcount : ∀ {b : Scripted} (callsMade : Nat),
      Block.Settled .plain (Configured script) b →
      Block.Settled .plain (Configured script) { b with callsMade } :=
      fun {b} callsMade h => by
    have hstates : Configured script { b with callsMade } :=
      ⟨h.states.script_eq, h.states.sorted, h.states.keys, h.states.admitted⟩
    exact ⟨hstates, (settle_congr h.states hstates rfl).trans h.settled, h.arranged⟩
  exact {
    start := fun {b} h => Program.ends_map.mpr <| Program.ends_of_forall (fun _ => by
      dsimp only
      split <;> exact hcount 0 h) _
    stop := fun h => Program.ends_map.mpr <| Program.ends_of_forall (fun _ => h) _
    pause := fun h => Program.ends_map.mpr <| Program.ends_of_forall (fun _ => h) _
    resume := fun h => Program.ends_map.mpr <| Program.ends_of_forall (fun _ => h) _
    work := fun {b} h => Program.ends_bind (fun p => by
      have hworked := hcount (b.callsMade + 1) h
      split
      · exact fun _ => hworked
      · dsimp only
        split
        · exact hworked
        · exact fun _ => hworked) _ }

/-- A new block has the initial values of its script. -/
theorem configured_new {inbox : Nat} (hkeys : (script.settings.map (·.key)).Nodup)
    (hadmits : ∀ s ∈ script.settings, s.admits s.value = true) :
    Configured script (new script inbox) := by
  let initial := script.settings.map fun s => (s.key, s.value)
  have hinitial : ∀ key, Dictionary.get? initial key =
      (script.setting? key).map Script.Setting.value := fun key => by
    simp only [initial, Script.setting?]
    induction script.settings with
    | nil => rfl
    | cons s rest ih =>
      rw [List.map_cons, Dictionary.get?, List.find?_cons]
      by_cases hkey : s.key = key
      · simp [hkey]
      · simpa [hkey] using ih
  have hnodup : Dictionary.keys initial = script.settings.map (·.key) := by
    simp [initial, Dictionary.keys]
  have hget : ∀ key, (new script inbox).values.get? key =
      (script.setting? key).map Script.Setting.value := fun key => by
    show Dictionary.get? (Dictionary.overwrite [] initial) key = _
    rw [Dictionary.get?_overwrite, Dictionary.get?_reverse (hnodup ▸ hkeys), hinitial,
      Dictionary.get?, Option.or_none]
  have hsorted : (Dictionary.overwrite [] initial).Sorted :=
    Dictionary.Sorted.overwrite List.Pairwise.nil initial
  refine ⟨rfl, hsorted, fun key => ?_, fun key v hv => ?_⟩
  · rw [Dictionary.hasKey, hget, Option.isSome_map]
  · rw [hget, Option.map_eq_some_iff] at hv
    obtain ⟨s, hs, rfl⟩ := hv
    rw [Script.admits, hs]
    exact hadmits s (List.mem_of_find?_eq_some hs)

end Scripted
end Dataflow
