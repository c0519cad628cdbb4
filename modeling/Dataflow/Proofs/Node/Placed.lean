import Dataflow.Block.Mixed
import Dataflow.Proofs.Block.Keeping
import Dataflow.Proofs.Execution.Nodes
import Dataflow.Proofs.Node.Atomic

/-!
# Built-in blocks among others

A graph may hold built-in blocks together with blocks of other types. Its blocks are then of a type
in which the built-in ones are placed by a map that leaves all that they do as it is
(`Builtin.Embeds`). A node of such a block that has accepted its settings (`Node.IsPlaced`) changes
them just like a node of the block alone, and stays one whatever is done to it
(`Node.lasting_isPlaced`). So a change that is refused leaves it as it was (`IsPlaced.restores`).
-/

namespace Dataflow

variable {β : Type} [Block β]

theorem Program.map_id {Op ρ : Type} {Reply : Op → Type} (p : Program Op Reply ρ) :
    p.map id = p := by
  induction p with
  | done result => rfl
  | ask op next ih => exact congrArg (ask op) (funext ih)

/-- Built-in blocks are placed among blocks of another type, where they do what they do. -/
structure Builtin.Embeds (embed : Builtin → β) : Prop extends Block.KeepsSettings embed where
  start : ∀ b, Block.start (embed b) = (Block.start b).map (·.map id embed)
  stop : ∀ b, Block.stop (embed b) = (Block.stop b).map embed
  pause : ∀ b, Block.pause (embed b) = (Block.pause b).map embed
  resume : ∀ b, Block.resume (embed b) = (Block.resume b).map embed
  work : ∀ b, Block.work (embed b) = (Block.work b).map (·.map id embed)

namespace Builtin

theorem embeds_id : Embeds (id : Builtin → Builtin) where
  descriptors _ := rfl
  settings _ := rfl
  isPermissive _ := rfl
  set _ _ _ := rfl
  settle _ := rfl
  start b := (Block.start b).map_id.symm
  stop b := (Block.stop b).map_id.symm
  pause b := (Block.pause b).map_id.symm
  resume b := (Block.resume b).map_id.symm
  work b := (Block.work b).map_id.symm

theorem embeds_mixed : Embeds MixedBlock.builtin where
  descriptors _ := rfl
  settings _ := rfl
  isPermissive _ := rfl
  set _ _ _ := rfl
  settle _ := rfl
  start _ := rfl
  stop _ := rfl
  pause _ := rfl
  resume _ := rfl
  work _ := rfl

/-- Nothing that a block does touches settings once accepted. -/
theorem Embeds.upholds_accepted {embed : Builtin → β} (hembed : Embeds embed) :
    Block.Upholds fun b => ∃ c : Builtin, b = embed c ∧ c.Accepted where
  start := by
    rintro _ ⟨b, rfl, haccepted⟩
    rw [hembed.start]
    exact Program.ends_map.mpr <| b.ends_start.mono fun result hform =>
      ⟨result.2, rfl, haccepted.of_form hform⟩
  stop := by
    rintro _ ⟨b, rfl, haccepted⟩
    rw [hembed.stop]
    exact ⟨b, rfl, haccepted⟩
  pause := by
    rintro _ ⟨b, rfl, haccepted⟩
    rw [hembed.pause]
    exact ⟨b, rfl, haccepted⟩
  resume := by
    rintro _ ⟨b, rfl, haccepted⟩
    rw [hembed.resume]
    exact ⟨b, rfl, haccepted⟩
  work := by
    rintro _ ⟨b, rfl, haccepted⟩
    rw [hembed.work]
    exact Program.ends_map.mpr <| b.leaves_work.mono fun result hform =>
      ⟨result.2, rfl, haccepted.of_form hform⟩

end Builtin

namespace Node

open Builtin (Embeds)

/-- A node of a built-in block, placed among others, that has accepted its settings and keeps no
others. -/
abbrev IsPlaced (embed : Builtin → β) : Node β → Prop :=
  Carries (fun b => ∃ c : Builtin, b = embed c ∧ c.Accepted) (· = [])

variable {embed : Builtin → β} {n : Node β} {settings : PropertyMap}

omit [Block β] in
theorem IsPlaced.mapBlock {m : Node Builtin} (h : m.Accepted) : (m.mapBlock embed).IsPlaced embed :=
  ⟨⟨m.block, rfl, h.block⟩, h.extra⟩

omit [Block β] in
theorem IsPlaced.exists_mapBlock (h : n.IsPlaced embed) :
    ∃ m : Node Builtin, m.Accepted ∧ n = m.mapBlock embed := by
  obtain ⟨⟨b, hb, haccepted⟩, hextra⟩ := h
  refine ⟨n.mapBlock fun _ => b, ⟨haccepted, hextra⟩, ?_⟩
  show n = { n with block := embed b }
  rw [← hb]

theorem IsPlaced.apply (h : n.IsPlaced embed) (hembed : Embeds embed) (settings : PropertyMap)
    (isRunning : Bool) : (n.apply settings isRunning).node.IsPlaced embed := by
  obtain ⟨m, hm, rfl⟩ := h.exists_mapBlock
  rw [m.apply_mapBlock hembed.toKeepsSettings]
  exact .mapBlock (hm.apply settings isRunning)

theorem lasting_isPlaced (hembed : Embeds embed) : Lasting (IsPlaced embed) :=
  lasting_carries hembed.upholds_accepted fun _ settings h =>
    IsPlaced.apply h hembed settings true

/-- The block of a placed node is put back after every change. -/
theorem IsPlaced.restores (h : n.IsPlaced embed) (hembed : Embeds embed) (settings : PropertyMap) :
    n.Restores settings := by
  obtain ⟨⟨b, hb, haccepted⟩, -⟩ := h
  have hmap := hembed.toKeepsSettings
  -- entries that the block does not declare are not tried
  have htry : tryApply b settings = tryApply b (declared b settings) := by
    simp only [tryApply, declared, List.filter_filter, Bool.and_self]
  have hbare : (tryApply b settings).2.bare = b.bare := by
    rw [htry]
    rcases Builtin.tryApply_cases fun entry hentry => (mem_declared.mp hentry).2 with
      ⟨e, b', heq, -, hbare⟩ | ⟨b', heq, hbare, -⟩ <;>
    rw [heq] <;> exact hbare
  rw [Restores, hb, tryApply_map hmap, hembed.settings]
  show (restore (embed (tryApply b settings).2) (Block.settings b)).block = embed b
  rw [restore_map hmap, Builtin.restore_eq haccepted hbare]

/-- The built-in blocks of a kind and a type, placed among others. -/
abbrev PlacedAs (embed : Builtin → β) (kind : BuiltinKind) (type : SampleType) (b : β) : Prop :=
  ∃ c, b = embed c ∧ c.IsOf kind type

theorem faithful_placedAs (hembed : Embeds embed) (kind : BuiltinKind)
    (type : SampleType) : Block.Faithful kind.forms (PlacedAs embed kind type) :=
  (Builtin.faithful kind type).map hembed.toKeepsSettings

/-! ### Construction -/

theorem isPlaced_of_initialise (hembed : Embeds embed) {b : Builtin} (hblock : n.block = embed b)
    (htyped : b.IsTyped) (hextra : n.extra = []) (h : (n.initialise settings).result = .ok ()) :
    (n.initialise settings).node.IsPlaced embed := by
  let m : Node Builtin := n.mapBlock fun _ => b
  have hn : n = m.mapBlock embed := by
    show n = { n with block := embed b }
    rw [← hblock]
  obtain ⟨hresult, hblock', hextra'⟩ := n.initialise_eq settings
  obtain ⟨hresultₘ, hblockₘ, hextraₘ⟩ := m.initialise_eq settings
  rw [hn, m.apply_mapBlock hembed.toKeepsSettings] at hresult hblock' hextra'
  rw [← hn] at hresult hblock' hextra'
  have haccepted : (m.initialise settings).node.Accepted :=
    accepted_of_initialise hextra htyped (hresultₘ.trans (hresult.symm.trans h))
  refine ⟨⟨_, hblock', hblockₘ ▸ haccepted.block⟩, hextra'.trans ?_⟩
  exact hextraₘ.symm.trans haccepted.extra

/-- What a registry makes of a built-in block has accepted its settings. -/
theorem isPlaced_of_wrap (hembed : Embeds embed) {r : Registry β}
    {typeName parameterization : String} {b : Builtin} (htyped : b.IsTyped)
    (h : (r.wrap typeName parameterization (embed b) settings).result = .ok n) :
    n.IsPlaced embed := by
  simp only [Registry.wrap] at h
  split at h
  next hok =>
    cases h
    exact isPlaced_of_initialise hembed rfl htyped rfl hok
  next => cases h

end Node
end Dataflow
