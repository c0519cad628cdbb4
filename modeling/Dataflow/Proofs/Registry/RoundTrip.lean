import Dataflow.Proofs.Node.Placed
import Dataflow.Proofs.Node.Repetition
import Dataflow.Proofs.Registry.Assignment

/-!
# Making a node once more from its settings

The settings that a node reports can be given to a registry, to make another node like it. It is
not enough for this that each value can be read back from what is written for it: the settings are
checked as a whole, which may bring them into another form. What carries the argument is that the
node is settled (`Node.IsSettled`): what it reports has been through that check. So a block that is
faithful to its settings accepts it in every state (`Node.IsSettled.refusal_settings`), and the new
node reports the same (`Registry.create_settings`). For a vector source this means the same samples
and the same tags in the same order (`roundTrip_exact`).
-/

namespace Dataflow

variable {β : Type} [Block β] {F : Block.Forms} {P : β → Prop}

namespace Node

variable {n m : Node β} {b : β}

theorem IsFaithful.sorted_settings (h : n.IsFaithful P) : n.settings.Sorted := h.extra.overwrite _

section Faithful

variable (hP : Block.Faithful F P)

include hP

/-- Of what a node reports, its block reports what it declares. -/
theorem IsFaithful.declared_settings (h : n.IsFaithful P) (hb : P b) :
    declared b n.settings = Block.settings n.block := by
  have hget : ∀ k, (declared b n.settings).get? k =
      if declares b k then n.settings.get? k else none :=
    Dictionary.get?_filter (declares b) n.settings
  refine Dictionary.Sorted.ext (h.sorted_settings.filter _) (hP.sorted h.block) fun k => ?_
  rw [hget, declares_congr hP h.block hb, h.get?_settings hP]
  cases hdeclared : declares n.block k with
  | true =>
    obtain ⟨v, hv, -⟩ := exists_of_declares hP h.block hdeclared
    simp [hv]
  | false => simp [(canonical_of_not_declares hP h.block hdeclared).1]

/-- A key that a node reports may be set before the block runs, unless its value is kept beside a
block that keeps no foreign settings. -/
theorem IsFaithful.keyError_settings (h : n.IsFaithful P) (hm : m.IsFaithful P)
    (hextra : Block.isPermissive n.block = true ∨ n.extra = []) {key : String}
    (hkey : n.settings.hasKey key = true) : m.keyError? false key = none := by
  rw [keyError?]
  cases hfind : (Block.descriptors m.block).find? fun d => d.key = key with
  | some d => rfl
  | none =>
    have hundeclared : declares n.block key = false := by
      rw [declares, ← hP.descriptors h.block hm.block, List.any_eq_false]
      exact List.find?_eq_none.mp hfind
    rcases hextra with hpermissive | hextra
    · rw [hP.isPermissive h.block hm.block, hpermissive]
      rfl
    · have hnone := (canonical_of_not_declares hP h.block hundeclared).1
      rw [Dictionary.hasKey, h.get?_settings hP, hnone, hextra] at hkey
      cases hkey

/-- What a settled node reports is accepted in every state. -/
theorem IsSettled.refusal_settings (h : n.IsSettled F P) (hm : m.IsFaithful P)
    (hextra : Block.isPermissive n.block = true ∨ n.extra = []) :
    m.refusal? n.settings false = none := by
  have hkeys : n.settings.keys.findSome? (m.keyError? false) = none :=
    List.findSome?_eq_none_iff.mpr fun key hkey =>
      h.isFaithful.keyError_settings hP hm hextra (Dictionary.hasKey_iff_mem_keys.mpr hkey)
  obtain ⟨c, htry, -⟩ := tryApply_settings hP h.block hm.block
  have hdeclared : declared m.block n.settings = declared m.block (Block.settings n.block) := by
    rw [h.isFaithful.declared_settings hP hm.block, declared_reported hP h.block.states hm.block]
  have htry' : tryApply m.block n.settings = (.ok (), c) := by
    rw [tryApply_eq, hdeclared, ← tryApply_eq, htry]
  simp only [refusal?, hkeys, htry']

/-- What a settled node reports replaces all that another node of the block reports, if this keeps
nothing beside it. -/
theorem IsSettled.changed_settings (h : n.IsSettled F P) (hm : m.IsFaithful P)
    (hextra : m.extra = []) : m.changed F n.settings = n.settings := by
  have hkeys : ∀ k, m.settings.hasKey k = true → n.settings.hasKey k = true := by
    intro k hk
    rw [Dictionary.hasKey, hm.get?_settings hP, hextra, Dictionary.get?, Option.or_none,
      ← Dictionary.hasKey, hP.keys hm.block, declares_congr hP h.block.states hm.block] at hk
    obtain ⟨v, hv, -⟩ := exists_of_declares hP h.block.states hk
    rw [Dictionary.hasKey, h.isFaithful.get?_settings hP, hv]
    rfl
  rw [changed, hm.sorted_settings.overwrite_eq h.isFaithful.sorted_settings hkeys]
  refine (h.isFaithful.sorted_settings.mapValues F.canonical).ext h.isFaithful.sorted_settings
    fun k => ?_
  rw [Dictionary.get?_mapValues]
  exact h.canonical_settings hP k

end Faithful

end Node

namespace Registry

variable {r : Registry β} {n : Node β} {block : β} {typeName parameterization : String}
  {settings : PropertyMap}

theorem wrap_result_eq_ok_iff :
    (r.wrap typeName parameterization block settings).result = .ok n ↔
      let fresh := r.fresh typeName parameterization block
      (fresh.initialise settings).result = .ok () ∧ (fresh.initialise settings).node = n := by
  rw [wrap_eq]
  dsimp only
  split
  next hok => simp [hok]
  next e herror => simp [herror]

/-- The node that a block is put into is one of a faithful block if the block is. -/
theorem isFaithful_fresh (r : Registry β) (typeName parameterization : String) (hblock : P block) :
    (r.fresh typeName parameterization block).IsFaithful P :=
  ⟨hblock, List.Pairwise.nil⟩

/-- What a registry makes of a faithful block is settled. -/
theorem isSettled_of_wrap (hP : Block.Faithful F P) (hblock : P block)
    (h : (r.wrap typeName parameterization block settings).result = .ok n) :
    n.IsSettled F P := by
  obtain ⟨hresult, rfl⟩ := wrap_result_eq_ok_iff.mp h
  have hfresh := r.isFaithful_fresh typeName parameterization hblock
  cases he : (r.fresh typeName parameterization block).refusal? settings false with
  | none =>
    exact (hfresh.attempt_of_acceptance hP (Node.isChange_making settings) he).2.2.1
  | some e =>
    obtain ⟨e', he'⟩ := Node.result_of_refusal he
    rw [(Node.initialise_eq _ _).1, he'] at hresult
    cases hresult

/-- The settings of a settled node make another one, which reports the same. -/
theorem create_settings (hP : Block.Faithful F P) (h : n.IsSettled F P)
    (hextra : Block.isPermissive n.block = true ∨ n.extra = [])
    (hentry : (r.entries typeName).get? parameterization = some block) (hblock : P block) :
    ∃ m, (r.create typeName parameterization n.settings).result = .ok m ∧ m.IsSettled F P ∧
      m.settings = n.settings := by
  have hfresh := r.isFaithful_fresh typeName parameterization hblock
  have hrefusal := h.refusal_settings hP hfresh hextra
  obtain ⟨hdata, hsettings, hsettled, -⟩ :=
    hfresh.attempt_of_acceptance hP (Node.isChange_making n.settings) hrefusal
  have hresult := (Node.initialise_eq (r.fresh typeName parameterization block) n.settings).1
  rw [(Node.apply_of_acceptance hrefusal).2.2] at hresult
  refine ⟨_, ?_, hsettled, hsettings.trans (h.changed_settings hP hfresh rfl)⟩
  rw [create_of_known hentry]
  exact wrap_result_eq_ok_iff.mpr ⟨hresult, rfl⟩

end Registry

/-! ### Vector sources -/

namespace VectorSource

theorem readTags_eq_mapM (values : List Value) : readTags values = values.mapM Tag.ofValue := by
  induction values with
  | nil => rfl
  | cons v rest ih => rw [readTags, List.mapM_cons, ih]

theorem isStray_eq_false_iff {length : Nat} {t : Tag} :
    isStray length t = false ↔ 0 ≤ t.index ∧ t.index < length := by
  simp [isStray]

/-- A list of which one value cannot be read is refused as a whole. -/
theorem set_data_of_error {b : VectorSource} {values : List Value} {e : ValueError}
    (h : b.type.readAll values = .error e) :
    b.set "data" (.vector values) = (.error (.value "data" e), b) := by
  have hread : (Value.vector values).asVector >>= b.type.readAll = .error e := h
  simp only [set, update, hread]
  rfl

theorem set_tags_of_error (b : VectorSource) {values : List Value} {e : ValueError}
    (h : readTags values = .error e) :
    b.set "tags" (.vector values) = (.error (.value "tags" e), b) := by
  have hread : (Value.vector values).asVector >>= readTags = .error e := h
  simp only [set, update, hread]
  rfl

/-- Two vector sources that report the same hold the same. -/
theorem eq_of_settings {b c : VectorSource} (hb : ∀ x ∈ b.data, x.type = b.type)
    (hc : ∀ x ∈ c.data, x.type = c.type) (htype : c.type = b.type) (h : c.settings = b.settings) :
    c.data = b.data ∧ c.repeating = b.repeating ∧ c.tags = b.tags := by
  have hform : (Builtin.vectorSource c).form = (Builtin.vectorSource b).form :=
    Builtin.form_eq_of_settings hb hc rfl htype h
  simp only [Builtin.form, Builtin.vectorSource.injEq, VectorSource.mk.injEq] at hform
  exact ⟨hform.2.1, hform.2.2.1, hform.2.2.2.1⟩

end VectorSource

theorem Builtin.IsOf.exists_vectorSource {b : Builtin} {type : SampleType}
    (h : b.IsOf .vectorSource type) :
    ∃ c, b = vectorSource c ∧ c.type = type ∧ ∀ x ∈ c.data, x.type = c.type := by
  obtain ⟨htyped, hkind, htype⟩ := h
  cases b with
  | vectorSource c => exact ⟨c, rfl, htype, htyped⟩
  | _ => cases hkind

namespace Registry

open Builtin (Embeds)

variable {embed : Builtin → β} {r : Registry β} {n : Node β} {typeName parameterization : String}
  {settings : PropertyMap} {b : VectorSource}

/-- What a registry makes of a vector source is one of the same type, with settled settings. -/
theorem vectorSource_of_wrap (hembed : Embeds embed) (hb : ∀ x ∈ b.data, x.type = b.type)
    (h : (r.wrap typeName parameterization (embed (.vectorSource b)) settings).result = .ok n) :
    n.IsSettled BuiltinKind.vectorSource.forms (Node.PlacedAs embed .vectorSource b.type) ∧
      n.extra = [] ∧ ∃ c : VectorSource, n.block = embed (.vectorSource c) ∧ c.type = b.type ∧
        (∀ x ∈ c.data, x.type = c.type) ∧ n.settings = c.settings := by
  have hP := Node.faithful_placedAs hembed .vectorSource b.type
  have hblock : Node.PlacedAs embed .vectorSource b.type (embed (.vectorSource b)) :=
    ⟨_, rfl, hb, rfl, rfl⟩
  have hsettled := isSettled_of_wrap hP hblock h
  have hextra := (Node.isPlaced_of_wrap (b := .vectorSource b) hembed hb h).extra
  obtain ⟨c', hc', hof⟩ := hsettled.block.states
  obtain ⟨c, rfl, htype, hc⟩ := hof.exists_vectorSource
  refine ⟨hsettled, hextra, c, hc', htype, hc, ?_⟩
  have hplain : Dictionary.overwrite [] (Block.settings n.block) = Block.settings n.block :=
    Dictionary.Sorted.overwrite_eq List.Pairwise.nil (hP.sorted hsettled.block.states)
      fun _ hk => absurd hk Bool.false_ne_true
  rw [Node.settings, hextra, hplain, hc']
  exact hembed.settings _

/-- A vector source is accepted if its tags lie on samples, and the tags are then sorted. -/
theorem wrap_vectorSource_iff (hembed : Embeds embed) :
    (∃ n, (r.wrap typeName parameterization (embed (.vectorSource b)) []).result = .ok n ∧
      n.block = embed (.vectorSource { b with tags := b.tags.mergeSort Tag.precedes })) ↔
    ∀ t ∈ b.tags, 0 ≤ t.index ∧ t.index < b.data.length := by
  let fresh := r.fresh typeName parameterization (embed (.vectorSource b))
  have hsettle : Block.settle fresh.block = (Block.settle (Builtin.vectorSource b)).map id embed :=
    hembed.settle _
  have hrefusal : fresh.refusal? [] false = none ↔
      (Block.settle (Builtin.vectorSource b)).1 = .ok () := by
    have hkeys : (Dictionary.keys ([] : PropertyMap)).findSome? (fresh.keyError? false) = none :=
      rfl
    have htry : Node.tryApply fresh.block [] = Block.settle fresh.block := rfl
    simp only [Node.refusal?, hkeys, htry, hsettle]
    cases hok : (Block.settle (Builtin.vectorSource b)).1 <;> simp [hok]
  have hinit := Node.initialise_eq fresh []
  simp only [← VectorSource.isStray_eq_false_iff]
  constructor
  · rintro ⟨n, hn, -⟩
    rw [← Builtin.settle_eq_ok_iff, ← hrefusal]
    cases he : fresh.refusal? [] false with
    | none => rfl
    | some e =>
      obtain ⟨e', he'⟩ := Node.result_of_refusal he
      rw [← hinit.1, (wrap_result_eq_ok_iff.mp hn).1] at he'
      cases he'
  · intro hstray
    have happly := (Node.apply_of_acceptance
      (hrefusal.mpr (Builtin.settle_eq_ok_iff.mpr hstray))).2.2
    have hblock : (Node.tryApply fresh.block []).2 =
        embed (.vectorSource { b with tags := b.tags.mergeSort Tag.precedes }) := by
      show (Block.settle fresh.block).2 = _
      rw [hsettle, Builtin.settle_vectorSource hstray]
      rfl
    rw [happly] at hinit
    exact ⟨_, wrap_result_eq_ok_iff.mpr ⟨hinit.1, rfl⟩, hinit.2.1.trans hblock⟩

/-- What is written can be read, up to whole nodes. Each sample and each tag is read back from its
value, and lists of them are, while a list with a value that cannot be read is refused for the first
such value and leaves a vector source as it was; a tag that is read from any value keeps its index
and its map and nothing else. A registry accepts a vector source with any samples, and any tags that
lie on them; and given the settings that it reports, every registry that knows vector sources of its
type makes another one, with the same samples, the same tags in the same order and the same
settings. -/
theorem roundTrip_exact (hembed : Embeds embed) :
    (∀ x : Sample, x.type.read x.toValue = .ok x) ∧
    (∀ (type : SampleType) samples, (∀ x ∈ samples, x.type = type) →
      type.readAll (samples.map Sample.toValue) = .ok samples) ∧
    (∀ (b : VectorSource) values e,
      (b.type.readAll values = .error e ↔ ∃ before v after, values = before ++ v :: after ∧
        (∀ w ∈ before, ∃ x, b.type.read w = .ok x) ∧ b.type.read v = .error e) ∧
      (b.type.readAll values = .error e →
        b.set "data" (.vector values) = (.error (.value "data" e), b))) ∧
    (∀ t : Tag, Tag.ofValue t.toValue = .ok t) ∧
    (∀ fields t, Dictionary.Sorted fields → Tag.ofValue (.map fields) = .ok t →
      t.toValue = .map (fields.filter fun entry => entry.1 = "index" || entry.1 = "map")) ∧
    (∀ v t, Tag.ofValue v = .ok t → ∃ fields, v = .map fields) ∧
    (∀ tags : List Tag, VectorSource.readTags (tags.map Tag.toValue) = .ok tags) ∧
    (∀ (b : VectorSource) values e,
      (VectorSource.readTags values = .error e ↔ ∃ before v after, values = before ++ v :: after ∧
        (∀ w ∈ before, ∃ t, Tag.ofValue w = .ok t) ∧ Tag.ofValue v = .error e) ∧
      (VectorSource.readTags values = .error e →
        b.set "tags" (.vector values) = (.error (.value "tags" e), b))) ∧
    ∀ (r : Registry β) typeName parameterization (b : VectorSource),
      (∀ x ∈ b.data, x.type = b.type) →
      ((∃ n, (r.wrap typeName parameterization (embed (.vectorSource b)) []).result = .ok n ∧
          n.block = embed (.vectorSource { b with tags := b.tags.mergeSort Tag.precedes })) ↔
        ∀ t ∈ b.tags, 0 ≤ t.index ∧ t.index < b.data.length) ∧
      ∀ settings n,
        (r.wrap typeName parameterization (embed (.vectorSource b)) settings).result = .ok n →
        ∃ c : VectorSource, n.block = embed (.vectorSource c) ∧ c.type = b.type ∧
          n.settings = c.settings ∧
          ∀ (r' : Registry β) typeName' parameterization' (b' : VectorSource), b'.type = b.type →
            (∀ x ∈ b'.data, x.type = b'.type) →
            (r'.entries typeName').get? parameterization' = some (embed (.vectorSource b')) →
            ∃ m, (r'.create typeName' parameterization' n.settings).result = .ok m ∧
              m.settings = n.settings ∧
              ∃ c' : VectorSource, m.block = embed (.vectorSource c') ∧ c'.type = c.type ∧
                c'.data = c.data ∧ c'.repeating = c.repeating ∧ c'.tags = c.tags := by
  refine ⟨SampleType.read_toValue, fun type samples htypes =>
      SampleType.readAll_eq_ok_iff.mpr ⟨htypes, rfl⟩,
    fun b values e => ⟨?_, VectorSource.set_data_of_error⟩, Tag.ofValue_toValue,
    fun fields t hsorted h => Tag.toValue_of_ofValue h hsorted, fun v t h => ?_,
    VectorSource.readTags_map_toValue, fun b values e => ⟨?_, b.set_tags_of_error⟩,
    fun r typeName parameterization b hb => ⟨wrap_vectorSource_iff hembed, fun settings n hn => ?_⟩⟩
  · rw [SampleType.readAll_eq_mapM, mapM_eq_error_iff]
  · obtain ⟨fields, hfields, -⟩ := Tag.ofValue_eq_ok_iff.mp h
    exact ⟨fields, hfields⟩
  · rw [VectorSource.readTags_eq_mapM, mapM_eq_error_iff]
  · obtain ⟨hsettled, hextra, c, hblock, htype, hc, hsettings⟩ := vectorSource_of_wrap hembed hb hn
    refine ⟨c, hblock, htype, hsettings,
      fun r' typeName' parameterization' b' htype' hb' hentry => ?_⟩
    obtain ⟨m, hcreate, -, hsame⟩ := create_settings (Node.faithful_placedAs hembed _ _) hsettled
      (.inr hextra) hentry ⟨_, rfl, hb', rfl, htype'⟩
    have hmade := hcreate
    rw [create_of_known hentry] at hmade
    obtain ⟨-, -, c', hblock', hctype, hc', hsettings'⟩ := vectorSource_of_wrap hembed hb' hmade
    have hctype : c'.type = c.type := hctype.trans (htype'.trans htype.symm)
    have heq : c'.settings = c.settings := hsettings'.symm.trans (hsame.trans hsettings)
    exact ⟨m, hcreate, hsame, c', hblock', hctype, VectorSource.eq_of_settings hc hc' hctype heq⟩

/-- A source whose tags are given in the wrong order, one of them with a nested map, and the source
that is made of its settings. -/
theorem roundTrip_exact_nested :
    let first : Tag := ⟨0, []⟩
    let second : Tag := ⟨1, [("a", .map [("b", .vector [.bool true])])]⟩
    let b : VectorSource := { VectorSource.new (.int .i8) with
      data := [.int .i8 5, .int .i8 (-5)], repeating := true, tags := [second, first] }
    let r : Registry Builtin := ⟨[("Source", [("i8", .vectorSource (.new (.int .i8)))])], []⟩
    ∃ n m, ∃ c : VectorSource, (r.wrap "Source" "i8" (.vectorSource b) []).result = .ok n ∧
      (r.create "Source" "i8" n.settings).result = .ok m ∧ m.settings = n.settings ∧
      m.block = .vectorSource c ∧ c.data = b.data ∧ c.repeating = true ∧
      c.tags = [first, second] := by
  intro first second b r
  have htyped : ∀ x ∈ b.data, x.type = b.type := by decide
  obtain ⟨-, -, -, -, -, -, -, -, hmake⟩ := roundTrip_exact Builtin.embeds_id
  obtain ⟨haccepted, hagain⟩ := hmake r "Source" "i8" b htyped
  obtain ⟨n, hn, hblock⟩ := haccepted.mpr (by decide)
  obtain ⟨c, hc, htype, -, hother⟩ := hagain [] n hn
  obtain ⟨m, hm, hsettings, c', hc', -, hdata, hrepeat, htags⟩ :=
    hother r "Source" "i8" (.new (.int .i8)) rfl nofun rfl
  have heq : c = { b with tags := b.tags.mergeSort Tag.precedes } :=
    Builtin.vectorSource.inj (hc.symm.trans hblock)
  have hsorted : [second, first].mergeSort Tag.precedes = [first, second] := by
    simp [List.mergeSort, List.MergeSort.Internal.splitInTwo, Tag.precedes, first, second]
  subst heq
  exact ⟨n, m, c', hn, hm, hsettings, hc', hdata, hrepeat, htags.trans hsorted⟩

end Registry
end Dataflow
