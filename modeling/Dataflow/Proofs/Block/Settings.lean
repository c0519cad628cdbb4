import Dataflow.Block.Builtin
import Dataflow.Proofs.Dictionary
import Dataflow.Proofs.Node.Settings
import Dataflow.Proofs.Tag.Order
import Dataflow.Proofs.Value.Reading

/-!
# Settings of built-in blocks

A call that changes a setting of a built-in block either refuses it and changes nothing, or makes
it, which leaves alone all that is not a setting (`Builtin.set_cases`). Settings once accepted
(`Builtin.Accepted`) can be put back whatever calls came after (`Builtin.restore_eq`), and a batch
of settings that is accepted overwrites those that were there (`Builtin.tryApply_cases`), except
that the tags of a vector source are kept in their canonical form (`BuiltinKind.canonical`).
-/

namespace Dataflow

/-! ### Canonical settings -/

namespace VectorSource

/-- The form in which tags are kept: each as a tag is written, and all of them stably sorted. -/
def canonicalTags (v : Value) : Value :=
  match v.asVector >>= readTags with
  | .ok tags => .vector ((tags.mergeSort Tag.precedes).map Tag.toValue)
  | .error _ => v

theorem readTags_map_toValue (tags : List Tag) : readTags (tags.map Tag.toValue) = .ok tags := by
  induction tags with
  | nil => rfl
  | cons t rest ih =>
    rw [List.map_cons, readTags, Tag.ofValue_toValue, ih]
    rfl

theorem canonicalTags_of_read {v : Value} {tags : List Tag}
    (h : v.asVector >>= readTags = .ok tags) :
    canonicalTags v = .vector ((tags.mergeSort Tag.precedes).map Tag.toValue) := by
  rw [canonicalTags, h]

theorem canonicalTags_encoded (tags : List Tag) :
    canonicalTags (.vector (tags.map Tag.toValue)) =
      .vector ((tags.mergeSort Tag.precedes).map Tag.toValue) :=
  canonicalTags_of_read (readTags_map_toValue tags)

end VectorSource

/-- The form in which a block of a kind keeps the value of a setting. -/
def BuiltinKind.canonical (kind : BuiltinKind) (key : String) (v : Value) : Value :=
  if kind = .vectorSource ∧ key = "tags" then VectorSource.canonicalTags v else v

namespace Builtin

/-- A block without its settings. -/
def bare : Builtin → Builtin
  | vectorSource b => vectorSource { b with data := [], repeating := false, tags := [] }
  | vectorSink b => vectorSink { b with reserveItems := 0 }
  | head b => head { b with numItems := 0 }
  | b => b

/-- The samples of a vector source have its type. -/
def IsTyped : Builtin → Prop
  | vectorSource b => ∀ x ∈ b.data, x.type = b.type
  | _ => True

/-- The settings of a block have been accepted as a whole. -/
structure Accepted (b : Builtin) : Prop where
  isTyped : b.IsTyped
  settled : Block.settle b = (.ok (), b)

theorem kind_bare (b : Builtin) : b.bare.kind = b.kind := by cases b <;> rfl

theorem kind_eq_of_bare {b b' : Builtin} (h : b'.bare = b.bare) : b'.kind = b.kind := by
  rw [← kind_bare, h, kind_bare]

theorem mapValues_canonical {kind : BuiltinKind} (h : kind ≠ .vectorSource) (d : PropertyMap) :
    d.mapValues kind.canonical = d := by
  simp [Dictionary.mapValues, BuiltinKind.canonical, h]

/-! ### Single calls -/

/-- What making a setting does to a block. -/
structure Becomes (b b' : Builtin) (key : String) (v : Value) : Prop where
  bare : b'.bare = b.bare
  isTyped : b.IsTyped → b'.IsTyped
  settings : (Block.settings b').mapValues b.kind.canonical =
    ((Block.settings b).insert key v).mapValues b.kind.canonical

end Builtin

namespace VectorSource

variable {b : VectorSource} {key : String} {v : Value}

theorem update_cases (b : VectorSource) (key : String) (v : Value) :
    (∃ e : SettingsError, e.IsPlain ∧ b.update key v = .error e) ∨
    (∃ data, key = "data" ∧ v = .vector (data.map Sample.toValue) ∧
      (∀ x ∈ data, x.type = b.type) ∧ b.update key v = .ok { b with data }) ∨
    (∃ repeating, key = "repeat" ∧ v = .bool repeating ∧
      b.update key v = .ok { b with repeating }) ∨
    ∃ tags, key = "tags" ∧ v.asVector >>= readTags = .ok tags ∧
      b.update key v = .ok { b with tags } := by
  by_cases hdata : key = "data"
  · subst hdata
    cases hread : v.asVector >>= b.type.readAll with
    | error e => exact .inl ⟨.value "data" e, trivial, by simp only [update, hread]; rfl⟩
    | ok data =>
      have hupdate : b.update "data" v = .ok { b with data } := by simp only [update, hread]; rfl
      obtain ⟨items, hitems, hread⟩ := bind_eq_ok_iff.mp hread
      obtain ⟨htypes, rfl⟩ := SampleType.readAll_eq_ok_iff.mp hread
      exact .inr (.inl ⟨data, rfl, Value.asVector_eq_ok_iff.mp hitems, htypes, hupdate⟩)
  by_cases hrepeat : key = "repeat"
  · subst hrepeat
    cases hread : v.asBool with
    | error e => exact .inl ⟨.value "repeat" e, trivial, by simp only [update, hread]; rfl⟩
    | ok repeating =>
      exact .inr (.inr (.inl ⟨repeating, rfl, Value.asBool_eq_ok_iff.mp hread,
        by simp only [update, hread]; rfl⟩))
  by_cases htags : key = "tags"
  · subst htags
    cases hread : v.asVector >>= readTags with
    | error e => exact .inl ⟨.value "tags" e, trivial, by simp only [update, hread]; rfl⟩
    | ok tags => exact .inr (.inr (.inr ⟨tags, rfl, rfl, by simp only [update, hread]; rfl⟩))
  · exact .inl ⟨.unknownKey "" key, trivial, by rw [update] <;> assumption⟩

theorem set_data {data : List Sample} (h : ∀ x ∈ data, x.type = b.type) :
    b.set "data" (.vector (data.map Sample.toValue)) = (.ok (), { b with data }) := by
  have hread : (Value.vector (data.map Sample.toValue)).asVector >>= b.type.readAll = .ok data :=
    SampleType.readAll_eq_ok_iff.mpr ⟨h, rfl⟩
  simp only [set, update, hread]
  rfl

theorem set_tags (b : VectorSource) (tags : List Tag) :
    b.set "tags" (.vector (tags.map Tag.toValue)) = (.ok (), { b with tags }) := by
  have hread : (Value.vector (tags.map Tag.toValue)).asVector >>= readTags = .ok tags :=
    readTags_map_toValue tags
  simp only [set, update, hread]
  rfl

end VectorSource

namespace Builtin

theorem set_vectorSource_cases (b : VectorSource) (key : String) (v : Value) :
    (∃ e : SettingsError, e.IsPlain ∧
      Block.set (vectorSource b) key v = (.error e, vectorSource b)) ∨
    ∃ b', Block.set (vectorSource b) key v = (.ok (), b') ∧
      (vectorSource b).Becomes b' key v := by
  have hset : Block.set (vectorSource b) key v = (b.set key v).map id vectorSource := rfl
  rw [hset, VectorSource.set]
  rcases b.update_cases key v with ⟨e, he, hu⟩ | ⟨data, rfl, rfl, htypes, hu⟩ |
    ⟨repeating, rfl, rfl, hu⟩ | ⟨tags, rfl, hread, hu⟩
  · exact .inl ⟨e, he, by rw [hu]; rfl⟩
  · exact .inr ⟨vectorSource { b with data }, by rw [hu]; rfl, rfl, fun _ => htypes, rfl⟩
  · exact .inr ⟨vectorSource { b with repeating }, by rw [hu]; rfl, rfl, id, rfl⟩
  · refine .inr ⟨vectorSource { b with tags }, by rw [hu]; rfl, rfl, id, ?_⟩
    have hsettings : Block.settings (vectorSource { b with tags }) =
        (Block.settings (vectorSource b)).insert "tags" (.vector (tags.map Tag.toValue)) := rfl
    have hcanonical : BuiltinKind.vectorSource.canonical "tags" (.vector (tags.map Tag.toValue)) =
        BuiltinKind.vectorSource.canonical "tags" v :=
      (VectorSource.canonicalTags_encoded tags).trans
        (VectorSource.canonicalTags_of_read hread).symm
    rw [hsettings, Dictionary.mapValues_insert, Dictionary.mapValues_insert]
    exact congrArg _ hcanonical

/-- A setting is refused, which changes nothing, or made, which changes nothing else. -/
theorem set_cases (b : Builtin) (key : String) (v : Value) :
    (∃ e : SettingsError, e.IsPlain ∧ Block.set b key v = (.error e, b)) ∨
    ∃ b', Block.set b key v = (.ok (), b') ∧ b.Becomes b' key v := by
  cases b with
  | nullSource | nullSink | copy | tagGate => exact .inl ⟨.unknownKey "" key, trivial, rfl⟩
  | vectorSource b => exact set_vectorSource_cases b key v
  | vectorSink b =>
    have hset : Block.set (vectorSink b) key v = (b.set key v).map id vectorSink := rfl
    rw [hset, VectorSink.set]
    split
    next hkey =>
      subst hkey
      cases hread : v.asInt .u64 with
      | error e => exact .inl ⟨.value "reserve_items" e, trivial, rfl⟩
      | ok n =>
        rw [Value.asInt_eq_ok_iff.mp hread]
        exact .inr ⟨vectorSink { b with reserveItems := n }, rfl, rfl, fun _ => trivial, rfl⟩
    next => exact .inl ⟨.unknownKey "" key, trivial, rfl⟩
  | head b =>
    have hset : Block.set (head b) key v = (b.set key v).map id head := rfl
    rw [hset, Head.set]
    split
    next hkey =>
      subst hkey
      cases hread : v.asInt .u64 with
      | error e => exact .inl ⟨.value "num_items" e, trivial, rfl⟩
      | ok n =>
        rw [Value.asInt_eq_ok_iff.mp hread]
        exact .inr ⟨head { b with numItems := n }, rfl, rfl, fun _ => trivial, rfl⟩
    next => exact .inl ⟨.unknownKey "" key, trivial, rfl⟩

theorem settle_vectorSource {b : VectorSource}
    (h : ∀ t ∈ b.tags, VectorSource.isStray b.data.length t = false) :
    Block.settle (vectorSource b) =
      (.ok (), vectorSource { b with tags := b.tags.mergeSort Tag.precedes }) := by
  have hsettle : Block.settle (vectorSource b) = b.settle.map id vectorSource := rfl
  have hstray : b.tags.find? (VectorSource.isStray b.data.length) = none :=
    List.find?_eq_none.mpr fun t ht => by simp [h t ht]
  rw [hsettle, VectorSource.settle, hstray]
  rfl

/-- The settings as a whole are refused, which changes nothing, or accepted in canonical form. -/
theorem settle_cases (b : Builtin) :
    (∃ e : SettingsError, e.IsPlain ∧ Block.settle b = (.error e, b)) ∨
    ∃ b', Block.settle b = (.ok (), b') ∧ b'.bare = b.bare ∧ (b.IsTyped → b'.Accepted) ∧
      Block.settings b' = (Block.settings b).mapValues b.kind.canonical := by
  cases b with
  | vectorSource b =>
    cases hfind : b.tags.find? (VectorSource.isStray b.data.length) with
    | some t =>
      refine .inl ⟨.invalidValue "tags"
        s!"tag index {t.index} outside data of length {b.data.length}", trivial, ?_⟩
      have hsettle : Block.settle (vectorSource b) = b.settle.map id vectorSource := rfl
      rw [hsettle, VectorSource.settle, hfind]
      rfl
    | none =>
      have hstray : ∀ t ∈ b.tags, VectorSource.isStray b.data.length t = false := fun t ht => by
        simpa using List.find?_eq_none.mp hfind t ht
      refine .inr ⟨_, settle_vectorSource hstray, rfl, fun htyped => ⟨htyped, ?_⟩, ?_⟩
      · have hstray' : ∀ t ∈ b.tags.mergeSort Tag.precedes,
            VectorSource.isStray b.data.length t = false :=
          fun t ht => hstray t (List.mem_mergeSort.mp ht)
        rw [settle_vectorSource hstray', Tag.mergeSort_of_ordered (Tag.ordered_mergeSort _)]
      · exact congrArg (fun v => [("data", _), ("repeat", _), ("tags", v)])
          (VectorSource.canonicalTags_encoded b.tags).symm
  | _ =>
    refine .inr ⟨_, rfl, rfl, fun htyped => ⟨htyped, rfl⟩, ?_⟩
    rw [mapValues_canonical (by simp [kind])]

/-! ### Batches of settings -/

theorem setAll_cases (b : Builtin) (entries : List (String × Value)) :
    (∃ e b', Node.setAll b entries = (.error e, b') ∧ e.IsPlain ∧ b'.bare = b.bare) ∨
    ∃ b', Node.setAll b entries = (.ok (), b') ∧ b'.bare = b.bare ∧ (b.IsTyped → b'.IsTyped) ∧
      (Block.settings b').mapValues b.kind.canonical =
        (Dictionary.overwrite (Block.settings b) entries).mapValues b.kind.canonical := by
  induction entries generalizing b with
  | nil => exact .inr ⟨b, rfl, rfl, id, rfl⟩
  | cons entry rest ih =>
    obtain ⟨key, v⟩ := entry
    rw [Node.setAll]
    rcases b.set_cases key v with ⟨e, he, hset⟩ | ⟨b₁, hset, hb⟩
    · rw [hset]
      exact .inl ⟨e, b, rfl, he, rfl⟩
    · rw [hset]
      rcases ih b₁ with ⟨e, b₂, hall, he, hbare⟩ | ⟨b₂, hall, hbare, htyped, hsettings⟩
      · exact .inl ⟨e, b₂, hall, he, hbare.trans hb.bare⟩
      · refine .inr ⟨b₂, hall, hbare.trans hb.bare, fun h => htyped (hb.isTyped h), ?_⟩
        rw [kind_eq_of_bare hb.bare] at hsettings
        exact hsettings.trans (Dictionary.mapValues_overwrite_congr hb.settings rest)

/-- A batch of declared settings is refused, or it overwrites the settings that were there. -/
theorem tryApply_cases {b : Builtin} {settings : PropertyMap}
    (hdeclared : ∀ entry ∈ settings, Node.declares b entry.1 = true) :
    (∃ e b', Node.tryApply b settings = (.error e, b') ∧ e.IsPlain ∧ b'.bare = b.bare) ∨
    ∃ b', Node.tryApply b settings = (.ok (), b') ∧ b'.bare = b.bare ∧ (b.IsTyped → b'.Accepted) ∧
      Block.settings b' =
        (Dictionary.overwrite (Block.settings b) settings).mapValues b.kind.canonical := by
  rw [Node.tryApply, List.filter_eq_self.mpr hdeclared]
  rcases b.setAll_cases settings with ⟨e, b₁, hall, he, hbare⟩ |
    ⟨b₁, hall, hbare, htyped, hsettings⟩
  · rw [hall]
    exact .inl ⟨e, b₁, rfl, he, hbare⟩
  · rw [hall]
    rcases b₁.settle_cases with ⟨e, he, hsettle⟩ | ⟨b₂, hsettle, hbare', haccepted, hsettings'⟩
    · exact .inl ⟨e, b₁, hsettle, he, hbare⟩
    · refine .inr ⟨b₂, hsettle, hbare'.trans hbare, fun h => haccepted (htyped h), ?_⟩
      rw [hsettings', kind_eq_of_bare hbare, hsettings]

theorem setEach_vectorSource {b b' : VectorSource} (htype : b'.type = b.type)
    (htyped : ∀ x ∈ b.data, x.type = b.type) :
    Node.setEach (vectorSource b') (Block.settings (vectorSource b)) = ([], vectorSource
      { b' with data := b.data, repeating := b.repeating, tags := b.tags }) := by
  have hdata : Block.set (vectorSource b') "data" (.vector (b.data.map Sample.toValue)) =
      (.ok (), vectorSource { b' with data := b.data }) :=
    congrArg (Prod.map id vectorSource) (VectorSource.set_data (htype ▸ htyped))
  have hrepeat : Block.set (vectorSource { b' with data := b.data }) "repeat"
      (.bool b.repeating) =
      (.ok (), vectorSource { b' with data := b.data, repeating := b.repeating }) := rfl
  have htags : Block.set (vectorSource { b' with data := b.data, repeating := b.repeating }) "tags"
      (.vector (b.tags.map Tag.toValue)) = (.ok (), vectorSource
        { b' with data := b.data, repeating := b.repeating, tags := b.tags }) :=
    congrArg (Prod.map id vectorSource) (VectorSource.set_tags _ b.tags)
  have hsettings : Block.settings (vectorSource b) =
      [("data", .vector (b.data.map Sample.toValue)), ("repeat", .bool b.repeating),
        ("tags", .vector (b.tags.map Tag.toValue))] := rfl
  simp only [hsettings, Node.setEach, hdata, hrepeat, htags]

/-- Accepted settings can be put back into a block that differs in nothing else. -/
theorem restore_eq {b b' : Builtin} (h : b.Accepted) (hbare : b'.bare = b.bare) :
    Node.restore b' (Block.settings b) = ⟨b, [], none⟩ := by
  cases b with
  | vectorSource b =>
    cases b' with
    | vectorSource b' =>
      simp only [bare, vectorSource.injEq, VectorSource.mk.injEq, true_and] at hbare
      obtain ⟨htype, hround, hposition⟩ := hbare
      have hback : { b' with data := b.data, repeating := b.repeating, tags := b.tags } = b := by
        rw [htype, hround, hposition]
      have hset := setEach_vectorSource htype h.isTyped
      rw [hback] at hset
      simp only [Node.restore, hset, h.settled]
    | _ => cases hbare
  | vectorSink b =>
    cases b' with
    | vectorSink b' =>
      cases b
      cases b'
      cases hbare
      rfl
    | _ => cases hbare
  | head b =>
    cases b' with
    | head b' =>
      cases b
      cases b'
      cases hbare
      rfl
    | _ => cases hbare
  | _ =>
    cases b' <;> cases hbare
    rfl

end Builtin
end Dataflow
