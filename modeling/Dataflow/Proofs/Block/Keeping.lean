import Dataflow.Proofs.Block.Faithful
import Dataflow.Proofs.Block.Form

/-!
# Built-in blocks are faithful to their settings

Every built-in block reports the settings that were made and accepts those that it reports
(`Builtin.faithful`). A block of a kind keeps the values of its settings as they are, except that a
vector source keeps its tags in the form in which tags are written, and stably sorts them when it
checks its settings (`BuiltinKind.forms`). The same holds of built-in blocks among others
(`Block.Faithful.map`).
-/

namespace Dataflow

/-! ### Forms -/

namespace VectorSource

/-- Tags in the form in which tags are written. -/
def keptTags (v : Value) : Value :=
  match v.asVector >>= readTags with
  | .ok tags => .vector (tags.map Tag.toValue)
  | .error _ => v

theorem keptTags_of_read {v : Value} {tags : List Tag}
    (h : v.asVector >>= readTags = .ok tags) : keptTags v = .vector (tags.map Tag.toValue) := by
  rw [keptTags, h]

theorem canonicalTags_keptTags (v : Value) : canonicalTags (keptTags v) = canonicalTags v := by
  rw [keptTags]
  cases h : v.asVector >>= readTags with
  | ok tags => rw [canonicalTags_encoded, canonicalTags_of_read h]
  | error => rfl

theorem canonicalTags_canonicalTags (v : Value) :
    canonicalTags (canonicalTags v) = canonicalTags v := by
  cases h : v.asVector >>= readTags with
  | ok tags =>
    rw [canonicalTags_of_read h, canonicalTags_encoded,
      Tag.mergeSort_of_ordered (Tag.ordered_mergeSort tags)]
  | error =>
    have hsame : canonicalTags v = v := by rw [canonicalTags, h]
    rw [hsame, hsame]

/-- Whether a setting is accepted depends on nothing but the sample type. -/
theorem update_congr {b b' : VectorSource} (htype : b'.type = b.type) (key : String) (v : Value) :
    ((b'.update key v).map fun _ => ()) = (b.update key v).map fun _ => () := by
  by_cases hdata : key = "data"
  · subst hdata
    simp only [VectorSource.update, htype]
    cases v.asVector >>= b.type.readAll <;> rfl
  by_cases hrepeat : key = "repeat"
  · subst hrepeat
    simp only [VectorSource.update]
    cases v.asBool <;> rfl
  by_cases htags : key = "tags"
  · subst htags
    simp only [VectorSource.update]
    cases v.asVector >>= VectorSource.readTags <;> rfl
  · rw [VectorSource.update, VectorSource.update] <;> first | rfl | assumption

end VectorSource

/-- The forms in which a block of a kind keeps the values of its settings. -/
def BuiltinKind.forms (kind : BuiltinKind) : Block.Forms where
  kept key v := if kind = .vectorSource ∧ key = "tags" then VectorSource.keptTags v else v
  arranged := kind.canonical
  arranged_arranged key v := by
    simp only [canonical]
    split
    · exact VectorSource.canonicalTags_canonicalTags v
    · rfl

theorem BuiltinKind.canonical_forms (kind : BuiltinKind) :
    kind.forms.canonical = kind.canonical := by
  funext key v
  simp only [Block.Forms.canonical, forms, canonical]
  split
  · exact VectorSource.canonicalTags_keptTags v
  · rfl

/-! ### Built-in blocks -/

namespace Builtin

variable {b b' : Builtin} {kind : BuiltinKind} {type : SampleType}

/-- A typed block of a kind and sample type. -/
structure IsOf (kind : BuiltinKind) (type : SampleType) (b : Builtin) : Prop where
  isTyped : b.IsTyped
  kind_eq : b.kind = kind
  type_eq : b.sampleType = type

theorem sampleType_bare (b : Builtin) : b.bare.sampleType = b.sampleType := by cases b <;> rfl

theorem IsOf.of_bare (h : b.IsOf kind type) (hbare : b'.bare = b.bare) (htyped : b'.IsTyped) :
    b'.IsOf kind type := by
  refine ⟨htyped, (kind_eq_of_bare hbare).trans h.kind_eq, ?_⟩
  rw [← sampleType_bare, hbare, sampleType_bare, h.type_eq]

theorem descriptors_of_kind (h : b'.kind = b.kind) :
    Block.descriptors b' = Block.descriptors b := by
  cases b <;> cases b' <;> cases h <;> rfl

/-- The settings of a block are in the order of their keys. -/
theorem sorted_settings (b : Builtin) : (Block.settings b).Sorted := by
  cases b with
  | vectorSource b =>
    refine List.pairwise_cons.mpr ⟨?_, List.pairwise_cons.mpr ⟨?_, List.pairwise_singleton _ _⟩⟩
    · simp only [List.mem_cons, List.not_mem_nil, or_false, forall_eq_or_imp, forall_eq]
      decide
    · simp only [List.mem_cons, List.not_mem_nil, or_false, forall_eq]
      decide
  | vectorSink | head => exact List.pairwise_singleton _ _
  | _ => exact List.Pairwise.nil

theorem hasKey_settings (b : Builtin) (key : String) :
    (Block.settings b).hasKey key = Node.declares b key := by
  have hkeys : (Block.settings b).keys = (Block.descriptors b).map SettingDescriptor.key := by
    cases b <;> rfl
  rw [Dictionary.hasKey_eq, hkeys, List.any_map]
  rfl

theorem set_vectorSource_fst (b : VectorSource) (key : String) (v : Value) :
    (Block.set (vectorSource b) key v).1 = (b.update key v).map fun _ => () := by
  show (b.set key v).1 = _
  rw [VectorSource.set]
  cases b.update key v <;> rfl

/-- Whether a setting is accepted depends on nothing but kind and type. -/
theorem set_congr (hkind : b'.kind = b.kind) (htype : b'.sampleType = b.sampleType) (key : String)
    (v : Value) : (Block.set b' key v).1 = (Block.set b key v).1 := by
  cases b with
  | vectorSource b =>
    cases b' with
    | vectorSource b' =>
      have htype : b'.type = b.type := htype
      rw [set_vectorSource_fst, set_vectorSource_fst, VectorSource.update_congr htype]
    | _ => cases hkind
  | vectorSink b =>
    cases b' with
    | vectorSink b' =>
      show (b'.set key v).1 = (b.set key v).1
      simp only [VectorSink.set]
      split
      · cases v.asInt .u64 <;> rfl
      · rfl
    | _ => cases hkind
  | head b =>
    cases b' with
    | head b' =>
      show (b'.set key v).1 = (b.set key v).1
      simp only [Head.set]
      split
      · cases v.asInt .u64 <;> rfl
      · rfl
    | _ => cases hkind
  | _ =>
    cases b' <;> cases hkind
    rfl

/-- A value is kept as it is unless it is that of tags. -/
theorem kept_of_ne {key : String} (h : ¬ (kind = .vectorSource ∧ key = "tags")) (v : Value) :
    kind.forms.kept key v = v := if_neg h

theorem settings_set_vectorSource {b : VectorSource} {key : String} {v : Value}
    (hok : (Block.set (vectorSource b) key v).1 = .ok ()) :
    Block.settings (Block.set (vectorSource b) key v).2 =
      (Block.settings (vectorSource b)).insert key (BuiltinKind.vectorSource.forms.kept key v) := by
  have hset : Block.set (vectorSource b) key v = (b.set key v).map id vectorSource := rfl
  rw [hset, VectorSource.set] at hok ⊢
  rcases b.update_cases key v with ⟨e, -, hu⟩ | ⟨data, rfl, rfl, -, hu⟩ |
    ⟨repeating, rfl, rfl, hu⟩ | ⟨tags, rfl, hread, hu⟩
  · rw [hu] at hok
    cases hok
  · rw [hu, kept_of_ne (by simp)]
    rfl
  · rw [hu, kept_of_ne (by simp)]
    rfl
  · rw [hu]
    show _ = Dictionary.insert _ "tags" (VectorSource.keptTags v)
    rw [VectorSource.keptTags_of_read hread]
    rfl

/-- An accepted setting is reported in the form in which it is kept. -/
theorem settings_set {key : String} {v : Value} (hok : (Block.set b key v).1 = .ok ()) :
    Block.settings (Block.set b key v).2 =
      (Block.settings b).insert key (b.kind.forms.kept key v) := by
  cases b with
  | vectorSource b => exact settings_set_vectorSource hok
  | vectorSink b =>
    have hset : Block.set (vectorSink b) key v = (b.set key v).map id vectorSink := rfl
    rw [kept_of_ne (by simp [kind])]
    rw [hset, VectorSink.set] at hok ⊢
    split at hok
    next hkey =>
      subst hkey
      cases hread : v.asInt .u64 with
      | error e =>
        rw [hread] at hok
        cases hok
      | ok n =>
        rw [Value.asInt_eq_ok_iff.mp hread]
        rfl
    next => cases hok
  | head b =>
    have hset : Block.set (head b) key v = (b.set key v).map id head := rfl
    rw [kept_of_ne (by simp [kind])]
    rw [hset, Head.set] at hok ⊢
    split at hok
    next hkey =>
      subst hkey
      cases hread : v.asInt .u64 with
      | error e =>
        rw [hread] at hok
        cases hok
      | ok n =>
        rw [Value.asInt_eq_ok_iff.mp hread]
        rfl
    next => cases hok
  | _ => cases hok

/-- What is reported is accepted, and kept as it is. -/
theorem set_reported {key : String} {v : Value} (htyped : b.IsTyped)
    (hget : (Block.settings b).get? key = some v) :
    (Block.set b key v).1 = .ok () ∧ b.kind.forms.kept key v = v := by
  have hentry := Dictionary.mem_of_get? hget
  cases b with
  | vectorSource b =>
    have hset : (Block.set (vectorSource b) key v).1 = (b.set key v).1 := rfl
    have hsettings : Block.settings (vectorSource b) =
      [("data", .vector (b.data.map Sample.toValue)), ("repeat", .bool b.repeating),
        ("tags", .vector (b.tags.map Tag.toValue))] := rfl
    simp only [hsettings, List.mem_cons, Prod.mk.injEq, List.not_mem_nil, or_false] at hentry
    rw [hset]
    rcases hentry with ⟨rfl, rfl⟩ | ⟨rfl, rfl⟩ | ⟨rfl, rfl⟩
    · exact ⟨congrArg Prod.fst (VectorSource.set_data htyped), kept_of_ne (by simp) _⟩
    · exact ⟨rfl, kept_of_ne (by simp) _⟩
    · exact ⟨congrArg Prod.fst (b.set_tags b.tags),
        VectorSource.keptTags_of_read (VectorSource.readTags_map_toValue b.tags)⟩
  | vectorSink b =>
    obtain ⟨rfl, rfl⟩ := Prod.mk.inj (List.mem_singleton.mp hentry)
    exact ⟨rfl, kept_of_ne (by simp [kind]) _⟩
  | head b =>
    obtain ⟨rfl, rfl⟩ := Prod.mk.inj (List.mem_singleton.mp hentry)
    exact ⟨rfl, kept_of_ne (by simp [kind]) _⟩
  | _ => cases hentry

theorem settle_eq_ok_iff {b : VectorSource} : (Block.settle (vectorSource b)).1 = .ok () ↔
    ∀ t ∈ b.tags, VectorSource.isStray b.data.length t = false := by
  refine ⟨fun hok t ht => ?_, fun h => by rw [settle_vectorSource h]⟩
  have hsettle : Block.settle (vectorSource b) = b.settle.map id vectorSource := rfl
  rw [hsettle, VectorSource.settle] at hok
  cases hfind : b.tags.find? (VectorSource.isStray b.data.length) with
  | some stray =>
    simp only [hfind] at hok
    cases hok
  | none => simpa using List.find?_eq_none.mp hfind t ht

/-- The order in which tags were set does not matter for whether they are accepted. -/
theorem settle_congr (hkind : b'.kind = b.kind)
    (hsame : (Block.settings b').mapValues b.kind.canonical =
      (Block.settings b).mapValues b.kind.canonical) (hok : (Block.settle b).1 = .ok ()) :
    (Block.settle b').1 = .ok () := by
  cases b with
  | vectorSource b =>
    cases b' with
    | vectorSource b' =>
      have hfields : [("data", Value.vector (b'.data.map Sample.toValue)),
          ("repeat", .bool b'.repeating),
          ("tags", VectorSource.canonicalTags (.vector (b'.tags.map Tag.toValue)))] =
          [("data", .vector (b.data.map Sample.toValue)), ("repeat", .bool b.repeating),
            ("tags", VectorSource.canonicalTags (.vector (b.tags.map Tag.toValue)))] := hsame
      simp only [VectorSource.canonicalTags_encoded, List.cons.injEq, Prod.mk.injEq,
        Value.vector.injEq, true_and, and_true] at hfields
      obtain ⟨hvalues, -, htags⟩ := hfields
      have hlength : b'.data.length = b.data.length := by
        simpa using congrArg List.length hvalues
      have hsorted : b'.tags.mergeSort Tag.precedes = b.tags.mergeSort Tag.precedes := by
        have h := VectorSource.readTags_map_toValue (b'.tags.mergeSort Tag.precedes)
        rw [htags, VectorSource.readTags_map_toValue] at h
        exact (Except.ok.inj h).symm
      rw [settle_eq_ok_iff, hlength]
      exact fun t ht => settle_eq_ok_iff.mp hok t
        (List.mem_mergeSort.mp (hsorted ▸ List.mem_mergeSort.mpr ht))
    | _ => cases hkind
  | _ =>
    cases b' <;> cases hkind
    rfl

/-- Built-in blocks of a kind and a type are faithful to their settings. -/
theorem faithful (kind : BuiltinKind) (type : SampleType) :
    Block.Faithful kind.forms (IsOf kind type) where
  descriptors h h' := descriptors_of_kind (h'.kind_eq.trans h.kind_eq.symm)
  isPermissive _ _ := rfl
  sorted {b} _ := b.sorted_settings
  keys {b} _ := b.hasKey_settings
  set {b} h key v := by
    rcases b.set_cases key v with ⟨e, -, hset⟩ | ⟨b', hset, hbecomes⟩
    · rw [hset]
      exact h
    · rw [hset]
      exact h.of_bare hbecomes.bare (hbecomes.isTyped h.isTyped)
  verdict h h' := set_congr (h'.kind_eq.trans h.kind_eq.symm) (h'.type_eq.trans h.type_eq.symm)
  stores h key v _ hok := h.kind_eq ▸ settings_set hok
  reported h key v hget := h.kind_eq ▸ set_reported h.isTyped hget
  settle {b} h := by
    rcases b.settle_cases with ⟨e, -, hsettle⟩ | ⟨b', hsettle, hbare, haccepted, -⟩
    · rw [hsettle]
      exact h
    · rw [hsettle]
      exact h.of_bare hbare (haccepted h.isTyped).isTyped
  arranges {b} h hok := by
    rcases b.settle_cases with ⟨e, -, hsettle⟩ | ⟨b', hsettle, -, -, hsettings⟩
    · rw [hsettle] at hok
      cases hok
    · rw [hsettle, hsettings, h.kind_eq]
      rfl
  check {b b'} h h' hsame := by
    have hform := form_eq_of_settings h.isTyped h'.isTyped (h'.kind_eq.trans h.kind_eq.symm)
      (h'.type_eq.trans h.type_eq.symm) hsame
    have hsettle : ∀ b : Builtin, (Block.settle b).1 = (Block.settle b.form).1 := fun b => by
      rw [settle_form]
      rfl
    rw [hsettle b', hform, ← hsettle]
  accepts h h' hsame hok := settle_congr (h'.kind_eq.trans h.kind_eq.symm)
    (by rw [h.kind_eq]; exact hsame) hok
  plain {b} h key hmutable v := by
    have hkey : ¬ (kind = .vectorSource ∧ key = "tags") := by
      rintro ⟨rfl, rfl⟩
      cases b with
      | vectorSource => cases hmutable ⟨"tags", "Tags indexed into data", false⟩ rfl
      | _ => cases h.kind_eq
    exact ⟨if_neg hkey, if_neg hkey⟩

end Builtin
end Dataflow
