import Dataflow.Proofs.Block.Settings

/-!
# Forms of built-in blocks

The form of a built-in block is the block without what it has done (`Builtin.form`). It consists of
the settings of the block, with its kind and type (`Builtin.form_eq_of_settings`), and whether the
settings are accepted depends on nothing else (`Builtin.Accepted.of_form`).
-/

namespace Dataflow

/-- A block as it is configured, without what it has done. -/
def Builtin.form : Builtin → Builtin
  | nullSource b => nullSource { b with produced := 0 }
  | nullSink b => nullSink { b with consumed := 0 }
  | vectorSource b => vectorSource { b with round := #[], position := 0 }
  | vectorSink b => vectorSink { b with data := .empty, tags := .empty }
  | head b => head { b with published := 0 }
  | copy b => copy b
  | tagGate b => tagGate b

namespace Builtin

theorem isTyped_form (b : Builtin) : b.form.IsTyped ↔ b.IsTyped := by cases b <;> exact Iff.rfl

theorem settle_form (b : Builtin) : Block.settle b.form = (Block.settle b).map id form := by
  cases b with
  | vectorSource b =>
    have hsettle : ∀ b : VectorSource,
        Block.settle (vectorSource b) = b.settle.map id vectorSource := fun _ => rfl
    simp only [form, hsettle, VectorSource.settle]
    cases b.tags.find? (VectorSource.isStray b.data.length) <;> rfl
  | _ => rfl

/-- A block consists of its settings and of what it has done. -/
theorem eq_of_form_of_bare {b b' : Builtin} (hform : b'.form = b.form) (hbare : b'.bare = b.bare) :
    b' = b := by
  cases b with
  | vectorSource b =>
    cases b' with
    | vectorSource b' =>
      cases b
      cases b'
      cases hform
      cases hbare
      rfl
    | _ => cases hform
  | vectorSink b =>
    cases b' with
    | vectorSink b' =>
      cases b
      cases b'
      cases hform
      cases hbare
      rfl
    | _ => cases hform
  | head b =>
    cases b' with
    | head b' =>
      cases b
      cases b'
      cases hform
      cases hbare
      rfl
    | _ => cases hform
  | _ =>
    cases b' <;> cases hbare
    rfl

/-- Whether settings have been accepted does not depend on what the block has done. -/
theorem Accepted.of_form {b b' : Builtin} (h : b.Accepted) (hform : b'.form = b.form) :
    b'.Accepted := by
  refine ⟨(isTyped_form b').mp (hform ▸ (isTyped_form b).mpr h.isTyped), ?_⟩
  have hsame : (Block.settle b').map id form = (.ok (), b.form) := by
    rw [← settle_form, hform, settle_form, h.settled]
    rfl
  rcases b'.settle_cases with ⟨e, -, hsettle⟩ | ⟨b'', hsettle, hbare, -, -⟩
  · rw [hsettle] at hsame
    cases hsame
  · rw [hsettle] at hsame ⊢
    have hform' : b''.form = b'.form := (congrArg Prod.snd hsame).trans hform.symm
    rw [eq_of_form_of_bare hform' hbare]

/-- The settings of a block, with its kind and type, are all of its form. -/
theorem form_eq_of_settings {b b' : Builtin} (hb : b.IsTyped) (hb' : b'.IsTyped)
    (hkind : b'.kind = b.kind) (htype : b'.sampleType = b.sampleType)
    (hsettings : Block.settings b' = Block.settings b) : b'.form = b.form := by
  cases b with
  | vectorSource b =>
    cases b' with
    | vectorSource b' =>
      have hfields : [("data", Value.vector (b'.data.map Sample.toValue)),
          ("repeat", .bool b'.repeating), ("tags", .vector (b'.tags.map Tag.toValue))] =
          [("data", .vector (b.data.map Sample.toValue)), ("repeat", .bool b.repeating),
            ("tags", .vector (b.tags.map Tag.toValue))] := hsettings
      simp only [List.cons.injEq, Prod.mk.injEq, Value.vector.injEq, Value.bool.injEq, true_and,
        and_true] at hfields
      obtain ⟨hvalues, hrepeat, htags⟩ := hfields
      have htype : b'.type = b.type := htype
      -- samples and tags are read back from their values
      have hread : b.type.readAll (b.data.map Sample.toValue) = .ok b.data :=
        SampleType.readAll_eq_ok_iff.mpr ⟨hb, rfl⟩
      have hread' : b.type.readAll (b.data.map Sample.toValue) = .ok b'.data :=
        SampleType.readAll_eq_ok_iff.mpr ⟨htype ▸ hb', hvalues⟩
      have hdata : b'.data = b.data := Except.ok.inj (hread'.symm.trans hread)
      have htags : b'.tags = b.tags := by
        have h := VectorSource.readTags_map_toValue b'.tags
        rw [htags, VectorSource.readTags_map_toValue] at h
        exact (Except.ok.inj h).symm
      simp only [form, hdata, hrepeat, htags, htype]
    | _ => cases hkind
  | vectorSink b =>
    cases b' with
    | vectorSink b' =>
      have hfields : [("reserve_items", Value.int .u64 b'.reserveItems)] =
        [("reserve_items", .int .u64 b.reserveItems)] := hsettings
      cases b
      cases b'
      cases hfields
      cases htype
      rfl
    | _ => cases hkind
  | head b =>
    cases b' with
    | head b' =>
      have hfields : [("num_items", Value.int .u64 b'.numItems)] =
        [("num_items", .int .u64 b.numItems)] := hsettings
      cases b
      cases b'
      cases hfields
      cases htype
      rfl
    | _ => cases hkind
  | nullSource b | nullSink b | copy b | tagGate b =>
    cases b' <;> cases hkind
    next b' =>
      cases b
      cases b'
      cases htype
      rfl

end Builtin
end Dataflow
