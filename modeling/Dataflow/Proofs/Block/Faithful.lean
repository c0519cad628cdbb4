import Dataflow.Proofs.Dictionary
import Dataflow.Proofs.Node.Settings

/-!
# Blocks that are faithful to their settings

A block is faithful to its settings if it reports what was set, and accepts what it reports
(`Block.Faithful`). What was set need not be reported to the letter: a block may have forms in which
it keeps the values of its settings (`Block.Forms`). A batch of settings that such a block accepts
overwrites those that were there (`tryApply_spec`), it is accepted again with the same result
(`tryApply_again`), and settings that were reported can be put back (`restore_spec`) or made as a
batch (`tryApply_settings`). Whether a batch is accepted depends on the settings alone, and not on
what else is in the block (`tryApply_congr`).
-/

namespace Dataflow

/-- The forms in which a block keeps the values of its settings. -/
structure Block.Forms where
  /-- The form in which a value is kept once it is set. -/
  kept : String → Value → Value
  /-- The form into which the check of the settings as a whole brings it. -/
  arranged : String → Value → Value
  arranged_arranged : ∀ key v, arranged key (arranged key v) = arranged key v

namespace Block.Forms

/-- Every value is kept as it is. -/
def plain : Forms := ⟨fun _ v => v, fun _ v => v, fun _ _ => rfl⟩

/-- The form of a value that has been set and checked. -/
def canonical (F : Forms) (key : String) (v : Value) : Value := F.arranged key (F.kept key v)

theorem mapValues_arranged (F : Forms) (d : PropertyMap) :
    (d.mapValues F.arranged).mapValues F.arranged = d.mapValues F.arranged := by
  simp [Dictionary.mapValues, F.arranged_arranged]

theorem mapValues_plain (d : PropertyMap) : d.mapValues plain.arranged = d := List.map_id d

end Block.Forms

variable {β : Type} [Block β] {F : Block.Forms}

/-- States of a block that is faithful to its settings. -/
structure Block.Faithful (F : Block.Forms) (P : β → Prop) : Prop where
  descriptors {b b' : β} : P b → P b' → Block.descriptors b' = Block.descriptors b
  isPermissive {b b' : β} : P b → P b' → Block.isPermissive b' = Block.isPermissive b
  sorted {b : β} : P b → (Block.settings b).Sorted
  /-- The declared settings are reported, and no others. -/
  keys {b : β} : P b → ∀ key, (Block.settings b).hasKey key = Node.declares b key
  set {b : β} : P b → ∀ key v, P (Block.set b key v).2
  /-- Whether a setting is accepted depends only on its key and value. -/
  verdict {b b' : β} : P b → P b' → ∀ key v, (Block.set b' key v).1 = (Block.set b key v).1
  /-- An accepted setting is reported from then on, and the others as before. -/
  stores {b : β} : P b → ∀ key v, Node.declares b key = true → (Block.set b key v).1 = .ok () →
    Block.settings (Block.set b key v).2 = (Block.settings b).insert key (F.kept key v)
  /-- What is reported is accepted, and kept as it is. -/
  reported {b : β} : P b → ∀ key v, (Block.settings b).get? key = some v →
    (Block.set b key v).1 = .ok () ∧ F.kept key v = v
  settle {b : β} : P b → P (Block.settle b).2
  arranges {b : β} : P b → (Block.settle b).1 = .ok () →
    Block.settings (Block.settle b).2 = (Block.settings b).mapValues F.arranged
  /-- Whether the settings as a whole are accepted depends only on them. -/
  check {b b' : β} : P b → P b' → Block.settings b' = Block.settings b →
    (Block.settle b').1 = (Block.settle b).1
  /-- Accepted settings are accepted in the form into which they are brought. -/
  accepts {b b' : β} : P b → P b' →
    (Block.settings b').mapValues F.arranged = (Block.settings b).mapValues F.arranged →
    (Block.settle b).1 = .ok () → (Block.settle b').1 = .ok ()
  /-- Settings that may change while the block runs, and foreign ones, are kept as they are. -/
  plain {b : β} : P b → ∀ key,
    (∀ d, (Block.descriptors b).find? (fun d => d.key = key) = some d → d.isMutable = true) →
    ∀ v, F.kept key v = v ∧ F.arranged key v = v

/-- A map that leaves settings as they are carries faithful blocks over. -/
theorem Block.Faithful.map {γ : Type} [Block γ] {P : β → Prop} (h : Block.Faithful F P) {f : β → γ}
    (hf : Block.KeepsSettings f) : Block.Faithful F fun c => ∃ b, c = f b ∧ P b where
  descriptors := by
    rintro _ _ ⟨b, rfl, hb⟩ ⟨b', rfl, hb'⟩
    rw [hf.descriptors, hf.descriptors, h.descriptors hb hb']
  isPermissive := by
    rintro _ _ ⟨b, rfl, hb⟩ ⟨b', rfl, hb'⟩
    rw [hf.isPermissive, hf.isPermissive, h.isPermissive hb hb']
  sorted := by
    rintro _ ⟨b, rfl, hb⟩
    rw [hf.settings]
    exact h.sorted hb
  keys := by
    rintro _ ⟨b, rfl, hb⟩ key
    rw [hf.settings, Node.declares_map hf, h.keys hb]
  set := by
    rintro _ ⟨b, rfl, hb⟩ key v
    rw [hf.set]
    exact ⟨_, rfl, h.set hb key v⟩
  verdict := by
    rintro _ _ ⟨b, rfl, hb⟩ ⟨b', rfl, hb'⟩ key v
    rw [hf.set, hf.set]
    exact h.verdict hb hb' key v
  stores := by
    rintro _ ⟨b, rfl, hb⟩ key v hkey hok
    rw [Node.declares_map hf] at hkey
    rw [hf.set] at hok ⊢
    rw [hf.settings, ← h.stores hb key v hkey hok]
    exact hf.settings _
  reported := by
    rintro _ ⟨b, rfl, hb⟩ key v hget
    rw [hf.settings] at hget
    rw [hf.set]
    exact h.reported hb key v hget
  settle := by
    rintro _ ⟨b, rfl, hb⟩
    rw [hf.settle]
    exact ⟨_, rfl, h.settle hb⟩
  arranges := by
    rintro _ ⟨b, rfl, hb⟩ hok
    rw [hf.settle] at hok ⊢
    rw [hf.settings, ← h.arranges hb hok]
    exact hf.settings _
  check := by
    rintro _ _ ⟨b, rfl, hb⟩ ⟨b', rfl, hb'⟩ hsame
    rw [hf.settings, hf.settings] at hsame
    rw [hf.settle, hf.settle]
    exact h.check hb hb' hsame
  accepts := by
    rintro _ _ ⟨b, rfl, hb⟩ ⟨b', rfl, hb'⟩ hsame hok
    rw [hf.settings, hf.settings] at hsame
    rw [hf.settle] at hok ⊢
    exact h.accepts hb hb' hsame hok
  plain := by
    rintro _ ⟨b, rfl, hb⟩ key hmutable
    rw [hf.descriptors] at hmutable
    exact h.plain hb key hmutable

/-- A block that would accept the settings it reports. -/
structure Block.Settled (F : Block.Forms) (P : β → Prop) (b : β) : Prop where
  states : P b
  settled : (Block.settle b).1 = .ok ()
  arranged : (Block.settings b).mapValues F.arranged = Block.settings b

namespace Node

/-! ### Batches of settings -/

/-- Entries of which none is refused are all set. -/
theorem setAll_of_setEach {b c : β} {entries : List (String × Value)}
    (h : setEach b entries = ([], c)) : setAll b entries = (.ok (), c) := by
  induction entries generalizing b with
  | nil => exact congrArg (Prod.mk _) (congrArg Prod.snd h)
  | cons entry rest ih =>
    obtain ⟨key, v⟩ := entry
    rw [setEach] at h
    rw [setAll]
    rcases hout : Block.set b key v with ⟨result, d⟩
    rw [hout] at h
    cases result with
    | ok => exact ih h
    | error e => cases congrArg Prod.fst h

variable {P : β → Prop} (hP : Block.Faithful F P) {b b' : β}

include hP

theorem declares_congr (hb : P b) (hb' : P b') : declares b' = declares b := by
  funext key
  rw [declares, declares, hP.descriptors hb hb']

theorem declared_congr (hb : P b) (hb' : P b') (settings : PropertyMap) :
    declared b' settings = declared b settings := by
  rw [declared, declared, declares_congr hP hb hb']

theorem setAll_congr (hb : P b) (hb' : P b') (entries : List (String × Value)) :
    (setAll b' entries).1 = (setAll b entries).1 := by
  induction entries generalizing b b' with
  | nil => rfl
  | cons entry rest ih =>
    obtain ⟨key, v⟩ := entry
    have hverdict := hP.verdict hb hb' key v
    have hset := hP.set hb key v
    have hset' := hP.set hb' key v
    rw [setAll, setAll]
    rcases hout : Block.set b key v with ⟨result, c⟩
    rcases hout' : Block.set b' key v with ⟨result', c'⟩
    rw [hout] at hset hverdict
    rw [hout'] at hset' hverdict
    obtain rfl : result' = result := hverdict
    cases result' with
    | ok => exact ih hset hset'
    | error => rfl

/-- Declared settings that are all accepted overwrite those that were there. -/
theorem setAll_spec (hb : P b) {entries : List (String × Value)}
    (hdeclared : ∀ entry ∈ entries, declares b entry.1 = true) :
    P (setAll b entries).2 ∧ ((setAll b entries).1 = .ok () →
      Block.settings (setAll b entries).2 =
        Dictionary.overwrite (Block.settings b) (Dictionary.mapValues F.kept entries)) := by
  induction entries generalizing b with
  | nil => exact ⟨hb, fun _ => rfl⟩
  | cons entry rest ih =>
    obtain ⟨key, v⟩ := entry
    have hset := hP.set hb key v
    have hstores := hP.stores hb key v (hdeclared _ (List.mem_cons_self ..))
    rw [setAll]
    rcases hout : Block.set b key v with ⟨result, c⟩
    rw [hout] at hset hstores
    cases result with
    | ok =>
      have hrest : ∀ entry ∈ rest, declares c entry.1 = true := fun entry hentry => by
        rw [declares_congr hP hb hset]
        exact hdeclared entry (List.mem_cons_of_mem _ hentry)
      have hsettings : Block.settings c = (Block.settings b).insert key (F.kept key v) :=
        hstores rfl
      obtain ⟨hc, hoverwrite⟩ := ih hset hrest
      refine ⟨hc, fun hok => (hoverwrite hok).trans ?_⟩
      rw [hsettings]
      rfl
    | error => exact ⟨hset, fun hok => by cases hok⟩

theorem setEach_spec (hb : P b) {entries : List (String × Value)}
    (hok : ∀ entry ∈ entries, declares b entry.1 = true ∧
      (Block.set b entry.1 entry.2).1 = .ok ()) :
    ∃ c, setEach b entries = ([], c) ∧ P c ∧ Block.settings c =
      Dictionary.overwrite (Block.settings b) (Dictionary.mapValues F.kept entries) := by
  induction entries generalizing b with
  | nil => exact ⟨b, rfl, hb, rfl⟩
  | cons entry rest ih =>
    obtain ⟨key, v⟩ := entry
    obtain ⟨hkey, haccepted⟩ := hok _ (List.mem_cons_self ..)
    have hset := hP.set hb key v
    have hstores := hP.stores hb key v hkey haccepted
    rw [setEach]
    rcases hout : Block.set b key v with ⟨result, c⟩
    rw [hout] at hset hstores haccepted
    obtain rfl : result = .ok () := haccepted
    have hsettings : Block.settings c = (Block.settings b).insert key (F.kept key v) := hstores
    obtain ⟨d, hd, hPd, hoverwrite⟩ := ih hset fun entry hentry => by
      rw [declares_congr hP hb hset, hP.verdict hb hset]
      exact hok entry (List.mem_cons_of_mem _ hentry)
    refine ⟨d, hd, hPd, hoverwrite.trans ?_⟩
    rw [hsettings]
    rfl

/-- What is reported has the form in which it is kept. -/
theorem mapValues_kept (hb : P b) :
    (Block.settings b).mapValues F.kept = Block.settings b := by
  have hsorted := hP.sorted hb
  refine (hsorted.mapValues F.kept).ext hsorted fun k => ?_
  rw [Dictionary.get?_mapValues]
  cases hget : (Block.settings b).get? k with
  | none => rfl
  | some v => exact congrArg some (hP.reported hb k v hget).2

/-- What a block reports is accepted by every state of it, and is then what that reports. -/
theorem setEach_settings (hb : P b) (hb' : P b') :
    ∃ c, setEach b' (Block.settings b) = ([], c) ∧ P c ∧ Block.settings c = Block.settings b := by
  have hkeys : ∀ k, (Block.settings b').hasKey k = (Block.settings b).hasKey k := fun k => by
    rw [hP.keys hb', hP.keys hb, declares_congr hP hb hb']
  obtain ⟨c, hc, hPc, hsettings⟩ := setEach_spec hP hb' fun entry hentry => by
    have hget : (Block.settings b).get? entry.1 = some entry.2 :=
      (Dictionary.get?_eq_some_iff (hP.sorted hb).nodup_keys).mpr hentry
    rw [← hP.keys hb', hkeys, hP.verdict hb hb']
    exact ⟨by simp [Dictionary.hasKey, hget], (hP.reported hb _ _ hget).1⟩
  rw [mapValues_kept hP hb,
    (hP.sorted hb').overwrite_eq (hP.sorted hb) fun k hk => hkeys k ▸ hk] at hsettings
  exact ⟨c, hc, hPc, hsettings⟩

/-- Settings that were accepted once are accepted as a whole by a block that reports them. -/
theorem settle_spec (hb : Block.Settled F P b) (hb' : P b')
    (hsame : Block.settings b' = Block.settings b) :
    ∃ c, Block.settle b' = (.ok (), c) ∧ P c ∧ Block.settings c = Block.settings b := by
  obtain ⟨hb, hsettled, harranged⟩ := hb
  have hcheck := (hP.check hb hb' hsame).trans hsettled
  have hc := hP.settle hb'
  have hsettings := hP.arranges hb' hcheck
  rcases hout : Block.settle b' with ⟨result, c⟩
  rw [hout] at hcheck hc hsettings
  obtain rfl : result = .ok () := hcheck
  exact ⟨c, rfl, hc, by rw [hsettings, hsame, harranged]⟩

/-- Settings that have been reported can be put back. -/
theorem restore_spec (hb : Block.Settled F P b) (hb' : P b') :
    ∃ c, restore b' (Block.settings b) = ⟨c, [], none⟩ ∧ P c ∧
      Block.settings c = Block.settings b := by
  obtain ⟨c, hc, hPc, hsettings⟩ := setEach_settings hP hb.states hb'
  obtain ⟨d, hd, hPd, hsame⟩ := settle_spec hP hb hPc hsettings
  exact ⟨d, by simp only [restore, hc, hd], hPd, hsame⟩

theorem declared_reported (hb : P b) (hb' : P b') :
    declared b' (Block.settings b) = Block.settings b :=
  List.filter_eq_self.mpr fun entry hentry => by
    show declares b' entry.1 = true
    rw [declares_congr hP hb hb', ← hP.keys hb]
    exact Dictionary.hasKey_iff_mem_keys.mpr (List.mem_map_of_mem hentry)

/-- Settings that have been reported are accepted as a batch, by every state of the block. -/
theorem tryApply_settings (hb : Block.Settled F P b) (hb' : P b') :
    ∃ c, tryApply b' (Block.settings b) = (.ok (), c) ∧ P c ∧
      Block.settings c = Block.settings b := by
  obtain ⟨c, hc, hPc, hsettings⟩ := setEach_settings hP hb.states hb'
  obtain ⟨d, hd, hPd, hsame⟩ := settle_spec hP hb hPc hsettings
  refine ⟨d, ?_, hPd, hsame⟩
  rw [tryApply_eq, declared_reported hP hb.states hb', setAll_of_setEach hc]
  exact hd

/-- A batch of settings is refused at one of them, or all of them are set and then checked. -/
theorem tryApply_cases (hb : P b) (settings : PropertyMap) :
    (∃ e c, (setAll b (declared b settings)).1 = .error e ∧
      tryApply b settings = (.error e, c) ∧ P c) ∨
    ∃ c, (setAll b (declared b settings)).1 = .ok () ∧ tryApply b settings = Block.settle c ∧ P c ∧
      Block.settings c =
        Dictionary.overwrite (Block.settings b) ((declared b settings).mapValues F.kept) := by
  obtain ⟨hc, hsettings⟩ := setAll_spec hP hb fun entry hentry => (mem_declared.mp hentry).2
  rw [tryApply_eq]
  rcases hout : setAll b (declared b settings) with ⟨result, c⟩
  rw [hout] at hc hsettings
  cases result with
  | ok => exact .inr ⟨c, rfl, rfl, hc, hsettings rfl⟩
  | error e => exact .inl ⟨e, c, rfl, rfl, hc⟩

/-- A batch of settings that is accepted overwrites those that were there. -/
theorem tryApply_spec (hb : P b) (settings : PropertyMap) :
    P (tryApply b settings).2 ∧ ((tryApply b settings).1 = .ok () →
      Block.Settled F P (tryApply b settings).2 ∧
      Block.settings (tryApply b settings).2 =
        (Dictionary.overwrite (Block.settings b)
          ((declared b settings).mapValues F.kept)).mapValues F.arranged) := by
  rcases tryApply_cases hP hb settings with ⟨e, c, -, htry, hc⟩ | ⟨c, -, htry, hc, hsettings⟩
  · rw [htry]
    exact ⟨hc, nofun⟩
  · rw [htry]
    have hd := hP.settle hc
    refine ⟨hd, fun hok => ?_⟩
    have hsame := hP.arranges hc hok
    have harranged : (Block.settings (Block.settle c).2).mapValues F.arranged =
        (Block.settings c).mapValues F.arranged := by rw [hsame, F.mapValues_arranged]
    refine ⟨⟨hd, hP.accepts hc hd harranged hok, by rw [harranged, hsame]⟩, ?_⟩
    rw [hsame, hsettings]

/-- Whether a batch of settings is accepted depends only on it and on what is there. -/
theorem tryApply_congr (hb : P b) (hb' : P b') (hsame : Block.settings b' = Block.settings b)
    (settings : PropertyMap) : (tryApply b' settings).1 = (tryApply b settings).1 := by
  have hall := setAll_congr hP hb hb' (declared b settings)
  have hcases := tryApply_cases hP hb' settings
  rw [declared_congr hP hb hb', hall] at hcases
  rcases tryApply_cases hP hb settings with ⟨e, c, he, htry, -⟩ | ⟨c, hok, htry, hc, hsettings⟩
  · rcases hcases with ⟨e', c', he', htry', -⟩ | ⟨c', hok', -⟩
    · cases he.symm.trans he'
      rw [htry, htry']
    · cases he.symm.trans hok'
  · rcases hcases with ⟨e', c', he', -⟩ | ⟨c', -, htry', hc', hsettings'⟩
    · cases he'.symm.trans hok
    · rw [htry, htry']
      exact hP.check hc hc' (by rw [hsettings, hsettings', hsame])

/-- A batch of settings that was accepted is accepted again, and then changes none of them. -/
theorem tryApply_again (hb : P b) (hb' : P b') {settings : PropertyMap}
    (hok : (tryApply b settings).1 = .ok ())
    (hsame : Block.settings b' = Block.settings (tryApply b settings).2) :
    (tryApply b' settings).1 = .ok () ∧
      Block.settings (tryApply b' settings).2 = Block.settings b' := by
  have hdeclared := declared_congr hP hb hb' settings
  have hfirst := ((tryApply_spec hP hb settings).2 hok).2
  -- overwriting the settings once more brings them into the same form
  have hfixed : (Dictionary.overwrite (Block.settings b')
      ((declared b settings).mapValues F.kept)).mapValues F.arranged = Block.settings b' := by
    rw [hsame, hfirst, Dictionary.mapValues_overwrite, F.mapValues_arranged,
      Dictionary.mapValues_overwrite,
      ((hP.sorted hb).mapValues F.arranged).overwrite_overwrite]
  have hagain : (tryApply b' settings).1 = .ok () := by
    have hall := setAll_congr hP hb hb' (declared b settings)
    have hcases := tryApply_cases hP hb' settings
    rw [hdeclared, hall] at hcases
    rcases tryApply_cases hP hb settings with ⟨e, c, -, htry, -⟩ | ⟨c, hset, htry, hc, hsettings⟩
    · rw [htry] at hok
      cases hok
    rcases hcases with ⟨e', c', he', -⟩ | ⟨c', -, htry', hc', hsettings'⟩
    · cases he'.symm.trans hset
    · rw [htry] at hok
      rw [htry']
      refine hP.accepts hc hc' ?_ hok
      rw [hsettings', hfixed, hsettings, hsame, hfirst]
  refine ⟨hagain, ?_⟩
  rw [((tryApply_spec hP hb' settings).2 hagain).2, hdeclared]
  exact hfixed

end Node
end Dataflow
