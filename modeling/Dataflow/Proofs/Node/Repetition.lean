import Dataflow.Proofs.Block.Faithful
import Dataflow.Proofs.Execution.Nodes
import Mathlib.Logic.Function.Iterate

/-!
# Making the same change again

An attempt to change the settings of a node either is accepted or refused, and what is attempted
again may turn out differently, since it meets another state. It does not if the block is faithful
to its settings: then what was accepted is accepted again with the same result
(`Node.AcceptedAlike`), and what was refused is refused again for the same reason
(`Node.RefusedAlike`). A change while the block runs moreover makes every setting to the letter
(`IsSettled.changed_running`), since it may concern only those that are kept as they are.
-/

namespace Dataflow

variable {β : Type} [Block β]

namespace Node

variable {ε : Type} {n m : Node β} {settings : PropertyMap} {isRunning : Bool}

/-! ### Attempts -/

/-- What an attempt gives, which are the settings if it is accepted, and the node after it. -/
abbrev Attempt (β ε : Type) := Node β → Except ε PropertyMap × Node β

/-- To ask for a change of settings by a message. -/
def asking (m : Message) : Attempt β MessageError := fun n => ((n.answer m).data, (n.answer m).node)

/-- To change settings directly. -/
def changing (settings : PropertyMap) (isRunning : Bool) : Attempt β SettingsError := fun n =>
  let u := n.apply settings isRunning
  (u.result.map fun () => u.node.settings, u.node)

/-- To make the settings of construction. -/
def making (settings : PropertyMap) : Attempt β SettingsError := fun n =>
  let u := n.initialise settings
  (u.result.map fun () => u.node.settings, u.node)

omit [Block β] in
/-- The node after a number of attempts. -/
def after (n : Node β) (attempt : Attempt β ε) (k : Nat) : Node β :=
  (fun n => (attempt n).2)^[k] n

/-- If an attempt is accepted, it gives certain settings, and every further one gives the same. -/
def AcceptedAlike (attempt : Attempt β ε) (n : Node β) (goal : PropertyMap) : Prop :=
  ∀ data, (attempt n).1 = .ok data → data = goal ∧ ∀ k,
    (attempt (n.after attempt k)).1 = .ok goal ∧ (n.after attempt (k + 1)).settings = goal ∧
      (n.after attempt (k + 1)).extra = (n.after attempt 1).extra

/-- If an attempt is refused, every further one is refused for the same reason, and the settings
stay as they are. -/
def RefusedAlike (attempt : Attempt β ε) (n : Node β) : Prop :=
  ∀ e, (attempt n).1 = .error e → ∀ k,
    (attempt (n.after attempt k)).1 = .error e ∧ (n.after attempt k).settings = n.settings ∧
      (n.after attempt k).extra = n.extra

omit [Block β] in
theorem after_succ (n : Node β) (attempt : Attempt β ε) (k : Nat) :
    n.after attempt (k + 1) = (attempt (n.after attempt k)).2 :=
  Function.iterate_succ_apply' ..

/-- It is enough that what the first attempt leads to is kept by every further one. -/
theorem acceptedAlike_of {attempt : Attempt β ε} {goal extra : PropertyMap} {J : Node β → Prop}
    (hfirst : ∀ data, (attempt n).1 = .ok data → data = goal ∧ J (attempt n).2)
    (hsame : ∀ n', J n' → n'.settings = goal ∧ n'.extra = extra)
    (hJ : ∀ n', J n' → (attempt n').1 = .ok goal ∧ J (attempt n').2) :
    AcceptedAlike attempt n goal := by
  intro data hdata
  obtain ⟨rfl, hone⟩ := hfirst data hdata
  have hafter : ∀ k, J (n.after attempt (k + 1)) := fun k => by
    induction k with
    | zero => exact hone
    | succ k ih =>
      rw [after_succ]
      exact (hJ _ ih).2
  refine ⟨rfl, fun k => ⟨?_, (hsame _ (hafter k)).1, ?_⟩⟩
  · cases k with
    | zero => exact hdata
    | succ k => exact (hJ _ (hafter k)).1
  · rw [(hsame _ (hafter k)).2, (hsame _ (hafter 0)).2]

theorem refusedAlike_of {attempt : Attempt β ε} {K : Node β → Prop} (hn : K n)
    (hsame : ∀ n', K n' → n'.settings = n.settings ∧ n'.extra = n.extra)
    (hK : ∀ e, (attempt n).1 = .error e → ∀ n', K n' →
      (attempt n').1 = .error e ∧ K (attempt n').2) : RefusedAlike attempt n := by
  intro e he k
  have hafter : K (n.after attempt k) := by
    induction k with
    | zero => exact hn
    | succ k ih =>
      rw [after_succ]
      exact (hK e he _ ih).2
  exact ⟨(hK e he _ hafter).1, hsame _ hafter⟩

/-- The same block and extra settings under the same name. -/
structure Agrees (n m : Node β) : Prop where
  block : m.block = n.block
  extra : m.extra = n.extra
  uniqueName : m.uniqueName = n.uniqueName

/-- An attempt comes down to a change of settings, the errors of which it reports in its own way. -/
structure IsChange (attempt : Attempt β ε) (settings : PropertyMap) (isRunning : Bool)
    (report : SettingsError → ε) : Prop where
  data : ∀ n : Node β, (attempt n).1 = match (n.apply settings isRunning).result with
    | .ok () => .ok (n.apply settings isRunning).node.settings
    | .error e => .error (report e)
  node : ∀ n : Node β, (n.apply settings isRunning).node.Agrees (attempt n).2

theorem isChange_asking {msg : Message} (hproperty : msg.property = "Settings")
    (hcommand : msg.command = .set) (hdata : msg.data = .ok settings) :
    IsChange (asking msg : Attempt β MessageError) settings true fun e =>
      .settingsRejected e.message := by
  have hanswer : ∀ n : Node β, n.answer msg = n.answerSet msg := fun n =>
    n.answer_of_set hproperty hcommand
  refine ⟨fun n => ?_, fun n => ?_⟩
  · simp only [asking, hanswer, answerSet, hdata]
    cases (n.apply settings true).result <;> rfl
  · have hnode : (n.answerSet msg).node = (n.apply settings true).node := by
      simp only [answerSet, hdata]
      cases (n.apply settings true).result <;> rfl
    simp only [asking, hanswer, hnode]
    exact ⟨rfl, rfl, rfl⟩

theorem isChange_changing (settings : PropertyMap) (isRunning : Bool) :
    IsChange (changing settings isRunning : Attempt β SettingsError) settings isRunning id := by
  refine ⟨fun n => ?_, fun _ => ⟨rfl, rfl, rfl⟩⟩
  simp only [changing]
  cases (n.apply settings isRunning).result <;> rfl

theorem isChange_making (settings : PropertyMap) :
    IsChange (making settings : Attempt β SettingsError) settings false id := by
  refine ⟨fun n => ?_, fun n => ?_⟩
  · simp only [making, initialise]
    cases hresult : (n.apply settings false).result with
    | ok => rfl
    | error e => simp only [hresult]; rfl
  · simp only [making, initialise]
    cases (n.apply settings false).result <;> exact ⟨rfl, rfl, rfl⟩

/-- Why a change of settings is refused, if it is and the block is put back. -/
def refusal? (n : Node β) (settings : PropertyMap) (isRunning : Bool) : Option SettingsError :=
  match settings.keys.findSome? (n.keyError? isRunning) with
  | some e => some e
  | none =>
    match (tryApply n.block settings).1 with
    | .ok () => none
    | .error e => some e

/-- What is not refused is made, by the block or beside it. -/
theorem apply_of_acceptance (he : n.refusal? settings isRunning = none) :
    settings.keys.findSome? (n.keyError? isRunning) = none ∧
      (tryApply n.block settings).1 = .ok () ∧
      n.apply settings isRunning = ⟨.ok (), { n with
        block := (tryApply n.block settings).2
        extra := Dictionary.overwrite n.extra (undeclared n.block settings) }, []⟩ := by
  rw [refusal?] at he
  cases hkeys : settings.keys.findSome? (n.keyError? isRunning) with
  | some e =>
    rw [hkeys] at he
    cases he
  | none =>
    rcases htry : tryApply n.block settings with ⟨result, b⟩
    cases result with
    | ok =>
      refine ⟨rfl, rfl, ?_⟩
      simp only [apply, hkeys, htry]
      rfl
    | error e =>
      simp only [hkeys, htry] at he
      cases he

theorem result_of_refusal {e : SettingsError} (he : n.refusal? settings isRunning = some e) :
    ∃ e', (n.apply settings isRunning).result = .error e' := by
  rw [refusal?] at he
  cases hkeys : settings.keys.findSome? (n.keyError? isRunning) with
  | some e' => exact ⟨e', by rw [apply_of_keyError hkeys]⟩
  | none =>
    rcases htry : tryApply n.block settings with ⟨result, b⟩
    simp only [hkeys, htry] at he
    cases result with
    | ok => cases he
    | error e' =>
      simp only [apply, hkeys, htry]
      exact ⟨_, rfl⟩

/-! ### Nodes of faithful blocks -/

/-- A node of a block that is faithful to its settings. -/
abbrev IsFaithful (P : β → Prop) : Node β → Prop := Carries P Dictionary.Sorted

/-- A node of a faithful block that would accept the settings it reports. -/
abbrev IsSettled (F : Block.Forms) (P : β → Prop) : Node β → Prop :=
  Carries (Block.Settled F P) Dictionary.Sorted

section Faithful

variable {F : Block.Forms} {P : β → Prop} (hP : Block.Faithful F P)

theorem IsSettled.isFaithful (h : n.IsSettled F P) : n.IsFaithful P := ⟨h.block.states, h.extra⟩

/-- What a change of settings comes to. -/
def changed (F : Block.Forms) (n : Node β) (settings : PropertyMap) : PropertyMap :=
  (Dictionary.overwrite n.settings settings).mapValues F.canonical

include hP

/-- Two states of a node check keys alike. -/
theorem keyError_congr (h : n.IsFaithful P) (hm : m.IsFaithful P)
    (hname : m.uniqueName = n.uniqueName) : m.keyError? isRunning = n.keyError? isRunning := by
  funext key
  rw [keyError?, keyError?, hP.descriptors h.block hm.block, hP.isPermissive h.block hm.block,
    hname]

/-- The value of a key as the node reports it, which the block does if it declares the key. -/
theorem IsFaithful.get?_settings (h : n.IsFaithful P) (k : String) :
    n.settings.get? k = ((Block.settings n.block).get? k).or (n.extra.get? k) := by
  rw [Node.settings, Dictionary.get?_overwrite,
    Dictionary.get?_reverse (hP.sorted h.block).nodup_keys]

theorem canonical_of_not_declares {b : β} (hb : P b) {k : String} (hk : declares b k = false) :
    (Block.settings b).get? k = none ∧ F.canonical k = id := by
  refine ⟨by simpa [Dictionary.hasKey, hk] using hP.keys hb k, funext fun v => ?_⟩
  obtain ⟨hkept, harranged⟩ := hP.plain hb k (fun d hd => by
    have hdeclared : declares b k = true :=
      List.any_eq_true.mpr ⟨d, List.mem_of_find?_eq_some hd, by simpa using List.find?_some hd⟩
    cases hk.symm.trans hdeclared) v
  rw [Block.Forms.canonical, hkept, harranged, id]

theorem exists_of_declares {b : β} (hb : P b) {k : String} (hk : declares b k = true) :
    ∃ v, (Block.settings b).get? k = some v ∧ F.kept k v = v := by
  have hkey := hP.keys hb k
  rw [hk, Dictionary.hasKey, Option.isSome_iff_exists] at hkey
  obtain ⟨v, hv⟩ := hkey
  exact ⟨v, hv, (hP.reported hb k v hv).2⟩

omit hP in
theorem get?_declared (b : β) (settings : PropertyMap) (k : String) :
    Dictionary.get? (declared b settings).reverse k =
      if declares b k then Dictionary.get? settings.reverse k else none := by
  rw [declared, ← List.filter_reverse]
  exact Dictionary.get?_filter (declares b) _ k

omit hP in
theorem get?_undeclared (b : β) (settings : PropertyMap) (k : String) :
    Dictionary.get? (undeclared b settings).reverse k =
      if !declares b k then Dictionary.get? settings.reverse k else none := by
  rw [undeclared, ← List.filter_reverse]
  exact Dictionary.get?_filter (fun key => !declares b key) _ k

/-- A change that is made in parts, by the block and beside it, comes to the change as a whole. -/
theorem IsFaithful.changed_eq (h : n.IsFaithful P) {block : β}
    (hblock : Block.settings block = (Dictionary.overwrite (Block.settings n.block)
      ((declared n.block settings).mapValues F.kept)).mapValues F.arranged) :
    Dictionary.overwrite (Dictionary.overwrite n.extra (undeclared n.block settings))
        (Block.settings block) =
      n.changed F settings := by
  have hsorted := hP.sorted h.block
  have hreported := (hsorted.overwrite
    ((declared n.block settings).mapValues F.kept)).mapValues F.arranged
  have hreverse : ∀ d : PropertyMap,
      (d.mapValues F.kept).reverse = Dictionary.mapValues F.kept d.reverse :=
    fun d => List.map_reverse.symm
  refine ((h.extra.overwrite _).overwrite _).ext
    (((h.extra.overwrite _).overwrite settings).mapValues F.canonical) fun k => ?_
  have hself := h.get?_settings hP k
  simp only [changed, hblock, Dictionary.get?_overwrite, Dictionary.get?_mapValues, hself,
    Dictionary.get?_reverse, hreported.nodup_keys, hreverse, get?_declared, get?_undeclared]
  -- the block reports the key if it declares it, and nothing of it otherwise
  cases hdeclared : declares n.block k with
  | true =>
    obtain ⟨v, hv, hkept⟩ := exists_of_declares hP h.block hdeclared
    cases Dictionary.get? settings.reverse k <;> simp [hv, hkept, Block.Forms.canonical]
  | false =>
    obtain ⟨hnone, hcanonical⟩ := canonical_of_not_declares hP h.block hdeclared
    simp [hnone, hcanonical]

/-- What a settled node reports has its final form. -/
theorem IsSettled.canonical_settings (h : n.IsSettled F P) (k : String) :
    (n.settings.get? k).map (F.canonical k) = n.settings.get? k := by
  rw [h.isFaithful.get?_settings hP k]
  cases hdeclared : declares n.block k with
  | true =>
    obtain ⟨v, hv, hkept⟩ := exists_of_declares hP h.block.states hdeclared
    have harranged := congrArg (Dictionary.get? · k) h.block.arranged
    simp only [Dictionary.get?_mapValues, hv] at harranged
    simpa [hv, Block.Forms.canonical, hkept] using harranged
  | false =>
    obtain ⟨-, hcanonical⟩ := canonical_of_not_declares hP h.block.states hdeclared
    rw [hcanonical, Option.map_id, id]

/-- A change that is made while the block runs makes every setting to the letter. -/
theorem IsSettled.changed_running (h : n.IsSettled F P)
    (hkeys : settings.keys.findSome? (n.keyError? true) = none) :
    n.changed F settings = Dictionary.overwrite n.settings settings := by
  have hoverwrite : (Dictionary.overwrite n.settings settings).Sorted :=
    (h.extra.overwrite _).overwrite settings
  refine (hoverwrite.mapValues F.canonical).ext hoverwrite fun k => ?_
  rw [Dictionary.get?_mapValues, Dictionary.get?_overwrite]
  cases hget : Dictionary.get? settings.reverse k with
  | some v =>
    -- a key that may be set is one of which the values are kept as they are
    have hkey : k ∈ settings.keys :=
      List.mem_map_of_mem (List.mem_reverse.mp (Dictionary.mem_of_get? hget))
    have hnone := List.findSome?_eq_none_iff.mp hkeys k hkey
    obtain ⟨hkept, harranged⟩ := hP.plain h.block.states k (fun d hd => by
      simpa [keyError?, hd] using hnone) v
    simp [Block.Forms.canonical, hkept, harranged]
  | none =>
    rw [Option.none_or]
    exact h.canonical_settings hP k

variable {attempt : Attempt β ε} {report : SettingsError → ε}

theorem IsFaithful.attempt_of_acceptance (h : n.IsFaithful P)
    (hchange : IsChange attempt settings isRunning report)
    (he : n.refusal? settings isRunning = none) :
    (attempt n).1 = .ok (attempt n).2.settings ∧
      (attempt n).2.settings = n.changed F settings ∧ (attempt n).2.IsSettled F P ∧
      (attempt n).2.uniqueName = n.uniqueName ∧
      Block.settings (attempt n).2.block = Block.settings (tryApply n.block settings).2 ∧
      (attempt n).2.extra = Dictionary.overwrite n.extra (undeclared n.block settings) := by
  have hdata := hchange.data n
  obtain ⟨hblock, hextra, hname⟩ := hchange.node n
  obtain ⟨-, hok, happly⟩ := apply_of_acceptance he
  obtain ⟨hsettled, hsettings⟩ := (tryApply_spec hP h.block settings).2 hok
  rw [happly] at hdata hblock hextra hname
  have hsame : (attempt n).2.settings = Dictionary.overwrite
      (Dictionary.overwrite n.extra (undeclared n.block settings))
      (Block.settings (tryApply n.block settings).2) := by rw [Node.settings, hblock, hextra]
  refine ⟨?_, hsame.trans (h.changed_eq hP hsettings),
    ⟨hblock ▸ hsettled, hextra ▸ h.extra.overwrite _⟩, hname, congrArg Block.settings hblock,
    hextra⟩
  rw [hdata, hsame]
  rfl

theorem IsSettled.attempt_of_refusal (h : n.IsSettled F P)
    (hchange : IsChange attempt settings isRunning report) {e : SettingsError}
    (he : n.refusal? settings isRunning = some e) :
    (attempt n).1 = .error (report e) ∧ (attempt n).2.IsSettled F P ∧
      (attempt n).2.uniqueName = n.uniqueName ∧
      Block.settings (attempt n).2.block = Block.settings n.block ∧
      (attempt n).2.extra = n.extra := by
  have hdata := hchange.data n
  obtain ⟨hblock, hextra, hname⟩ := hchange.node n
  have happly : ∃ block, n.apply settings isRunning = ⟨.error e, { n with block }, []⟩ ∧ P block ∧
      Block.settings block = Block.settings n.block := by
    rw [refusal?] at he
    cases hkeys : settings.keys.findSome? (n.keyError? isRunning) with
    | some e' =>
      rw [hkeys] at he
      cases he
      exact ⟨n.block, apply_of_keyError hkeys, h.block.states, rfl⟩
    | none =>
      have hb := (tryApply_spec hP h.block.states settings).1
      rcases htry : tryApply n.block settings with ⟨result, b⟩
      rw [htry] at hb
      simp only [hkeys, htry] at he
      cases result with
      | ok => cases he
      | error e' =>
        cases he
        obtain ⟨c, hc, hPc, hsettings⟩ := restore_spec hP h.block hb
        refine ⟨c, ?_, hPc, hsettings⟩
        simp only [apply, hkeys, htry, hc]
        rfl
  obtain ⟨block, happly, hb, hsettings⟩ := happly
  rw [happly] at hdata hblock hextra hname
  have hsettled : Block.Settled F P block :=
    ⟨hb, (hP.check h.block.states hb hsettings).trans h.block.settled,
      by rw [hsettings, h.block.arranged]⟩
  exact ⟨hdata, ⟨hblock ▸ hsettled, hextra ▸ h.extra⟩, hname,
    (congrArg Block.settings hblock).trans hsettings, hextra⟩

theorem IsSettled.apply (h : n.IsSettled F P) (settings : PropertyMap) (isRunning : Bool) :
    (n.apply settings isRunning).node.IsSettled F P := by
  have hchange := isChange_changing (β := β) settings isRunning
  cases he : n.refusal? settings isRunning with
  | none => exact (h.isFaithful.attempt_of_acceptance hP hchange he).2.2.1
  | some e => exact (h.attempt_of_refusal hP hchange he).2.1

theorem lasting_isSettled (hupholds : Block.Upholds (Block.Settled F P)) :
    Lasting (IsSettled F P) :=
  lasting_carries hupholds fun _ settings h => IsSettled.apply hP h settings true

/-- What a faithful block has accepted it accepts again. -/
theorem IsFaithful.acceptedAlike (h : n.IsFaithful P)
    (hchange : IsChange attempt settings isRunning report) :
    AcceptedAlike attempt n (n.changed F settings) := by
  -- from the first attempt on, the block reports `reported`, and the node keeps `kept`
  let reported := Block.settings (tryApply n.block settings).2
  let kept := Dictionary.overwrite n.extra (undeclared n.block settings)
  let J (n' : Node β) : Prop := n'.IsFaithful P ∧ n'.uniqueName = n.uniqueName ∧
    Block.settings n'.block = reported ∧ n'.extra = kept
  cases he : n.refusal? settings isRunning with
  | some e =>
    obtain ⟨e', he'⟩ := result_of_refusal he
    have hrefused := hchange.data n
    rw [he'] at hrefused
    exact fun data hdata => by cases hdata.symm.trans hrefused
  | none =>
    obtain ⟨hkeys, hok, -⟩ := apply_of_acceptance he
    have hsame : ∀ n', J n' → n'.settings = n.changed F settings ∧ n'.extra = kept :=
      fun n' ⟨_, _, hreported, hkept⟩ => by
        refine ⟨?_, hkept⟩
        rw [Node.settings, hkept]
        exact h.changed_eq hP (hreported.trans ((tryApply_spec hP h.block settings).2 hok).2)
    refine acceptedAlike_of (J := J) (fun data hdata => ?_) hsame fun n' hn' => ?_
    · obtain ⟨haccepted, hgoal, hsettled, hrest⟩ := h.attempt_of_acceptance hP hchange he
      exact ⟨(Except.ok.inj (hdata.symm.trans haccepted)).trans hgoal, hsettled.isFaithful, hrest⟩
    · obtain ⟨hfaithful, hname, hreported, hkept⟩ := hn'
      obtain ⟨hagain, hfixed⟩ := tryApply_again hP h.block hfaithful.block hok hreported
      have hrefusal : n'.refusal? settings isRunning = none := by
        simp only [refusal?, keyError_congr hP h hfaithful hname, hkeys, hagain]
      obtain ⟨haccepted, -, hsettled, hname', hreported', hkept'⟩ :=
        hfaithful.attempt_of_acceptance hP hchange hrefusal
      have hJ : J (attempt n').2 := by
        refine ⟨hsettled.isFaithful, hname'.trans hname,
          hreported'.trans (hfixed.trans hreported), hkept'.trans ?_⟩
        rw [undeclared, declares_congr hP h.block hfaithful.block, hkept]
        exact h.extra.overwrite_overwrite _
      exact ⟨haccepted.trans (congrArg Except.ok (hsame _ hJ).1), hJ⟩

/-- What a faithful block has refused it refuses again. -/
theorem IsSettled.refusedAlike (h : n.IsSettled F P)
    (hchange : IsChange attempt settings isRunning report) : RefusedAlike attempt n := by
  let K (n' : Node β) : Prop := n'.IsSettled F P ∧ n'.uniqueName = n.uniqueName ∧
    Block.settings n'.block = Block.settings n.block ∧ n'.extra = n.extra
  refine refusedAlike_of (K := K) ⟨h, rfl, rfl, rfl⟩ (fun n' ⟨_, _, hreported, hkept⟩ => ?_)
    fun e he n' ⟨hsettled, hname, hreported, hkept⟩ => ?_
  · rw [Node.settings, hreported, hkept]
    exact ⟨rfl, rfl⟩
  · cases hrefusal : n.refusal? settings isRunning with
    | none => cases he.symm.trans (h.isFaithful.attempt_of_acceptance hP hchange hrefusal).1
    | some e' =>
      have hagain : n'.refusal? settings isRunning = some e' := by
        rw [← hrefusal, refusal?, refusal?,
          keyError_congr hP h.isFaithful hsettled.isFaithful hname,
          tryApply_congr hP h.block.states hsettled.block.states hreported]
      obtain ⟨hrefused, hsettled', hname', hreported', hkept'⟩ :=
        hsettled.attempt_of_refusal hP hchange hagain
      refine ⟨hrefused.trans ?_, hsettled', hname'.trans hname, hreported'.trans hreported,
        hkept'.trans hkept⟩
      rw [← he]
      exact (h.attempt_of_refusal hP hchange hrefusal).1.symm

end Faithful

end Node
end Dataflow
