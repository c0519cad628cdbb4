import Dataflow.Proofs.Block.Configured
import Dataflow.Proofs.Node.Repetition
import Dataflow.Proofs.Scheduler.Containment

/-!
# Setting twice is setting once

A node is `Node.Resettable` if a change of its settings that is accepted is accepted again any
number of times and comes to the same settings, and if one that is refused is refused again for the
same reason and leaves them as they were. That holds of each node of a block that is faithful to its
settings, and so of each built-in one that has accepted its settings, at any time of any number of
runs (`Scheduler.resettable_of_leads`). A scheduler that handles a message to a block again and
again hands it to the node again and again (`Scheduler.handle_iterate`).
-/

namespace Dataflow

variable {β : Type} [Block β]

namespace Node

/-- A node of which the settings can be read, and changed once or repeatedly. What is set at
construction may be brought into a form of its own. -/
structure Resettable (canonical : String → Value → Value) (n : Node β) : Prop where
  /-- Reading gives the settings and changes nothing. -/
  read (m : Message) : m.property = "Settings" → m.command = .get →
    n.answer m = ⟨.ok n.settings, n, []⟩
  asked (m : Message) (payload : PropertyMap) : m.property = "Settings" → m.command = .set →
    m.data = .ok payload →
      AcceptedAlike (asking m) n (Dictionary.overwrite n.settings payload) ∧
      RefusedAlike (asking m) n
  made (payload : PropertyMap) :
    AcceptedAlike (making payload) n
      ((Dictionary.overwrite n.settings payload).mapValues canonical) ∧
    RefusedAlike (making payload) n

variable {F : Block.Forms} {P : β → Prop} {n : Node β} {embed : Builtin → β}

theorem IsSettled.resettable (hP : Block.Faithful F P) (h : n.IsSettled F P) :
    n.Resettable F.canonical where
  read m hproperty hcommand := by simp only [answer, hproperty, hcommand]
  asked m payload hproperty hcommand hdata := by
    have hchange := isChange_asking (β := β) hproperty hcommand hdata
    refine ⟨?_, h.refusedAlike hP hchange⟩
    cases he : n.refusal? payload true with
    | none =>
      rw [← h.changed_running hP (apply_of_acceptance he).1]
      exact h.isFaithful.acceptedAlike hP hchange
    | some e =>
      intro data haccepted
      cases haccepted.symm.trans (h.attempt_of_refusal hP hchange he).1
  made payload :=
    ⟨h.isFaithful.acceptedAlike hP (isChange_making payload),
      h.refusedAlike hP (isChange_making payload)⟩

/-- A built-in block that has accepted its settings would accept them again. -/
theorem IsPlaced.isSettled (hembed : Builtin.Embeds embed) (h : n.IsPlaced embed) :
    ∃ b : Builtin, n.block = embed b ∧
      n.IsSettled b.kind.forms (PlacedAs embed b.kind b.sampleType) := by
  obtain ⟨⟨b, hb, htyped, hsettled⟩, hextra⟩ := h
  have hblock : PlacedAs embed b.kind b.sampleType n.block := ⟨b, hb, htyped, rfl, rfl⟩
  have hsettle : Block.settle n.block = (.ok (), n.block) := by
    rw [hb, hembed.settle, hsettled]
    rfl
  have harranged := (faithful_placedAs hembed _ _).arranges hblock (congrArg Prod.fst hsettle)
  rw [hsettle] at harranged
  exact ⟨b, hb, ⟨hblock, congrArg Prod.fst hsettle, harranged.symm⟩,
    hextra ▸ List.Pairwise.nil⟩

end Node

namespace Scheduler

variable {s : Scheduler β} {snapshot : PropertyMap} {m : Message} {i : Nat}
  {n : Node β}

theorem find?_handle (s : Scheduler β) (snapshot : PropertyMap) (m : Message) (name : String) :
    (s.handle snapshot m).graph.find? name = s.graph.find? name := by
  have hframe : s.graph.SameFrame (s.handle snapshot m).graph :=
    (Graph.lasting_sameFrame s.graph).handle (.refl _) snapshot m
  rw [← Execution.addressee?_congr hframe, Execution.addressee?_everyBlock]

/-- A message that is handled again and again is answered by its node again and again. -/
theorem handle_iterate (hm : m.destination ≠ "") (hfind : s.graph.find? m.destination = some i)
    (hn : s.graph.node? i = some n) (snapshot : PropertyMap) (k : Nat) :
    let s' := (fun s => handle s snapshot m)^[k] s
    s'.graph.find? m.destination = some i ∧
      s'.graph.node? i = some (n.after (Node.asking m) k) ∧
      (s'.handle snapshot m).replies =
        s'.replies.push (m.reply (Node.asking m (n.after (Node.asking m) k)).1) := by
  -- one more message is handled by the node as it is then
  have hstep : ∀ {s : Scheduler β} {n : Node β}, s.graph.find? m.destination = some i →
      s.graph.node? i = some n →
      (s.handle snapshot m).graph.node? i = some (Node.asking m n).2 ∧
      (s.handle snapshot m).replies = s.replies.push (m.reply (Node.asking m n).1) :=
      fun {s n} hfind hn => by
    rcases s.dispatch_cases m with ⟨hnone, -⟩ | ⟨j, n', hj, hn', heq⟩
    · cases hfind.symm.trans hnone
    cases hfind.symm.trans hj
    cases hn.symm.trans hn'
    rw [handle, if_neg hm, heq]
    refine ⟨?_, replies_reply ..⟩
    rw [(untouched_reply ..).graph]
    show (s.graph.modifyNode i _).nodes[i]? = _
    rw [Graph.modifyNode_eq hn]
    exact List.getElem?_set_self (List.getElem?_eq_some_iff.mp hn).1
  have hafter : ∀ k, ((fun s => handle s snapshot m)^[k] s).graph.find? m.destination = some i ∧
      ((fun s => handle s snapshot m)^[k] s).graph.node? i =
        some (n.after (Node.asking m) k) := fun k => by
    induction k with
    | zero => exact ⟨hfind, hn⟩
    | succ k ih =>
      rw [Function.iterate_succ_apply', Node.after_succ]
      exact ⟨(find?_handle ..).trans ih.1, (hstep ih.1 ih.2).1⟩
  exact ⟨(hafter k).1, (hafter k).2, (hstep (hafter k).1 (hafter k).2).2⟩

/-- At any time of any number of runs, a node of a built-in block that had accepted its settings can
be set again with the same result, and so can a node of any other block that is faithful to its
settings. The settings of construction of a built-in block may be made again as well, even if it had
not accepted those it had. -/
theorem resettable_of_leads (β : Type) [Block β] :
    (∀ (F : Block.Forms) (P : β → Prop), Block.Faithful F P → Block.Upholds (Block.Settled F P) →
      ∀ (s : Scheduler β) g i n n', s.Leads g → s.graph.node? i = some n → n.IsSettled F P →
        g.node? i = some n' → n'.Resettable F.canonical) ∧
    (∀ embed : Builtin → β, Builtin.Embeds embed →
      (∀ (s : Scheduler β) g i n n', s.Leads g → s.graph.node? i = some n → n.IsPlaced embed →
        g.node? i = some n' → ∃ b, n'.block = embed b ∧ n'.Resettable b.kind.canonical) ∧
      ∀ (n : Node β) b settings, n.block = embed b → b.IsTyped → n.extra = [] →
        n.AcceptedAlike (Node.making settings)
          ((Dictionary.overwrite n.settings settings).mapValues b.kind.canonical) ∧
        ((n.initialise settings).result = .ok () →
          (n.initialise settings).node.IsPlaced embed)) ∧
    ∀ (s : Scheduler β) snapshot (m : Message) i n, m.destination ≠ "" →
      s.graph.find? m.destination = some i → s.graph.node? i = some n → ∀ k,
        let s' := (fun s => handle s snapshot m)^[k] s
        s'.graph.node? i = some (n.after (Node.asking m) k) ∧
        (s'.handle snapshot m).replies =
          s'.replies.push (m.reply (Node.asking m (n.after (Node.asking m) k)).1) := by
  refine ⟨fun F P hP hupholds s g i n n' hg hn hsettled hn' => ?_, fun embed hembed =>
    ⟨fun s g i n n' hg hn hplaced hn' => ?_, fun n b settings hb htyped hextra =>
      ⟨?_, Node.isPlaced_of_initialise hembed hb htyped hextra⟩⟩,
    fun s snapshot m i n hm hfind hn k => (handle_iterate hm hfind hn snapshot k).2⟩
  · exact (hg.node (Node.lasting_isSettled hP hupholds) hn hsettled hn').resettable hP
  · have hplaced' := hg.node (Node.lasting_isPlaced hembed) hn hplaced hn'
    obtain ⟨b, hb, hsettled⟩ := Node.IsPlaced.isSettled hembed hplaced'
    exact ⟨b, hb, b.kind.canonical_forms ▸ hsettled.resettable (Node.faithful_placedAs hembed _ _)⟩
  · have hfaithful : n.IsFaithful (Node.PlacedAs embed b.kind b.sampleType) :=
      ⟨⟨b, hb, htyped, rfl, rfl⟩, hextra ▸ List.Pairwise.nil⟩
    rw [← b.kind.canonical_forms]
    exact hfaithful.acceptedAlike (Node.faithful_placedAs hembed _ _)
      (Node.isChange_making settings)

/-- A script with one setting, which keeps foreign ones beside it. -/
def dial : Script where
  label := "dial"
  description := ""
  inputs := []
  outputs := []
  dynamicInputs := none
  settings := [⟨"level", "", false, .int .u64 5, []⟩]
  isPermissive := true
  veto := none
  calls := []
  otherwise := ⟨[], .auto⟩
  startError := none
  messages _ := []
  isQuiet := true

/-- A scheduler of one block that does nothing but keep settings. -/
def dialling : Scheduler Scripted :=
  new ⟨[.new "Dial" "" (.new dial 0) 0], [], .default⟩ .default 0

/-- A request to turn the dial, with a note. -/
def turning (level : Value) : Message :=
  .new .set "Dial#0" "Settings" [("level", level), ("note", .string "loud")]

/-- During a run, the dial is turned and takes note once or twice, and never takes a truth value. A
source that is to repeat its samples may be told so once or twice. -/
theorem resettable_of_leads_dialling :
    (∃ snapshot s₀ n, dialling.Launches snapshot s₀ ∧ s₀.graph.node? 0 = some n ∧
      (Node.asking (turning (.int .u64 7)) n).1 =
        .ok [("level", .int .u64 7), ("note", .string "loud")] ∧
      (∃ e, (Node.asking (turning (.bool true)) n).1 = .error e) ∧
      n.Resettable Block.Forms.plain.canonical ∧
      s₀.graph.find? (turning (.int .u64 7)).destination = some 0 ∧
      ∀ k, ((fun s => handle s snapshot (turning (.int .u64 7)))^[k] s₀).graph.node? 0 =
        some (n.after (Node.asking (turning (.int .u64 7))) k)) ∧
    ∃ snapshot s₀ n b, (playing []).Launches snapshot s₀ ∧ s₀.graph.node? 0 = some n ∧
      n.block = b ∧ (∃ settings, (Node.making [("repeat", .bool true)] n).1 = .ok settings) ∧
      n.Resettable b.kind.canonical := by
  have hdial : ∃ snapshot s₀ n e, dialling.Launches snapshot s₀ ∧ s₀.graph.node? 0 = some n ∧
      (Node.asking (turning (.int .u64 7)) n).1 =
        .ok [("level", .int .u64 7), ("note", .string "loud")] ∧
      (Node.asking (turning (.bool true)) n).1 = .error e ∧
      s₀.graph.find? (turning (.int .u64 7)).destination = some 0 :=
    ⟨_, _, _, _, ⟨_, _, rfl, rfl, rfl⟩, rfl, rfl, rfl, rfl⟩
  have hpair : ∃ snapshot s₀ n settings, (playing []).Launches snapshot s₀ ∧
      s₀.graph.node? 0 = some n ∧ (Node.making [("repeat", .bool true)] n).1 = .ok settings :=
    ⟨_, _, _, _, ⟨_, _, rfl, rfl, rfl⟩, rfl, rfl⟩
  obtain ⟨snapshot, s₀, n, e, h₀, hn, hturned, hrefused, hfind⟩ := hdial
  obtain ⟨snapshot', s₀', n', settings, h₀', hn', hmade⟩ := hpair
  have hdialled : (Node.new "Dial" "" (Scripted.new dial 0) 0).IsSettled .plain
      (Scripted.Configured dial) := by
    have hconfigured : Scripted.Configured dial (.new dial 0) :=
      Scripted.configured_new (by decide) fun s hs => by
        rw [List.mem_singleton.mp hs]
        rfl
    exact ⟨⟨hconfigured, rfl, Block.Forms.mapValues_plain _⟩, List.Pairwise.nil⟩
  refine ⟨⟨snapshot, s₀, n, h₀, hn, hturned, ⟨e, hrefused⟩, ?_, hfind, fun k => ?_⟩,
    snapshot', s₀', n', ?_⟩
  · exact (resettable_of_leads Scripted).1 .plain _ (Scripted.faithful dial)
      (Scripted.upholds_settled dial) dialling s₀.graph 0 _ n (.turns h₀ (.rest .refl)) rfl hdialled
      hn
  · exact ((resettable_of_leads Scripted).2.2 s₀ snapshot _ 0 n (by decide) hfind hn k).1
  · obtain ⟨b, hb, hresettable⟩ := ((resettable_of_leads Builtin).2.1 id Builtin.embeds_id).1
      (playing []) s₀'.graph 0 _ n' (.turns h₀' (.rest .refl)) rfl
      ⟨⟨pair [], rfl, accepted_pair⟩, rfl⟩ hn'
    exact ⟨b, h₀', hn', hb, ⟨settings, hmade⟩, hresettable⟩

end Scheduler
end Dataflow
