import Dataflow.Block.Builtin
import Dataflow.Execution

/-!
# Blocks that behave alike

Two programs match (`Program.Matches`) if they ask for the same operations and, given the same
replies, end with related results. A likeness (`Block.Likeness`) is a relation between blocks whose
settings are the same, whose work and stop programs match, and which stay related whatever is done
to both. It need not relate all blocks: one that is not like itself may do anything when it is
paused, the others must stay like themselves. If pausing and resuming leave every block as it is,
equality is a likeness (`Likeness.eq`); so it is for the built-in blocks (`likeness_builtin`).
-/

namespace Dataflow

namespace Program

variable {Op : Type} {Reply : Op → Type} {ρ τ σ : Type}

/-- Two programs ask for the same operations and end with related results. -/
inductive Matches (Q : ρ → τ → Prop) : Program Op Reply ρ → Program Op Reply τ → Prop where
  | done {r : ρ} {r' : τ} : Q r r' → Matches Q (.done r) (.done r')
  | ask {op : Op} {next : Reply op → Program Op Reply ρ} {next' : Reply op → Program Op Reply τ} :
      (∀ reply, Matches Q (next reply) (next' reply)) → Matches Q (.ask op next) (.ask op next')

theorem Matches.refl {Q : ρ → ρ → Prop} (hQ : ∀ r, Q r r) (p : Program Op Reply ρ) :
    Matches Q p p := by
  induction p with
  | done r => exact .done (hQ r)
  | ask op next ih => exact .ask ih

/-- Programs that match do the same in states that all answers take for the same. -/
theorem Matches.run {Q : ρ → τ → Prop} {S : σ → σ → Prop}
    {answer : (op : Op) → σ → Reply op × σ}
    (hanswer : ∀ op s s', S s s' →
      (answer op s').1 = (answer op s).1 ∧ S (answer op s).2 (answer op s').2)
    {p : Program Op Reply ρ} {p' : Program Op Reply τ} (h : Matches Q p p') {s s' : σ}
    (hs : S s s') :
    Q (p.run answer s).1 (p'.run answer s').1 ∧ S (p.run answer s).2 (p'.run answer s').2 := by
  induction h generalizing s s' with
  | done hQ => exact ⟨hQ, hs⟩
  | @ask op _ _ _ ih =>
    obtain ⟨hreply, hs'⟩ := hanswer op s s' hs
    simp only [Program.run, hreply]
    exact ih _ hs'

end Program

namespace Block

variable {β : Type}

/-- Two results are the same, and the blocks that come with them related. -/
def Agree {τ : Type} (R : β → β → Prop) (r r' : τ × β) : Prop := r'.1 = r.1 ∧ R r.2 r'.2

/-- A relation between blocks that behave in the same way, and go on to whether or not they are
paused and resumed. -/
structure Likeness [Block β] (R : β → β → Prop) : Prop where
  symm : ∀ {b b'}, R b b' → R b' b
  trans : ∀ {b b' b''}, R b b' → R b' b'' → R b b''
  descriptors : ∀ {b b'}, R b b' → Block.descriptors b' = Block.descriptors b
  settings : ∀ {b b'}, R b b' → Block.settings b' = Block.settings b
  isPermissive : ∀ {b b' : β}, R b b' → Block.isPermissive b' = Block.isPermissive b
  set : ∀ {b b'}, R b b' → ∀ key v, Agree R (Block.set b key v) (Block.set b' key v)
  settle : ∀ {b b'}, R b b' → Agree R (Block.settle b) (Block.settle b')
  work : ∀ {b b'}, R b b' → Program.Matches (Agree R) (Block.work b) (Block.work b')
  stop : ∀ {b b'}, R b b' → Program.Matches R (Block.stop b) (Block.stop b')
  pause : ∀ {b}, R b b → ∀ x : Execution β, R b (x.runHook (Block.pause b)).1
  resume : ∀ {b}, R b b → ∀ x : Execution β, R b (x.runHook (Block.resume b)).1

variable [Block β] {R : β → β → Prop} {b b' : β}

theorem Likeness.pause_right (hR : Likeness R) (h : R b b') (x : Execution β) :
    R b (x.runHook (Block.pause b')).1 :=
  hR.trans h (hR.pause (hR.trans (hR.symm h) h) x)

theorem Likeness.resume_right (hR : Likeness R) (h : R b b') (x : Execution β) :
    R b (x.runHook (Block.resume b')).1 :=
  hR.trans h (hR.resume (hR.trans (hR.symm h) h) x)

theorem Likeness.eq (hpause : ∀ (b : β) (x : Execution β), (x.runHook (Block.pause b)).1 = b)
    (hresume : ∀ (b : β) (x : Execution β), (x.runHook (Block.resume b)).1 = b) :
    Likeness (Eq : β → β → Prop) where
  symm := Eq.symm
  trans := Eq.trans
  descriptors := fun h => by rw [h]
  settings := fun h => by rw [h]
  isPermissive := fun h => by rw [h]
  set := fun h key v => by rw [h]; exact ⟨rfl, rfl⟩
  settle := fun h => by rw [h]; exact ⟨rfl, rfl⟩
  work := fun h => by rw [h]; exact .refl (fun _ => ⟨rfl, rfl⟩) _
  stop := fun h => by rw [h]; exact .refl (fun _ => rfl) _
  pause := fun _ x => (hpause _ x).symm
  resume := fun _ x => (hresume _ x).symm

theorem likeness_builtin : Likeness (Eq : Builtin → Builtin → Prop) :=
  .eq (fun _ _ => rfl) fun _ _ => rfl

end Block

/-! ### Settings -/

namespace Node

open Block (Agree Likeness)

variable {β : Type} [Block β] {R : β → β → Prop} (hR : Likeness R) {b b' : β}

include hR

theorem agree_setAll (h : R b b') (settings : List (String × Value)) :
    Agree R (setAll b settings) (setAll b' settings) := by
  induction settings generalizing b b' with
  | nil => exact ⟨rfl, h⟩
  | cons entry rest ih =>
    obtain ⟨key, v⟩ := entry
    obtain ⟨hresult, hblock⟩ := hR.set h key v
    simp only [setAll]
    rcases hset : Block.set b key v with ⟨result, c⟩
    rcases hset' : Block.set b' key v with ⟨result', c'⟩
    rw [hset, hset'] at hresult hblock
    cases hresult
    cases result with
    | ok => exact ih hblock
    | error e => exact ⟨rfl, hblock⟩

theorem agree_setEach (h : R b b') (settings : List (String × Value)) :
    Agree R (setEach b settings) (setEach b' settings) := by
  induction settings generalizing b b' with
  | nil => exact ⟨rfl, h⟩
  | cons entry rest ih =>
    obtain ⟨key, v⟩ := entry
    obtain ⟨hresult, hblock⟩ := hR.set h key v
    simp only [setEach]
    rcases hset : Block.set b key v with ⟨result, c⟩
    rcases hset' : Block.set b' key v with ⟨result', c'⟩
    rw [hset, hset'] at hresult hblock
    cases hresult
    obtain ⟨hrefused, hrest⟩ := ih hblock
    cases result with
    | ok => exact ⟨hrefused, hrest⟩
    | error e => exact ⟨congrArg ((key, e) :: ·) hrefused, hrest⟩

theorem agree_tryApply (h : R b b') (settings : PropertyMap) :
    Agree R (tryApply b settings) (tryApply b' settings) := by
  have hdeclares : declares b' = declares b := by
    funext key
    rw [declares, declares, hR.descriptors h]
  simp only [tryApply, hdeclares]
  generalize List.filter _ settings = declared
  obtain ⟨hresult, hblock⟩ := agree_setAll hR h declared
  rcases hset : setAll b declared with ⟨result, c⟩
  rcases hset' : setAll b' declared with ⟨result', c'⟩
  rw [hset, hset'] at hresult hblock
  cases hresult
  cases result with
  | ok => exact hR.settle hblock
  | error e => exact ⟨rfl, hblock⟩

/-- Settings are put back with the same failures. -/
theorem restore_alike (h : R b b') (previous : PropertyMap) :
    (restore b' previous).refused = (restore b previous).refused ∧
      (restore b' previous).rejection = (restore b previous).rejection ∧
      R (restore b previous).block (restore b' previous).block := by
  obtain ⟨hrefused, hblock⟩ := agree_setEach hR h previous
  obtain ⟨hresult, hsettled⟩ := hR.settle hblock
  simp only [restore]
  rcases hset : setEach b previous with ⟨refused, c⟩
  rcases hset' : setEach b' previous with ⟨refused', c'⟩
  rw [hset, hset'] at hrefused hresult hsettled
  rcases hsettle : Block.settle c with ⟨result, d⟩
  rcases hsettle' : Block.settle c' with ⟨result', d'⟩
  simp only [hsettle, hsettle'] at hresult hsettled
  subst hrefused hresult
  cases result' with
  | ok => exact ⟨rfl, rfl, hsettled⟩
  | error e => exact ⟨rfl, rfl, hsettled⟩

end Node

end Dataflow
