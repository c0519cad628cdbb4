import Dataflow.Watchdog
import Mathlib.Data.List.Nodup

/-!
# Single accesses to a watchdog

Handles are used by the threads of their blocks while other threads check, and a call sets the two
cells of a monitor one after the other. At any moment (`Watchdog.Scene`) some calls of handles may
be halfway (`Watchdog.Task`), and a check may hold the list of monitors (`Watchdog.Scan`). What
comes next (`Watchdog.Access`) is up to any of them, as far as it can (`Scene.Allows`), and takes
effect at once (`Scene.after`). Handles may be shared, so that calls of one handle may overlap as
well.

A call whose accesses follow one another is a call of the watchdog (`Scene.run_start`,
`Scene.run_finish`, `Scene.run_check`).
-/

namespace Dataflow

namespace Watchdog

/-- A single access to a monitor or to the list of monitors. -/
inductive Access where
  | register (block operation : String)
  | drop (id : Nat)
  /-- An operation begins: its start is stored, -/
  | store (id now : Nat)
  /-- and then the flag is cleared. -/
  | settle (id : Nat)
  /-- An operation ends: the flag is read, -/
  | read (id : Nat)
  /-- and cleared if it was set, -/
  | clear (id : Nat)
  /-- and then the start is cleared. -/
  | idle (id : Nat)
  /-- A check that has read the clock gets hold of the list of monitors. -/
  | lock (now : Nat)
  /-- It takes a monitor off the list that was dropped, -/
  | forget (id : Nat)
  /-- or passes one over that has no blocked operation, -/
  | pass (id : Nat)
  /-- or counts a blocked operation, -/
  | count (id : Nat)
  /-- and flags the monitor. -/
  | flag (id : Nat)
  | unlock
  deriving DecidableEq

/-- An operation is counted. -/
def Access.isCount : Access → Bool
  | count _ => true
  | _ => false

/-- What is left of a call of a handle. -/
inductive Task where
  /-- An operation begins, and the flag is yet to be cleared. -/
  | settle
  /-- An operation ends, and the flag, which was set, is yet to be cleared. -/
  | clear
  /-- An operation ends, and its start is yet to be cleared. -/
  | idle
  deriving DecidableEq

/-- A check that holds the list of monitors. -/
structure Scan where
  now : Nat
  /-- Numbers of the monitors that it has yet to look at. -/
  rest : List Nat
  /-- Number of blocked operations so far. -/
  counted : Nat
  /-- The monitor that it has counted and is about to flag, and for how long its operation has been
  going on. -/
  found? : Option (Nat × Nat)
  deriving DecidableEq

/-- A watchdog at any moment, with the calls that are halfway. -/
structure Scene where
  watchdog : Watchdog
  /-- Calls of handles, by the numbers of their monitors. -/
  tasks : List (Nat × Task)
  scan? : Option Scan
  deriving DecidableEq

namespace Scan

/-- The access that a check makes next. -/
def next (scan : Scan) (w : Watchdog) : Access :=
  match scan.found?, scan.rest with
  | some (id, _), _ => .flag id
  | none, [] => .unlock
  | none, id :: _ =>
    match w.monitor? id with
    | none => .forget id
    | some m => if (m.excess? w.limit scan.now).isSome then .count id else .pass id

/-- Go on to the next monitor. -/
def advance (scan : Scan) : Scan := { scan with rest := scan.rest.tail }

/-- Count the operation of a monitor that has been going on for `us`. -/
def find (scan : Scan) (id us : Nat) : Scan :=
  { scan.advance with
    counted := scan.counted + 1
    found? := some (id, us) }

theorem next_forget {w : Watchdog} {now id counted : Nat} {rest : List Nat}
    (h : w.monitor? id = none) : next ⟨now, id :: rest, counted, none⟩ w = .forget id := by
  simp only [next, h]

theorem next_look {w : Watchdog} {now id counted : Nat} {rest : List Nat} {m : Monitor}
    (h : w.monitor? id = some m) : next ⟨now, id :: rest, counted, none⟩ w =
      if (m.excess? w.limit now).isSome then .count id else .pass id := by
  simp only [next, h]

/-- The accesses that a check makes, each with what it has found. -/
inductive Next (w : Watchdog) : Scan → Access → Prop where
  | forget {now id counted : Nat} {rest : List Nat} :
    w.monitor? id = none → Next w ⟨now, id :: rest, counted, none⟩ (.forget id)
  | pass {now id counted : Nat} {rest : List Nat} {m : Monitor} :
    w.monitor? id = some m → m.excess? w.limit now = none →
    Next w ⟨now, id :: rest, counted, none⟩ (.pass id)
  | count {now id counted us : Nat} {rest : List Nat} {m : Monitor} :
    w.monitor? id = some m → m.excess? w.limit now = some us →
    Next w ⟨now, id :: rest, counted, none⟩ (.count id)
  | flag {now id counted us : Nat} {rest : List Nat} :
    Next w ⟨now, rest, counted, some (id, us)⟩ (.flag id)
  | unlock {now counted : Nat} : Next w ⟨now, [], counted, none⟩ .unlock

theorem next_spec (scan : Scan) (w : Watchdog) : scan.Next w (scan.next w) := by
  obtain ⟨now, rest, counted, found?⟩ := scan
  cases found? with
  | some => exact .flag
  | none =>
    cases rest with
    | nil => exact .unlock
    | cons id rest =>
      cases hmonitor : w.monitor? id with
      | none =>
        rw [next_forget hmonitor]
        exact .forget hmonitor
      | some m =>
        rw [next_look hmonitor]
        cases hexcess : m.excess? w.limit now with
        | none => exact .pass hmonitor hexcess
        | some => exact .count hmonitor hexcess

end Scan

namespace Scene

/-- A watchdog that no call is using. -/
def atRest (w : Watchdog) : Scene := ⟨w, [], none⟩

/-- The access that the check makes next, if there is one. -/
def next? (s : Scene) : Option Access := s.scan?.map fun scan => scan.next s.watchdog

/-- Whether an access can be made: a call goes on where it is, a handle is used before it is
dropped, and only one thread at a time holds the list of monitors. -/
def Allows (s : Scene) : Access → Prop
  | .register .. | .lock _ => s.scan? = none
  | .drop id => (s.watchdog.monitor? id).isSome ∧ ∀ task ∈ s.tasks, task.1 ≠ id
  | .store id _ | .read id => (s.watchdog.monitor? id).isSome
  | .settle id => (id, .settle) ∈ s.tasks
  | .clear id => (id, .clear) ∈ s.tasks
  | .idle id => (id, .idle) ∈ s.tasks
  | .forget id => s.next? = some (.forget id)
  | .pass id => s.next? = some (.pass id)
  | .count id => s.next? = some (.count id)
  | .flag id => s.next? = some (.flag id)
  | .unlock => s.next? = some .unlock

instance (s : Scene) : DecidablePred s.Allows
  | .register .. | .lock _ => inferInstanceAs (Decidable (s.scan? = none))
  | .drop id => inferInstanceAs (Decidable ((s.watchdog.monitor? id).isSome ∧ _))
  | .store id _ | .read id => inferInstanceAs (Decidable (s.watchdog.monitor? id).isSome)
  | .settle _ | .clear _ | .idle _ => inferInstanceAs (Decidable (_ ∈ s.tasks))
  | .forget _ | .pass _ | .count _ | .flag _ | .unlock =>
    inferInstanceAs (Decidable (s.next? = some _))

/-- Change the scan, if there is one. -/
def scan (s : Scene) (f : Scan → Scan) : Scene := { s with scan? := s.scan?.map f }

/-- Change the monitor of a number. -/
def modify (s : Scene) (id : Nat) (f : Monitor → Monitor) : Scene :=
  { s with watchdog := s.watchdog.modify id f }

/-- The monitor of a number, which may have been dropped. -/
def find? (s : Scene) (id : Nat) : Option Monitor := s.watchdog.monitors.find? (·.id = id)

/-- The effect of an access. -/
def after (s : Scene) : Access → Scene
  | .register block operation => { s with watchdog := s.watchdog.register block operation }
  | .drop id => { s with watchdog := s.watchdog.drop id }
  | .store id now =>
    { s.modify id (·.setStart (some now)) with tasks := (id, .settle) :: s.tasks }
  | .settle id =>
    { s.modify id (·.setWarned false) with tasks := s.tasks.erase (id, .settle) }
  | .read id =>
    let task : Task := if (s.find? id).any Monitor.hasWarned then .clear else .idle
    { s with tasks := (id, task) :: s.tasks }
  | .clear id =>
    { s.modify id (·.setWarned false) with tasks := (id, .idle) :: s.tasks.erase (id, .clear) }
  | .idle id => { s.modify id (·.setStart none) with tasks := s.tasks.erase (id, .idle) }
  | .lock now => { s with scan? := some ⟨now, s.watchdog.monitors.map Monitor.id, 0, none⟩ }
  | .forget id =>
    let monitors := s.watchdog.monitors.filter (·.id ≠ id)
    { s.scan Scan.advance with watchdog := { s.watchdog with monitors } }
  | .pass _ => s.scan Scan.advance
  | .count id => s.scan fun scan =>
    scan.find id (scan.now - ((s.find? id).bind Monitor.startedAt).getD 0)
  | .flag id => (s.modify id (·.setWarned true)).scan fun scan => { scan with found? := none }
  | .unlock => { s with scan? := none }

/-- What the check answers when it ends. -/
def answer? (s : Scene) : Option Nat := s.scan?.map Scan.counted

/-- The lines that go with an access: a call that ends an operation reports it once it has found the
flag set, and a check warns if it sets the flag. -/
def lines (s : Scene) : Access → List LogLine
  | .read id => ((s.find? id).map Monitor.finishLog).getD []
  | .flag id =>
    let found? := s.scan?.bind Scan.found?
    ((s.find? id).bind fun m => found?.map fun found => m.warnLog found.2).getD []
  | _ => []

def run (s : Scene) (accesses : List Access) : Scene := accesses.foldl after s

/-- Whether accesses can be made one after the other. -/
def Permits (s : Scene) : List Access → Prop
  | [] => True
  | a :: rest => s.Allows a ∧ (s.after a).Permits rest

/-- The lines that go with accesses. -/
def log (s : Scene) : List Access → List LogLine
  | [] => []
  | a :: rest => s.lines a ++ (s.after a).log rest

def decidePermits (s : Scene) : (accesses : List Access) → Decidable (s.Permits accesses)
  | [] => .isTrue trivial
  | a :: rest =>
    have := (s.after a).decidePermits rest
    inferInstanceAs (Decidable (s.Allows a ∧ _))

instance (s : Scene) : DecidablePred s.Permits := s.decidePermits

variable {s : Scene} {id now : Nat}

theorem next?_eq {scan : Scan} (h : s.scan? = some scan) :
    s.next? = some (scan.next s.watchdog) := by
  rw [next?, h]
  rfl

theorem answer?_eq {scan : Scan} (h : s.scan? = some scan) : s.answer? = some scan.counted := by
  rw [answer?, h]
  rfl

theorem scan?_map {scan : Scan} (h : s.scan? = some scan) (f : Scan → Scan) :
    s.scan?.map f = some (f scan) := by
  rw [h]
  rfl

theorem next?_spec {a : Access} (h : s.next? = some a) :
    ∃ scan, s.scan? = some scan ∧ scan.Next s.watchdog a := by
  obtain ⟨scan, hscan, rfl⟩ := Option.map_eq_some_iff.mp h
  exact ⟨scan, hscan, scan.next_spec s.watchdog⟩

theorem run_append (s : Scene) (l l' : List Access) : s.run (l ++ l') = (s.run l).run l' :=
  List.foldl_append

theorem permits_append (s : Scene) (l l' : List Access) :
    s.Permits (l ++ l') ↔ s.Permits l ∧ (s.run l).Permits l' := by
  induction l generalizing s with
  | nil => exact (true_and _).symm.to_iff
  | cons a l ih => exact (and_congr_right fun _ => ih (s.after a)).trans and_assoc.symm

theorem log_append (s : Scene) (l l' : List Access) :
    s.log (l ++ l') = s.log l ++ (s.run l).log l' := by
  induction l generalizing s with
  | nil => rfl
  | cons a l ih =>
    rw [List.cons_append, log, ih, ← List.append_assoc]
    rfl

/-! ### Calls without interruption -/

theorem modify_congr {w : Watchdog} {f g : Monitor → Monitor}
    (h : ∀ m ∈ w.monitors, m.id = id → f m = g m) : w.modify id f = w.modify id g := by
  simp only [Watchdog.modify]
  congr 1
  refine List.map_congr_left fun m hm => ?_
  split
  · exact h m hm ‹_›
  · rfl

theorem modify_modify (w : Watchdog) (id : Nat) {f g : Monitor → Monitor}
    (hf : ∀ m, (f m).id = m.id) : (w.modify id f).modify id g = w.modify id (g ∘ f) := by
  simp only [Watchdog.modify, List.map_map]
  congr 1
  refine List.map_congr_left fun m _ => ?_
  by_cases hid : m.id = id <;> simp [hid, hf]

/-- A call that begins an operation and is not interrupted. -/
theorem run_start (hid : (s.watchdog.monitor? id).isSome) (now : Nat) :
    s.Permits [.store id now, .settle id] ∧
      s.run [.store id now, .settle id] = { s with watchdog := s.watchdog.start id now } ∧
      s.log [.store id now, .settle id] = [] := by
  refine ⟨⟨hid, List.mem_cons_self, trivial⟩, ?_, rfl⟩
  simp only [run, List.foldl_cons, List.foldl_nil, after, modify, List.erase_cons_head]
  rw [modify_modify s.watchdog id (f := (·.setStart (some now))) fun _ => rfl]
  rfl

section

variable {w : Watchdog} {m : Monitor} (hids : (w.monitors.map Monitor.id).Nodup)

include hids

theorem eq_of_id_eq {m' : Monitor} (hm : m ∈ w.monitors) (hm' : m' ∈ w.monitors)
    (hid : m.id = m'.id) : m = m' :=
  List.inj_on_of_nodup_map hids hm hm' hid

theorem find?_eq_some_iff {tasks : List (Nat × Task)} {scan? : Option Scan} :
    (Scene.mk w tasks scan?).find? id = some m ↔ m ∈ w.monitors ∧ m.id = id := by
  constructor
  · intro h
    exact ⟨List.mem_of_find?_eq_some h, by simpa using List.find?_some h⟩
  · rintro ⟨hm, rfl⟩
    cases hfind : w.monitors.find? (·.id = m.id) with
    | none => simpa using List.find?_eq_none.mp hfind m hm
    | some m' =>
      have hid : m'.id = m.id := by simpa using List.find?_some hfind
      exact hfind.trans (by rw [eq_of_id_eq hids (List.mem_of_find?_eq_some hfind) hm hid])

theorem monitor?_eq_some_iff :
    w.monitor? id = some m ↔ m ∈ w.monitors ∧ m.isDropped = false ∧ m.id = id := by
  constructor
  · intro h
    have hm := List.find?_some h
    simp only [Bool.and_eq_true, decide_eq_true_eq, Bool.not_eq_true'] at hm
    exact ⟨List.mem_of_find?_eq_some h, hm.2, hm.1⟩
  · rintro ⟨hm, hdropped, rfl⟩
    cases hfind : w.monitors.find? fun m' => m'.id = m.id && !m'.isDropped with
    | none => simpa [hdropped] using List.find?_eq_none.mp hfind m hm
    | some m' =>
      have hid := List.find?_some hfind
      simp only [Bool.and_eq_true, decide_eq_true_eq] at hid
      exact hfind.trans (by rw [eq_of_id_eq hids (List.mem_of_find?_eq_some hfind) hm hid.1])

end

/-- What is left of a call that ends an operation once it has found the flag set. -/
theorem run_clear (s : Scene) (id : Nat) :
    { s with tasks := (id, .clear) :: s.tasks }.run [.clear id, .idle id] =
      { s with watchdog := s.watchdog.finish id } := by
  have hfinish : ∀ m : Monitor, m.finish = (m.setWarned false).setStart none := by
    rintro ⟨_, _, _, _, _ | _, _⟩ <;> rfl
  simp only [run, List.foldl_cons, List.foldl_nil, after, modify, List.erase_cons_head]
  rw [modify_modify s.watchdog id (f := (·.setWarned false)) fun _ => rfl, Watchdog.finish,
    modify_congr fun m _ _ => hfinish m]
  rfl

/-- The accesses of a call that ends an operation, which depend on the flag. -/
def finishing (s : Scene) (id : Nat) : List Access :=
  .read id :: (if (s.find? id).any Monitor.hasWarned then [.clear id] else []) ++ [.idle id]

/-- A call that ends an operation and is not interrupted. -/
theorem run_finish {m : Monitor} (hids : (s.watchdog.monitors.map Monitor.id).Nodup)
    (hm : s.watchdog.monitor? id = some m) :
    s.Permits (s.finishing id) ∧
      s.run (s.finishing id) = { s with watchdog := s.watchdog.finish id } ∧
      s.log (s.finishing id) = s.watchdog.finishLog id := by
  obtain ⟨hmem, hdropped, rfl⟩ := (monitor?_eq_some_iff hids).mp hm
  have hfind : s.find? m.id = some m := (find?_eq_some_iff hids).mpr ⟨hmem, rfl⟩
  have hlines : s.lines (.read m.id) = s.watchdog.finishLog m.id := by
    rw [lines, hfind, Watchdog.finishLog, hm]
  cases hflag : m.hasWarned with
  | true =>
    have hl : s.finishing m.id = [.read m.id, .clear m.id, .idle m.id] := by
      rw [finishing, hfind, Option.any_some, hflag]
      rfl
    have hread : s.after (.read m.id) = { s with tasks := (m.id, .clear) :: s.tasks } := by
      rw [after, hfind, Option.any_some, hflag]
      rfl
    rw [hl]
    refine ⟨⟨by rw [Allows, hm]; rfl, ?_⟩, ?_, ?_⟩
    · rw [hread]
      exact ⟨List.mem_cons_self, List.mem_cons_self, trivial⟩
    · rw [run, List.foldl_cons, hread, ← run, run_clear]
    · rw [log, hlines, hread]
      exact List.append_nil _
  | false =>
    have hl : s.finishing m.id = [.read m.id, .idle m.id] := by
      rw [finishing, hfind, Option.any_some, hflag]
      rfl
    have hread : s.after (.read m.id) = { s with tasks := (m.id, .idle) :: s.tasks } := by
      rw [after, hfind, Option.any_some, hflag]
      rfl
    rw [hl]
    refine ⟨⟨by rw [Allows, hm]; rfl, ?_⟩, ?_, ?_⟩
    · rw [hread]
      exact ⟨List.mem_cons_self, trivial⟩
    · rw [run, List.foldl_cons, hread, List.foldl_cons, List.foldl_nil, after]
      simp only [List.erase_cons_head, modify]
      rw [Watchdog.finish, modify_congr fun m' hm' hid => ?_]
      rw [eq_of_id_eq hids hm' hmem hid, Monitor.finish, hflag]
      rfl
    · rw [log, hlines, hread]
      exact List.append_nil _

/-- The accesses of a check to a monitor. -/
def looking (limit now : Nat) (m : Monitor) : List Access :=
  if m.isDropped then [.forget m.id]
  else if (m.excess? limit now).isSome then [.count m.id, .flag m.id]
  else [.pass m.id]

/-- A check that reads the clock at `now`, looks at all monitors and ends. -/
def checking (w : Watchdog) (now : Nat) : List Access :=
  .lock now :: (w.monitors.flatMap (looking w.limit now) ++ [.unlock])

/-- A scene in the course of a check, with the monitors that it has been through and those that are
left. -/
def midway (s : Scene) (now : Nat) (seen todo : List Monitor) (counted : Nat) : Scene :=
  { s with
    watchdog := { s.watchdog with monitors := seen ++ todo }
    scan? := some ⟨now, todo.map Monitor.id, counted, none⟩ }

/-- What a check makes of a monitor, which it may take off the list. -/
def outcome (limit now : Nat) (m : Monitor) : List Monitor :=
  if m.isDropped then [] else [m.check limit now]

section

variable {seen todo : List Monitor} {m : Monitor}
  (hids : ((seen ++ m :: todo).map Monitor.id).Nodup)

include hids

theorem ne_id_of_nodup : ∀ m' ∈ seen ++ todo, m'.id ≠ m.id := by
  intro m' hm' hid
  rw [List.map_append, List.map_cons, List.nodup_middle, ← List.map_append] at hids
  exact (List.nodup_cons.mp hids).1 (hid ▸ List.mem_map_of_mem hm')

theorem map_split (f : Monitor → Monitor) :
    ((seen ++ m :: todo).map fun m' => if m'.id = m.id then f m' else m') =
      seen ++ f m :: todo := by
  have hsame : ∀ l ⊆ seen ++ todo, (l.map fun m' => if m'.id = m.id then f m' else m') = l :=
    fun l hl => (List.map_congr_left fun m' hm' => if_neg (ne_id_of_nodup hids m' (hl hm'))).trans
      (List.map_id' l)
  rw [List.map_append, List.map_cons, if_pos rfl, hsame _ (List.subset_append_left ..),
    hsame _ (List.subset_append_right ..)]

theorem filter_split : (seen ++ m :: todo).filter (·.id ≠ m.id) = seen ++ todo := by
  have hsame : ∀ l ⊆ seen ++ todo, l.filter (·.id ≠ m.id) = l := fun l hl =>
    List.filter_eq_self.mpr fun m' hm' => decide_eq_true (ne_id_of_nodup hids m' (hl hm'))
  have hself : ¬decide (m.id ≠ m.id) = true := by simp
  rw [List.filter_append, List.filter_cons, if_neg hself, hsame _ (List.subset_append_left ..),
    hsame _ (List.subset_append_right ..)]

theorem nodup_outcome (limit now : Nat) :
    ((seen ++ outcome limit now m ++ todo).map Monitor.id).Nodup := by
  have hsub : ((outcome limit now m).map Monitor.id).Sublist [m.id] := by
    rw [outcome, Monitor.check]
    split
    · exact List.nil_sublist _
    · split <;> exact List.Sublist.refl _
  rw [List.map_append, List.map_append, List.append_assoc]
  rw [List.map_append, List.map_cons] at hids
  exact hids.sublist ((List.Sublist.refl _).append (hsub.append (List.Sublist.refl _)))

theorem monitor?_midway (s : Scene) (now counted : Nat) :
    (s.midway now seen (m :: todo) counted).watchdog.monitor? m.id =
      if m.isDropped then none else some m := by
  have hmem : m ∈ seen ++ m :: todo := List.mem_append_right _ List.mem_cons_self
  cases hdropped : m.isDropped with
  | false => exact (monitor?_eq_some_iff hids).mpr ⟨hmem, hdropped, rfl⟩
  | true =>
    refine Option.eq_none_iff_forall_ne_some.mpr fun m' hm' => ?_
    obtain ⟨hmem', hdropped', hid⟩ := (monitor?_eq_some_iff hids).mp hm'
    rw [eq_of_id_eq hids hmem' hmem hid, hdropped] at hdropped'
    cases hdropped'

/-- A check counts the operation of a monitor, which it has found to be blocked, and flags the
monitor. -/
theorem run_counting {s : Scene} {now us : Nat} (counted : Nat)
    (hnext : (s.midway now seen (m :: todo) counted).next? = some (.count m.id))
    (hexcess : m.excess? s.watchdog.limit now = some us) :
    (s.midway now seen (m :: todo) counted).Permits [.count m.id, .flag m.id] ∧
      (s.midway now seen (m :: todo) counted).run [.count m.id, .flag m.id] =
        s.midway now (seen ++ [m.setWarned true]) todo (counted + 1) ∧
      (s.midway now seen (m :: todo) counted).log [.count m.id, .flag m.id] = m.warnLog us := by
  have hfind : (s.midway now seen (m :: todo) counted).find? m.id = some m :=
    (find?_eq_some_iff hids).mpr ⟨List.mem_append_right _ List.mem_cons_self, rfl⟩
  have hcount : (s.midway now seen (m :: todo) counted).after (.count m.id) =
      { s.midway now seen (m :: todo) counted with
        scan? := some ⟨now, todo.map Monitor.id, counted + 1, some (m.id, us)⟩ } := by
    obtain ⟨start, hstart, hus⟩ := Monitor.excess?_eq_some_iff.mp hexcess
    show Scene.mk _ _ (some (Scan.find _ _ (now - Option.getD (Option.bind
      (Scene.find? _ _) _) 0))) = _
    rw [hfind, Option.bind_some, hstart, Option.getD_some, ← hus.2]
    rfl
  refine ⟨⟨hnext, ?_, trivial⟩, ?_, ?_⟩
  · rw [hcount]
    rfl
  · show (Scene.after _ (.count m.id)).after (.flag m.id) = _
    rw [hcount]
    show Scene.mk ⟨_, List.map _ (seen ++ m :: todo), _⟩ _ _ = _
    rw [map_split hids (·.setWarned true)]
    show _ = Scene.mk ⟨_, seen ++ [_] ++ todo, _⟩ _ _
    rw [List.append_assoc]
    rfl
  · show [] ++ ((Scene.after _ (.count m.id)).lines (.flag m.id) ++ []) = _
    rw [hcount, List.nil_append, List.append_nil]
    show (Option.bind (Scene.find? _ _) _).getD [] = _
    rw [find?_eq_some_iff hids |>.mpr ⟨List.mem_append_right _ List.mem_cons_self, rfl⟩]
    rfl

/-- A check looks at one monitor. -/
theorem run_looking (s : Scene) (now counted : Nat) :
    let l := looking s.watchdog.limit now m
    (s.midway now seen (m :: todo) counted).Permits l ∧
      (s.midway now seen (m :: todo) counted).run l =
        s.midway now (seen ++ outcome s.watchdog.limit now m) todo
          (counted + l.countP Access.isCount) ∧
      (s.midway now seen (m :: todo) counted).log l =
        if m.isDropped then [] else m.checkLog s.watchdog.limit now := by
  have hmonitor := monitor?_midway hids s now counted
  rw [looking, outcome, Monitor.check, Monitor.checkLog]
  cases hdropped : m.isDropped with
  | true =>
    rw [hdropped, if_pos rfl] at hmonitor
    refine ⟨⟨congrArg some (Scan.next_forget hmonitor), trivial⟩, ?_, rfl⟩
    show Scene.mk ⟨_, List.filter _ (seen ++ m :: todo), _⟩ _ _ = _
    rw [filter_split hids, if_pos rfl, List.append_nil]
    rfl
  | false =>
    rw [hdropped, if_neg Bool.false_ne_true] at hmonitor
    have hnext : (s.midway now seen (m :: todo) counted).next? = some
        (if (m.excess? s.watchdog.limit now).isSome then .count m.id else .pass m.id) :=
      congrArg some (Scan.next_look hmonitor)
    simp only [Bool.false_eq_true, if_false]
    cases hexcess : m.excess? s.watchdog.limit now with
    | none =>
      rw [hexcess] at hnext
      refine ⟨⟨hnext, trivial⟩, ?_, rfl⟩
      show Scene.mk ⟨_, seen ++ m :: todo, _⟩ _ _ = Scene.mk ⟨_, seen ++ [m] ++ todo, _⟩ _ _
      rw [List.append_assoc]
      rfl
    | some us =>
      rw [hexcess] at hnext
      exact run_counting hids counted hnext hexcess

end

/-- A check looks at one monitor after the other. -/
theorem run_flatMap_looking (s : Scene) (now : Nat) (seen todo : List Monitor)
    (hids : ((seen ++ todo).map Monitor.id).Nodup) (counted : Nat) :
    let l := todo.flatMap (looking s.watchdog.limit now)
    (s.midway now seen todo counted).Permits l ∧
      (s.midway now seen todo counted).run l =
        s.midway now (seen ++ todo.flatMap (outcome s.watchdog.limit now)) []
          (counted + l.countP Access.isCount) ∧
      (s.midway now seen todo counted).log l =
        todo.flatMap fun m => if m.isDropped then [] else m.checkLog s.watchdog.limit now := by
  induction todo generalizing seen counted with
  | nil =>
    intro l
    rw [List.flatMap_nil, List.append_nil]
    exact ⟨trivial, rfl, rfl⟩
  | cons m todo ih =>
    intro l
    obtain ⟨hpermits, hrun, hlog⟩ := run_looking hids s now counted
    obtain ⟨hpermits', hrun', hlog'⟩ := ih _ (nodup_outcome hids s.watchdog.limit now)
      (counted + (looking s.watchdog.limit now m).countP Access.isCount)
    have hl : l = looking s.watchdog.limit now m ++
      todo.flatMap (looking s.watchdog.limit now) := List.flatMap_cons
    rw [hl, permits_append, run_append, log_append, hrun, hrun', hlog, hlog', List.flatMap_cons,
      List.flatMap_cons, List.countP_append, ← List.append_assoc, ← Nat.add_assoc]
    exact ⟨⟨hpermits, hpermits'⟩, rfl, rfl⟩

theorem flatMap_outcome (limit now : Nat) (monitors : List Monitor) :
    monitors.flatMap (outcome limit now) =
      (monitors.filter fun m => !m.isDropped).map (·.check limit now) := by
  induction monitors with
  | nil => rfl
  | cons m rest ih =>
    rw [List.flatMap_cons, ih, outcome, List.filter_cons]
    cases m.isDropped <;> rfl

theorem flatMap_checkLog (limit now : Nat) (monitors : List Monitor) :
    (monitors.flatMap fun m => if m.isDropped then [] else m.checkLog limit now) =
      (monitors.filter fun m => !m.isDropped).flatMap (·.checkLog limit now) := by
  induction monitors with
  | nil => rfl
  | cons m rest ih =>
    rw [List.flatMap_cons, ih, List.filter_cons]
    cases m.isDropped <;> rfl

theorem countP_looking (limit now : Nat) (monitors : List Monitor) :
    (monitors.flatMap (looking limit now)).countP Access.isCount =
      (monitors.filter fun m => !m.isDropped).countP fun m => (m.excess? limit now).isSome := by
  induction monitors with
  | nil => rfl
  | cons m rest ih =>
    rw [List.flatMap_cons, List.countP_append, ih, looking, List.filter_cons]
    cases m.isDropped with
    | true => exact Nat.zero_add _
    | false =>
      rw [if_neg Bool.false_ne_true, Bool.not_false, if_pos rfl, List.countP_cons, Nat.add_comm]
      cases (m.excess? limit now).isSome <;> rfl

/-- A check that is not interrupted, and counts as many operations as one of the watchdog. -/
theorem run_check (s : Scene) (hscan : s.scan? = none)
    (hids : (s.watchdog.monitors.map Monitor.id).Nodup) (now : Nat) :
    s.Permits (checking s.watchdog now) ∧
      s.run (checking s.watchdog now) = { s with watchdog := s.watchdog.check now } ∧
      s.log (checking s.watchdog now) = s.watchdog.checkLog now ∧
      (checking s.watchdog now).countP Access.isCount = s.watchdog.blocked now := by
  obtain ⟨hpermits, hrun, hlog⟩ := run_flatMap_looking s now [] s.watchdog.monitors hids 0
  rw [List.nil_append] at hrun
  have hlock : s.after (.lock now) = s.midway now [] s.watchdog.monitors 0 := rfl
  refine ⟨⟨hscan, ?_⟩, ?_, ?_, ?_⟩
  · rw [hlock, permits_append, hrun]
    exact ⟨hpermits, rfl, trivial⟩
  · show ((s.after (.lock now)).run (_ ++ _)) = _
    rw [hlock, run_append, hrun, flatMap_outcome]
    show Scene.mk ⟨_, List.map _ _ ++ [], _⟩ _ none = Scene.mk _ _ s.scan?
    rw [List.append_nil, hscan]
    rfl
  · show [] ++ (s.after (.lock now)).log (_ ++ _) = _
    rw [hlock, log_append, hlog, flatMap_checkLog, List.nil_append]
    exact List.append_nil _
  · rw [checking, List.countP_cons, List.countP_append, countP_looking]
    rfl

end Scene
end Watchdog
end Dataflow
