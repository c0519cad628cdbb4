import Dataflow.Proofs.Watchdog.Accesses
import Mathlib.Data.List.Induction

/-!
# What the accesses to a watchdog say

What a watchdog ought to report is read off the accesses made so far, of which each condition has
the same form (`Watchdog.Since`): an operation is under way from the access that stores its start
until a start is stored or cleared (`IsUnderway`), a monitor is flagged from a check until a call
clears the flag (`IsFlagged`), and so on.

The watchdog keeps no accesses, only two cells for each monitor. `Scene.Follows` says that they,
the calls that are halfway and the check that is being made are what the accesses say; each access
keeps this (`Scene.Follows.after`), so it holds of every scene that accesses lead to
(`Scene.follows_run`).
-/

namespace Dataflow

namespace Watchdog

/-- Something of one kind has happened, and nothing of another since. -/
def Since (p q : Access → Prop) (past : List Access) : Prop :=
  ∃ before a since, past = before ++ a :: since ∧ p a ∧ ∀ b ∈ since, ¬q b

section

variable {p q : Access → Prop} {past : List Access} {a : Access}

theorem Since.exists_mem (h : Since p q past) : ∃ a ∈ past, p a := by
  obtain ⟨before, a, since, rfl, ha, -⟩ := h
  exact ⟨a, by simp, ha⟩

theorem since_concat : Since p q (past ++ [a]) ↔ p a ∨ (Since p q past ∧ ¬q a) := by
  constructor
  · rintro ⟨before, b, since, hsplit, hb, hsince⟩
    rcases List.eq_nil_or_concat since with rfl | ⟨since, last, rfl⟩
    · obtain ⟨rfl, hab⟩ := List.append_inj' hsplit rfl
      cases hab
      exact .inl hb
    · rw [List.concat_eq_append] at hsplit hsince
      rw [← List.cons_append, ← List.append_assoc] at hsplit
      obtain ⟨rfl, hlast⟩ := List.append_inj' hsplit rfl
      cases hlast
      exact .inr ⟨⟨before, b, since, rfl, hb, fun c hc => hsince c (List.mem_append_left _ hc)⟩,
        hsince a (by simp)⟩
  · rintro (ha | ⟨⟨before, b, since, rfl, hb, hsince⟩, ha⟩)
    · exact ⟨past, a, [], rfl, ha, by simp⟩
    · refine ⟨before, b, since ++ [a], by simp, hb, fun c hc => ?_⟩
      rcases List.mem_append.mp hc with hc | hc
      · exact hsince c hc
      · exact List.mem_singleton.mp hc ▸ ha

theorem since_append {l : List Access} (hl : ∀ b ∈ l, ¬q b) :
    Since p q (past ++ l) ↔ (∃ b ∈ l, p b) ∨ Since p q past := by
  induction l using List.reverseRecOn with
  | nil => simp
  | append_singleton l b ih =>
    have hb : ¬q b := hl b (by simp)
    rw [← List.append_assoc, since_concat, ih fun c hc => hl c (List.mem_append_left _ hc)]
    simp only [hb, not_false_eq_true, and_true, List.mem_append, List.mem_singleton, or_and_right,
      exists_or, exists_eq_left]
    rw [← or_assoc, or_comm (a := p b)]

/-- What has happened last of what ends both conditions is of both kinds. -/
theorem Since.exists_both {p' : Access → Prop} (h : Since p q past) (h' : Since p' q past)
    (hp : ∀ a, p a → q a) (hp' : ∀ a, p' a → q a) : ∃ a, p a ∧ p' a := by
  induction past using List.reverseRecOn with
  | nil =>
    obtain ⟨_, hmem, -⟩ := h.exists_mem
    cases hmem
  | append_singleton past a ih =>
    rcases since_concat.mp h with ha | ⟨h, hq⟩ <;> rcases since_concat.mp h' with ha' | ⟨h', hq'⟩
    · exact ⟨a, ha, ha'⟩
    · exact absurd (hp a ha) hq'
    · exact absurd (hp' a ha') hq
    · exact ih h h'

end

namespace Access

/-- Block and operation of a registration. -/
def name? : Access → Option (String × String)
  | register block operation => some (block, operation)
  | _ => none

/-- The number of the monitor that is accessed, if it is only one. -/
def id? : Access → Option Nat
  | register .. | lock _ | unlock => none
  | drop id | store id _ | settle id | read id | clear id | idle id => some id
  | forget id | pass id | count id | flag id => some id

/-- The number of the monitor that a check looks at. -/
def look? : Access → Option Nat
  | forget id | pass id | count id => some id
  | _ => none

end Access

/-- Blocks and operations of the monitors registered so far, by their numbers. -/
def names (past : List Access) : List (String × String) := past.filterMap Access.name?

def IsRegistered (past : List Access) (id : Nat) : Prop := id < (names past).length

/-- A monitor whose handle is still held. -/
def IsInUse (past : List Access) (id : Nat) : Prop := IsRegistered past id ∧ .drop id ∉ past

/-- Numbers of the monitors on the list, in order. -/
def listed (past : List Access) : List Nat :=
  (List.range (names past).length).filter fun id => .forget id ∉ past

/-- The operation of a monitor that began last began at `start`, and none has ended since. -/
def IsUnderway (past : List Access) (id start : Nat) : Prop :=
  Since (· = .store id start) (fun a => a = .idle id ∨ ∃ now, a = .store id now) past

/-- A check has flagged a monitor, and the flag has not been cleared since. -/
def IsFlagged (past : List Access) (id : Nat) : Prop :=
  Since (· = .flag id) (fun a => a = .settle id ∨ a = .clear id) past

/-- A check that read the clock at `now` holds the list of monitors. -/
def IsChecking (past : List Access) (now : Nat) : Prop :=
  Since (· = .lock now) (fun a => a = .unlock ∨ ∃ now, a = .lock now) past

/-- A check has counted the operation of a monitor, which had been going on for `us`, and is yet to
flag the monitor. -/
def IsCounted (past : List Access) (id us : Nat) : Prop :=
  ∃ before since start now, past = before ++ .count id :: since ∧ .flag id ∉ since ∧
    IsUnderway before id start ∧ IsChecking before now ∧ us = now - start

variable {past : List Access} {a : Access} {id start now : Nat}

theorem names_concat (past : List Access) (a : Access) :
    names (past ++ [a]) = names past ++ a.name?.toList := by
  rw [names, List.filterMap_append, names]
  cases h : a.name? <;> simp [h]

theorem isUnderway_concat : IsUnderway (past ++ [a]) id start ↔ a = .store id start ∨
    IsUnderway past id start ∧ ¬(a = .idle id ∨ ∃ now, a = .store id now) := since_concat

theorem isFlagged_concat : IsFlagged (past ++ [a]) id ↔
    a = .flag id ∨ IsFlagged past id ∧ ¬(a = .settle id ∨ a = .clear id) := since_concat

theorem isFlagged_append {l : List Access} (hl : .settle id ∉ l ∧ .clear id ∉ l) :
    IsFlagged (past ++ l) id ↔ .flag id ∈ l ∨ IsFlagged past id := by
  have hsince : ∀ a ∈ l, ¬(a = .settle id ∨ a = .clear id) := by
    rintro a ha (rfl | rfl)
    · exact hl.1 ha
    · exact hl.2 ha
  exact (since_append hsince).trans (or_congr_left exists_eq_right)

theorem isChecking_concat : IsChecking (past ++ [a]) now ↔
    a = .lock now ∨ IsChecking past now ∧ ¬(a = .unlock ∨ ∃ now, a = .lock now) := since_concat

/-- At most one check holds the list of monitors. -/
theorem IsChecking.unique {now' : Nat} (h : IsChecking past now) (h' : IsChecking past now') :
    now = now' := by
  obtain ⟨_, rfl, ha⟩ := Since.exists_both h h' (fun a ha => .inr ⟨now, ha⟩)
    (fun a ha => .inr ⟨now', ha⟩)
  cases ha
  rfl

/-- A count that is yet to be followed by the flag is the last access, or came before it. -/
theorem IsCounted.of_append {us : Nat} {l : List Access} (h : IsCounted (past ++ l) id us) :
    IsCounted past id us ∨ .count id ∈ l := by
  obtain ⟨before, since, start, now, hsplit, hflag, hrest⟩ := h
  rcases List.append_eq_append_iff.mp hsplit with ⟨l', rfl, rfl⟩ | ⟨l', rfl, hl⟩
  · exact .inr (List.mem_append_right _ List.mem_cons_self)
  · cases l' with
    | nil =>
      obtain rfl : _ = l := hl
      exact .inr List.mem_cons_self
    | cons a l' =>
      cases hl
      exact .inl ⟨before, l', start, now, rfl, fun hmem => hflag (List.mem_append_left _ hmem),
        hrest⟩

theorem IsCounted.concat {us : Nat} (h : IsCounted past id us) (ha : a ≠ .flag id) :
    IsCounted (past ++ [a]) id us := by
  obtain ⟨before, since, start, now, rfl, hflag, hrest⟩ := h
  refine ⟨before, since ++ [a], start, now, by simp, fun hmem => ?_, hrest⟩
  rcases List.mem_append.mp hmem with hmem | hmem
  · exact hflag hmem
  · exact ha (List.mem_singleton.mp hmem).symm

theorem IsRegistered.concat (h : IsRegistered past id) (a : Access) :
    IsRegistered (past ++ [a]) id := by
  rw [IsRegistered, names_concat, List.length_append]
  exact Nat.lt_add_right _ h

theorem nodup_listed (past : List Access) : (listed past).Nodup := List.nodup_range.filter _

theorem listed_concat (hfresh : .forget (names past).length ∉ past) : listed (past ++ [a]) =
    ((listed past).filter fun id => a ≠ .forget id) ++
      a.name?.toList.map fun _ => (names past).length := by
  have hfilter : ∀ l : List Nat, (l.filter fun id => .forget id ∉ past ++ [a]) =
      (l.filter fun id => .forget id ∉ past).filter fun id => a ≠ .forget id := by
    intro l
    rw [List.filter_filter]
    refine List.filter_congr fun id _ => ?_
    simp [and_comm, eq_comm]
  rw [listed, names_concat, List.length_append, hfilter]
  cases hname : a.name? with
  | none => simp [listed]
  | some name =>
    have ha : a ≠ .forget (names past).length := fun h => by simp [h, Access.name?] at hname
    simp [listed, List.range_succ, List.filter_append, hfresh, ha]

theorem mem_listed : id ∈ listed past ↔ IsRegistered past id ∧ .forget id ∉ past := by
  simp [listed, IsRegistered]

theorem mem_listed_concat (h : id ∈ listed past) (ha : a ≠ .forget id) :
    id ∈ listed (past ++ [a]) := by
  obtain ⟨hid, hforget⟩ := mem_listed.mp h
  exact mem_listed.mpr ⟨hid.concat a, by simpa using ⟨hforget, ha.symm⟩⟩

end Watchdog

/-! ### Monitors -/

namespace Monitor

open Watchdog (Access IsUnderway IsFlagged isUnderway_concat isFlagged_concat names names_concat)

variable {past : List Access} {m : Monitor} {a : Access}

/-- What is kept of a monitor is what the accesses say of it. -/
structure Follows (past : List Access) (m : Monitor) : Prop where
  names : (names past)[m.id]? = some (m.block, m.operation)
  dropped : m.isDropped = true ↔ .drop m.id ∈ past
  started : ∀ start, m.startedAt = some start ↔ IsUnderway past m.id start
  flagged : m.hasWarned = true ↔ IsFlagged past m.id

/-- What an access does to a monitor that is kept. -/
def undergo (m : Monitor) : Access → Monitor
  | .drop id => if m.id = id then { m with isDropped := true } else m
  | .store id now => if m.id = id then m.setStart (some now) else m
  | .settle id | .clear id => if m.id = id then m.setWarned false else m
  | .idle id => if m.id = id then m.setStart none else m
  | .flag id => if m.id = id then m.setWarned true else m
  | _ => m

@[simp] theorem undergo_id (m : Monitor) (a : Access) : (m.undergo a).id = m.id := by
  cases a <;> simp only [undergo] <;> split <;> rfl

theorem undergo_of_ne (h : a.id? ≠ some m.id) : m.undergo a = m := by
  cases a <;> grind [undergo, Access.id?]

theorem isDropped_undergo :
    (m.undergo a).isDropped = true ↔ m.isDropped = true ∨ a = .drop m.id := by
  cases a <;> grind [undergo, setStart, setWarned]

theorem startedAt_undergo {start : Nat} : (m.undergo a).startedAt = some start ↔
    a = .store m.id start ∨
      m.startedAt = some start ∧ ¬(a = .idle m.id ∨ ∃ now, a = .store m.id now) := by
  cases a <;> grind [undergo, setStart, setWarned]

theorem hasWarned_undergo : (m.undergo a).hasWarned = true ↔
    a = .flag m.id ∨ m.hasWarned = true ∧ ¬(a = .settle m.id ∨ a = .clear m.id) := by
  cases a <;> grind [undergo, setStart, setWarned]

namespace Follows

theorem undergo (h : m.Follows past) (a : Access) : (m.undergo a).Follows (past ++ [a]) := by
  have hblock : ((m.undergo a).block, (m.undergo a).operation) = (m.block, m.operation) := by
    cases a <;> simp only [Monitor.undergo] <;> split <;> rfl
  refine ⟨?_, ?_, fun start => ?_, ?_⟩
  · obtain ⟨hlt, -⟩ := List.getElem?_eq_some_iff.mp h.names
    rw [undergo_id, hblock, names_concat, List.getElem?_append_left hlt, h.names]
  · rw [isDropped_undergo, undergo_id, h.dropped, List.mem_append, List.mem_singleton, eq_comm]
  · rw [startedAt_undergo, undergo_id, h.started, isUnderway_concat]
  · rw [hasWarned_undergo, undergo_id, h.flagged, isFlagged_concat]

/-- A monitor of which nothing has been done yet. -/
theorem new (hfresh : ∀ a ∈ past, a.id? ≠ some (Watchdog.names past).length)
    (block operation : String) :
    Follows (past ++ [.register block operation])
      ⟨(Watchdog.names past).length, block, operation, none, false, false⟩ := by
  have hfresh' : ∀ a ∈ past ++ [Access.register block operation],
      a.id? ≠ some (Watchdog.names past).length := by
    intro a ha
    rcases List.mem_append.mp ha with ha | ha
    · exact hfresh a ha
    · cases List.mem_singleton.mp ha
      exact Option.some_ne_none _ |>.symm
  refine ⟨?_, iff_of_false Bool.false_ne_true fun h => hfresh' _ h rfl,
    fun start => iff_of_false (Option.some_ne_none start).symm fun h => ?_,
    iff_of_false Bool.false_ne_true fun h => ?_⟩
  · rw [names_concat]
    simp [Access.name?]
  · obtain ⟨_, ha, rfl⟩ := h.exists_mem
    exact hfresh' _ ha rfl
  · obtain ⟨_, ha, rfl⟩ := h.exists_mem
    exact hfresh' _ ha rfl

end Follows

end Monitor

/-! ### The scene -/

namespace Watchdog

/-- A check is where the accesses say it is. -/
def Scan.Follows (past : List Access) (scan : Scan) : Prop :=
  ∃ before during, past = before ++ .lock scan.now :: during ∧
    (∀ now, .lock now ∉ during) ∧ .unlock ∉ during ∧
    listed before = during.filterMap Access.look? ++ scan.rest ∧
    scan.counted = during.countP Access.isCount ∧
    ∀ id us, scan.found? = some (id, us) → id ∈ listed past ∧ IsCounted past id us

theorem Scan.Follows.isChecking {past : List Access} {scan : Scan} (h : scan.Follows past) :
    IsChecking past scan.now := by
  obtain ⟨before, during, hpast, hlock, hunlock, -⟩ := h
  refine ⟨before, _, during, hpast, rfl, fun b hb => ?_⟩
  rintro (rfl | ⟨now, rfl⟩)
  · exact hunlock hb
  · exact hlock now hb

/-- An access takes the check to where the accesses say it is then. -/
theorem Scan.Follows.concat {past : List Access} {a : Access} {scan scan' : Scan}
    (h : scan.Follows past) (hlock : ∀ now, a ≠ .lock now) (hunlock : a ≠ .unlock)
    (hnow : scan'.now = scan.now) (hrest : scan.rest = a.look?.toList ++ scan'.rest)
    (hcounted : scan'.counted = scan.counted + [a].countP Access.isCount)
    (hfound : ∀ id us, scan'.found? = some (id, us) →
      id ∈ listed (past ++ [a]) ∧ IsCounted (past ++ [a]) id us) :
    scan'.Follows (past ++ [a]) := by
  obtain ⟨before, during, rfl, hlock', hunlock', hlisted, hcounted', -⟩ := h
  refine ⟨before, during ++ [a], by simp [hnow], fun now => ?_, ?_, ?_, ?_, hfound⟩
  · simpa using ⟨hlock' now, (hlock now).symm⟩
  · simpa using ⟨hunlock', hunlock.symm⟩
  · rw [hlisted, hrest, List.filterMap_append, List.append_assoc]
    cases hlook : a.look? <;> simp [hlook]
  · rw [hcounted, hcounted', List.countP_append]

namespace Scene

/-- What is kept is what the accesses say. -/
structure Follows (threshold : Nat) (past : List Access) (s : Scene) : Prop where
  threshold_eq : s.watchdog.threshold = threshold
  registered_eq : s.watchdog.registered = (names past).length
  ids : s.watchdog.monitors.map Monitor.id = listed past
  monitors : ∀ m ∈ s.watchdog.monitors, m.Follows past
  registered : ∀ a ∈ past, ∀ id, a.id? = some id → IsRegistered past id
  tasks : ∀ task ∈ s.tasks, IsRegistered past task.1
  forgotten : ∀ id, .forget id ∈ past → .drop id ∈ past
  unlocked : s.scan? = none → ∀ now, ¬IsChecking past now
  scan : ∀ scan, s.scan? = some scan → scan.Follows past

variable {threshold : Nat} {past : List Access} {s : Scene} {a : Access} {id : Nat} {m : Monitor}

/-- A check may take a monitor off the list, a registration adds one, and the others stay. -/
theorem monitors_after_eq (s : Scene) (a : Access) : (s.after a).watchdog.monitors =
    (s.watchdog.monitors.filter fun m => a ≠ .forget m.id).map (·.undergo a) ++
      a.name?.toList.map fun name =>
        ⟨s.watchdog.registered, name.1, name.2, none, false, false⟩ := by
  have hall (h : ∀ id, a ≠ .forget id) :
      (s.watchdog.monitors.filter fun m => a ≠ .forget m.id) = s.watchdog.monitors :=
    List.filter_eq_self.mpr fun m _ => decide_eq_true (h m.id)
  cases a with
  | forget id =>
    show s.watchdog.monitors.filter _ = List.map (fun m => m) _ ++ []
    rw [List.map_id', List.append_nil]
    exact List.filter_congr fun m _ => by simp [eq_comm]
  | register block operation =>
    rw [hall (by simp)]
    show _ = List.map (fun m => m) _ ++ _
    rw [List.map_id']
    rfl
  | drop | store | settle | clear | idle | flag =>
    rw [hall (by simp)]
    exact (List.append_nil _).symm
  | read | lock | pass | count | unlock =>
    rw [hall (by simp)]
    show _ = List.map (fun m => m) _ ++ []
    rw [List.map_id', List.append_nil]
    rfl

namespace Follows

theorem new (threshold : Nat) : (atRest (.new threshold)).Follows threshold [] where
  threshold_eq := rfl
  registered_eq := rfl
  ids := rfl
  monitors _ h := by cases h
  registered _ h := by cases h
  tasks _ h := by cases h
  forgotten _ h := by cases h
  unlocked _ _ h := by
    obtain ⟨_, h, -⟩ := h.exists_mem
    cases h
  scan _ h := by cases h

section

variable (h : s.Follows threshold past)

include h

theorem nodup : (s.watchdog.monitors.map Monitor.id).Nodup := h.ids ▸ nodup_listed past

theorem isRegistered (hm : m ∈ s.watchdog.monitors) : IsRegistered past m.id :=
  (mem_listed.mp (h.ids ▸ List.mem_map_of_mem hm)).1

/-- The monitors that can be used are those of which the handles are held. -/
theorem isSome_monitor? : (s.watchdog.monitor? id).isSome ↔ IsInUse past id := by
  rw [Option.isSome_iff_exists]
  constructor
  · rintro ⟨m, hm⟩
    obtain ⟨hmem, hdropped, rfl⟩ := (monitor?_eq_some_iff h.nodup).mp hm
    refine ⟨h.isRegistered hmem, fun hd => ?_⟩
    rw [(h.monitors m hmem).dropped.mpr hd] at hdropped
    cases hdropped
  · rintro ⟨hid, hdropped⟩
    have hlisted : id ∈ listed past := mem_listed.mpr ⟨hid, fun hf => hdropped (h.forgotten id hf)⟩
    obtain ⟨m, hmem, rfl⟩ := List.mem_map.mp (h.ids ▸ hlisted)
    refine ⟨m, (monitor?_eq_some_iff h.nodup).mpr ⟨hmem, ?_, rfl⟩⟩
    exact Bool.eq_false_iff.mpr fun hd => hdropped ((h.monitors m hmem).dropped.mp hd)

/-- The numbers of the monitors on the list. -/
theorem ids_after (a : Access) :
    (s.after a).watchdog.monitors.map Monitor.id = listed (past ++ [a]) := by
  have hfresh : .forget (names past).length ∉ past := fun hmem =>
    Nat.lt_irrefl _ (h.registered _ hmem _ rfl)
  rw [listed_concat hfresh, ← h.ids, monitors_after_eq, List.map_append, List.map_map,
    List.map_map, List.filter_map, h.registered_eq]
  congr 1
  exact List.map_congr_left fun m _ => m.undergo_id a

theorem monitors_after (a : Access) :
    ∀ m ∈ (s.after a).watchdog.monitors, m.Follows (past ++ [a]) := by
  intro m hm
  rw [monitors_after_eq] at hm
  rcases List.mem_append.mp hm with hm | hm
  · obtain ⟨m', hm', rfl⟩ := List.mem_map.mp hm
    exact (h.monitors m' (List.mem_of_mem_filter hm')).undergo a
  · cases a with
    | register block operation =>
      cases List.mem_singleton.mp hm
      rw [h.registered_eq]
      exact .new (fun b hb hid => Nat.lt_irrefl _ (h.registered b hb _ hid)) block operation
    | _ => cases hm

/-- Only monitors that have been registered are accessed. -/
theorem isRegistered_of_id? (hallows : s.Allows a) (hid : a.id? = some id) :
    IsRegistered past id := by
  have hnext : s.next? = some a → a.look? = some id ∨ a = .flag id → IsRegistered past id := by
    intro hnext hlook
    obtain ⟨scan, hscan, hnext⟩ := next?_spec hnext
    obtain ⟨before, during, rfl, -, -, hlisted, -, hfound⟩ := h.scan scan hscan
    have hhead : ∀ {id rest}, scan.rest = id :: rest →
        IsRegistered (before ++ .lock scan.now :: during) id := by
      intro id rest hrest
      have hmem : id ∈ listed before := by
        rw [hlisted, hrest]
        exact List.mem_append_right _ List.mem_cons_self
      refine Nat.lt_of_lt_of_le (mem_listed.mp hmem).1 ?_
      rw [names, names, List.filterMap_append, List.length_append]
      exact Nat.le_add_right ..
    cases hnext with
    | forget | pass | count =>
      rcases hlook with hlook | hlook
      · cases hlook
        exact hhead rfl
      · cases hlook
    | flag =>
      rcases hlook with hlook | hlook
      · cases hlook
      · cases hlook
        exact (mem_listed.mp (hfound _ _ rfl).1).1
    | unlock => cases hid
  cases a with
  | register | lock | unlock => cases hid
  | drop =>
    cases hid
    exact (h.isSome_monitor?.mp hallows.1).1
  | store | read =>
    cases hid
    exact (h.isSome_monitor?.mp hallows).1
  | settle | clear | idle =>
    cases hid
    exact h.tasks _ hallows
  | forget | pass | count =>
    cases hid
    exact hnext hallows (.inl rfl)
  | flag =>
    cases hid
    exact hnext hallows (.inr rfl)

/-- A check forgets only what has been dropped. -/
theorem dropped_of_forget (hallows : s.Allows (.forget id)) : .drop id ∈ past := by
  obtain ⟨scan, -, hnext⟩ := next?_spec hallows
  cases hnext with
  | forget hnone =>
    refine Decidable.byContradiction fun hdropped => ?_
    have hsome := h.isSome_monitor?.mpr ⟨h.isRegistered_of_id? hallows rfl, hdropped⟩
    rw [hnone] at hsome
    cases hsome

theorem tasks_after (hallows : s.Allows a) :
    ∀ task ∈ (s.after a).tasks, IsRegistered (past ++ [a]) task.1 := by
  intro task htask
  have hor : task ∈ s.tasks ∨ a.id? = some task.1 := by
    cases a with
    | store | read | clear =>
      rcases List.mem_cons.mp htask with rfl | htask
      · exact .inr rfl
      · exact .inl (by first | exact htask | exact List.mem_of_mem_erase htask)
    | settle | idle => exact .inl (List.mem_of_mem_erase htask)
    | _ => exact .inl htask
  rcases hor with htask | hid
  · exact (h.tasks task htask).concat a
  · exact (h.isRegistered_of_id? hallows hid).concat a

/-- Where a check is that goes on. -/
theorem scan_after (hallows : s.Allows a) :
    ∀ scan, (s.after a).scan? = some scan → scan.Follows (past ++ [a]) := by
  intro scan' hscan'
  -- accesses of others
  have hother (hscan : (s.after a).scan? = s.scan?) (hlock : ∀ now, a ≠ .lock now)
      (hunlock : a ≠ .unlock) (hflag : ∀ id, a ≠ .flag id) (hlook : a.look? = none)
      (hcount : a.isCount = false) : scan'.Follows (past ++ [a]) := by
    have hfollows := h.scan scan' (hscan.symm.trans hscan')
    obtain ⟨-, -, -, -, -, -, -, hfound⟩ := id hfollows
    refine hfollows.concat hlock hunlock rfl (by rw [hlook]; rfl) (by simp [hcount])
      fun id us hus => ?_
    obtain ⟨hmem, hcounted⟩ := hfound id us hus
    exact ⟨mem_listed_concat hmem fun ha => by simp [ha, Access.look?] at hlook,
      hcounted.concat (hflag id)⟩
  cases a with
  | register | drop | store | settle | read | clear | idle =>
    exact hother rfl (by simp) (by simp) (by simp) rfl rfl
  | lock now =>
    cases hscan'
    exact ⟨past, [], rfl, by simp, by simp, h.ids.symm, rfl, fun id us hus => by cases hus⟩
  | forget | pass =>
    obtain ⟨scan, hscan, hnext⟩ := next?_spec hallows
    have hmap : s.scan?.map Scan.advance = some scan' := hscan'
    rw [hscan] at hmap
    cases hmap
    have hfollows := h.scan scan hscan
    cases hnext
    exact hfollows.concat (by simp) (by simp) rfl rfl rfl fun id us hus => by cases hus
  | count id =>
    obtain ⟨scan, hscan, hnext⟩ := next?_spec hallows
    have hmap : s.scan?.map (fun scan => scan.find id
      (scan.now - ((s.find? id).bind Monitor.startedAt).getD 0)) = some scan' := hscan'
    rw [hscan] at hmap
    cases hmap
    have hfollows := h.scan scan hscan
    cases hnext with
    | count hmonitor hexcess =>
      refine hfollows.concat (by simp) (by simp) rfl rfl rfl fun id' us hus => ?_
      cases hus
      obtain ⟨hmem, -, rfl⟩ := (monitor?_eq_some_iff h.nodup).mp hmonitor
      refine ⟨mem_listed_concat (h.ids ▸ List.mem_map_of_mem hmem) (by simp), ?_⟩
      obtain ⟨start, hstart, -⟩ := Monitor.excess?_eq_some_iff.mp hexcess
      have hfind : s.find? _ = some _ := (find?_eq_some_iff h.nodup).mpr ⟨hmem, rfl⟩
      rw [hfind, Option.bind_some, hstart]
      exact ⟨past, [], start, _, rfl, by simp, ((h.monitors _ hmem).started start).mp hstart,
        hfollows.isChecking, rfl⟩
  | flag id =>
    obtain ⟨scan, hscan, hnext⟩ := next?_spec hallows
    have hmap : s.scan?.map (fun scan => { scan with found? := none }) = some scan' := hscan'
    rw [hscan] at hmap
    cases hmap
    exact (h.scan scan hscan).concat (by simp) (by simp) rfl rfl rfl fun id us hus => by cases hus
  | unlock => cases hscan'

theorem unlocked_after (hscan : (s.after a).scan? = none) (now : Nat) :
    ¬IsChecking (past ++ [a]) now := by
  have hor : a = .unlock ∨ s.scan? = none ∧ ∀ now, a ≠ .lock now := by
    cases a <;> simp_all [Scene.after, Scene.scan, Scene.modify]
  rw [isChecking_concat]
  rintro (rfl | ⟨hchecking, hunlock⟩)
  · cases hscan
  · rcases hor with rfl | ⟨hscan, -⟩
    · exact hunlock (.inl rfl)
    · exact h.unlocked hscan now hchecking

/-- Every access keeps this. -/
theorem after (hallows : s.Allows a) : (s.after a).Follows threshold (past ++ [a]) where
  threshold_eq := by
    rw [← h.threshold_eq]
    cases a <;> rfl
  registered_eq := by
    rw [names_concat, List.length_append, ← h.registered_eq]
    cases a <;> rfl
  ids := h.ids_after a
  monitors := h.monitors_after a
  registered b hb id hid := by
    rcases List.mem_append.mp hb with hb | hb
    · exact (h.registered b hb id hid).concat a
    · cases List.mem_singleton.mp hb
      exact (h.isRegistered_of_id? hallows hid).concat a
  tasks := h.tasks_after hallows
  forgotten id hid := by
    rcases List.mem_append.mp hid with hid | hid
    · exact List.mem_append_left _ (h.forgotten id hid)
    · cases List.mem_singleton.mp hid
      exact List.mem_append_left _ (h.dropped_of_forget hallows)
  unlocked := h.unlocked_after
  scan := h.scan_after hallows

end

theorem run (h : s.Follows threshold past) {l : List Access} (hpermits : s.Permits l) :
    (s.run l).Follows threshold (past ++ l) := by
  induction l generalizing s past with
  | nil => exact (List.append_nil past).symm ▸ h
  | cons a l ih =>
    rw [← List.singleton_append, ← List.append_assoc]
    exact ih (h.after hpermits.1) hpermits.2

end Follows

theorem follows_run (hpermits : (atRest (.new threshold)).Permits past) :
    ((atRest (.new threshold)).run past).Follows threshold past :=
  (Follows.new threshold).run hpermits

end Scene
end Watchdog
end Dataflow
