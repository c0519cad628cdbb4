import Dataflow.Proofs.Watchdog.History

/-!
# What a watchdog reports

`reports_exact` says what a watchdog counts, warns of and reports after any accesses, however the
calls of several threads have interleaved. A check counts the operations that are over the limit
when it looks at them. It warns of an operation if it finds the flag cleared, and the end of an
operation is reported if the call that ends it finds the flag set. So each operation is warned of
once, and its end is reported if it has been warned of, as long as no check comes between the
accesses of one call and no other call uses the handle (`IsUndisturbed`).

That proviso is needed, and so is the limit, which differs from the threshold if this is longer than
64 bits of microseconds (`reports_astray`).
-/

namespace Dataflow

namespace Watchdog

/-- The line that warns of an operation that has been going on for some time. -/
def blockedLine (block operation : String) (us : Nat) : LogLine :=
  ⟨.warn, s!"BLOCKED: [{block}] {operation} running for {Monitor.seconds us}s"⟩

/-- The line about the end of an operation that was warned of. -/
def unblockedLine (block operation : String) : LogLine :=
  ⟨.info, s!"UNBLOCKED: [{block}] {operation} returned"⟩

/-- An operation of a monitor began at `start`, in two accesses that no check came between, while no
check was about to flag the monitor, and no call of the handle has set a cell since. -/
def IsUndisturbed (past : List Access) (id start : Nat) (since : List Access) : Prop :=
  ∃ before between, past = before ++ .store id start :: (between ++ .settle id :: since) ∧
    (∀ us, ¬IsCounted before id us) ∧ (∀ a ∈ between, a.id? ≠ some id) ∧
    .settle id ∉ since ∧ .clear id ∉ since ∧ .idle id ∉ since ∧ ∀ now, .store id now ∉ since

/-- What a watchdog reports, and what becomes of its monitors, after some accesses. -/
structure Reports (limit : Nat) (past : List Access) (s : Scene) : Prop where
  /-- A check counts an operation that has been going on for longer than the limit, -/
  count : ∀ id, s.Allows (.count id) → IsInUse past id ∧
    ∃ start now, IsUnderway past id start ∧ IsChecking past now ∧ limit < now - start
  /-- and passes over a monitor that has none. -/
  pass : ∀ id, s.Allows (.pass id) → IsInUse past id ∧
    ∀ start now, IsUnderway past id start → IsChecking past now → now - start ≤ limit
  /-- A check forgets only a monitor that was dropped, -/
  forget : ∀ id, s.Allows (.forget id) → .drop id ∈ past
  /-- and an access to one monitor leaves the others as they are. -/
  others : ∀ a (m : Monitor), a.id? ≠ some m.id → IsRegistered past m.id →
    (m ∈ (s.after a).watchdog.monitors ↔ m ∈ s.watchdog.monitors)
  /-- A check can always go on to its end, -/
  ends : s.scan?.isSome → ∃ l, s.Permits (l ++ [.unlock]) ∧
    ∀ a ∈ l, a.look?.isSome ∨ ∃ id, a = .flag id
  /-- by when it has looked once at each monitor that was on the list, in order, and has forgotten
  those that had been dropped. It answers how many it has counted. -/
  unlock : s.Allows .unlock → ∃ before now during,
    past = before ++ .lock now :: during ∧ (∀ now, .lock now ∉ during) ∧ .unlock ∉ during ∧
    during.filterMap Access.look? = listed before ∧
    s.answer? = some (during.countP Access.isCount) ∧
    ∀ id, .drop id ∈ before → id ∉ s.watchdog.monitors.map Monitor.id
  kept : ∀ id, IsInUse past id → id ∈ s.watchdog.monitors.map Monitor.id
  /-- A check warns of an operation that it has counted, unless the monitor is flagged. -/
  flag : ∀ id, s.Allows (.flag id) → ∃ block operation us,
    (names past)[id]? = some (block, operation) ∧ IsCounted past id us ∧
    (IsFlagged past id → s.lines (.flag id) = []) ∧
    (¬IsFlagged past id → s.lines (.flag id) = [blockedLine block operation us])
  /-- The end of an operation is reported if the monitor is flagged. -/
  read : ∀ id, s.Allows (.read id) → ∃ block operation,
    (names past)[id]? = some (block, operation) ∧
    (IsFlagged past id → s.lines (.read id) = [unblockedLine block operation]) ∧
    (¬IsFlagged past id → s.lines (.read id) = [])
  /-- Flagged is what a check has counted and flagged since the operation began. -/
  undisturbed : ∀ id start since, IsUndisturbed past id start since →
    IsUnderway past id start ∧ (IsFlagged past id ↔ .flag id ∈ since) ∧
    (.flag id ∈ since → .count id ∈ since)
  /-- Calls that are not interrupted are those of the watchdog. -/
  start : ∀ id now, IsInUse past id → s.Permits [.store id now, .settle id] ∧
    s.run [.store id now, .settle id] = { s with watchdog := s.watchdog.start id now }
  finish : ∀ id, IsInUse past id → s.Permits (s.finishing id) ∧
    s.run (s.finishing id) = { s with watchdog := s.watchdog.finish id } ∧
    s.log (s.finishing id) = s.watchdog.finishLog id
  check : s.scan? = none → ∀ now, s.Permits (Scene.checking s.watchdog now) ∧
    s.run (Scene.checking s.watchdog now) = { s with watchdog := s.watchdog.check now } ∧
    s.log (Scene.checking s.watchdog now) = s.watchdog.checkLog now ∧
    (Scene.checking s.watchdog now).countP Access.isCount = s.watchdog.blocked now

variable {past since : List Access} {id start : Nat}

namespace IsUndisturbed

theorem isUnderway (h : IsUndisturbed past id start since) : IsUnderway past id start := by
  obtain ⟨before, between, rfl, -, hbetween, -, -, hidle, hstore⟩ := h
  refine ⟨before, _, _, rfl, rfl, fun a ha => ?_⟩
  rintro (rfl | ⟨now, rfl⟩) <;> rcases List.mem_append.mp ha with ha | ha
  · exact hbetween _ ha rfl
  · exact hidle (List.mem_of_ne_of_mem (by simp) ha)
  · exact hbetween _ ha rfl
  · exact hstore now (List.mem_of_ne_of_mem (by simp) ha)

theorem isFlagged_iff (h : IsUndisturbed past id start since) :
    IsFlagged past id ↔ .flag id ∈ since := by
  obtain ⟨before, between, rfl, -, -, hsettle, hclear, -⟩ := h
  have hsplit : before ++ .store id start :: (between ++ .settle id :: since) =
      before ++ .store id start :: between ++ [.settle id] ++ since := by simp
  have hcleared : ¬IsFlagged (before ++ .store id start :: between ++ [.settle id]) id := by
    rw [isFlagged_concat]
    rintro (h | ⟨-, h⟩)
    · cases h
    · exact h (.inl rfl)
  rw [hsplit, isFlagged_append ⟨hsettle, hclear⟩, or_iff_left hcleared]

end IsUndisturbed

namespace Scene

/-- A check that is about to look at the next monitor goes on to the last one. -/
theorem ends_of_rest {s : Scene} {now counted : Nat} {rest : List Nat}
    (hscan : s.scan? = some ⟨now, rest, counted, none⟩) : ∃ l, s.Permits (l ++ [.unlock]) ∧
      ∀ a ∈ l, a.look?.isSome ∨ ∃ id, a = .flag id := by
  induction rest generalizing s counted with
  | nil => exact ⟨[], ⟨next?_eq hscan, trivial⟩, by simp⟩
  | cons id rest ih =>
    have hnext := next?_eq hscan
    have hspec := Scan.next_spec ⟨now, id :: rest, counted, none⟩ s.watchdog
    generalize Scan.next ⟨now, id :: rest, counted, none⟩ s.watchdog = a at hnext hspec
    cases hspec with
    | forget =>
      have hafter : (s.after (.forget id)).scan? = _ := scan?_map hscan Scan.advance
      obtain ⟨l, hl, hchecks⟩ := ih hafter
      exact ⟨.forget id :: l, ⟨hnext, hl⟩, List.forall_mem_cons.mpr ⟨.inl rfl, hchecks⟩⟩
    | pass =>
      have hafter : (s.after (.pass id)).scan? = _ := scan?_map hscan Scan.advance
      obtain ⟨l, hl, hchecks⟩ := ih hafter
      exact ⟨.pass id :: l, ⟨hnext, hl⟩, List.forall_mem_cons.mpr ⟨.inl rfl, hchecks⟩⟩
    | count =>
      have hcount : (s.after (.count id)).scan? = _ := scan?_map hscan _
      have hflag : ((s.after (.count id)).after (.flag id)).scan? = _ := scan?_map hcount _
      obtain ⟨l, hl, hchecks⟩ := ih hflag
      exact ⟨.count id :: .flag id :: l, ⟨hnext, next?_eq hcount, hl⟩,
        List.forall_mem_cons.mpr ⟨.inl rfl, List.forall_mem_cons.mpr ⟨.inr ⟨id, rfl⟩, hchecks⟩⟩⟩

theorem ends {s : Scene} (hscan : s.scan?.isSome) : ∃ l, s.Permits (l ++ [.unlock]) ∧
    ∀ a ∈ l, a.look?.isSome ∨ ∃ id, a = .flag id := by
  obtain ⟨⟨now, rest, counted, found?⟩, hscan⟩ := Option.isSome_iff_exists.mp hscan
  cases found? with
  | none => exact ends_of_rest hscan
  | some found =>
    have hflag : (s.after (.flag found.1)).scan? = _ := scan?_map hscan _
    obtain ⟨l, hl, hchecks⟩ := ends_of_rest hflag
    exact ⟨.flag found.1 :: l, ⟨next?_eq hscan, hl⟩,
      List.forall_mem_cons.mpr ⟨.inr ⟨found.1, rfl⟩, hchecks⟩⟩

end Scene

namespace Scene.Follows

variable {threshold now : Nat} {s : Scene} {a : Access} {m : Monitor}

section

variable (h : s.Follows threshold past)

include h

theorem limit_eq : s.watchdog.limit = threshold % UInt64.size := by
  rw [limit, h.threshold_eq]

theorem isInUse_of_monitor? (hm : s.watchdog.monitor? id = some m) : IsInUse past id :=
  h.isSome_monitor?.mp (by rw [hm]; rfl)

/-- What a check finds at a monitor. -/
theorem excess?_eq_some_iff (hm : s.watchdog.monitor? id = some m) {us : Nat} :
    m.excess? s.watchdog.limit now = some us ↔
      ∃ start, IsUnderway past id start ∧ threshold % UInt64.size < now - start ∧
        us = now - start := by
  obtain ⟨hmem, -, rfl⟩ := (monitor?_eq_some_iff h.nodup).mp hm
  rw [Monitor.excess?_eq_some_iff, h.limit_eq]
  exact exists_congr fun start => and_congr_left fun _ => (h.monitors m hmem).started start

theorem count (hallows : s.Allows (.count id)) : IsInUse past id ∧ ∃ start now,
    IsUnderway past id start ∧ IsChecking past now ∧
      threshold % UInt64.size < now - start := by
  obtain ⟨scan, hscan, hnext⟩ := next?_spec hallows
  cases hnext with
  | count hm hexcess =>
    obtain ⟨start, hstart, hover, -⟩ := (h.excess?_eq_some_iff hm).mp hexcess
    exact ⟨h.isInUse_of_monitor? hm, start, _, hstart, (h.scan _ hscan).isChecking, hover⟩

theorem pass (hallows : s.Allows (.pass id)) : IsInUse past id ∧
    ∀ start now, IsUnderway past id start → IsChecking past now →
      now - start ≤ threshold % UInt64.size := by
  obtain ⟨scan, hscan, hnext⟩ := next?_spec hallows
  cases hnext with
  | pass hm hexcess =>
    refine ⟨h.isInUse_of_monitor? hm, fun start now hstart hnow => Nat.le_of_not_lt fun hover => ?_⟩
    obtain rfl := hnow.unique (h.scan _ hscan).isChecking
    have hsome := (h.excess?_eq_some_iff hm).mpr ⟨start, hstart, hover, rfl⟩
    rw [hexcess] at hsome
    cases hsome

theorem others (a : Access) (ha : a.id? ≠ some m.id) (hm : IsRegistered past m.id) :
    m ∈ (s.after a).watchdog.monitors ↔ m ∈ s.watchdog.monitors := by
  rw [monitors_after_eq, List.mem_append, List.mem_map]
  constructor
  · rintro (⟨m', hm', rfl⟩ | hnew)
    · rw [Monitor.undergo_id] at ha
      rw [Monitor.undergo_of_ne ha]
      exact List.mem_of_mem_filter hm'
    · obtain ⟨name, -, rfl⟩ := List.mem_map.mp hnew
      exact absurd (h.registered_eq ▸ hm) (Nat.lt_irrefl _)
  · intro hmem
    have hkept : a ≠ .forget m.id := fun hforget => ha (hforget ▸ rfl)
    exact .inl ⟨m, List.mem_filter.mpr ⟨hmem, decide_eq_true hkept⟩, Monitor.undergo_of_ne ha⟩

theorem kept (hid : IsInUse past id) : id ∈ s.watchdog.monitors.map Monitor.id := by
  rw [h.ids, mem_listed]
  exact ⟨hid.1, fun hforget => hid.2 (h.forgotten id hforget)⟩

theorem flag (hallows : s.Allows (.flag id)) : ∃ block operation us,
    (names past)[id]? = some (block, operation) ∧ IsCounted past id us ∧
      (IsFlagged past id → s.lines (.flag id) = []) ∧
      (¬IsFlagged past id → s.lines (.flag id) = [blockedLine block operation us]) := by
  obtain ⟨scan, hscan, hnext⟩ := next?_spec hallows
  cases hnext with
  | @flag _ _ _ us =>
    obtain ⟨-, -, -, -, -, -, -, hfound⟩ := h.scan _ hscan
    obtain ⟨hlisted, hcounted⟩ := hfound id us rfl
    obtain ⟨m, hmem, rfl⟩ := List.mem_map.mp (h.ids ▸ hlisted)
    have hfollows := h.monitors m hmem
    have hlines : s.lines (.flag m.id) = m.warnLog us := by
      rw [lines, hscan, (find?_eq_some_iff h.nodup).mpr ⟨hmem, rfl⟩]
      rfl
    rw [hlines, ← hfollows.flagged, Monitor.warnLog]
    exact ⟨m.block, m.operation, us, hfollows.names, hcounted, fun hflag => if_pos hflag,
      fun hflag => if_neg hflag⟩

theorem read (hallows : s.Allows (.read id)) : ∃ block operation,
    (names past)[id]? = some (block, operation) ∧
      (IsFlagged past id → s.lines (.read id) = [unblockedLine block operation]) ∧
      (¬IsFlagged past id → s.lines (.read id) = []) := by
  obtain ⟨m, hm⟩ := Option.isSome_iff_exists.mp hallows
  obtain ⟨hmem, -, rfl⟩ := (monitor?_eq_some_iff h.nodup).mp hm
  have hfollows := h.monitors m hmem
  have hlines : s.lines (.read m.id) = m.finishLog := by
    rw [lines, (find?_eq_some_iff h.nodup).mpr ⟨hmem, rfl⟩]
    rfl
  rw [hlines, ← hfollows.flagged, Monitor.finishLog]
  exact ⟨m.block, m.operation, hfollows.names, fun hflag => if_pos hflag, fun hflag => if_neg hflag⟩

end

end Scene.Follows

/-- What was so when an access was made. -/
theorem follows_of_permits_append {threshold : Nat} {before after : List Access} {a : Access}
    (h : (Scene.atRest (.new threshold)).Permits (before ++ a :: after)) :
    ∃ s : Scene, s.Follows threshold before ∧ s.Allows a := by
  obtain ⟨hbefore, hafter⟩ := (Scene.permits_append ..).mp h
  exact ⟨_, Scene.follows_run hbefore, hafter.1⟩

section

variable {threshold : Nat} (hpermits : (Scene.atRest (.new threshold)).Permits past)

include hpermits

/-- A flag that a check sets during an operation is about this operation. -/
theorem IsUndisturbed.count_of_flag (h : IsUndisturbed past id start since)
    (hflag : .flag id ∈ since) : .count id ∈ since := by
  obtain ⟨before, between, rfl, hcounted, hbetween, -⟩ := h
  obtain ⟨pre, post, rfl⟩ := List.append_of_mem hflag
  have hsplit : before ++ .store id start :: (between ++ .settle id :: (pre ++ .flag id :: post)) =
      before ++ (.store id start :: (between ++ .settle id :: pre)) ++ .flag id :: post := by simp
  rw [hsplit] at hpermits
  obtain ⟨s, hfollows, hallows⟩ := follows_of_permits_append hpermits
  obtain ⟨-, -, us, -, hcounted', -⟩ := hfollows.flag hallows
  rcases hcounted'.of_append with hcounted' | hmem
  · exact absurd hcounted' (hcounted us)
  · have hmem' : .count id ∈ between ++ .settle id :: pre := List.mem_of_ne_of_mem (by simp) hmem
    rcases List.mem_append.mp hmem' with hmem | hmem
    · exact absurd rfl (hbetween _ hmem)
    · exact List.mem_append_left _ (List.mem_of_ne_of_mem (by simp) hmem)

/-- A check that ends has looked at all monitors. -/
theorem answer_of_unlock {s : Scene} (h : s.Follows threshold past) (hallows : s.Allows .unlock) :
    ∃ before now during,
      past = before ++ .lock now :: during ∧ (∀ now, .lock now ∉ during) ∧ .unlock ∉ during ∧
      during.filterMap Access.look? = listed before ∧
      s.answer? = some (during.countP Access.isCount) ∧
      ∀ id, .drop id ∈ before → id ∉ s.watchdog.monitors.map Monitor.id := by
  obtain ⟨scan, hscan, hnext⟩ := Scene.next?_spec hallows
  cases hnext with
  | @unlock now counted =>
    obtain ⟨before, during, rfl, hlock, hunlock, hlisted, hcounted, -⟩ := h.scan _ hscan
    rw [List.append_nil] at hlisted
    have hanswer : s.answer? = some counted := Scene.answer?_eq hscan
    refine ⟨before, now, during, rfl, hlock, hunlock, hlisted.symm, hcounted ▸ hanswer,
      fun id hdrop hid => ?_⟩
    obtain ⟨-, hforget⟩ := mem_listed.mp (h.ids ▸ hid)
    obtain ⟨sb, hb, -⟩ := follows_of_permits_append hpermits
    have hlooked : id ∈ during.filterMap Access.look? := by
      rw [← hlisted, mem_listed]
      exact ⟨hb.registered _ hdrop id rfl, fun hmem => hforget (List.mem_append_left _ hmem)⟩
    obtain ⟨a, ha, hlook⟩ := List.mem_filterMap.mp hlooked
    -- when the check looked, the monitor had been dropped
    obtain ⟨pre, post, rfl⟩ := List.append_of_mem ha
    rw [← List.cons_append, ← List.append_assoc] at hpermits
    obtain ⟨s', hs', hallows'⟩ := follows_of_permits_append hpermits
    have hdrop' : .drop id ∈ before ++ .lock now :: pre := List.mem_append_left _ hdrop
    cases a with
    | forget =>
      cases hlook
      exact hforget (by simp)
    | pass =>
      cases hlook
      exact (hs'.pass hallows').1.2 hdrop'
    | count =>
      cases hlook
      exact (hs'.count hallows').1.2 hdrop'
    | _ => cases hlook

end

/-- After any accesses to a watchdog, in whatever order the calls of several threads have made them:
a check counts the operations that have been going on for longer than the limit, which is what is
left of the threshold in 64 bits, when it looks, and warns of those that are not flagged; an end is
reported of those that are. So an operation is warned of once, by the first check that counts it,
and its end is reported if it has been warned of, unless a check comes between the accesses of a
call or two calls of the handle overlap. A monitor that has been dropped is forgotten by the next
check, and no other one is touched. -/
theorem reports_exact (threshold : Nat) (past : List Access)
    (hpermits : (Scene.atRest (.new threshold)).Permits past) :
    Reports (threshold % UInt64.size) past ((Scene.atRest (.new threshold)).run past) :=
  have h := Scene.follows_run hpermits
  { count := fun _ => h.count
    pass := fun _ => h.pass
    forget := fun _ => h.dropped_of_forget
    others := fun a _ => h.others a
    ends := Scene.ends
    unlock := answer_of_unlock hpermits h
    kept := fun _ => h.kept
    flag := fun _ => h.flag
    read := fun _ => h.read
    undisturbed := fun _ _ _ hu => ⟨hu.isUnderway, hu.isFlagged_iff, hu.count_of_flag hpermits⟩
    start := fun _ now hid =>
      (Scene.run_start (h.isSome_monitor?.mpr hid) now).imp_right And.left
    finish := fun _ hid =>
      (Option.isSome_iff_exists.mp (h.isSome_monitor?.mpr hid)).elim fun _ =>
        Scene.run_finish h.nodup
    check := fun hscan now => Scene.run_check _ hscan h.nodup now }

/-- A check finds an operation that began at 10 over the limit at 40, and its end is reported. -/
theorem reports_exact_head :
    let begun : List Access := [.register "head" "work", .store 0 10, .settle 0]
    let checked : List Access := [.lock 40, .count 0, .flag 0, .unlock]
    let s := (Scene.atRest (.new 20)).run (begun ++ checked)
    IsUndisturbed (begun ++ checked) 0 10 checked ∧ s.Allows (.read 0) ∧
      s.lines (.read 0) = [unblockedLine "head" "work"] := by
  intro begun checked s
  have h : Reports (20 % UInt64.size) (begun ++ checked) s := reports_exact 20 _ (by decide)
  have hundisturbed : IsUndisturbed (begun ++ checked) 0 10 checked :=
    ⟨[.register "head" "work"], [], rfl, fun us hcounted => by
      obtain ⟨_, _, _, _, hsplit, -⟩ := hcounted
      simpa using congrArg (Access.count 0 ∈ ·) hsplit, by simp, by decide, by decide, by decide,
      by simp [checked]⟩
  have hallows : s.Allows (.read 0) := by decide
  obtain ⟨block, operation, hnames, hflagged, -⟩ := h.read 0 hallows
  cases hnames
  exact ⟨hundisturbed, hallows,
    hflagged ((h.undisturbed 0 10 checked hundisturbed).2.1.mpr (by decide))⟩

/-- An operation of 1 ms is counted although the threshold is 2 ^ 58 s, of which 64 bits of
microseconds keep nothing. If operations overlap on one handle, the one that ends first ends the
other as well, which is not counted any more and whose end is not reported. And a check that comes
between the accesses of the call that ends an operation warns of it a second time, and leaves the
flag set for the next one. -/
theorem reports_astray :
    let long := ((new ((1 <<< 58) * 1000000)).register "head" "work").start 0 0
    let outer := ((new 0).register "head" "work").start 0 0
    let both := (outer.check 1).start 0 2
    let s := Scene.atRest (.new 0)
    let past : List Access := [.register "head" "work", .store 0 0, .settle 0,
      .lock 1, .count 0, .flag 0, .unlock, .read 0, .clear 0,
      .lock 2, .count 0, .flag 0, .unlock, .idle 0]
    (¬long.threshold < 1000 ∧ long.blocked 1000 = 1 ∧
      long.checkLog 1000 = [blockedLine "head" "work" 1000]) ∧
    (outer.checkLog 1 = [blockedLine "head" "work" 1] ∧
      (both.finish 0).blocked 4 = 0 ∧ (both.finish 0).finishLog 0 = []) ∧
    s.Permits past ∧
      s.log past = [blockedLine "head" "work" 1, unblockedLine "head" "work",
        blockedLine "head" "work" 2] ∧
      ((s.run past).find? 0).map Monitor.hasWarned = some true := by
  decide

end Watchdog
end Dataflow
