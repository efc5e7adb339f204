import VicoopBridge.Library.Transition
import VicoopBridge.Verification.CallerExecutionScheduler.Queues

/-! # Admission by the scheduler

After every operation nobody waits for capacity that is free, and scopes take turns. -/

namespace VicoopBridge

open Library

namespace CallerExecutionScheduler

variable {limits : SchedulerLimits} {s t : CallerExecutionScheduler} {S : String}

/-- Some waiter of the scope is within its own limits. -/
def Runnable (limits : SchedulerLimits) (s : CallerExecutionScheduler) (scope : String) : Prop :=
  ∃ queue, s.queues.get? scope = some queue ∧ (s.eligible limits scope queue).isSome

/-! ## The next waiter -/

theorem eligible_eq_some {scope : String} {queue : List SchedulerWaiter} {w : SchedulerWaiter} :
    s.eligible limits scope queue = some w ↔ (s.busyOf scope).length < limits.perCaller ∧
      queue.find? (fun item => item.context ∉ s.busyOf scope) = some w := by
  unfold eligible
  split
  · rename_i hfull
    simp [Nat.not_lt.mpr hfull]
  · rename_i hroom
    simp [Nat.not_le.mp hroom]

/-- The scope that comes next is the first one that may run. -/
theorem next_eq_some {scope : String} {w : SchedulerWaiter} (h : s.next limits = some (scope, w)) :
    ∃ before queue after, s.queues.entries = before ++ (scope, queue) :: after ∧
      s.eligible limits scope queue = some w ∧
        ∀ entry ∈ before, s.eligible limits entry.1 entry.2 = none := by
  obtain ⟨before, entry, after, hentries, hfound, hnone⟩ := List.findSome?_eq_some_iff.mp h
  obtain ⟨w', hw', heq⟩ := Option.map_eq_some_iff.mp hfound
  obtain ⟨rfl, rfl⟩ := Prod.mk.inj heq
  exact ⟨before, entry.2, after, hentries, hw', fun e he => Option.map_eq_none_iff.mp (hnone e he)⟩

theorem next_eq_none : s.next limits = none ↔ ∀ scope, ¬ s.Runnable limits scope := by
  unfold next Runnable
  rw [List.findSome?_eq_none_iff]
  constructor
  · rintro hnone scope ⟨queue, hq, hsome⟩
    have hentry := hnone (scope, queue) ((s.queues.mem_entries_iff scope queue).mpr hq)
    rw [Option.map_eq_none_iff.mp hentry] at hsome
    simp at hsome
  · rintro hnot ⟨scope, queue⟩ hentry
    have hq := (s.queues.mem_entries_iff scope queue).mp hentry
    rw [Option.map_eq_none_iff, ← Option.not_isSome_iff_eq_none]
    exact fun hsome => hnot scope ⟨queue, hq, hsome⟩

theorem Runnable.mem_keys (h : s.Runnable limits S) : S ∈ s.queues.keys := by
  obtain ⟨queue, hq, -⟩ := h
  exact (s.queues.mem_keys_iff S).mpr (by simp [hq])

/-- With fewer waiters, and no fewer busy contexts, no more scopes may run. -/
theorem Runnable.of_shrinks (hbusy : t.busyOf S = s.busyOf S)
    (hqueues : ∀ queue, t.queues.get? S = some queue →
      ∃ before, s.queues.get? S = some before ∧ queue.Sublist before)
    (h : t.Runnable limits S) : s.Runnable limits S := by
  obtain ⟨queue, hq, hsome⟩ := h
  obtain ⟨before, hbefore, hsub⟩ := hqueues queue hq
  obtain ⟨w, hw⟩ := Option.isSome_iff_exists.mp hsome
  obtain ⟨hroom, hfound⟩ := eligible_eq_some.mp hw
  refine ⟨before, hbefore, ?_⟩
  obtain ⟨w', hw'⟩ : ∃ w', before.find? (fun item => item.context ∉ s.busyOf S) = some w' := by
    rw [← Option.isSome_iff_exists, List.find?_isSome]
    rw [hbusy] at hfound
    have hfree : w.context ∉ s.busyOf S := by simpa using List.find?_some hfound
    exact ⟨w, hsub.mem (List.mem_of_find?_eq_some hfound), by simpa using hfree⟩
  rw [eligible_eq_some.mpr ⟨hbusy ▸ hroom, hw'⟩]
  rfl

/-! ## One admission -/

structure Invariant (limits : SchedulerLimits) (s : CallerExecutionScheduler) : Prop where
  leases : s.LeaseInvariant limits
  queues : s.QueueInvariant

/-- What the loop does in one round. -/
theorem Invariant.admitWaiter (inv : s.Invariant limits) (hglobal : s.running < limits.global)
    {scope : String} {w : SchedulerWaiter} (h : s.next limits = some (scope, w)) :
    (s.admitWaiter scope w).Invariant limits ∧
      ∃ queue, s.queues.get? scope = some queue ∧ w ∈ queue := by
  obtain ⟨before, queue, after, hentries, heligible, -⟩ := next_eq_some h
  have hq : s.queues.get? scope = some queue :=
    (s.queues.mem_entries_iff scope queue).mp (by simp [hentries])
  obtain ⟨hroom, hfound⟩ := eligible_eq_some.mp heligible
  have hw := List.mem_of_find?_eq_some hfound
  have hfree : w.context ∉ s.busyOf scope := by simpa using List.find?_some hfound
  refine ⟨⟨?_, ?_⟩, queue, hq, hw⟩
  · refine inv.leases.admitWaiter (admitWaiter_admits s scope w) hglobal hroom hfree fun hactive => ?_
    refine inv.queues.unsettled scope w ⟨queue, hq, hw⟩ (List.mem_append_left _ ?_)
    exact (inv.queues.active.map Lease.ref).mem hactive
  · refine inv.queues.admitWaiter hq hw fun w' hw' hcontext hne => ?_
    -- A waiter of the same context that came earlier would have been found first.
    obtain ⟨-, earlier, later, hqueue, hnone⟩ := List.find?_eq_some_iff_append.mp hfound
    have harrival := inv.queues.arrival scope queue hq
    rw [hqueue] at harrival hw'
    obtain ⟨-, hlater, -⟩ := List.pairwise_append.mp harrival
    rcases List.mem_append.mp hw' with hearlier | hlater'
    · have hbusy := hnone w' hearlier
      simp [hcontext, hfree] at hbusy
    · rcases List.mem_cons.mp hlater' with rfl | hlater'
      · exact absurd rfl hne
      · exact (List.pairwise_cons.mp hlater).1 w' hlater'

/-! ## The loop -/

structure Drains (s t : CallerExecutionScheduler) : Prop where
  count : t = s ∨ t.waiterCount < s.waiterCount
  queues : ∀ scope queue, t.queues.get? scope = some queue →
    ∃ before, s.queues.get? scope = some before ∧ queue.Sublist before
  nextRef : t.nextRef = s.nextRef
  admitted : s.admitted <+: t.admitted

theorem Drains.refl (s : CallerExecutionScheduler) : Drains s s :=
  ⟨.inl rfl, fun _ queue h => ⟨queue, h, List.Sublist.refl _⟩, rfl, List.prefix_refl _⟩

theorem Drains.trans {u : CallerExecutionScheduler} (h : Drains s t) (h' : Drains t u) :
    Drains s u where
  count := by
    obtain rfl | hlt := h.count <;> obtain rfl | hlt' := h'.count
    · exact .inl rfl
    · exact .inr hlt'
    · exact .inr hlt
    · exact .inr (lt_trans hlt' hlt)
  queues scope queue hq := by
    obtain ⟨between, hbetween, hsub⟩ := h'.queues scope queue hq
    obtain ⟨before, hbefore, hsub'⟩ := h.queues scope between hbetween
    exact ⟨before, hbefore, hsub.trans hsub'⟩
  nextRef := h'.nextRef.trans h.nextRef
  admitted := h.admitted.trans h'.admitted

theorem drains_admitWaiter (inv : s.QueueInvariant) {scope : String} {w : SchedulerWaiter}
    {queue : List SchedulerWaiter}
    (hq : s.queues.get? scope = some queue) (hw : w ∈ queue) : Drains s (s.admitWaiter scope w) := by
  have hleft := dequeues_admitWaiter inv hq hw
  refine ⟨.inr ?_, fun scope' queue' hq' => (hleft.queues scope' queue' hq').2, hleft.nextRef, ?_⟩
  · have hcount := hleft.count
    omega
  · rw [(s.admitted_admitWaiter hq hw).1]
    exact List.prefix_append _ _

theorem drainLoop_spec (rounds : ℕ) (inv : s.Invariant limits) :
    (drainLoop limits rounds s).Invariant limits ∧ Drains s (drainLoop limits rounds s) := by
  induction rounds generalizing s with
  | zero => exact ⟨inv, .refl s⟩
  | succ rounds ih =>
      unfold drainLoop
      split
      · rename_i hglobal
        split
        · rename_i scope w hnext
          obtain ⟨hadmitted, queue, hq, hw⟩ := inv.admitWaiter hglobal hnext
          obtain ⟨hdone, hdrains⟩ := ih hadmitted
          exact ⟨hdone, (drains_admitWaiter inv.queues hq hw).trans hdrains⟩
        · exact ⟨inv, .refl s⟩
      · exact ⟨inv, .refl s⟩

/-- Nobody who may run is left while the scheduler has room. -/
def Idle (limits : SchedulerLimits) (s : CallerExecutionScheduler) : Prop :=
  s.running < limits.global → s.next limits = none

theorem next_eq_none_of_no_waiter (inv : s.QueueInvariant) (h : s.waiterCount = 0) :
    s.next limits = none := by
  refine next_eq_none.mpr ?_
  rintro scope ⟨queue, hq, -⟩
  have herase := InsertionMap.sum_values_erase List.length s.queues scope
  simp only [hq, Option.map_some, Option.getD_some] at herase
  have hlength : queue.length = 0 := by
    unfold waiterCount at h
    omega
  exact inv.nonempty scope queue hq (List.length_eq_zero_iff.mp hlength)

theorem drainLoop_idle (rounds : ℕ) (inv : s.Invariant limits) (h : s.waiterCount ≤ rounds) :
    (drainLoop limits rounds s).Idle limits := by
  induction rounds generalizing s with
  | zero => exact fun _ => next_eq_none_of_no_waiter inv.queues (Nat.le_zero.mp h)
  | succ rounds ih =>
      unfold drainLoop
      split
      · rename_i hglobal
        split
        · rename_i scope w hnext
          obtain ⟨hadmitted, queue, hq, hw⟩ := inv.admitWaiter hglobal hnext
          have hcount := (dequeues_admitWaiter inv.queues hq hw).count
          exact ih hadmitted (by omega)
        · rename_i hnone
          exact fun _ => hnone
      · rename_i hfull
        exact fun hroom => absurd hroom hfull

theorem drain_spec (inv : s.Invariant limits) :
    (s.drain limits).Invariant limits ∧ Drains s (s.drain limits) ∧ (s.drain limits).Idle limits := by
  obtain ⟨hdone, hdrains⟩ := drainLoop_spec s.waiterCount inv
  exact ⟨hdone, hdrains, drainLoop_idle s.waiterCount inv le_rfl⟩

/-! ## Taking turns -/

/-- The scopes of `admitted` have each had one turn, and now come after `S`. -/
structure Passed (S : String) (admitted : List String) (s : CallerExecutionScheduler) : Prop where
  once : admitted.Nodup
  present : S ∈ s.queues.keys
  behind : ∀ scope ∈ admitted, ¬ [scope, S].Sublist s.queues.keys

theorem Passed.of_keys {admitted : List String} (h : Passed S admitted s)
    (hpresent : S ∈ t.queues.keys)
    (hkeys : ∀ scope, [scope, S].Sublist t.queues.keys → [scope, S].Sublist s.queues.keys) :
    Passed S admitted t :=
  ⟨h.once, hpresent, fun scope hscope hsub => h.behind scope hscope (hkeys scope hsub)⟩

theorem pair_sublist_of_append_singleton {a b c : String} {keys : List String} (hne : b ≠ c)
    (h : [a, b].Sublist (keys ++ [c])) : [a, b].Sublist keys := by
  obtain ⟨front, back, heq, hfront, hback⟩ := List.sublist_append_iff.mp h
  cases back with
  | nil => simpa [heq] using hfront
  | cons last rest =>
      obtain rfl : last = c := by simpa using hback.mem List.mem_cons_self
      have hrest : rest = [] := by
        have hlength := hback.length_le
        simpa using hlength
      have hlast := congrArg List.getLast? heq
      simp only [hrest, List.getLast?_append, List.getLast?_singleton, Option.some_or] at hlast
      exact absurd (by simpa using hlast) hne

theorem keys_removeWaiter (s : CallerExecutionScheduler) {scope : String} (ref : ℕ)
    {queue : List SchedulerWaiter} (hq : s.queues.get? scope = some queue) :
    (s.removeWaiter scope ref queue).queues.keys = s.queues.keys ∨
      (s.removeWaiter scope ref queue).queues.keys = s.queues.keys.filter (· ≠ scope) := by
  unfold removeWaiter
  simp only
  split
  · exact .inr (InsertionMap.keys_erase _ _)
  · exact .inl (InsertionMap.keys_set_of_isSome _ _ (by simp [hq]))

/-- An admitted scope is at the end of the line, or has nobody left. -/
theorem keys_admitWaiter (s : CallerExecutionScheduler) {scope : String} {w : SchedulerWaiter}
    {queue : List SchedulerWaiter} (hq : s.queues.get? scope = some queue) (hw : w ∈ queue) :
    (s.admitWaiter scope w).queues.keys = s.queues.keys.filter (· ≠ scope) ∨
      (s.admitWaiter scope w).queues.keys = s.queues.keys.filter (· ≠ scope) ++ [scope] := by
  rw [s.queues_admitWaiter hq hw]
  have hkeys := s.keys_removeWaiter w.ref hq
  have hfilter : (s.removeWaiter scope w.ref queue).queues.keys.filter (· ≠ scope) =
      s.queues.keys.filter (· ≠ scope) := by
    obtain heq | heq := hkeys <;> rw [heq]
    rw [List.filter_filter]
    simp
  split
  · refine .inr ?_
    rw [InsertionMap.keys_set_of_none _ _ (InsertionMap.get?_erase_self _ _),
      InsertionMap.keys_erase, hfilter]
  · rename_i hnone
    refine .inl ?_
    rw [← hfilter, List.filter_eq_self.mpr]
    intro key hkey
    have hne : key ≠ scope := by
      rintro rfl
      have hsome := ((InsertionMap.mem_keys_iff _ _).mp hkey)
      simp [hnone] at hsome
    simpa using hne

/-- While `S` may run, another scope has its turn only if it comes before `S`. -/
theorem Passed.admitWaiter {admitted : List String} (h : Passed S admitted s)
    (hrunnable : s.Runnable limits S) {scope : String} {w : SchedulerWaiter}
    (hnext : s.next limits = some (scope, w)) (hne : scope ≠ S) :
    Passed S (admitted ++ [scope]) (s.admitWaiter scope w) := by
  obtain ⟨before, queue, after, hentries, heligible, hnone⟩ := next_eq_some hnext
  have hq : s.queues.get? scope = some queue :=
    (s.queues.mem_entries_iff scope queue).mp (by simp [hentries])
  have hw := List.mem_of_find?_eq_some (eligible_eq_some.mp heligible).2
  obtain ⟨own, hown, hsome⟩ := hrunnable
  have hmem : (S, own) ∈ after := by
    have hentry := (s.queues.mem_entries_iff S own).mpr hown
    rw [hentries, List.mem_append, List.mem_cons] at hentry
    rcases hentry with hbefore | heq | hafter
    · rw [hnone _ hbefore] at hsome
      simp at hsome
    · exact absurd (Prod.mk.inj heq).1.symm hne
    · exact hafter
  have hahead : [scope, S].Sublist s.queues.keys := by
    have hafter : [S].Sublist (after.map Prod.fst) :=
      List.singleton_sublist.mpr (List.mem_map_of_mem hmem)
    rw [InsertionMap.keys, hentries, List.map_append, List.map_cons]
    exact (hafter.cons_cons scope).trans (List.sublist_append_right _ _)
  have hkeys : (s.admitWaiter scope w).queues.keys.Sublist
      (s.queues.keys.filter (· ≠ scope) ++ [scope]) := by
    obtain heq | heq := s.keys_admitWaiter hq hw <;> rw [heq]
    exact List.sublist_append_left _ _
  have hback {other : String} (hsub : [other, S].Sublist (s.admitWaiter scope w).queues.keys) :
      [other, S].Sublist (s.queues.keys.filter (· ≠ scope)) :=
    pair_sublist_of_append_singleton (Ne.symm hne) (hsub.trans hkeys)
  refine ⟨?_, ?_, ?_⟩
  · refine h.once.append (List.nodup_singleton _) ?_
    simpa using fun hin => h.behind scope hin hahead
  · have hpresent : S ∈ s.queues.keys.filter (· ≠ scope) :=
      List.mem_filter.mpr ⟨h.present, by simpa using Ne.symm hne⟩
    obtain heq | heq := s.keys_admitWaiter hq hw <;> rw [heq]
    · exact hpresent
    · exact List.mem_append_left _ hpresent
  · intro other hother hsub
    rcases List.mem_append.mp hother with hold | hnew
    · exact h.behind other hold ((hback hsub).trans List.filter_sublist)
    · have hin := (hback hsub).mem List.mem_cons_self
      rw [List.mem_singleton.mp hnew] at hin
      simp at hin

/-- An admission of another scope does not concern `S`. -/
theorem Runnable.of_admitWaiter (inv : s.Invariant limits) {scope : String} {w : SchedulerWaiter}
    {queue : List SchedulerWaiter} (hq : s.queues.get? scope = some queue) (hw : w ∈ queue)
    (hne : scope ≠ S) (h : (s.admitWaiter scope w).Runnable limits S) : s.Runnable limits S := by
  have hleft := dequeues_admitWaiter inv.queues hq hw
  refine Runnable.of_shrinks ?_ (fun queue' hq' => (hleft.queues S queue' hq').2) h
  rw [(admitWaiter_admits s scope w).busyOf inv.leases, if_neg (Ne.symm hne)]

theorem drainLoop_passed (rounds : ℕ) (inv : s.Invariant limits) {new : List Lease}
    (hnew : (drainLoop limits rounds s).admitted = s.admitted ++ new)
    (hother : ∀ lease ∈ new, lease.scope ≠ S)
    (h : (drainLoop limits rounds s).Runnable limits S) :
    s.Runnable limits S ∧ ∀ admitted, Passed S admitted s →
      Passed S (admitted ++ new.map Lease.scope) (drainLoop limits rounds s) := by
  have hsame (heq : drainLoop limits rounds s = s) : s.Runnable limits S ∧
      ∀ admitted, Passed S admitted s →
        Passed S (admitted ++ new.map Lease.scope) (drainLoop limits rounds s) := by
    rw [heq] at hnew h ⊢
    obtain rfl : new = [] := by simpa using hnew
    exact ⟨h, fun admitted hpassed => by simpa using hpassed⟩
  induction rounds generalizing s new with
  | zero => exact hsame rfl
  | succ rounds ih =>
      by_cases hglobal : s.running < limits.global
      · cases hnext : s.next limits with
        | none => exact hsame (by simp [drainLoop, hnext])
        | some found =>
            obtain ⟨scope, w⟩ := found
            have hloop : drainLoop limits (rounds + 1) s =
                drainLoop limits rounds (s.admitWaiter scope w) := by
              simp [drainLoop, hglobal, hnext]
            rw [hloop] at hnew h ⊢
            obtain ⟨hadmitted, queue, hq, hw⟩ := inv.admitWaiter hglobal hnext
            obtain ⟨rest, hrest⟩ := (drainLoop_spec rounds hadmitted).2.admitted
            rw [(s.admitted_admitWaiter hq hw).1] at hrest
            set lease : Lease := ⟨w.ref, scope, w.context, s.setFor scope⟩ with hlease
            obtain rfl : new = lease :: rest := by
              have heq := hrest.trans hnew
              simpa [List.append_assoc] using heq.symm
            have hne : scope ≠ S := hother lease List.mem_cons_self
            have hnew' : (drainLoop limits rounds (s.admitWaiter scope w)).admitted =
                (s.admitWaiter scope w).admitted ++ rest := by
              rw [← hrest, (s.admitted_admitWaiter hq hw).1]
            obtain ⟨hrunnable, hpassed⟩ := ih hadmitted hnew'
              (fun other hin => hother other (List.mem_cons_of_mem _ hin)) h fun heq => by
                rw [heq] at hnew' h ⊢
                obtain rfl : rest = [] := by simpa using hnew'
                exact ⟨h, fun admitted hpassed => by simpa using hpassed⟩
            have hrunnable' := hrunnable.of_admitWaiter inv hq hw hne
            refine ⟨hrunnable', fun admitted hs => ?_⟩
            have hturn := hpassed _ (hs.admitWaiter hrunnable' hnext hne)
            simpa [List.append_assoc] using hturn
      · exact hsame (by simp [drainLoop, hglobal])

end CallerExecutionScheduler

end VicoopBridge
