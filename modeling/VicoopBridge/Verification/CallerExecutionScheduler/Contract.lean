import VicoopBridge.Verification.CallerExecutionScheduler.Admission

/-! # What the scheduler promises

The limits, the order and the turns of the scopes, after any sequence of operations. -/

namespace VicoopBridge

open Library

inductive SchedulerAction where
  | acquire (scope context : String) (aborted : Bool)
  | abort (scope : String) (ref : ℕ)
  | release (ref : ℕ)

namespace CallerExecutionScheduler

def apply (limits : SchedulerLimits) (s : CallerExecutionScheduler) :
    SchedulerAction → CallerExecutionScheduler
  | .acquire scope context aborted => s.acquire limits scope context aborted
  | .abort scope ref => s.abort limits scope ref
  | .release ref => s.release limits ref

end CallerExecutionScheduler

def schedulerSystem (limits : SchedulerLimits) : System CallerExecutionScheduler SchedulerAction :=
  .ofApply (fun s => s = {}) (fun _ _ => True) (CallerExecutionScheduler.apply limits)

namespace CallerExecutionScheduler

variable {limits : SchedulerLimits} {s t : CallerExecutionScheduler} {S : String}

/-! ## Bounds -/

structure Bounded (limits : SchedulerLimits) (s : CallerExecutionScheduler) : Prop where
  total : s.waiterCount ≤ limits.queueLimit
  perCaller : ∀ scope queue, s.queues.get? scope = some queue →
    queue.length ≤ limits.queuePerCaller

theorem Bounded.drains (h : s.Bounded limits) (hdrains : Drains s t) : t.Bounded limits where
  total := by
    have htotal := h.total
    obtain rfl | hlt := hdrains.count
    · exact htotal
    · omega
  perCaller scope queue hq := by
    obtain ⟨before, hbefore, hsub⟩ := hdrains.queues scope queue hq
    exact le_trans hsub.length_le (h.perCaller scope before hbefore)

/-- Rejecting a waiter only takes it out of its queue. -/
theorem drains_expel (inv : s.QueueInvariant) {scope : String} {w : SchedulerWaiter}
    {queue : List SchedulerWaiter}
    (hq : s.queues.get? scope = some queue) (hw : w ∈ queue) (rejection : SchedulerRejection) :
    Drains s ((s.removeWaiter scope w.ref queue).reject w.ref rejection) := by
  have hleft := dequeues_removeWaiter inv hq hw
  refine ⟨.inr ?_, fun scope' queue' hq' => (hleft.queues scope' queue' hq').2, rfl,
    List.prefix_refl _⟩
  change (s.removeWaiter scope w.ref queue).waiterCount < _
  have hcount := hleft.count
  omega

theorem Runnable.of_expel (inv : s.QueueInvariant) {scope : String} {w : SchedulerWaiter}
    {queue : List SchedulerWaiter} (hq : s.queues.get? scope = some queue) (hw : w ∈ queue)
    {rejection : SchedulerRejection}
    (h : ((s.removeWaiter scope w.ref queue).reject w.ref rejection).Runnable limits S) :
    s.Runnable limits S := by
  have hexpelled := drains_expel inv hq hw rejection
  refine Runnable.of_shrinks (s := s) ?_ (hexpelled.queues S) h
  rfl

theorem Invariant.expel (inv : s.Invariant limits) {scope : String} {w : SchedulerWaiter}
    {queue : List SchedulerWaiter} (hq : s.queues.get? scope = some queue) (hw : w ∈ queue)
    (rejection : SchedulerRejection) :
    ((s.removeWaiter scope w.ref queue).reject w.ref rejection).Invariant limits :=
  ⟨inv.leases.congr rfl rfl rfl rfl rfl, inv.queues.expel hq hw rejection⟩

theorem Invariant.push (inv : s.Invariant limits) (scope context : String) :
    (s.push scope context).Invariant limits :=
  ⟨inv.leases.congr rfl rfl rfl rfl rfl, inv.queues.push scope context⟩

theorem Invariant.releaseLease (inv : s.Invariant limits) {lease : Lease}
    (h : lease ∈ s.active) : (s.releaseLease lease).Invariant limits :=
  ⟨inv.leases.releaseLease h, inv.queues.congr rfl rfl rfl rfl rfl List.filter_sublist⟩

theorem length_le_of_sublist_append {α : Type*} {queue before : List α} {new : α}
    (h : queue.Sublist (before ++ [new])) (hnew : new ∉ queue) : queue.length ≤ before.length := by
  obtain ⟨front, back, rfl, hfront, hback⟩ := List.sublist_append_iff.mp h
  cases back with
  | nil => simpa using hfront.length_le
  | cons last rest =>
      obtain rfl : last = new := by simpa using hback.mem List.mem_cons_self
      simp at hnew

/-! ## Acquiring -/

/-- How an acquisition comes out. -/
inductive Acquires (limits : SchedulerLimits) (s : CallerExecutionScheduler)
    (scope context : String) : CallerExecutionScheduler → Prop where
  | aborted : Acquires limits s scope context
      ({ s with nextRef := s.nextRef + 1 }.reject s.nextRef .executionAborted)
  | kept (hfits : ∀ queue w, ((s.push scope context).drain limits).queues.get? scope = some queue →
      w ∈ queue → w.ref = s.nextRef →
        ((s.push scope context).drain limits).queued ≤ limits.queueLimit ∧
          queue.length ≤ limits.queuePerCaller) :
      Acquires limits s scope context ((s.push scope context).drain limits)
  | full (queue w) (hq : ((s.push scope context).drain limits).queues.get? scope = some queue)
      (hw : w ∈ queue) (href : w.ref = s.nextRef) : Acquires limits s scope context
        ((((s.push scope context).drain limits).removeWaiter scope w.ref queue).reject w.ref
          .callerQueueFull)

theorem acquire_acquires (limits : SchedulerLimits) (s : CallerExecutionScheduler)
    (scope context : String) (aborted : Bool) :
    Acquires limits s scope context (s.acquire limits scope context aborted) := by
  unfold acquire
  cases aborted with
  | true => exact .aborted
  | false =>
      simp only [Bool.false_eq_true, if_false]
      split
      · rename_i hnone
        refine .kept fun queue w hq => ?_
        simp [hnone] at hq
      · rename_i queue hq
        split
        · rename_i hfull
          obtain ⟨w, hw, href⟩ := List.any_eq_true.mp hfull.1
          have href : w.ref = s.nextRef := by simpa using href
          rw [← href]
          exact .full queue w hq hw href
        · rename_i hfits
          refine .kept fun queue' w hq' hw href => ?_
          obtain rfl := Option.some.inj (hq.symm.trans hq')
          have hany : queue.any (fun item => decide (item.ref = s.nextRef)) = true :=
            List.any_eq_true.mpr ⟨w, hw, by simpa using href⟩
          simpa [hany, not_or] using hfits

theorem waiterCount_push (inv : s.QueueInvariant) (scope context : String) :
    (s.push scope context).waiterCount = s.waiterCount + 1 := by
  have hpushed := (inv.push scope context).queued
  change s.queued + 1 = _ at hpushed
  rw [inv.queued] at hpushed
  exact_mod_cast hpushed.symm

/-- A queue without the new waiter is no longer than before. -/
theorem length_of_drains_push {context : String} (h : Drains (s.push S context) t) (hbounded : s.Bounded limits)
    {scope : String} {queue : List SchedulerWaiter} (hq : t.queues.get? scope = some queue)
    (hnew : ∀ w ∈ queue, w.ref ≠ s.nextRef) : queue.length ≤ limits.queuePerCaller := by
  obtain ⟨before, hbefore, hsub⟩ := h.queues scope queue hq
  rw [get?_push] at hbefore
  split at hbefore
  · rename_i heq
    obtain rfl := Option.some.inj hbefore
    have hlength := length_le_of_sublist_append hsub fun hin => hnew _ hin rfl
    subst heq
    cases hold : s.queues.get? S with
    | none =>
        rw [hold] at hlength
        exact le_trans hlength (Nat.zero_le _)
    | some old =>
        rw [hold] at hlength
        exact le_trans hlength (hbounded.perCaller S old hold)
  · exact le_trans hsub.length_le (hbounded.perCaller scope before hbefore)

theorem Acquires.bounded {scope context : String} (h : Acquires limits s scope context t)
    (inv : s.Invariant limits) (hbounded : s.Bounded limits) : t.Bounded limits := by
  have hpush := inv.push scope context
  obtain ⟨hdone, hdrains, -⟩ := drain_spec hpush
  have hcount := waiterCount_push inv.queues scope context
  have htotal := hbounded.total
  cases h with
  | aborted => exact ⟨hbounded.total, hbounded.perCaller⟩
  | kept hfits =>
      have hwaits (scope' : String) (queue : List SchedulerWaiter)
          (hq : ((s.push scope context).drain limits).queues.get? scope' = some queue)
          (w : SchedulerWaiter) (hw : w ∈ queue) (href : w.ref = s.nextRef) : scope' = scope := by
        obtain ⟨before, hbefore, hsub⟩ := hdrains.queues scope' queue hq
        exact hpush.queues.elsewhere scope' scope w ⟨s.nextRef, context⟩
          ⟨before, hbefore, hsub.mem hw⟩ (waiting_push.mpr (.inr ⟨rfl, rfl⟩)) href
      refine ⟨?_, fun scope' queue hq => ?_⟩
      · obtain hsame | hlt := hdrains.count
        · obtain ⟨queue, hq, hw⟩ : (s.push scope context).Waiting scope ⟨s.nextRef, context⟩ :=
            waiting_push.mpr (.inr ⟨rfl, rfl⟩)
          rw [← hsame] at hq
          have hqueued := (hfits queue _ hq hw rfl).1
          rw [hdone.queues.queued] at hqueued
          exact_mod_cast hqueued
        · omega
      · by_cases hnew : ∃ w ∈ queue, w.ref = s.nextRef
        · obtain ⟨w, hw, href⟩ := hnew
          obtain rfl := hwaits scope' queue hq w hw href
          exact (hfits queue w hq hw href).2
        · push Not at hnew
          exact length_of_drains_push hdrains hbounded hq hnew
  | full queue w hq hw href =>
      have hleft := dequeues_removeWaiter hdone.queues hq hw
      have hexpelled := drains_expel hdone.queues hq hw .callerQueueFull
      refine ⟨?_, fun scope' queue' hq' => ?_⟩
      · change (((s.push scope context).drain limits).removeWaiter scope w.ref queue).waiterCount ≤ _
        have hless := hleft.count
        obtain hsame | hlt := hdrains.count
        · rw [hsame] at hless ⊢
          omega
        · omega
      · refine length_of_drains_push (hdrains.trans hexpelled) hbounded hq' fun w' hw' href' => ?_
        have hgone := (hleft.waiting scope' w').mp ⟨queue', hq', hw'⟩
        refine hgone.2 ⟨?_, href'.trans href.symm⟩
        exact hdone.queues.elsewhere scope' scope w' w hgone.1 hleft.here (href'.trans href.symm)

/-! ## Steps -/

structure Steady (limits : SchedulerLimits) (s : CallerExecutionScheduler) : Prop where
  inv : s.Invariant limits
  bounded : s.Bounded limits
  idle : s.Idle limits

theorem Idle.expel (h : s.Idle limits) (inv : s.QueueInvariant) {scope : String} {w : SchedulerWaiter}
    {queue : List SchedulerWaiter} (hq : s.queues.get? scope = some queue) (hw : w ∈ queue)
    (rejection : SchedulerRejection) :
    ((s.removeWaiter scope w.ref queue).reject w.ref rejection).Idle limits := by
  intro hroom
  refine next_eq_none.mpr fun scope' hrunnable => next_eq_none.mp (h hroom) scope' ?_
  exact hrunnable.of_expel inv hq hw

theorem Steady.acquire (h : s.Steady limits) (scope context : String) (aborted : Bool) :
    (s.acquire limits scope context aborted).Steady limits := by
  have hacquires := acquire_acquires limits s scope context aborted
  have hbounded := hacquires.bounded h.inv h.bounded
  obtain ⟨hdone, -, hidle⟩ := drain_spec (h.inv.push scope context)
  revert hbounded
  generalize s.acquire limits scope context aborted = t at hacquires
  intro hbounded
  cases hacquires with
  | aborted =>
      refine ⟨⟨h.inv.leases.congr rfl rfl rfl rfl rfl, h.inv.queues.refuse _⟩, hbounded, ?_⟩
      exact fun hroom => h.idle hroom
  | kept => exact ⟨hdone, hbounded, hidle⟩
  | full queue w hq hw =>
      exact ⟨hdone.expel hq hw _, hbounded, hidle.expel hdone.queues hq hw _⟩

theorem Steady.abort (h : s.Steady limits) (scope : String) (ref : ℕ) :
    (s.abort limits scope ref).Steady limits := by
  unfold CallerExecutionScheduler.abort
  obtain hgone | ⟨queue, w, hq, hw, rfl, hremoved⟩ := s.remove_eq scope ref
  · rw [hgone]
    exact h
  · rw [hremoved]
    obtain ⟨hdone, hdrains, hidle⟩ := drain_spec (h.inv.expel hq hw .executionAborted)
    exact ⟨hdone, (h.bounded.drains (drains_expel h.inv.queues hq hw _)).drains hdrains, hidle⟩

theorem Steady.release (h : s.Steady limits) (ref : ℕ) : (s.release limits ref).Steady limits := by
  obtain hnone | ⟨lease, hlease, -, hrelease⟩ := release_eq limits s ref
  · rw [hnone]
    exact h
  · rw [hrelease]
    obtain ⟨hdone, hdrains, hidle⟩ := drain_spec (h.inv.releaseLease hlease)
    have hbounded : (s.releaseLease lease).Bounded limits := ⟨h.bounded.total, h.bounded.perCaller⟩
    exact ⟨hdone, hbounded.drains hdrains, hidle⟩

theorem Steady.step {a : SchedulerAction} (h : s.Steady limits)
    (hstep : (schedulerSystem limits).step s a t) : t.Steady limits := by
  obtain ⟨-, rfl⟩ := hstep
  cases a with
  | acquire scope context aborted => exact h.acquire scope context aborted
  | abort scope ref => exact h.abort scope ref
  | release ref => exact h.release ref

theorem steady_init (limits : SchedulerLimits) : Steady limits {} := by
  refine ⟨⟨?_, ?_⟩, ?_, ?_⟩
  · constructor <;> simp [busyOf, contextsOf]
  · constructor <;> simp [Waiting, waiterCount, CallerExecutionScheduler.settled]
  · constructor <;> simp [waiterCount]
  · exact fun _ => rfl

theorem steady_of_reachable (h : (schedulerSystem limits).Reachable s) : s.Steady limits := by
  refine h.invariant ?_ fun _ _ _ hs hstep => hs.step hstep
  rintro _ rfl
  exact steady_init limits

/-! ## Turns over a run -/

theorem drain_passed (inv : s.Invariant limits) {new : List Lease}
    (hnew : (s.drain limits).admitted = s.admitted ++ new)
    (hother : ∀ lease ∈ new, lease.scope ≠ S) (h : (s.drain limits).Runnable limits S) :
    s.Runnable limits S ∧ ∀ admitted, Passed S admitted s →
      Passed S (admitted ++ new.map Lease.scope) (s.drain limits) :=
  drainLoop_passed s.waiterCount inv hnew hother h

theorem keys_push (s : CallerExecutionScheduler) (scope context : String) :
    (s.push scope context).queues.keys = s.queues.keys ∨
      (s.push scope context).queues.keys = s.queues.keys ++ [scope] ∧ scope ∉ s.queues.keys := by
  cases hq : s.queues.get? scope with
  | none =>
      refine .inr ⟨InsertionMap.keys_set_of_none _ _ hq, fun hin => ?_⟩
      have hsome := (InsertionMap.mem_keys_iff _ _).mp hin
      simp [hq] at hsome
  | some queue => exact .inl (InsertionMap.keys_set_of_isSome _ _ (by simp [hq]))

theorem Passed.push {admitted : List String} (h : Passed S admitted s) (scope context : String) :
    Passed S admitted (s.push scope context) := by
  obtain hkeys | ⟨hkeys, hnew⟩ := s.keys_push scope context
  · exact h.of_keys (hkeys ▸ h.present) fun other hsub => hkeys ▸ hsub
  · refine h.of_keys (hkeys ▸ List.mem_append_left _ h.present) fun other hsub => ?_
    rw [hkeys] at hsub
    refine pair_sublist_of_append_singleton ?_ hsub
    rintro rfl
    exact hnew h.present

theorem Passed.expel {admitted : List String} (h : Passed S admitted s) {scope : String} {ref : ℕ}
    {queue : List SchedulerWaiter} (hq : s.queues.get? scope = some queue)
    {rejection : SchedulerRejection}
    (hrunnable : ((s.removeWaiter scope ref queue).reject ref rejection).Runnable limits S) :
    Passed S admitted ((s.removeWaiter scope ref queue).reject ref rejection) := by
  refine h.of_keys hrunnable.mem_keys fun other hsub => ?_
  change [other, S].Sublist (s.removeWaiter scope ref queue).queues.keys at hsub
  obtain hkeys | hkeys := s.keys_removeWaiter ref hq
  · exact hkeys ▸ hsub
  · rw [hkeys] at hsub
    exact hsub.trans List.filter_sublist

theorem Passed.step {a : SchedulerAction} {admitted : List String} (hs : s.Steady limits)
    (h : Passed S admitted s) (hstep : (schedulerSystem limits).step s a t) {new : List Lease}
    (hnew : t.admitted = s.admitted ++ new) (hother : ∀ lease ∈ new, lease.scope ≠ S)
    (hrunnable : t.Runnable limits S) : Passed S (admitted ++ new.map Lease.scope) t := by
  obtain ⟨-, rfl⟩ := hstep
  cases a with
  | acquire scope context aborted =>
      have hacquires := acquire_acquires limits s scope context aborted
      have hinv := hs.inv.push scope context
      obtain ⟨hdone, -, -⟩ := drain_spec hinv
      simp only [apply] at hnew hrunnable ⊢
      generalize s.acquire limits scope context aborted = t at hacquires hnew hrunnable
      cases hacquires with
      | aborted =>
          obtain rfl : new = [] := by simpa [reject] using hnew
          simpa using h.of_keys (t := { s with nextRef := s.nextRef + 1 }.reject _ _) h.present
            fun _ hsub => hsub
      | kept => exact (drain_passed hinv hnew hother hrunnable).2 _ (h.push scope context)
      | full queue w hq hw =>
          have hbefore := hrunnable.of_expel hdone.queues hq hw
          exact ((drain_passed hinv hnew hother hbefore).2 _ (h.push scope context)).expel hq
            hrunnable
  | abort scope ref =>
      simp only [apply, CallerExecutionScheduler.abort] at hnew hrunnable ⊢
      obtain hgone | ⟨queue, w, hq, hw, rfl, hremoved⟩ := s.remove_eq scope ref
      · rw [hgone] at hnew hrunnable ⊢
        obtain rfl : new = [] := by simpa using hnew
        simpa using h
      · rw [hremoved] at hnew hrunnable ⊢
        obtain ⟨hbefore, hpassed⟩ :=
          drain_passed (hs.inv.expel hq hw .executionAborted) hnew hother hrunnable
        exact hpassed _ (h.expel hq hbefore)
  | release ref =>
      simp only [apply] at hnew hrunnable ⊢
      obtain hnone | ⟨lease, hlease, -, hrelease⟩ := release_eq limits s ref
      · rw [hnone] at hnew hrunnable ⊢
        obtain rfl : new = [] := by simpa using hnew
        simpa using h
      · rw [hrelease] at hnew hrunnable ⊢
        have hsame : Passed S admitted (s.releaseLease lease) :=
          h.of_keys h.present fun _ hsub => hsub
        exact (drain_passed (hs.inv.releaseLease hlease) hnew hother hrunnable).2 _ hsame

theorem admitted_prefix_of_step {a : SchedulerAction} (hs : s.Steady limits)
    (hstep : (schedulerSystem limits).step s a t) : s.admitted <+: t.admitted := by
  obtain ⟨-, rfl⟩ := hstep
  cases a with
  | acquire scope context aborted =>
      have hacquires := acquire_acquires limits s scope context aborted
      obtain ⟨-, hdrains, -⟩ := drain_spec (hs.inv.push scope context)
      simp only [apply]
      generalize s.acquire limits scope context aborted = t at hacquires
      cases hacquires with
      | aborted => exact List.prefix_refl _
      | kept => exact hdrains.admitted
      | full => exact hdrains.admitted
  | abort scope ref =>
      simp only [apply, CallerExecutionScheduler.abort]
      obtain hgone | ⟨queue, w, hq, hw, rfl, hremoved⟩ := s.remove_eq scope ref
      · simp [hgone]
      · rw [hremoved]
        exact (drain_spec (hs.inv.expel hq hw .executionAborted)).2.1.admitted
  | release ref =>
      simp only [apply]
      obtain hnone | ⟨lease, hlease, -, hrelease⟩ := release_eq limits s ref
      · simp [hnone]
      · rw [hrelease]
        exact (drain_spec (hs.inv.releaseLease hlease)).2.1.admitted

theorem admitted_prefix_of_run {labels : List SchedulerAction} (hs : s.Steady limits)
    (hrun : (schedulerSystem limits).Run s labels t) : s.admitted <+: t.admitted := by
  induction hrun with
  | nil => exact List.prefix_refl _
  | snoc hbefore hstep ih =>
      have hu := hbefore.invariant (fun _ _ _ h hstep => h.step hstep) hs
      exact ih.trans (admitted_prefix_of_step hu hstep)

/-- As long as `S` may run and is not admitted, every other scope has at most one turn. -/
theorem passed_of_run {labels : List SchedulerAction} (hs : s.Steady limits)
    (hrun : ((schedulerSystem limits).restrict fun s _ => s.Runnable limits S).Run s labels t)
    (hrunnable : t.Runnable limits S) {new : List Lease}
    (hnew : t.admitted = s.admitted ++ new) (hother : ∀ lease ∈ new, lease.scope ≠ S) :
    t.Steady limits ∧ Passed S (new.map Lease.scope) t := by
  induction hrun generalizing new with
  | nil =>
      obtain rfl : new = [] := by simpa using hnew
      exact ⟨hs, List.nodup_nil, hrunnable.mem_keys, by simp⟩
  | @snoc _ u _ t hbefore hstep ih =>
      have hu : u.Steady limits :=
        hbefore.of_restrict.invariant (fun _ _ _ h hstep => h.step hstep) hs
      obtain ⟨first, hfirst⟩ := admitted_prefix_of_run hs hbefore.of_restrict
      obtain ⟨last, hlast⟩ := admitted_prefix_of_step hu hstep.2
      obtain rfl : new = first ++ last := by
        rw [← hlast, ← hfirst, List.append_assoc, List.append_cancel_left_eq] at hnew
        exact hnew.symm
      obtain ⟨-, hpassed⟩ := ih hstep.1 hfirst.symm
        fun lease hin => hother lease (List.mem_append_left _ hin)
      refine ⟨hu.step hstep.2, ?_⟩
      rw [List.map_append]
      exact hpassed.step hu hstep.2 hlast.symm
        (fun lease hin => hother lease (List.mem_append_right _ hin)) hrunnable

/-! ## The contract -/

/-- Every lease is counted under its scope. -/
theorem sum_leases (keys : List String) (hkeys : keys.Nodup) (leases : List Lease)
    (hscope : ∀ lease ∈ leases, lease.scope ∈ keys) :
    (keys.map fun scope => (leases.filter fun lease => lease.scope = scope).length).sum =
      leases.length := by
  induction keys generalizing leases with
  | nil =>
      have hnone : leases = [] := List.eq_nil_iff_forall_not_mem.mpr fun lease hlease => by
        simpa using hscope lease hlease
      simp [hnone]
  | cons key rest ih =>
      obtain ⟨hkey, hrest⟩ := List.nodup_cons.mp hkeys
      set others := leases.filter fun lease => lease.scope ≠ key with hothers
      have hsame (scope : String) (hin : scope ∈ rest) :
          (leases.filter fun lease => lease.scope = scope).length =
            (others.filter fun lease => lease.scope = scope).length := by
        rw [hothers, List.filter_filter]
        congr 1
        refine List.filter_congr fun lease _ => ?_
        have hne : scope ≠ key := by
          rintro rfl
          exact hkey hin
        by_cases heq : lease.scope = scope <;> simp [heq, hne]
      have hcount := ih hrest others fun lease hlease => by
        obtain ⟨hin, hne⟩ := List.mem_filter.mp hlease
        exact (List.mem_cons.mp (hscope lease hin)).resolve_left (by simpa using hne)
      have hsplit := List.length_eq_length_filter_add (l := leases)
        fun lease => decide (lease.scope = key)
      rw [List.map_cons, List.sum_cons, List.map_congr_left hsame, hcount, hothers, hsplit]
      simp

theorem LeaseInvariant.sum_busy (inv : s.LeaseInvariant limits) :
    (s.busy.keys.map fun scope => (s.busyOf scope).length).sum = s.active.length := by
  rw [← sum_leases s.busy.keys s.busy.nodup_keys s.active fun lease hlease =>
    (s.busy.mem_keys_iff _).mpr (by simp [inv.busy lease hlease])]
  congr 1
  refine List.map_congr_left fun scope _ => ?_
  rw [(inv.contexts scope).length_eq, contextsOf, List.length_map]

theorem LeaseInvariant.pairwise (inv : s.LeaseInvariant limits) :
    s.active.Pairwise fun a b => ¬ (a.scope = b.scope ∧ a.context = b.context) := by
  refine List.pairwise_iff_forall_sublist.mpr fun {a b} hsub hsame => ?_
  have hnodup := (inv.contexts a.scope).nodup_iff.mp (inv.single a.scope)
  have hpair := (hsub.filter fun lease => decide (lease.scope = a.scope)).map Lease.context
  rw [List.filter_cons_of_pos (by simp), List.filter_cons_of_pos (by simpa using hsame.1.symm)]
    at hpair
  have htwice := hnodup.sublist hpair
  simp [hsame.2] at htwice

structure SchedulerSpec (limits : SchedulerLimits) (s : CallerExecutionScheduler) : Prop where
  running : s.running = s.active.length
  busy : s.running = (s.busy.keys.map fun scope => (s.busyOf scope).length).sum
  global : s.running ≤ limits.global
  perCaller : ∀ scope, (s.busyOf scope).length ≤ limits.perCaller
  single : s.active.Pairwise fun a b => ¬ (a.scope = b.scope ∧ a.context = b.context)
  /-- Waiters are numbered as they arrive. -/
  order : s.admitted.Pairwise fun a b => a.scope = b.scope → a.context = b.context → a.ref < b.ref
  ahead : ∀ a ∈ s.admitted, ∀ w, s.Waiting a.scope w → w.context = a.context → a.ref < w.ref
  queued : s.queued = (s.queues.values.map List.length).sum
  queueLimit : s.queued ≤ limits.queueLimit
  queuePerCaller : ∀ scope queue, s.queues.get? scope = some queue →
    queue.length ≤ limits.queuePerCaller
  settled : (s.admitted.map Lease.ref ++ s.rejected.map Prod.fst).Nodup
  unsettled : ∀ scope w, s.Waiting scope w →
    w.ref ∉ s.admitted.map Lease.ref ++ s.rejected.map Prod.fst
  idle : ∀ scope, s.Runnable limits scope → s.running = limits.global
  turns : ∀ scope labels t,
    ((schedulerSystem limits).restrict fun s _ => s.Runnable limits scope).Run s labels t →
    t.Runnable limits scope → ∃ new, t.admitted = s.admitted ++ new ∧
      ((∀ lease ∈ new, lease.scope ≠ scope) → (new.map Lease.scope).Nodup)

theorem schedulerSpec_of_reachable (h : (schedulerSystem limits).Reachable s) :
    s.SchedulerSpec limits := by
  have hs := steady_of_reachable h
  have inv := hs.inv
  constructor
  case running => exact inv.leases.running
  case busy => rw [inv.leases.sum_busy, inv.leases.running]
  case global => exact inv.leases.global
  case perCaller => exact inv.leases.perCaller
  case single => exact inv.leases.pairwise
  case order => exact inv.queues.order
  case ahead => exact inv.queues.ahead
  case queued => exact inv.queues.queued
  case queueLimit =>
      rw [inv.queues.queued]
      exact_mod_cast hs.bounded.total
  case queuePerCaller => exact hs.bounded.perCaller
  case settled => exact inv.queues.settled
  case unsettled => exact inv.queues.unsettled
  case idle =>
      intro scope hrunnable
      have hglobal := inv.leases.global
      have hfull : ¬ s.running < limits.global := fun hroom =>
        next_eq_none.mp (hs.idle hroom) scope hrunnable
      omega
  case turns =>
      intro scope labels t hrun hrunnable
      obtain ⟨new, hnew⟩ := admitted_prefix_of_run hs hrun.of_restrict
      refine ⟨new, hnew.symm, fun hother => ?_⟩
      exact (passed_of_run hs hrun hrunnable hnew.symm hother).2.once

section Witness

private def oneEach : SchedulerLimits where
  perCaller := 1
  global := 2
  queuePerCaller := 2
  queueLimit := 3

/-- Two scopes run, two waiters queue up, one of them gives up, a lease is released twice. -/
private def contended : List SchedulerAction :=
  [.acquire "a" "x" false, .acquire "b" "x" false, .acquire "a" "x" false, .acquire "c" "y" false,
    .abort "a" 2, .acquire "b" "z" false, .release 0, .release 0]

theorem schedulerSpec_of_reachable_contended :
    (contended.foldl (apply oneEach) {}).admitted.map Lease.ref = [0, 1, 3] ∧
      (contended.foldl (apply oneEach) {}).SchedulerSpec oneEach :=
  ⟨by decide +kernel,
    schedulerSpec_of_reachable (System.Legal.reachable (by decide +kernel) (.of_init rfl))⟩

end Witness

end CallerExecutionScheduler

end VicoopBridge
