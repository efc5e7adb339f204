import VicoopBridge.Verification.CallerExecutionScheduler.Leases

/-! # The queues of the scheduler

Every waiter is queued once, leaves its queue to be settled, and does not come back. -/

namespace VicoopBridge

open Library

namespace CallerExecutionScheduler

def Waiting (s : CallerExecutionScheduler) (scope : String) (waiter : SchedulerWaiter) : Prop :=
  ∃ queue, s.queues.get? scope = some queue ∧ waiter ∈ queue

/-- The waiters that have got their answer. -/
def settled (s : CallerExecutionScheduler) : List ℕ :=
  s.admitted.map Lease.ref ++ s.rejected.map Prod.fst

def waiterCount (s : CallerExecutionScheduler) : ℕ := (s.queues.values.map List.length).sum

structure QueueInvariant (s : CallerExecutionScheduler) : Prop where
  queued : s.queued = s.waiterCount
  nonempty : ∀ scope queue, s.queues.get? scope = some queue → queue ≠ []
  arrival : ∀ scope queue, s.queues.get? scope = some queue →
    queue.Pairwise fun a b : SchedulerWaiter => a.ref < b.ref
  elsewhere : ∀ scope scope' w w', s.Waiting scope w → s.Waiting scope' w' → w.ref = w'.ref →
    scope = scope'
  waitingFresh : ∀ scope w, s.Waiting scope w → w.ref < s.nextRef
  settledFresh : ∀ ref ∈ s.settled, ref < s.nextRef
  unsettled : ∀ scope w, s.Waiting scope w → w.ref ∉ s.settled
  settled : s.settled.Nodup
  active : s.active.Sublist s.admitted
  order : s.admitted.Pairwise fun a b => a.scope = b.scope → a.context = b.context → a.ref < b.ref
  ahead : ∀ a ∈ s.admitted, ∀ w, s.Waiting a.scope w → w.context = a.context → a.ref < w.ref

variable {s t : CallerExecutionScheduler}

theorem nodup_refs {queue : List SchedulerWaiter} (h : queue.Pairwise fun a b : SchedulerWaiter => a.ref < b.ref) :
    (queue.map SchedulerWaiter.ref).Nodup :=
  List.pairwise_map.mpr (h.imp fun hlt => ne_of_lt hlt)

/-! ## Arrival -/

theorem get?_push (s : CallerExecutionScheduler) (scope context scope' : String) :
    (s.push scope context).queues.get? scope' = if scope = scope' then
      some ((s.queues.get? scope).getD [] ++ [⟨s.nextRef, context⟩]) else s.queues.get? scope' :=
  InsertionMap.get?_set _ _ _ _

theorem waiting_push {scope context scope' : String} {w : SchedulerWaiter} :
    (s.push scope context).Waiting scope' w ↔
      s.Waiting scope' w ∨ scope' = scope ∧ w = ⟨s.nextRef, context⟩ := by
  unfold Waiting
  by_cases hscope : scope = scope'
  · subst hscope
    rw [get?_push, if_pos rfl]
    cases hq : s.queues.get? scope <;> simp
  · rw [get?_push, if_neg hscope]
    simp [Ne.symm hscope]

theorem QueueInvariant.push (inv : s.QueueInvariant) (scope context : String) :
    (s.push scope context).QueueInvariant := by
  have hfresh {scope' : String} {w : SchedulerWaiter} (h : (s.push scope context).Waiting scope' w) :
      s.Waiting scope' w ∧ w.ref < s.nextRef ∨ scope' = scope ∧ w = ⟨s.nextRef, context⟩ :=
    (waiting_push.mp h).imp_left fun hold => ⟨hold, inv.waitingFresh scope' w hold⟩
  constructor
  case queued =>
      have htotal := InsertionMap.sum_values_set List.length s.queues scope
        ((s.queues.get? scope).getD [] ++ [⟨s.nextRef, context⟩])
      have hcount : (s.push scope context).waiterCount = s.waiterCount + 1 := by
        cases hq : s.queues.get? scope with
        | none =>
            simp only [hq, Option.getD_none, Option.map_none, List.nil_append,
              List.length_singleton] at htotal
            simpa [waiterCount, CallerExecutionScheduler.push, hq] using htotal
        | some queue =>
            simp only [hq, Option.getD_some, Option.map_some, List.length_append,
              List.length_singleton] at htotal
            simp only [waiterCount, CallerExecutionScheduler.push, hq, Option.getD_some]
            omega
      rw [hcount, CallerExecutionScheduler.push, inv.queued]
      simp
  case nonempty =>
      intro scope' queue hq
      rw [get?_push] at hq
      split at hq
      · rw [← Option.some.inj hq]
        simp
      · exact inv.nonempty scope' queue hq
  case arrival =>
      intro scope' queue hq
      rw [get?_push] at hq
      split at hq
      · obtain rfl := Option.some.inj hq
        cases hold : s.queues.get? scope with
        | none => simp
        | some queue =>
            refine List.pairwise_append.mpr ⟨inv.arrival scope queue hold, List.pairwise_singleton _ _, ?_⟩
            intro w hw new hnew
            rw [List.mem_singleton.mp hnew]
            exact inv.waitingFresh scope w ⟨queue, hold, hw⟩
      · exact inv.arrival scope' queue hq
  case elsewhere =>
      intro scope₁ scope₂ w w' h h' href
      obtain ⟨h, hlt⟩ | ⟨rfl, rfl⟩ := hfresh h <;> obtain ⟨h', hlt'⟩ | ⟨rfl, rfl⟩ := hfresh h'
      · exact inv.elsewhere scope₁ scope₂ w w' h h' href
      · exact absurd href (ne_of_lt hlt)
      · exact absurd href.symm (ne_of_lt hlt')
      · rfl
  case waitingFresh =>
      intro scope' w h
      obtain ⟨-, hlt⟩ | ⟨-, rfl⟩ := hfresh h
      · exact Nat.lt_succ_of_lt hlt
      · exact Nat.lt_succ_self _
  case settledFresh => exact fun ref h => Nat.lt_succ_of_lt (inv.settledFresh ref h)
  case unsettled =>
      intro scope' w h
      obtain ⟨hold, -⟩ | ⟨-, rfl⟩ := hfresh h
      · exact inv.unsettled scope' w hold
      · exact fun h => lt_irrefl _ (inv.settledFresh _ h)
  case settled => exact inv.settled
  case active => exact inv.active
  case order => exact inv.order
  case ahead =>
      intro a ha w h hcontext
      obtain ⟨hold, -⟩ | ⟨-, rfl⟩ := hfresh h
      · exact inv.ahead a ha w hold hcontext
      · refine inv.settledFresh a.ref (List.mem_append_left _ (List.mem_map_of_mem ha))

/-! ## Leaving a queue -/

/-- One waiter less, wherever the scope now stands in the line. -/
structure Dequeues (s : CallerExecutionScheduler) (scope : String) (waiter : SchedulerWaiter)
    (t : CallerExecutionScheduler) : Prop where
  here : s.Waiting scope waiter
  waiting : ∀ scope' w, t.Waiting scope' w ↔
    s.Waiting scope' w ∧ ¬ (scope' = scope ∧ w.ref = waiter.ref)
  queues : ∀ scope' queue, t.queues.get? scope' = some queue →
    queue ≠ [] ∧ ∃ before, s.queues.get? scope' = some before ∧ queue.Sublist before
  count : t.waiterCount + 1 = s.waiterCount
  queued : t.queued = s.queued - 1
  nextRef : t.nextRef = s.nextRef

theorem QueueInvariant.dequeues (inv : s.QueueInvariant) {scope : String} {waiter : SchedulerWaiter}
    (h : Dequeues s scope waiter t) (hsettled : t.settled.Perm (waiter.ref :: s.settled))
    (hactive : t.active.Sublist t.admitted)
    (horder : t.admitted.Pairwise fun a b => a.scope = b.scope → a.context = b.context → a.ref < b.ref)
    (hahead : ∀ a ∈ t.admitted, ∀ w, t.Waiting a.scope w → w.context = a.context → a.ref < w.ref) :
    t.QueueInvariant := by
  have hold {scope' : String} {w : SchedulerWaiter} (hw : t.Waiting scope' w) : s.Waiting scope' w :=
    ((h.waiting scope' w).mp hw).1
  have hmem {ref : ℕ} (href : ref ∈ t.settled) : ref = waiter.ref ∨ ref ∈ s.settled :=
    List.mem_cons.mp (hsettled.mem_iff.mp href)
  constructor
  case queued =>
      have hcount := h.count
      rw [h.queued, inv.queued]
      omega
  case nonempty => exact fun scope' queue hq => (h.queues scope' queue hq).1
  case arrival =>
      intro scope' queue hq
      obtain ⟨-, before, hbefore, hsub⟩ := h.queues scope' queue hq
      exact (inv.arrival scope' before hbefore).sublist hsub
  case elsewhere =>
      exact fun scope₁ scope₂ w w' hw hw' => inv.elsewhere scope₁ scope₂ w w' (hold hw) (hold hw')
  case waitingFresh => exact fun scope' w hw => h.nextRef ▸ inv.waitingFresh scope' w (hold hw)
  case settledFresh =>
      intro ref href
      rw [h.nextRef]
      obtain rfl | href := hmem href
      · exact inv.waitingFresh scope waiter h.here
      · exact inv.settledFresh ref href
  case unsettled =>
      intro scope' w hw href
      obtain ⟨hwaiting, hother⟩ := (h.waiting scope' w).mp hw
      obtain heq | href := hmem href
      · exact hother ⟨inv.elsewhere scope' scope w waiter hwaiting h.here heq, heq⟩
      · exact inv.unsettled scope' w hwaiting href
  case settled =>
      exact hsettled.nodup_iff.mpr
        (List.nodup_cons.mpr ⟨inv.unsettled scope waiter h.here, inv.settled⟩)
  case active => exact hactive
  case order => exact horder
  case ahead => exact hahead

/-- Whatever else changes, the queues have lost the waiter. -/
theorem dequeues_removeWaiter (inv : s.QueueInvariant) {scope : String} {waiter : SchedulerWaiter}
    {queue : List SchedulerWaiter} (hq : s.queues.get? scope = some queue) (hw : waiter ∈ queue) :
    Dequeues s scope waiter (s.removeWaiter scope waiter.ref queue) := by
  set rest := queue.filter fun item => item.ref ≠ waiter.ref with hrest
  have hperm : queue.Perm (waiter :: rest) :=
    perm_cons_filter SchedulerWaiter.ref (nodup_refs (inv.arrival scope queue hq)) hw
  have hlength : queue.length = rest.length + 1 := by rw [hperm.length_eq, List.length_cons]
  have hget (scope' : String) : (s.removeWaiter scope waiter.ref queue).queues.get? scope' =
      if scope = scope' then (if rest = [] then none else some rest) else s.queues.get? scope' := by
    unfold removeWaiter
    simp only [← hrest]
    by_cases hempty : rest = []
    · rw [if_pos hempty, if_pos hempty, InsertionMap.get?_erase]
    · rw [if_neg hempty, if_neg hempty, InsertionMap.get?_set]
  constructor
  case here => exact ⟨queue, hq, hw⟩
  case waiting =>
      intro scope' w
      unfold Waiting
      rw [hget]
      by_cases hscope : scope = scope'
      · subst hscope
        rw [if_pos rfl, hq]
        by_cases hempty : rest = []
        · have hnone (w : SchedulerWaiter) (hw : w ∈ queue) : w.ref = waiter.ref := by
            by_contra hne
            have hin : w ∈ rest := List.mem_filter.mpr ⟨hw, by simpa using hne⟩
            simp [hempty] at hin
          simpa [hempty] using hnone w
        · rw [if_neg hempty]
          simp [hrest]
      · rw [if_neg hscope]
        simp [Ne.symm hscope]
  case queues =>
      intro scope' queue' hq'
      rw [hget] at hq'
      split at hq'
      · rename_i heq
        split at hq'
        · simp at hq'
        · rename_i hne
          obtain rfl := Option.some.inj hq'
          exact ⟨hne, queue, heq ▸ hq, List.filter_sublist⟩
      · exact ⟨inv.nonempty scope' queue' hq', queue', hq', List.Sublist.refl _⟩
  case count =>
      have herase := InsertionMap.sum_values_erase List.length s.queues scope
      have hset := InsertionMap.sum_values_set List.length s.queues scope rest
      simp only [hq, Option.map_some, Option.getD_some] at herase hset
      unfold waiterCount removeWaiter
      simp only [← hrest]
      by_cases hempty : rest = []
      · rw [if_pos hempty]
        simp only [hempty, List.length_nil] at hlength
        omega
      · rw [if_neg hempty]
        omega
  case queued => rfl
  case nextRef => rfl

theorem remove_eq (s : CallerExecutionScheduler) (scope : String) (ref : ℕ) :
    s.remove scope ref = (false, s) ∨ ∃ queue waiter, s.queues.get? scope = some queue ∧
      waiter ∈ queue ∧ waiter.ref = ref ∧
        s.remove scope ref = (true, s.removeWaiter scope ref queue) := by
  unfold remove
  cases hq : s.queues.get? scope with
  | none => exact .inl rfl
  | some queue =>
      simp only
      split
      · rename_i hany
        obtain ⟨waiter, hw, href⟩ := List.any_eq_true.mp hany
        exact .inr ⟨queue, waiter, rfl, hw, by simpa using href, rfl⟩
      · exact .inl rfl

theorem remove_of_mem (s : CallerExecutionScheduler) {scope : String} {waiter : SchedulerWaiter}
    {queue : List SchedulerWaiter} (hq : s.queues.get? scope = some queue) (hw : waiter ∈ queue) :
    s.remove scope waiter.ref = (true, s.removeWaiter scope waiter.ref queue) := by
  have hany : queue.any (fun item => decide (item.ref = waiter.ref)) = true :=
    List.any_eq_true.mpr ⟨waiter, hw, by simp⟩
  simp only [remove, hq, hany, if_true]

/-! ## Settling -/

/-- A waiter leaves its queue with a rejection. -/
theorem dequeues_expel (inv : s.QueueInvariant) {scope : String} {waiter : SchedulerWaiter}
    {queue : List SchedulerWaiter} (hq : s.queues.get? scope = some queue) (hw : waiter ∈ queue)
    (rejection : SchedulerRejection) :
    Dequeues s scope waiter ((s.removeWaiter scope waiter.ref queue).reject waiter.ref rejection) ∧
      ((s.removeWaiter scope waiter.ref queue).reject waiter.ref rejection).settled.Perm
        (waiter.ref :: s.settled) := by
  have hleft := dequeues_removeWaiter inv hq hw
  refine ⟨⟨hleft.here, hleft.waiting, hleft.queues, hleft.count, hleft.queued, hleft.nextRef⟩, ?_⟩
  simp only [CallerExecutionScheduler.settled, reject, removeWaiter, List.map_append,
    List.map_cons, List.map_nil, ← List.append_assoc]
  exact List.perm_append_singleton _ _

theorem QueueInvariant.expel (inv : s.QueueInvariant) {scope : String} {waiter : SchedulerWaiter}
    {queue : List SchedulerWaiter} (hq : s.queues.get? scope = some queue) (hw : waiter ∈ queue)
    (rejection : SchedulerRejection) :
    ((s.removeWaiter scope waiter.ref queue).reject waiter.ref rejection).QueueInvariant := by
  obtain ⟨hdequeued, hsettled⟩ := dequeues_expel inv hq hw rejection
  exact inv.dequeues hdequeued hsettled inv.active inv.order fun a ha w hw' =>
    inv.ahead a ha w ((hdequeued.waiting a.scope w).mp hw').1

/-- A signal that has fired before leaves nothing behind. -/
theorem QueueInvariant.refuse (inv : s.QueueInvariant) (rejection : SchedulerRejection) :
    ({ s with nextRef := s.nextRef + 1 }.reject s.nextRef rejection).QueueInvariant := by
  have hmem {ref : ℕ}
      (h : ref ∈ ({ s with nextRef := s.nextRef + 1 }.reject s.nextRef rejection).settled) :
      ref ∈ s.settled ∨ ref = s.nextRef := by
    simpa [CallerExecutionScheduler.settled, reject, or_assoc] using h
  constructor
  case queued => exact inv.queued
  case nonempty => exact inv.nonempty
  case arrival => exact inv.arrival
  case elsewhere => exact inv.elsewhere
  case waitingFresh => exact fun scope w h => Nat.lt_succ_of_lt (inv.waitingFresh scope w h)
  case settledFresh =>
      intro ref h
      obtain hold | rfl := hmem h
      · exact Nat.lt_succ_of_lt (inv.settledFresh ref hold)
      · exact Nat.lt_succ_self _
  case unsettled =>
      intro scope w h href
      obtain hold | heq := hmem href
      · exact inv.unsettled scope w h hold
      · exact absurd heq (ne_of_lt (inv.waitingFresh scope w h))
  case settled =>
      have hnew : s.nextRef ∉ s.settled := fun h => lt_irrefl _ (inv.settledFresh _ h)
      have hnodup := inv.settled.append (List.nodup_singleton s.nextRef) (by simpa using hnew)
      simpa [CallerExecutionScheduler.settled, reject] using hnodup
  case active => exact inv.active
  case order => exact inv.order
  case ahead => exact inv.ahead

/-- Leases come and go without the queues. -/
theorem QueueInvariant.congr (inv : s.QueueInvariant) (hqueues : t.queues = s.queues)
    (hqueued : t.queued = s.queued) (hnext : t.nextRef = s.nextRef)
    (hadmitted : t.admitted = s.admitted) (hrejected : t.rejected = s.rejected)
    (hactive : t.active.Sublist s.active) : t.QueueInvariant := by
  have hsettled : t.settled = s.settled := by
    simp only [CallerExecutionScheduler.settled, hadmitted, hrejected]
  have hwaiting (scope : String) (w : SchedulerWaiter) : t.Waiting scope w ↔ s.Waiting scope w := by
    simp only [Waiting, hqueues]
  constructor
  case queued => rw [hqueued, inv.queued, waiterCount, waiterCount, hqueues]
  case nonempty => exact hqueues ▸ inv.nonempty
  case arrival => exact hqueues ▸ inv.arrival
  case elsewhere =>
      intro scope scope' w w' h h'
      exact inv.elsewhere scope scope' w w' ((hwaiting _ _).mp h) ((hwaiting _ _).mp h')
  case waitingFresh => exact fun scope w h => hnext ▸ inv.waitingFresh scope w ((hwaiting _ _).mp h)
  case settledFresh => rw [hsettled, hnext]; exact inv.settledFresh
  case unsettled => exact fun scope w h => hsettled ▸ inv.unsettled scope w ((hwaiting _ _).mp h)
  case settled => exact hsettled ▸ inv.settled
  case active => exact hadmitted ▸ hactive.trans inv.active
  case order => exact hadmitted ▸ inv.order
  case ahead =>
      rw [hadmitted]
      exact fun a ha w h => inv.ahead a ha w ((hwaiting _ _).mp h)

/-! ## Admission -/

/-- The queues after an admission: the scope has gone to the end of the line. -/
theorem queues_admitWaiter (s : CallerExecutionScheduler) {scope : String} {waiter : SchedulerWaiter}
    {queue : List SchedulerWaiter} (hq : s.queues.get? scope = some queue) (hw : waiter ∈ queue) :
    (s.admitWaiter scope waiter).queues =
      match (s.removeWaiter scope waiter.ref queue).queues.get? scope with
      | some rest => ((s.removeWaiter scope waiter.ref queue).queues.erase scope).set scope rest
      | none => (s.removeWaiter scope waiter.ref queue).queues := by
  have hremove := s.remove_of_mem hq hw
  unfold admitWaiter
  generalize s.remove scope waiter.ref = removed at hremove
  subst hremove
  rfl

theorem dequeues_admitWaiter (inv : s.QueueInvariant) {scope : String} {waiter : SchedulerWaiter}
    {queue : List SchedulerWaiter} (hq : s.queues.get? scope = some queue) (hw : waiter ∈ queue) :
    Dequeues s scope waiter (s.admitWaiter scope waiter) := by
  have hleft := dequeues_removeWaiter inv hq hw
  have hqueues := s.queues_admitWaiter hq hw
  set r := s.removeWaiter scope waiter.ref queue
  have hget (scope' : String) : (s.admitWaiter scope waiter).queues.get? scope' = r.queues.get? scope' := by
    rw [hqueues]
    split
    · rename_i rest hrest
      rw [InsertionMap.get?_set]
      split
      · rename_i heq
        rw [← heq]
        exact hrest.symm
      · rename_i hne
        exact InsertionMap.get?_erase_of_ne _ hne
    · rfl
  have hcount : (s.admitWaiter scope waiter).waiterCount = r.waiterCount := by
    unfold waiterCount
    rw [hqueues]
    split
    · rename_i rest hrest
      have herase := InsertionMap.sum_values_erase List.length r.queues scope
      have hset := InsertionMap.sum_values_set List.length (r.queues.erase scope) scope rest
      simp only [hrest, Option.map_some, Option.getD_some] at herase
      simp only [InsertionMap.get?_erase_self, Option.map_none, Option.getD_none] at hset
      omega
    · rfl
  constructor
  case here => exact hleft.here
  case waiting =>
      intro scope' w
      unfold Waiting
      rw [hget]
      exact hleft.waiting scope' w
  case queues => exact fun scope' queue' hq' => hleft.queues scope' queue' (hget scope' ▸ hq')
  case count => exact hcount ▸ hleft.count
  case queued => simp only [admitWaiter, s.remove_of_mem hq hw]; rfl
  case nextRef => simp only [admitWaiter, s.remove_of_mem hq hw]; rfl

theorem admitted_admitWaiter (s : CallerExecutionScheduler) {scope : String} {waiter : SchedulerWaiter}
    {queue : List SchedulerWaiter} (hq : s.queues.get? scope = some queue) (hw : waiter ∈ queue) :
    (s.admitWaiter scope waiter).admitted =
        s.admitted ++ [⟨waiter.ref, scope, waiter.context, s.setFor scope⟩] ∧
      (s.admitWaiter scope waiter).rejected = s.rejected := by
  simp only [admitWaiter, s.remove_of_mem hq hw]
  exact ⟨rfl, rfl⟩

/-- The waiter that is admitted is the first of its context. -/
theorem QueueInvariant.admitWaiter (inv : s.QueueInvariant) {scope : String} {waiter : SchedulerWaiter}
    {queue : List SchedulerWaiter} (hq : s.queues.get? scope = some queue) (hw : waiter ∈ queue)
    (hfirst : ∀ w ∈ queue, w.context = waiter.context → w ≠ waiter → waiter.ref < w.ref) :
    (s.admitWaiter scope waiter).QueueInvariant := by
  have hleft := dequeues_admitWaiter inv hq hw
  obtain ⟨hadmitted, hrejected⟩ := s.admitted_admitWaiter hq hw
  set lease : Lease := ⟨waiter.ref, scope, waiter.context, s.setFor scope⟩ with hlease
  refine inv.dequeues hleft ?_ ?_ ?_ ?_
  · simp only [CallerExecutionScheduler.settled, hadmitted, hrejected, List.map_append,
      List.map_cons, List.map_nil, List.append_assoc, List.singleton_append]
    exact List.perm_middle
  · rw [hadmitted, (admitWaiter_admits s scope waiter).active]
    exact inv.active.append (List.Sublist.refl _)
  · rw [hadmitted]
    refine List.pairwise_append.mpr ⟨inv.order, List.pairwise_singleton _ _, ?_⟩
    intro a ha new hnew hscope hcontext
    rw [List.mem_singleton.mp hnew] at hscope hcontext ⊢
    refine inv.ahead a ha waiter ?_ hcontext.symm
    rw [hscope]
    exact hleft.here
  · rw [hadmitted]
    intro a ha w hwaiting hcontext
    obtain ⟨hold, hother⟩ := (hleft.waiting a.scope w).mp hwaiting
    rcases List.mem_append.mp ha with ha | ha
    · exact inv.ahead a ha w hold hcontext
    · rw [List.mem_singleton.mp ha] at hold hother hcontext ⊢
      obtain ⟨queue', hq', hw'⟩ := hold
      obtain rfl := Option.some.inj (hq.symm.trans hq')
      refine hfirst w hw' hcontext fun heq => hother ⟨rfl, by rw [heq]⟩

end CallerExecutionScheduler

end VicoopBridge
