import VicoopBridge.Verification.CallerExecutionScheduler.Contract

/-! # What a waiter can count on

A waiter is admitted into the scope and the context it asked for, and its lease stays until it is
released. -/

namespace VicoopBridge

open Library

namespace CallerExecutionScheduler

variable {limits : SchedulerLimits} {s t u : CallerExecutionScheduler} {ref : ℕ}
  {scope context : String}

/-- What the waiter with the reference asked for. -/
def Ticket (s : CallerExecutionScheduler) (ref : ℕ) (scope context : String) : Prop :=
  s.Waiting scope ⟨ref, context⟩ ∨
    ∃ lease ∈ s.admitted, lease.ref = ref ∧ lease.scope = scope ∧ lease.context = context

theorem Ticket.fresh (h : s.Ticket ref scope context) (inv : s.QueueInvariant) :
    ref < s.nextRef := by
  obtain hwaiting | ⟨lease, hin, rfl, -⟩ := h
  · exact inv.waitingFresh scope _ hwaiting
  · exact inv.settledFresh _ (List.mem_append_left _ (List.mem_map_of_mem hin))

/-- The waiter is in its queue, or it has its answer. -/
def Asked (s : CallerExecutionScheduler) (scope : String) (w : SchedulerWaiter) : Prop :=
  s.Waiting scope w ∨ w.ref ∈ s.settled

theorem settled_of_eq {new : Lease} (hadmitted : t.admitted = s.admitted ++ [new])
    (hrejected : t.rejected = s.rejected) : t.settled.Perm (new.ref :: s.settled) := by
  unfold settled
  rw [hadmitted, hrejected, List.map_append]
  simp

/-- Leases are only added, and nobody gets one that has not asked for it. -/
structure Grants (s t : CallerExecutionScheduler) : Prop where
  active : ∀ lease ∈ s.active, lease ∈ t.active
  admitted : ∀ lease ∈ t.admitted, lease ∈ s.admitted ∨ lease ∈ t.active
  kept : ∀ lease ∈ s.admitted, lease ∈ t.admitted
  tickets : ∀ ref scope context, t.Ticket ref scope context → s.Ticket ref scope context
  asked : ∀ scope w, s.Asked scope w → t.Asked scope w
  nextRef : t.nextRef = s.nextRef

theorem Grants.refl (s : CallerExecutionScheduler) : Grants s s :=
  ⟨fun _ => id, fun _ => .inl, fun _ => id, fun _ _ _ => id, fun _ _ => id, rfl⟩

theorem Grants.trans (h : Grants s t) (h' : Grants t u) : Grants s u where
  active lease hin := h'.active lease (h.active lease hin)
  admitted lease hin := by
    obtain hin | hin := h'.admitted lease hin
    · exact (h.admitted lease hin).imp_right (h'.active lease)
    · exact .inr hin
  kept lease hin := h'.kept lease (h.kept lease hin)
  tickets ref scope context hticket := h.tickets _ _ _ (h'.tickets ref scope context hticket)
  asked scope w hasked := h'.asked scope w (h.asked scope w hasked)
  nextRef := h'.nextRef.trans h.nextRef

theorem Dequeues.asked {w : SchedulerWaiter} (h : Dequeues s scope w t)
    (hsettled : t.settled.Perm (w.ref :: s.settled)) (scope' : String) (other : SchedulerWaiter)
    (hasked : s.Asked scope' other) : t.Asked scope' other := by
  obtain hwaiting | hin := hasked
  · by_cases heq : scope' = scope ∧ other.ref = w.ref
    · exact .inr (hsettled.mem_iff.mpr (heq.2 ▸ List.mem_cons_self))
    · exact .inl ((h.waiting scope' other).mpr ⟨hwaiting, heq⟩)
  · exact .inr (hsettled.mem_iff.mpr (List.mem_cons_of_mem _ hin))

theorem grants_admitWaiter (inv : s.QueueInvariant) {w : SchedulerWaiter}
    {queue : List SchedulerWaiter} (hq : s.queues.get? scope = some queue) (hw : w ∈ queue) :
    Grants s (s.admitWaiter scope w) := by
  have hleft := dequeues_admitWaiter inv hq hw
  obtain ⟨hadmitted, hrejected⟩ := s.admitted_admitWaiter hq hw
  have hperm := settled_of_eq hadmitted hrejected
  have hactive := (admitWaiter_admits s scope w).active
  constructor
  · exact fun lease hin => hactive ▸ List.mem_append_left _ hin
  · intro lease hin
    rw [hadmitted] at hin
    rw [hactive]
    exact (List.mem_append.mp hin).imp_right (List.mem_append_right _)
  · exact fun lease hin => hadmitted ▸ List.mem_append_left _ hin
  · rintro ref scope' context (hwaiting | ⟨lease, hin, rfl, rfl, rfl⟩)
    · exact .inl ((hleft.waiting scope' _).mp hwaiting).1
    · rw [hadmitted] at hin
      rcases List.mem_append.mp hin with hin | hin
      · exact .inr ⟨lease, hin, rfl, rfl, rfl⟩
      · rw [List.mem_singleton.mp hin]
        exact .inl ⟨queue, hq, hw⟩
  · exact hleft.asked hperm
  · exact hleft.nextRef

theorem grants_drainLoop (rounds : ℕ) (inv : s.Invariant limits) :
    Grants s (drainLoop limits rounds s) := by
  induction rounds generalizing s with
  | zero => exact .refl s
  | succ rounds ih =>
      unfold drainLoop
      split
      · rename_i hglobal
        split
        · rename_i scope w hnext
          obtain ⟨hadmitted, queue, hq, hw⟩ := inv.admitWaiter hglobal hnext
          exact (grants_admitWaiter inv.queues hq hw).trans (ih hadmitted)
        · exact .refl s
      · exact .refl s

theorem grants_drain (inv : s.Invariant limits) : Grants s (s.drain limits) :=
  grants_drainLoop _ inv

theorem grants_expel (inv : s.QueueInvariant) {w : SchedulerWaiter} {queue : List SchedulerWaiter}
    (hq : s.queues.get? scope = some queue) (hw : w ∈ queue) (rejection : SchedulerRejection) :
    Grants s ((s.removeWaiter scope w.ref queue).reject w.ref rejection) := by
  obtain ⟨hleft, hsettled⟩ := dequeues_expel inv hq hw rejection
  refine ⟨fun _ => id, fun _ => .inl, fun _ => id, ?_, hleft.asked hsettled, rfl⟩
  · rintro ref scope' context (hwaiting | hlease)
    · exact .inl ((hleft.waiting scope' _).mp hwaiting).1
    · exact .inr hlease

/-! ## The operations -/

theorem grants_abort (inv : s.Invariant limits) (scope : String) (ref : ℕ) :
    Grants s (s.abort limits scope ref) := by
  unfold CallerExecutionScheduler.abort
  obtain hgone | ⟨queue, w, hq, hw, rfl, hremoved⟩ := s.remove_eq scope ref
  · rw [hgone]
    exact .refl s
  · rw [hremoved]
    exact (grants_expel inv.queues hq hw .executionAborted).trans
      (grants_drain (inv.expel hq hw .executionAborted))

/-- A waiter whose signal fires has its answer. -/
theorem settled_abort (inv : s.Invariant limits) {w : SchedulerWaiter} (h : s.Asked scope w) :
    w.ref ∈ (s.abort limits scope w.ref).settled := by
  unfold CallerExecutionScheduler.abort
  obtain hgone | ⟨queue, w', hq, hw, href, hremoved⟩ := s.remove_eq scope w.ref
  · rw [hgone]
    refine h.resolve_left ?_
    rintro ⟨queue, hq, hw⟩
    simp [s.remove_of_mem hq hw] at hgone
  · rw [hremoved]
    have hinv := inv.expel hq hw .executionAborted
    obtain ⟨-, hsettled⟩ := dequeues_expel inv.queues hq hw .executionAborted
    rw [href] at hinv hsettled
    have hgrants := grants_drain hinv
    have hin := hsettled.mem_iff.mpr List.mem_cons_self
    obtain hwaiting | hdone := hgrants.asked scope w (.inr hin)
    · obtain hold | ⟨lease, hlease, heq, -⟩ := hgrants.tickets _ _ _ (.inl hwaiting)
      · exact absurd hin (hinv.queues.unsettled scope _ hold)
      · have hkept := List.mem_map_of_mem (f := Lease.ref) (hgrants.kept lease hlease)
        rw [heq] at hkept
        exact List.mem_append_left _ hkept
    · exact hdone

/-- The new waiter is the only one that is added. -/
structure Enters (s t : CallerExecutionScheduler) (scope context : String) : Prop where
  active : ∀ lease ∈ s.active, lease ∈ t.active
  admitted : ∀ lease ∈ t.admitted, lease ∈ s.admitted ∨ lease ∈ t.active
  kept : ∀ lease ∈ s.admitted, lease ∈ t.admitted
  tickets : ∀ ref scope' context', t.Ticket ref scope' context' →
    s.Ticket ref scope' context' ∨ ref = s.nextRef ∧ scope' = scope ∧ context' = context
  asked : ∀ scope' w, s.Asked scope' w → t.Asked scope' w
  mine : t.Asked scope ⟨s.nextRef, context⟩
  nextRef : t.nextRef = s.nextRef + 1

theorem Enters.grants (h : Enters s t scope context) (h' : Grants t u) :
    Enters s u scope context where
  active lease hin := h'.active lease (h.active lease hin)
  admitted lease hin := by
    obtain hin | hin := h'.admitted lease hin
    · exact (h.admitted lease hin).imp_right (h'.active lease)
    · exact .inr hin
  kept lease hin := h'.kept lease (h.kept lease hin)
  tickets ref scope' context' hticket := h.tickets _ _ _ (h'.tickets ref scope' context' hticket)
  asked scope' w hasked := h'.asked scope' w (h.asked scope' w hasked)
  mine := h'.asked _ _ h.mine
  nextRef := h'.nextRef.trans h.nextRef

theorem enters_push (s : CallerExecutionScheduler) (scope context : String) :
    Enters s (s.push scope context) scope context := by
  have hmine : (s.push scope context).Waiting scope ⟨s.nextRef, context⟩ :=
    waiting_push.mpr (.inr ⟨rfl, rfl⟩)
  refine ⟨fun _ => id, fun _ => .inl, fun _ => id, ?_, ?_, .inl hmine, rfl⟩
  swap
  · exact fun scope' w hasked => hasked.imp_left fun hwaiting => waiting_push.mpr (.inl hwaiting)
  rintro ref scope' context' (hwaiting | hlease)
  · obtain hold | ⟨rfl, heq⟩ := waiting_push.mp hwaiting
    · exact .inl (.inl hold)
    · obtain ⟨rfl, rfl⟩ := SchedulerWaiter.mk.inj heq
      exact .inr ⟨rfl, rfl, rfl⟩
  · exact .inl (.inr hlease)

theorem enters_acquire (inv : s.Invariant limits) (scope context : String) (aborted : Bool) :
    Enters s (s.acquire limits scope context aborted) scope context := by
  have hacquires := acquire_acquires limits s scope context aborted
  have hpush := inv.push scope context
  obtain ⟨hdone, -, -⟩ := drain_spec hpush
  have hdrained := (enters_push s scope context).grants (grants_drain hpush)
  generalize s.acquire limits scope context aborted = t at hacquires
  cases hacquires with
  | aborted =>
      refine ⟨fun _ => id, fun _ => .inl, fun _ => id, fun _ _ _ => .inl, ?_, .inr ?_, rfl⟩
      · exact fun scope' w hasked => hasked.imp_right fun hin => by
          simp only [settled, reject, List.map_append, ← List.append_assoc]
          exact List.mem_append_left _ hin
      · simp [settled, reject]
  | kept => exact hdrained
  | full queue w hq hw href =>
      exact hdrained.grants (grants_expel hdone.queues hq hw .callerQueueFull)

/-- Only the lease that is released goes. -/
theorem release_keeps (inv : s.Invariant limits) (ref : ℕ) :
    (∀ lease ∈ s.active, lease.ref ≠ ref → lease ∈ (s.release limits ref).active) ∧
      (∀ lease ∈ (s.release limits ref).admitted,
        lease ∈ s.admitted ∨ lease ∈ (s.release limits ref).active) ∧
      (∀ lease ∈ s.admitted, lease ∈ (s.release limits ref).admitted) ∧
      (∀ ref' scope context, (s.release limits ref).Ticket ref' scope context →
        s.Ticket ref' scope context) ∧
      (∀ scope w, s.Asked scope w → (s.release limits ref).Asked scope w) ∧
      (s.release limits ref).nextRef = s.nextRef := by
  obtain hnone | ⟨lease, hlease, href, hrelease⟩ := release_eq limits s ref
  · rw [hnone]
    exact ⟨fun _ hin _ => hin, fun _ => .inl, fun _ => id, fun _ _ _ => id, fun _ _ => id, rfl⟩
  · rw [hrelease]
    have hgrants := grants_drain (inv.releaseLease hlease)
    refine ⟨fun other hin hne => hgrants.active other ?_, hgrants.admitted, hgrants.kept,
      hgrants.tickets, hgrants.asked, hgrants.nextRef⟩
    exact List.mem_filter.mpr ⟨hin, by simpa [href] using hne⟩

/-- A context has one lease at a time. -/
theorem LeaseInvariant.eq_of_context (inv : s.LeaseInvariant limits) {a c : Lease}
    (ha : a ∈ s.active) (hc : c ∈ s.active) (hscope : a.scope = c.scope)
    (hcontext : a.context = c.context) : a = c := by
  have hnodup : (s.contextsOf c.scope).Nodup := (inv.contexts c.scope).nodup_iff.mp (inv.single c.scope)
  exact List.inj_on_of_nodup_map hnodup (List.mem_filter.mpr ⟨ha, by simpa using hscope⟩)
    (List.mem_filter.mpr ⟨hc, by simp⟩) hcontext

end CallerExecutionScheduler

end VicoopBridge
