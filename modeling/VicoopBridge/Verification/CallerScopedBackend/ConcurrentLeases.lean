import VicoopBridge.Verification.CallerExecutionScheduler.Tickets
import VicoopBridge.Verification.CallerScopedBackend.SerialQueue

/-! # One lease per run

With a scheduler a run uses its context under a lease. A run that leaves something behind keeps its
lease, and nobody else gets one for the context. -/

namespace VicoopBridge

open Library

namespace CallerExecution

/-- The waiter of the run is still its own. -/
def Counts (run : CallerExecution) : Prop := run.wait ≠ .done ∨ run.granted = true

def Lost (b : CallerBackendOptions) (run : CallerExecution) : Prop :=
  run.CleanUpFailed ∨ run.ScopeCleanUpFailed b

/-- What the leases depend on. -/
structure Alike (run run' : CallerExecution) : Prop where
  scope : run'.scope = run.scope
  context : run'.context = run.context
  ref : run'.ref = run.ref
  wait : run'.wait = run.wait
  phase : run'.phase = run.phase
  granted : run'.granted = run.granted
  trace : run.isOver = true → run'.trace = run.trace

variable {b : CallerBackendOptions} {run run' : CallerExecution}

theorem Quiet.alike (h : run.Quiet run') : run.Alike run' :=
  ⟨h.scope, h.context, h.ref, h.wait, h.phase, h.granted, h.trace⟩

theorem Alike.refl (run : CallerExecution) : run.Alike run :=
  ⟨rfl, rfl, rfl, rfl, rfl, rfl, fun _ => rfl⟩

theorem Alike.counts (h : run.Alike run') : run'.Counts ↔ run.Counts := by
  unfold Counts
  rw [h.wait, h.granted]

theorem Alike.lost (h : run.Alike run') : run'.Lost b ↔ run.Lost b :=
  CallerScopedBackend.spoils_congr h.wait h.trace

theorem Alike.scopeCleanUpFailed (h : run.Alike run') :
    run'.ScopeCleanUpFailed b ↔ run.ScopeCleanUpFailed b := by
  have hover : run'.isOver = run.isOver := by simp only [isOver, h.wait]
  unfold ScopeCleanUpFailed
  rw [hover]
  by_cases hrun : run.isOver = true
  · rw [h.trace hrun]
  · simp [hrun]

end CallerExecution

namespace CallerScopedBackend

open CallerExecution

variable {b : CallerBackendOptions} {limits : SchedulerLimits} {s t : CallerScopedBackend} {i : ℕ}

structure ConcurrentInvariant (b : CallerBackendOptions) (limits : SchedulerLimits)
    (s : CallerScopedBackend) : Prop where
  steady : s.scheduler.Steady limits
  reclaims : s.reclaims = []
  distinct : ∀ (i j : ℕ) (run run' : CallerExecution), s.executions[i]? = some run →
    s.executions[j]? = some run' → run.Counts → run'.Counts → run.ref = run'.ref → i = j
  fresh : ∀ run ∈ s.executions, run.Counts → run.ref < s.scheduler.nextRef
  tickets : ∀ run ∈ s.executions, run.Counts → ∀ scope context,
    s.scheduler.Ticket run.ref scope context → scope = run.scope ∧ context = run.context
  granted : ∀ run ∈ s.executions, run.phase ≠ .queue → run.granted = true
  leased : ∀ run ∈ s.executions, run.granted = true → run.wait ≠ .done ∨ run.Lost b →
    ∃ lease ∈ s.scheduler.active, lease.ref = run.ref
  asked : ∀ run ∈ s.executions, run.wait = .queue →
    s.scheduler.Asked run.scope ⟨run.ref, run.context⟩
  released : ∀ lease ∈ s.scheduler.admitted, lease ∈ s.scheduler.active ∨
    ∃ run ∈ s.executions, run.wait = .done ∧ run.granted = true ∧ run.ref = lease.ref
  failed : ∀ run ∈ s.executions, run.Lost b → run.wait = .slot →
    ∀ entry, s.entries.get? run.scope = some entry → run.context ∈ entry.failedContexts
  barred : ∀ run ∈ s.executions, run.ScopeCleanUpFailed b →
    ∃ entry, s.entries.get? run.scope = some entry ∧ entry.quarantined = true

/-! ## What the leases say -/

/-- The lease of a run is for its own context. -/
theorem ConcurrentInvariant.lease (inv : ConcurrentInvariant b limits s) {run : CallerExecution}
    (hin : run ∈ s.executions) (hgranted : run.granted = true)
    (hheld : run.wait ≠ .done ∨ run.Lost b) :
    ∃ lease ∈ s.scheduler.active, lease.ref = run.ref ∧ lease.scope = run.scope ∧
      lease.context = run.context := by
  obtain ⟨lease, hlease, href⟩ := inv.leased run hin hgranted hheld
  have hadmitted := inv.steady.inv.queues.active.mem hlease
  exact ⟨lease, hlease, href,
    inv.tickets run hin (.inr hgranted) _ _ (.inr ⟨lease, hadmitted, href, rfl, rfl⟩)⟩

/-- Two runs that hold the same context are one. -/
theorem ConcurrentInvariant.unique (inv : ConcurrentInvariant b limits s) {j : ℕ}
    {run run' : CallerExecution} (hrun : s.executions[i]? = some run)
    (hrun' : s.executions[j]? = some run') (hgranted : run.granted = true)
    (hgranted' : run'.granted = true) (hheld : run.wait ≠ .done ∨ run.Lost b)
    (hheld' : run'.wait ≠ .done ∨ run'.Lost b) (hscope : run'.scope = run.scope)
    (hcontext : run'.context = run.context) : i = j := by
  obtain ⟨lease, hlease, href, hls, hlc⟩ := inv.lease (List.mem_of_getElem? hrun) hgranted hheld
  obtain ⟨lease', hlease', href', hls', hlc'⟩ :=
    inv.lease (List.mem_of_getElem? hrun') hgranted' hheld'
  obtain rfl := inv.steady.inv.leases.eq_of_context hlease hlease'
    (by rw [hls, hls', hscope]) (by rw [hlc, hlc', hcontext])
  exact inv.distinct i j run run' hrun hrun' (.inr hgranted) (.inr hgranted') (href.symm.trans href')

theorem ConcurrentInvariant.granted_of_lost (inv : ConcurrentInvariant b limits s)
    (common : s.Common b) {run : CallerExecution} (hin : run ∈ s.executions)
    (h : run.Lost b) : run.granted = true :=
  inv.granted run hin (phase_of_spoils (common.sound run hin) (common.queued run hin) h)

/-! ## Steps that leave the leases alone -/

theorem ConcurrentInvariant.grants (inv : ConcurrentInvariant b limits s)
    {scheduler : CallerExecutionScheduler} (hsteady : scheduler.Steady limits)
    (h : s.scheduler.Grants scheduler) :
    ConcurrentInvariant b limits { s with scheduler := scheduler } where
  steady := hsteady
  reclaims := inv.reclaims
  distinct := inv.distinct
  fresh run hin hcounts := h.nextRef ▸ inv.fresh run hin hcounts
  tickets run hin hcounts scope context hticket :=
    inv.tickets run hin hcounts scope context (h.tickets _ _ _ hticket)
  granted := inv.granted
  asked run hin hwait := h.asked _ _ (inv.asked run hin hwait)
  leased run hin hgranted hheld := by
    obtain ⟨lease, hlease, href⟩ := inv.leased run hin hgranted hheld
    exact ⟨lease, h.active lease hlease, href⟩
  released lease hin := by
    obtain hin | hin := h.admitted lease hin
    · exact (inv.released lease hin).imp_left (h.active lease)
    · exact .inl hin
  failed := inv.failed
  barred := inv.barred

theorem ConcurrentInvariant.alike (inv : ConcurrentInvariant b limits s)
    (hscheduler : t.scheduler = s.scheduler) (hreclaims : t.reclaims = s.reclaims)
    (hback : ∀ (j : ℕ) (run' : CallerExecution), t.executions[j]? = some run' →
      ∃ run, s.executions[j]? = some run ∧ run.Alike run')
    (hforth : ∀ (j : ℕ) (run : CallerExecution), s.executions[j]? = some run →
      ∃ run', t.executions[j]? = some run' ∧ run.Alike run')
    (hentries : ∀ id, (t.entries.get? id).map
      (fun entry => (entry.quarantined, entry.failedContexts)) =
        (s.entries.get? id).map fun entry => (entry.quarantined, entry.failedContexts)) :
    ConcurrentInvariant b limits t := by
  have hmem {run' : CallerExecution} (hin : run' ∈ t.executions) :
      ∃ run ∈ s.executions, run.Alike run' := by
    obtain ⟨j, hj⟩ := List.mem_iff_getElem?.mp hin
    obtain ⟨run, hrun, halike⟩ := hback j run' hj
    exact ⟨run, List.mem_of_getElem? hrun, halike⟩
  constructor
  case steady => exact hscheduler ▸ inv.steady
  case reclaims => exact hreclaims.trans inv.reclaims
  case distinct =>
    intro i j run run' hi hj hcounts hcounts' href
    obtain ⟨before, hbefore, halike⟩ := hback i run hi
    obtain ⟨before', hbefore', halike'⟩ := hback j run' hj
    refine inv.distinct i j before before' hbefore hbefore' (halike.counts.mp hcounts)
      (halike'.counts.mp hcounts') ?_
    rw [← halike.ref, ← halike'.ref, href]
  case fresh =>
    intro run hin hcounts
    obtain ⟨before, hbefore, halike⟩ := hmem hin
    rw [halike.ref, hscheduler]
    exact inv.fresh before hbefore (halike.counts.mp hcounts)
  case tickets =>
    intro run hin hcounts scope context hticket
    obtain ⟨before, hbefore, halike⟩ := hmem hin
    rw [halike.ref, hscheduler] at hticket
    rw [halike.scope, halike.context]
    exact inv.tickets before hbefore (halike.counts.mp hcounts) scope context hticket
  case granted =>
    intro run hin hphase
    obtain ⟨before, hbefore, halike⟩ := hmem hin
    rw [halike.granted]
    exact inv.granted before hbefore (halike.phase ▸ hphase)
  case asked =>
    intro run hin hwait
    obtain ⟨before, hbefore, halike⟩ := hmem hin
    rw [halike.ref, halike.scope, halike.context, hscheduler]
    exact inv.asked before hbefore (halike.wait ▸ hwait)
  case leased =>
    intro run hin hgranted hheld
    obtain ⟨before, hbefore, halike⟩ := hmem hin
    rw [halike.ref, hscheduler]
    rw [halike.wait, halike.lost] at hheld
    exact inv.leased before hbefore (halike.granted ▸ hgranted) hheld
  case released =>
    intro lease hin
    rw [hscheduler] at hin ⊢
    refine (inv.released lease hin).imp_right ?_
    rintro ⟨run, hrun, hdone, hgranted, href⟩
    obtain ⟨j, hj⟩ := List.mem_iff_getElem?.mp hrun
    obtain ⟨run', hrun', halike⟩ := hforth j run hj
    exact ⟨run', List.mem_of_getElem? hrun', halike.wait.trans hdone, halike.granted.trans hgranted,
      halike.ref.trans href⟩
  case failed =>
    intro run hin hlost hwait entry hentry
    obtain ⟨before, hbefore, halike⟩ := hmem hin
    rw [halike.scope] at hentry
    have heq := hentries before.scope
    rw [hentry, Option.map_some, eq_comm, Option.map_eq_some_iff] at heq
    obtain ⟨old, hold, heq⟩ := heq
    rw [halike.context, ← (Prod.mk.inj heq).2]
    exact inv.failed before hbefore (halike.lost.mp hlost) (halike.wait ▸ hwait) old hold
  case barred =>
    intro run hin hfailed
    obtain ⟨before, hbefore, halike⟩ := hmem hin
    obtain ⟨old, hold, hquarantined⟩ := inv.barred before hbefore (halike.scopeCleanUpFailed.mp hfailed)
    have heq := hentries before.scope
    rw [hold, Option.map_some, Option.map_eq_some_iff] at heq
    obtain ⟨entry, hentry, heq⟩ := heq
    exact ⟨entry, halike.scope.symm ▸ hentry, (Prod.mk.inj heq).1.trans hquarantined⟩

theorem abortWaiter_grants (hb : b.concurrency = some limits) (run : CallerExecution)
    {scheduler : CallerExecutionScheduler} (h : scheduler.Steady limits) :
    (abortWaiter b run scheduler).Steady limits ∧ scheduler.Grants (abortWaiter b run scheduler) := by
  unfold abortWaiter
  rw [hb]
  exact ⟨h.abort _ _, CallerExecutionScheduler.grants_abort h.inv _ _⟩

theorem ConcurrentInvariant.quiet (inv : ConcurrentInvariant b limits s)
    (hb : b.concurrency = some limits) {run run' : CallerExecution}
    (hrun : s.executions[i]? = some run) (h : run.Quiet run') {scheduler : CallerExecutionScheduler}
    (hscheduler : scheduler = s.scheduler ∨ scheduler = abortWaiter b run s.scheduler) :
    ConcurrentInvariant b limits { s with
      executions := s.executions.set i run', scheduler } := by
  have hgrants : scheduler.Steady limits ∧ s.scheduler.Grants scheduler := by
    obtain rfl | rfl := hscheduler
    · exact ⟨inv.steady, .refl _⟩
    · exact abortWaiter_grants hb run inv.steady
  refine (inv.grants hgrants.1 hgrants.2).alike rfl rfl (fun j other hj => ?_) (fun j other hj => ?_)
    fun _ => rfl
  · rw [getElem?_set_of_some hrun] at hj
    split at hj
    · rename_i heq
      obtain rfl := Option.some.inj hj
      exact ⟨run, heq ▸ hrun, h.alike⟩
    · exact ⟨other, hj, .refl other⟩
  · rw [getElem?_set_of_some hrun]
    split
    · rename_i heq
      subst heq
      obtain rfl := Option.some.inj (hrun.symm.trans hj)
      exact ⟨run', rfl, h.alike⟩
    · exact ⟨other, hj, .refl other⟩

theorem ConcurrentInvariant.stop (inv : ConcurrentInvariant b limits s)
    (hb : b.concurrency = some limits) : ConcurrentInvariant b limits (s.stop b) := by
  let f (run : CallerExecution) : CallerExecution :=
    if run.isOver then run else { run with aborted := true }
  have halike (run : CallerExecution) : run.Alike (f run) := by
    unfold f
    split
    · exact .refl run
    · exact ⟨rfl, rfl, rfl, rfl, rfl, rfl, fun _ => rfl⟩
  have hfold (runs : List CallerExecution) {scheduler : CallerExecutionScheduler}
      (h : scheduler.Steady limits) :
      (runs.foldl (fun scheduler run =>
        if run.isOver then scheduler else abortWaiter b run scheduler) scheduler).Steady limits ∧
      scheduler.Grants (runs.foldl (fun scheduler run =>
        if run.isOver then scheduler else abortWaiter b run scheduler) scheduler) := by
    induction runs generalizing scheduler with
    | nil => exact ⟨h, .refl _⟩
    | cons run runs ih =>
        rw [List.foldl_cons]
        split
        · exact ih h
        · obtain ⟨hnext, hgrants⟩ := abortWaiter_grants hb run h
          obtain ⟨hlast, hrest⟩ := ih hnext
          exact ⟨hlast, hgrants.trans hrest⟩
  obtain ⟨hsteady, hgrants⟩ := hfold s.executions inv.steady
  have hruns : (s.stop b).executions = s.executions.map f := rfl
  refine (inv.grants hsteady hgrants).alike rfl rfl (fun j other hj => ?_) (fun j other hj => ?_)
    fun id => ?_
  · rw [hruns, List.getElem?_map, Option.map_eq_some_iff] at hj
    obtain ⟨run, hrun, rfl⟩ := hj
    exact ⟨run, hrun, halike run⟩
  · refine ⟨f other, ?_, halike other⟩
    rw [hruns, List.getElem?_map]
    exact congrArg (Option.map f) hj
  · rw [show (s.stop b).entries = s.entries.map ScopeEntry.cancelIdle from rfl,
      InsertionMap.get?_map, Option.map_map]
    rfl

theorem ConcurrentInvariant.refuse (inv : ConcurrentInvariant b limits s) (code message : String) :
    ConcurrentInvariant b limits (s.refuse code message) := by
  let new : CallerExecution := ({
    scope := "", context := "", forwarding := false, wait := .done } : CallerExecution).fail code
      message
  have hnone : ¬ new.Counts := by
    rintro (hwait | hgranted)
    · exact hwait rfl
    · cases hgranted
  have hlost : ¬ new.Lost b := by
    simp [Lost, CleanUpFailed, ScopeCleanUpFailed, new, CallerExecution.fail, CallerExecution.emit,
      CallerExecution.log]
  have hmem {run : CallerExecution} (hin : run ∈ (s.refuse code message).executions) :
      run ∈ s.executions ∨ run = new := (List.mem_append.mp hin).imp_right List.mem_singleton.mp
  constructor
  case steady => exact inv.steady
  case reclaims => exact inv.reclaims
  case distinct =>
    intro i j run run' hi hj hcounts hcounts' href
    obtain hi | ⟨-, rfl⟩ := getElem?_append_new.mp hi
    · obtain hj | ⟨-, rfl⟩ := getElem?_append_new.mp hj
      · exact inv.distinct i j run run' hi hj hcounts hcounts' href
      · exact absurd hcounts' hnone
    · exact absurd hcounts hnone
  case fresh =>
    intro run hin hcounts
    obtain hin | rfl := hmem hin
    · exact inv.fresh run hin hcounts
    · exact absurd hcounts hnone
  case tickets =>
    intro run hin hcounts
    obtain hin | rfl := hmem hin
    · exact inv.tickets run hin hcounts
    · exact absurd hcounts hnone
  case granted =>
    intro run hin hphase
    obtain hin | rfl := hmem hin
    · exact inv.granted run hin hphase
    · exact absurd rfl hphase
  case asked =>
    intro run hin hwait
    obtain hin | rfl := hmem hin
    · exact inv.asked run hin hwait
    · cases hwait
  case leased =>
    intro run hin hgranted
    obtain hin | rfl := hmem hin
    · exact inv.leased run hin hgranted
    · cases hgranted
  case released =>
    intro lease hin
    refine (inv.released lease hin).imp_right ?_
    rintro ⟨run, hrun, h⟩
    exact ⟨run, List.mem_append_left _ hrun, h⟩
  case failed =>
    intro run hin h
    obtain hin | rfl := hmem hin
    · exact inv.failed run hin h
    · exact absurd h hlost
  case barred =>
    intro run hin h
    obtain hin | rfl := hmem hin
    · exact inv.barred run hin h
    · exact absurd (.inr h) hlost

theorem ConcurrentInvariant.admitRun (inv : ConcurrentInvariant b limits s)
    (hb : b.concurrency = some limits) (common : s.Common b) {id : String} (context : String)
    {entry : ScopeEntry}
    (hentry : s.entries.get? id = some entry ∨ s.entries.get? id = none ∧ entry = {}) :
    ConcurrentInvariant b limits (s.admitRun b id context entry) := by
  let new : CallerExecution := { scope := id, context, ref := s.scheduler.nextRef }
  let entered : ScopeEntry := { entry with users := entry.users + 1 }
  have henters := CallerExecutionScheduler.enters_acquire inv.steady.inv id context false
  have hsteady := inv.steady.acquire id context false
  have hunspoiled : ¬ new.Lost b := by
    simp [Lost, CleanUpFailed, ScopeCleanUpFailed, new, isOver]
  have hkept (id' : String) {old : ScopeEntry} (hold : s.entries.get? id' = some old) :
      ∃ after, (s.entries.set id entered).get? id' = some after ∧
        after.quarantined = old.quarantined ∧ after.failedContexts = old.failedContexts := by
    rw [InsertionMap.get?_set]
    split
    · rename_i heq
      subst heq
      obtain hentry | ⟨hnone, -⟩ := hentry
      · obtain rfl := Option.some.inj (hentry.symm.trans hold)
        exact ⟨entered, rfl, rfl, rfl⟩
      · simp [hnone] at hold
    · exact ⟨old, hold, rfl, rfl⟩
  have heq : s.admitRun b id context entry = { s with
      entries := s.entries.set id entered
      scheduler := s.scheduler.acquire limits id context false
      executions := s.executions ++ [new] } := by
    unfold CallerScopedBackend.admitRun
    rw [hb]
  rw [heq]
  have hmem {run : CallerExecution} (hin : run ∈ s.executions ++ [new]) :
      run ∈ s.executions ∨ run = new := (List.mem_append.mp hin).imp_right List.mem_singleton.mp
  constructor
  case steady => exact hsteady
  case reclaims => exact inv.reclaims
  case distinct =>
    intro i j run run' hi hj hcounts hcounts' href
    obtain hi | ⟨rfl, rfl⟩ := getElem?_append_new.mp hi
    · obtain hj | ⟨-, rfl⟩ := getElem?_append_new.mp hj
      · exact inv.distinct i j run run' hi hj hcounts hcounts' href
      · exact absurd href (Nat.ne_of_lt (inv.fresh run (List.mem_of_getElem? hi) hcounts))
    · obtain hj | ⟨rfl, -⟩ := getElem?_append_new.mp hj
      · exact absurd href.symm (Nat.ne_of_lt (inv.fresh run' (List.mem_of_getElem? hj) hcounts'))
      · rfl
  case fresh =>
    intro run hin hcounts
    dsimp only
    rw [henters.nextRef]
    obtain hin | rfl := hmem hin
    · exact Nat.lt_succ_of_lt (inv.fresh run hin hcounts)
    · exact Nat.lt_succ_self _
  case tickets =>
    intro run hin hcounts scope' context' hticket
    obtain hold | ⟨href, rfl, rfl⟩ := henters.tickets _ _ _ hticket
    · obtain hin | rfl := hmem hin
      · exact inv.tickets run hin hcounts scope' context' hold
      · exact absurd (hold.fresh inv.steady.inv.queues) (Nat.lt_irrefl _)
    · obtain hin | rfl := hmem hin
      · exact absurd href (Nat.ne_of_lt (inv.fresh run hin hcounts))
      · exact ⟨rfl, rfl⟩
  case granted =>
    intro run hin hphase
    obtain hin | rfl := hmem hin
    · exact inv.granted run hin hphase
    · exact absurd rfl hphase
  case asked =>
    intro run hin hwait
    obtain hin | rfl := hmem hin
    · exact henters.asked _ _ (inv.asked run hin hwait)
    · exact henters.mine
  case leased =>
    intro run hin hgranted hheld
    obtain hin | rfl := hmem hin
    · obtain ⟨lease, hlease, href⟩ := inv.leased run hin hgranted hheld
      exact ⟨lease, henters.active lease hlease, href⟩
    · cases hgranted
  case released =>
    intro lease hin
    obtain hin | hin := henters.admitted lease hin
    · refine (inv.released lease hin).imp (henters.active lease) ?_
      rintro ⟨run, hrun, h⟩
      exact ⟨run, List.mem_append_left _ hrun, h⟩
    · exact .inl hin
  case failed =>
    intro run hin hlost hwait after hafter
    obtain hin | rfl := hmem hin
    · have hdone : run.wait ≠ .done := by simp [hwait]
      obtain ⟨i, hrun⟩ := List.mem_iff_getElem?.mp hin
      obtain ⟨old, hold⟩ := common.present hrun hdone
      obtain ⟨after', hafter', -, hfailed⟩ := hkept run.scope hold
      obtain rfl := Option.some.inj (hafter.symm.trans hafter')
      exact hfailed ▸ inv.failed run hin hlost hwait old hold
    · exact absurd hlost hunspoiled
  case barred =>
    intro run hin hfailed
    obtain hin | rfl := hmem hin
    · obtain ⟨old, hold, hquarantined⟩ := inv.barred run hin hfailed
      obtain ⟨after, hafter, hsame, -⟩ := hkept run.scope hold
      exact ⟨after, hafter, hsame.trans hquarantined⟩
    · exact absurd (.inr hfailed) hunspoiled

/-! ## Steps of one run -/

theorem ConcurrentInvariant.distinct_set (inv : ConcurrentInvariant b limits s)
    {run new : CallerExecution} (hrun : s.executions[i]? = some run) (hlive : run.wait ≠ .done)
    (href : new.ref = run.ref) (j k : ℕ) (other other' : CallerExecution)
    (hj : (s.executions.set i new)[j]? = some other)
    (hk : (s.executions.set i new)[k]? = some other') (hcounts : other.Counts)
    (hcounts' : other'.Counts) (heq : other.ref = other'.ref) : j = k := by
  have hback {j : ℕ} {other : CallerExecution} (hj : (s.executions.set i new)[j]? = some other)
      (hcounts : other.Counts) :
      ∃ before, s.executions[j]? = some before ∧ before.Counts ∧ before.ref = other.ref := by
    rw [getElem?_set_of_some hrun] at hj
    split at hj
    · rename_i heq
      obtain rfl := Option.some.inj hj
      exact ⟨run, heq ▸ hrun, .inl hlive, href.symm⟩
    · exact ⟨other, hj, hcounts, rfl⟩
  obtain ⟨before, hbefore, hcounts, href⟩ := hback hj hcounts
  obtain ⟨before', hbefore', hcounts', href'⟩ := hback hk hcounts'
  exact inv.distinct j k before before' hbefore hbefore' hcounts hcounts' (by rw [href, href', heq])

theorem ConcurrentInvariant.turned (inv : ConcurrentInvariant b limits s)
    (hb : b.concurrency = some limits) {run : CallerExecution} {entry : ScopeEntry}
    {event : ExecutionEvent} {after : Turn} (hrun : s.executions[i]? = some run)
    (hentry : s.entries.get? run.scope = some entry) (hwait : run.wait = event.wait)
    (hadmissible : s.admissible b i run event) (h : Turn.Spec b event ⟨run, entry⟩ after) :
    ConcurrentInvariant b limits { s with
      executions := s.executions.set i after.run
      entries := s.entries.set run.scope after.entry } := by
  have hin := List.mem_of_getElem? hrun
  have hconcurrent : b.concurrency.isNone = false := by rw [hb]; rfl
  have hsome : b.concurrency.isSome = true := by rw [hb]; rfl
  have hscope : after.run.scope = run.scope := h.keeps.scope
  have hcontext : after.run.context = run.context := h.keeps.context
  have href : after.run.ref = run.ref := h.keeps.ref
  have hlive : run.wait ≠ .done := by
    rw [hwait]
    cases event <;> nofun
  have hget (j : ℕ) : (s.executions.set i after.run)[j]? =
      if i = j then some after.run else s.executions[j]? := getElem?_set_of_some hrun _ j
  have hmem {other : CallerExecution} (hin : other ∈ s.executions.set i after.run) :
      other ∈ s.executions ∨ other = after.run := List.mem_or_eq_of_mem_set hin
  have hkept (id : String) {old : ScopeEntry} (hold : s.entries.get? id = some old) :
      ∃ new, (s.entries.set run.scope after.entry).get? id = some new ∧
        (old.quarantined = true → new.quarantined = true) ∧
        ∀ context ∈ old.failedContexts, context ∈ new.failedContexts := by
    rw [InsertionMap.get?_set]
    split
    · rename_i heq
      subst heq
      obtain rfl := Option.some.inj (hentry.symm.trans hold)
      exact ⟨after.entry, rfl, h.keeps.quarantined, h.keeps.failed⟩
    · exact ⟨old, hold, fun h => h, fun _ h => h⟩
  have hafter : (s.entries.set run.scope after.entry).get? run.scope = some after.entry :=
    InsertionMap.get?_set_self _ _ _
  -- The lease that the scheduler has admitted is still there: nobody else had its reference.
  have hleased (hgranted : after.run.granted = true) :
      ∃ lease ∈ s.scheduler.active, lease.ref = run.ref := by
    obtain hbefore | rfl := h.grants hgranted
    · exact inv.leased run hin hbefore (.inl hlive)
    · simp only [admissible, hconcurrent, Bool.false_eq_true, if_false] at hadmissible
      obtain ⟨lease, hlease, hticket⟩ := hadmissible
      obtain hactive | ⟨other, hother, hdone, hgranted', href'⟩ := inv.released lease hlease
      · exact ⟨lease, hactive, hticket⟩
      · obtain ⟨j, hj⟩ := List.mem_iff_getElem?.mp hother
        obtain rfl := inv.distinct i j run other hrun hj (.inl hlive) (.inr hgranted')
          (hticket.symm.trans href'.symm)
        obtain rfl := Option.some.inj (hrun.symm.trans hj)
        exact absurd hdone hlive
  constructor
  case steady => exact inv.steady
  case reclaims => exact inv.reclaims
  case distinct => exact inv.distinct_set hrun hlive href
  case fresh =>
    intro other hother hcounts
    obtain hother | rfl := hmem hother
    · exact inv.fresh other hother hcounts
    · exact href ▸ inv.fresh run hin (.inl hlive)
  case tickets =>
    intro other hother hcounts scope context hticket
    obtain hother | rfl := hmem hother
    · exact inv.tickets other hother hcounts scope context hticket
    · rw [hscope, hcontext]
      exact inv.tickets run hin (.inl hlive) scope context (href ▸ hticket)
  case granted =>
    intro other hother hphase
    obtain hother | rfl := hmem hother
    · exact inv.granted other hother hphase
    · by_cases hbefore : run.phase = .queue
      · exact ((h.enters hbefore hphase).2.2 hsome).1
      · exact h.granted (inv.granted run hin hbefore)
  case asked =>
    intro other hother hqueue
    obtain hother | rfl := hmem hother
    · exact inv.asked other hother hqueue
    · exact absurd hqueue h.left
  case leased =>
    intro other hother hgranted hheld
    obtain hother | rfl := hmem hother
    · exact inv.leased other hother hgranted hheld
    · rw [href]
      exact hleased hgranted
  case released =>
    intro lease hlease
    refine (inv.released lease hlease).imp_right ?_
    rintro ⟨other, hother, hdone, hgranted⟩
    obtain ⟨j, hj⟩ := List.mem_iff_getElem?.mp hother
    have hne : i ≠ j := by
      rintro rfl
      obtain rfl := Option.some.inj (hrun.symm.trans hj)
      exact hlive hdone
    refine ⟨other, List.mem_of_getElem? (i := j) ?_, hdone, hgranted⟩
    rw [hget, if_neg hne]
    exact hj
  case failed =>
    intro other hother hlost hslot new hnew
    obtain hother | rfl := hmem hother
    · have hdone : other.wait ≠ .done := by simp [hslot]
      cases hold : s.entries.get? other.scope with
      | none =>
          rw [InsertionMap.get?_set] at hnew
          split at hnew
          · rename_i heq
            rw [← heq, hentry] at hold
            cases hold
          · simp [hold] at hnew
      | some old =>
          obtain ⟨new', hnew', -, hfailed⟩ := hkept other.scope hold
          obtain rfl := Option.some.inj (hnew.symm.trans hnew')
          exact hfailed _ (inv.failed other hother hlost hslot old hold)
    · rw [hscope, hafter] at hnew
      obtain rfl := Option.some.inj hnew
      obtain hcontainer | hstorage := hlost
      · simpa [hconcurrent] using h.contained.container hcontainer
      · exact (h.contained.scope hstorage).2 hsome
  case barred =>
    intro other hother hfailed
    obtain hother | rfl := hmem hother
    · obtain ⟨old, hold, hquarantined⟩ := inv.barred other hother hfailed
      obtain ⟨new, hnew, hkeeps, -⟩ := hkept other.scope hold
      exact ⟨new, hnew, hkeeps hquarantined⟩
    · exact ⟨after.entry, hscope ▸ hafter, (h.contained.scope hfailed).1⟩

theorem ConcurrentInvariant.release (inv : ConcurrentInvariant b limits s)
    (hb : b.concurrency = some limits) {run : CallerExecution} {entry : ScopeEntry}
    (hrun : s.executions[i]? = some run) (hentry : s.entries.get? run.scope = some entry)
    (hwait : run.wait = .slot) : ConcurrentInvariant b limits (s.release b i) := by
  let done : CallerExecution := { run with wait := .done }
  let left : ScopeEntry := { entry with users := entry.users - 1, tail := entry.tail.tail }
  let scheduler := if run.granted ∧ run.context ∉ entry.failedContexts then
      s.scheduler.release limits run.ref else s.scheduler
  have heq : s.release b i = { s with
      executions := s.executions.set i done
      entries := s.leaveEntry b run.scope left
      scheduler } := by
    rw [release_eq hrun hentry]
    simp only [hb, Option.isNone_some, Bool.false_eq_true, if_false]
    rfl
  rw [heq]
  have hin := List.mem_of_getElem? hrun
  have hlive : run.wait ≠ .done := by simp [hwait]
  have hlost : done.Lost b ↔ run.Lost b := by
    have hover : run.isOver = true := by simp [isOver, hwait]
    have hend : done.isOver = true := rfl
    unfold Lost CleanUpFailed ScopeCleanUpFailed
    rw [hover, hend]
  have hget (j : ℕ) : (s.executions.set i done)[j]? =
      if i = j then some done else s.executions[j]? := getElem?_set_of_some hrun _ j
  have hmem {other : CallerExecution} (hin : other ∈ s.executions.set i done) :
      other ∈ s.executions ∨ other = done := List.mem_or_eq_of_mem_set hin
  have hleft (id : String) {new : ScopeEntry}
      (hnew : (s.leaveEntry b run.scope left).get? id = some new) :
      ∃ old, s.entries.get? id = some old ∧ new.failedContexts = old.failedContexts := by
    by_cases hid : run.scope = id
    · subst hid
      obtain ⟨hnone, -⟩ | ⟨after, hafter, -, -, hfailed⟩ := s.get?_leaveEntry (b := b) run.scope left
      · simp [hnone] at hnew
      · obtain rfl := Option.some.inj (hnew.symm.trans hafter)
        exact ⟨entry, hentry, hfailed⟩
    · rw [get?_leaveEntry_of_ne s left hid] at hnew
      exact ⟨new, hnew, rfl⟩
  obtain ⟨hactive, hadmitted, hkept, htickets, hasked, hnextRef⟩ :
      (∀ lease ∈ s.scheduler.active, lease.ref ≠ run.ref ∨
        run.granted = false ∨ run.context ∈ entry.failedContexts → lease ∈ scheduler.active) ∧
      (∀ lease ∈ scheduler.admitted, lease ∈ s.scheduler.admitted ∨ lease ∈ scheduler.active) ∧
      (∀ lease ∈ s.scheduler.active, lease ∉ scheduler.active → run.granted = true ∧
        lease.ref = run.ref) ∧
      (∀ ref scope context, scheduler.Ticket ref scope context →
        s.scheduler.Ticket ref scope context) ∧
      (∀ scope w, s.scheduler.Asked scope w → scheduler.Asked scope w) ∧
      scheduler.nextRef = s.scheduler.nextRef := by
    obtain ⟨hactive, hadmitted, -, htickets, hasked, hnextRef⟩ :=
      CallerExecutionScheduler.release_keeps inv.steady.inv run.ref
    unfold scheduler
    split
    · rename_i hrelease
      refine ⟨fun lease hin hne => hactive lease hin ?_, hadmitted, fun lease hin hgone => ?_,
        htickets, hasked, hnextRef⟩
      · obtain hne | hnone | hfailed := hne
        · exact hne
        · simp [hrelease.1] at hnone
        · exact absurd hfailed hrelease.2
      · exact ⟨hrelease.1, by_contra fun hne => hgone (hactive lease hin hne)⟩
    · exact ⟨fun _ hin _ => hin, fun _ => .inl, fun _ hin hgone => absurd hin hgone,
        fun _ _ _ => id, fun _ _ => id, rfl⟩
  constructor
  case steady =>
    change scheduler.Steady limits
    unfold scheduler
    split
    · exact inv.steady.release run.ref
    · exact inv.steady
  case reclaims => exact inv.reclaims
  case distinct => exact inv.distinct_set hrun hlive rfl
  case fresh =>
    intro other hother hcounts
    dsimp only
    rw [hnextRef]
    obtain hother | rfl := hmem hother
    · exact inv.fresh other hother hcounts
    · exact inv.fresh run hin (.inl hlive)
  case tickets =>
    intro other hother hcounts scope context hticket
    obtain hother | rfl := hmem hother
    · exact inv.tickets other hother hcounts scope context (htickets _ _ _ hticket)
    · exact inv.tickets run hin (.inl hlive) scope context (htickets _ _ _ hticket)
  case granted =>
    intro other hother hphase
    obtain hother | rfl := hmem hother
    · exact inv.granted other hother hphase
    · exact inv.granted run hin hphase
  case asked =>
    intro other hother hqueue
    obtain hother | rfl := hmem hother
    · exact hasked _ _ (inv.asked other hother hqueue)
    · cases hqueue
  case leased =>
    intro other hother hgranted hheld
    obtain ⟨j, hj⟩ := List.mem_iff_getElem?.mp hother
    rw [hget] at hj
    split at hj
    · obtain rfl := Option.some.inj hj
      have hfailed : run.Lost b := hlost.mp (hheld.resolve_left fun hne => hne rfl)
      obtain ⟨lease, hlease, href⟩ := inv.leased run hin hgranted (.inr hfailed)
      exact ⟨lease, hactive lease hlease (.inr (.inr (inv.failed run hin hfailed hwait entry hentry))),
        href⟩
    · rename_i hne
      obtain ⟨lease, hlease, href⟩ := inv.leased other (List.mem_of_getElem? hj) hgranted hheld
      refine ⟨lease, hactive lease hlease (.inl fun hsame => hne ?_), href⟩
      exact inv.distinct i j run other hrun hj (.inl hlive) (.inr hgranted) (hsame.symm.trans href)
  case released =>
    intro lease hlease
    have hforth {other : CallerExecution} (hother : other ∈ s.executions)
        (hdone : other.wait = .done) : other ∈ s.executions.set i done := by
      obtain ⟨j, hj⟩ := List.mem_iff_getElem?.mp hother
      have hne : i ≠ j := by
        rintro rfl
        obtain rfl := Option.some.inj (hrun.symm.trans hj)
        exact hlive hdone
      refine List.mem_of_getElem? (i := j) ?_
      rw [hget, if_neg hne]
      exact hj
    obtain hbefore | hnow := hadmitted lease hlease
    · obtain hold | ⟨other, hother, hdone, hgranted⟩ := inv.released lease hbefore
      · by_cases hstill : lease ∈ scheduler.active
        · exact .inl hstill
        · obtain ⟨hgranted, href⟩ := hkept lease hold hstill
          refine .inr ⟨done, List.mem_of_getElem? (i := i) ?_, rfl, hgranted, href.symm⟩
          rw [hget, if_pos rfl]
      · exact .inr ⟨other, hforth hother hdone, hdone, hgranted⟩
    · exact .inl hnow
  case failed =>
    intro other hother hfailed hslot new hnew
    obtain hother | rfl := hmem hother
    · obtain ⟨old, hold, hsame⟩ := hleft other.scope hnew
      exact hsame ▸ inv.failed other hother hfailed hslot old hold
    · cases hslot
  case barred =>
    intro other hother hfailed
    have hbefore : ∃ old, s.entries.get? other.scope = some old ∧ old.quarantined = true := by
      obtain hother | rfl := hmem hother
      · exact inv.barred other hother hfailed
      · refine inv.barred run hin ?_
        have hover : run.isOver = true := by simp [isOver, hwait]
        exact ⟨hover, hfailed.2⟩
    obtain ⟨old, hold, hquarantined⟩ := hbefore
    by_cases hid : run.scope = other.scope
    · rw [← hid, hentry] at hold
      obtain rfl := Option.some.inj hold
      obtain ⟨-, hopen⟩ | ⟨after, hafter, -, hsame, -⟩ :=
        s.get?_leaveEntry (b := b) run.scope left
      · simp [left, hquarantined] at hopen
      · exact ⟨after, hid ▸ hafter, hsame.trans hquarantined⟩
    · exact ⟨old, (get?_leaveEntry_of_ne s left hid).trans hold, hquarantined⟩

theorem ConcurrentInvariant.changes (inv : ConcurrentInvariant b limits s) (common : s.Common b)
    (hb : b.concurrency = some limits) (h : Changes b s t) : ConcurrentInvariant b limits t := by
  cases h with
  | same => exact inv
  | refused code message => exact inv.refuse code message
  | admitted id context entry hentry _ => exact inv.admitRun hb common context hentry
  | quiet i run run' hrun h scheduler hscheduler => exact inv.quiet hb hrun h hscheduler
  | turned i run entry event after hrun hentry hwait hadmissible h =>
      exact inv.turned hb hrun hentry hwait hadmissible h
  | released i run entry hrun hentry hwait _ => exact inv.release hb hrun hentry hwait
  | idled id entry generation hserial _ _ => simp [hb] at hserial
  | reclaimed k work entry event hwork _ _ _ => simp [inv.reclaims] at hwork
  | stopped => exact inv.stop hb

theorem concurrentInvariant_initializeScopes (b : CallerBackendOptions) (limits : SchedulerLimits)
    (ids : List String) : ConcurrentInvariant b limits (initializeScopes ids) where
  steady := CallerExecutionScheduler.steady_init limits
  reclaims := rfl
  released := by simp [initializeScopes]
  distinct := by simp [initializeScopes]
  fresh := by simp [initializeScopes]
  tickets := by simp [initializeScopes]
  granted := by simp [initializeScopes]
  asked := by simp [initializeScopes]
  leased := by simp [initializeScopes]
  failed := by simp [initializeScopes]
  barred := by simp [initializeScopes]

end CallerScopedBackend

end VicoopBridge
