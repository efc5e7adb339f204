import Mathlib.Data.Finset.Card
import VicoopBridge.Verification.CallerScopedBackend.Progress

/-! # One terminal frame for every task

While the worker of a failed run lets itself be stopped and closed, every task is answered once, and
what could not be cleaned up is out of use. -/

namespace VicoopBridge

open Library

namespace CallerScopedBackend

open CallerExecution

variable {b : CallerBackendOptions} {s t : CallerScopedBackend} {i : ℕ} {run : CallerExecution}

structure Whole (b : CallerBackendOptions) (s : CallerScopedBackend) : Prop where
  common : s.Common b
  fit : s.Fit b
  serial : b.concurrency = none → SerialInvariant b s
  concurrent : ∀ limits, b.concurrency = some limits → ConcurrentInvariant b limits s

/-- The runs in which no worker throws while it is cleaned up. -/
def yieldingSystem (b : CallerBackendOptions) : System CallerScopedBackend BackendEvent :=
  (callerSystem b).restrict (cleanUpYields b)

theorem Whole.step (h : s.Whole b) {a : BackendEvent} (hstep : (yieldingSystem b).step s a t) :
    Changes b s t ∧ t.Whole b := by
  obtain ⟨hyield, henabled, rfl⟩ := hstep
  have hchanges := changes_of_step h.common hyield henabled
  exact ⟨hchanges, h.common.changes hchanges, h.fit.step henabled,
    fun hb => (h.serial hb).changes h.common hb hchanges,
    fun limits hb => (h.concurrent limits hb).changes h.common hb hchanges⟩

theorem whole_of_reachable (h : (yieldingSystem b).Reachable s) : s.Whole b := by
  refine h.invariant ?_ fun s a t hs hstep => (hs.step hstep).2
  rintro s ⟨ids, rfl⟩
  exact ⟨common_initializeScopes b ids, by simp [Fit, initializeScopes],
    fun _ => serialInvariant_initializeScopes b ids,
    fun limits _ => concurrentInvariant_initializeScopes b limits ids⟩

/-! ## Every task is answered -/

/-- Without another task or another failure the run can be brought to its end. -/
def Ends (b : CallerBackendOptions) (s : CallerScopedBackend) (i : ℕ) : Prop :=
  ∃ labels t run, (yieldingSystem b).Run s labels t ∧ t.executions[i]? = some run ∧
    run.isOver = true

theorem Ends.of_step {a : BackendEvent} (hstep : (yieldingSystem b).step s a t)
    (h : t.Ends b i) : s.Ends b i := by
  obtain ⟨labels, u, run, hrun, hlast⟩ := h
  exact ⟨a :: labels, u, run, hrun.cons hstep, hlast⟩

theorem getElem?_update (hrun : s.executions[i]? = some run) (f : CallerExecution → CallerExecution) :
    (s.update i f).executions[i]? = some (f run) := by
  rw [update, modify_eq_set_of_some hrun]
  exact (getElem?_set_of_some hrun _ i).trans (if_pos rfl)

theorem exists_step_of_turn (h : s.Whole b) (hrun : s.executions[i]? = some run)
    {event : ExecutionEvent} (hwait : run.wait = event.wait) (hreserved : event ≠ .reserved)
    (hadmissible : s.admissible b i run event) (hyield : s.cleanUpYields b (.turn i event)) :
    ∃ t run', (yieldingSystem b).step s (.turn i event) t ∧ t.executions[i]? = some run' ∧
      run'.wait.rank < run.wait.rank := by
  have hlive : run.wait ≠ .done := by
    rw [hwait]
    cases event <;> nofun
  obtain ⟨entry, hentry⟩ := h.common.present hrun hlive
  have hnears := nears_turn (s := s) (h.fit run (List.mem_of_getElem? hrun)) entry hwait hreserved
  refine ⟨_, _, ⟨hyield, ⟨run, hrun, hwait, hadmissible⟩, rfl⟩, ?_, hnears.rank⟩
  simp only [apply]
  rw [takeTurn_eq hrun hentry]
  exact (getElem?_set_of_some hrun _ i).trans (if_pos rfl)

/-- When the signal fires in the queue, the run is out of it. -/
theorem exists_refusal (h : s.Whole b) (hrun : s.executions[i]? = some run)
    (hqueue : run.wait = .queue) :
    ∃ t run' event, (yieldingSystem b).step s (.abort i false) t ∧ t.executions[i]? = some run' ∧
      run'.wait = .queue ∧ event.wait = .queue ∧ event ≠ .reserved ∧
      t.admissible b i run' event ∧ t.cleanUpYields b (.turn i event) := by
  have hin := List.mem_of_getElem? hrun
  let run' : CallerExecution := { run with aborted := true, timedOut := run.timedOut || false }
  have hstep : (yieldingSystem b).step s (.abort i false) (s.abort b i false) :=
    ⟨trivial, ⟨run, hrun, by simp [isOver, hqueue]⟩, rfl⟩
  have habort : s.abort b i false = { s.update i fun run =>
      { run with aborted := true, timedOut := run.timedOut || false } with
        scheduler := abortWaiter b run s.scheduler } := by
    unfold CallerScopedBackend.abort
    rw [hrun]
  have hrun' : (s.abort b i false).executions[i]? = some run' := by
    rw [habort]
    exact getElem?_update hrun _
  cases hb : b.concurrency with
  | none =>
      refine ⟨_, run', .refused .other, hstep, hrun', hqueue, rfl, (by simp), ?_, trivial⟩
      simp [admissible, hb, run']
  | some limits =>
      have hinv := h.concurrent limits hb
      have hsettled : run.ref ∈ (s.abort b i false).scheduler.settled := by
        rw [habort]
        simp only [abortWaiter, hb]
        exact CallerExecutionScheduler.settled_abort (w := ⟨run.ref, run.context⟩)
          hinv.steady.inv (hinv.asked run hin hqueue)
      obtain hadmitted | hrejected := List.mem_append.mp hsettled
      · obtain ⟨lease, hlease, href⟩ := List.mem_map.mp hadmitted
        refine ⟨_, run', .leaveQueue, hstep, hrun', hqueue, rfl, (by simp), ?_, trivial⟩
        simp only [admissible, hb, Option.isNone_some, Bool.false_eq_true, if_false]
        exact ⟨lease, hlease, href⟩
      · obtain ⟨⟨ref, rejection⟩, hrejection, rfl⟩ := List.mem_map.mp hrejected
        have hrefused (error : CallerRuntimeError)
            (h : (s.abort b i false).refusedAs run'.ref error) :
            (s.abort b i false).admissible b i run' (.refused error) := by
          simp only [admissible, hb, Option.isNone_some, Bool.false_eq_true, if_false]
          exact h
        cases rejection with
        | executionAborted =>
            exact ⟨_, run', .refused .other, hstep, hrun', hqueue, rfl, (by simp),
              hrefused .other (.inl ⟨hrejection, rfl⟩), trivial⟩
        | callerQueueFull =>
            exact ⟨_, run', .refused .queueFull, hstep, hrun', hqueue, rfl, (by simp),
              hrefused .queueFull (.inr ⟨hrejection, rfl⟩), trivial⟩

theorem ends_of_whole (h : s.Whole b) (hrun : s.executions[i]? = some run) : s.Ends b i := by
  induction hn : run.wait.rank using Nat.strong_induction_on generalizing s run with
  | _ n ih =>
      subst hn
      -- A turn of the run that is due leads to a run that is nearer to its end.
      have hgo {s : CallerScopedBackend} {other : CallerExecution} (h : s.Whole b)
          (hrun : s.executions[i]? = some other) (hrank : other.wait = run.wait)
          {event : ExecutionEvent} (hwait : other.wait = event.wait) (hreserved : event ≠ .reserved)
          (hadmissible : s.admissible b i other event)
          (hyield : s.cleanUpYields b (.turn i event)) : s.Ends b i := by
        obtain ⟨t, run', hstep, hrun', hlt⟩ :=
          exists_step_of_turn h hrun hwait hreserved hadmissible hyield
        exact .of_step hstep (ih _ (hrank ▸ hlt) (h.step hstep).2 hrun' rfl)
      by_cases hover : run.isOver = true
      · exact ⟨[], s, run, .nil s, hrun, hover⟩
      have hlive : run.isOver = false := by simpa using hover
      by_cases hqueue : run.wait = .queue
      · obtain ⟨t, run', event, hstep, hrun', hwait, hevent, hreserved, hadmissible, hyield⟩ :=
          exists_refusal h hrun hqueue
        exact .of_step hstep (hgo (h.step hstep).2 hrun' (hwait.trans hqueue.symm)
          (hwait.trans hevent.symm) hreserved hadmissible hyield)
      · by_cases hcheck : run.storageCheck = true
        · let after : CallerExecution := { run with storageCheck := false }
          have hstep : (yieldingSystem b).step s (.storageChecked i none)
              (s.apply b (.storageChecked i none)) := ⟨trivial, ⟨run, hrun, hcheck⟩, rfl⟩
          have hafter : (s.apply b (.storageChecked i none)).executions[i]? = some after :=
            getElem?_update hrun _
          have hwhole := (h.step hstep).2
          obtain ⟨event, hreserved, hwait, hadmissible, hyield⟩ :=
            exists_turn (s.apply b (.storageChecked i none)) i
              (hwhole.fit after (List.mem_of_getElem? hafter)) hlive hqueue rfl
          exact .of_step hstep (hgo hwhole hafter rfl hwait hreserved hadmissible hyield)
        · obtain ⟨event, hreserved, hwait, hadmissible, hyield⟩ :=
            exists_turn s i (h.fit run (List.mem_of_getElem? hrun)) hlive hqueue
              (by simpa using hcheck)
          exact hgo h hrun rfl hwait hreserved hadmissible hyield

/-! ## What could not be cleaned up -/

/-- The run bars its whole scope. -/
def BarsScope (b : CallerBackendOptions) (run : CallerExecution) : Prop :=
  run.ScopeCleanUpFailed b ∨ b.concurrency = none ∧ run.CleanUpFailed

/-- Nobody uses the scope, or nobody will in another run, and its entry stays. -/
structure ScopeBarred (b : CallerBackendOptions) (s : CallerScopedBackend) (id : String) : Prop where
  kept : ∃ entry, s.entries.get? id = some entry ∧ entry.quarantined = true
  unused : b.concurrency = none → ∀ run ∈ s.executions, run.scope = id → ¬ run.inUse

/-- Nobody uses the context, and its lease stays. -/
structure ContextBarred (s : CallerScopedBackend) (id context : String) : Prop where
  kept : ∃ lease ∈ s.scheduler.active, lease.scope = id ∧ lease.context = context
  unused : ∀ run ∈ s.executions, run.scope = id → run.context = context → ¬ run.inUse

structure Contract (b : CallerBackendOptions) (s : CallerScopedBackend) : Prop where
  terminal : ∀ run ∈ s.executions, run.TerminalSpec
  ends : ∀ (i : ℕ) (run : CallerExecution), s.executions[i]? = some run → s.Ends b i
  pending : s.pending = if b.concurrency.isNone then (waiters s.executions : ℤ) else 0
  users : ∀ id, usersOf s.entries id = holders s.executions id
  scopes : ∀ run ∈ s.executions, BarsScope b run → s.ScopeBarred b run.scope
  reclaims : ∀ work ∈ s.reclaims, work.Spoils → s.ScopeBarred b work.scope
  contexts : b.concurrency ≠ none → ∀ run ∈ s.executions, run.Lost b →
    s.ContextBarred run.scope run.context

/-- A run that begins to use a container finds nothing of a failed one. -/
def EntersClean (b : CallerBackendOptions) (s t : CallerScopedBackend) : Prop :=
  ∀ (i : ℕ) (run : CallerExecution), t.executions[i]? = some run → run.inUse →
    (∃ before, s.executions[i]? = some before ∧ before.inUse) ∨
      (∀ lost ∈ s.executions, lost.scope = run.scope → ¬ BarsScope b lost ∧
        (lost.context = run.context → ¬ lost.Lost b)) ∧
      ∀ work ∈ s.reclaims, work.scope = run.scope → ¬ work.Spoils

theorem BarsScope.lost (h : BarsScope b run) : run.Lost b :=
  h.elim .inr fun h => .inl h.2

theorem not_inUse_of_lost (h : run.Lost b) : ¬ run.inUse := by
  rintro ⟨-, hlive⟩
  have hover : run.isOver = true := h.elim (fun h => h.1) fun h => h.1
  simp [hlive] at hover

theorem SerialInvariant.barred (inv : SerialInvariant b s) {id : String} (h : Spoiled b s id) :
    s.ScopeBarred b id := by
  obtain ⟨entry, hentry, hquarantined, hnone⟩ := (inv id).barred h
  refine ⟨⟨entry, hentry, hquarantined⟩, fun _ run hin hscope huse => ?_⟩
  obtain ⟨i, hi⟩ := List.mem_iff_getElem?.mp hin
  exact hnone i ⟨run, hi, hscope, huse⟩

theorem contract_of_whole (h : s.Whole b) : s.Contract b where
  terminal run hin := (h.common.sound run hin).spec
  ends i run hrun := ends_of_whole h hrun
  pending := h.common.pending
  users := h.common.users
  scopes run hin hbars := by
    cases hb : b.concurrency with
    | none => exact (h.serial hb).barred (.inl ⟨run, hin, rfl, hbars.lost⟩)
    | some limits =>
        obtain hfailed | ⟨hnone, -⟩ := hbars
        · exact ⟨(h.concurrent limits hb).barred run hin hfailed, fun hnone => by simp [hb] at hnone⟩
        · simp [hb] at hnone
  reclaims work hin hspoils := by
    cases hb : b.concurrency with
    | none => exact (h.serial hb).barred (.inr ⟨work, hin, rfl, hspoils⟩)
    | some limits => simp [(h.concurrent limits hb).reclaims] at hin
  contexts hb run hin hlost := by
    obtain ⟨limits, hb⟩ := Option.ne_none_iff_exists'.mp hb
    have inv := h.concurrent limits hb
    have hgranted := inv.granted_of_lost h.common hin hlost
    obtain ⟨lease, hlease, -, hscope, hcontext⟩ := inv.lease hin hgranted (.inr hlost)
    refine ⟨⟨lease, hlease, hscope, hcontext⟩, fun other hother hscope hcontext huse => ?_⟩
    obtain ⟨i, hi⟩ := List.mem_iff_getElem?.mp hin
    obtain ⟨j, hj⟩ := List.mem_iff_getElem?.mp hother
    have heq := inv.unique hi hj hgranted (inv.granted other hother huse.1) (.inr hlost)
      (.inl (isOver_eq_false.mp huse.2).2) hscope hcontext
    subst heq
    obtain rfl := Option.some.inj (hi.symm.trans hj)
    exact not_inUse_of_lost hlost huse

theorem entersClean_of_changes (hs : s.Whole b) (ht : t.Whole b) (h : Changes b s t) :
    EntersClean b s t := by
  intro i run hrun huse
  cases h with
  | same => exact .inl ⟨run, hrun, huse⟩
  | refused code message =>
      obtain hold | ⟨-, rfl⟩ := getElem?_append_new.mp hrun
      · exact .inl ⟨run, hold, huse⟩
      · cases huse.2
  | admitted id context entry hentry _ =>
      have hnew (hruns : (s.admitRun b id context entry).executions =
          s.executions ++ [{ scope := id, context, ref := 0 }] ∨
          (s.admitRun b id context entry).executions =
            s.executions ++ [{ scope := id, context, ref := s.scheduler.nextRef }]) :
          s.executions[i]? = some run := by
        obtain heq | heq := hruns <;> rw [heq] at hrun <;>
          obtain hold | ⟨-, rfl⟩ := getElem?_append_new.mp hrun
        · exact hold
        · exact absurd rfl huse.1
        · exact hold
        · exact absurd rfl huse.1
      refine .inl ⟨run, hnew ?_, huse⟩
      unfold CallerScopedBackend.admitRun
      split
      · exact .inl rfl
      · exact .inr rfl
  | quiet j before after hbefore h scheduler _ =>
      rw [getElem?_set_of_some hbefore] at hrun
      split at hrun
      · rename_i heq
        subst heq
        obtain rfl := Option.some.inj hrun
        exact .inl ⟨before, hbefore, (inUse_congr h.wait h.phase).mp huse⟩
      · exact .inl ⟨run, hrun, huse⟩
  | turned j before entry event after hbefore hentry hwait hadmissible h =>
      have hafter := hrun
      rw [getElem?_set_of_some hbefore] at hrun
      split at hrun
      swap
      · exact .inl ⟨run, hrun, huse⟩
      rename_i heq
      subst heq
      obtain rfl := Option.some.inj hrun
      by_cases hphase : before.phase = .queue
      swap
      · refine .inl ⟨before, hbefore, hphase, ?_⟩
        rw [isOver_eq_false, hwait]
        cases event <;> exact ⟨nofun, nofun⟩
      obtain ⟨-, hopen, -⟩ := h.enters hphase huse.1
      have hscope : after.run.scope = before.scope := h.keeps.scope
      have hclosed {id : String} (hid : id = after.run.scope) : ¬ s.ScopeBarred b id := by
        rintro ⟨⟨entry', hentry', hquarantined⟩, -⟩
        rw [hid, hscope, hentry] at hentry'
        obtain rfl := Option.some.inj hentry'
        exact absurd hquarantined (by simpa using hopen)
      have hcontract := contract_of_whole hs
      refine .inr ⟨fun lost hin hid => ⟨fun hbars => hclosed hid (hcontract.scopes lost hin hbars),
        fun hcontext hlost => ?_⟩, fun work hin hid hspoils =>
          hclosed hid (hcontract.reclaims work hin hspoils)⟩
      cases hb : b.concurrency with
      | none =>
          refine hclosed hid (hcontract.scopes lost hin ?_)
          exact hlost.elim (fun h => .inr ⟨hb, h⟩) .inl
      | some limits =>
          obtain ⟨k, hk⟩ := List.mem_iff_getElem?.mp hin
          have hne : j ≠ k := by
            rintro rfl
            obtain rfl := Option.some.inj (hbefore.symm.trans hk)
            have hover : before.isOver = true := hlost.elim (fun h => h.1) fun h => h.1
            rw [isOver, hwait] at hover
            cases event <;> simp [ExecutionEvent.wait] at hover
          have hstill : lost ∈ s.executions.set j after.run := by
            refine List.mem_of_getElem? (i := k) ?_
            rw [getElem?_set_of_some hbefore, if_neg hne]
            exact hk
          exact ((contract_of_whole ht).contexts (by simp [hb]) lost hstill hlost).unused after.run
            (List.mem_of_getElem? hafter) hid.symm hcontext.symm huse
  | released j before entry hbefore hentry _ _ =>
      rw [CallerScopedBackend.release_eq hbefore hentry] at hrun
      rw [getElem?_set_of_some hbefore] at hrun
      split at hrun
      · obtain rfl := Option.some.inj hrun
        cases huse.2
      · exact .inl ⟨run, hrun, huse⟩
  | idled id entry generation _ _ _ => exact .inl ⟨run, hrun, huse⟩
  | reclaimed k work entry event _ _ _ _ => exact .inl ⟨run, hrun, huse⟩
  | stopped =>
      rw [show (s.stop b).executions = s.executions.map fun run =>
        if run.isOver then run else { run with aborted := true } from rfl,
        List.getElem?_map, Option.map_eq_some_iff] at hrun
      obtain ⟨before, hbefore, heq⟩ := hrun
      refine .inl ⟨before, hbefore, ?_⟩
      split at heq <;> subst heq <;> exact huse

/-! ## The contract -/

/-- A serial scope has one user at a time, a run or a reclaim. With a scheduler a context has one, and
no more runs go on than the limits say. -/
structure Exclusive (b : CallerBackendOptions) (s : CallerScopedBackend) : Prop where
  run : b.concurrency = none → ∀ i j id, s.Uses i id → s.Uses j id → i = j
  reclaim : b.concurrency = none → ∀ j k id, s.Cleans j id → s.Cleans k id → j = k
  apart : b.concurrency = none → ∀ i k id, s.Uses i id → ¬ s.Cleans k id
  context : b.concurrency ≠ none → ∀ (i j : ℕ) (run run' : CallerExecution),
    s.executions[i]? = some run → s.executions[j]? = some run' → run.inUse → run'.inUse →
    run'.scope = run.scope → run'.context = run.context → i = j
  perCaller : ∀ limits, b.concurrency = some limits → ∀ (id : String) (users : Finset ℕ),
    (∀ i ∈ users, s.Uses i id) → users.card ≤ limits.perCaller
  global : ∀ limits, b.concurrency = some limits → ∀ users : Finset ℕ,
    (∀ i ∈ users, ∃ id, s.Uses i id) → users.card ≤ limits.global

/-- Every run that goes on has a lease of its own. -/
theorem ConcurrentInvariant.card_le {limits : SchedulerLimits} (inv : ConcurrentInvariant b limits s)
    (p : String → Bool) {users : Finset ℕ} (husers : ∀ i ∈ users, ∃ id, p id ∧ s.Uses i id) :
    users.card ≤ (s.scheduler.active.filter (p ·.scope)).length := by
  have hrun : ∀ i ∈ users, ∃ run, s.executions[i]? = some run ∧ run.granted = true ∧
      run.wait ≠ .done ∧ p run.scope := by
    intro i hi
    obtain ⟨id, hid, run, hrun, rfl, huse⟩ := husers i hi
    exact ⟨run, hrun, inv.granted run (List.mem_of_getElem? hrun) huse.1,
      (isOver_eq_false.mp huse.2).2, hid⟩
  let ref (i : ℕ) : ℕ := (s.executions[i]?.map (·.ref)).getD 0
  have hinj : Set.InjOn ref users := by
    intro i hi j hj heq
    obtain ⟨run, hi, hgranted, -⟩ := hrun i hi
    obtain ⟨run', hj, hgranted', -⟩ := hrun j hj
    simp only [ref, hi, hj, Option.map_some, Option.getD_some] at heq
    exact inv.distinct i j run run' hi hj (.inr hgranted) (.inr hgranted') heq
  rw [← Finset.card_image_of_injOn hinj, ← List.length_map Lease.ref]
  refine (Finset.card_le_card ?_).trans (List.toFinset_card_le _)
  intro r hr
  obtain ⟨i, hi, rfl⟩ := Finset.mem_image.mp hr
  obtain ⟨run, hi, hgranted, hlive, hid⟩ := hrun i hi
  obtain ⟨lease, hlease, href, hscope, -⟩ :=
    inv.lease (List.mem_of_getElem? hi) hgranted (.inl hlive)
  simp only [ref, hi, Option.map_some, Option.getD_some, List.mem_toFinset, List.mem_map,
    List.mem_filter]
  exact ⟨lease, ⟨hlease, hscope ▸ hid⟩, href⟩

section Witness

/-- The two digests that the task needs. -/
def exampleSha256 (text : String) : String :=
  if text = "[\"vicoop-execution-scope\",\"direct-principal-v1\",\"agent\",\"p\"]" then
    "041732ba17710fb8c627250639cdf2e8932909d1fcd8c6dd6ecaeb5361b05297"
  else "4bf9c63c264adc82fc19c48be6dfa589a9c566ad2c79cf7e863670796adb99a2"

def exampleBackend : CallerBackendOptions where
  sha256 := exampleSha256
  agentId := "agent"
  kind := .claude
  maxScopes := 2
  maxContexts := 2
  queueLimit := 4
  idleTimeout := true
  concurrency := none

def exampleCallerTask : CallerTask where
  executionId := some "e1"
  caller := some (.v2 { principal := some "p" })
  executionScope := some ⟨.directPrincipalV1,
    "041732ba17710fb8c627250639cdf2e8932909d1fcd8c6dd6ecaeb5361b05297", "agent", "p"⟩
  contextId := "c"
  message := { role := .user, parts := [.text "hi"], messageId := "m" }

def afterEvents (script : List BackendEvent) : CallerScopedBackend :=
  script.foldl (apply exampleBackend) (initializeScopes [])

def startedTask : List BackendEvent :=
  [.handle exampleCallerTask false, .turn 0 .leaveQueue, .turn 0 .reserved, .mutated 0,
    .turn 0 (.container (.ok { dockerId := some "d" }) none none), .turn 0 (.worker (.ok 7) none)]

/-- The worker fails, and stopping it throws. -/
def unstoppableWorker : List BackendEvent :=
  startedTask ++ [.turn 0 (.handled (some .other)), .turn 0 (.cleanUp (some .other) none), .release 0]

/-- The worker fails and is stopped. -/
def stoppedWorker : List BackendEvent :=
  startedTask ++ [.turn 0 (.handled (some .other)), .turn 0 (.cleanUp none none),
    .turn 0 .cleanUpSettled, .turn 0 .cleanUpCheckEnded, .turn 0 (.stopped none), .release 0]

end Witness

end CallerScopedBackend

end VicoopBridge
