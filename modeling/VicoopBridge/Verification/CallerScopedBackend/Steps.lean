import VicoopBridge.Library.Transition
import VicoopBridge.Verification.CallerScopedBackend.SerialTurns
import VicoopBridge.Verification.CallerScopedBackend.ConcurrentTurns

/-! # What a step of the backend does

Every event refuses a task, admits one, takes one run a step further, or works on an idle scope. The
counters follow from that. -/

namespace VicoopBridge

open Library

section Lists

variable {α : Type*} {l : List α} {i : ℕ} {a : α}

theorem getElem?_set_of_some (h : l[i]? = some a) (a' : α) (j : ℕ) :
    (l.set i a')[j]? = if i = j then some a' else l[j]? := by
  have hlt : i < l.length := (List.getElem?_eq_some_iff.mp h).1
  rw [List.getElem?_set, if_pos hlt]

theorem modify_eq_set_of_some (h : l[i]? = some a) (f : α → α) :
    l.modify i f = l.set i (f a) := by
  apply List.ext_getElem?
  intro j
  rw [getElem?_set_of_some h, List.getElem?_modify]
  split
  · rename_i heq
    rw [← heq, h]
    rfl
  · simp

theorem countP_set_of_some (p : α → Bool) (h : l[i]? = some a) (a' : α) :
    (l.set i a').countP p + (if p a then 1 else 0) = l.countP p + (if p a' then 1 else 0) := by
  obtain ⟨hlt, hget⟩ := List.getElem?_eq_some_iff.mp h
  rw [List.countP_set hlt, hget]
  have hle : (if p a then 1 else 0) ≤ l.countP p := by
    split
    · rename_i hp
      exact List.countP_pos_iff.mpr ⟨a, hget ▸ List.getElem_mem hlt, hp⟩
    · exact Nat.zero_le _
  omega

end Lists

/-! ## Runs that stay where they are -/

/-- A step that does not end the `await` of the run. -/
structure CallerExecution.Quiet (run run' : CallerExecution) : Prop where
  scope : run'.scope = run.scope
  context : run'.context = run.context
  ref : run'.ref = run.ref
  wait : run'.wait = run.wait
  phase : run'.phase = run.phase
  granted : run'.granted = run.granted
  trace : run.isOver = true → run'.trace = run.trace
  sound : run'.Sound
  queued : run'.Queued

namespace CallerExecution

variable {run run' : CallerExecution}

theorem Queued.congr (h : run.Queued) (hwait : run'.wait = run.wait)
    (hphase : run'.phase = run.phase) (hacquired : run'.acquired = run.acquired)
    (hworker : run'.worker = run.worker) (hresuming : run'.resuming = run.resuming)
    (herror : run'.error = run.error) (htrace : .acquired ∈ run'.trace → .acquired ∈ run.trace) :
    run'.Queued := by
  have hover : run'.isOver = run.isOver := by simp only [isOver, hwait]
  constructor
  · rw [hwait, hphase]
    exact h.phase
  · rw [hwait, hphase, hover]
    exact h.wait
  · rw [hphase, hacquired, hworker, hresuming]
    exact h.worker
  · rw [hphase, herror]
    exact h.error
  · rw [hphase]
    exact fun hqueue hin => h.clean hqueue (htrace hin)

theorem Quiet.refl (h : run.Sound) (hq : run.Queued) : run.Quiet run :=
  ⟨rfl, rfl, rfl, rfl, rfl, rfl, fun _ => rfl, h, hq⟩

theorem Quiet.emit (h : run.Sound) (hq : run.Queued) (hlive : run.isOver = false)
    {frame : TaskFrameBody} (hframe : frame.isTerminal = false) : run.Quiet (run.emit frame) := by
  refine ⟨rfl, rfl, rfl, rfl, rfl, rfl, fun hover => by simp [hlive] at hover,
    h.emit hlive hframe, hq.congr rfl rfl rfl rfl rfl rfl fun hin => ?_⟩
  exact (mem_log.mp hin).elim id nofun

/-- Variables that say nothing about where the run stands. -/
theorem Quiet.flags (h : run.Sound) (hq : run.Queued) (aborted timedOut storageCheck storageFailure
    storageCheckFailed : Bool) : run.Quiet { run with
      aborted, timedOut, storageCheck, storageFailure, storageCheckFailed } :=
  ⟨rfl, rfl, rfl, rfl, rfl, rfl, fun _ => rfl, h.congr rfl rfl rfl rfl rfl rfl,
    hq.congr rfl rfl rfl rfl rfl rfl id⟩

theorem quiet_onFrame (h : run.Sound) (hq : run.Queued) (frame : TaskFrameBody) :
    run.Quiet (run.onFrame frame) := by
  have hsound := h.onFrame frame
  revert hsound
  unfold CallerExecution.onFrame
  split
  · exact fun _ => .refl h hq
  · rename_i hopen
    have hlive : run.isOver = false := by
      by_contra hover
      simp [h.closed (by simpa using hover)] at hopen
    have hkeep (hsound : ({ run with terminal := some frame } : CallerExecution).Sound) :
        run.Quiet { run with terminal := some frame } :=
      ⟨rfl, rfl, rfl, rfl, rfl, rfl, fun _ => rfl, hsound, hq.congr rfl rfl rfl rfl rfl rfl id⟩
    split
    · exact hkeep
    · exact hkeep
    · intro hsound
      exact ⟨rfl, rfl, rfl, rfl, rfl, rfl, fun hover => by simp [hlive] at hover, hsound,
        hq.congr rfl rfl rfl rfl rfl rfl fun hin => (mem_log.mp hin).elim id nofun⟩

theorem quiet_heartbeat (h : run.Sound) (hq : run.Queued) (hlive : run.isOver = false)
    (concurrent : Bool) : run.Quiet (run.heartbeat concurrent) := by
  unfold CallerExecution.heartbeat
  split
  · exact .refl h hq
  · split <;> exact .emit h hq hlive rfl

theorem quiet_storageChecked (h : run.Sound) (hq : run.Queued)
    (error : Option CallerRuntimeError) : run.Quiet (run.storageChecked error) := by
  unfold CallerExecution.storageChecked
  cases error with
  | none => exact .flags h hq _ _ _ _ _
  | some error =>
      dsimp only
      split <;> exact .flags h hq _ _ _ _ _

theorem quiet_acquire (h : run.Sound) (hq : run.Queued) (hwait : run.wait = .container) :
    run.Quiet run.acquire := by
  have hlive : run.isOver = false := by simp [isOver, hwait]
  have hphase := hq.phase_ne (by simp [hwait]) (by simp [hwait]) hlive
  refine ⟨rfl, rfl, rfl, rfl, rfl, rfl, fun hover => by simp [hlive] at hover, h.acquire hlive, ?_⟩
  exact .of_phase_ne hphase (by simp [CallerExecution.acquire, CallerExecution.log, hwait])

end CallerExecution

namespace CallerScopedBackend

open CallerExecution

variable {b : CallerBackendOptions} {s t : CallerScopedBackend}

/-! ## Counters -/

def usersOf (entries : InsertionMap String ScopeEntry) (id : String) : ℤ :=
  ((entries.get? id).map ScopeEntry.users).getD 0

/-- The runs of the scope that hold a slot. -/
def holders (executions : List CallerExecution) (id : String) : ℕ :=
  executions.countP fun run => run.scope = id && run.wait ≠ .done

/-- The runs that hold a slot. -/
def waiters (executions : List CallerExecution) : ℕ :=
  executions.countP fun run => run.wait ≠ .done

structure Common (b : CallerBackendOptions) (s : CallerScopedBackend) : Prop where
  sound : ∀ run ∈ s.executions, run.Sound
  queued : ∀ run ∈ s.executions, run.Queued
  users : ∀ id, usersOf s.entries id = holders s.executions id
  pending : s.pending = if b.concurrency.isNone then (waiters s.executions : ℤ) else 0

theorem Common.present (h : s.Common b) {i : ℕ} {run : CallerExecution}
    (hrun : s.executions[i]? = some run) (hwait : run.wait ≠ .done) :
    ∃ entry, s.entries.get? run.scope = some entry := by
  cases hentry : s.entries.get? run.scope with
  | some entry => exact ⟨entry, rfl⟩
  | none =>
      have hpos : 0 < holders s.executions run.scope :=
        List.countP_pos_iff.mpr ⟨run, List.mem_of_getElem? hrun, by simp [hwait]⟩
      have husers := h.users run.scope
      simp only [usersOf, hentry, Option.map_none, Option.getD_none] at husers
      omega

/-- What leaves the catch block must not: the worker is there, and it throws. -/
def cleanUpYields (b : CallerBackendOptions) (s : CallerScopedBackend) : BackendEvent → Prop
  | .turn i (.cleanUp stop close) => ∀ run ∈ s.executions[i]?, ∀ entry ∈ s.entries.get? run.scope,
      (if b.concurrency.isNone then run.acquired && entry.worker.isSome
        else (run.acquired || run.worker.isSome) &&
          (run.worker.or (entry.contextWorkers.get? run.context)).isSome) = true →
      stop = none ∧ close = none
  | _ => True

instance decidableCleanUpYields (b : CallerBackendOptions) (s : CallerScopedBackend) :
    ∀ a, Decidable (s.cleanUpYields b a)
  | .turn i event =>
      match event with
      | .cleanUp stop close => inferInstanceAs (Decidable (∀ run ∈ s.executions[i]?,
          ∀ entry ∈ s.entries.get? run.scope, _ = true → stop = none ∧ close = none))
      | .leaveQueue | .refused _ | .reserved | .container .. | .staleSettled _ | .worker ..
      | .resumeRecorded _ | .handled _ | .canceled | .settled _ | .checkEnded | .checked _
      | .contextStopped _ | .failureRecorded _ | .cleanUpSettled | .cleanUpCheckEnded
      | .stopped _ => .isTrue trivial
  | .handle .. | .frame .. | .heartbeat _ | .monitor _ | .storageChecked .. | .mutated _
  | .abort .. | .release _ | .idle _ | .reclaim .. | .stop => .isTrue trivial

def callerSystem (b : CallerBackendOptions) : System CallerScopedBackend BackendEvent :=
  .ofApply (fun s => ∃ ids, s = initializeScopes ids) (enabled b) (apply b)

/-! ## The steps -/

inductive Changes (b : CallerBackendOptions) (s : CallerScopedBackend) :
    CallerScopedBackend → Prop where
  | same : Changes b s s
  | refused (code message : String) : Changes b s (s.refuse code message)
  | admitted (id context : String) (entry : ScopeEntry)
      (hentry : s.entries.get? id = some entry ∨ s.entries.get? id = none ∧ entry = {})
      (hopen : entry.quarantined = false) : Changes b s (s.admitRun b id context entry)
  | quiet (i : ℕ) (run run' : CallerExecution) (hrun : s.executions[i]? = some run)
      (h : run.Quiet run') (scheduler : CallerExecutionScheduler)
      (hscheduler : scheduler = s.scheduler ∨ scheduler = abortWaiter b run s.scheduler) :
      Changes b s { s with executions := s.executions.set i run', scheduler }
  | turned (i : ℕ) (run : CallerExecution) (entry : ScopeEntry) (event : ExecutionEvent) (t : Turn)
      (hrun : s.executions[i]? = some run) (hentry : s.entries.get? run.scope = some entry)
      (hwait : run.wait = event.wait) (hadmissible : s.admissible b i run event)
      (h : Turn.Spec b event ⟨run, entry⟩ t) :
      Changes b s { s with
        executions := s.executions.set i t.run, entries := s.entries.set run.scope t.entry }
  | released (i : ℕ) (run : CallerExecution) (entry : ScopeEntry)
      (hrun : s.executions[i]? = some run) (hentry : s.entries.get? run.scope = some entry)
      (hwait : run.wait = .slot)
      (hhead : b.concurrency.isNone = true → entry.tail.head? = some (.execution i)) :
      Changes b s (s.release b i)
  | idled (id : String) (entry : ScopeEntry) (generation : ℕ) (hserial : b.concurrency = none)
      (hentry : s.entries.get? id = some entry) (heligible : s.eligible generation entry = true) :
      Changes b s { s with
        entries := s.entries.set id { entry with
          idleTimer := none, tail := entry.tail ++ [.reclaim s.reclaims.length] }
        reclaims := s.reclaims ++ [{ scope := id, generation }] }
  | reclaimed (k : ℕ) (work : IdleReclaim) (entry : ScopeEntry) (event : ReclaimEvent)
      (hwork : s.reclaims[k]? = some work) (hentry : s.entries.get? work.scope = some entry)
      (hwait : work.wait = event.wait)
      (hhead : work.wait = .tail → entry.tail.head? = some (.reclaim k)) :
      Changes b s { s with
        reclaims := s.reclaims.set k (s.reclaimStep work entry event).1
        entries := s.entries.set work.scope (s.reclaimStep work entry event).2 }
  | stopped : Changes b s (s.stop b)

theorem changes_execute (b : CallerBackendOptions) (s : CallerScopedBackend) (task : CallerTask)
    (aborted : Bool) : Changes b s (s.execute b task aborted) := by
  unfold execute
  split
  · exact .refused _ _
  · split
    · exact .refused _ _
    · split
      · exact .refused _ _
      · unfold enterScope
        split
        · rename_i hentry
          split
          · exact .refused _ _
          · exact .admitted _ _ _ (.inr ⟨hentry, rfl⟩) rfl
        · rename_i entry hentry
          split
          · exact .refused _ _
          · split
            · exact .refused _ _
            · rename_i hserial hconcurrent
              refine .admitted _ _ _ (.inl hentry) ?_
              cases hb : b.concurrency <;> simp_all

theorem changes_update (inv : s.Common b) {i : ℕ} {run : CallerExecution}
    {f : CallerExecution → CallerExecution} (hrun : s.executions[i]? = some run)
    (h : run.Sound → run.Queued → run.Quiet (f run)) : Changes b s (s.update i f) := by
  have hin := List.mem_of_getElem? hrun
  have hchange := Changes.quiet (b := b) i run (f run) hrun (h (inv.sound run hin) (inv.queued run hin))
    s.scheduler (.inl rfl)
  rwa [update, modify_eq_set_of_some hrun]

theorem changes_turn (inv : s.Common b) {i : ℕ} {event : ExecutionEvent}
    (hyield : s.cleanUpYields b (.turn i event)) (henabled : s.enabled b (.turn i event)) :
    Changes b s (s.apply b (.turn i event)) := by
  obtain ⟨run, hrun, hwait, hadmissible⟩ := henabled
  have hin := List.mem_of_getElem? hrun
  obtain ⟨entry, hentry⟩ := inv.present hrun (by rw [hwait]; cases event <;> nofun)
  have hspec : Turn.Spec b event ⟨run, entry⟩ (if b.concurrency.isNone then
      SerialExecution.turn b ⟨run, entry⟩ s.stopped event
      else ConcurrentExecution.turn b ⟨run, entry⟩ event) := by
    split
    · rename_i hserial
      have hb : b.concurrency = none := Option.isNone_iff_eq_none.mp hserial
      refine SerialExecution.spec_turn hb (inv.sound run hin) (inv.queued run hin) hwait ?_ ?_ _
      · rintro error rfl
        simp only [admissible, hserial, if_true] at hadmissible
        exact hadmissible.2
      · rintro stop close rfl hacquired hworker
        refine hyield run hrun entry hentry ?_
        rw [if_pos hserial, hacquired, hworker]
        rfl
    · rename_i hserial
      have hb : b.concurrency.isSome := by
        rw [Option.isSome_iff_ne_none]
        exact fun hnone => hserial (Option.isNone_iff_eq_none.mpr hnone)
      refine ConcurrentExecution.spec_turn hb (inv.sound run hin) (inv.queued run hin) hwait ?_ ?_
      · rintro error rfl
        simp only [admissible, hserial, refusedAs] at hadmissible
        obtain ⟨-, herror⟩ | ⟨-, herror⟩ := hadmissible
        · exact .inl herror
        · exact .inr herror
      · rintro stop close rfl howns hworker
        refine hyield run hrun entry hentry ?_
        rw [if_neg hserial, howns, hworker]
        rfl
  have hchange := Changes.turned i run entry event _ hrun hentry hwait hadmissible hspec
  simp only [apply, takeTurn]
  rw [show s.executions[i]? = some run from hrun]
  simpa only [hentry] using hchange

theorem changes_of_step (inv : s.Common b) {a : BackendEvent} (hyield : s.cleanUpYields b a)
    (henabled : s.enabled b a) : Changes b s (s.apply b a) := by
  cases a with
  | handle task aborted => exact changes_execute b s task aborted
  | frame i frame =>
      obtain ⟨run, hrun, -⟩ := henabled
      exact changes_update inv hrun fun h hq => quiet_onFrame h hq frame
  | heartbeat i =>
      obtain ⟨run, hrun, hlive⟩ := henabled
      exact changes_update inv hrun fun h hq => quiet_heartbeat h hq hlive _
  | monitor i =>
      obtain ⟨run, hrun, -⟩ := henabled
      exact changes_update inv hrun fun h hq => .flags h hq _ _ _ _ _
  | storageChecked i error =>
      obtain ⟨run, hrun, -⟩ := henabled
      exact changes_update inv hrun fun h hq => quiet_storageChecked h hq error
  | mutated i =>
      obtain ⟨-, run, hrun, hwait⟩ := henabled
      exact changes_update inv hrun fun h hq => quiet_acquire h hq hwait
  | abort i timedOut =>
      obtain ⟨run, hrun, -⟩ := henabled
      have hin := List.mem_of_getElem? hrun
      have hquiet := Quiet.flags (inv.sound run hin) (inv.queued run hin) true
        (run.timedOut || timedOut) run.storageCheck run.storageFailure run.storageCheckFailed
      have hchange := Changes.quiet (b := b) i run _ hrun hquiet _ (.inr rfl)
      simp only [apply, abort]
      rw [show s.executions[i]? = some run from hrun]
      rwa [update, modify_eq_set_of_some hrun]
  | turn i event => exact changes_turn inv hyield henabled
  | release i =>
      obtain ⟨run, hrun, hwait, hserial⟩ := henabled
      obtain ⟨entry, hentry⟩ := inv.present hrun (by simp [hwait])
      refine .released i run entry hrun hentry hwait fun hb => ?_
      obtain ⟨-, entry', hentry', hhead⟩ := hserial hb
      rw [hentry] at hentry'
      obtain rfl := Option.some.inj hentry'
      exact hhead
  | idle id =>
      obtain ⟨hserial, -⟩ := henabled
      simp only [apply, idle]
      split
      · exact .same
      · rename_i entry hentry
        split
        · exact .same
        · split
          · rename_i heligible
            exact .idled id entry _ (Option.isNone_iff_eq_none.mp hserial) hentry heligible
          · exact .same
  | reclaim k event =>
      obtain ⟨work, hwork, hwait, hhead⟩ := henabled
      simp only [apply, reclaim]
      rw [show s.reclaims[k]? = some work from hwork]
      dsimp only
      split
      · exact .same
      · rename_i entry hentry
        refine .reclaimed k work entry event hwork hentry hwait fun htail => ?_
        obtain ⟨entry', hentry', hhead⟩ := hhead htail
        rw [hentry] at hentry'
        obtain rfl := Option.some.inj hentry'
        exact hhead
  | stop => exact .stopped

/-! ## The counters in a step -/

section Counters

variable {entries : InsertionMap String ScopeEntry} {executions : List CallerExecution} {i : ℕ}
  {run run' : CallerExecution}

theorem usersOf_set (entries : InsertionMap String ScopeEntry) (id id' : String)
    (entry : ScopeEntry) : usersOf (entries.set id entry) id' =
      if id = id' then entry.users else usersOf entries id' := by
  unfold usersOf
  rw [InsertionMap.get?_set]
  split <;> rfl

theorem usersOf_set_of_users {id : String} {entry entry' : ScopeEntry}
    (hentry : entries.get? id = some entry) (husers : entry'.users = entry.users) (id' : String) :
    usersOf (entries.set id entry') id' = usersOf entries id' := by
  rw [usersOf_set]
  split
  · rename_i heq
    rw [← heq, usersOf, hentry, husers]
    rfl
  · rfl

theorem holders_set (hrun : executions[i]? = some run) (hscope : run'.scope = run.scope)
    (hwait : run'.wait = .done ↔ run.wait = .done) (id : String) :
    holders (executions.set i run') id = holders executions id := by
  have hcount := countP_set_of_some
    (fun run : CallerExecution => decide (run.scope = id) && decide (run.wait ≠ .done)) hrun run'
  simp only [hscope, ne_eq, hwait] at hcount
  exact Nat.add_right_cancel hcount

theorem waiters_set (hrun : executions[i]? = some run)
    (hwait : run'.wait = .done ↔ run.wait = .done) :
    waiters (executions.set i run') = waiters executions := by
  have hcount := countP_set_of_some
    (fun run : CallerExecution => decide (run.wait ≠ .done)) hrun run'
  simp only [ne_eq, hwait] at hcount
  exact Nat.add_right_cancel hcount

theorem holders_done (hrun : executions[i]? = some run) (hscope : run'.scope = run.scope)
    (hwait : run.wait ≠ .done) (hdone : run'.wait = .done) (id : String) :
    holders (executions.set i run') id + (if run.scope = id then 1 else 0) =
      holders executions id := by
  have hcount := countP_set_of_some
    (fun run : CallerExecution => decide (run.scope = id) && decide (run.wait ≠ .done)) hrun run'
  simp only [hscope, hdone, ne_eq, not_true, decide_false, Bool.and_false, Bool.false_eq_true,
    if_false, hwait, not_false_eq_true, decide_true, Bool.and_true, decide_eq_true_eq] at hcount
  exact hcount

theorem waiters_done (hrun : executions[i]? = some run) (hwait : run.wait ≠ .done)
    (hdone : run'.wait = .done) :
    waiters (executions.set i run') + 1 = waiters executions := by
  have hcount := countP_set_of_some
    (fun run : CallerExecution => decide (run.wait ≠ .done)) hrun run'
  simpa [hdone, hwait, waiters] using hcount

theorem holders_map (f : CallerExecution → CallerExecution) (hscope : ∀ run, (f run).scope = run.scope)
    (hwait : ∀ run, (f run).wait = run.wait) (id : String) :
    holders (executions.map f) id = holders executions id := by
  simp only [holders, List.countP_map, Function.comp_def, hscope, hwait]

theorem waiters_map (f : CallerExecution → CallerExecution) (hwait : ∀ run, (f run).wait = run.wait) :
    waiters (executions.map f) = waiters executions := by
  simp only [waiters, List.countP_map, Function.comp_def, hwait]

theorem holders_append (executions : List CallerExecution) (run : CallerExecution) (id : String) :
    holders (executions ++ [run]) id = holders executions id +
      if run.scope = id ∧ run.wait ≠ .done then 1 else 0 := by
  simp [holders, List.countP_append, List.countP_cons]

theorem waiters_append (executions : List CallerExecution) (run : CallerExecution) :
    waiters (executions ++ [run]) = waiters executions + if run.wait ≠ .done then 1 else 0 := by
  simp [waiters, List.countP_append, List.countP_cons]

end Counters

theorem sound_refused (code message : String) : (({
    scope := "", context := "", forwarding := false, wait := .done } : CallerExecution).fail code
      message).Sound where
  spec := ⟨nofun, fun _ => ⟨[], _, rfl, rfl, by simp, by simp⟩⟩
  closed _ := rfl
  terminal := by simp [CallerExecution.fail, CallerExecution.emit, CallerExecution.log]
  trying := nofun
  caught := by simp [CallerExecution.fail, CallerExecution.emit]
  asked := by simp [CallerExecution.fail, CallerExecution.emit, CallerExecution.log]
  owned := by simp [CallerExecution.fail, CallerExecution.emit]
  confirmed := by simp [CallerExecution.fail, CallerExecution.emit]

theorem sound_admitted (id context : String) (ref : ℕ) :
    ({ scope := id, context, ref } : CallerExecution).Sound := by
  refine ⟨⟨fun _ _ => nofun, nofun⟩, nofun, ?_, ?_, ?_, ?_, ?_, ?_⟩ <;> simp

theorem queued_of_phase {run : CallerExecution} (h : run.phase = .queue) (hwait : run.wait = .queue ∨ run.wait = .done)
    (hworker : run.acquired = false ∧ run.worker = none ∧ run.resuming = false)
    (herror : run.error = .other) (hclean : .acquired ∉ run.trace) : run.Queued := by
  refine ⟨fun _ => h, fun _ => hwait.imp_right fun hdone => .inr ?_, fun _ => hworker,
    fun _ => .inl herror, fun _ => hclean⟩
  simp [isOver, hdone]

theorem release_eq {i : ℕ} {run : CallerExecution} {entry : ScopeEntry}
    (hrun : s.executions[i]? = some run) (hentry : s.entries.get? run.scope = some entry) :
    s.release b i = { s with
      executions := s.executions.set i { run with wait := .done }
      entries := s.leaveEntry b run.scope { entry with
        users := entry.users - 1, tail := entry.tail.tail }
      pending := if b.concurrency.isNone then s.pending - 1 else s.pending
      scheduler := match b.concurrency with
        | none => s.scheduler
        | some limits =>
            if run.granted ∧ run.context ∉ entry.failedContexts then
              s.scheduler.release limits run.ref
            else s.scheduler } := by
  unfold release
  rw [hrun]
  dsimp only
  rw [hentry]
  dsimp only
  rw [update, modify_eq_set_of_some hrun]
  cases b.concurrency with
  | none => rfl
  | some limits =>
      dsimp only
      split <;> rfl

theorem usersOf_leaveEntry (s : CallerScopedBackend) (id id' : String) (entry : ScopeEntry) :
    usersOf (s.leaveEntry b id entry) id' =
      if id = id' then entry.users else usersOf s.entries id' := by
  unfold leaveEntry
  split
  · rename_i hgone
    simp only [Bool.and_eq_true, decide_eq_true_eq] at hgone
    simp only [usersOf, InsertionMap.get?_erase]
    split
    · simp [hgone.2]
    · rfl
  · split
    · rw [usersOf_set]
      congr 1
      unfold ScopeEntry.armIdle
      dsimp only
      split <;> rfl
    · exact usersOf_set _ _ _ _

theorem reclaimStep_users (s : CallerScopedBackend) (work : IdleReclaim) (entry : ScopeEntry)
    (event : ReclaimEvent) : (s.reclaimStep work entry event).2.users = entry.users := by
  cases event with
  | start healthy stop close =>
      unfold reclaimStep
      dsimp only
      split <;> rfl
  | _ => rfl

/-! ## The common invariant -/

theorem Common.refuse (inv : s.Common b) (code message : String) :
    (s.refuse code message).Common b where
  sound run hin := by
    rcases List.mem_append.mp hin with hin | hin
    · exact inv.sound run hin
    · rw [List.mem_singleton.mp hin]
      exact sound_refused code message
  queued run hin := by
    rcases List.mem_append.mp hin with hin | hin
    · exact inv.queued run hin
    · rw [List.mem_singleton.mp hin]
      exact queued_of_phase rfl (.inr rfl) ⟨rfl, rfl, rfl⟩ rfl
        (by simp [CallerExecution.fail, CallerExecution.emit, CallerExecution.log])
  users id := by
    rw [show (s.refuse code message).executions = s.executions ++ [_] from rfl, holders_append,
      if_neg (by simp [CallerExecution.fail, CallerExecution.emit, CallerExecution.log])]
    exact inv.users id
  pending := by
    have hcount : waiters (s.refuse code message).executions = waiters s.executions := by
      rw [show (s.refuse code message).executions = s.executions ++ [_] from rfl, waiters_append]
      simp [CallerExecution.fail, CallerExecution.emit, CallerExecution.log]
    rw [hcount]
    exact inv.pending

theorem Common.admitRun (inv : s.Common b) {id : String} (context : String) {entry : ScopeEntry}
    (hentry : s.entries.get? id = some entry ∨ s.entries.get? id = none ∧ entry = {}) :
    (s.admitRun b id context entry).Common b := by
  have husers : entry.users = usersOf s.entries id := by
    unfold usersOf
    obtain hentry | ⟨hentry, rfl⟩ := hentry <;> rw [hentry] <;> rfl
  have hcount (id' : String) (entry' : ScopeEntry) (h : entry'.users = entry.users + 1) (ref : ℕ) :
      usersOf (s.entries.set id entry') id' =
        holders (s.executions ++ [{ scope := id, context, ref }]) id' := by
    rw [usersOf_set, holders_append]
    have hold := inv.users id'
    split
    · rename_i heq
      subst heq
      rw [if_pos ⟨rfl, nofun⟩, h, husers, hold]
      rfl
    · rename_i hne
      rw [if_neg fun heq => hne heq.1, hold]
      rfl
  have hsound (ref : ℕ) : ∀ run ∈ s.executions ++ [{ scope := id, context, ref }], run.Sound := by
    intro run hin
    rcases List.mem_append.mp hin with hin | hin
    · exact inv.sound run hin
    · rw [List.mem_singleton.mp hin]
      exact sound_admitted id context ref
  have hqueued (ref : ℕ) : ∀ run ∈ s.executions ++ [{ scope := id, context, ref }], run.Queued := by
    intro run hin
    rcases List.mem_append.mp hin with hin | hin
    · exact inv.queued run hin
    · rw [List.mem_singleton.mp hin]
      exact queued_of_phase rfl (.inl rfl) ⟨rfl, rfl, rfl⟩ rfl nofun
  have hpending := inv.pending
  unfold CallerScopedBackend.admitRun
  cases hb : b.concurrency with
  | none =>
      refine ⟨hsound 0, hqueued 0, fun id' => hcount id' _ rfl 0, ?_⟩
      simp only [hb, Option.isNone_none, if_true] at hpending ⊢
      rw [hpending, waiters_append, if_pos nofun]
      rfl
  | some limits =>
      refine ⟨hsound _, hqueued _, fun id' => hcount id' _ rfl _, ?_⟩
      simpa [hb] using hpending

theorem Common.set (inv : s.Common b) {i : ℕ} {run run' : CallerExecution}
    {entries : InsertionMap String ScopeEntry} {scheduler : CallerExecutionScheduler}
    (hrun : s.executions[i]? = some run) (hscope : run'.scope = run.scope)
    (hwait : run'.wait = .done ↔ run.wait = .done) (hsound : run'.Sound) (hqueued : run'.Queued)
    (husers : ∀ id, usersOf entries id = usersOf s.entries id) :
    ({ s with executions := s.executions.set i run', entries, scheduler } :
      CallerScopedBackend).Common b where
  sound other hin := (List.mem_or_eq_of_mem_set hin).elim (inv.sound other) fun heq => heq ▸ hsound
  queued other hin :=
    (List.mem_or_eq_of_mem_set hin).elim (inv.queued other) fun heq => heq ▸ hqueued
  users id := by
    rw [husers, holders_set hrun hscope hwait]
    exact inv.users id
  pending := by
    rw [waiters_set hrun hwait]
    exact inv.pending

theorem Common.release (inv : s.Common b) {i : ℕ} {run : CallerExecution} {entry : ScopeEntry}
    (hrun : s.executions[i]? = some run) (hentry : s.entries.get? run.scope = some entry)
    (hwait : run.wait = .slot) : (s.release b i).Common b := by
  obtain ⟨done, hdef⟩ : ∃ done : CallerExecution, done = { run with wait := .done } := ⟨_, rfl⟩
  have hscope : done.scope = run.scope := by rw [hdef]
  have hnone : done.wait = .done := by rw [hdef]
  have hin := List.mem_of_getElem? hrun
  have hover : run.isOver = true := by simp [isOver, hwait]
  have hsound := inv.sound run hin
  have hdone : done.Sound := hdef ▸ {
    spec := ⟨(by rintro ⟨⟩), fun _ => hsound.spec.ended hover⟩
    closed := fun _ => hsound.closed hover
    terminal := hsound.terminal
    trying := by rintro ⟨⟩
    caught := hsound.caught
    asked := (by simp)
    owned := hsound.owned
    confirmed := hsound.confirmed }
  have hqueued := inv.queued run hin
  have hdoneQueued : done.Queued :=
    hdef ▸ ⟨(by simp), fun _ => .inr (.inr rfl), hqueued.worker, hqueued.error, hqueued.clean⟩
  rw [release_eq hrun hentry, ← hdef]
  constructor
  · exact fun other hin => (List.mem_or_eq_of_mem_set hin).elim (inv.sound other)
      fun heq => heq ▸ hdone
  · exact fun other hin => (List.mem_or_eq_of_mem_set hin).elim (inv.queued other)
      fun heq => heq ▸ hdoneQueued
  · intro id
    have hcount := holders_done hrun hscope (by simp [hwait]) hnone id
    have hold := inv.users id
    rw [usersOf_leaveEntry]
    split
    · rename_i heq
      subst heq
      simp only [usersOf, hentry, Option.map_some, Option.getD_some] at hold
      simp only [if_true] at hcount
      dsimp only
      omega
    · rename_i hne
      rw [if_neg hne] at hcount
      dsimp only
      omega
  · have hcount := waiters_done hrun (by simp [hwait]) hnone
    have hold := inv.pending
    split
    · rename_i hb
      rw [if_pos hb] at hold
      dsimp only
      omega
    · rename_i hb
      rwa [if_neg hb] at hold

theorem Common.stop (inv : s.Common b) : (s.stop b).Common b := by
  have hscope (run : CallerExecution) :
      (if run.isOver then run else { run with aborted := true }).scope = run.scope := by
    split <;> rfl
  have hwait (run : CallerExecution) :
      (if run.isOver then run else { run with aborted := true }).wait = run.wait := by
    split <;> rfl
  constructor
  · intro other hin
    obtain ⟨run, hmem, rfl⟩ := List.mem_map.mp hin
    split
    · exact inv.sound run hmem
    · exact (inv.sound run hmem).congr rfl rfl rfl rfl rfl rfl
  · intro other hin
    obtain ⟨run, hmem, rfl⟩ := List.mem_map.mp hin
    split
    · exact inv.queued run hmem
    · exact (inv.queued run hmem).congr rfl rfl rfl rfl rfl rfl id
  · intro id
    have hmap : usersOf (s.entries.map ScopeEntry.cancelIdle) id = usersOf s.entries id := by
      unfold usersOf
      rw [InsertionMap.get?_map, Option.map_map]
      rfl
    have hcount : holders (s.stop b).executions id = holders s.executions id :=
      holders_map _ hscope hwait id
    rw [hcount]
    exact hmap.trans (inv.users id)
  · have hcount : waiters (s.stop b).executions = waiters s.executions := waiters_map _ hwait
    rw [hcount]
    exact inv.pending

theorem Common.changes (inv : s.Common b) (h : Changes b s t) : t.Common b := by
  cases h with
  | same => exact inv
  | refused code message => exact inv.refuse code message
  | admitted id context entry hentry _ => exact inv.admitRun context hentry
  | quiet i run run' hrun h scheduler _ =>
      exact inv.set hrun h.scope (by rw [h.wait]) h.sound h.queued fun _ => rfl
  | turned i run entry event t hrun hentry hwait _ h =>
      have hlive : run.wait ≠ .done := by
        rw [hwait]
        cases event <;> nofun
      exact inv.set hrun h.keeps.scope (by simp [h.undone, hlive]) h.sound h.queued
        (usersOf_set_of_users hentry h.keeps.users)
  | released i run entry hrun hentry hwait _ => exact inv.release hrun hentry hwait
  | idled id entry generation _ hentry _ =>
      refine ⟨inv.sound, inv.queued, fun id' => ?_, inv.pending⟩
      exact (usersOf_set_of_users hentry (by rfl) id').trans (inv.users id')
  | reclaimed k work entry event _ hentry _ _ =>
      refine ⟨inv.sound, inv.queued, fun id' => ?_, inv.pending⟩
      exact (usersOf_set_of_users hentry (reclaimStep_users s work entry event) id').trans
        (inv.users id')
  | stopped => exact inv.stop

theorem get?_initializeScopes (ids : List String) (id : String) :
    (initializeScopes ids).entries.get? id =
      if id ∈ ids then some { retained := true, recovered := true } else none := by
  have hfold (entries : InsertionMap String ScopeEntry) :
      (ids.foldl (fun entries id =>
        entries.set id { retained := true, recovered := true }) entries).get? id =
        if id ∈ ids then some { retained := true, recovered := true } else entries.get? id := by
    induction ids generalizing entries with
    | nil => rfl
    | cons first ids ih =>
        rw [List.foldl_cons, ih, InsertionMap.get?_set]
        by_cases hin : id ∈ ids
        · simp [hin]
        · by_cases heq : first = id <;> simp [hin, heq, Ne.symm]
  exact hfold .empty

theorem common_initializeScopes (b : CallerBackendOptions) (ids : List String) :
    (initializeScopes ids).Common b where
  sound := by simp [initializeScopes]
  queued := by simp [initializeScopes]
  users id := by
    rw [usersOf, get?_initializeScopes]
    split <;> rfl
  pending := by
    split <;> rfl

end CallerScopedBackend

end VicoopBridge
