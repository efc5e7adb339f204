import VicoopBridge.Verification.CallerScopedBackend.ConcurrentLeases

/-! # No run is stuck

Every turn of a run brings it nearer to its end, and a run that nobody answers is never left without a
turn: the awaits of the pool and of the worker all end, and the queue is left when the signal fires. -/

namespace VicoopBridge

open Library

/-- How far a run is from its end. -/
def ExecutionWait.rank : ExecutionWait → ℕ
  | .queue => 15
  | .container => 14
  | .staleWorker => 13
  | .factory => 12
  | .resumeRecord => 11
  | .work => 10
  | .settle => 9
  | .runningCheck => 8
  | .lastCheck => 7
  | .contextStop => 6
  | .failureRecord => 5
  | .cleanUp => 4
  | .cleanUpSettle => 3
  | .cleanUpCheck => 2
  | .stop => 1
  | .slot | .done => 0

/-- The waits that only `execute` has. -/
def ExecutionWait.isSerial : ExecutionWait → Bool
  | .staleWorker | .resumeRecord | .runningCheck | .lastCheck | .failureRecord | .cleanUpCheck => true
  | _ => false

/-- The run goes the path that the options choose. -/
structure CallerExecution.Fits (b : CallerBackendOptions) (run : CallerExecution) : Prop where
  serial : b.concurrency.isNone = true → run.wait ≠ .contextStop
  concurrent : b.concurrency.isNone = false → run.resuming = false ∧ run.wait.isSerial = false

namespace Turn

variable {t : Turn}

/-- The turn leads to a wait of its path that is less than `n` away from the end. -/
structure Nears (b : CallerBackendOptions) (n : ℕ) (t : Turn) : Prop where
  rank : t.run.wait.rank < n
  fits : t.run.Fits b

variable {b : CallerBackendOptions} {n : ℕ}

theorem nears_throw (hle : 6 ≤ n) (h : b.concurrency.isNone = false → t.run.resuming = false)
    (error : CallerRuntimeError) : (t.throw error).Nears b n := by
  cases hresuming : t.run.resuming with
  | true =>
      have hwait : (t.throw error).run.wait = .failureRecord := by
        simp [throw, log, CallerExecution.log, hresuming]
      refine ⟨by rw [hwait]; exact hle, fun _ => by simp [hwait], fun hb => ?_⟩
      simp [h hb] at hresuming
  | false =>
      have hwait : (t.throw error).run.wait = .cleanUp := by
        simp [throw, log, CallerExecution.log, hresuming]
      exact ⟨by rw [hwait]; exact Nat.lt_of_succ_lt hle, fun _ => by simp [hwait],
        fun _ => ⟨hresuming, by rw [hwait]; rfl⟩⟩

theorem nears_finish (hpos : 0 < n) (h : b.concurrency.isNone = false → t.run.resuming = false) :
    t.finish.Nears b n :=
  ⟨hpos, fun _ => nofun, fun hb => ⟨h hb, rfl⟩⟩

theorem nears_answer (hle : 6 ≤ n) (h : b.concurrency.isNone = false → t.run.resuming = false) :
    t.answer.Nears b n := by
  unfold answer
  split
  · exact nears_throw hle h _
  · exact nears_finish (Nat.zero_lt_of_lt hle) h

theorem nears_goto {wait : ExecutionWait} (hlt : wait.rank < n)
    (h : b.concurrency.isNone = false → t.run.resuming = false ∧ wait.isSerial = false)
    (hserial : b.concurrency.isNone = true → wait ≠ .contextStop) : (t.goto wait).Nears b n :=
  ⟨hlt, hserial, h⟩

theorem nears_stopWorker (hle : 4 ≤ n) (h : b.concurrency.isNone = false → t.run.resuming = false)
    (worker : Option ℕ) (stop close : Option CallerRuntimeError) :
    (t.stopWorker worker stop close).Nears b n := by
  unfold stopWorker
  split
  · exact nears_finish (Nat.zero_lt_of_lt hle) h
  · exact nears_goto hle (fun hb => ⟨h hb, rfl⟩) fun _ => nofun

theorem nears_handled (hle : 10 ≤ n) (h : b.concurrency.isNone = false → t.run.resuming = false)
    (error : Option CallerRuntimeError) : (t.handled error).Nears b n := by
  cases error with
  | some error => exact nears_throw (by omega) h error
  | none => exact ⟨hle, fun _ => nofun, fun hb => ⟨h hb, rfl⟩⟩

theorem nears_handOver (hle : 11 ≤ n) (h : b.concurrency.isNone = false → t.run.resuming = false) :
    t.handOver.Nears b n :=
  ⟨hle, fun _ => nofun, fun hb => ⟨h hb, rfl⟩⟩

end Turn

namespace SerialExecution

open Turn

variable {b : CallerBackendOptions} {t : Turn} {n : ℕ}

theorem nears_leaveQueue (hb : b.concurrency.isNone = true) (stopped : Bool) :
    (leaveQueue b t stopped).Nears b 15 := by
  unfold leaveQueue
  split
  · exact nears_throw (by decide) (by simp [hb]) _
  · split
    · exact nears_finish (by decide) (by simp [hb])
    · exact ⟨Nat.lt_succ_self 14, fun _ => nofun, by simp [hb]⟩

theorem nears_hand (hb : b.concurrency.isNone = true) (hle : 11 ≤ n) : (hand t).Nears b n := by
  unfold hand
  exact ⟨hle, fun _ => nofun, by simp [hb]⟩

theorem nears_workerReady (hb : b.concurrency.isNone = true) (hle : 12 ≤ n) :
    (workerReady t).Nears b n := by
  unfold workerReady
  split
  · exact nears_throw (by omega) (by simp [hb]) _
  · split
    · exact nears_goto hle (by simp [hb]) fun _ => nofun
    · exact nears_hand hb (by omega)

theorem nears_ensureWorker (hb : b.concurrency.isNone = true) (hle : 13 ≤ n) :
    (ensureWorker t).Nears b n := by
  unfold ensureWorker
  split
  · exact nears_goto hle (by simp [hb]) fun _ => nofun
  · exact nears_workerReady hb (by omega)

theorem nears_containerReady (hb : b.concurrency.isNone = true)
    (stale : Option CallerRuntimeError) (container : CallerContainer) :
    (containerReady t stale container).Nears b 14 := by
  unfold containerReady replaceWorker
  dsimp only
  split
  · exact nears_throw (by decide) (by simp [hb]) _
  · split
    · split
      · exact nears_throw (by decide) (by simp [hb]) _
      · exact nears_goto (by decide) (by simp [hb]) fun _ => nofun
    · exact nears_ensureWorker hb (by decide)

theorem nears_report (hb : b.concurrency.isNone = true) (hpos : 0 < n) : (report t).Nears b n := by
  unfold report
  exact nears_finish hpos fun hsome => Bool.noConfusion (hb.symm.trans hsome)

/-- A turn of `execute` brings the run nearer to its end. -/
theorem nears_turn (hb : b.concurrency.isNone = true) {event : ExecutionEvent}
    (hwait : t.run.wait = event.wait) (hreserved : event ≠ .reserved)
    (hcontext : event.wait ≠ .contextStop) (stopped : Bool) :
    (turn b t stopped event).Nears b t.run.wait.rank := by
  have hthrow (n : ℕ) (hle : 6 ≤ n) (error : CallerRuntimeError) : (t.throw error).Nears b n :=
    nears_throw hle (by simp [hb]) error
  rw [hwait]
  cases event with
  | leaveQueue => exact nears_leaveQueue hb stopped
  | refused error => exact hthrow 15 (by decide) error
  | reserved => exact absurd rfl hreserved
  | container result stale bind =>
      cases result with
      | error error => exact hthrow 14 (by decide) error
      | ok container => exact nears_containerReady hb stale container
  | staleSettled error =>
      cases error with
      | some error => exact hthrow 13 (by decide) error
      | none =>
          change (staleSettled t none).Nears b 13
          exact nears_ensureWorker hb (by decide)
  | worker result bind =>
      cases result with
      | error error => exact hthrow 12 (by decide) error
      | ok worker =>
          change (workerMade t worker).Nears b 12
          exact nears_workerReady hb (by decide)
  | resumeRecorded error =>
      cases error with
      | some error => exact hthrow 11 (by decide) error
      | none =>
          change (resumeRecorded t none).Nears b 11
          exact nears_hand hb (by decide)
  | handled error => exact nears_handled (Nat.le_refl 10) (by simp [hb]) error
  | canceled => exact hthrow 10 (by decide) .other
  | settled healthy =>
      match healthy with
      | .error error => exact hthrow 9 (by decide) error
      | .ok false => exact hthrow 9 (by decide) .other
      | .ok true => exact ⟨Nat.lt_succ_self 8, fun _ => nofun, by simp [hb]⟩
  | checkEnded => exact nears_goto (Nat.lt_succ_self 7) (by simp [hb]) fun _ => nofun
  | checked error =>
      cases error with
      | some error => exact hthrow 7 (by decide) error
      | none =>
          change (if t.run.aborted then t.throw .other else t.answer).Nears b 7
          split
          · exact hthrow 7 (by decide) .other
          · exact nears_answer (by decide) (by simp [hb])
  | contextStopped error => exact absurd rfl hcontext
  | failureRecorded error =>
      have hgoto : (t.goto .cleanUp).Nears b 5 :=
        nears_goto (by decide) (by simp [hb]) fun _ => nofun
      change (if error.isSome then (t.goto .cleanUp).quarantine else t.goto .cleanUp).Nears b 5
      split
      · exact ⟨hgoto.rank, hgoto.fits⟩
      · exact hgoto
  | cleanUp stop close =>
      change (cleanUp t stop close).Nears b 4
      unfold cleanUp
      dsimp only
      split
      · exact nears_stopWorker (by decide) (by simp [hb]) _ _ _
      · exact nears_report hb (by decide)
  | cleanUpSettled => exact nears_goto (Nat.lt_succ_self 2) (by simp [hb]) fun _ => nofun
  | cleanUpCheckEnded => exact nears_goto (Nat.lt_succ_self 1) (by simp [hb]) fun _ => nofun
  | stopped error => exact nears_report hb Nat.one_pos

end SerialExecution

namespace ConcurrentExecution

open Turn

variable {b : CallerBackendOptions} {t : Turn} {n : ℕ}

theorem nears_leaveQueue (h : t.run.resuming = false) : (leaveQueue b t).Nears b 15 := by
  unfold leaveQueue
  dsimp only
  split
  · exact nears_throw (by decide) (by exact fun _ => h) _
  · split
    · exact nears_throw (by decide) (by exact fun _ => h) _
    · split
      · exact nears_finish (by decide) fun _ => h
      · exact ⟨Nat.lt_succ_self 14, fun _ => nofun, fun _ => ⟨h, rfl⟩⟩

theorem nears_bound (h : t.run.resuming = false) (hle : 11 ≤ n)
    (bind : Option CallerRuntimeError) : (bound t bind).Nears b n := by
  unfold bound
  split
  · exact nears_throw (by omega) (fun _ => h) _
  · exact nears_handOver hle fun _ => h

theorem nears_containerReady (h : t.run.resuming = false) (bind : Option CallerRuntimeError)
    (container : CallerContainer) : (containerReady t bind container).Nears b 14 := by
  unfold containerReady findWorker
  dsimp only
  split
  · exact nears_throw (by decide) (by exact fun _ => h) _
  · split
    · exact nears_goto (by decide) (fun _ => ⟨h, rfl⟩) (by simp)
    · exact nears_bound (by exact h) (by decide) _

theorem nears_report (h : t.run.resuming = false) (hpos : 0 < n) : (report t).Nears b n := by
  have hrun : (quarantines t).run = t.run := by
    unfold quarantines
    split <;> rfl
  refine nears_finish hpos fun _ => ?_
  change (quarantines t).run.resuming = false
  rwa [hrun]

/-- A turn of `executeConcurrent` brings the run nearer to its end. -/
theorem nears_turn (hb : b.concurrency.isNone = false) (hfits : t.run.Fits b)
    {event : ExecutionEvent} (hwait : t.run.wait = event.wait) (hreserved : event ≠ .reserved) :
    (turn b t event).Nears b t.run.wait.rank := by
  obtain ⟨hresuming, hserial⟩ := hfits.concurrent hb
  have h : b.concurrency.isNone = false → t.run.resuming = false := fun _ => hresuming
  have hthrow (n : ℕ) (hle : 6 ≤ n) (error : CallerRuntimeError) : (t.throw error).Nears b n :=
    nears_throw hle h error
  rw [hwait] at hserial ⊢
  cases event with
  | leaveQueue => exact nears_leaveQueue hresuming
  | refused error => exact hthrow 15 (by decide) error
  | reserved => exact absurd rfl hreserved
  | container result stale bind =>
      cases result with
      | error error => exact hthrow 14 (by decide) error
      | ok container => exact nears_containerReady hresuming bind container
  | worker result bind =>
      cases result with
      | error error => exact hthrow 12 (by decide) error
      | ok worker =>
          change (workerMade t bind worker).Nears b 12
          exact nears_bound (by exact hresuming) (by decide) bind
  | handled error => exact nears_handled (Nat.le_refl 10) h error
  | canceled => exact hthrow 10 (by decide) .other
  | settled healthy =>
      cases healthy with
      | error error => exact hthrow 9 (by decide) error
      | ok healthy =>
          cases healthy with
          | false => exact hthrow 9 (by decide) .other
          | true =>
              change ((t.log .stopAsked).goto .contextStop).Nears b 9
              exact nears_goto (by decide) (fun hb => ⟨h hb, rfl⟩) (by simp [hb])
  | contextStopped error =>
      cases error with
      | some error => exact hthrow 6 (by decide) error
      | none =>
          change (contextStopped t none).Nears b 6
          unfold contextStopped
          dsimp only
          split
          · exact nears_throw (by decide) (by exact h) .other
          · exact nears_answer (by decide) (by exact h)
  | cleanUp stop close =>
      change (cleanUp t stop close).Nears b 4
      unfold cleanUp
      dsimp only
      split
      · exact nears_stopWorker (by decide) (by exact h) _ _ _
      · exact nears_report hresuming (by decide)
  | cleanUpSettled =>
      change (cleanUpSettled t).Nears b 3
      unfold cleanUpSettled
      split
      · exact nears_goto (by decide) (fun hb => ⟨h hb, rfl⟩) (by simp)
      · exact nears_report hresuming (by decide)
  | stopped error =>
      refine nears_report ?_ Nat.one_pos
      cases error <;> exact hresuming
  | staleSettled _ | resumeRecorded _ | checkEnded | checked _ | failureRecorded _
  | cleanUpCheckEnded => cases hserial

end ConcurrentExecution

namespace CallerScopedBackend

open CallerExecution

variable {b : CallerBackendOptions} {s : CallerScopedBackend} {i : ℕ} {run : CallerExecution}

def Fit (b : CallerBackendOptions) (s : CallerScopedBackend) : Prop := ∀ run ∈ s.executions, run.Fits b

theorem Fit.update (h : s.Fit b) {f : CallerExecution → CallerExecution}
    (hwait : ∀ run, (f run).wait = run.wait) (hresuming : ∀ run, (f run).resuming = run.resuming) :
    (s.update i f).Fit b := by
  intro run hin
  obtain ⟨j, hj⟩ := List.mem_iff_getElem?.mp hin
  rw [show (s.update i f).executions = s.executions.modify i f from rfl, List.getElem?_modify,
    Option.map_eq_map, Option.map_eq_some_iff] at hj
  obtain ⟨before, hbefore, heq⟩ := hj
  have hfits := h before (List.mem_of_getElem? hbefore)
  split at heq
  · subst heq
    exact ⟨by rw [hwait]; exact hfits.serial, by rw [hwait, hresuming]; exact hfits.concurrent⟩
  · exact heq ▸ hfits

theorem Fit.append (h : s.Fit b) {new : CallerExecution} (hnew : new.Fits b) :
    ∀ run ∈ s.executions ++ [new], run.Fits b := by
  intro run hin
  rcases List.mem_append.mp hin with hin | hin
  · exact h run hin
  · exact List.mem_singleton.mp hin ▸ hnew

theorem Fit.refuse (h : s.Fit b) (code message : String) : (s.refuse code message).Fit b :=
  h.append ⟨fun _ => nofun, fun _ => ⟨rfl, rfl⟩⟩

theorem Fit.execute (h : s.Fit b) (task : CallerTask) (aborted : Bool) :
    (s.execute b task aborted).Fit b := by
  have hadmit (id context : String) (entry : ScopeEntry) : (s.admitRun b id context entry).Fit b := by
    unfold CallerScopedBackend.admitRun
    split <;> exact h.append ⟨fun _ => nofun, fun _ => ⟨rfl, rfl⟩⟩
  unfold CallerScopedBackend.execute enterScope
  repeat' split
  all_goals first | exact h.refuse _ _ | exact hadmit _ _ _

theorem takeTurn_eq {entry : ScopeEntry} (hrun : s.executions[i]? = some run)
    (hentry : s.entries.get? run.scope = some entry) (f : Turn → Turn) :
    s.takeTurn i f = { s with
      executions := s.executions.set i (f ⟨run, entry⟩).run
      entries := s.entries.set run.scope (f ⟨run, entry⟩).entry } := by
  unfold takeTurn
  rw [hrun]
  dsimp only
  rw [hentry]

/-- A turn that is due brings the run nearer to its end. -/
theorem nears_turn (hfits : run.Fits b) (entry : ScopeEntry) {event : ExecutionEvent}
    (hwait : run.wait = event.wait) (hreserved : event ≠ .reserved) :
    (if b.concurrency.isNone then SerialExecution.turn b ⟨run, entry⟩ s.stopped event
      else ConcurrentExecution.turn b ⟨run, entry⟩ event).Nears b run.wait.rank := by
  cases hb : b.concurrency.isNone with
  | true =>
      refine SerialExecution.nears_turn (t := ⟨run, entry⟩) hb hwait hreserved ?_ s.stopped
      exact hwait ▸ hfits.serial hb
  | false => exact ConcurrentExecution.nears_turn (t := ⟨run, entry⟩) hb hfits hwait hreserved

theorem Fit.turn (h : s.Fit b) {event : ExecutionEvent}
    (henabled : s.enabled b (.turn i event)) : (s.apply b (.turn i event)).Fit b := by
  obtain ⟨run, hrun, hwait, -⟩ := henabled
  have hfits := h run (List.mem_of_getElem? hrun)
  cases hentry : s.entries.get? run.scope with
  | none =>
      have hsame : s.apply b (.turn i event) = s := by
        simp only [apply, takeTurn]
        rw [show s.executions[i]? = some run from hrun]
        simp only [hentry]
      rwa [hsame]
  | some entry =>
      simp only [apply]
      rw [takeTurn_eq hrun hentry]
      intro other hin
      obtain hin | rfl := List.mem_or_eq_of_mem_set hin
      · exact h other hin
      · by_cases hreserved : event = .reserved
        · subst hreserved
          split <;> exact ⟨hfits.serial, hfits.concurrent⟩
        · exact (nears_turn hfits entry hwait hreserved).fits

theorem Fit.step (h : s.Fit b) {a : BackendEvent} (henabled : s.enabled b a) :
    (s.apply b a).Fit b := by
  have hmap {f : CallerExecution → CallerExecution} (hwait : ∀ run, (f run).wait = run.wait)
      (hresuming : ∀ run, (f run).resuming = run.resuming) :
      ∀ run ∈ s.executions.map f, run.Fits b := by
    intro run hin
    obtain ⟨before, hbefore, rfl⟩ := List.mem_map.mp hin
    have hfits := h before hbefore
    exact ⟨by rw [hwait]; exact hfits.serial, by rw [hwait, hresuming]; exact hfits.concurrent⟩
  cases a with
  | handle task aborted => exact h.execute task aborted
  | frame i frame =>
      refine h.update (fun run => ?_) fun run => ?_ <;> unfold onFrame <;> repeat' split
      all_goals rfl
  | heartbeat i =>
      refine h.update (fun run => ?_) fun run => ?_ <;> unfold CallerExecution.heartbeat <;> repeat' split
      all_goals rfl
  | monitor i => exact h.update (fun _ => rfl) fun _ => rfl
  | storageChecked i error =>
      refine h.update (fun run => ?_) fun run => ?_ <;> unfold CallerExecution.storageChecked <;>
        cases error <;> dsimp only <;> try split
      all_goals rfl
  | mutated i => exact h.update (fun _ => rfl) fun _ => rfl
  | abort i timedOut =>
      simp only [apply, CallerScopedBackend.abort]
      split
      · exact h
      · exact h.update (i := i) (fun _ => rfl) fun _ => rfl
  | turn i event => exact h.turn henabled
  | release i =>
      obtain ⟨run, hrun, hslot, -⟩ := henabled
      simp only [apply]
      cases hentry : s.entries.get? run.scope with
      | none =>
          unfold CallerScopedBackend.release
          rw [show s.executions[i]? = some run from hrun]
          dsimp only
          rw [hentry]
          exact h
      | some entry =>
          rw [CallerScopedBackend.release_eq hrun hentry]
          intro other hin
          obtain hin | rfl := List.mem_or_eq_of_mem_set hin
          · exact h other hin
          · exact ⟨(by simp), fun hb =>
              ⟨((h run (List.mem_of_getElem? hrun)).concurrent hb).1, rfl⟩⟩
  | idle scope =>
      simp only [apply, CallerScopedBackend.idle]
      repeat' split
      all_goals exact h
  | reclaim k event =>
      simp only [apply, CallerScopedBackend.reclaim]
      repeat' split
      all_goals exact h
  | stop =>
      refine hmap (fun run => ?_) fun run => ?_ <;> split <;> rfl

/-! ## Runs come to their end -/

/-- A run that has left the queue always has a turn to take. -/
theorem exists_turn (s : CallerScopedBackend) (i : ℕ) (hfits : run.Fits b)
    (hlive : run.isOver = false) (hqueue : run.wait ≠ .queue) (hcheck : run.storageCheck = false) :
    ∃ event, event ≠ .reserved ∧ run.wait = event.wait ∧ s.admissible b i run event ∧
      s.cleanUpYields b (.turn i event) := by
  have hserial (h : run.wait.isSerial = true) : b.concurrency.isNone = true := by
    by_contra hb
    rw [(hfits.concurrent (by rwa [Bool.not_eq_true] at hb)).2] at h
    cases h
  cases hwait : run.wait with
  | queue => exact absurd hwait hqueue
  | container => exact ⟨.container (.error .other) none none, nofun, rfl, trivial, trivial⟩
  | staleWorker => exact ⟨.staleSettled none, nofun, rfl, hserial (by rw [hwait]; rfl), trivial⟩
  | factory => exact ⟨.worker (.error .other) none, nofun, rfl, trivial, trivial⟩
  | resumeRecord => exact ⟨.resumeRecorded none, nofun, rfl, hserial (by rw [hwait]; rfl), trivial⟩
  | work => exact ⟨.handled none, nofun, rfl, trivial, trivial⟩
  | settle => exact ⟨.settled (.ok false), nofun, rfl, trivial, trivial⟩
  | runningCheck => exact ⟨.checkEnded, nofun, rfl, ⟨hserial (by rw [hwait]; rfl), hcheck⟩, trivial⟩
  | lastCheck => exact ⟨.checked none, nofun, rfl, hserial (by rw [hwait]; rfl), trivial⟩
  | contextStop =>
      have hb : b.concurrency.isSome = true := by
        rw [Option.isSome_iff_ne_none]
        exact fun hnone => hfits.serial (by simp [hnone]) hwait
      exact ⟨.contextStopped none, nofun, rfl, hb, trivial⟩
  | failureRecord =>
      exact ⟨.failureRecorded none, nofun, rfl, hserial (by rw [hwait]; rfl), trivial⟩
  | cleanUp => exact ⟨.cleanUp none none, nofun, rfl, trivial, fun _ _ _ _ _ => ⟨rfl, rfl⟩⟩
  | cleanUpSettle => exact ⟨.cleanUpSettled, nofun, rfl, trivial, trivial⟩
  | cleanUpCheck =>
      exact ⟨.cleanUpCheckEnded, nofun, rfl, ⟨hserial (by rw [hwait]; rfl), hcheck⟩, trivial⟩
  | stop => exact ⟨.stopped none, nofun, rfl, trivial, trivial⟩
  | slot => simp [isOver, hwait] at hlive
  | done => simp [isOver, hwait] at hlive

end CallerScopedBackend

end VicoopBridge
