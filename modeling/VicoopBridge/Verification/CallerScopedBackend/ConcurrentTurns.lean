import VicoopBridge.Verification.CallerScopedBackend.Runs

/-! # The steps of `executeConcurrent` -/

namespace VicoopBridge

theorem mem_addTo {xs : List String} {x y : String} : x ∈ addTo xs y ↔ x ∈ xs ∨ x = y := by
  unfold addTo
  split
  · rename_i hin
    exact ⟨.inl, fun h => h.elim id fun heq => heq ▸ hin⟩
  · simp

namespace ConcurrentExecution

open CallerExecution Turn

variable {b : CallerBackendOptions} {t : Turn}

/-! ## Up to the work -/

theorem goes_bound (h : t.run.Sound) (htry : t.run.wait.isTry = true)
    (hphase : t.run.phase ≠ .queue) (bind : Option CallerRuntimeError) :
    t.Goes b (bound t bind) := by
  cases bind with
  | some error => exact goes_throw h htry hphase error
  | none => exact goes_handOver h htry

theorem goes_findWorker (h : t.run.Sound) (htry : t.run.wait.isTry = true)
    (hphase : t.run.phase ≠ .queue) (bind : Option CallerRuntimeError) :
    t.Goes b (findWorker t bind) := by
  unfold findWorker
  split
  · exact goes_goto h htry hphase rfl nofun nofun
  · rename_i worker _
    let u : Turn := { t with run := { t.run with worker := some worker } }
    refine .after (u := u) (.of_entry rfl rfl rfl rfl) rfl ?_
    exact goes_bound (t := u) (h.congr rfl rfl rfl rfl rfl rfl) htry hphase bind

theorem goes_containerReady (h : t.run.Sound) (htry : t.run.wait.isTry = true)
    (hphase : t.run.phase ≠ .queue) (bind : Option CallerRuntimeError)
    (container : CallerContainer) : t.Goes b (containerReady t bind container) := by
  let u : Turn := { t with run := { t.run with container := some container } }
  have hu : u.run.Sound := h.congr rfl rfl rfl rfl rfl rfl
  refine .after (u := u) (.of_entry rfl rfl rfl rfl) rfl ?_
  change u.Goes b (if u.run.aborted then u.throw .other
    else findWorker (u.enter .backendInitialization) bind)
  split
  · exact goes_throw hu htry hphase _
  · refine .after (u := u.enter .backendInitialization) (.of_entry rfl rfl rfl rfl) rfl ?_
    exact goes_findWorker (t := u.enter .backendInitialization)
      (hu.congr rfl rfl rfl rfl rfl rfl) htry nofun bind

theorem goes_workerMade (h : t.run.Sound) (htry : t.run.wait.isTry = true)
    (hphase : t.run.phase ≠ .queue) (bind : Option CallerRuntimeError) (worker : ℕ) :
    t.Goes b (workerMade t bind worker) := by
  let u : Turn := {
    run := { t.run with worker := some worker }
    entry := { t.entry with
      contextWorkers := t.entry.contextWorkers.set t.run.context worker } }
  have hu : u.run.Sound := h.congr rfl rfl rfl rfl rfl rfl
  unfold workerMade
  dsimp only
  generalize hframe : runtimeFrame _ = frame
  have hemitted : (u.emit frame).run.Sound :=
    hu.emit (isOver_of_isTry htry) (by rw [← hframe]; rfl)
  refine .after (u := u.emit frame) ⟨rfl, rfl, rfl, rfl, rfl, id, fun _ => id⟩ rfl ?_
  exact goes_bound (t := u.emit frame) hemitted htry hphase bind

/-! ## After the work -/

theorem goes_settled (h : t.run.Sound) (htry : t.run.wait.isTry = true)
    (hphase : t.run.phase ≠ .queue) (healthy : Except CallerRuntimeError Bool) :
    t.Goes b (settled t healthy) := by
  cases healthy with
  | error error => exact goes_throw h htry hphase error
  | ok healthy =>
      cases healthy with
      | false => exact goes_throw h htry hphase _
      | true =>
          have hlive := isOver_of_isTry htry
          have hlogged : (t.run.log .stopAsked).Sound := h.log hlive nofun nofun nofun nofun
          refine .of_live (.of_entry rfl rfl rfl rfl) ?_ hphase nofun rfl rfl
          exact hlogged.move hlive rfl rfl rfl rfl id (fun _ => htry)
            fun _ => mem_log.mpr (.inr rfl)

theorem goes_contextStopped (h : t.run.Sound) (hphase : t.run.phase ≠ .queue)
    (hwait : t.run.wait = .contextStop) (error : Option CallerRuntimeError) :
    t.Goes b (contextStopped t error) := by
  have htry : t.run.wait.isTry = true := by rw [hwait]; rfl
  have hlive := isOver_of_isTry htry
  have hasked := h.asked (.inl hwait)
  cases error with
  | some error => exact goes_throw h htry hphase error
  | none =>
      let u : Turn := { t with run := { t.run.log .stopped with acquired := false } }
      have hlogged : (t.run.log .stopped).Sound := h.log hlive nofun nofun nofun fun _ => hasked
      have hu : u.run.Sound := {
        spec := ⟨hlogged.spec.running, hlogged.spec.ended⟩
        closed := hlogged.closed
        terminal := hlogged.terminal
        trying := hlogged.trying
        caught := hlogged.caught
        asked := hlogged.asked
        owned := fun _ => .inr (mem_log.mpr (.inr rfl))
        confirmed := hlogged.confirmed }
      refine .after (u := u) (.of_entry rfl rfl rfl rfl) rfl ?_
      change u.Goes b (if u.run.aborted then u.throw .other else u.answer)
      split
      · exact goes_throw hu htry hphase _
      · exact goes_answer hu htry hphase

/-! ## The catch block -/

theorem quarantines_run (t : Turn) : (quarantines t).run = t.run := by
  unfold quarantines
  split <;> rfl

theorem keeps_quarantines (t : Turn) : t.Keeps (quarantines t) := by
  unfold quarantines
  split
  · exact ⟨rfl, rfl, rfl, rfl, rfl, fun _ => rfl, fun _ hin => mem_addTo.mpr (.inl hin)⟩
  · exact ⟨rfl, rfl, rfl, rfl, rfl, fun _ => rfl, fun _ hin => mem_addTo.mpr (.inl hin)⟩
  all_goals first
    | exact keeps_quarantine t
    | exact .of_entry rfl rfl rfl rfl

theorem quarantines_of_plain (h : t.run.error = .other ∨ t.run.error = .queueFull) :
    quarantines t = t := by
  unfold quarantines
  obtain h | h := h <;> rw [h]

theorem quarantines_of_cleanUp (h : t.run.error = .storageHelperUnconfirmed ∨
    t.run.error = .scopeCleanupUnconfirmed) : (quarantines t).entry.quarantined = true ∧
      t.run.context ∈ (quarantines t).entry.failedContexts := by
  unfold quarantines
  obtain h | h := h <;> rw [h] <;> exact ⟨rfl, mem_addTo.mpr (.inr rfl)⟩

theorem report_eq (t : Turn) :
    report t = ((quarantines t).emit (.fail (failure (quarantines t)))).finish := rfl

theorem report_run (t : Turn) :
    (report t).run = (t.run.emit (.fail (failure (quarantines t)))).finish := by
  rw [report_eq]
  simp only [Turn.finish, Turn.emit, quarantines_run]

theorem keeps_report (t : Turn) : t.Keeps (report t) :=
  (keeps_quarantines t).trans (.of_entry rfl rfl rfl rfl)

theorem contained_report (hb : b.concurrency.isSome) (h : t.run.Sound)
    (hleft : .acquired ∈ t.run.trace → .stopped ∉ t.run.trace →
      t.run.context ∈ t.entry.failedContexts) : (report t).Contained b := by
  have hkeeps := keeps_report t
  have hin (x : Happening) (hx : ∀ frame, x ≠ .emit frame) :
      x ∈ (report t).run.trace ↔ x ∈ t.run.trace := by
    rw [report_run]
    exact mem_log.trans (or_iff_left fun heq => hx _ heq)
  have hserial : b.concurrency.isNone = false := by
    rw [Option.isNone_eq_false_iff]
    exact hb
  constructor
  · rintro ⟨-, -, hacquired, hstopped⟩
    rw [hin _ (by simp)] at hacquired hstopped
    rw [hserial, hkeeps.context]
    exact hkeeps.failed _ (hleft hacquired hstopped)
  · rintro ⟨-, hfailed⟩
    have herror : t.run.error = .storageHelperUnconfirmed ∨
        t.run.error = .scopeCleanupUnconfirmed := by
      obtain hfailed | ⟨-, hfailed⟩ := hfailed
      · rw [hin _ (by simp)] at hfailed
        exact .inl (h.caught _ hfailed).symm
      · rw [hin _ (by simp)] at hfailed
        exact .inr (h.caught _ hfailed).symm
    obtain ⟨hquarantined, hcontext⟩ := quarantines_of_cleanUp herror
    rw [hkeeps.context]
    exact ⟨hquarantined, fun _ => hcontext⟩

theorem goes_report (hb : b.concurrency.isSome) (h : t.run.Sound) (hphase : t.run.phase ≠ .queue)
    (hlive : t.run.isOver = false) (hstop : .acquired ∈ t.run.trace → .stopAsked ∈ t.run.trace)
    (hleft : .acquired ∈ t.run.trace → .stopped ∉ t.run.trace →
      t.run.context ∈ t.entry.failedContexts) : t.Goes b (report t) := by
  have hrun := report_run t
  refine ⟨keeps_report t, ?_, by rwa [hrun], by rw [hrun]; nofun, by rw [hrun]; nofun,
    by rw [hrun]; rfl, contained_report hb h hleft⟩
  rw [hrun]
  exact h.finish hlive rfl fun _ => hstop

/-- The clean-up of a run goes on, since its worker does not throw. -/
theorem goes_cleanUp (hb : b.concurrency.isSome) (h : t.run.Sound) (hphase : t.run.phase ≠ .queue)
    (hwait : t.run.wait = .cleanUp) {stop close : Option CallerRuntimeError}
    (hyield : (t.run.acquired || t.run.worker.isSome) = true →
      (t.run.worker.or (t.entry.contextWorkers.get? t.run.context)).isSome = true →
      stop = none ∧ close = none) : t.Goes b (cleanUp t stop close) := by
  have hlive : t.run.isOver = false := by simp [isOver, hwait]
  let u : Turn := { t with run := { t.run with forwarding := false } }
  have hu : u.run.Sound := h.move hlive hlive rfl rfl rfl id id h.asked
  refine .after (u := u) (.of_entry rfl rfl rfl rfl) rfl ?_
  unfold cleanUp
  dsimp only
  split
  · rename_i howns
    unfold stopWorker
    rw [if_neg]
    · refine .of_live (.of_entry rfl rfl rfl rfl) ?_ hphase (by rintro ⟨⟩) rfl rfl
      exact hu.move hlive rfl rfl rfl rfl id (by rintro ⟨⟩) (by rintro (h | h) <;> cases h)
    · intro hthrows
      simp only [Bool.and_eq_true, Bool.or_eq_true] at hthrows
      obtain ⟨rfl, rfl⟩ := hyield howns hthrows.1
      simp at hthrows
  · rename_i howns
    simp only [Bool.or_eq_true, not_or] at howns
    have hgone (hin : .acquired ∈ u.run.trace) := (hu.owned hin).resolve_left howns.1
    exact goes_report (t := u) hb hu hphase hlive (fun hin => hu.confirmed (hgone hin))
      fun hin hnot => absurd (hgone hin) hnot

theorem keeps_deleteWorker (t : Turn) : t.Keeps (deleteWorker t) :=
  ⟨rfl, rfl, rfl, rfl, rfl, id, fun _ => id⟩

theorem goes_cleanUpSettled (hb : b.concurrency.isSome) (h : t.run.Sound)
    (hphase : t.run.phase ≠ .queue) (hwait : t.run.wait = .cleanUpSettle) :
    t.Goes b (cleanUpSettled t) := by
  have hlive : t.run.isOver = false := by simp [isOver, hwait]
  unfold cleanUpSettled
  split
  · have hlogged : (t.run.log .stopAsked).Sound := h.log hlive (by simp) (by simp) (by simp) (by simp)
    refine .of_live (.of_entry rfl rfl rfl rfl) ?_ hphase (by rintro ⟨⟩) rfl rfl
    exact hlogged.move hlive rfl rfl rfl rfl id (by rintro ⟨⟩) fun _ => mem_log.mpr (.inr rfl)
  · rename_i hacquired
    have hgone (hin : .acquired ∈ t.run.trace) := (h.owned hin).resolve_left hacquired
    refine .after (keeps_deleteWorker t) rfl ?_
    exact goes_report (t := deleteWorker t) hb h hphase hlive
      (fun hin => h.confirmed (hgone hin)) fun hin hnot => absurd (hgone hin) hnot

theorem goes_stopped (hb : b.concurrency.isSome) (h : t.run.Sound) (hphase : t.run.phase ≠ .queue)
    (hwait : t.run.wait = .stop) (error : Option CallerRuntimeError) :
    t.Goes b (stopped t error) := by
  have hlive : t.run.isOver = false := by simp [isOver, hwait]
  have hasked := h.asked (.inr hwait)
  cases error with
  | some error =>
      let u : Turn := { t with entry := { t.entry with
        failedContexts := addTo t.entry.failedContexts t.run.context } }
      refine .after (u := deleteWorker u)
        ⟨rfl, rfl, rfl, rfl, rfl, id, fun _ hin => mem_addTo.mpr (.inl hin)⟩ rfl ?_
      exact goes_report (t := deleteWorker u) hb h hphase hlive (fun _ => hasked)
        fun _ _ => mem_addTo.mpr (.inr rfl)
  | none =>
      have hlogged : (t.run.log .stopped).Sound := h.log hlive (by simp) (by simp) (by simp) fun _ => hasked
      refine .after (u := deleteWorker (t.log .stopped))
        ⟨rfl, rfl, rfl, rfl, rfl, id, fun _ => id⟩ rfl ?_
      refine goes_report (t := deleteWorker (t.log .stopped)) hb hlogged hphase hlive ?_ ?_
      · exact fun _ => mem_log.mpr (.inl hasked)
      · exact fun _ hnot => absurd (mem_log.mpr (.inr rfl)) hnot

/-! ## Every step -/

variable {event : ExecutionEvent}

theorem spec_leaveQueue (h : t.run.Sound) (hq : t.run.Queued) (hwait : t.run.wait = .queue) :
    Spec b .leaveQueue t (leaveQueue b t) := by
  have htry : t.run.wait.isTry = true := by rw [hwait]; rfl
  let u : Turn := { t with run := { t.run with granted := true } }
  have hu : u.run.Sound := h.congr rfl rfl rfl rfl rfl rfl
  have huq : u.run.Queued := ⟨hq.phase, hq.wait, hq.worker, hq.error, hq.clean⟩
  refine .after (u := u) (.of_entry rfl rfl rfl rfl) rfl rfl (fun _ => .inr rfl) (fun _ => rfl) ?_
  unfold leaveQueue
  dsimp only
  split
  · exact spec_throw_queue hu huq hwait (.inl rfl)
  · split
    · exact spec_throw_queue hu huq hwait (.inl rfl)
    · rename_i hopen
      split
      · exact spec_capacityFailure hu huq hwait
      · simp only [not_or, Bool.not_eq_true] at hopen
        have hacquired := hu.acquire (isOver_of_isTry htry)
        exact {
          keeps := .of_entry rfl rfl rfl rfl
          sound := hacquired.move (isOver_of_isTry htry) rfl rfl rfl rfl id (fun _ => htry)
            (by simp)
          queued := .of_phase_ne (by simp) (by simp)
          left := by simp
          undone := by simp
          used := by simp
          untouched := by simp
          enters := fun _ _ => ⟨rfl, hopen.1, fun _ => ⟨rfl, hopen.2⟩⟩
          grants := .inl
          granted := id
          contained := .of_live rfl }

theorem spec_cleanUp_queue (h : t.run.Sound) (hq : t.run.Queued)
    (hphase : t.run.phase = .queue) (hwait : t.run.wait = .cleanUp)
    (stop close : Option CallerRuntimeError) : Spec b event t (cleanUp t stop close) := by
  have hlive : t.run.isOver = false := by simp [isOver, hwait]
  let u : Turn := { t with run := { t.run with forwarding := false } }
  have hu : u.run.Sound := h.move hlive hlive rfl rfl rfl id id h.asked
  have huq : u.run.Queued := ⟨hq.phase, hq.wait, hq.worker, hq.error, hq.clean⟩
  refine .after (u := u) (.of_entry rfl rfl rfl rfl) rfl rfl .inl id ?_
  obtain ⟨hacquired, hworker, -⟩ := hq.worker hphase
  have hreport : cleanUp t stop close = report u := by
    unfold cleanUp
    dsimp only
    rw [if_neg (by simp [hacquired, hworker])]
  rw [hreport, report_eq, quarantines_of_plain (t := u) (hq.error hphase)]
  refine spec_finish_queue hu huq hphase hlive rfl fun error hin => ?_
  rw [hu.caught error hin]
  exact hq.error hphase

theorem spec_turn (hb : b.concurrency.isSome) (h : t.run.Sound) (hq : t.run.Queued)
    (hwait : t.run.wait = event.wait)
    (hrefused : ∀ error, event = .refused error → error = .other ∨ error = .queueFull)
    (hyield : ∀ stop close, event = .cleanUp stop close →
      (t.run.acquired || t.run.worker.isSome) = true →
      (t.run.worker.or (t.entry.contextWorkers.get? t.run.context)).isSome = true →
      stop = none ∧ close = none) : Spec b event t (turn b t event) := by
  have hlive (hslot : event.wait ≠ .slot) (hdone : event.wait ≠ .done) : t.run.isOver = false :=
    isOver_eq_false.mpr ⟨hwait ▸ hslot, hwait ▸ hdone⟩
  have hstays (hphase : t.run.phase ≠ .queue) (hlive : t.run.isOver = false) :
      Spec b event t t :=
    Goes.spec (.of_live (.of_entry rfl rfl rfl rfl) h hphase (fun hqueue => hphase (hq.phase hqueue))
      hlive rfl) hphase
  cases event with
  | leaveQueue => exact spec_leaveQueue h hq hwait
  | refused error => exact spec_throw_queue h hq hwait (hrefused error rfl)
  | reserved =>
      obtain ⟨ht, hphase⟩ := hq.trying hwait rfl nofun
      refine Goes.spec (.of_live ⟨rfl, rfl, rfl, rfl, rfl, id, fun _ => id⟩ h hphase ?_
        (isOver_of_isTry ht) rfl) hphase
      exact fun hqueue => hphase (hq.phase hqueue)
  | container result stale bind =>
      obtain ⟨ht, hphase⟩ := hq.trying hwait rfl nofun
      cases result with
      | error error => exact (goes_throw h ht hphase error).spec hphase
      | ok container => exact (goes_containerReady h ht hphase bind container).spec hphase
  | worker result bind =>
      obtain ⟨ht, hphase⟩ := hq.trying hwait rfl nofun
      cases result with
      | error error => exact (goes_throw h ht hphase error).spec hphase
      | ok worker => exact (goes_workerMade h ht hphase bind worker).spec hphase
  | handled error =>
      obtain ⟨ht, hphase⟩ := hq.trying hwait rfl nofun
      exact (goes_handled h ht hphase error).spec hphase
  | canceled =>
      obtain ⟨ht, hphase⟩ := hq.trying hwait rfl nofun
      exact (goes_throw h ht hphase _).spec hphase
  | settled healthy =>
      obtain ⟨ht, hphase⟩ := hq.trying hwait rfl nofun
      exact (goes_settled h ht hphase healthy).spec hphase
  | contextStopped error =>
      obtain ⟨-, hphase⟩ := hq.trying hwait rfl nofun
      exact (goes_contextStopped h hphase hwait error).spec hphase
  | staleSettled | resumeRecorded | checkEnded | checked =>
      obtain ⟨ht, hphase⟩ := hq.trying hwait rfl nofun
      exact hstays hphase (isOver_of_isTry ht)
  | cleanUp stop close =>
      by_cases hphase : t.run.phase = .queue
      · exact spec_cleanUp_queue h hq hphase hwait stop close
      · exact (goes_cleanUp hb h hphase hwait (hyield stop close rfl)).spec hphase
  | cleanUpSettled =>
      have hphase := hq.phase_ne (hwait ▸ nofun) (hwait ▸ nofun) (hlive nofun nofun)
      exact (goes_cleanUpSettled hb h hphase hwait).spec hphase
  | failureRecorded | cleanUpCheckEnded =>
      have hlive := hlive nofun nofun
      exact hstays (hq.phase_ne (hwait ▸ nofun) (hwait ▸ nofun) hlive) hlive
  | stopped error =>
      have hphase := hq.phase_ne (hwait ▸ nofun) (hwait ▸ nofun) (hlive nofun nofun)
      exact (goes_stopped hb h hphase hwait error).spec hphase

end ConcurrentExecution

end VicoopBridge
