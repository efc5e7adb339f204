import VicoopBridge.Verification.CallerScopedBackend.Runs

/-! # The steps of `execute` -/

namespace VicoopBridge

namespace SerialExecution

open CallerExecution Turn

variable {b : CallerBackendOptions} {t : Turn}

/-! ## Up to the work -/

theorem goes_hand (h : t.run.Sound) (htry : t.run.wait.isTry = true) : t.Goes b (hand t) := by
  have hlive := isOver_of_isTry htry
  unfold hand
  split
  · have hemit : (t.run.emit (runtimeFrame [("workspaceRestored", .bool true),
        ("conversationReset", .bool true)])).Sound := h.emit hlive rfl
    refine .of_live ⟨rfl, rfl, rfl, rfl, rfl, id, fun _ => id⟩ ?_ nofun nofun rfl rfl
    exact hemit.move hlive rfl rfl rfl rfl id (fun _ => htry) (Or.elim · nofun nofun)
  · refine .of_live ⟨rfl, rfl, rfl, rfl, rfl, id, fun _ => id⟩ ?_ nofun nofun rfl rfl
    exact h.move hlive rfl rfl rfl rfl id (fun _ => htry) (Or.elim · nofun nofun)

theorem goes_workerReady (h : t.run.Sound) (htry : t.run.wait.isTry = true)
    (hphase : t.run.phase ≠ .queue) : t.Goes b (workerReady t) := by
  unfold workerReady
  split
  · exact goes_throw h htry hphase _
  · split
    · exact goes_goto h htry hphase rfl nofun nofun
    · exact goes_hand h htry

theorem goes_ensureWorker (h : t.run.Sound) (htry : t.run.wait.isTry = true)
    (hphase : t.run.phase ≠ .queue) : t.Goes b (ensureWorker t) := by
  unfold ensureWorker
  split
  · exact goes_goto h htry hphase rfl nofun nofun
  · exact goes_workerReady h htry hphase

theorem goes_replaceWorker (h : t.run.Sound) (htry : t.run.wait.isTry = true)
    (hphase : t.run.phase ≠ .queue) (stale : Option CallerRuntimeError)
    (container : CallerContainer) : t.Goes b (replaceWorker t stale container) := by
  unfold replaceWorker
  split
  · cases stale with
    | some error => exact goes_throw h htry hphase error
    | none => exact goes_goto h htry hphase rfl nofun nofun
  · exact goes_ensureWorker h htry hphase

theorem goes_containerReady (h : t.run.Sound) (htry : t.run.wait.isTry = true)
    (hphase : t.run.phase ≠ .queue) (stale : Option CallerRuntimeError)
    (container : CallerContainer) : t.Goes b (containerReady t stale container) := by
  have hacquired := h.acquire (isOver_of_isTry htry)
  let u : Turn := { t with run := { t.run.acquire with container := some container } }
  have hu : u.run.Sound := hacquired.congr rfl rfl rfl rfl rfl rfl
  refine .after (u := u) (.of_entry rfl rfl rfl rfl) rfl ?_
  change u.Goes b (if u.run.aborted then u.throw .other
    else replaceWorker (u.enter .backendInitialization) stale container)
  split
  · exact goes_throw hu htry hphase _
  · refine .after (u := u.enter .backendInitialization) (.of_entry rfl rfl rfl rfl) rfl ?_
    exact goes_replaceWorker (t := u.enter .backendInitialization)
      (hu.congr rfl rfl rfl rfl rfl rfl) htry nofun stale container

theorem goes_staleSettled (h : t.run.Sound) (htry : t.run.wait.isTry = true)
    (hphase : t.run.phase ≠ .queue) (error : Option CallerRuntimeError) :
    t.Goes b (staleSettled t error) := by
  cases error with
  | some error => exact goes_throw h htry hphase error
  | none =>
      refine .after (u := {
        run := { t.run with resuming := true }
        entry := { t.entry with worker := none, contexts := [], recovered := true } })
        ⟨rfl, rfl, rfl, rfl, rfl, id, fun _ => id⟩ rfl ?_
      exact goes_ensureWorker (h.congr rfl rfl rfl rfl rfl rfl) htry hphase

theorem goes_workerMade (h : t.run.Sound) (htry : t.run.wait.isTry = true)
    (hphase : t.run.phase ≠ .queue) (worker : ℕ) : t.Goes b (workerMade t worker) := by
  refine .after (u := { t with entry := { t.entry with
    worker := some worker, dockerId := t.run.container.bind CallerContainer.dockerId } })
    ⟨rfl, rfl, rfl, rfl, rfl, id, fun _ => id⟩ rfl ?_
  exact goes_workerReady h htry hphase

theorem goes_resumeRecorded (h : t.run.Sound) (htry : t.run.wait.isTry = true)
    (hphase : t.run.phase ≠ .queue) (error : Option CallerRuntimeError) :
    t.Goes b (resumeRecorded t error) := by
  cases error with
  | some error => exact goes_throw h htry hphase error
  | none =>
      refine .after (u := { t with run := { t.run with resuming := false } })
        (.of_entry rfl rfl rfl rfl) rfl ?_
      exact goes_hand (h.congr rfl rfl rfl rfl rfl rfl) htry

/-! ## After the work -/

theorem goes_settled (h : t.run.Sound) (htry : t.run.wait.isTry = true)
    (hphase : t.run.phase ≠ .queue) (healthy : Except CallerRuntimeError Bool) :
    t.Goes b (settled t healthy) := by
  cases healthy with
  | error error => exact goes_throw h htry hphase error
  | ok healthy =>
      cases healthy with
      | false => exact goes_throw h htry hphase _
      | true =>
          refine .of_live (.of_entry rfl rfl rfl rfl) ?_ hphase nofun rfl rfl
          exact h.move (isOver_of_isTry htry) rfl rfl rfl rfl id (fun _ => htry)
            (Or.elim · nofun nofun)

theorem goes_checked (h : t.run.Sound) (htry : t.run.wait.isTry = true)
    (hphase : t.run.phase ≠ .queue) (error : Option CallerRuntimeError) :
    t.Goes b (checked t error) := by
  cases error with
  | some error => exact goes_throw h htry hphase error
  | none =>
      unfold checked
      dsimp only
      split
      · exact goes_throw h htry hphase _
      · exact goes_answer h htry hphase

/-! ## The catch block -/

theorem goes_failureRecorded (h : t.run.Sound) (hphase : t.run.phase ≠ .queue)
    (hwait : t.run.wait = .failureRecord) (error : Option CallerRuntimeError) :
    t.Goes b (failureRecorded t error) := by
  have hlive : t.run.isOver = false := by simp [isOver, hwait]
  have hmoved : (t.goto .cleanUp).run.Sound :=
    h.move hlive rfl rfl rfl rfl id (by rintro ⟨⟩) (by rintro (h | h) <;> cases h)
  unfold failureRecorded
  dsimp only
  split
  · exact .of_live ⟨rfl, rfl, rfl, rfl, rfl, fun _ => rfl, fun _ => id⟩ hmoved hphase (by rintro ⟨⟩) rfl rfl
  · exact .of_live (.of_entry rfl rfl rfl rfl) hmoved hphase (by rintro ⟨⟩) rfl rfl

theorem report_run (t : Turn) :
    ∃ error, (report t).run = (t.run.emit (.fail error)).finish := by
  unfold report
  split <;> exact ⟨_, rfl⟩

theorem keeps_report (t : Turn) : t.Keeps (report t) := by
  unfold report
  split <;> first
    | exact .of_entry rfl rfl rfl rfl
    | exact ⟨rfl, rfl, rfl, rfl, rfl, fun _ => rfl, fun _ => id⟩

theorem report_of_plain (h : t.run.error = .other ∨ t.run.error = .queueFull) :
    report t = (t.emit (.fail (failure t))).finish := by
  unfold report
  obtain h | h := h <;> rw [h] <;> rfl

theorem quarantined_report (h : t.run.error = .storageHelperUnconfirmed) :
    (report t).entry.quarantined = true := by
  unfold report
  rw [h]
  rfl

theorem sound_report (h : t.run.Sound) (hlive : t.run.isOver = false)
    (hstop : .acquired ∈ t.run.trace → .stopAsked ∈ t.run.trace) : (report t).run.Sound := by
  obtain ⟨error, hrun⟩ := report_run t
  rw [hrun]
  exact h.finish hlive rfl fun _ => hstop

theorem contained_report (hb : b.concurrency = none) (h : t.run.Sound)
    (hleft : .acquired ∈ t.run.trace → .stopped ∉ t.run.trace → t.entry.quarantined = true) :
    (report t).Contained b := by
  obtain ⟨error, hrun⟩ := report_run t
  have hin (x : Happening) (hx : ∀ frame, x ≠ .emit frame) :
      x ∈ (report t).run.trace ↔ x ∈ t.run.trace := by
    rw [hrun]
    exact mem_log.trans (or_iff_left fun heq => hx _ heq)
  constructor
  · rintro ⟨-, -, hacquired, hstopped⟩
    rw [hin _ (by simp)] at hacquired hstopped
    simpa [hb] using (keeps_report t).quarantined (hleft hacquired hstopped)
  · rintro ⟨-, hfailed | ⟨hconcurrent, -⟩⟩
    · rw [hin _ (by simp)] at hfailed
      exact ⟨quarantined_report (h.caught _ hfailed).symm, by simp [hb]⟩
    · simp [hb] at hconcurrent

theorem goes_report (hb : b.concurrency = none) (h : t.run.Sound) (hphase : t.run.phase ≠ .queue)
    (hlive : t.run.isOver = false) (hstop : .acquired ∈ t.run.trace → .stopAsked ∈ t.run.trace)
    (hleft : .acquired ∈ t.run.trace → .stopped ∉ t.run.trace → t.entry.quarantined = true) :
    t.Goes b (report t) := by
  have hcontained := contained_report hb h hleft
  have hsound := sound_report h hlive hstop
  have hkeeps := keeps_report t
  obtain ⟨error, hrun⟩ := report_run t
  exact ⟨hkeeps, hsound, by rwa [hrun], by rw [hrun]; nofun, by rw [hrun]; nofun, by rw [hrun]; rfl,
    hcontained⟩

/-- The clean-up of a run goes on, since its worker does not throw. -/
theorem goes_cleanUp (hb : b.concurrency = none) (h : t.run.Sound) (hphase : t.run.phase ≠ .queue)
    (hwait : t.run.wait = .cleanUp) {stop close : Option CallerRuntimeError}
    (hyield : t.run.acquired = true → t.entry.worker.isSome = true → stop = none ∧ close = none) :
    t.Goes b (cleanUp t stop close) := by
  have hlive : t.run.isOver = false := by simp [isOver, hwait]
  let u : Turn := { t with run := { t.run with
    storageFailure := t.run.storageFailure || t.run.error = .storageLimit, forwarding := false } }
  have hu : u.run.Sound := h.move hlive hlive rfl rfl rfl id id h.asked
  refine .after (u := u) (.of_entry rfl rfl rfl rfl) rfl ?_
  change u.Goes b (if u.run.acquired then u.stopWorker u.entry.worker stop close else report u)
  split
  · rename_i hacquired
    unfold stopWorker
    rw [if_neg]
    · refine .of_live (.of_entry rfl rfl rfl rfl) ?_ hphase (by rintro ⟨⟩) rfl rfl
      exact hu.move hlive rfl rfl rfl rfl id (by rintro ⟨⟩) (by rintro (h | h) <;> cases h)
    · intro hthrows
      simp only [Bool.and_eq_true, Bool.or_eq_true] at hthrows
      obtain ⟨rfl, rfl⟩ := hyield hacquired hthrows.1
      simp at hthrows
  · rename_i hacquired
    have hgone (hin : .acquired ∈ u.run.trace) := (hu.owned hin).resolve_left hacquired
    exact goes_report hb hu hphase hlive (fun hin => hu.confirmed (hgone hin))
      fun hin hnot => absurd (hgone hin) hnot

theorem goes_stopped (hb : b.concurrency = none) (h : t.run.Sound) (hphase : t.run.phase ≠ .queue)
    (hwait : t.run.wait = .stop) (error : Option CallerRuntimeError) :
    t.Goes b (SerialExecution.stopped t error) := by
  have hlive : t.run.isOver = false := by simp [isOver, hwait]
  have hasked := h.asked (.inr hwait)
  unfold SerialExecution.stopped
  cases error with
  | some error =>
      refine .after (u := { t.quarantine with entry := { t.quarantine.entry with
        worker := none, contexts := [], recovered := true } })
        ⟨rfl, rfl, rfl, rfl, rfl, fun _ => rfl, fun _ => id⟩ rfl ?_
      exact goes_report hb h hphase hlive (fun _ => hasked) fun _ _ => rfl
  | none =>
      refine .after (u := { t.log .stopped with entry := { t.entry with
        worker := none, contexts := [], recovered := true } })
        ⟨rfl, rfl, rfl, rfl, rfl, id, fun _ => id⟩ rfl ?_
      refine goes_report hb (h.log hlive (by simp) (by simp) (by simp) fun _ => hasked) hphase hlive ?_ ?_
      · exact fun _ => mem_log.mpr (.inl hasked)
      · exact fun _ hnot => absurd (mem_log.mpr (.inr rfl)) hnot

/-! ## Every step -/

variable {event : ExecutionEvent}

theorem spec_leaveQueue (hb : b.concurrency = none) (h : t.run.Sound) (hq : t.run.Queued)
    (hwait : t.run.wait = .queue) (stopped : Bool) :
    Spec b .leaveQueue t (leaveQueue b t stopped) := by
  have htry : t.run.wait.isTry = true := by rw [hwait]; rfl
  unfold leaveQueue
  split
  · exact spec_throw_queue h hq hwait (.inl rfl)
  · rename_i hopen
    split
    · exact spec_capacityFailure h hq hwait
    · simp only [Bool.or_eq_true, not_or, Bool.not_eq_true] at hopen
      exact {
        keeps := .of_entry rfl rfl rfl rfl
        sound := h.move (isOver_of_isTry htry) rfl rfl rfl rfl id (fun _ => htry)
          (by simp)
        queued := .of_phase_ne (by simp) (by simp)
        left := by simp
        undone := by simp
        used := by simp
        untouched := by simp
        enters := fun _ _ => ⟨rfl, hopen.2, by simp [hb]⟩
        grants := .inl
        granted := id
        contained := .of_live rfl }

theorem spec_cleanUp_queue (h : t.run.Sound) (hq : t.run.Queued)
    (hphase : t.run.phase = .queue) (hwait : t.run.wait = .cleanUp)
    (stop close : Option CallerRuntimeError) : Spec b event t (cleanUp t stop close) := by
  have hlive : t.run.isOver = false := by simp [isOver, hwait]
  let u : Turn := { t with run := { t.run with
    storageFailure := t.run.storageFailure || t.run.error = .storageLimit, forwarding := false } }
  have hu : u.run.Sound := h.move hlive hlive rfl rfl rfl id id h.asked
  have huq : u.run.Queued := ⟨hq.phase, hq.wait, hq.worker, hq.error, hq.clean⟩
  refine .after (u := u) (.of_entry rfl rfl rfl rfl) rfl rfl .inl id ?_
  have hreport : cleanUp t stop close = report u := by
    change (if t.run.acquired then _ else report u) = report u
    rw [(hq.worker hphase).1]
    rfl
  rw [hreport, report_of_plain (t := u) (hq.error hphase)]
  refine spec_finish_queue hu huq hphase hlive rfl fun error hin => ?_
  rw [hu.caught error hin]
  exact hq.error hphase

theorem spec_turn (hb : b.concurrency = none) (h : t.run.Sound) (hq : t.run.Queued)
    (hwait : t.run.wait = event.wait) (hrefused : ∀ error, event = .refused error → error = .other)
    (hyield : ∀ stop close, event = .cleanUp stop close → t.run.acquired = true →
      t.entry.worker.isSome = true → stop = none ∧ close = none) (stopped : Bool) :
    Spec b event t (turn b t stopped event) := by
  have hlive (hslot : event.wait ≠ .slot) (hdone : event.wait ≠ .done) : t.run.isOver = false :=
    isOver_eq_false.mpr ⟨hwait ▸ hslot, hwait ▸ hdone⟩
  cases event with
  | leaveQueue => exact spec_leaveQueue hb h hq hwait stopped
  | refused error => exact spec_throw_queue h hq hwait (.inl (hrefused error rfl))
  | reserved =>
      obtain ⟨ht, hphase⟩ := hq.trying hwait rfl nofun
      refine Goes.spec (.of_live ⟨rfl, rfl, rfl, rfl, rfl, id, fun _ => id⟩ h hphase ?_
        (isOver_of_isTry ht) rfl) hphase
      exact fun hqueue => hphase (hq.phase hqueue)
  | container result stale bind =>
      obtain ⟨ht, hphase⟩ := hq.trying hwait rfl nofun
      cases result with
      | error error => exact (goes_throw h ht hphase error).spec hphase
      | ok container => exact (goes_containerReady h ht hphase stale container).spec hphase
  | staleSettled error =>
      obtain ⟨ht, hphase⟩ := hq.trying hwait rfl nofun
      exact (goes_staleSettled h ht hphase error).spec hphase
  | worker result bind =>
      obtain ⟨ht, hphase⟩ := hq.trying hwait rfl nofun
      cases result with
      | error error => exact (goes_throw h ht hphase error).spec hphase
      | ok worker => exact (goes_workerMade h ht hphase worker).spec hphase
  | resumeRecorded error =>
      obtain ⟨ht, hphase⟩ := hq.trying hwait rfl nofun
      exact (goes_resumeRecorded h ht hphase error).spec hphase
  | handled error =>
      obtain ⟨ht, hphase⟩ := hq.trying hwait rfl nofun
      exact (goes_handled h ht hphase error).spec hphase
  | canceled =>
      obtain ⟨ht, hphase⟩ := hq.trying hwait rfl nofun
      exact (goes_throw h ht hphase _).spec hphase
  | settled healthy =>
      obtain ⟨ht, hphase⟩ := hq.trying hwait rfl nofun
      exact (goes_settled h ht hphase healthy).spec hphase
  | checkEnded =>
      obtain ⟨ht, hphase⟩ := hq.trying hwait rfl nofun
      have hgo : t.Goes b (t.goto .lastCheck) := goes_goto h ht hphase rfl nofun nofun
      exact hgo.spec hphase
  | checked error =>
      obtain ⟨ht, hphase⟩ := hq.trying hwait rfl nofun
      exact (goes_checked h ht hphase error).spec hphase
  | contextStopped error =>
      obtain ⟨ht, hphase⟩ := hq.trying hwait rfl nofun
      refine Goes.spec (.of_live (.of_entry rfl rfl rfl rfl) h hphase ?_ (isOver_of_isTry ht) rfl)
        hphase
      exact fun hqueue => hphase (hq.phase hqueue)
  | failureRecorded error =>
      have hphase := hq.phase_ne (hwait ▸ nofun) (hwait ▸ nofun) (hlive nofun nofun)
      exact (goes_failureRecorded h hphase hwait error).spec hphase
  | cleanUp stop close =>
      by_cases hphase : t.run.phase = .queue
      · exact spec_cleanUp_queue h hq hphase hwait stop close
      · exact (goes_cleanUp hb h hphase hwait (hyield stop close rfl)).spec hphase
  | cleanUpSettled =>
      have hlive := hlive nofun nofun
      have hphase := hq.phase_ne (hwait ▸ nofun) (hwait ▸ nofun) hlive
      refine Goes.spec (.of_live (.of_entry rfl rfl rfl rfl) ?_ hphase nofun rfl rfl) hphase
      exact h.move hlive rfl rfl rfl rfl id nofun (Or.elim · nofun nofun)
  | cleanUpCheckEnded =>
      have hlive := hlive nofun nofun
      have hphase := hq.phase_ne (hwait ▸ nofun) (hwait ▸ nofun) hlive
      have hlogged : (t.run.log .stopAsked).Sound := h.log hlive nofun nofun nofun nofun
      refine Goes.spec (.of_live (.of_entry rfl rfl rfl rfl) ?_ hphase nofun rfl rfl) hphase
      exact hlogged.move hlive rfl rfl rfl rfl id nofun fun _ => mem_log.mpr (.inr rfl)
  | stopped error =>
      have hphase := hq.phase_ne (hwait ▸ nofun) (hwait ▸ nofun) (hlive nofun nofun)
      exact (goes_stopped hb h hphase hwait error).spec hphase

end SerialExecution

end VicoopBridge
