import VicoopBridge.Model.CallerScopedBackend
import VicoopBridge.Verification.OpenclawHandle

/-! # The terminal frame of a run

What a run has done outside is a list that ends in its one terminal frame once the run is over. The
invariant goes through the two paths step by step. -/

namespace VicoopBridge

/-- In the `try` block. -/
def ExecutionWait.isTry : ExecutionWait → Bool
  | .queue | .container | .staleWorker | .factory | .resumeRecord | .work | .settle
  | .runningCheck | .lastCheck | .contextStop => true
  | _ => false

namespace CallerExecution

variable {run run' : CallerExecution}

/-- The answer is the last thing that the run does, and it is the only one. A failed run that had
acquired its container has asked the pool to stop it before. -/
def Answered (run : CallerExecution) : Prop :=
  ∃ before terminal, run.trace = before ++ [.emit terminal] ∧ terminal.isTerminal = true ∧
    (∀ frame, .emit frame ∈ before → frame.isTerminal = false) ∧
    ((∃ error, .failed error ∈ before) → .acquired ∈ before → .stopAsked ∈ before)

structure TerminalSpec (run : CallerExecution) : Prop where
  running : run.isOver = false → ∀ frame, .emit frame ∈ run.trace → frame.isTerminal = false
  ended : run.isOver = true → run.Answered

structure Sound (run : CallerExecution) : Prop where
  spec : run.TerminalSpec
  closed : run.isOver = true → run.forwarding = false
  terminal : ∀ frame, run.terminal = some frame → frame.isTerminal = true
  trying : run.wait.isTry = true → ∀ error, .failed error ∉ run.trace
  caught : ∀ error, .failed error ∈ run.trace → error = run.error
  asked : run.wait = .contextStop ∨ run.wait = .stop → .stopAsked ∈ run.trace
  owned : .acquired ∈ run.trace → run.acquired = true ∨ .stopped ∈ run.trace
  confirmed : .stopped ∈ run.trace → .stopAsked ∈ run.trace

theorem isOver_eq_false : run.isOver = false ↔ run.wait ≠ .slot ∧ run.wait ≠ .done := by
  simp [isOver]

theorem isOver_of_isTry (h : run.wait.isTry = true) : run.isOver = false := by
  rw [isOver_eq_false]
  constructor <;> intro heq <;> simp [heq, ExecutionWait.isTry] at h

@[simp] theorem mem_log {x y : Happening} : x ∈ (run.log y).trace ↔ x ∈ run.trace ∨ x = y := by
  simp [log]

/-! ## Steps that go on -/

/-- The run goes elsewhere without doing anything outside. -/
theorem Sound.move (h : run.Sound) (hlive : run.isOver = false) (hlive' : run'.isOver = false)
    (htrace : run'.trace = run.trace) (hterminal : run'.terminal = run.terminal)
    (herror : run'.error = run.error) (hacquired : run.acquired = true → run'.acquired = true)
    (htry : run'.wait.isTry = true → run.wait.isTry = true)
    (hasked : run'.wait = .contextStop ∨ run'.wait = .stop → .stopAsked ∈ run.trace) :
    run'.Sound where
  spec := by
    refine ⟨fun _ => ?_, fun hover => absurd hover (by simp [hlive'])⟩
    rw [htrace]
    exact h.spec.running hlive
  closed hover := absurd hover (by simp [hlive'])
  terminal := by rw [hterminal]; exact h.terminal
  trying hwait := by rw [htrace]; exact h.trying (htry hwait)
  caught := by rw [htrace, herror]; exact h.caught
  asked := by rw [htrace]; exact hasked
  owned := by rw [htrace]; exact fun hin => (h.owned hin).imp_left hacquired
  confirmed := by rw [htrace]; exact h.confirmed

/-- What the run does outside is no answer, and it keeps an account of it. -/
theorem Sound.log (h : run.Sound) (hlive : run.isOver = false) {x : Happening}
    (hemit : ∀ frame, x = .emit frame → frame.isTerminal = false)
    (hfailed : ∀ error, x ≠ .failed error) (hacquired : x = .acquired → run.acquired = true)
    (hstopped : x = .stopped → .stopAsked ∈ run.trace) : (run.log x).Sound where
  spec := by
    refine ⟨fun _ frame hin => ?_, fun hover => absurd (show run.isOver = true from hover)
      (by simp [hlive])⟩
    rcases mem_log.mp hin with hin | heq
    · exact h.spec.running hlive frame hin
    · exact hemit frame heq.symm
  closed hover := absurd (show run.isOver = true from hover) (by simp [hlive])
  terminal := h.terminal
  trying hwait error hin := by
    rcases mem_log.mp hin with hin | heq
    · exact h.trying hwait error hin
    · exact hfailed error heq.symm
  caught error hin := by
    rcases mem_log.mp hin with hin | heq
    · exact h.caught error hin
    · exact absurd heq.symm (hfailed error)
  asked hwait := mem_log.mpr (.inl (h.asked hwait))
  owned hin := by
    rcases mem_log.mp hin with hin | heq
    · exact (h.owned hin).imp_right fun hin => mem_log.mpr (.inl hin)
    · exact .inl (hacquired heq.symm)
  confirmed hin := by
    rcases mem_log.mp hin with hin | heq
    · exact mem_log.mpr (.inl (h.confirmed hin))
    · exact mem_log.mpr (.inl (hstopped heq.symm))

theorem Sound.emit (h : run.Sound) (hlive : run.isOver = false) {frame : TaskFrameBody}
    (hframe : frame.isTerminal = false) : (run.emit frame).Sound :=
  h.log hlive (by rintro _ ⟨⟩; exact hframe) nofun nofun nofun

theorem Sound.acquire (h : run.Sound) (hlive : run.isOver = false) : run.acquire.Sound := by
  have hmine : ({ run with acquired := true } : CallerExecution).Sound :=
    h.move hlive hlive rfl rfl rfl (fun _ => rfl) id h.asked
  have hlog : run.acquire = ({ run with acquired := true } : CallerExecution).log .acquired := rfl
  rw [hlog]
  refine hmine.log hlive (fun frame hframe => ?_) (fun error herror => ?_) (fun _ => rfl)
    fun hstopped => ?_
  · exact Happening.noConfusion hframe
  · exact Happening.noConfusion herror
  · exact Happening.noConfusion hstopped

theorem Sound.onFrame (h : run.Sound) (frame : TaskFrameBody) : (run.onFrame frame).Sound := by
  unfold CallerExecution.onFrame
  split
  · exact h
  · rename_i hopen
    have hlive : run.isOver = false := by
      by_contra hover
      simp [h.closed (by simpa using hover)] at hopen
    have hkeep (hframe : frame.isTerminal = true) :
        ({ run with terminal := some frame } : CallerExecution).Sound :=
      { h with
        spec := ⟨h.spec.running, h.spec.ended⟩
        terminal := by rintro _ ⟨⟩; exact hframe }
    split
    · exact hkeep rfl
    · exact hkeep rfl
    · rename_i hcomplete hfail
      refine h.emit hlive ?_
      cases frame with
      | complete status usage => exact absurd rfl (hcomplete status usage)
      | fail error => exact absurd rfl (hfail error)
      | _ => rfl

/-- Fields that the invariant does not read. -/
theorem Sound.congr (h : run.Sound) (htrace : run'.trace = run.trace) (hwait : run'.wait = run.wait)
    (hforwarding : run'.forwarding = run.forwarding) (hterminal : run'.terminal = run.terminal)
    (herror : run'.error = run.error) (hacquired : run'.acquired = run.acquired) : run'.Sound := by
  have hover : run'.isOver = run.isOver := by simp only [isOver, hwait]
  constructor
  · constructor
    · rw [hover, htrace]
      exact h.spec.running
    · rw [hover]
      intro hover
      unfold Answered
      rw [htrace]
      exact h.spec.ended hover
  · rw [hover, hforwarding]
    exact h.closed
  · rw [hterminal]
    exact h.terminal
  · rw [hwait, htrace]
    exact h.trying
  · rw [htrace, herror]
    exact h.caught
  · rw [hwait, htrace]
    exact h.asked
  · rw [htrace, hacquired]
    exact h.owned
  · rw [htrace]
    exact h.confirmed

/-! ## The end of a run -/

theorem Sound.finish (h : run.Sound) (hlive : run.isOver = false) {frame : TaskFrameBody}
    (hframe : frame.isTerminal = true)
    (hstop : (∃ error, .failed error ∈ run.trace) → .acquired ∈ run.trace →
      .stopAsked ∈ run.trace) : (run.emit frame).finish.Sound where
  spec := by
    refine ⟨fun hover => absurd hover (by simp [CallerExecution.finish, isOver]), fun _ => ?_⟩
    exact ⟨run.trace, frame, rfl, hframe, h.spec.running hlive, hstop⟩
  closed _ := rfl
  terminal := h.terminal
  trying hwait := absurd hwait (by simp [CallerExecution.finish, ExecutionWait.isTry])
  caught error hin := by
    rcases mem_log.mp hin with hin | heq
    · exact h.caught error hin
    · cases heq
  asked hwait := absurd hwait (by simp [CallerExecution.finish])
  owned hin := by
    rcases mem_log.mp hin with hin | heq
    · exact (h.owned hin).imp_right fun hin => mem_log.mpr (.inl hin)
    · cases heq
  confirmed hin := by
    rcases mem_log.mp hin with hin | heq
    · exact mem_log.mpr (.inl (h.confirmed hin))
    · cases heq

/-! ## Runs in the queue -/

/-- The run may use the container. -/
def inUse (run : CallerExecution) : Prop := run.phase ≠ .queue ∧ run.isOver = false

/-- A run that has not left the queue has nothing to clean up. -/
structure Queued (run : CallerExecution) : Prop where
  phase : run.wait = .queue → run.phase = .queue
  wait : run.phase = .queue → run.wait = .queue ∨ run.wait = .cleanUp ∨ run.isOver = true
  worker : run.phase = .queue → run.acquired = false ∧ run.worker = none ∧ run.resuming = false
  error : run.phase = .queue → run.error = .other ∨ run.error = .queueFull
  clean : run.phase = .queue → .acquired ∉ run.trace

theorem Queued.of_phase_ne (hphase : run.phase ≠ .queue) (hwait : run.wait ≠ .queue) :
    run.Queued :=
  ⟨fun h => absurd h hwait, fun h => absurd h hphase, fun h => absurd h hphase,
    fun h => absurd h hphase, fun h => absurd h hphase⟩

theorem Queued.phase_ne (h : run.Queued) (hqueue : run.wait ≠ .queue)
    (hcleanUp : run.wait ≠ .cleanUp) (hlive : run.isOver = false) : run.phase ≠ .queue := by
  intro hphase
  obtain heq | heq | hover := h.wait hphase
  · exact hqueue heq
  · exact hcleanUp heq
  · simp [hlive] at hover

theorem Queued.trying (h : run.Queued) {event : ExecutionEvent} (hwait : run.wait = event.wait)
    (htry : event.wait.isTry = true) (hqueue : event.wait ≠ .queue) :
    run.wait.isTry = true ∧ run.phase ≠ .queue := by
  have ht : run.wait.isTry = true := hwait ▸ htry
  refine ⟨ht, h.phase_ne (hwait ▸ hqueue) (fun heq => ?_) (isOver_of_isTry ht)⟩
  simp [heq, ExecutionWait.isTry] at ht

/-! ## What is left of a failed run -/

/-- The run had acquired its container and failed, and the container has not been stopped. -/
def CleanUpFailed (run : CallerExecution) : Prop :=
  run.isOver = true ∧ (∃ error, .failed error ∈ run.trace) ∧ .acquired ∈ run.trace ∧
    .stopped ∉ run.trace

/-- The work on the storage of the scope may go on. Only `acquireContext` says so of the clean-up of
a scope. -/
def ScopeCleanUpFailed (b : CallerBackendOptions) (run : CallerExecution) : Prop :=
  run.isOver = true ∧ (.failed .storageHelperUnconfirmed ∈ run.trace ∨
    b.concurrency.isSome ∧ .failed .scopeCleanupUnconfirmed ∈ run.trace)

end CallerExecution

namespace Turn

variable {t t' : Turn}

/-- The entry keeps what a failed run leaves behind. -/
structure Contained (b : CallerBackendOptions) (t : Turn) : Prop where
  container : t.run.CleanUpFailed → if b.concurrency.isNone then t.entry.quarantined = true
    else t.run.context ∈ t.entry.failedContexts
  scope : t.run.ScopeCleanUpFailed b → t.entry.quarantined = true ∧
    (b.concurrency.isSome → t.run.context ∈ t.entry.failedContexts)

/-- What no step of a run changes, and what none takes back. -/
structure Keeps (t t' : Turn) : Prop where
  scope : t'.run.scope = t.run.scope
  context : t'.run.context = t.run.context
  ref : t'.run.ref = t.run.ref
  users : t'.entry.users = t.entry.users
  tail : t'.entry.tail = t.entry.tail
  quarantined : t.entry.quarantined = true → t'.entry.quarantined = true
  failed : ∀ context ∈ t.entry.failedContexts, context ∈ t'.entry.failedContexts

theorem Keeps.of_entry (hscope : t'.run.scope = t.run.scope)
    (hcontext : t'.run.context = t.run.context) (href : t'.run.ref = t.run.ref)
    (hentry : t'.entry = t.entry) : t.Keeps t' := by
  refine ⟨hscope, hcontext, href, ?_, ?_, ?_, ?_⟩ <;> simp [hentry]

theorem Keeps.trans {u : Turn} (h : t.Keeps u) (h' : u.Keeps t') : t.Keeps t' where
  scope := h'.scope.trans h.scope
  context := h'.context.trans h.context
  ref := h'.ref.trans h.ref
  users := h'.users.trans h.users
  tail := h'.tail.trans h.tail
  quarantined hq := h'.quarantined (h.quarantined hq)
  failed context hin := h'.failed context (h.failed context hin)

theorem keeps_throw (t : Turn) (error : CallerRuntimeError) : t.Keeps (t.throw error) :=
  .of_entry rfl rfl rfl rfl

theorem keeps_quarantine (t : Turn) : t.Keeps t.quarantine :=
  ⟨rfl, rfl, rfl, rfl, rfl, fun _ => rfl, fun _ => id⟩

theorem keeps_answer (t : Turn) : t.Keeps t.answer := by
  unfold answer
  split
  · exact keeps_throw t _
  · exact .of_entry rfl rfl rfl rfl

theorem keeps_handled (t : Turn) (error : Option CallerRuntimeError) :
    t.Keeps (t.handled error) := by
  cases error <;> exact .of_entry rfl rfl rfl rfl

/-- A step of a run, as far as the other runs and the queue are concerned. -/
structure Spec (b : CallerBackendOptions) (event : ExecutionEvent) (t t' : Turn) : Prop where
  keeps : t.Keeps t'
  sound : t'.run.Sound
  queued : t'.run.Queued
  left : t'.run.wait ≠ .queue
  undone : t'.run.wait ≠ .done
  used : t.run.phase ≠ .queue → t'.run.phase ≠ .queue
  untouched : t.run.phase = .queue → t'.run.phase = .queue → t'.entry = t.entry
  enters : t.run.phase = .queue → t'.run.phase ≠ .queue →
    event = .leaveQueue ∧ t.entry.quarantined = false ∧
      (b.concurrency.isSome → t'.run.granted = true ∧ t.run.context ∉ t.entry.failedContexts)
  grants : t'.run.granted = true → t.run.granted = true ∨ event = .leaveQueue
  granted : t.run.granted = true → t'.run.granted = true
  contained : t'.Contained b

/-- A run that has left the queue goes on, or ends with nothing left behind. -/
structure Goes (b : CallerBackendOptions) (t t' : Turn) : Prop where
  keeps : t.Keeps t'
  sound : t'.run.Sound
  phase : t'.run.phase ≠ .queue
  wait : t'.run.wait ≠ .queue
  undone : t'.run.wait ≠ .done
  granted : t'.run.granted = t.run.granted
  contained : t'.Contained b

variable {b : CallerBackendOptions} {event : ExecutionEvent}

theorem Contained.of_live (h : t.run.isOver = false) : t.Contained b :=
  ⟨fun hfailed => absurd hfailed.1 (by simp [h]), fun hfailed => absurd hfailed.1 (by simp [h])⟩

theorem Contained.of_unfailed (h : ∀ error, .failed error ∉ t.run.trace) : t.Contained b := by
  constructor
  · rintro ⟨-, ⟨error, hin⟩, -⟩
    exact absurd hin (h error)
  · rintro ⟨-, hin | ⟨-, hin⟩⟩ <;> exact absurd hin (h _)

theorem Goes.of_live (hkeeps : t.Keeps t') (hsound : t'.run.Sound) (hphase : t'.run.phase ≠ .queue)
    (hwait : t'.run.wait ≠ .queue) (hlive : t'.run.isOver = false)
    (hgranted : t'.run.granted = t.run.granted) : t.Goes b t' :=
  ⟨hkeeps, hsound, hphase, hwait, (CallerExecution.isOver_eq_false.mp hlive).2, hgranted,
    .of_live hlive⟩

theorem Goes.after {u : Turn} (hkeeps : t.Keeps u) (hgranted : u.run.granted = t.run.granted)
    (h : u.Goes b t') : t.Goes b t' :=
  ⟨hkeeps.trans h.keeps, h.sound, h.phase, h.wait, h.undone, h.granted.trans hgranted, h.contained⟩

theorem Goes.spec (h : t.Goes b t') (hphase : t.run.phase ≠ .queue) : Spec b event t t' where
  keeps := h.keeps
  sound := h.sound
  queued := .of_phase_ne h.phase h.wait
  left := h.wait
  undone := h.undone
  used _ := h.phase
  untouched hqueue := absurd hqueue hphase
  enters hqueue := absurd hqueue hphase
  grants hgranted := .inl (h.granted ▸ hgranted)
  granted hgranted := h.granted.trans hgranted
  contained := h.contained

/-- A change of the variables first. -/
theorem Spec.after {u : Turn} (hkeeps : t.Keeps u) (hphase : u.run.phase = t.run.phase)
    (hentry : u.entry = t.entry)
    (hgrants : u.run.granted = true → t.run.granted = true ∨ event = .leaveQueue)
    (hgranted : t.run.granted = true → u.run.granted = true) (h : Spec b event u t') :
    Spec b event t t' where
  keeps := hkeeps.trans h.keeps
  sound := h.sound
  queued := h.queued
  left := h.left
  undone := h.undone
  used hused := h.used (hphase ▸ hused)
  untouched hqueue hqueue' := (h.untouched (hphase ▸ hqueue) hqueue').trans hentry
  enters hqueue hne := by
    have henters := h.enters (hphase ▸ hqueue) hne
    rwa [hkeeps.context, hentry] at henters
  grants hafter := (h.grants hafter).elim hgrants .inr
  granted hbefore := h.granted (hgranted hbefore)
  contained := h.contained

/-! ## Throwing and answering -/

theorem sound_throw (h : t.run.Sound) (htry : t.run.wait.isTry = true)
    (error : CallerRuntimeError) : (t.throw error).run.Sound where
  spec := by
    have hlive := CallerExecution.isOver_of_isTry htry
    constructor
    · intro _ frame hin
      rcases CallerExecution.mem_log.mp hin with hin | heq
      · exact h.spec.running hlive frame hin
      · cases heq
    · intro hover
      simp only [throw, CallerExecution.isOver] at hover
      split at hover <;> simp at hover
  closed hover := by
    simp only [throw, CallerExecution.isOver] at hover
    split at hover <;> simp at hover
  terminal := h.terminal
  trying hwait := by
    simp only [throw] at hwait
    split at hwait <;> simp [ExecutionWait.isTry] at hwait
  caught error' hin := by
    rcases CallerExecution.mem_log.mp hin with hin | heq
    · exact absurd hin (h.trying htry error')
    · cases heq
      rfl
  asked hwait := by
    simp only [throw] at hwait
    split at hwait <;> simp at hwait
  owned hin := by
    rcases CallerExecution.mem_log.mp hin with hin | heq
    · exact (h.owned hin).imp_right fun hin => CallerExecution.mem_log.mpr (.inl hin)
    · cases heq
  confirmed hin := by
    rcases CallerExecution.mem_log.mp hin with hin | heq
    · exact CallerExecution.mem_log.mpr (.inl (h.confirmed hin))
    · cases heq

theorem isOver_throw (t : Turn) (error : CallerRuntimeError) : (t.throw error).run.isOver = false := by
  simp only [throw, CallerExecution.isOver]
  split <;> rfl

theorem goes_throw (h : t.run.Sound) (htry : t.run.wait.isTry = true)
    (hphase : t.run.phase ≠ .queue) (error : CallerRuntimeError) : t.Goes b (t.throw error) := by
  refine .of_live (keeps_throw t error) (sound_throw h htry error) hphase ?_ (isOver_throw t error) rfl
  simp only [throw]
  split <;> simp

theorem sound_answer (h : t.run.Sound) (htry : t.run.wait.isTry = true) : t.answer.run.Sound := by
  unfold answer
  split
  · exact sound_throw h htry _
  · rename_i terminal hterminal
    refine h.finish (CallerExecution.isOver_of_isTry htry) (h.terminal _ hterminal) ?_
    rintro ⟨error, hfailed⟩
    exact absurd hfailed (h.trying htry error)

theorem goes_answer (h : t.run.Sound) (htry : t.run.wait.isTry = true)
    (hphase : t.run.phase ≠ .queue) : t.Goes b t.answer := by
  have hkeeps := keeps_answer t
  have hsound := sound_answer h htry
  revert hkeeps hsound
  unfold answer
  split
  · exact fun _ _ => goes_throw h htry hphase _
  · rename_i terminal hterminal
    intro hkeeps hsound
    refine ⟨hkeeps, hsound, hphase, nofun, nofun, rfl, .of_unfailed fun error hin => ?_⟩
    rcases CallerExecution.mem_log.mp hin with hin | heq
    · exact h.trying htry error hin
    · cases heq

theorem goes_handled (h : t.run.Sound) (htry : t.run.wait.isTry = true)
    (hphase : t.run.phase ≠ .queue) (error : Option CallerRuntimeError) :
    t.Goes b (t.handled error) := by
  cases error with
  | some error => exact goes_throw h htry hphase error
  | none =>
      refine .of_live (keeps_handled t none) ?_ nofun nofun rfl rfl
      exact h.move (CallerExecution.isOver_of_isTry htry) rfl rfl rfl rfl id (fun _ => htry) (Or.elim · nofun nofun)

theorem goes_goto (h : t.run.Sound) (htry : t.run.wait.isTry = true)
    (hphase : t.run.phase ≠ .queue) {wait : ExecutionWait} (hwait : wait.isTry = true)
    (hqueue : wait ≠ .queue) (hstop : wait ≠ .contextStop) : t.Goes b (t.goto wait) := by
  have hlive : (t.goto wait).run.isOver = false := CallerExecution.isOver_of_isTry hwait
  refine .of_live (.of_entry rfl rfl rfl rfl) ?_ hphase hqueue hlive rfl
  refine h.move (CallerExecution.isOver_of_isTry htry) hlive rfl rfl rfl id (fun _ => htry) ?_
  rintro (hwait' | hwait')
  · exact absurd hwait' hstop
  · rw [show wait = .stop from hwait'] at hwait
    cases hwait

theorem goes_handOver (h : t.run.Sound) (htry : t.run.wait.isTry = true) :
    t.Goes b t.handOver := by
  refine .of_live ⟨rfl, rfl, rfl, rfl, rfl, id, fun _ => id⟩ ?_ nofun nofun rfl rfl
  exact h.move (CallerExecution.isOver_of_isTry htry) rfl rfl rfl rfl id (fun _ => htry) (Or.elim · nofun nofun)

/-! ## Leaving the queue without the container -/

theorem spec_throw_queue (h : t.run.Sound) (hq : t.run.Queued) (hwait : t.run.wait = .queue)
    {error : CallerRuntimeError} (herror : error = .other ∨ error = .queueFull) :
    Spec b event t (t.throw error) := by
  have hphase := hq.phase hwait
  have htry : t.run.wait.isTry = true := by rw [hwait]; rfl
  have hresuming := (hq.worker hphase).2.2
  have hcleanUp : (t.throw error).run.wait = .cleanUp := by
    simp [throw, log, CallerExecution.log, hresuming]
  have hclean : .acquired ∉ (t.throw error).run.trace := by
    simpa [throw, log, CallerExecution.log] using hq.clean hphase
  exact {
    keeps := keeps_throw t error
    sound := sound_throw h htry error
    queued := ⟨fun hqueue => by simp [hcleanUp] at hqueue, fun _ => .inr (.inl hcleanUp),
      fun _ => hq.worker hphase, fun _ => herror, fun _ => hclean⟩
    left := by simp [hcleanUp]
    undone := by simp [hcleanUp]
    used := id
    untouched := fun _ _ => rfl
    enters := fun _ hne => absurd hphase hne
    grants := .inl
    granted := id
    contained := .of_live (isOver_throw t error) }

/-- The task is answered from the queue. -/
theorem spec_finish_queue (h : t.run.Sound) (hq : t.run.Queued) (hphase : t.run.phase = .queue)
    (hlive : t.run.isOver = false) {frame : TaskFrameBody} (hframe : frame.isTerminal = true)
    (hcleanUp : ∀ error, .failed error ∈ t.run.trace → error = .other ∨ error = .queueFull) :
    Spec b event t (t.emit frame).finish where
  keeps := .of_entry rfl rfl rfl rfl
  sound := h.finish hlive hframe fun _ hin => absurd hin (hq.clean hphase)
  queued := ⟨nofun, fun _ => .inr (.inr rfl), fun _ => hq.worker hphase, fun _ => hq.error hphase,
    fun _ hin => (CallerExecution.mem_log.mp hin).elim (hq.clean hphase) nofun⟩
  left := nofun
  undone := nofun
  used := id
  untouched _ _ := rfl
  enters _ hne := absurd hphase hne
  grants := .inl
  granted := id
  contained := by
    constructor
    · rintro ⟨-, -, hin, -⟩
      rcases CallerExecution.mem_log.mp hin with hin | heq
      · exact absurd hin (hq.clean hphase)
      · cases heq
    · have herror (error : CallerRuntimeError)
          (hin : .failed error ∈ (t.emit frame).finish.run.trace) :
          error = .other ∨ error = .queueFull := by
        rcases CallerExecution.mem_log.mp hin with hin | heq
        · exact hcleanUp error hin
        · cases heq
      rintro ⟨-, hin | ⟨-, hin⟩⟩ <;> simpa using herror _ hin

theorem spec_capacityFailure (h : t.run.Sound) (hq : t.run.Queued) (hwait : t.run.wait = .queue) :
    Spec b event t t.capacityFailure := by
  have hphase := hq.phase hwait
  have htry : t.run.wait.isTry = true := by rw [hwait]; rfl
  exact spec_finish_queue h hq hphase (CallerExecution.isOver_of_isTry htry) rfl
    fun error hin => absurd hin (h.trying htry error)

end Turn

end VicoopBridge
