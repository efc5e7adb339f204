import VicoopBridge.Library.Transition
import VicoopBridge.Model.OpenclawHandle

/-! # One terminal frame per task

A call of `handle` that returns has emitted one terminal frame, and nothing comes after it, unless
`chat.send` fails while the files of a message are being read. -/

namespace VicoopBridge

open Library

/-- `task.complete` and `task.fail` -/
def TaskFrameBody.isTerminal : TaskFrameBody → Bool
  | .complete .. | .fail _ => true
  | _ => false

def openclawSystem (opts : OpenclawHandleOptions) : System OpenclawRun HandleAction :=
  .ofApply (fun s => ∃ aborted, s = OpenclawRun.handle aborted) (OpenclawRun.enabled opts)
    (OpenclawRun.apply opts)

namespace OpenclawRun

variable {opts : OpenclawHandleOptions} {s t : OpenclawRun}

/-! ## The frames of a run -/

structure TerminalSpec (s : OpenclawRun) : Prop where
  running : s.phase ≠ .returned → ∀ f ∈ s.frames, f.isTerminal = false
  returned : s.phase = .returned → ∃ before terminal, s.frames = before ++ [terminal] ∧
    terminal.isTerminal = true ∧ ∀ f ∈ before, f.isTerminal = false

/-- Nothing that is left is going to emit a frame. -/
structure Silent (s : OpenclawRun) : Prop where
  reading : s.reading = none
  sendFile : s.sendFile = false
  ownedSession : s.ownedSession = false
  queue : s.queue = [] ∨ s.sessionMessageSettled = true
  heartbeat : s.heartbeat = false ∨ s.terminalSettled = true

structure Invariant (s : OpenclawRun) : Prop where
  spec : s.TerminalSpec
  starting : s.phase = .mapping ∨ s.phase = .connecting → s.Silent
  drained : s.phase = .draining 0 → s.reading = none
  finishing : ∀ text, s.phase = .finishing text →
    s.reading = none ∧ s.sessionMessageSettled = true
  returned : s.phase = .returned → s.Silent

/-- What the invariant reads. -/
def gates (s : OpenclawRun) :=
  (s.phase, s.frames, s.reading, s.sessionMessageSettled, s.sendFile, s.ownedSession, s.queue,
    s.heartbeat, s.terminalSettled)

theorem Invariant.congr (inv : s.Invariant) (h : t.gates = s.gates) : t.Invariant := by
  simp only [gates, Prod.mk.injEq] at h
  obtain ⟨hphase, hframes, hreading, hsettled, hsendFile, howned, hqueue, hheartbeat, hterminal⟩ := h
  have hsilent (hs : s.Silent) : t.Silent := by
    constructor
    · rw [hreading, hs.reading]
    · rw [hsendFile, hs.sendFile]
    · rw [howned, hs.ownedSession]
    · rw [hqueue, hsettled]
      exact hs.queue
    · rw [hheartbeat, hterminal]
      exact hs.heartbeat
  constructor
  · constructor
    · rw [hphase, hframes]
      exact inv.spec.running
    · rw [hphase, hframes]
      exact inv.spec.returned
  · rw [hphase]
    exact fun h => hsilent (inv.starting h)
  · rw [hphase, hreading]
    exact inv.drained
  · rw [hphase, hreading, hsettled]
    exact inv.finishing
  · rw [hphase]
    exact fun h => hsilent (inv.returned h)

@[simp] theorem gates_resolveSettled (event : FinalizerEvent) :
    (s.resolveSettled event).gates = s.gates := rfl

@[simp] theorem gates_finalizer (event : FinalizerEvent) : (s.finalizer event).gates = s.gates := by
  unfold finalizer
  split <;> rfl

@[simp] theorem gates_onAbort : s.onAbort.gates = s.gates := by
  unfold onAbort
  split
  · rfl
  · split <;> rfl

theorem gates_buffered (buffered : List ChatEvent) :
    (buffered.foldl (fun s event => s.finalizer { event with }) s).gates = s.gates := by
  induction buffered generalizing s with
  | nil => rfl
  | cons event buffered ih =>
      rw [List.foldl_cons, ih]
      exact gates_finalizer _

/-! ## Steps that go on -/

theorem Invariant.emit (inv : s.Invariant) (hphase : s.phase ≠ .returned) {frame : TaskFrameBody}
    (hframe : frame.isTerminal = false) : (s.emit frame).Invariant := by
  have hsilent (hs : s.Silent) : (s.emit frame).Silent :=
    ⟨hs.reading, hs.sendFile, hs.ownedSession, hs.queue, hs.heartbeat⟩
  refine ⟨⟨fun _ f hf => ?_, fun h => absurd h hphase⟩, fun h => hsilent (inv.starting h),
    inv.drained, inv.finishing, fun h => absurd h hphase⟩
  rcases List.mem_append.mp hf with hf | hf
  · exact inv.spec.running hphase f hf
  · rw [List.mem_singleton.mp hf]
    exact hframe

theorem Invariant.emitArtifact (inv : s.Invariant) (hphase : s.phase ≠ .returned)
    (artifact : WireArtifact) : (s.emitArtifact artifact).Invariant :=
  (inv.emit hphase (show (TaskFrameBody.artifact artifact none (some true)).isTerminal = false
    from rfl)).congr rfl

theorem Invariant.linkDone (inv : s.Invariant) (hreading : s.reading = none) :
    s.linkDone.Invariant := by
  unfold OpenclawRun.linkDone
  split
  · rename_i ahead hphase
    have hrunning : s.phase ≠ .returned := by simp [hphase]
    refine ⟨⟨fun _ => inv.spec.running hrunning, ?_⟩, ?_, fun _ => hreading, ?_, ?_⟩ <;> simp
  · exact inv

/-- The gate is open while a message is on its way. -/
theorem Invariant.open (inv : s.Invariant) (h : ¬ s.Silent)
    (hgate : s.reading ≠ none ∨ s.sessionMessageSettled = false) :
    s.phase ≠ .returned ∧ ¬ (s.phase = .mapping ∨ s.phase = .connecting) ∧
      ∀ text, s.phase ≠ .finishing text := by
  refine ⟨fun hreturned => h (inv.returned hreturned), fun hstarting => h (inv.starting hstarting),
    fun text hfinishing => ?_⟩
  obtain ⟨hreading, hsettled⟩ := inv.finishing text hfinishing
  obtain hgate | hgate := hgate
  · exact hgate hreading
  · simp [hsettled] at hgate

theorem Invariant.nextMessage (inv : s.Invariant) (artifactId : String)
    (hreading : s.reading = none) (hqueue : s.queue ≠ []) (hphase : s.phase ≠ .draining 0) :
    (s.nextMessage opts artifactId).Invariant := by
  unfold OpenclawRun.nextMessage
  split
  · exact inv
  rename_i text rest hcons
  have inv' : { s with queue := rest }.Invariant := by
    have hsilent (hs : s.Silent) : { s with queue := rest }.Silent :=
      ⟨hs.reading, hs.sendFile, hs.ownedSession, .inr (hs.queue.resolve_left hqueue), hs.heartbeat⟩
    exact ⟨⟨inv.spec.running, inv.spec.returned⟩, fun h => hsilent (inv.starting h), inv.drained,
      inv.finishing, fun h => hsilent (inv.returned h)⟩
  dsimp only
  split
  · exact inv'.linkDone hreading
  rename_i hopen
  have hgate : s.sessionMessageSettled = false := by simpa using hopen
  obtain ⟨hreturned, hstarting, hfinishing⟩ := inv.open
    (fun hs => hopen (hs.queue.resolve_left hqueue)) (.inr hgate)
  split
  · exact (inv'.emitArtifact hreturned _).linkDone hreading
  · exact ⟨⟨fun _ => inv.spec.running hreturned, fun h => absurd h hreturned⟩,
      fun h => absurd h hstarting, fun h => absurd h hphase,
      fun text h => absurd h (hfinishing text), fun h => absurd h hreturned⟩

theorem Invariant.messageRead (inv : s.Invariant) (reads : List (Option OutputFile))
    (artifactId : String) : (s.messageRead opts reads artifactId).Invariant := by
  unfold OpenclawRun.messageRead
  split
  · exact inv
  rename_i text hreading
  have hsome : s.reading ≠ none := by simp [hreading]
  obtain ⟨hreturned, hstarting, hfinishing⟩ := inv.open (fun hs => hsome hs.reading) (.inl hsome)
  have inv' : { s with reading := none }.Invariant :=
    ⟨⟨fun _ => inv.spec.running hreturned, fun h => absurd h hreturned⟩,
      fun h => absurd h hstarting, fun _ => rfl, fun text h => absurd h (hfinishing text),
      fun h => absurd h hreturned⟩
  dsimp only
  split
  · exact inv'.linkDone rfl
  · exact (inv'.emitArtifact hreturned _).linkDone rfl

theorem Invariant.onSessionMessage (inv : s.Invariant) (howned : s.ownedSession = true)
    (message : SessionMessage) : (s.onSessionMessage message).Invariant := by
  have hsilent (hs : s.Silent) : False := by simp [hs.ownedSession] at howned
  unfold OpenclawRun.onSessionMessage
  split
  · exact inv
  split
  · exact inv
  · exact ⟨⟨inv.spec.running, inv.spec.returned⟩, fun h => (hsilent (inv.starting h)).elim,
      inv.drained, inv.finishing, fun h => (hsilent (inv.returned h)).elim⟩

theorem Invariant.register (inv : s.Invariant) (hphase : s.phase ≠ .returned)
    (server ownedSession : Bool) :
    ({ s with sendFile := server }.register ownedSession).Invariant := by
  have inv' : { s with
      sendFile := server, ownedSession := ownedSession, phase := .sending }.Invariant := by
    refine ⟨⟨fun _ => inv.spec.running hphase, ?_⟩, ?_, ?_, ?_, ?_⟩ <;> simp
  unfold OpenclawRun.register
  dsimp only
  split
  · exact inv'.congr gates_onAbort
  · exact inv'

/-! ## Steps that return -/

theorem Invariant.returns (inv : s.Invariant) (hphase : s.phase ≠ .returned) (ht : t.Silent)
    (hreturned : t.phase = .returned) {terminal : TaskFrameBody}
    (hframes : t.frames = s.frames ++ [terminal]) (hterminal : terminal.isTerminal = true) :
    t.Invariant := by
  refine ⟨⟨fun h => absurd hreturned h, fun _ => ⟨s.frames, terminal, hframes, hterminal,
    inv.spec.running hphase⟩⟩, fun _ => ht, ?_, ?_, fun _ => ht⟩ <;> simp [hreturned]

theorem Invariant.cleanup (inv : s.Invariant) (hphase : s.phase ≠ .returned)
    (hreading : s.reading = none) {terminal : TaskFrameBody}
    (hterminal : terminal.isTerminal = true) : (s.emit terminal).cleanup.Invariant :=
  inv.returns hphase ⟨hreading, rfl, rfl, .inr rfl, .inr rfl⟩ rfl rfl hterminal

theorem Invariant.conclude (inv : s.Invariant) (hphase : s.phase ≠ .returned)
    (hreading : s.reading = none) (hsettled : s.sessionMessageSettled = true)
    (result : FinalizerEvent) (artifactId : String) :
    (s.conclude opts result artifactId).Invariant := by
  have hfail (code message : String) : (s.fail opts code message).Invariant :=
    inv.cleanup hphase hreading rfl
  unfold OpenclawRun.conclude
  split
  · exact hfail _ _
  · exact hfail _ _
  · exact hfail _ _
  · exact hfail _ _
  · exact inv.cleanup hphase hreading rfl
  all_goals
    dsimp only
    split
    · split
      · exact inv.cleanup hphase hreading rfl
      · exact (inv.emit hphase rfl).cleanup hphase hreading rfl
    · refine ⟨⟨fun _ => inv.spec.running hphase, ?_⟩, ?_, ?_, fun _ _ => ⟨hreading, hsettled⟩, ?_⟩ <;>
        simp

theorem Invariant.finalRead (inv : s.Invariant) {text : String} (hphase : s.phase = .finishing text)
    (reads : List (Option OutputFile)) (artifactId messageId : String) :
    (s.finalRead opts text reads artifactId messageId).Invariant := by
  have hreturned : s.phase ≠ .returned := by simp [hphase]
  have hreading := (inv.finishing text hphase).1
  unfold OpenclawRun.finalRead
  dsimp only
  split
  · exact inv.cleanup hreturned hreading rfl
  · exact (inv.emit hreturned rfl).cleanup hreturned hreading rfl

/-! ## Runs -/

/-- `chat.send` does not fail while the files of a message are being read. -/
def FailsQuietly (s : OpenclawRun) : HandleAction → Prop
  | .sendFailed .. => s.reading = none
  | _ => True

instance decidableFailsQuietly : ∀ a, Decidable (s.FailsQuietly a)
  | .sendFailed .. => inferInstanceAs (Decidable (s.reading = none))
  | .abort | .mapped _ | .connected _ | .subscribed _ | .sendFileStarted .. | .sendAcked ..
  | .chatEvent _ | .gatewayClosed _ | .timeout | .abortSent | .abortFailed _ | .settle
  | .drained _ | .finalRead .. | .sessionMessage _ | .nextMessage _ | .messageRead ..
  | .sendFileCall | .sendFileRead .. | .heartbeatTick _ => isTrue trivial

theorem Invariant.step (inv : s.Invariant) {a : HandleAction} (henabled : s.enabled opts a)
    (hquiet : s.FailsQuietly a) : (s.apply opts a).Invariant := by
  cases a with
  | abort =>
      refine inv.congr ?_
      simp only [apply]
      split
      · exact gates_onAbort
      · rfl
  | mapped error =>
      have hphase : s.phase = .mapping := henabled
      have hreturned : s.phase ≠ .returned := by simp [hphase]
      have hs := inv.starting (.inl hphase)
      have hsilent (phase : HandlePhase) : { s with phase := phase }.Silent :=
        ⟨hs.reading, hs.sendFile, hs.ownedSession, hs.queue, hs.heartbeat⟩
      cases error with
      | none =>
          refine ⟨⟨fun _ => inv.spec.running hreturned, ?_⟩, fun _ => hsilent _, ?_, ?_, ?_⟩ <;>
            simp [apply]
      | some error =>
          refine inv.returns hreturned ?_ rfl rfl rfl
          exact ⟨hs.reading, hs.sendFile, hs.ownedSession, hs.queue, hs.heartbeat⟩
  | connected error =>
      have hphase : s.phase = .connecting := henabled
      have hreturned : s.phase ≠ .returned := by simp [hphase]
      have hs := inv.starting (.inr hphase)
      cases error with
      | none =>
          have inv' : (s.emit (.status { state := .working } none)).Invariant :=
            inv.emit hreturned rfl
          refine ⟨⟨fun _ => inv'.spec.running hreturned, ?_⟩, ?_, ?_, ?_, ?_⟩ <;> simp [apply]
      | some message =>
          refine inv.returns hreturned ?_ rfl rfl rfl
          exact ⟨hs.reading, hs.sendFile, hs.ownedSession, hs.queue, hs.heartbeat⟩
  | subscribed ownedSession =>
      have hphase : s.phase = .subscribing := henabled
      have hreturned : s.phase ≠ .returned := by simp [hphase]
      simp only [apply]
      split
      · refine ⟨⟨fun _ => inv.spec.running hreturned, ?_⟩, ?_, ?_, ?_, ?_⟩ <;> simp
      · exact inv.register hreturned s.sendFile ownedSession
  | sendFileStarted server ownedSession =>
      have hphase : s.phase = .startingSendFile := henabled
      exact inv.register (by simp [hphase]) server ownedSession
  | sendAcked runId buffered =>
      have hphase : s.phase = .sending := henabled
      have hreturned : s.phase ≠ .returned := by simp [hphase]
      have inv' := inv.congr (t := buffered.foldl (fun s event => s.finalizer { event with })
        { s with runId := some runId }) (gates_buffered buffered)
      have hphase' := congrArg Prod.fst (gates_buffered (s := { s with runId := some runId }) buffered)
      have hreturned' := fun h => hreturned (hphase'.symm.trans h)
      refine ⟨⟨fun _ => inv'.spec.running hreturned', ?_⟩, ?_, ?_, ?_, ?_⟩ <;> simp [apply]
  | sendFailed closed message =>
      have hphase : s.phase = .sending := henabled
      exact inv.cleanup (by simp [hphase]) hquiet rfl
  | chatEvent event => exact inv.congr (gates_finalizer _)
  | gatewayClosed message => exact inv.congr (gates_finalizer _)
  | timeout => exact inv.congr (gates_resolveSettled _)
  | abortSent => exact inv.congr rfl
  | abortFailed message => exact inv.congr (gates_resolveSettled _)
  | settle =>
      have hreturned : s.phase ≠ .returned := by simp [henabled.1]
      refine ⟨⟨fun _ => inv.spec.running hreturned, ?_⟩, ?_, fun h => ?_, ?_, ?_⟩
      case refine_3 =>
        simp only [apply, HandlePhase.draining.injEq, Nat.add_eq_zero_iff] at h
        have hreading : s.reading = none := by simpa using h.2
        exact hreading
      all_goals simp [apply]
  | drained artifactId =>
      have hphase : s.phase = .draining 0 := henabled
      have hreturned : s.phase ≠ .returned := by simp [hphase]
      have hreading := inv.drained hphase
      simp only [apply]
      split
      · exact inv
      · have inv' : { s with sessionMessageSettled := true }.Invariant := by
          refine ⟨⟨fun _ => inv.spec.running hreturned, ?_⟩, ?_, ?_, ?_, ?_⟩ <;>
            simp [hphase, hreading]
        exact inv'.conclude hreturned hreading rfl _ _
  | finalRead reads artifactId messageId =>
      simp only [apply]
      split
      · rename_i text hphase
        exact inv.finalRead hphase reads artifactId messageId
      · exact inv
  | sessionMessage message => exact inv.onSessionMessage henabled message
  | nextMessage artifactId => exact inv.nextMessage artifactId henabled.1 henabled.2.1 henabled.2.2
  | messageRead reads artifactId => exact inv.messageRead reads artifactId
  | sendFileCall => exact inv.congr rfl
  | sendFileRead file artifactId =>
      have inv' := inv.congr (t := { s with sendFiles := s.sendFiles - 1 }) rfl
      simp only [apply]
      split
      · split
        · rename_i hactive
          have hreturned : s.phase ≠ .returned := by
            intro h
            simp [(inv.returned h).sendFile] at hactive
          exact inv'.emitArtifact hreturned _
        · exact inv'
      · exact inv'
  | heartbeatTick silent =>
      simp only [apply]
      split
      · exact inv
      · rename_i hsilent
        have hheartbeat : s.heartbeat = true := henabled
        have hreturned : s.phase ≠ .returned := by
          intro h
          simp only [not_or] at hsilent
          obtain hnone | hterminal := (inv.returned h).heartbeat
          · simp [hnone] at hheartbeat
          · exact hsilent.1 hterminal
        exact inv.emit hreturned rfl

theorem invariant_handle (aborted : Bool) : (handle aborted).Invariant := by
  cases aborted
  · refine ⟨⟨?_, ?_⟩, fun _ => ⟨rfl, rfl, rfl, .inl rfl, .inl rfl⟩, ?_, ?_, ?_⟩ <;> simp [handle]
  · refine ⟨⟨?_, fun _ => ⟨[], canceledFrame, rfl, rfl, ?_⟩⟩,
      fun _ => ⟨rfl, rfl, rfl, .inl rfl, .inl rfl⟩, ?_, ?_,
      fun _ => ⟨rfl, rfl, rfl, .inl rfl, .inl rfl⟩⟩ <;> simp [handle]

theorem invariant_of_reachable
    (h : ((openclawSystem opts).restrict FailsQuietly).Reachable s) : s.Invariant := by
  refine h.invariant (fun s hs => ?_) fun s a t inv hstep => ?_
  · obtain ⟨aborted, rfl⟩ := hs
    exact invariant_handle aborted
  · obtain ⟨hquiet, henabled, rfl⟩ := hstep
    exact inv.step henabled hquiet

/-- The read that goes on after a failed `chat.send` ends with a frame. -/
theorem emits_after_sendFailed {text : String} (hreading : s.reading = some text) (closed : Bool)
    (message : String) :
    ∃ b, (s.apply opts (.sendFailed closed message)).enabled opts b ∧
      ¬ ((s.apply opts (.sendFailed closed message)).apply opts b).TerminalSpec := by
  set t := s.apply opts (.sendFailed closed message)
  set reads : List (Option OutputFile) := List.replicate (opts.attachPaths text).length none
  have hparts : (processAssistantText opts text reads).1 ≠ [] := by
    unfold processAssistantText
    dsimp only
    split
    · exact List.cons_ne_nil _ _
    · rename_i hpaths
      have hcleaned (paths : List String) (n : ℕ) (cleaned : String) :
          (paths.zip (List.replicate n (none : Option OutputFile))).foldl
            (fun cleaned read => if read.2.isSome then
              opts.stripMarkersForPath cleaned text read.1 else cleaned) cleaned = cleaned := by
        induction paths generalizing n with
        | nil => rfl
        | cons path paths ih =>
            cases n with
            | zero => rfl
            | succ n => exact ih n
      rw [hcleaned, if_neg fun h => hpaths (.inl h)]
      simp
  have hnext : t.apply opts (.messageRead reads "") =
      { t with reading := none }.emitArtifact {
        artifactId := "", name := some "openclaw-message"
        parts := (processAssistantText opts text reads).1 } := by
    have hreading' : t.reading = some text := hreading
    simp only [apply, OpenclawRun.messageRead, hreading', if_neg hparts]
    rfl
  refine ⟨.messageRead reads "", ⟨text, hreading, List.length_replicate⟩, fun hspec => ?_⟩
  rw [hnext] at hspec
  obtain ⟨before, terminal, hframes, hterminal, -⟩ := hspec.returned rfl
  obtain rfl := (List.cons.inj (List.append_inj' hframes rfl).2).1
  cases hterminal

/-- A call that returns has emitted one terminal frame and nothing after it, as long as no failure
of `chat.send` comes while files are being read; one that does leads to a frame after the
terminal one. -/
theorem terminal_last_of_failsQuietly
    (h : ((openclawSystem opts).restrict FailsQuietly).Reachable s) :
    s.TerminalSpec ∧ ∀ a, s.enabled opts a → ¬ s.FailsQuietly a →
      ∃ b, (s.apply opts a).enabled opts b ∧ ¬ ((s.apply opts a).apply opts b).TerminalSpec := by
  refine ⟨(invariant_of_reachable h).spec, fun a _ hloud => ?_⟩
  cases a with
  | sendFailed closed message =>
      obtain ⟨text, hreading⟩ := Option.ne_none_iff_exists'.mp hloud
      exact emits_after_sendFailed hreading closed message
  | _ => exact absurd trivial hloud

section Witness

private def reportMessage : SessionMessage :=
  { role := "assistant", messageId := "m1", text := "[bridge-attach: /out/report.pdf]" }

private def reportFile : OutputFile :=
  { name := "report.pdf", mimeType := "application/pdf", bytes := "JVBERi0=" }

private def exampleOptions : OpenclawHandleOptions where
  attachPaths text := if text = reportMessage.text then ["/out/report.pdf"] else []
  stripMarkersForPath cleaned text _ := if text = reportMessage.text then "" else cleaned
  tryParseToolCallsEnvelope _ := none
  normalizeTaskFailError error := error
  envelope := false
  sendFile := false
  heartbeat := true
  taskTimeoutMs := 600000

private def messageBeforeAck : List HandleAction :=
  [.mapped none, .connected none, .subscribed true, .sessionMessage reportMessage, .nextMessage "a1"]

private def failedSend : List HandleAction :=
  messageBeforeAck ++ [.gatewayClosed "gateway websocket closed",
    .sendFailed true "gateway websocket closed", .messageRead [some reportFile] "a1"]

private def completedTask : List HandleAction :=
  messageBeforeAck ++ [.messageRead [some reportFile] "a1", .sendAcked "run" [],
    .chatEvent { runId := "run", state := .final, text := "Done." }, .settle, .drained "a2",
    .finalRead [] "a2" "m2"]

private def afterActions (actions : List HandleAction) : OpenclawRun :=
  actions.foldl (OpenclawRun.apply exampleOptions) (handle false)

/-- The gateway closes before it answers, and a file of an earlier message is still being read. -/
theorem terminal_last_of_failsQuietly_reading :
    (openclawSystem exampleOptions).Reachable (afterActions failedSend) ∧
      (afterActions failedSend).phase = .returned ∧
      (afterActions failedSend).frames.map TaskFrameBody.isTerminal = [false, true, false] ∧
      ¬ (afterActions failedSend).TerminalSpec := by
  refine ⟨System.Legal.reachable (by decide +kernel) (.of_init ⟨false, rfl⟩), by decide +kernel,
    by decide +kernel, fun hspec => ?_⟩
  obtain ⟨before, terminal, hframes, hterminal, -⟩ := hspec.returned (by decide +kernel)
  have hlast : (afterActions failedSend).frames.getLast?.map TaskFrameBody.isTerminal =
      some false := by decide +kernel
  rw [hframes, List.getLast?_concat, Option.map_some, hterminal] at hlast
  cases hlast

theorem terminal_last_of_failsQuietly_completed :
    (afterActions completedTask).phase = .returned ∧ (afterActions completedTask).TerminalSpec := by
  refine ⟨by decide +kernel, (@terminal_last_of_failsQuietly exampleOptions _ ?_).1⟩
  exact System.Legal.reachable_restrict (by decide +kernel) (.of_init ⟨false, rfl⟩)

end Witness

end OpenclawRun

end VicoopBridge
