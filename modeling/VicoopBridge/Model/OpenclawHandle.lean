import VicoopBridge.Model.Protocol

/-! # One task of the OpenClaw backend

A call of `handle` between the steps that other parties take: the gateway, the caller that
cancels, the tools of the agent and the timers. What an asynchronous step waits for comes with
the event that ends the wait. A message carries the text that is read from it. Timestamps and log
lines are left out. -/

namespace VicoopBridge

inductive ChatState where
  | delta
  | final
  | aborted
  | error
  deriving DecidableEq, Repr

structure ChatEvent where
  runId : String
  state : ChatState
  text : String := ""
  deltaText : Option String := none
  replace : Bool := false
  errorMessage : Option String := none
  deriving DecidableEq

inductive FinalizerCause where
  | gatewayClosed
  | timeout
  | abortFailed
  deriving DecidableEq, Repr

structure FinalizerEvent extends ChatEvent where
  cause : Option FinalizerCause := none
  deriving DecidableEq

structure SessionMessage where
  role : String
  messageId : String
  text : String
  deriving DecidableEq

/-- A file that was read below one of the allowed roots. -/
structure OutputFile where
  name : String
  mimeType : String
  bytes : String
  deriving DecidableEq

def OutputFile.part (file : OutputFile) : WirePart :=
  .file (some file.name) (some file.mimeType) (some file.bytes) none

/-- `attachPaths` are the paths of the markers in a text, none where outputs are not attached.
`stripMarkersForPath` takes the markers of a path in the second text out of the first one. -/
structure OpenclawHandleOptions where
  attachPaths : String → List String
  stripMarkersForPath : String → String → String → String
  tryParseToolCallsEnvelope : String → Option JsonObject
  normalizeTaskFailError : FrameError → FrameError
  envelope : Bool
  sendFile : Bool
  heartbeat : Bool
  taskTimeoutMs : ℕ

/-- What `handle` waits for. The tail of the messages has `ahead` links that it waits for. -/
inductive HandlePhase where
  | mapping
  | connecting
  | subscribing
  | startingSendFile
  | sending
  | settling
  | draining (ahead : ℕ)
  | finishing (text : String)
  | returned
  deriving DecidableEq, Repr

/-- The finalizer, the abort listener and the timer are installed. -/
def HandlePhase.listening : HandlePhase → Bool
  | .sending | .settling | .draining _ | .finishing _ => true
  | _ => false

/-- `queue` and `reading` are the links of `processingTail`: the texts whose turn has not come, and
the one whose files are being read. `sendFiles` and `aborting` count the calls of the tool and of
`chat.abort` that have not ended. -/
structure OpenclawRun where
  phase : HandlePhase := .mapping
  aborted : Bool := false
  frames : List TaskFrameBody := []
  heartbeat : Bool := false
  terminalSettled : Bool := false
  sendFile : Bool := false
  sendFiles : ℕ := 0
  ownedSession : Bool := false
  sessionMessageSettled : Bool := false
  seenAssistantMessageIds : List String := []
  emittedAnyArtifact : Bool := false
  queue : List String := []
  reading : Option String := none
  settled : Option FinalizerEvent := none
  chatDelta : String := ""
  runId : Option String := none
  pendingAbort : Bool := false
  abortHandled : Bool := false
  aborting : ℕ := 0
  deriving DecidableEq

inductive HandleAction where
  | abort
  | mapped (error : Option FrameError)
  | connected (error : Option String)
  | subscribed (ownedSession : Bool)
  | sendFileStarted (server ownedSession : Bool)
  | sendAcked (runId : String) (buffered : List ChatEvent)
  | sendFailed (closed : Bool) (message : String)
  | chatEvent (event : ChatEvent)
  | gatewayClosed (message : String)
  | timeout
  | abortSent
  | abortFailed (message : String)
  | settle
  | drained (artifactId : String)
  | finalRead (reads : List (Option OutputFile)) (artifactId messageId : String)
  | sessionMessage (message : SessionMessage)
  | nextMessage (artifactId : String)
  | messageRead (reads : List (Option OutputFile)) (artifactId : String)
  | sendFileCall
  | sendFileRead (file : Option OutputFile) (artifactId : String)
  | heartbeatTick (silent : Bool)
  deriving DecidableEq

def canceledFrame : TaskFrameBody := .complete { state := .canceled } none

def heartbeatFrame : TaskFrameBody :=
  .status { state := .working } (some [(openaiCompatExtensionUri, .obj [("heartbeat", .bool true)])])

namespace OpenclawRun

section

variable (opts : OpenclawHandleOptions) (s : OpenclawRun)

/-- The parts and the cleaned text of a message, from what reading its files gave. -/
def processAssistantText (text : String) (reads : List (Option OutputFile)) :
    List WirePart × String :=
  let paths := opts.attachPaths text
  if text = "" ∨ paths = [] then ([.text text], text)
  else
    let cleanedText := (paths.zip reads).foldl
      (fun cleaned read =>
        if read.2.isSome then opts.stripMarkersForPath cleaned text read.1 else cleaned) text
    let files := reads.filterMap fun read => read.map OutputFile.part
    ((if cleanedText = "" then [] else [.text cleanedText]) ++ files, cleanedText)

def emit (frame : TaskFrameBody) : OpenclawRun := { s with frames := s.frames ++ [frame] }

def emitArtifact (artifact : WireArtifact) : OpenclawRun :=
  { s.emit (.artifact artifact none (some true)) with emittedAnyArtifact := true }

/-- The `finally` block. -/
def cleanup : OpenclawRun :=
  { s with
    phase := .returned
    sessionMessageSettled := true
    terminalSettled := true
    ownedSession := false
    sendFile := false }

def fail (code message : String) : OpenclawRun :=
  (s.emit (.fail (opts.normalizeTaskFailError { code := code, message := message }))).cleanup

def resolveSettled (event : FinalizerEvent) : OpenclawRun :=
  { s with settled := s.settled <|> some event }

def finalizer (event : FinalizerEvent) : OpenclawRun :=
  match event.state, event.deltaText with
  | .delta, some deltaText =>
      { s with chatDelta := if event.replace then deltaText else s.chatDelta ++ deltaText }
  | .delta, none => s
  | .final, _ | .error, _ | .aborted, _ => s.resolveSettled event

def onAbort : OpenclawRun :=
  if s.abortHandled then s
  else
    match s.runId with
    | none => { s with abortHandled := true, pendingAbort := true }
    | some _ => { s with abortHandled := true, aborting := s.aborting + 1 }

/-- From the registration as owner of the session to the `chat.send`. -/
def register (ownedSession : Bool) : OpenclawRun :=
  let s := { s with ownedSession := ownedSession, phase := .sending }
  if s.aborted then s.onAbort else s

/-- A link of the tail is done. -/
def linkDone : OpenclawRun :=
  match s.phase with
  | .draining (ahead + 1) => { s with phase := .draining ahead }
  | _ => s

def toolCallsArtifact (name artifactId : String) (toolCalls : JsonObject) : WireArtifact where
  artifactId := artifactId
  name := some name
  parts := [.data toolCalls]
  extensions := some [openaiCompatExtensionUri]

def toolCalls (text : String) : Option JsonObject :=
  if opts.envelope then opts.tryParseToolCallsEnvelope text else none

/-- The first check of a message, when it arrives. -/
def onSessionMessage (message : SessionMessage) : OpenclawRun :=
  if s.sessionMessageSettled ∨ message.role ≠ "assistant" then s
  else if message.messageId ≠ "" ∧ message.messageId ∈ s.seenAssistantMessageIds then s
  else
    { s with
      seenAssistantMessageIds :=
        if message.messageId = "" then s.seenAssistantMessageIds
        else s.seenAssistantMessageIds ++ [message.messageId]
      queue := if message.text = "" then s.queue else s.queue ++ [message.text] }

/-- The second check, when it is the turn of the message. -/
def nextMessage (artifactId : String) : OpenclawRun :=
  match s.queue with
  | [] => s
  | text :: rest =>
      let s := { s with queue := rest }
      if s.sessionMessageSettled then s.linkDone
      else
        match toolCalls opts text with
        | some calls => (s.emitArtifact (toolCallsArtifact "openclaw-message" artifactId calls)).linkDone
        | none => { s with reading := some text }

def messageRead (reads : List (Option OutputFile)) (artifactId : String) : OpenclawRun :=
  match s.reading with
  | none => s
  | some text =>
      let parts := (processAssistantText opts text reads).1
      let s := { s with reading := none }
      if parts = [] then s.linkDone
      else
        (s.emitArtifact {
          artifactId := artifactId, name := some "openclaw-message", parts := parts }).linkDone

/-- After the gate for messages is closed. -/
def conclude (result : FinalizerEvent) (artifactId : String) : OpenclawRun :=
  match result.cause, result.state with
  | some .timeout, _ =>
      s.fail opts "task_timeout" (result.errorMessage.getD "task timed out")
  | some .gatewayClosed, _ =>
      s.fail opts "gateway_closed" (result.errorMessage.getD "gateway closed")
  | some .abortFailed, _ =>
      s.fail opts "gateway_abort_failed" (result.errorMessage.getD "chat.abort request failed")
  | none, .error =>
      s.fail opts "gateway_chat_error" (result.errorMessage.getD "unknown gateway error")
  | none, .aborted => (s.emit canceledFrame).cleanup
  | none, .final | none, .delta =>
      let text := if result.text = "" then s.chatDelta else result.text
      match toolCalls opts text with
      | some calls =>
          let s := if s.emittedAnyArtifact then s
            else s.emit (.artifact (toolCallsArtifact "openclaw-result" artifactId calls) none
              (some true))
          (s.emit (.complete { state := .completed } none)).cleanup
      | none => { s with phase := .finishing text }

def finalRead (text : String) (reads : List (Option OutputFile)) (artifactId messageId : String) :
    OpenclawRun :=
  let (parts, cleanedText) := processAssistantText opts text reads
  let s := if s.emittedAnyArtifact ∨ parts = [] then s
    else s.emit (.artifact {
      artifactId := artifactId, name := some "openclaw-result", parts := parts } none (some true))
  (s.emit (.complete {
    state := .completed
    message := some { role := .agent, messageId := messageId, parts := [.text cleanedText] } }
      none)).cleanup

/-- The call with the signal as it is. -/
def handle (aborted : Bool) : OpenclawRun :=
  if aborted then { phase := .returned, aborted := true, frames := [canceledFrame] } else {}

def apply : HandleAction → OpenclawRun
  | .abort =>
      let s := { s with aborted := true }
      if s.phase.listening then s.onAbort else s
  | .mapped none => { s with phase := .connecting }
  | .mapped (some error) => { s.emit (.fail error) with phase := .returned }
  | .connected none =>
      { s.emit (.status { state := .working } none) with
        heartbeat := opts.heartbeat, phase := .subscribing }
  | .connected (some message) =>
      { s.emit (.fail (opts.normalizeTaskFailError
          { code := "gateway_closed", message := message })) with phase := .returned }
  | .subscribed ownedSession =>
      if opts.sendFile then { s with phase := .startingSendFile } else s.register ownedSession
  | .sendFileStarted server ownedSession => { s with sendFile := server }.register ownedSession
  | .sendAcked runId buffered =>
      let s := buffered.foldl (fun s event => s.finalizer { event with }) { s with runId := some runId }
      { s with
        phase := .settling
        aborting := if s.pendingAbort then s.aborting + 1 else s.aborting }
  | .sendFailed closed message =>
      s.fail opts (if closed then "gateway_closed" else "gateway_send_failed") message
  | .chatEvent event => s.finalizer { event with }
  | .gatewayClosed message => s.finalizer {
      runId := "", state := .error, errorMessage := some ("gateway closed: " ++ message)
      cause := some .gatewayClosed }
  | .timeout => s.resolveSettled {
      runId := s.runId.getD "", state := .error
      errorMessage := some ("task timed out after " ++ toString opts.taskTimeoutMs ++ "ms")
      cause := some .timeout }
  | .abortSent => { s with aborting := s.aborting - 1 }
  | .abortFailed message => { s with aborting := s.aborting - 1 }.resolveSettled {
      runId := s.runId.getD "", state := .error, errorMessage := some message
      cause := some .abortFailed }
  | .settle =>
      { s with phase := .draining (s.queue.length + if s.reading.isSome then 1 else 0) }
  | .drained artifactId =>
      match s.settled with
      | none => s
      | some result => { s with sessionMessageSettled := true }.conclude opts result artifactId
  | .finalRead reads artifactId messageId =>
      match s.phase with
      | .finishing text => s.finalRead opts text reads artifactId messageId
      | _ => s
  | .sessionMessage message => s.onSessionMessage message
  | .nextMessage artifactId => s.nextMessage opts artifactId
  | .messageRead reads artifactId => s.messageRead opts reads artifactId
  | .sendFileCall => { s with sendFiles := s.sendFiles + 1 }
  | .sendFileRead file artifactId =>
      let s := { s with sendFiles := s.sendFiles - 1 }
      match file with
      | some file =>
          if s.sendFile then
            s.emitArtifact {
              artifactId := artifactId, name := some "send-file", parts := [file.part] }
          else s
      | none => s
  | .heartbeatTick silent =>
      if s.terminalSettled ∨ s.aborted ∨ silent = false then s else s.emit heartbeatFrame

/-- Where `handle` continues after the last link it waits for, it comes before the next link of
the tail. -/
def enabled : HandleAction → Prop
  | .abort => s.aborted = false
  | .mapped _ => s.phase = .mapping
  | .connected _ => s.phase = .connecting
  | .subscribed _ => s.phase = .subscribing
  | .sendFileStarted .. => s.phase = .startingSendFile
  | .sendAcked .. | .sendFailed .. => s.phase = .sending
  | .chatEvent _ | .gatewayClosed _ | .timeout => s.phase.listening = true
  | .abortSent | .abortFailed _ => 0 < s.aborting
  | .settle => s.phase = .settling ∧ s.settled.isSome
  | .drained _ => s.phase = .draining 0
  | .finalRead reads .. => ∃ text, s.phase = .finishing text ∧
      reads.length = (opts.attachPaths text).length
  | .sessionMessage _ => s.ownedSession = true
  | .nextMessage _ => s.reading = none ∧ s.queue ≠ [] ∧ s.phase ≠ .draining 0
  | .messageRead reads _ => ∃ text, s.reading = some text ∧
      reads.length = (opts.attachPaths text).length
  | .sendFileCall => s.sendFile = true
  | .sendFileRead .. => 0 < s.sendFiles
  | .heartbeatTick _ => s.heartbeat = true

instance decidableEnabled : ∀ a, Decidable (s.enabled opts a)
  | .abort => inferInstanceAs (Decidable (s.aborted = false))
  | .mapped _ => inferInstanceAs (Decidable (s.phase = .mapping))
  | .connected _ => inferInstanceAs (Decidable (s.phase = .connecting))
  | .subscribed _ => inferInstanceAs (Decidable (s.phase = .subscribing))
  | .sendFileStarted .. => inferInstanceAs (Decidable (s.phase = .startingSendFile))
  | .sendAcked .. | .sendFailed .. => inferInstanceAs (Decidable (s.phase = .sending))
  | .chatEvent _ | .gatewayClosed _ | .timeout =>
      inferInstanceAs (Decidable (s.phase.listening = true))
  | .abortSent | .abortFailed _ => inferInstanceAs (Decidable (0 < s.aborting))
  | .settle => inferInstanceAs (Decidable (s.phase = .settling ∧ s.settled.isSome))
  | .drained _ => inferInstanceAs (Decidable (s.phase = .draining 0))
  | .finalRead reads _ _ =>
      match hphase : s.phase with
      | .finishing text => decidable_of_iff (reads.length = (opts.attachPaths text).length)
          (by simp [enabled, hphase])
      | .mapping | .connecting | .subscribing | .startingSendFile | .sending | .settling
      | .draining _ | .returned => isFalse (by simp [enabled, hphase])
  | .sessionMessage _ => inferInstanceAs (Decidable (s.ownedSession = true))
  | .nextMessage _ => inferInstanceAs
      (Decidable (s.reading = none ∧ s.queue ≠ [] ∧ s.phase ≠ .draining 0))
  | .messageRead reads _ =>
      match hreading : s.reading with
      | some text => decidable_of_iff (reads.length = (opts.attachPaths text).length)
          (by simp [enabled, hreading])
      | none => isFalse (by simp [enabled, hreading])
  | .sendFileCall => inferInstanceAs (Decidable (s.sendFile = true))
  | .sendFileRead .. => inferInstanceAs (Decidable (0 < s.sendFiles))
  | .heartbeatTick _ => inferInstanceAs (Decidable (s.heartbeat = true))

end

end OpenclawRun

end VicoopBridge
