import VicoopBridge.Model.Registry

/-! # The server end of a client connection

How a frame that arrives on a socket acts on the registry, and the life of a connection
from its hello to its close event. -/

namespace VicoopBridge

open Library

def maxIngressBytes : ℕ := 16 * 1024 * 1024

/-! ## Task frames -/

inductive TaskFrameAcceptance where
  | binding (binding : TaskBinding)
  | handled
  deriving DecidableEq

/-- A tagged liveness beat: `metadata[<URI>].heartbeat === true`. -/
def isHeartbeatStatusFrame (metadata : Option JsonObject) : Bool :=
  match metadata.bind (JsonObject.field · openaiCompatExtensionUri) with
  | some (.obj ext) => JsonObject.field ext "heartbeat" = some (.bool true)
  | _ => false

namespace Registry

section Frames

variable (r : Registry) (now : ℕ) (ws : WsId) (agentId : Option String)

/-- The binding a frame targets, if the connection's agent owns it. -/
def ownedBinding (taskId : String) : Option TaskBinding :=
  match r.getBinding taskId with
  | some b => if some b.agentId ≠ agentId then none else some b
  | none => none

/-- Acknowledge everything accepted for the binding so far, on this socket. -/
def acknowledge (binding : TaskBinding) : Registry :=
  match binding.executionId, (r.cells binding).nextClientSeq with
  | some executionId, some next =>
      r.modifySocket ws (Socket.send · (.taskAck binding.taskId executionId (next - 1)))
  | _, _ => r

/-- Re-acknowledge a frame of an execution whose terminal was accepted before. -/
def acknowledgeReceipt (frame : TaskUpFrame) : Bool × Registry :=
  match agentId, frame.executionId, frame.seq with
  | some agentId, some executionId, some seq =>
      match r.getTerminalReceipt now executionId agentId frame.taskId with
      | (some acceptedSeq, r) =>
          if seq > acceptedSeq then (false, r)
          else (true, r.modifySocket ws
            (Socket.send · (.taskAck frame.taskId executionId acceptedSeq)))
      | (none, r) => (false, r)
  | _, _, _ => (false, r)

/-- A frame that cannot belong to a sound replay ends the task on both sides. -/
def failExecution (binding : TaskBinding) (code message : String) : Registry :=
  ((r.failTaskBinding binding code message).sendToAgent binding.agentId
    (.taskCancel binding.taskId binding.executionId)).2

def frameGapMessage (expected received : ℕ) : String :=
  "client frame sequence gap: expected " ++ toString expected ++ ", received " ++ toString received

def acceptTaskFrame (frame : TaskUpFrame) : Option TaskFrameAcceptance × Registry :=
  match r.getBinding frame.taskId with
  | none =>
      let (acknowledged, r) := r.acknowledgeReceipt now ws agentId frame
      (if acknowledged then some .handled else none, r)
  | some _ =>
      match r.ownedBinding agentId frame.taskId with
      | none => (some .handled, r)
      | some binding =>
          match binding.executionId with
          | some executionId =>
              match frame.executionId with
              | none =>
                  (some .handled, r.failExecution binding "client_frame_execution_id_missing"
                    "client frame execution id is required for a replay-capable execution")
              | some frameExecutionId =>
                  if frameExecutionId ≠ executionId then
                    (some .handled, (r.acknowledgeReceipt now ws agentId frame).2)
                  else
                    match frame.seq with
                    | none =>
                        (some .handled, r.failExecution binding "client_frame_sequence_missing"
                          "client frame sequence is required for a replay-capable execution")
                    | some seq =>
                        let expected := (r.cells binding).nextClientSeq.getD 0
                        if seq < expected then
                          -- A duplicate shows the execution is alive as well as a new frame does.
                          (some .handled,
                            (r.acknowledge ws binding).resumeBinding frame.taskId binding.agentId)
                        else if seq > expected then
                          (some .handled, r.failExecution binding "client_frame_gap"
                            (frameGapMessage expected seq))
                        else
                          let r := r.modifyCell binding fun c =>
                            { c with nextClientSeq := some (expected + 1) }
                          (some (.binding binding),
                            r.resumeBinding frame.taskId (agentId.getD ""))
          | none =>
              if frame.executionId.isSome ∨ frame.seq.isSome then
                let (acknowledged, r) := r.acknowledgeReceipt now ws agentId frame
                (if acknowledged then some .handled else none, r)
              else
                (some (.binding binding), r.resumeBinding frame.taskId (agentId.getD ""))

/-! ## What an accepted frame does

The binding was found under the frame's task id, so the two task ids are the same. -/

/-- A frame that is neither a heartbeat nor a terminal: one status on the sink. -/
def pushWireStatus (binding : TaskBinding) (status : WireTaskStatus) (final : Bool)
    (metadata : Option JsonObject) : Registry :=
  r.pushStatus binding
    { taskId := binding.taskId, contextId := binding.contextId, final := final
      status := wireStatusToA2X status binding.taskId binding.contextId, metadata := metadata }

def rejectApprovalRequest (b : TaskBinding) : Registry :=
  (r.sendToAgent b.agentId (.taskCancel b.taskId b.executionId)).2.failTaskBinding b
    "invalid_approval_request" "Invalid remote approval request"

def processApprovalRequest (b : TaskBinding) (request : ApprovalRequest) : Registry :=
  if ¬ advertises ((r.getAgent b.agentId).bind (·.protocolCapabilities))
      remoteApprovalCapability then r.rejectApprovalRequest b
  else
    match r.approvals.request now b request with
    | .error _ => r.rejectApprovalRequest b
    | .ok (a, approvals) =>
        let r := { r with approvals := approvals }
        (r.pushWireStatus b (approvalStatus a) false none).acknowledge ws b

def approvalReceivedStatus (requestId : String) (decision : ApprovalDecision)
    (decidedBy : Option String) : WireTaskStatus where
  state := .working
  message := some
    { role := .agent, messageId := requestId ++ "-decision"
      parts := [.text ("Tool approval: " ++ decision.text)]
      metadata := some [(approvalExtensionUri, .obj
        ([("requestId", .str requestId), ("decision", .str decision.text)] ++
          (match decidedBy with
            | some principal => [("decidedBy", .str principal)]
            | none => [])))] }

def processApprovalReceived (b : TaskBinding) (requestId : String)
    (decision : ApprovalDecision) : Registry :=
  match r.approvals.received b requestId decision with
  | none => r.acknowledge ws b
  | some (received, approvals) =>
      let r := { r with approvals := approvals }
      (r.pushWireStatus b (approvalReceivedStatus requestId decision received.decidedBy) false
        none).acknowledge ws b

def processTaskStatus (b : TaskBinding) (status : WireTaskStatus)
    (metadata : Option JsonObject) : Registry :=
  let r := if isHeartbeatStatusFrame metadata then
      r.modifyCell b fun c => { c with heartbeats := some (c.heartbeats.getD 0 + 1) }
    else r
  let shown := match r.approvals.waiting b with
    | some waiting => approvalStatus waiting
    | none => status
  (r.pushWireStatus b shown false metadata).acknowledge ws b

def processTaskArtifact (b : TaskBinding) (artifact : WireArtifact)
    (append lastChunk : Option Bool) : Registry :=
  let event : TaskArtifactUpdateEvent :=
    { taskId := b.taskId, contextId := b.contextId
      artifact :=
        { artifactId := artifact.artifactId, name := artifact.name
          metadata := artifact.metadata, extensions := artifact.extensions
          parts := artifact.parts.map partToA2X }
      append := append, lastChunk := lastChunk }
  (r.pushArtifact b event).acknowledge ws b

/-- After its terminal a binding closes: the receipt outlives it so that a replayed
terminal can still be acknowledged. -/
def closeBinding (b : TaskBinding) : Registry :=
  let r := r.finish b
  let r := match b.executionId, (r.cells b).nextClientSeq with
    | some _, some next => r.rememberTerminalReceipt now b (next - 1)
    | _, _ => r
  (r.unbindTask b.taskId b).acknowledge ws b

def processTaskComplete (b : TaskBinding) (status : WireTaskStatus) (usage : Option TaskUsage) :
    Registry :=
  -- The usage must be visible before the terminal that makes the executor price the task.
  let r := if usage.isSome then r.modifyCell b fun c => { c with usage := usage } else r
  (r.pushWireStatus b status true none).closeBinding now ws b

/-- The failure a client reports, as the task's final event. -/
def clientFailureEvent (b : TaskBinding) (error : FrameError) : TaskStatusUpdateEvent :=
  failedEvent b.taskId b.contextId (b.taskId ++ "-err") (error.code ++ ": " ++ error.message) error
    b.requestedExtensions

def processTaskFail (b : TaskBinding) (error : FrameError) : Registry :=
  (r.pushStatus b (clientFailureEvent b error)).closeBinding now ws b

def processAccepted (b : TaskBinding) : TaskFrameBody → Registry
  | .approvalRequest request => r.processApprovalRequest now ws b request
  | .approvalReceived requestId decision => r.processApprovalReceived ws b requestId decision
  | .status status metadata => r.processTaskStatus ws b status metadata
  | .artifact artifact append lastChunk => r.processTaskArtifact ws b artifact append lastChunk
  | .complete status usage => r.processTaskComplete now ws b status usage
  | .fail error => r.processTaskFail now ws b error

def processTaskFrame (frame : TaskUpFrame) : Registry :=
  match r.acceptTaskFrame now ws agentId frame with
  | (some (.binding b), r) => r.processAccepted now ws b frame.body
  | (_, r) => r

end Frames

end Registry

/-! ## Connections -/

/-- What one connection's handlers remember. `authenticating` is the hello whose
authentication is still running. -/
structure Connection where
  agentId : Option String := none
  authed : Bool := false
  helloProcessing : Bool := false
  authenticating : Option HelloFrame := none
  observedCloseCode : Option ℕ := none
  deriving DecidableEq

/-- `usagePending` maps the id of an unanswered usage request to the agent it was sent
to; `usageSettled` lists the answers, oldest first. -/
structure Server where
  registry : Registry
  connections : WsId → Option Connection := fun _ => none
  usagePending : InsertionMap String String := .empty
  usageSettled : List (String × Except FrameError (Option Json)) := []

/-- The row the token of a hello belongs to. -/
structure ClientRow where
  id : String
  clientId : String
  x402Pricing : Option JsonObject := none
  deriving DecidableEq

def isReservedAgentId (id : String) : Bool := id.toLower ∈ ["admin"]

namespace Server

def setConnection (s : Server) (ws : WsId) (c : Connection) : Server :=
  { s with connections := Function.update s.connections ws (some c) }

def modifyRegistry (s : Server) (f : Registry → Registry) : Server :=
  { s with registry := f s.registry }

def closeSocket (s : Server) (ws : WsId) (code : ℕ) (reason : String) : Server :=
  s.modifyRegistry (Registry.modifySocket · ws (Socket.close · code reason))

/-- A close that is this server's verdict on the connection. -/
def rejectSocket (s : Server) (ws : WsId) (code : ℕ) (reason : String) : Server :=
  (s.modifyRegistry (Registry.noteServerClose · ws)).closeSocket ws code reason

/-- Ask an agent for its usage. An offline agent leaves nothing pending. -/
def requestUsage (s : Server) (requestId agentId : String) : Server :=
  match s.registry.sendToAgent agentId (.usageRequest requestId) with
  | (true, registry) =>
      { s with registry := registry, usagePending := s.usagePending.set requestId agentId }
  | (false, _) => s

def usageTimeout (s : Server) (requestId : String) : Server :=
  { s with usagePending := s.usagePending.erase requestId }

/-- Only the agent a usage request was sent to may answer it. -/
def resolveUsageResponse (s : Server) (respondingAgentId : String) (frame : UsageResponseFrame) :
    Server :=
  match s.usagePending.get? frame.requestId with
  | none => s
  | some agentId =>
      if agentId ≠ respondingAgentId then s
      else
        let answer : Except FrameError (Option Json) :=
          if frame.ok then .ok frame.usage
          else .error (frame.error.getD ⟨"usage_failed", "usage query failed on the client"⟩)
        { s with usagePending := s.usagePending.erase frame.requestId
                 usageSettled := s.usageSettled ++ [(frame.requestId, answer)] }

def processAuthedFrame (s : Server) (now : ℕ) (ws : WsId) (agentId : Option String) :
    UpFrame → Server
  | .task frame => s.modifyRegistry (Registry.processTaskFrame · now ws agentId frame)
  | .usageResponse frame =>
      match truthy agentId with
      | some agentId => s.resolveUsageResponse agentId frame
      | none => s
  | .pong => s
  | .hello _ => s.rejectSocket ws 4007 "duplicate hello"

/-- The message handler. A frame that does not parse comes with the parser's complaint. -/
def onMessage (s : Server) (now : ℕ) (ws : WsId) (c : Connection)
    (parsed : Except String UpFrame) : Server :=
  match parsed with
  | .error complaint => s.rejectSocket ws 4002 ("invalid frame: " ++ complaint)
  | .ok frame =>
      if c.authed then s.processAuthedFrame now ws c.agentId frame
      else
        match frame with
        | .hello hello =>
            if hello.version ≠ protocolVersion then
              s.closeSocket ws 4004 "protocol version mismatch"
            else if c.helloProcessing then s
            else s.setConnection ws { c with helloProcessing := true, authenticating := some hello }
        | _ => s.rejectSocket ws 4003 "expected hello before task frames"

/-- `client` is what the token lookup found, `card` whether the hello's card resolves. -/
def authenticateAndRegister (r : Registry) (now : ℕ) (ws : WsId) (frame : HelloFrame)
    (client : Option ClientRow) (card : Except (ℕ × String) Unit) :
    Except (ℕ × String) Registry :=
  if isReservedAgentId frame.agentId then .error (4011, "agent id reserved by the bridge")
  else
    match client with
    | none => .error (4005, "bad token")
    | some client =>
        if client.id ≠ frame.agentId then
          .error (4008, "agent id not authorized for this client")
        else
          match card with
          | .error rejection => .error rejection
          | .ok () =>
              match r.registerAgent now
                  { agentId := frame.agentId, clientId := client.clientId
                    protocolCapabilities := frame.protocolCapabilities
                    x402Pricing := client.x402Pricing, ws := ws } with
              | .error reason => .error (4006, reason)
              | .ok r => .ok r

/-- The capabilities the server confirms, each only with what it builds on. -/
def helloAckCapabilities (capabilities : Option (List String)) : List String :=
  let confirm (capability : String) (more : List String) : List String :=
    if advertises capabilities capability then capability :: more else []
  [taskReplayCapability] ++ confirm remoteApprovalCapability [] ++
    confirm callerContextV2Capability [] ++
    (if supportsExecutionScopeV1 capabilities then
      executionScopeV1Capability ::
        confirm callerRuntimeV1Capability (confirm federatedExecutionScopeV1Capability [])
    else [])

/-- `ws.readyState`: the close event finds the socket closed. -/
def readyState (s : Server) (ws : WsId) (c : Connection) : ReadyState :=
  if c.observedCloseCode.isSome then .closed else (s.registry.sockets ws).readyState

/-- The continuation of the authentication. The socket may have gone away meanwhile. -/
def onAuthenticated (s : Server) (now : ℕ) (ws : WsId) (c : Connection) (frame : HelloFrame)
    (client : Option ClientRow) (card : Except (ℕ × String) Unit) : Server :=
  let c := { c with authenticating := none }
  match authenticateAndRegister s.registry now ws frame client card with
  | .error (code, reason) => (s.setConnection ws c).closeSocket ws code reason
  | .ok registry =>
      let s : Server := { s.setConnection ws c with registry := registry }
      if s.readyState ws c ≠ .opened then
        match c.observedCloseCode with
        | none => s.setConnection ws { c with agentId := some frame.agentId }
        | some code => s.modifyRegistry (Registry.unregisterAgent · now frame.agentId ws (some code))
      else
        let s := s.setConnection ws { c with agentId := some frame.agentId, authed := true }
        if advertises frame.protocolCapabilities taskReplayCapability then
          s.modifyRegistry (Registry.modifySocket · ws (Socket.send · (.helloAck
            (helloAckCapabilities frame.protocolCapabilities) registry.disconnectGraceMs
            maxIngressBytes)))
        else s

/-- The authentication itself threw. -/
def onAuthenticationError (s : Server) (ws : WsId) (c : Connection) : Server :=
  (s.setConnection ws { c with authenticating := none }).closeSocket ws 1011 "internal error"

def onHelloTimeout (s : Server) (ws : WsId) (c : Connection) : Server :=
  if c.authed then s else s.rejectSocket ws 4001 "hello timeout"

/-- The peer starts to close. -/
def onPeerClosing (s : Server) (ws : WsId) : Server :=
  s.modifyRegistry (Registry.modifySocket · ws fun socket =>
    if socket.readyState = .opened then { socket with readyState := .closing } else socket)

/-- The close event: nothing else happens on the socket after it. -/
def onClose (s : Server) (now : ℕ) (ws : WsId) (c : Connection) (code : ℕ) : Server :=
  let s := s.setConnection ws { c with observedCloseCode := some code }
  let s := s.modifyRegistry
    (Registry.modifySocket · ws fun socket => { socket with readyState := .closed })
  match truthy c.agentId with
  | some agentId => s.modifyRegistry (Registry.unregisterAgent · now agentId ws (some code))
  | none => s

/-- The transport refused an oversized message. -/
def onOversizedMessage (s : Server) (ws : WsId) : Server :=
  s.modifyRegistry (Registry.noteServerClose · ws)

end Server

end VicoopBridge
