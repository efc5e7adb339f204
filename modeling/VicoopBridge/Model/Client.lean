import Mathlib.Algebra.Ring.Int.Defs
import VicoopBridge.Model.Registry

/-! # The client end of a connection

The daemon that runs tasks for one agent: its current socket, its runs with the frames they
have not seen acknowledged, and the tool approvals they wait for. Backends, timers and
transports act through the events of this module. -/

namespace VicoopBridge

open Library

/-! ## State -/

inductive ClientReadyState where
  | connecting
  | opened
  | closing
  | closed
  deriving DecidableEq, Repr

/-- A socket as the client sees it. `sent` records what was written to it, and `disconnecting`
that a callback is due which terminates it. -/
structure ClientSocket where
  readyState : ClientReadyState := .connecting
  sent : List UpFrame := []
  disconnecting : Bool := false
  deriving DecidableEq

def ClientSocket.send (s : ClientSocket) (frame : UpFrame) : ClientSocket :=
  if s.readyState = .opened then { s with sent := s.sent ++ [frame] } else s

def ClientSocket.terminate (s : ClientSocket) : ClientSocket :=
  if s.readyState = .closed then s else { s with readyState := .closing }

abbrev RunRef := ℕ

/-- `approvals` is whether tools may ask; `ended` that the backend's `handle` is over.
`sequenced` records the frames by their sequence numbers. -/
structure ClientRun where
  taskId : String
  executionId : Option String := none
  approvals : Bool := false
  suppressed : Bool := false
  aborted : Bool := false
  ended : Bool := false
  nextSeq : ℕ := 0
  sequenced : List TaskUpFrame := []
  deriving DecidableEq

structure PendingFrame where
  taskId : String
  executionId : String
  seq : ℕ
  encoded : TaskUpFrame
  bytes : ℕ
  createdAt : ℕ
  deriving DecidableEq

structure PendingApproval where
  taskId : String
  executionId : String
  run : RunRef
  expiresAt : DateTime
  deriving DecidableEq

/-- The limits are those after the defaults have been filled in. `size` is the length of an
encoded frame in bytes. -/
structure ClientOptions where
  hello : HelloFrame
  maxPendingFrames : ℕ := 2000
  maxPendingBytes : ℕ := 4 * 1024 * 1024
  maxPendingAgeMs : ℕ := 60000
  approvalTimeoutMs : ℕ := 10 * 60000
  requiresCallerScope : Bool := false
  size : TaskUpFrame → ℕ

/-- `resolved` records the answers the tools got, and `fatal` that the daemon has given up. -/
structure Client where
  sockets : WsId → ClientSocket := fun _ => {}
  ws : Option WsId := none
  stopped : Bool := false
  fatal : Bool := false
  runs : RunRef → ClientRun := fun _ => { taskId := "" }
  nextRun : RunRef := 0
  inflight : InsertionMap String RunRef := .empty
  pendingFrames : List PendingFrame := []
  pendingBytes : ℤ := 0
  pendingExpiryTimer : Option ℕ := none
  replayReady : Bool := false
  callerScopeReady : Bool := false
  federatedScopeReady : Bool := false
  negotiatedMaxFrameBytes : Option ℕ := none
  approvalsReady : Bool := false
  approvals : InsertionMap String PendingApproval := .empty
  resolved : List (String × ApprovalDecision) := []

namespace Client

variable (opts : ClientOptions) (c : Client)

def modifySocket (ws : WsId) (f : ClientSocket → ClientSocket) : Client :=
  { c with sockets := Function.update c.sockets ws (f (c.sockets ws)) }

def modifyRun (r : RunRef) (f : ClientRun → ClientRun) : Client :=
  { c with runs := Function.update c.runs r (f (c.runs r)) }

/-- `this.ws?.readyState === WebSocket.OPEN` -/
def openSocket : Option WsId := c.ws.filter fun ws => (c.sockets ws).readyState = .opened

def send (frame : UpFrame) : Client :=
  match c.openSocket with
  | some ws => c.modifySocket ws (ClientSocket.send · frame)
  | none => c

/-- Terminate the current socket if it is open. -/
def terminateOpen : Client :=
  match c.openSocket with
  | some ws => c.modifySocket ws ClientSocket.terminate
  | none => c

/-! ## Retained frames -/

def pendingRetentionEnabled : Bool :=
  0 < opts.maxPendingFrames ∧ 0 < opts.maxPendingBytes ∧ 0 < opts.maxPendingAgeMs

def schedulePendingExpiry : Client :=
  { c with pendingExpiryTimer :=
      if opts.maxPendingAgeMs = 0 then none
      else c.pendingFrames.head?.map fun oldest => oldest.createdAt + opts.maxPendingAgeMs }

/-- Keep the entries that satisfy `keep`. -/
def filterPending (keep : PendingFrame → Bool) : Client :=
  let removed := c.pendingFrames.filter fun entry => !keep entry
  let c := { c with
    pendingFrames := c.pendingFrames.filter keep
    pendingBytes := c.pendingBytes - (removed.map fun entry : PendingFrame => (entry.bytes : ℤ)).sum }
  c.schedulePendingExpiry opts

def acknowledgeFrames (executionId : String) (acceptedSeq : ℕ) : Client :=
  c.filterPending opts fun entry => entry.executionId ≠ executionId ∨ entry.seq > acceptedSeq

def removePendingExecution (executionId : String) : Client :=
  c.filterPending opts fun entry => entry.executionId ≠ executionId

def dropPendingFrames : Client :=
  { c with pendingExpiryTimer := none, pendingFrames := [], pendingBytes := 0 }

/-! ## Ending runs -/

/-- The tools of a suppressed run are denied, and nothing is reported any more. -/
def denyApprovals (r : RunRef) : Client :=
  { c with
    approvals := c.approvals.filter fun _ p => p.run ≠ r
    resolved := c.resolved ++ (c.approvals.entries.filter fun e => e.2.run = r).map
      fun e => (e.1, ApprovalDecision.deny) }

/-- `run.suppressed = true; run.controller.abort()` -/
def suppressRun (r : RunRef) : Client :=
  (c.modifyRun r fun run => { run with suppressed := true, aborted := true }).denyApprovals r

def failReliableRun (r : RunRef) (disconnect : Bool) : Client :=
  if (c.runs r).suppressed then c
  else
    let c := c.suppressRun r
    let c := match (c.runs r).executionId with
      | some executionId => c.removePendingExecution opts executionId
      | none => c
    if disconnect then c.terminateOpen else c

/-- The inflight run of an execution. -/
def runOf (executionId : String) : Option RunRef :=
  c.inflight.values.find? fun r => (c.runs r).executionId = some executionId

/-! ## Sending -/

def bufferOverflowError : FrameError where
  code := "client_buffer_overflow"
  message := "client unacknowledged frame buffer limit exceeded"

def retainedFrameError : FrameError where
  code := "client_buffer_overflow"
  message := "retained client frame exceeds the negotiated server limit"

def reliableFailure (taskId executionId : String) (seq : ℕ) (error : FrameError) : TaskUpFrame where
  taskId := taskId
  executionId := some executionId
  seq := some seq
  body := .fail error

def sendReliableFailureAndDisconnect (frame : TaskUpFrame) : Client :=
  match c.openSocket with
  | none => c
  | some ws =>
      if ¬ c.replayReady then c.modifySocket ws ClientSocket.terminate
      else if c.negotiatedMaxFrameBytes.any (· < opts.size frame) then
        c.modifySocket ws ClientSocket.terminate
      else c.modifySocket ws fun s => { s.send (.task frame) with disconnecting := true }

def overflows (bytes : ℕ) : Bool :=
  c.negotiatedMaxFrameBytes.any (· < bytes) ||
    pendingRetentionEnabled opts &&
      (opts.maxPendingBytes < bytes || opts.maxPendingFrames ≤ c.pendingFrames.length ||
        (opts.maxPendingBytes : ℤ) < c.pendingBytes + bytes)

def sendTaskFrame (now : ℕ) (r : RunRef) (frame : TaskUpFrame) : Client :=
  let run := c.runs r
  if run.suppressed then c
  else
    match run.executionId with
    | none => c.send (.task frame)
    | some executionId =>
        let seq := run.nextSeq
        let reliableFrame := { frame with executionId := some executionId, seq := some seq }
        let bytes := opts.size reliableFrame
        if c.overflows opts bytes then
          -- The frame that takes the sequence number is the failure instead.
          let failure := reliableFailure frame.taskId executionId seq bufferOverflowError
          let c := c.modifyRun r fun run => { run with
            nextSeq := seq + 1, sequenced := run.sequenced ++ [failure] }
          (c.failReliableRun opts r false).sendReliableFailureAndDisconnect opts failure
        else
          let c := c.modifyRun r fun run => { run with
            nextSeq := seq + 1, sequenced := run.sequenced ++ [reliableFrame] }
          let c :=
            if pendingRetentionEnabled opts then
              let entry : PendingFrame := {
                taskId := frame.taskId, executionId := executionId, seq := seq
                encoded := reliableFrame, bytes := bytes, createdAt := now }
              let c := { c with
                pendingFrames := c.pendingFrames ++ [entry]
                pendingBytes := c.pendingBytes + bytes }
              c.schedulePendingExpiry opts
            else c
          if c.replayReady then c.send (.task reliableFrame) else c

/-- One expired execution. -/
def expireExecution (executionId : String) : Client :=
  match c.runOf executionId with
  | some r => c.failReliableRun opts r true
  | none => (c.removePendingExecution opts executionId).terminateOpen

def expirePendingFrames (now : ℕ) : Client :=
  if opts.maxPendingAgeMs = 0 ∨ c.pendingFrames = [] then c
  else
    let expired := (c.pendingFrames.filter fun entry =>
      entry.createdAt + opts.maxPendingAgeMs ≤ now).map PendingFrame.executionId
    (expired.dedup.foldl (fun c executionId => c.expireExecution opts executionId) c)
      |>.schedulePendingExpiry opts

/-- The retained frames in order, up to one the server would not take. -/
def replay (ws : WsId) (limit : Option ℕ) (c : Client) : List PendingFrame → Client
  | [] => c
  | entry :: rest =>
      if limit.any (· < entry.bytes) then
        let c := match c.runOf entry.executionId with
          | some r => c.failReliableRun opts r false
          | none => c.removePendingExecution opts entry.executionId
        c.sendReliableFailureAndDisconnect opts
          (reliableFailure entry.taskId entry.executionId entry.seq retainedFrameError)
      else replay ws limit (c.modifySocket ws (ClientSocket.send · (.task entry.encoded))) rest

def flushPendingFrames (now : ℕ) (ws : WsId) : Client :=
  if ¬ c.replayReady ∨ (c.sockets ws).readyState ≠ .opened then c
  else
    let c := c.expirePendingFrames opts now
    if ¬ c.replayReady ∨ (c.sockets ws).readyState ≠ .opened then c
    else replay opts ws c.negotiatedMaxFrameBytes c c.pendingFrames

/-! ## Tool approvals -/

/-- The tool gets its answer once, and the server hears of it. -/
def finishApproval (now : ℕ) (requestId : String) (decision : ApprovalDecision) : Client :=
  match c.approvals.get? requestId with
  | none => c
  | some p =>
      let c := { c with approvals := c.approvals.erase requestId }
      let received : TaskUpFrame := {
        taskId := p.taskId, executionId := some p.executionId
        body := .approvalReceived requestId decision }
      let c := c.sendTaskFrame opts now p.run received
      { c with resolved := c.resolved ++ [(requestId, decision)] }

/-- Whether a tool of the run is allowed to ask. `inputBytes` is the length of the input's
JSON text. -/
def mayAsk (r : RunRef) (toolName : String) (inputBytes : ℕ) : Option String :=
  let run := c.runs r
  match truthy run.executionId with
  | none => none
  | some executionId =>
      if ¬ run.approvals ∨ run.aborted ∨ run.ended then none
      else if c.approvals.values.any fun p => p.executionId = executionId then none
      else if toolName = "" ∨ toolName.length > 256 ∨ inputBytes > 64 * 1024 then none
      else some executionId

/-- A tool asks under a fresh request id. -/
def requestApproval (now : ℕ) (r : RunRef) (inputBytes : ℕ) (request : ApprovalRequest) : Client :=
  match c.mayAsk r request.toolName inputBytes with
  | none => { c with resolved := c.resolved ++ [(request.requestId, .deny)] }
  | some executionId =>
      let taskId := (c.runs r).taskId
      let waiting : PendingApproval := {
        taskId := taskId, executionId := executionId, run := r, expiresAt := request.expiresAt }
      let c := { c with approvals := c.approvals.set request.requestId waiting }
      c.sendTaskFrame opts now r
        { taskId := taskId, executionId := some executionId, body := .approvalRequest request }

/-- The frame answers the request it names, unless that has expired here. -/
def resolveApproval (now : ℕ) (taskId executionId requestId : String)
    (decision : ApprovalDecision) : Client :=
  match c.approvals.get? requestId with
  | none => c
  | some p =>
      if p.taskId ≠ taskId ∨ p.executionId ≠ executionId then c
      else c.finishApproval opts now requestId
        (if p.expiresAt.ms ≤ now then .deny else decision)

/-- Every tool of a run that is aborted or over is denied. -/
def denyRun (now : ℕ) (r : RunRef) : Client :=
  ((c.approvals.entries.filter fun e => e.2.run = r).map Prod.fst).foldl
    (fun c requestId => c.finishApproval opts now requestId .deny) c

/-- `run.controller.abort()` -/
def abortRun (now : ℕ) (r : RunRef) : Client :=
  (c.modifyRun r fun run => { run with aborted := true }).denyRun opts now r

/-! ## Tasks -/

def runTask (taskId : String) (executionId : Option String) : Client :=
  let c := match c.inflight.get? taskId with
    | none => c
    | some previous =>
        let c := c.suppressRun previous
        match (c.runs previous).executionId with
        | some executionId => c.removePendingExecution opts executionId
        | none => c
  { c with
    runs := Function.update c.runs c.nextRun
      { taskId := taskId, executionId := executionId, approvals := c.approvalsReady }
    nextRun := c.nextRun + 1
    inflight := c.inflight.set taskId c.nextRun }

/-- The backend's `handle` is over. -/
def endRun (now : ℕ) (r : RunRef) : Client :=
  let c := (c.modifyRun r fun run => { run with ended := true }).denyRun opts now r
  let taskId := (c.runs r).taskId
  if c.inflight.get? taskId = some r then { c with inflight := c.inflight.erase taskId } else c

def cancelTask (now : ℕ) (taskId : String) (executionId : Option String) : Client :=
  match c.inflight.get? taskId with
  | none => c
  | some r =>
      match executionId with
      | none => c.abortRun opts now r
      | some executionId =>
          if (c.runs r).executionId ≠ some executionId then c
          else (c.suppressRun r).removePendingExecution opts executionId

def suppressAll (rs : List RunRef) : Client := rs.foldl suppressRun c

/-- `onFatal` follows. -/
def stop : Client :=
  let c := { c with stopped := true }
  let c := (c.suppressAll c.inflight.values).dropPendingFrames
  match c.ws with
  | some ws => c.modifySocket ws ClientSocket.terminate
  | none => c

def giveUp : Client := { c.stop with fatal := true }

/-! ## The connection -/

def connect (ws : WsId) : Client :=
  if c.stopped then c
  else { c with
    replayReady := false, callerScopeReady := false, federatedScopeReady := false
    negotiatedMaxFrameBytes := none
    ws := some ws }

def onOpen (ws : WsId) : Client :=
  c.modifySocket ws fun s => if s.readyState = .connecting then { s with readyState := .opened } else s

/-- The card probe is over, if the socket is still open. -/
def sendHello (ws : WsId) : Client := c.modifySocket ws (ClientSocket.send · (.hello opts.hello))

def onHelloAck (now : ℕ) (ws : WsId) (capabilities : List String) (maxFrameBytes : ℕ) : Client :=
  let c := { c with
    approvalsReady := capabilities.contains remoteApprovalCapability
    federatedScopeReady := capabilities.contains federatedExecutionScopeV1Capability
    callerScopeReady := [taskReplayCapability, callerContextV2Capability,
      executionScopeV1Capability, callerRuntimeV1Capability].all capabilities.contains }
  if opts.requiresCallerScope ∧ ¬ c.callerScopeReady then c.giveUp
  else if ¬ capabilities.contains taskReplayCapability then c
  else
    let c := { c with replayReady := true, negotiatedMaxFrameBytes := some maxFrameBytes }
    c.flushPendingFrames opts now ws

def onTaskAssign (taskId : String) (executionId : Option String)
    (executionScope : Option JsonObject) : Client :=
  let federated := executionScope.bind (JsonObject.string? · "policy") = some "federated-principal-v1"
  if opts.requiresCallerScope ∧ (¬ c.callerScopeReady ∨ federated ∧ ¬ c.federatedScopeReady) then
    c.giveUp
  else
    -- An assignment without an execution came from a bridge that does not replay.
    let c := if executionId = none then { c with replayReady := false } else c
    c.runTask opts taskId executionId

/-- A frame from a socket that has been replaced does nothing. -/
def onMessage (now : ℕ) (ws : WsId) (frame : DownFrame) : Client :=
  if c.ws ≠ some ws then c
  else
    match frame with
    | .approvalResolve taskId executionId requestId decision =>
        if c.approvalsReady then c.resolveApproval opts now taskId executionId requestId decision
        else c
    | .helloAck capabilities _ maxFrameBytes => c.onHelloAck opts now ws capabilities maxFrameBytes
    | .taskAck _ executionId acceptedSeq => c.acknowledgeFrames opts executionId acceptedSeq
    | .taskAssign taskId executionId _ _ _ _ executionScope =>
        c.onTaskAssign opts taskId executionId executionScope
    | .taskCancel taskId executionId => c.cancelTask opts now taskId executionId
    | .ping => c.send .pong
    | .usageRequest _ => c

/-- A send callback has come back, with or without an error. -/
def onSent (ws : WsId) : Client :=
  if (c.sockets ws).disconnecting ∧ c.ws = some ws then c.modifySocket ws ClientSocket.terminate
  else c

/-- The transport is found dead. -/
def onSocketFailure (ws : WsId) : Client := c.modifySocket ws ClientSocket.terminate

def onClose (ws : WsId) (code : ℕ) : Client :=
  let c := c.modifySocket ws fun s => { s with readyState := .closed }
  if c.ws ≠ some ws then c
  else
    let c := { c with ws := none, approvalsReady := false }
    -- Runs whose frames are not retained cannot go on.
    let c := c.suppressAll (c.inflight.values.filter fun r =>
      ¬ ((c.runs r).executionId.isSome ∧ pendingRetentionEnabled opts))
    if code = 4014 ∨ code = 4005 then
      let c := { c with stopped := true }
      let c := (c.suppressAll c.inflight.values).dropPendingFrames
      { c with fatal := true }
    else c

end Client

end VicoopBridge
