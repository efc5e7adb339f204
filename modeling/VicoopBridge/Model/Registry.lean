import Mathlib.Logic.Function.Basic
import VicoopBridge.Model.EventQueue
import VicoopBridge.Model.ToolApprovals

/-! # The registry of agents and live tasks

The registry's own maps, together with the objects it reaches: the mutable part of each
binding, the sockets it writes to and the grace timers it has armed. Log lines and the
change listeners are left out. -/

namespace VicoopBridge

open Library

/-! ## What the registry holds -/

abbrev WsId := ℕ

abbrev TimerId := ℕ

inductive ReadyState where
  | opened
  | closing
  | closed
  deriving DecidableEq, Repr

structure Socket where
  readyState : ReadyState := .opened
  sent : List DownFrame := []
  closeSent : Option (ℕ × String) := none
  deriving DecidableEq

namespace Socket

/-- A frame written after the close handshake began is dropped. -/
def send (s : Socket) (frame : DownFrame) : Socket :=
  if s.readyState = .opened then { s with sent := s.sent ++ [frame] } else s

/-- Only the first close decides the code. -/
def close (s : Socket) (code : ℕ) (reason : String) : Socket :=
  if s.readyState = .opened then { s with readyState := .closing, closeSent := some (code, reason) }
  else s

end Socket

structure ClientConnection where
  agentId : String
  clientId : String
  protocolCapabilities : Option (List String) := none
  x402Pricing : Option JsonObject := none
  ws : WsId
  deriving DecidableEq

abbrev SinkQueue := AsyncEventQueue StreamEvent String

/-- The fields of a binding that change while it lives. `queue` is what its sink feeds. -/
structure BindingCell where
  nextClientSeq : Option ℕ := none
  heartbeats : Option ℕ := none
  usage : Option TaskUsage := none
  queue : SinkQueue := {}
  deriving DecidableEq

structure TerminalError where
  code : String
  message : String
  messageIdSuffix : String
  deriving DecidableEq, Repr

def disconnectedError : TerminalError where
  code := "disconnected"
  message := "client disconnected mid-task"
  messageIdSuffix := "disc"

structure GraceHold where
  timer : TimerId
  binding : TaskBinding
  deriving DecidableEq, Repr

/-- An armed timer with what its callback has captured. -/
structure GraceTimer where
  id : TimerId
  deadline : ℕ
  binding : TaskBinding
  terminalError : TerminalError
  deriving DecidableEq, Repr

structure TerminalReceipt where
  agentId : String
  taskId : String
  acceptedSeq : ℕ
  expiresAt : ℕ
  deriving DecidableEq, Repr

structure Registry where
  disconnectGraceMs : ℕ
  agents : InsertionMap String ClientConnection := .empty
  bindings : InsertionMap String TaskBinding := .empty
  graceHolds : InsertionMap String GraceHold := .empty
  terminalReceipts : InsertionMap String TerminalReceipt := .empty
  serverClosed : WsId → Bool := fun _ => false
  approvals : ToolApprovals := .empty
  timers : List GraceTimer := []
  nextTimer : TimerId := 0
  cells : TaskBinding → BindingCell := fun _ => {}
  sockets : WsId → Socket := fun _ => {}

def isGraceableCloseCode : Option ℕ → Bool
  | none => true
  | some code => if code = 1000 then false else code < 4000 ∨ code > 4999

namespace Registry

/-! ## The objects behind the maps -/

def modifyCell (r : Registry) (binding : TaskBinding) (f : BindingCell → BindingCell) : Registry :=
  { r with cells := Function.update r.cells binding (f (r.cells binding)) }

def modifySocket (r : Registry) (ws : WsId) (f : Socket → Socket) : Registry :=
  { r with sockets := Function.update r.sockets ws (f (r.sockets ws)) }

def pushStatus (r : Registry) (binding : TaskBinding) (event : TaskStatusUpdateEvent) : Registry :=
  r.modifyCell binding fun c => { c with queue := c.queue.push (.status event) }

def pushArtifact (r : Registry) (binding : TaskBinding) (event : TaskArtifactUpdateEvent) :
    Registry :=
  r.modifyCell binding fun c => { c with queue := c.queue.push (.artifact event) }

def finish (r : Registry) (binding : TaskBinding) : Registry :=
  r.modifyCell binding fun c => { c with queue := c.queue.end }

def clearTimeout (r : Registry) (timer : TimerId) : Registry :=
  { r with timers := r.timers.filter fun t => t.id ≠ timer }

def getAgent (r : Registry) (agentId : String) : Option ClientConnection := r.agents.get? agentId

def getBinding (r : Registry) (taskId : String) : Option TaskBinding := r.bindings.get? taskId

/-! ## Terminal receipts -/

def pruneTerminalReceipts (r : Registry) (now : ℕ) : Registry :=
  { r with terminalReceipts := r.terminalReceipts.filter fun _ receipt => receipt.expiresAt > now }

def rememberTerminalReceipt (r : Registry) (now : ℕ) (binding : TaskBinding) (acceptedSeq : ℕ) :
    Registry :=
  match truthy binding.executionId with
  | none => r
  | some executionId =>
      let r := r.pruneTerminalReceipts now
      let receipts := r.terminalReceipts.set executionId
        { agentId := binding.agentId, taskId := binding.taskId, acceptedSeq := acceptedSeq
          expiresAt := now + max r.disconnectGraceMs 60000 }
      { r with terminalReceipts := receipts.trimOldest 10000 }

def getTerminalReceipt (r : Registry) (now : ℕ) (executionId agentId taskId : String) :
    Option ℕ × Registry :=
  let r := r.pruneTerminalReceipts now
  match r.terminalReceipts.get? executionId with
  | some receipt =>
      if receipt.agentId ≠ agentId ∨ receipt.taskId ≠ taskId then (none, r)
      else (some receipt.acceptedSeq, r)
  | none => (none, r)

/-! ## Ending a binding -/

/-- Drop a hold without failing anything. With a binding given, only that binding's hold. -/
def clearGraceHold (r : Registry) (taskId : String) (binding : Option TaskBinding) : Registry :=
  match r.graceHolds.get? taskId with
  | none => r
  | some hold =>
      if binding.isSome ∧ binding ≠ some hold.binding then r
      else { r.clearTimeout hold.timer with graceHolds := r.graceHolds.erase taskId }

/-- The final event a failed binding's sink receives. -/
def failureEvent (binding : TaskBinding) (error : TerminalError) : TaskStatusUpdateEvent :=
  failedEvent binding.taskId binding.contextId (binding.taskId ++ "-" ++ error.messageIdSuffix)
    error.message ⟨error.code, error.message⟩ binding.requestedExtensions

def failBinding (r : Registry) (binding : TaskBinding) (error : TerminalError) : Registry :=
  let r := { r with approvals := r.approvals.invalidate binding }
  (r.pushStatus binding (failureEvent binding error)).finish binding

/-- `bindings.delete`, guarded by the identity of the stored binding. -/
def deleteBinding (r : Registry) (binding : TaskBinding) : Registry :=
  if r.bindings.get? binding.taskId = some binding then
    { r with bindings := r.bindings.erase binding.taskId }
  else r

def failBoundTask (r : Registry) (error : TerminalError) (binding : TaskBinding) : Registry :=
  ((r.clearGraceHold binding.taskId (some binding)).failBinding binding error).deleteBinding binding

def failBindingsForAgent (r : Registry) (agentId : String) (error : TerminalError) : Registry :=
  (r.bindings.values.filter fun b => b.agentId = agentId).foldl (fun r b => r.failBoundTask error b) r

def failTaskBinding (r : Registry) (binding : TaskBinding) (code message : String) : Registry :=
  if r.bindings.get? binding.taskId ≠ some binding then r
  else
    let r := r.clearGraceHold binding.taskId (some binding)
    let r := r.failBinding binding ⟨code, message, code⟩
    { r with bindings := r.bindings.erase binding.taskId }

def unbindTask (r : Registry) (taskId : String) (binding : TaskBinding) : Registry :=
  let r := { r with approvals := r.approvals.invalidate binding }
  if r.bindings.get? taskId ≠ some binding then r
  else
    let r := r.clearGraceHold taskId (some binding)
    { r with bindings := r.bindings.erase taskId }

/-! ## Reconnect grace -/

/-- The loop body of `holdBindingsForAgent`: a binding already held keeps its timer. -/
def holdBinding (r : Registry) (now : ℕ) (terminalError : TerminalError) (binding : TaskBinding) :
    Registry :=
  if r.graceHolds.has binding.taskId then r
  else
    { r with
      timers := r.timers ++ [⟨r.nextTimer, now + r.disconnectGraceMs, binding, terminalError⟩]
      nextTimer := r.nextTimer + 1
      graceHolds := r.graceHolds.set binding.taskId ⟨r.nextTimer, binding⟩ }

def holdBindingsForAgent (r : Registry) (now : ℕ) (agentId : String)
    (terminalError : TerminalError) : Registry :=
  if r.disconnectGraceMs = 0 then r.failBindingsForAgent agentId terminalError
  else
    (r.bindings.values.filter fun b => b.agentId = agentId).foldl
      (fun r b => r.holdBinding now terminalError b) r

/-- The callback of a grace timer. The timer itself is no longer armed when it runs. -/
def expireGraceTimer (r : Registry) (timer : GraceTimer) : Registry :=
  let binding := timer.binding
  let r := r.clearTimeout timer.id
  let r := { r with graceHolds := r.graceHolds.erase binding.taskId }
  if r.bindings.get? binding.taskId ≠ some binding then r
  else
    let r := r.failBinding binding timer.terminalError
    { r with bindings := r.bindings.erase binding.taskId }

def resumeBinding (r : Registry) (taskId agentId : String) : Registry :=
  match r.graceHolds.get? taskId with
  | none => r
  | some hold =>
      if hold.binding.agentId ≠ agentId then r
      else if r.bindings.get? taskId ≠ some hold.binding then r
      else { r.clearTimeout hold.timer with graceHolds := r.graceHolds.erase taskId }

/-! ## Connections -/

def supersededError : TerminalError where
  code := "superseded"
  message := "superseded by a reconnect from the same client token"
  messageIdSuffix := "superseded"

/-- What happens to the tasks of a connection that the same client replaces. -/
def displaceConnection (r : Registry) (now : ℕ) (agentId : String) (existing : ClientConnection) :
    Registry :=
  let displacedWasCondemned := r.serverClosed existing.ws
  let r := r.modifySocket existing.ws
    (Socket.close · 4009 "another client with the same token connected")
  if displacedWasCondemned then r.failBindingsForAgent agentId disconnectedError
  else if advertises existing.protocolCapabilities taskReplayCapability then
    r.holdBindingsForAgent now agentId supersededError
  else r.failBindingsForAgent agentId supersededError

def registerAgent (r : Registry) (now : ℕ) (conn : ClientConnection) : Except String Registry :=
  match r.agents.get? conn.agentId with
  | some existing =>
      if existing.clientId = conn.clientId then
        let r := r.displaceConnection now conn.agentId existing
        .ok { r with agents := r.agents.set conn.agentId conn }
      else .error "agent already registered by different client"
  | none => .ok { r with agents := r.agents.set conn.agentId conn }

def noteServerClose (r : Registry) (ws : WsId) : Registry :=
  { r with serverClosed := Function.update r.serverClosed ws true }

/-- With the number of connections closed. -/
def disconnectClient (r : Registry) (clientId : String) : ℕ × Registry :=
  let conns := r.agents.values.filter fun conn => conn.clientId = clientId
  (conns.length, conns.foldl (fun r conn => (r.noteServerClose conn.ws).modifySocket conn.ws
    (Socket.close · 4014 "client deleted")) r)

def unregisterAgent (r : Registry) (now : ℕ) (agentId : String) (ws : WsId)
    (closeCode : Option ℕ) : Registry :=
  match r.agents.get? agentId with
  | none => r
  | some existing =>
      if existing.ws ≠ ws then r
      else
        let r := { r with agents := r.agents.erase agentId }
        if advertises existing.protocolCapabilities taskReplayCapability ∧
            isGraceableCloseCode closeCode ∧ ¬ r.serverClosed ws then
          r.holdBindingsForAgent now agentId disconnectedError
        else r.failBindingsForAgent agentId disconnectedError

/-- `false` when the agent is offline. -/
def sendToAgent (r : Registry) (agentId : String) (frame : DownFrame) : Bool × Registry :=
  match r.agents.get? agentId with
  | none => (false, r)
  | some conn => (true, r.modifySocket conn.ws (Socket.send · frame))

/-! ## Binding a task -/

def taskSupersededError : TerminalError where
  code := "task_superseded"
  message := "task superseded by a newer request for the same task id"
  messageIdSuffix := "superseded"

/-- A different live binding of the same task is failed first. A task of another agent
is never displaced. -/
def bindTask (r : Registry) (binding : TaskBinding) : Bool × Registry :=
  let bind (r : Registry) := { r with bindings := r.bindings.set binding.taskId binding }
  match r.bindings.get? binding.taskId with
  | none => (true, bind r)
  | some existing =>
      if existing.agentId ≠ binding.agentId then (false, r)
      else if existing = binding then (true, bind r)
      else
        let r := r.clearGraceHold binding.taskId (some existing)
        (true, bind (r.failBinding existing taskSupersededError))

/-! ## Approvals that reach into the registry -/

/-- The live binding that raised the approval, if its execution is still current. -/
def liveBinding (r : Registry) (a : ToolApproval) : Option TaskBinding :=
  match r.getBinding a.taskId with
  | some b => if b.agentId = a.agentId ∧ b.executionId = some a.executionId then some b else none
  | none => none

def setApproval (r : Registry) (a : ToolApproval) : Registry :=
  { r with approvals :=
      { r.approvals with entries := r.approvals.entries.set a.request.requestId a } }

def deliver (r : Registry) (a : ToolApproval) : Registry :=
  match r.liveBinding a, a.decision with
  | some _, some decision =>
      (r.sendToAgent a.agentId
        (.approvalResolve a.taskId a.executionId a.request.requestId decision)).2
  | _, _ => r

def decide (r : Registry) (now : ℕ) (id : String) (decision : ApprovalDecision)
    (principal : String) (via : ApprovalAuthority) : Option ToolApproval × Registry :=
  match r.approvals.entries.get? id with
  | none => (none, r)
  | some a =>
      if (r.liveBinding a).isNone ∨ a.request.expiresAt.ms ≤ now then (none, r)
      else if a.state ≠ .pending then
        if (a.state = .decided ∨ a.state = .received) ∧ a.decision = some decision ∧
            a.decidedBy = some principal ∧ a.decidedVia.getD .owner = via then (some a, r)
        else (none, r)
      else
        let a := { a with state := .decided, decision := some decision
                          decidedBy := some principal, decidedVia := some via }
        (some a, (r.setApproval a).deliver a)

/-- The callback `tick` arms every second for an open approval. A fired timer is taken
out first: clearing it again has no effect. -/
def approvalTick (r : Registry) (now : ℕ) (id : String) : Registry :=
  let r := { r with approvals := r.approvals.clear id }
  match r.approvals.entries.get? id with
  | none => r
  | some a =>
      if (r.liveBinding a).isNone then
        { r with approvals :=
            { r.approvals with entries := r.approvals.entries.erase id
                               origins := r.approvals.origins.erase id } }
      else if ¬ a.isOpen then r
      else if a.request.expiresAt.ms ≤ now then
        let a := { a with state := .expired, decision := some .deny }
        let r := (r.setApproval a).deliver a
        match r.getBinding a.taskId with
        | none => r
        | some b =>
            let r := (r.sendToAgent a.agentId (.taskCancel a.taskId (some a.executionId))).2
            r.failTaskBinding b "approval_expired" "Remote tool approval expired"
      else
        let r := if a.state = .decided then r.deliver a else r
        { r with approvals := r.approvals.armTick now id }

end Registry

end VicoopBridge
