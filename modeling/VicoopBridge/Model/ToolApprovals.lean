import VicoopBridge.Library.InsertionMap
import VicoopBridge.Model.Event

/-! # Task bindings and the approvals they raise

The part of `ToolApprovals` that only looks at its own maps. Delivery and expiry also
reach into the registry and are defined beside it. -/

namespace VicoopBridge

open Library

/-! ## Bindings -/

/-- The fields of a binding that never change. `ref` tells two objects apart whose other
fields agree, so `===` on bindings is equality here. -/
structure TaskBinding where
  ref : ℕ
  agentId : String
  taskId : String
  executionId : Option String := none
  contextId : String
  principalId : Option String := none
  actorId : Option String := none
  authorizationProfile : Option String := none
  authorizationKey : Option String := none
  requestedExtensions : Option (List String) := none
  deriving DecidableEq, Repr

/-- An absent and an empty string are both false in a condition. -/
def truthy (s : Option String) : Option String := s.filter (· ≠ "")

/-! ## Approvals -/

inductive ApprovalState where
  | pending
  | decided
  | received
  | expired
  | invalidated
  deriving DecidableEq, Repr

inductive ApprovalAuthority where
  | owner
  | requester
  deriving DecidableEq, Repr

structure ToolApproval where
  request : ApprovalRequest
  agentId : String
  taskId : String
  executionId : String
  state : ApprovalState
  decision : Option ApprovalDecision := none
  decidedBy : Option String := none
  decidedVia : Option ApprovalAuthority := none
  deriving DecidableEq

namespace ToolApproval

/-- Raised by the execution the binding stands for. -/
def raisedBy (a : ToolApproval) (binding : TaskBinding) : Bool :=
  some a.executionId = binding.executionId ∧ a.taskId = binding.taskId

/-- Not answered yet, as far as the task is concerned. -/
def isOpen (a : ToolApproval) : Bool := a.state = .pending ∨ a.state = .decided

end ToolApproval

structure ApprovalOrigin where
  principalId : Option String
  actorId : Option String
  authorizationProfile : Option String
  authorizationKey : Option String
  deriving DecidableEq, Repr

/-- `timers` holds, for each armed tick, the time it runs at. -/
structure ToolApprovals where
  entries : InsertionMap String ToolApproval
  timers : InsertionMap String ℕ
  origins : InsertionMap String ApprovalOrigin

namespace ToolApprovals

def empty : ToolApprovals := ⟨.empty, .empty, .empty⟩

def waiting (t : ToolApprovals) (binding : TaskBinding) : Option ToolApproval :=
  t.entries.values.find? fun a => a.raisedBy binding && a.isOpen

/-- `setTimeout(…, 1000)` under the request's id. -/
def armTick (t : ToolApprovals) (now : ℕ) (requestId : String) : ToolApprovals :=
  { t with timers := t.timers.set requestId (now + 1000) }

def clear (t : ToolApprovals) (requestId : String) : ToolApprovals :=
  { t with timers := t.timers.erase requestId }

def request (t : ToolApprovals) (now : ℕ) (binding : TaskBinding) (request : ApprovalRequest) :
    Except String (ToolApproval × ToolApprovals) :=
  match truthy binding.executionId with
  | none => .error "Approval requires execution replay"
  | some executionId =>
      if request.expiresAt.ms ≤ now ∨ request.expiresAt.ms > now + 11 * 60000 then
        .error "Invalid approval expiry"
      else if request.jsonLength > 70000 then
        .error "Approval request too large"
      else if t.entries.has request.requestId ∨ (t.waiting binding).isSome then
        .error "Duplicate approval request"
      else
        let a : ToolApproval :=
          { request := request, agentId := binding.agentId, taskId := binding.taskId
            executionId := executionId, state := .pending }
        let origin : ApprovalOrigin :=
          { principalId := binding.principalId, actorId := binding.actorId
            authorizationProfile := binding.authorizationProfile
            authorizationKey := binding.authorizationKey }
        let t : ToolApprovals :=
          { t with entries := t.entries.set request.requestId a
                   origins := t.origins.set request.requestId origin }
        .ok (a, t.armTick now request.requestId)

/-- The client reports what it acted on. It may deny by itself, but an allow counts only
when the server granted it. -/
def received (t : ToolApprovals) (binding : TaskBinding) (id : String)
    (decision : ApprovalDecision) : Option (ToolApproval × ToolApprovals) :=
  match t.entries.get? id with
  | none => none
  | some a =>
      if ¬ a.raisedBy binding ∨ a.agentId ≠ binding.agentId then none
      else if ¬ a.isOpen then none
      else if decision = .allowOnce ∧ (a.state ≠ .decided ∨ a.decision ≠ some decision) then none
      else
        let a := { a with state := .received, decision := some decision }
        some (a, { t with entries := t.entries.set id a, timers := t.timers.erase id })

/-- Whether `invalidate` drops what is kept under this request id. -/
def invalidated (t : ToolApprovals) (binding : TaskBinding) (id : String) : Bool :=
  match t.entries.get? id with
  | some a => a.raisedBy binding
  | none => false

/-- Every approval of the execution leaves the maps, with its timer and origin. -/
def invalidate (t : ToolApprovals) (binding : TaskBinding) : ToolApprovals where
  entries := t.entries.filter fun id _ => !t.invalidated binding id
  timers := t.timers.filter fun id _ => !t.invalidated binding id
  origins := t.origins.filter fun id _ => !t.invalidated binding id

end ToolApprovals

/-! ## The status a waiting task shows -/

private def isUnreserved (c : UInt8) : Bool :=
  (65 ≤ c ∧ c ≤ 90) ∨ (97 ≤ c ∧ c ≤ 122) ∨ (48 ≤ c ∧ c ≤ 57) ∨
    c ∈ [45, 95, 46, 33, 126, 42, 39, 40, 41]

private def percentByte (c : UInt8) : String :=
  let digits := String.ofList ((Nat.toDigits 16 c.toNat).map Char.toUpper)
  if c < 16 then "%0" ++ digits else "%" ++ digits

/-- Percent-encoding of the UTF-8 bytes outside `A-Z a-z 0-9 - _ . ! ~ * ' ( )`. -/
def encodeURIComponent (s : String) : String :=
  String.join (s.toUTF8.toList.map fun c =>
    if isUnreserved c then (Char.ofNat c.toNat).toString else percentByte c)

def approvalStatus (a : ToolApproval) : WireTaskStatus where
  state := .authRequired
  message := some
    { role := .agent
      messageId := a.request.requestId
      parts := [.text ("Owner approval required for " ++ a.request.toolName)]
      metadata := some [(approvalExtensionUri, .obj
        [("requestId", .str a.request.requestId), ("executionId", .str a.executionId),
         ("toolName", .str a.request.toolName), ("input", .obj a.request.input),
         ("expiresAt", .str a.request.expiresAt.text),
         ("decisions", .arr [.str "allow_once", .str "deny"]),
         ("decisionUrl", .str ("/admin-api/agents/" ++ encodeURIComponent a.agentId ++
            "/approvals/" ++ a.request.requestId)),
         ("requesterApprovalUrl", .str ("/agents/" ++ encodeURIComponent a.agentId ++
            "/approvals/" ++ a.request.requestId))])]
      extensions := some [approvalExtensionUri] }

end VicoopBridge
