import VicoopBridge.Library.InsertionMap
import VicoopBridge.Library.Transition
import VicoopBridge.Model.ClaudeEvents
import VicoopBridge.Model.JsString
import VicoopBridge.Model.Protocol

/-! # Permissions of a Claude child

A child asks whether it may use a tool, the broker asks the server, and the answer goes back to the
child. The child may cancel its request, close, and be replaced by another one meanwhile. -/

namespace VicoopBridge.ClaudeApprovals

open Library

structure ApprovalOptions where
  remoteApprovals : Bool
  taskId : String
  /-- Approvals are enabled for the task. -/
  enabled : Bool
  executionId : Option String
  timeoutMs : ℕ := 10 * 60000

inductive ApprovalStage where
  /-- The broker waits for a decision until `expiresAt`. -/
  | asked (expiresAt : ℕ)
  /-- The promise has settled. -/
  | decided (decision : ApprovalDecision)
  | finished
  deriving DecidableEq

/-- `asker` is the child whose output it was, `target` the one that gets the response. -/
structure ControlRequest where
  requestId : String
  asker : ℕ
  target : ℕ
  lifetime : ℕ
  /-- The tool and its input, of a well-formed request. -/
  tool : Option (String × JsonObject)
  /-- The id the broker has given the request. -/
  approval : Option String := none
  aborted : Bool := false
  stage : ApprovalStage := .decided .deny
  deriving DecidableEq

inductive ControlResponse where
  | allow (updatedInput : JsonObject)
  | deny
  deriving DecidableEq

structure Write where
  child : ℕ
  requestId : String
  response : ControlResponse
  deriving DecidableEq

/-- What the broker emits. -/
inductive ApprovalFrame where
  | request (id toolName : String) (input : JsonObject) (expiresAt : ℕ)
  | received (id : String) (decision : ApprovalDecision)
  deriving DecidableEq

/-- Children and lifetimes are numbered. A lifetime is whether it was aborted. -/
structure ApprovalBridge where
  child : ℕ := 0
  closed : List ℕ := []
  lifetimes : List Bool := [false]
  approvalLifetime : ℕ := 0
  controlRequests : InsertionMap String ℕ := .empty
  requests : List ControlRequest := []
  aborted : Bool := false
  /-- `run` has ended. -/
  ended : Bool := false
  settled : Bool := false
  frames : List ApprovalFrame := []
  writes : List Write := []

namespace ApprovalBridge

variable (options : ApprovalOptions)

def modifyRequest (s : ApprovalBridge) (n : ℕ) (f : ControlRequest → ControlRequest) :
    ApprovalBridge :=
  { s with requests := s.requests.modify n f }

/-! ## The broker -/

/-- A decision that `emit` cannot acknowledge is a denial. -/
def finish (s : ApprovalBridge) (n : ℕ) (decision : ApprovalDecision) (throws : Bool) :
    ApprovalBridge :=
  match s.requests[n]? with
  | some ⟨_, _, _, _, _, some id, _, .asked _⟩ =>
      let s := { s with
        frames := if throws then s.frames else s.frames ++ [ApprovalFrame.received id decision] }
      s.modifyRequest n fun r =>
        { r with stage := .decided (if throws then .deny else decision) }
  | _ => s

/-- No request of the execution waits for its decision. -/
def idle (s : ApprovalBridge) : Bool :=
  s.requests.all fun r =>
    match r.stage with
    | .asked _ => false
    | _ => true

/-- `refused` stands for what else denies at once: a pending approval of the execution that another
task has raised, an input without JSON or of more than 64 KiB. -/
def requestApproval (s : ApprovalBridge) (n : ℕ) (toolName : String) (input : JsonObject)
    (now : ℕ) (id : String) (refused throws : Bool) : ApprovalBridge :=
  if !options.enabled || options.executionId.all (· = "") || s.aborted || s.ended then s
  else if !s.idle || refused then s
  else if toolName = "" || 256 < utf16Length toolName.toList then s
  else
    let expiresAt := now + options.timeoutMs
    let s := s.modifyRequest n fun r => { r with approval := some id, stage := .asked expiresAt }
    if throws then s.finish n .deny throws
    else { s with frames := s.frames ++ [ApprovalFrame.request id toolName input expiresAt] }

/-- `resolve` of the broker, for a frame from the server. -/
def resolve (s : ApprovalBridge) (taskId executionId id : String) (decision : ApprovalDecision)
    (now : ℕ) (throws : Bool) : ApprovalBridge :=
  if taskId = options.taskId ∧ some executionId = options.executionId then
    match s.requests.findIdx? (fun r => r.approval = some id) with
    | some n =>
        match s.requests[n]? with
        | some ⟨_, _, _, _, _, _, _, .asked expiresAt⟩ =>
            s.finish n (if now ≥ expiresAt then .deny else decision) throws
        | _ => s
    | none => s
  else s

/-- All approvals of the task are denied. -/
def denyAll (s : ApprovalBridge) (throws : Bool) : ApprovalBridge :=
  (List.range s.requests.length).foldl (fun s n => s.finish n .deny throws) s

/-! ## The child -/

def validRequest (request : Json) : Option (String × JsonObject) :=
  match request.stringAt "tool_name", request.property "input" with
  | some toolName, some (.obj input) =>
      if request.isAt "subtype" "can_use_tool" then some (toolName, input) else none
  | _, _ => none

/-- `requestLifetime.abort()` -/
def abortRequest (throws : Bool) (s : ApprovalBridge) (n : ℕ) : ApprovalBridge :=
  (s.modifyRequest n fun r => { r with aborted := true }).finish n .deny throws

def onControlRequest (s : ApprovalBridge) (asker : ℕ) (requestId : String) (request : Json)
    (now : ℕ) (id : String) (refused throws : Bool) : ApprovalBridge :=
  if s.settled || !options.remoteApprovals || s.controlRequests.has requestId then s
  else
    let n := s.requests.length
    let tool := validRequest request
    let s := { s with
      controlRequests := s.controlRequests.set requestId n
      requests := s.requests ++
        [{ requestId, asker, target := s.child, lifetime := s.approvalLifetime, tool }] }
    match tool with
    | some (toolName, input) =>
        if toolName = "AskUserQuestion" then s
        else s.requestApproval options n toolName input now id refused throws
    | none => s

def onControlCancelRequest (s : ApprovalBridge) (requestId : String) (throws : Bool) :
    ApprovalBridge :=
  if s.settled then s
  else
    match s.controlRequests.get? requestId with
    | some n => s.abortRequest throws n
    | none => s

/-- The requests that listen to the lifetime. -/
def abortListener (throws : Bool) (lifetime : ℕ) (s : ApprovalBridge) (n : ℕ) : ApprovalBridge :=
  if (s.requests[n]?).any fun r => r.lifetime = lifetime ∧ r.stage ≠ .finished then
    s.abortRequest throws n
  else s

def abortLifetime (s : ApprovalBridge) (lifetime : ℕ) (throws : Bool) : ApprovalBridge :=
  if s.lifetimes[lifetime]? = some true then s
  else
    (List.range s.requests.length).foldl (abortListener throws lifetime)
      { s with lifetimes := s.lifetimes.set lifetime true }

/-- The listener reads the variable, whatever child has closed. -/
def onClose (s : ApprovalBridge) (child : ℕ) (throws : Bool) : ApprovalBridge :=
  { s with closed := child :: s.closed }.abortLifetime s.approvalLifetime throws

/-- The child of a retry. -/
def restart (s : ApprovalBridge) : ApprovalBridge :=
  { s with
    child := s.child + 1
    approvalLifetime := s.lifetimes.length
    lifetimes := s.lifetimes ++ [false]
    controlRequests := .empty }

def response (decision : ApprovalDecision) (tool : Option (String × JsonObject)) :
    ControlResponse :=
  match decision with
  | .allowOnce => .allow ((tool.map Prod.snd).getD [])
  | .deny => .deny

/-- What follows on the decision. -/
def react (s : ApprovalBridge) (n : ℕ) : ApprovalBridge :=
  match s.requests[n]? with
  | some r =>
      match r.stage with
      | .decided decision =>
          let t := s.modifyRequest n fun r => { r with stage := .finished }
          if s.settled || s.aborted || (s.lifetimes[r.lifetime]?).getD false || r.aborted then t
          else { t with writes := t.writes ++ [⟨r.target, r.requestId, response decision r.tool⟩] }
      | _ => s
  | none => s

/-! ## Runs -/

inductive Action where
  | controlRequest (asker : ℕ) (requestId : String) (request : Json) (now : ℕ) (id : String)
      (refused throws : Bool)
  | controlCancelRequest (asker : ℕ) (requestId : String) (throws : Bool)
  | resolve (taskId executionId id : String) (decision : ApprovalDecision) (now : ℕ)
      (throws : Bool)
  /-- The timer of an approval. -/
  | expire (n : ℕ) (throws : Bool)
  | react (n : ℕ)
  | close (child : ℕ) (throws : Bool)
  | restart
  | abort (throws : Bool)
  | settle
  | endRun (throws : Bool)

/-- A child says nothing once it has closed, but for the line that `awaitChild` finds left. A retry
starts behind the close: an `error` comes from a child that did not start or could not be killed,
and neither is retried. Ids of approvals are random. -/
def enabled (s : ApprovalBridge) : Action → Prop
  | .controlRequest asker _ _ _ id _ _ =>
      (asker = s.child ∨ asker < s.child ∧ asker ∉ s.closed) ∧
        ∀ r ∈ s.requests, r.approval ≠ some id
  | .controlCancelRequest asker _ _ => asker = s.child ∨ asker < s.child ∧ asker ∉ s.closed
  | .close child _ => child ≤ s.child ∧ child ∉ s.closed
  | .restart => s.child ∈ s.closed ∧ s.aborted = false ∧ s.settled = false
  | _ => True

def apply (s : ApprovalBridge) : Action → ApprovalBridge
  | .controlRequest asker requestId request now id refused throws =>
      s.onControlRequest options asker requestId request now id refused throws
  | .controlCancelRequest _ requestId throws => s.onControlCancelRequest requestId throws
  | .resolve taskId executionId id decision now throws =>
      s.resolve options taskId executionId id decision now throws
  | .expire n throws => s.finish n .deny throws
  | .react n => s.react n
  | .close child throws => s.onClose child throws
  | .restart => s.restart
  | .abort throws => { s with aborted := true }.denyAll throws
  | .settle => { s with settled := true }
  | .endRun throws => { s with ended := true }.denyAll throws

def system : System ApprovalBridge Action := .ofApply (· = {}) enabled (apply options)

end ApprovalBridge

end VicoopBridge.ClaudeApprovals
