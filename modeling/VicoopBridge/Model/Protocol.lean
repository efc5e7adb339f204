import VicoopBridge.Model.Json

/-! # The WebSocket protocol between server and client

Frames after schema validation: a value of these types is what `parseUpFrame` and
`parseDownFrame` let through, so every field already has its checked type. -/

namespace VicoopBridge

/-! ## Capabilities and extension names -/

def taskReplayCapability : String := "task-replay-v1"

def remoteApprovalCapability : String := "remote-tool-approval-v1"

def callerContextV1Capability : String := "caller-context-v1"

def callerContextV2Capability : String := "caller-context-v2"

def callerRuntimeV1Capability : String := "caller-runtime-v1"

def executionScopeV1Capability : String := "execution-scope-v1"

def federatedExecutionScopeV1Capability : String := "federated-execution-scope-v1"

def approvalExtensionUri : String :=
  "https://github.com/planetarium/vicoop-bridge/blob/main/docs/tool-approval-v1.md"

def traceabilityExtensionUri : String :=
  "https://github.com/a2aproject/a2a-samples/extensions/traceability/v1"

def openaiCompatExtensionUri : String :=
  "https://github.com/planetarium/oai2a2a/extensions/openai-compat/v1"

/-- `protocolCapabilities?.includes(capability) === true` -/
def advertises (capabilities : Option (List String)) (capability : String) : Bool :=
  match capabilities with
  | some cs => cs.contains capability
  | none => false

def supportsExecutionScopeV1 (capabilities : Option (List String)) : Bool :=
  [executionScopeV1Capability, callerContextV2Capability, taskReplayCapability].all
    (advertises capabilities)

/-! ## Message payloads -/

inductive Role where
  | user
  | agent
  deriving DecidableEq, Repr

/-- The states a client may report. The server's own `TaskState` has more. -/
inductive TaskStatusState where
  | submitted
  | working
  | inputRequired
  | authRequired
  | completed
  | canceled
  | failed
  deriving DecidableEq, Repr

inductive WirePart where
  | text (text : String)
  | file (name mimeType bytes uri : Option String)
  | data (data : JsonObject)
  deriving DecidableEq

structure WireMessage where
  role : Role
  parts : List WirePart
  messageId : String
  metadata : Option JsonObject := none
  extensions : Option (List String) := none
  deriving DecidableEq

structure WireTaskStatus where
  state : TaskStatusState
  message : Option WireMessage := none
  deriving DecidableEq

structure WireArtifact where
  artifactId : String
  name : Option String := none
  parts : List WirePart
  metadata : Option JsonObject := none
  extensions : Option (List String) := none
  deriving DecidableEq

/-- Token counts a backend reported for one task. -/
structure TaskUsage where
  promptTokens : ℕ
  completionTokens : ℕ
  cachedInputTokens : Option ℕ := none
  model : Option String := none
  deriving DecidableEq, Repr

structure FrameError where
  code : String
  message : String
  deriving DecidableEq, Repr

inductive ApprovalDecision where
  | allowOnce
  | deny
  deriving DecidableEq, Repr

def ApprovalDecision.text : ApprovalDecision → String
  | .allowOnce => "allow_once"
  | .deny => "deny"

/-- A validated date-time text with the instant `Date.parse` reads from it. -/
structure DateTime where
  text : String
  ms : ℤ
  deriving DecidableEq, Repr

/-- `jsonLength` is the length of the request's JSON text. -/
structure ApprovalRequest where
  requestId : String
  toolName : String
  input : JsonObject
  expiresAt : DateTime
  jsonLength : ℕ
  deriving DecidableEq

/-! ## Frames from the client -/

/-- What a task frame says, apart from the execution it belongs to. -/
inductive TaskFrameBody where
  | status (status : WireTaskStatus) (metadata : Option JsonObject)
  | artifact (artifact : WireArtifact) (append lastChunk : Option Bool)
  | complete (status : WireTaskStatus) (usage : Option TaskUsage)
  | fail (error : FrameError)
  | approvalRequest (request : ApprovalRequest)
  | approvalReceived (requestId : String) (decision : ApprovalDecision)
  deriving DecidableEq

structure TaskUpFrame where
  taskId : String
  executionId : Option String := none
  seq : Option ℕ := none
  body : TaskFrameBody
  deriving DecidableEq

structure HelloFrame where
  agentId : String
  version : String
  token : String
  protocolCapabilities : Option (List String) := none
  deriving DecidableEq, Repr

structure UsageResponseFrame where
  requestId : String
  ok : Bool
  usage : Option Json := none
  error : Option FrameError := none
  deriving DecidableEq

inductive UpFrame where
  | hello (frame : HelloFrame)
  | task (frame : TaskUpFrame)
  | pong
  | usageResponse (frame : UsageResponseFrame)
  deriving DecidableEq

def protocolVersion : String := "0.1"

/-! ## Frames to the client -/

/-- The message of a `task.assign`: the parts are the caller's, encoded for the wire. -/
structure AssignMessage where
  role : Role
  parts : List JsonObject
  messageId : String
  metadata : Option JsonObject := none
  extensions : Option (List String) := none
  deriving DecidableEq

inductive DownFrame where
  | helloAck (protocolCapabilities : List String) (disconnectGraceMs maxFrameBytes : ℕ)
  | approvalResolve (taskId executionId requestId : String) (decision : ApprovalDecision)
  | taskAck (taskId executionId : String) (acceptedSeq : ℕ)
  | taskAssign (taskId : String) (executionId : Option String) (contextId : String)
      (message : AssignMessage) (requestedExtensions : Option (List String))
      (caller executionScope : Option JsonObject)
  | taskCancel (taskId : String) (executionId : Option String)
  | ping
  | usageRequest (requestId : String)
  deriving DecidableEq

end VicoopBridge
