import VicoopBridge.Model.Protocol

/-! # Task events on the A2A side

The values the server puts on a task's event stream, with the translation from the
wire shapes. A part is kept as the JSON object it is. Timestamps are not modelled: no
function reads one. -/

namespace VicoopBridge

inductive TaskState where
  | submitted
  | working
  | inputRequired
  | authRequired
  | completed
  | canceled
  | failed
  | rejected
  deriving DecidableEq, Repr

namespace TaskState

def text : TaskState → String
  | submitted => "submitted"
  | working => "working"
  | inputRequired => "input-required"
  | authRequired => "auth-required"
  | completed => "completed"
  | canceled => "canceled"
  | failed => "failed"
  | rejected => "rejected"

/-- Membership in `TERMINAL_STATES`. -/
def isTerminal : TaskState → Bool
  | completed | canceled | failed | rejected => true
  | _ => false

end TaskState

structure Message where
  messageId : String
  role : Role
  parts : List JsonObject
  metadata : Option JsonObject := none
  extensions : Option (List String) := none
  taskId : Option String := none
  contextId : Option String := none
  deriving DecidableEq

structure TaskStatus where
  state : TaskState
  message : Option Message := none
  deriving DecidableEq

structure Artifact where
  artifactId : String
  name : Option String := none
  metadata : Option JsonObject := none
  extensions : Option (List String) := none
  parts : List JsonObject
  deriving DecidableEq

structure TaskStatusUpdateEvent where
  taskId : String
  contextId : String
  final : Bool
  status : TaskStatus
  metadata : Option JsonObject := none
  deriving DecidableEq

structure TaskArtifactUpdateEvent where
  taskId : String
  contextId : String
  artifact : Artifact
  append : Option Bool := none
  lastChunk : Option Bool := none
  deriving DecidableEq

inductive StreamEvent where
  | status (event : TaskStatusUpdateEvent)
  | artifact (event : TaskArtifactUpdateEvent)
  deriving DecidableEq

/-- A status event whose state ends the task. -/
def StreamEvent.isTerminal : StreamEvent → Bool
  | .status event => event.status.state.isTerminal
  | .artifact _ => false

/-! ## From the wire -/

def TaskStatusState.toA2X : TaskStatusState → TaskState
  | submitted => .submitted
  | working => .working
  | inputRequired => .inputRequired
  | authRequired => .authRequired
  | completed => .completed
  | canceled => .canceled
  | failed => .failed

def textPart (text : String) : JsonObject := [("text", .str text)]

/-- A property that is only there when it has a text. -/
def stringField (key : String) : Option String → JsonObject
  | some s => [(key, .str s)]
  | none => []

/-- The flat part the SDK expects for a nested wire part. -/
def partToA2X : WirePart → JsonObject
  | .text text => textPart text
  | .data data => [("data", .obj data)]
  | .file name mimeType bytes uri =>
      stringField "raw" bytes ++ stringField "url" uri ++ stringField "filename" name ++
        stringField "mediaType" mimeType

def wireMessageToA2X (m : Option WireMessage) (taskId contextId : String) : Option Message :=
  m.map fun m =>
    { messageId := m.messageId, role := m.role, parts := m.parts.map partToA2X
      metadata := m.metadata, extensions := m.extensions
      taskId := some taskId, contextId := some contextId }

def wireStatusToA2X (status : WireTaskStatus) (taskId contextId : String) : TaskStatus where
  state := status.state.toA2X
  message := wireMessageToA2X status.message taskId contextId

/-! ## Terminal errors -/

def terminalErrorMetadata (error : FrameError) : JsonObject :=
  let terminalError : Json := .obj [("code", .str error.code), ("message", .str error.message)]
  [(openaiCompatExtensionUri, .obj [("terminal_error", terminalError)]), ("error", terminalError)]

def hasOpenAICompatExtension (extensions : Option (List String)) : Bool :=
  advertises extensions openaiCompatExtensionUri

/-- The terminal error is spelled out only for a caller that asked for the extension. -/
def terminalErrorMessageFields (error : FrameError) (requestedExtensions : Option (List String)) :
    Option JsonObject × Option (List String) :=
  if hasOpenAICompatExtension requestedExtensions then
    (some (terminalErrorMetadata error), some [openaiCompatExtensionUri])
  else
    (none, none)

/-- The final `failed` event every failure path of the server emits: the message id and
the shown text differ by path, the machine-readable error comes from the same pair. -/
def failedEvent (taskId contextId messageId text : String) (error : FrameError)
    (requestedExtensions : Option (List String)) : TaskStatusUpdateEvent where
  taskId := taskId
  contextId := contextId
  final := true
  status :=
    { state := .failed
      message := some
        { messageId := messageId, role := .agent, parts := [textPart text]
          metadata := (terminalErrorMessageFields error requestedExtensions).1
          extensions := (terminalErrorMessageFields error requestedExtensions).2
          taskId := some taskId, contextId := some contextId } }

end VicoopBridge
