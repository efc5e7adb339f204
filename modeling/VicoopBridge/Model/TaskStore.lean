import VicoopBridge.Model.Event

/-! # The task store

One row of the task table and the transactions on it, each under the row's lock. The
writer is the request whose transaction it is. Timestamps, log lines and the retention
sweep that follows a commit are left out. -/

namespace VicoopBridge

structure Task where
  id : String
  contextId : Option String := none
  status : TaskStatus
  artifacts : Option (List Artifact) := none
  history : Option (List Message) := none
  metadata : Option JsonObject := none
  deriving DecidableEq

/-! ## The dispatch marker -/

def executionMarkerKey : String := approvalExtensionUri

def executionMarker (metadata : Option JsonObject) : Option String :=
  match metadata.bind (JsonObject.field · executionMarkerKey) with
  | some (.obj entry) => JsonObject.string? entry "executionId"
  | _ => none

/-- Replace whatever the metadata carries under the marker key. -/
def withExecutionMarker (metadata : Option JsonObject) (executionId : Option String) :
    Option JsonObject :=
  let rest := (metadata.getD []).without [executionMarkerKey]
  match executionId with
  | some id => some (rest ++ [(executionMarkerKey, .obj [("executionId", .str id)])])
  | none => rest.nonEmpty

/-- What a request's writes are checked against. -/
structure ExecutionWriter where
  message : Bool := false
  marked : Bool := false
  dispatchId : Option String := none
  executionId : Option String := none
  artifacts : Option (List Artifact) := none
  deriving DecidableEq

def markMessageRequest (writer : Option ExecutionWriter) : Option ExecutionWriter :=
  writer.map fun w => { w with message := true }

/-! ## Parts of stored messages -/

/-- Spread a property in when there is a text for it. -/
def assignText (o : JsonObject) (key : String) : Option String → JsonObject
  | some text => o.set key (.str text)
  | none => o

/-- `partToA2X` on a part of any shape: a nested file becomes flat unless the part already
is a flat one. -/
def normalizePart (part : JsonObject) : JsonObject :=
  let sdkPart := part.has "text" || part.has "data" || part.has "raw" || part.has "url"
  match sdkPart, part.field "file" with
  | false, some (.obj file) =>
      let rest := part.without ["kind", "file"]
      let flat := assignText rest "raw" (JsonObject.string? file "bytes")
      let flat := assignText flat "url" (JsonObject.string? file "uri")
      let flat := assignText flat "filename" (JsonObject.string? file "name")
      assignText flat "mediaType" (JsonObject.string? file "mimeType")
  | _, _ => part.without ["kind"]

def normalizeMessage (m : Message) : Message := { m with parts := m.parts.map normalizePart }

def normalizeArtifact (a : Artifact) : Artifact := { a with parts := a.parts.map normalizePart }

def normalizeTaskParts (task : Task) : Task :=
  { task with
    status := { task.status with message := task.status.message.map normalizeMessage }
    history := task.history.map (·.map normalizeMessage)
    artifacts := task.artifacts.map (·.map normalizeArtifact) }

/-! ## What is kept out of the row -/

def identityVcPresentedMetadataKey : String := "_identityVcPresented"

/-- The keys that only hand values over inside the server. -/
def internalMetadataKeys : List String :=
  ["_bearerToken", "_principalId", "_actorId", "_authorizationProfile", "_authorizationKey",
    identityVcPresentedMetadataKey]

def stripMessageMetadata (m : Message) : Message :=
  { m with metadata := ((m.metadata.getD []).without internalMetadataKeys).nonEmpty }

def stripTaskMetadata (metadata : Option JsonObject) : Option JsonObject :=
  metadata.bind fun m => (m.without internalMetadataKeys).nonEmpty

/-- Drop the request envelope of the compatibility extension. -/
def stripPersistedEnvelope (task : Task) : Task :=
  let metadata := task.metadata.getD []
  match metadata.field openaiCompatExtensionUri with
  | some (.obj ext) =>
      if JsonObject.has ext "chat_completions_request" then
        let restExt := JsonObject.without ext ["chat_completions_request"]
        let next := if restExt ≠ [] then metadata.set openaiCompatExtensionUri (.obj restExt)
          else metadata.without [openaiCompatExtensionUri]
        { task with metadata := next.nonEmpty }
      else task
  | _ => task

def stripSensitiveMetadata (task : Task) (preserveEnvelope : Bool) : Task :=
  let base := if preserveEnvelope then task else stripPersistedEnvelope task
  { base with
    metadata := stripTaskMetadata base.metadata
    history := base.history.map (·.map stripMessageMetadata)
    status := { base.status with message := base.status.message.map stripMessageMetadata } }

/-! ## The row -/

structure TaskAuthorizationBinding where
  principalId : Option String := none
  actorId : Option String := none
  profileId : Option String := none
  authorizationKey : Option String := none
  deriving DecidableEq

structure TaskRow where
  contextId : String
  state : TaskState
  task : Task
  ownerPrincipal : Option String := none
  ownerAgent : Option String := none
  ownerActor : Option String := none
  authorizationProfile : Option String := none
  authorizationKey : Option String := none
  dispatchId : Option String := none
  deriving DecidableEq

structure TaskUpdate where
  status : Option TaskStatus := none
  artifacts : Option (List Artifact) := none
  history : Option (List Message) := none
  metadata : Option JsonObject := none
  deriving DecidableEq

/-- Why a write was not persisted. -/
inductive SkipReason where
  | canceled
  | notDispatched
  | superseded
  deriving DecidableEq, Repr

structure TaskUpdateResult where
  /-- What the caller is told. -/
  returned : Task
  row : Option TaskRow
  skipped : Option SkipReason := none
  deriving DecidableEq

def authorizationBindingFromMetadata (metadata : Option JsonObject) : TaskAuthorizationBinding :=
  let stringValue (key : String) := metadata.bind (JsonObject.string? · key)
  { principalId := stringValue "_principalId", actorId := stringValue "_actorId"
    profileId := stringValue "_authorizationProfile"
    authorizationKey := stringValue "_authorizationKey" }

/-- The first message of the history that carries the field, else the status message. -/
def extractAuthorizationField (task : Task) (key : String) : Option String :=
  let value (m : Message) := m.metadata.bind (JsonObject.string? · key)
  ((task.history.getD []).findSome? value).or (task.status.message.bind value)

def extractOwnerPrincipal (task : Task) : Option String :=
  extractAuthorizationField task "_principalId"

/-- The options of a store. -/
structure TaskStore where
  persistRequestEnvelope : Bool := false
  ownerAgent : Option String := none

namespace TaskStore

variable (store : TaskStore)

/-- A store of one agent finds only that agent's row. -/
def owns (row : TaskRow) : Bool := store.ownerAgent.isNone || row.ownerAgent = store.ownerAgent

/-- Insert the task or replace what the row holds of it. -/
def writeTask (row : Option TaskRow) (task : Task)
    (initialBinding : TaskAuthorizationBinding := {}) : Option TaskRow :=
  let written : TaskRow :=
    { contextId := task.contextId.getD task.id
      state := task.status.state
      task := stripSensitiveMetadata task store.persistRequestEnvelope
      ownerPrincipal := initialBinding.principalId.or (extractOwnerPrincipal task)
      ownerAgent := store.ownerAgent
      ownerActor := initialBinding.actorId.or (extractAuthorizationField task "_actorId")
      authorizationProfile :=
        initialBinding.profileId.or (extractAuthorizationField task "_authorizationProfile")
      authorizationKey :=
        initialBinding.authorizationKey.or (extractAuthorizationField task "_authorizationKey") }
  match row with
  | none => some written
  | some row =>
      if store.owns row then
        some { row with
          contextId := written.contextId
          state := written.state
          task := written.task
          ownerPrincipal := row.ownerPrincipal.or written.ownerPrincipal
          ownerActor := row.ownerActor.or written.ownerActor
          authorizationProfile := row.authorizationProfile.or written.authorizationProfile
          authorizationKey := row.authorizationKey.or written.authorizationKey }
      else some row

/-- `id` and `freshContext` are the random ids of this call. -/
def createTask (id freshContext : String) (contextId : Option String)
    (metadata : Option JsonObject) : Task × Option TaskRow :=
  let task : Task :=
    { id := id, contextId := some (contextId.getD freshContext), status := { state := .submitted }
      metadata := withExecutionMarker (stripTaskMetadata metadata) none }
  (task, store.writeTask none task (authorizationBindingFromMetadata metadata))

def getTask (row : Option TaskRow) : Option Task :=
  (row.filter store.owns).map fun row => normalizeTaskParts row.task

def lockTask (row : Option TaskRow) : Option (Task × Option String) :=
  (row.filter store.owns).map fun row => (normalizeTaskParts row.task, row.dispatchId)

/-- The rule that keeps a write from the row. -/
def skipReason (writer : ExecutionWriter) (dispatchId : Option String) : Option SkipReason :=
  if ¬ writer.message then none
  else if ¬ writer.marked then if dispatchId.isSome then some .notDispatched else none
  else if writer.dispatchId ≠ dispatchId then some .superseded
  else none

/-- A write merged over the stored task. A dispatch with artifacts of its own writes these. -/
def mergeUpdate (existing : Task) (writer : ExecutionWriter) (update : TaskUpdate) : Task :=
  let next : Task :=
    { existing with
      status := update.status.getD existing.status
      artifacts := update.artifacts.or existing.artifacts
      history := update.history.or existing.history
      metadata := update.metadata.or existing.metadata }
  match writer.marked, writer.artifacts with
  | true, some artifacts => { next with artifacts := if artifacts = [] then none else some artifacts }
  | _, _ => next

/-- A request without a writer is checked like one that is no message request. -/
def updateTask (row : Option TaskRow) (writer : Option ExecutionWriter) (taskId : String)
    (update : TaskUpdate) : Except String TaskUpdateResult :=
  let writer := writer.getD {}
  match store.lockTask row with
  | none => .error ("Task not found: " ++ taskId)
  | some (existing, dispatchId) =>
      if writer.message ∧ existing.status.state = .canceled ∧
          (¬ writer.marked ∨ writer.dispatchId = dispatchId) then
        .ok { returned := existing, row := row, skipped := some .canceled }
      else
        let next := mergeUpdate existing writer update
        match skipReason writer dispatchId with
        | some reason =>
            -- The caller sees its own outcome, under its own execution.
            let label := if writer.marked then writer.executionId else none
            .ok { returned := { next with metadata := withExecutionMarker next.metadata label }
                  row := row, skipped := some reason }
        | none =>
            let next := { next with
              metadata := withExecutionMarker next.metadata (executionMarker existing.metadata) }
            .ok { returned := next, row := store.writeTask row next }

/-- With the dispatch id the row now carries; `freshId` is the random id of this call. -/
def markExecution (row : Option TaskRow) (taskId freshId : String) (executionId : Option String) :
    Except String (String × Option TaskRow) :=
  let dispatchId := executionId.getD freshId
  match store.lockTask row with
  | none => .error ("Task not found: " ++ taskId)
  | some (locked, _) =>
      let written := store.writeTask row
        { locked with
          artifacts := if executionId = none then locked.artifacts else none
          status := { state := .working }
          metadata := withExecutionMarker locked.metadata executionId }
      .ok (dispatchId, written.map fun row => { row with dispatchId := some dispatchId })

end TaskStore

/-- The writer of the request that has marked an execution. -/
def ExecutionWriter.assignDispatch (writer : ExecutionWriter) (dispatchId : String)
    (executionId : Option String) (artifacts : List Artifact) : ExecutionWriter :=
  { writer with
    message := true, marked := true, dispatchId := some dispatchId, executionId := executionId
    artifacts := if executionId = none then none else some artifacts }

end VicoopBridge
