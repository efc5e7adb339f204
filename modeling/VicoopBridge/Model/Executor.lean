import VicoopBridge.Model.Registry
import VicoopBridge.Model.TaskStore

/-! # The executor

One run of `executeStream`, cut at the points where it waits: for the payment gate, the
task store, its event queue, or the consumer of the stream. What it waits for comes with
the step that continues it. Log lines and timestamps are left out. -/

namespace VicoopBridge

open Library

/-! ## The request on the wire -/

/-- A part without a `kind` is told apart by the fields it has. -/
def partToWire (value : JsonObject) : Except String JsonObject :=
  if value.string? "kind" ∈ [some "text", some "file", some "data"] then .ok value
  else
    match value.string? "text", value.field "data" with
    | some text, _ => .ok [("kind", .str "text"), ("text", .str text)]
    | none, some (.obj data) => .ok [("kind", .str "data"), ("data", .obj data)]
    | none, some _ => .error "A2A DataPart.data must be an object"
    | none, none =>
        let raw := value.string? "raw"
        let url := value.string? "url"
        if raw.isSome ∨ url.isSome then
          .ok [("kind", .str "file"), ("file", .obj
            (stringField "name" (value.string? "filename") ++
              stringField "mimeType" (value.string? "mediaType") ++ stringField "bytes" raw ++
                stringField "uri" url))]
        else .error "Unsupported A2A message part"

def partsToWire (parts : List JsonObject) : Except String (List JsonObject) :=
  parts.mapM partToWire

/-- What of the metadata may leave the server. -/
def stripInternalMetadata (metadata : Option JsonObject) : Option JsonObject :=
  metadata.bind fun m => JsonObject.nonEmpty (m.filterMap fun (key, value) =>
    if key.startsWith "_" then none
    else if key ∈ ["caller", "callerContext", "caller_context", "executionScope",
        "execution_scope"] then none
    else
      match key, value with
      | "mentionable", .obj fields =>
          (JsonObject.without fields ["identity_evidence", "verifiable_credentials"]).nonEmpty.map
            fun kept => (key, .obj kept)
      | _, _ => some (key, value))

/-! ## Histories and artifacts -/

def appendHistoryMessage (history : List Message) (message : Option Message) : List Message :=
  match message with
  | none => history
  | some m => if history.any (·.messageId = m.messageId) then history else history ++ [m]

def mergeArtifactParts (existing chunk : List JsonObject) : List JsonObject :=
  match existing, chunk with
  | [current], [next] =>
      match current.string? "text", next.string? "text" with
      | some text, some more => [current.set "text" (.str (text ++ more))]
      | _, _ => [current, next]
  | _, _ => existing ++ chunk

/-- A chunk that appends extends the first artifact of its id, if there is one. -/
def appendArtifactChunk (accumulated : List Artifact) (event : TaskArtifactUpdateEvent) :
    List Artifact :=
  let extend : List Artifact → Option (List Artifact) := fun as =>
    match as.findIdx? (·.artifactId = event.artifact.artifactId) with
    | none => none
    | some i => some (as.modify i fun a =>
        { a with
          parts := mergeArtifactParts a.parts event.artifact.parts
          name := event.artifact.name.or a.name
          metadata := event.artifact.metadata.or a.metadata
          extensions := event.artifact.extensions.or a.extensions })
  if event.append ≠ some true then accumulated ++ [event.artifact]
  else (extend accumulated).getD (accumulated ++ [event.artifact])

/-- The artifacts of earlier turns, overridden by this turn's of the same id. -/
def taskArtifacts (prior current : List Artifact) : List Artifact :=
  let merged := (prior ++ current).foldl
    (fun (m : InsertionMap String Artifact) a => m.set a.artifactId a) .empty
  merged.values

/-! ## Payment -/

/-- What the caller still owes: nothing more, or a charge that follows the work. -/
inductive X402Settlement where
  | settled (metadata : JsonObject)
  | deferred (obligation : Json)
  deriving DecidableEq

inductive X402GateOutcome where
  | proceed (settlement : Option X402Settlement)
  | halt (event : TaskStatusUpdateEvent)

inductive X402SettleResult where
  | settled (metadata : JsonObject)
  | failed (reason : String) (metadata : JsonObject)

/-- A call of the gate that discharges the payment. -/
inductive GateCall where
  | settle (event : TaskStatusUpdateEvent)
  | clear
  deriving DecidableEq

/-- An outcome of the payment rail as the event that ends the stream. -/
def x402StatusEvent (taskId contextId : String) (state : TaskState) (text : String)
    (metadata : JsonObject) : TaskStatusUpdateEvent where
  taskId := taskId
  contextId := contextId
  final := true
  status :=
    { state := state
      message := some
        { messageId := taskId ++ "-x402-" ++ state.text, role := .agent, parts := [textPart text]
          metadata := some metadata, taskId := some taskId, contextId := some contextId } }

def deliveryRefusedEvent (taskId contextId : String) (metadata : JsonObject) :
    TaskStatusUpdateEvent :=
  x402StatusEvent taskId contextId .failed
    "Payment authorization is no longer available for delivery." metadata

/-- `{...a, ...b}` -/
def JsonObject.merge (a b : JsonObject) : JsonObject := b.foldl (fun o f => o.set f.1 f.2) a

def withReceipt (event : TaskStatusUpdateEvent) (metadata : JsonObject) (taskId contextId : String) :
    TaskStatusUpdateEvent :=
  let message := event.status.message.getD
    { messageId := taskId ++ "-x402-receipt", role := .agent, parts := []
      taskId := some taskId, contextId := some contextId }
  { event with status := { event.status with
      message := some { message with
        metadata := some (JsonObject.merge (message.metadata.getD []) metadata) } } }

/-- The terminal to show, if the gate did not throw, and the calls made on the gate. `result`
is the gate's answer to `settle`, when that is called. -/
def settleTerminal (settlement : X402Settlement) (event : TaskStatusUpdateEvent)
    (taskId contextId : String) (result : Except Unit X402SettleResult) :
    Except Unit TaskStatusUpdateEvent × List GateCall :=
  match settlement with
  | .settled metadata => (.ok (withReceipt event metadata taskId contextId), [.clear])
  | .deferred _ =>
      if event.status.state ≠ .completed then (.ok event, [.clear])
      else
        match result with
        | .error e => (.error e, [.settle event])
        | .ok (.failed reason metadata) =>
            (.ok (x402StatusEvent taskId contextId .failed reason metadata), [.settle event, .clear])
        | .ok (.settled metadata) =>
            (.ok (withReceipt event metadata taskId contextId), [.settle event, .clear])

/-! ## Cancellation -/

/-- What `cancelCurrent` decides on: the stored task when there is one. -/
def cancelTarget (task : Task) (latest : Option Task) : Except String Task :=
  let task := latest.getD task
  if task.status.state.isTerminal then .error "Task cannot be canceled" else .ok task

def canceledEvent (taskId contextId : String) : TaskStatusUpdateEvent where
  taskId := taskId
  contextId := contextId
  final := true
  status := { state := .canceled }

def cancelUpdate : TaskUpdate := { status := some { state := .canceled } }

/-- The part of `cancelCurrent` between its read and its write, up to the abort. -/
def Registry.cancelCurrent (r : Registry) (agentId taskId contextId : String) :
    Except String Registry :=
  match r.getBinding taskId with
  | none => .ok (r.sendToAgent agentId (.taskCancel taskId none)).2
  | some b =>
      if b.agentId ≠ agentId then .error "Task cannot be canceled"
      else
        let r := (r.sendToAgent agentId (.taskCancel taskId b.executionId)).2
        .ok ((r.pushStatus b (canceledEvent taskId contextId)).finish b)

/-! ## A run -/

/-- A request as it reaches the executor. `caller`, `executionScope` and `scopeRefused` are
what the caller-context rules make of its identity. -/
structure ExecuteRequest where
  agentId : String
  taskId : String
  contextId : String
  message : Message
  caller : Option JsonObject := none
  executionScope : Option JsonObject := none
  scopeRefused : Bool := false

structure Rejection where
  code : String
  message : String
  suffix : String
  deriving DecidableEq

def ownerMismatch : Rejection where
  code := "task_owner_mismatch"
  message := "task ownership validation failed"
  suffix := "owner-mismatch"

def persistFailed : Rejection where
  code := "task_persist_failed"
  message := "task dispatch could not be recorded"
  suffix := "persist-failed"

inductive DispatchOutcome where
  | sent
  | unsent
  | rejected (rejection : Rejection)
  | interrupted (stored : Task)
  deriving DecidableEq

inductive ExitKind where
  | rejected
  | unreachable
  | interrupted (stored : Task)
  deriving DecidableEq

inductive Finish where
  | returned
  | threw
  | closed
  deriving DecidableEq

inductive Phase where
  | idle
  | scopePersisting (event : TaskStatusUpdateEvent)
  | scopeYielded
  | opening
  | haltYielded
  | haltPersisting
  | reading
  | marking
  /-- The dispatch is over; the run has not yet been resumed with its outcome. -/
  | resuming (outcome : DispatchOutcome)
  | exitSettling (kind : ExitKind) (event : TaskStatusUpdateEvent)
  | exitYielded (kind : ExitKind)
  | exitPersisting
  /-- Waiting on the queue's promise. -/
  | parked
  | delivered (event : StreamEvent)
  | authorizing (event : StreamEvent)
  | saving (event : TaskStatusUpdateEvent)
  /-- `replaced` when the event is the refusal of that one. -/
  | settling (event : TaskStatusUpdateEvent) (replaced : Option StreamEvent)
  | yielded
  | lastYielded
  /-- The loop has ended without a terminal event. -/
  | drained
  | persisting
  | finished (how : Finish)
  deriving DecidableEq

/-- An event on the output stream, with the queue's event it stands for: relayed, replaced by
the refusal of its delivery, or none when the run never reached its loop. -/
inductive Yield where
  | relayed (event output : StreamEvent)
  | refused (event output : StreamEvent)
  | direct (output : StreamEvent)

abbrev ControllerId := ℕ

/-- A run with the registry and the executor's controllers around it. `consumed`, `yields`,
`settled` and `gateCalls` only record. -/
structure RunState where
  registry : Registry
  abortControllers : InsertionMap String ControllerId := .empty
  request : ExecuteRequest
  /-- The objects of this run: its binding, its controller, and the id it draws. -/
  bindingRef : ℕ
  controller : ControllerId
  freshExecutionId : String
  freshMessageId : String
  gate : Bool := false
  inactivityTimeout : Bool := true
  phase : Phase := .idle
  task : Task
  executionId : Option String := none
  history : List Message := []
  priorArtifacts : List Artifact := []
  accumulatedArtifacts : List Artifact := []
  settlement : Option X402Settlement := none
  deliveryAuthorized : Bool := false
  aborted : Bool := false
  watchdog : Bool := false
  sent : Bool := false
  displaced : Option TaskBinding := none
  consumed : List StreamEvent := []
  yields : List Yield := []
  settled : List TaskStatusUpdateEvent := []
  gateCalls : List GateCall := []

namespace RunState

variable (x : RunState)

private def metadataString (key : String) : Option String :=
  x.request.message.metadata.bind (JsonObject.string? · key)

def binding : TaskBinding where
  ref := x.bindingRef
  agentId := x.request.agentId
  taskId := x.request.taskId
  executionId := x.executionId
  contextId := x.request.contextId
  principalId := x.metadataString "_principalId"
  actorId := x.metadataString "_actorId"
  authorizationProfile := x.metadataString "_authorizationProfile"
  authorizationKey := x.metadataString "_authorizationKey"
  requestedExtensions := x.request.message.extensions

/-- The request's message once the presented credential has been taken out. -/
def message : Message :=
  { x.request.message with
    metadata := x.request.message.metadata.map (·.without [identityVcPresentedMetadataKey]) }

def capabilities : Option (List String) :=
  (x.registry.getAgent x.request.agentId).bind (·.protocolCapabilities)

def queue : SinkQueue := (x.registry.cells x.binding).queue

def setQueue (q : SinkQueue) : RunState :=
  { x with registry := x.registry.modifyCell x.binding fun c => { c with queue := q } }

def failure (messageId text : String) (error : FrameError) : TaskStatusUpdateEvent :=
  failedEvent x.request.taskId x.request.contextId (x.request.taskId ++ messageId) text error
    x.request.message.extensions

def emit (y : Yield) : RunState := { x with yields := x.yields ++ [y] }

/-! ## Exits before the loop -/

/-- `abortControllers.delete`, guarded by the identity of the stored controller. -/
def deleteController : RunState :=
  if x.abortControllers.get? x.request.taskId = some x.controller then
    { x with abortControllers := x.abortControllers.erase x.request.taskId }
  else x

def unbind : RunState :=
  { x with registry := x.registry.unbindTask x.request.taskId x.binding }

/-- The terminal of a run that never reached its loop. -/
def exitYield (kind : ExitKind) (terminal : TaskStatusUpdateEvent) : RunState :=
  let x := { x.emit (.direct (.status terminal)) with phase := .exitYielded kind }
  match kind with
  | .rejected =>
      { x with task := { x.task with
          status := terminal.status
          history := some (appendHistoryMessage
            (appendHistoryMessage (x.task.history.getD []) (some x.message))
            terminal.status.message) } }
  | .unreachable =>
      let history := appendHistoryMessage x.history terminal.status.message
      ({ x with
        history := history
        task := { x.task with status := terminal.status, history := some history }
        }).unbind.deleteController
  | .interrupted stored =>
      { x with task := { x.task with
          status := terminal.status, history := stored.history, artifacts := stored.artifacts
          metadata := stored.metadata } }

def exitWith (kind : ExitKind) (event : TaskStatusUpdateEvent) : RunState :=
  if x.settlement.isSome then
    { x with settled := x.settled ++ [event], phase := .exitSettling kind event }
  else x.exitYield kind event

/-! ## Dispatch -/

/-- The synchronous part: bind, then send the assignment. The parts are encoded only when the
binding is in place. -/
def dispatch : RunState :=
  match x.registry.bindTask x.binding with
  | (false, registry) => { x with registry := registry, phase := .resuming (.rejected ownerMismatch) }
  | (true, registry) =>
      let x := { x with
        registry := registry
        displaced := (x.registry.getBinding x.request.taskId).filter (· ≠ x.binding)
        abortControllers := x.abortControllers.set x.request.taskId x.controller
        task := { x.task with
          metadata := withExecutionMarker x.task.metadata x.executionId
          artifacts := if x.executionId.isSome then none else x.task.artifacts
          history := some x.history } }
      match partsToWire x.request.message.parts with
      | .error _ => { x with phase := .resuming (.rejected persistFailed) }
      | .ok parts =>
          let assign : DownFrame := .taskAssign x.request.taskId x.executionId x.request.contextId
            { role := x.request.message.role, parts := parts
              messageId := x.request.message.messageId
              metadata := stripInternalMetadata x.message.metadata
              extensions := x.request.message.extensions }
            x.request.message.extensions x.request.caller x.request.executionScope
          let (sent, registry) := x.registry.sendToAgent x.request.agentId assign
          { x with registry := registry, sent := sent
                   phase := .resuming (if sent then .sent else .unsent) }

/-- From the cleared payment to the dispatch: the binding and its queue are created. -/
def prepare : RunState :=
  let executionId :=
    if advertises x.capabilities taskReplayCapability then some x.freshExecutionId else none
  let x := { x with
    executionId := executionId
    priorArtifacts := if executionId.isSome then [] else x.task.artifacts.getD []
    history := appendHistoryMessage (x.task.history.getD []) (some x.message)
    phase := .reading }
  { x with registry := x.registry.modifyCell x.binding fun _ =>
      { nextClientSeq := executionId.map fun _ => 0 } }

def onRead (result : Except Unit (Option Task)) : RunState :=
  match result with
  | .error _ => { x with phase := .resuming (.rejected persistFailed) }
  | .ok current =>
      match current.filter (·.status.state.isTerminal) with
      | some stored => { x with phase := .resuming (.interrupted stored) }
      | none =>
          if (x.registry.getBinding x.request.taskId).any (·.agentId ≠ x.request.agentId) then
            { x with phase := .resuming (.rejected ownerMismatch) }
          else { x with phase := .marking }

def onMarked (ok : Bool) : RunState :=
  if ok then x.dispatch else { x with phase := .resuming (.rejected persistFailed) }

/-! ## The loop -/

/-- The event goes out with the execution it came from. -/
def withOrigin (event : TaskStatusUpdateEvent) : TaskStatusUpdateEvent :=
  match x.executionId with
  | none => event
  | some executionId =>
      { event with metadata := some (JsonObject.set (event.metadata.getD []) executionMarkerKey
          (.obj [("executionId", .str executionId)])) }

def armWatchdog : RunState := { x with watchdog := x.inactivityTimeout }

/-- The `finally` of the loop. -/
def cleanup (how : Finish) : RunState :=
  ({ x with watchdog := false, phase := .finished how }).unbind.deleteController

/-- What the queue's iterator gave. -/
def onIterate (result : IterateResult StreamEvent String) : RunState :=
  match result with
  | .yielded event => { x with consumed := x.consumed ++ [event], phase := .delivered event }
  | .parked => { x with phase := .parked }
  | .returned => { x with phase := .drained }
  | .thrown _ => x.cleanup .threw

/-- Ask the queue for its next event. -/
def pull : RunState :=
  let (result, q) := x.queue.next x.aborted
  (x.setQueue q).onIterate result

def hasOutput : StreamEvent → Bool
  | .artifact _ => true
  | .status event => event.status.message.any fun m => m.parts ≠ []

def yieldTerminal (event : TaskStatusUpdateEvent) (replaced : Option StreamEvent)
    (terminal : TaskStatusUpdateEvent) : RunState :=
  let history := appendHistoryMessage x.history terminal.status.message
  let output : StreamEvent := .status (x.withOrigin terminal)
  let y : Yield :=
    match replaced with
    | some source => .refused source output
    | none => .relayed (.status event) output
  { x.emit y with
    history := history
    task := { x.task with
      status := terminal.status
      history := some history
      artifacts := if x.accumulatedArtifacts = [] then x.task.artifacts
        else some (taskArtifacts x.priorArtifacts x.accumulatedArtifacts) }
    phase := .lastYielded }

/-- After the loop: a run that was aborted before its terminal counts as canceled. -/
def finishLoop : RunState :=
  let x := { x with watchdog := false, phase := .persisting }
  if ¬ x.task.status.state.isTerminal ∧ x.aborted then
    { x with task := { x.task with status := { state := .canceled } } }
  else x

/-- What is stored of the task at the end. -/
def finalUpdate : TaskUpdate where
  status := some x.task.status
  history := x.task.history
  artifacts := if x.accumulatedArtifacts = [] then none else x.task.artifacts

def yieldStatus (event : TaskStatusUpdateEvent) : RunState :=
  { x.emit (.relayed (.status event) (.status (x.withOrigin event))) with phase := .yielded }

/-- Settle the terminal if a payment was taken, else let it go out. -/
def conclude (event : TaskStatusUpdateEvent) (replaced : Option StreamEvent) : RunState :=
  if x.settlement.isSome then
    { x with settled := x.settled ++ [event], phase := .settling event replaced }
  else x.yieldTerminal event replaced event

def relay (event : StreamEvent) : RunState :=
  match event with
  | .artifact chunk =>
      let accumulated := appendArtifactChunk x.accumulatedArtifacts chunk
      { x.emit (.relayed event event) with
        accumulatedArtifacts := accumulated
        task := { x.task with artifacts := some (taskArtifacts x.priorArtifacts accumulated) }
        phase := .yielded }
  | .status status =>
      if status.status.state.isTerminal then x.conclude status none
      else
        let wasAuthRequired := x.task.status.state = .authRequired
        let history := appendHistoryMessage x.history status.status.message
        let x := { x with
          history := history
          task := { x.task with history := some history, status := status.status } }
        -- A suspension and its end are stored while the stream stays open.
        if wasAuthRequired ↔ status.status.state = .authRequired then x.yieldStatus status
        else { x with phase := .saving status }

def process (event : StreamEvent) : RunState :=
  let x := x.armWatchdog
  if x.settlement.isSome ∧ ¬ x.deliveryAuthorized ∧ hasOutput event then
    { x with phase := .authorizing event }
  else x.relay event

/-- `authorizeDelivery` throws, agrees, or refuses. -/
def onAuthorized (event : StreamEvent) (result : Except Unit (Option JsonObject)) : RunState :=
  match result with
  | .error _ => x.cleanup .threw
  | .ok none => { x with deliveryAuthorized := true }.relay event
  | .ok (some metadata) =>
      let cancel : DownFrame := .taskCancel x.request.taskId x.executionId
      { x with registry := (x.registry.sendToAgent x.request.agentId cancel).2 }.conclude
        (deliveryRefusedEvent x.request.taskId x.request.contextId metadata) (some event)

def settle (event : TaskStatusUpdateEvent) (result : Except Unit X402SettleResult) :
    Except Unit TaskStatusUpdateEvent × List GateCall :=
  match x.settlement with
  | some settlement =>
      settleTerminal settlement event x.request.taskId x.request.contextId result
  | none => (.ok event, [])

def onSettled (event : TaskStatusUpdateEvent) (replaced : Option StreamEvent)
    (result : Except Unit X402SettleResult) : RunState :=
  let (terminal, calls) := x.settle event result
  let x := { x with gateCalls := x.gateCalls ++ calls }
  match terminal with
  | .error _ => x.cleanup .threw
  | .ok terminal => x.yieldTerminal event replaced terminal

/-- The gate may throw here as well, and nothing cleans up behind it. -/
def onExitSettled (kind : ExitKind) (event : TaskStatusUpdateEvent)
    (result : Except Unit X402SettleResult) : RunState :=
  let (terminal, calls) := x.settle event result
  let x := { x with gateCalls := x.gateCalls ++ calls }
  match terminal with
  | .error _ => { x with phase := .finished .threw }
  | .ok terminal => x.exitYield kind terminal

/-! ## Admission -/

def scopeRefusal : TaskStatusUpdateEvent where
  taskId := x.request.taskId
  contextId := x.request.contextId
  final := true
  status :=
    { state := .failed
      message := some
        { messageId := x.freshMessageId, role := .agent
          parts := [textPart "container runtime requires a supported authenticated caller scope"]
          taskId := some x.request.taskId, contextId := some x.request.contextId } }

/-- Keep the outcome of a run that ends before its dispatch on the task. -/
def recordStatus (status : TaskStatus) : RunState :=
  { x with task := { x.task with
      status := status
      history := some (appendHistoryMessage
        (appendHistoryMessage (x.task.history.getD []) (some x.message)) status.message) } }

def start : RunState :=
  if advertises x.capabilities callerRuntimeV1Capability ∧ x.request.scopeRefused then
    { x.recordStatus x.scopeRefusal.status with phase := .scopePersisting x.scopeRefusal }
  else if x.gate then { x with phase := .opening }
  else x.prepare

def onOpened (outcome : Except Unit X402GateOutcome) : RunState :=
  match outcome with
  | .error _ => { x with phase := .finished .threw }
  | .ok (.halt event) =>
      { (x.recordStatus event.status).emit (.direct (.status event)) with phase := .haltYielded }
  | .ok (.proceed settlement) => { x with settlement := settlement }.prepare

/-- The run continues with what its dispatch came to. -/
def onDispatched (outcome : DispatchOutcome) : RunState :=
  match outcome with
  | .sent => x.armWatchdog.pull
  | .unsent =>
      x.exitWith .unreachable (x.failure "-unreach" "client not connected"
        ⟨"client_not_connected", "client not connected"⟩)
  | .rejected rejection =>
      (x.setQueue x.queue.end).exitWith .rejected (x.failure ("-" ++ rejection.suffix)
        rejection.message ⟨rejection.code, rejection.message⟩)
  | .interrupted stored =>
      (x.setQueue x.queue.end).exitWith (.interrupted stored)
        { taskId := x.request.taskId, contextId := x.request.contextId, final := true
          status := stored.status }

/-! ## Steps -/

def onPersisted (ok : Bool) : Option RunState :=
  match x.phase with
  | .scopePersisting event =>
      some { x.emit (.direct (.status event)) with phase := .scopeYielded }
  | .haltPersisting | .exitPersisting => some { x with phase := .finished .returned }
  | .saving event => some (if ok then x.yieldStatus event else x.cleanup .threw)
  | .persisting => some (x.cleanup .returned)
  | _ => none

/-- The consumer asks for the next event. -/
def onNext : Option RunState :=
  match x.phase with
  | .idle => some x.start
  | .scopeYielded => some { x with phase := .finished .returned }
  | .haltYielded => some { x with phase := .haltPersisting }
  | .exitYielded (.interrupted _) => some { x with phase := .finished .returned }
  | .exitYielded _ => some { x with phase := .exitPersisting }
  | .yielded => some x.pull
  | .lastYielded => some x.finishLoop
  | _ => none

/-- The consumer gives the stream up. -/
def onClose : Option RunState :=
  match x.phase with
  | .idle | .scopeYielded | .haltYielded | .exitYielded _ =>
      some { x with phase := .finished .closed }
  | .yielded | .lastYielded => some (x.cleanup .closed)
  | _ => none

/-- The run goes on where it was only waiting for its turn. -/
def onResume : Option RunState :=
  match x.phase with
  | .resuming outcome => some (x.onDispatched outcome)
  | .delivered event => some (x.process event)
  | .drained => some x.finishLoop
  | .parked => x.queue.resume.map fun (result, q) => (x.setQueue q).onIterate result
  | _ => none

def onWatchdog : Option RunState :=
  if ¬ x.watchdog then none
  else if (x.registry.approvals.waiting x.binding).isSome then some x.armWatchdog
  else
    let event := x.failure "-inactivity" "task timed out: no activity from the connected agent"
      ⟨"inactivity_timeout", "no activity from the connected agent"⟩
    some { x with
      watchdog := false
      registry := (x.registry.pushStatus x.binding event).finish x.binding }

/-- The synchronous part of a cancellation of this task, by this run's executor. -/
def onCancel (contextId : String) : Option RunState :=
  match x.registry.cancelCurrent x.request.agentId x.request.taskId contextId with
  | .error _ => none
  | .ok registry =>
      let x := { x with registry := registry }
      if x.abortControllers.get? x.request.taskId = some x.controller ∧ ¬ x.aborted then
        some { x.setQueue x.queue.onAbort with aborted := true }
      else some x

end RunState

end VicoopBridge
