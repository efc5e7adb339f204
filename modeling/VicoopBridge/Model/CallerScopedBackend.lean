import VicoopBridge.Model.CallerExecutionScheduler
import VicoopBridge.Model.ExecutionScope

/-! # The caller-scoped backend

Every caller has a container of its own, and a task goes from one `await` of `execute` or
`executeConcurrent` to the next. What an `await` waits for comes with the event that ends it. An
`abort` covers the signal of the task, its timers, and a storage check that fails. -/

namespace VicoopBridge

open Library

/-! ## Options and tasks -/

inductive CallerKind where
  | claude
  | codex
  deriving DecidableEq, Repr

/-- `idleTimeout` says that `idleTimeoutMs` is set and not zero. -/
structure CallerBackendOptions where
  sha256 : String → String
  agentId : String
  kind : CallerKind
  maxScopes : ℕ
  maxContexts : ℕ
  queueLimit : ℕ
  idleTimeout : Bool
  concurrency : Option SchedulerLimits

structure CallerTask extends AssignedCaller where
  contextId : String
  message : WireMessage
  requestedExtensions : Option (List String) := none
  deriving DecidableEq

def inputImageMime : List String := ["image/png", "image/jpeg", "image/webp", "image/gif"]

def inputFileMaxBytes : ℕ := 5 * 1024 * 1024

def decodedBase64Size (b64 : String) : ℕ :=
  let length := utf16Length b64.toList
  if length = 0 then 0
  else
    let pad :=
      if ['=', '='].isSuffixOf b64.toList then 2 else if ['='].isSuffixOf b64.toList then 1 else 0
    length * 3 / 4 - pad

namespace WirePart

/-- A data part, or a file without bytes. -/
def unsupported : WirePart → Bool
  | .text _ => false
  | .file _ _ bytes _ => (bytes.filter (· ≠ "")).isNone
  | .data _ => true

def fileAllowed (kind : CallerKind) : WirePart → Bool
  | .file _ mimeType bytes _ =>
      let mime := mimeType.getD ""
      (inputImageMime.contains mime || (kind = .claude && mime = "application/pdf")) &&
        decodedBase64Size (bytes.getD "") ≤ inputFileMaxBytes
  | _ => true

end WirePart

namespace CallerTask

variable (task : CallerTask)

def requests (uri : String) : Bool :=
  (task.requestedExtensions.getD []).contains uri || (task.message.extensions.getD []).contains uri

/-- The id of the scope that the task may use. -/
def validate (b : CallerBackendOptions) : Option String := do
  let id ← validateCaller b.sha256 b.agentId task.toAssignedCaller
  if task.requests openaiCompatExtensionUri ||
      (task.message.metadata.getD []).has openaiCompatExtensionUri ||
      task.message.parts.any WirePart.unsupported then none
  if task.requests traceabilityExtensionUri then none
  if task.message.parts.all (WirePart.fileAllowed b.kind) then id else none

/-- Scope and context together, never a name that the caller controls. -/
def context (b : CallerBackendOptions) (id : String) : String :=
  b.sha256 (String.ofList (JsonString.array [id, task.contextId]))

end CallerTask

/-! ## Runs of `execute` -/

/-- The errors that the catch blocks tell apart. -/
inductive CallerRuntimeError where
  | storageLimit
  | environmentPending
  | storageHelperUnconfirmed
  | scopeCleanupUnconfirmed
  | orphanedResources
  | reservationUnconfirmed
  | allocationIncomplete
  | storageMissing
  | contextCapacity
  | queueFull
  | other
  deriving DecidableEq, Repr

structure CallerContainer where
  dockerId : Option String := none
  recovered : Bool := false
  restarted : Bool := false
  recreated : Bool := false
  deriving DecidableEq

/-- The variable `phase`. -/
inductive ExecutionPhase where
  | queue
  | allocation
  | backendInitialization
  | execution
  | cleanup
  deriving DecidableEq, Repr

def ExecutionPhase.text : ExecutionPhase → String
  | .queue => "queue"
  | .allocation => "allocation"
  | .backendInitialization => "backend-initialization"
  | .execution => "execution"
  | .cleanup => "cleanup"

/-- Where a run stands. `cleanUp` to `stop` are in the catch block; in `slot` the task has been
answered, and its slot is not released yet. -/
inductive ExecutionWait where
  | queue
  | container
  | staleWorker
  | factory
  | resumeRecord
  | work
  | settle
  | runningCheck
  | lastCheck
  | contextStop
  | failureRecord
  | cleanUp
  | cleanUpSettle
  | cleanUpCheck
  | stop
  | slot
  | done
  deriving DecidableEq, Repr

/-- What a run does to the world outside, in order. `failed` is the entry into the catch block;
`stopAsked` is a call of `pool.stop` or `pool.stopContext`, and `stopped` its success. -/
inductive Happening where
  | acquired
  | emit (frame : TaskFrameBody)
  | failed (error : CallerRuntimeError)
  | stopAsked
  | stopped
  deriving DecidableEq

/-- The variables of one call of `execute`. `ref` is its waiter in the scheduler, and `granted` says
that `release` is set. `handed` says that the worker has got the task. -/
structure CallerExecution where
  scope : String
  context : String
  ref : ℕ := 0
  wait : ExecutionWait := .queue
  phase : ExecutionPhase := .queue
  aborted : Bool := false
  timedOut : Bool := false
  granted : Bool := false
  acquired : Bool := false
  forwarding : Bool := true
  handed : Bool := false
  terminal : Option TaskFrameBody := none
  container : Option CallerContainer := none
  worker : Option ℕ := none
  resuming : Bool := false
  monitor : Bool := false
  storageCheck : Bool := false
  storageFailure : Bool := false
  storageCheckFailed : Bool := false
  error : CallerRuntimeError := .other
  trace : List Happening := []
  deriving DecidableEq

/-- A link of `tail`. -/
inductive TailLink where
  | execution (i : ℕ)
  | reclaim (k : ℕ)
  deriving DecidableEq, Repr

/-- `tail` are the links of the promise that have not settled, and `idleTimer` is the generation that
the timer was armed in. -/
structure ScopeEntry where
  users : ℤ := 0
  retained : Bool := false
  tail : List TailLink := []
  worker : Option ℕ := none
  dockerId : Option String := none
  contexts : List String := []
  recovered : Bool := false
  quarantined : Bool := false
  idleTimer : Option ℕ := none
  idleGeneration : ℕ := 0
  contextWorkers : InsertionMap String ℕ := .empty
  failedContexts : List String := []

/-- `Set.add` -/
def addTo (xs : List String) (x : String) : List String := if x ∈ xs then xs else xs ++ [x]

def ScopeEntry.cancelIdle (entry : ScopeEntry) : ScopeEntry :=
  { entry with idleTimer := none, idleGeneration := entry.idleGeneration + 1 }

def ScopeEntry.armIdle (b : CallerBackendOptions) (stopped : Bool) (entry : ScopeEntry) :
    ScopeEntry :=
  let entry := entry.cancelIdle
  if !b.idleTimeout || stopped || entry.users ≠ 0 || entry.quarantined || entry.worker.isNone then
    entry
  else { entry with idleTimer := some entry.idleGeneration }

/-! ## Frames -/

def workingFrame (metadata : Option JsonObject) : TaskFrameBody :=
  .status { state := .working } metadata

def runtimeFrame (fields : JsonObject) : TaskFrameBody :=
  workingFrame (some [("vicoop.runtime", .obj fields)])

namespace CallerExecution

variable (run : CallerExecution)

def isOver : Bool := run.wait = .slot || run.wait = .done

def log (happening : Happening) : CallerExecution :=
  { run with trace := run.trace ++ [happening] }

def emit (frame : TaskFrameBody) : CallerExecution := run.log (.emit frame)

def fail (code message : String) : CallerExecution := run.emit (.fail { code, message })

/-- The `finally` block up to the release of the slot. -/
def finish : CallerExecution := { run with forwarding := false, monitor := false, wait := .slot }

def acquire : CallerExecution := { run.log .acquired with acquired := true }

/-- A frame of the worker. -/
def onFrame (frame : TaskFrameBody) : CallerExecution :=
  if !run.forwarding || run.aborted then run
  else match frame with
    | .complete .. | .fail _ => { run with terminal := some frame }
    | _ => run.emit frame

def heartbeat (concurrent : Bool) : CallerExecution :=
  if run.aborted then run
  else if concurrent then run.emit (runtimeFrame [("phase", .str run.phase.text)])
  else run.emit (workingFrame none)

def storageChecked (error : Option CallerRuntimeError) : CallerExecution :=
  let run := { run with storageCheck := false }
  match error with
  | none => run
  | some error =>
      if run.aborted then run
      else { run with
        storageCheckFailed := true, storageFailure := error = .storageLimit, aborted := true }

end CallerExecution

/-- What a run and the entry of its scope become in a step of the run. -/
structure Turn where
  run : CallerExecution
  entry : ScopeEntry

namespace Turn

variable (t : Turn)

def goto (wait : ExecutionWait) : Turn := { t with run := { t.run with wait } }

def emit (frame : TaskFrameBody) : Turn := { t with run := t.run.emit frame }

def fail (code message : String) : Turn := { t with run := t.run.fail code message }

def log (happening : Happening) : Turn := { t with run := t.run.log happening }

def finish : Turn := { t with run := t.run.finish }

def enter (phase : ExecutionPhase) : Turn := { t with run := { t.run with phase } }

/-- `catch (error)`, up to the clean-up. -/
def throw (error : CallerRuntimeError) : Turn :=
  let t := t.log (.failed error)
  { t with run := { t.run with
      error, monitor := false, wait := if t.run.resuming then .failureRecord else .cleanUp } }

def quarantine : Turn := { t with entry := { t.entry with quarantined := true } }

/-- The last terminal of the worker is the answer. -/
def answer : Turn :=
  match t.run.terminal with
  | none => t.throw .other
  | some terminal => (t.emit terminal).finish

end Turn

/-! ## What ends an `await` -/

/-- `healthy` is the worker's answer once it has settled. `stale` is what stopping or closing the
old worker throws, and `bind` what `bindContainer` throws. -/
inductive ExecutionEvent where
  | leaveQueue
  | refused (error : CallerRuntimeError)
  | reserved
  | container (result : Except CallerRuntimeError CallerContainer)
      (stale bind : Option CallerRuntimeError)
  | staleSettled (error : Option CallerRuntimeError)
  | worker (result : Except CallerRuntimeError ℕ) (bind : Option CallerRuntimeError)
  | resumeRecorded (error : Option CallerRuntimeError)
  | handled (error : Option CallerRuntimeError)
  | canceled
  | settled (healthy : Except CallerRuntimeError Bool)
  | checkEnded
  | checked (error : Option CallerRuntimeError)
  | contextStopped (error : Option CallerRuntimeError)
  | failureRecorded (error : Option CallerRuntimeError)
  | cleanUp (stop close : Option CallerRuntimeError)
  | cleanUpSettled
  | cleanUpCheckEnded
  | stopped (error : Option CallerRuntimeError)

/-- Where a run stands when the event comes. -/
def ExecutionEvent.wait : ExecutionEvent → ExecutionWait
  | leaveQueue | refused _ => .queue
  | reserved | container .. => .container
  | staleSettled _ => .staleWorker
  | worker .. => .factory
  | resumeRecorded _ => .resumeRecord
  | handled _ | canceled => .work
  | settled _ => .settle
  | checkEnded => .runningCheck
  | checked _ => .lastCheck
  | contextStopped _ => .contextStop
  | failureRecorded _ => .failureRecord
  | cleanUp .. => .cleanUp
  | cleanUpSettled => .cleanUpSettle
  | cleanUpCheckEnded => .cleanUpCheck
  | stopped _ => .stop

namespace Turn

variable (t : Turn)

/-- The entry takes the context in and the worker gets the task. -/
def handOver : Turn where
  run := { t.run with phase := .execution, handed := true, wait := .work }
  entry := { t.entry with contexts := addTo t.entry.contexts t.run.context }

def handled (error : Option CallerRuntimeError) : Turn :=
  match error with
  | some error => t.throw error
  | none => { t with
      run := { t.run with forwarding := false, phase := .cleanup, wait := .settle } }

/-- The worker is asked to stop and to close, which is not guarded: what it throws leaves the
catch block. -/
def stopWorker (worker : Option ℕ) (stop close : Option CallerRuntimeError) : Turn :=
  if worker.isSome && (stop.isSome || close.isSome) then t.finish else t.goto .cleanUpSettle

def capacityFailure : Turn :=
  (t.fail "runtime_capacity" "Caller conversation capacity reached").finish

end Turn

/-! ## `execute` -/

namespace SerialExecution

variable (b : CallerBackendOptions) (t : Turn)

def leaveQueue (stopped : Bool) : Turn :=
  if stopped || t.entry.quarantined then t.throw .other
  else if t.run.context ∉ t.entry.contexts ∧ b.maxContexts ≤ t.entry.contexts.length then
    t.capacityFailure
  else
    { t with run := { t.run with
        phase := .allocation, wait := .container
        resuming := t.entry.recovered && t.entry.worker.isNone } }

/-- The caller is told of a conversation that starts afresh. -/
def hand : Turn :=
  let t :=
    if t.entry.recovered && t.run.context ∉ t.entry.contexts then
      t.emit (runtimeFrame [("workspaceRestored", .bool true), ("conversationReset", .bool true)])
    else t
  let t := t.handOver
  { t with run := { t.run with monitor := true } }

def workerReady : Turn :=
  if t.run.aborted then t.throw .other
  else if t.run.resuming then t.goto .resumeRecord
  else hand t

def ensureWorker : Turn :=
  if t.entry.worker.isNone then t.goto .factory else workerReady t

/-- The container is not the one that the worker runs in. -/
def outdated (container : CallerContainer) : Bool :=
  (container.restarted || container.recreated || container.dockerId ≠ t.entry.dockerId) &&
    t.entry.worker.isSome

def replaceWorker (stale : Option CallerRuntimeError) (container : CallerContainer) : Turn :=
  if outdated t container then
    match stale with
    | some error => t.throw error
    | none => t.goto .staleWorker
  else ensureWorker t

def containerReady (stale : Option CallerRuntimeError) (container : CallerContainer) : Turn :=
  let t : Turn := { t with run := { t.run.acquire with container := some container } }
  if t.run.aborted then t.throw .other
  else replaceWorker (t.enter .backendInitialization) stale container

def staleSettled (error : Option CallerRuntimeError) : Turn :=
  match error with
  | some error => t.throw error
  | none =>
      ensureWorker {
        run := { t.run with resuming := true }
        entry := { t.entry with worker := none, contexts := [], recovered := true } }

def workerMade (worker : ℕ) : Turn :=
  workerReady { t with entry := { t.entry with
    worker := some worker, dockerId := t.run.container.bind CallerContainer.dockerId } }

def resumeRecorded (error : Option CallerRuntimeError) : Turn :=
  match error with
  | some error => t.throw error
  | none => hand { t with run := { t.run with resuming := false } }

def settled (healthy : Except CallerRuntimeError Bool) : Turn :=
  match healthy with
  | .error error => t.throw error
  | .ok false => t.throw .other
  | .ok true => { t with run := { t.run with monitor := false, wait := .runningCheck } }

def checked (error : Option CallerRuntimeError) : Turn :=
  match error with
  | some error => t.throw error
  | none => if t.run.aborted then t.throw .other else t.answer

def failureRecorded (error : Option CallerRuntimeError) : Turn :=
  let t := t.goto .cleanUp
  if error.isSome then t.quarantine else t

/-- The code and the message of a failure that has no class of its own. -/
def failure : FrameError where
  code :=
    if t.entry.quarantined then "runtime_quarantined"
    else if t.run.storageFailure then "runtime_storage_limit"
    else if t.run.storageCheckFailed then "runtime_failed"
    else if t.run.aborted then "runtime_canceled"
    else "runtime_failed"
  message :=
    if t.entry.quarantined then "Caller cleanup could not be confirmed; scope quarantined"
    else if t.run.acquired then
      ("Caller execution ended; persistent files, including partial writes, are retained. " ++
        "Conversation will reset after recovery.")
    else
      ("Queued caller request canceled or rejected; running work and existing conversations are " ++
        "unchanged.")

def report : Turn :=
  (match t.run.error with
    | .environmentPending => t.fail "runtime_setup_pending"
        ("Your environment is awaiting setup. Ask the operator to complete container setup before " ++
          "retrying.")
    | .storageHelperUnconfirmed => t.quarantine.fail "runtime_quarantined"
        ("Storage helper cleanup could not be confirmed; scope quarantined until Docker " ++
          "reconciliation succeeds.")
    | .orphanedResources => t.quarantine.fail "runtime_orphaned_resources"
        ("Unrecorded caller resources were not adopted. Stop the daemon and inspect the orphan " ++
          "Docker resources or restore their original state database.")
    | .reservationUnconfirmed => t.quarantine.fail "runtime_reservation_unconfirmed"
        ("Caller reservation rollback could not be confirmed; stop the daemon and inspect/remove " ++
          "the scope before retrying.")
    | .allocationIncomplete => t.quarantine.fail "runtime_allocation_incomplete"
        ("Initial caller allocation was interrupted; restore the original state/resources or " ++
          "explicitly remove the scope before retrying.")
    | .storageMissing => t.quarantine.fail "runtime_storage_missing"
        ("Retained caller storage is missing; no replacement was created. Stop the daemon and " ++
          "restore the original volumes, or explicitly remove the scope to start over.")
    | _ => t.fail (failure t).code (failure t).message).finish

def cleanUp (stop close : Option CallerRuntimeError) : Turn :=
  let t : Turn := { t with run := { t.run with
    storageFailure := t.run.storageFailure || t.run.error = .storageLimit, forwarding := false } }
  if t.run.acquired then t.stopWorker t.entry.worker stop close else report t

def stopped (error : Option CallerRuntimeError) : Turn :=
  let t := if error.isSome then t.quarantine else t.log .stopped
  report { t with entry := { t.entry with worker := none, contexts := [], recovered := true } }

def turn (stopped : Bool) : ExecutionEvent → Turn
  | .leaveQueue => leaveQueue b t stopped
  | .refused error => t.throw error
  | .reserved => { t with entry := { t.entry with retained := true } }
  | .container (.error error) _ _ => t.throw error
  | .container (.ok container) stale _ => containerReady t stale container
  | .staleSettled error => staleSettled t error
  | .worker (.error error) _ => t.throw error
  | .worker (.ok worker) _ => workerMade t worker
  | .resumeRecorded error => resumeRecorded t error
  | .handled error => t.handled error
  | .canceled => t.throw .other
  | .settled healthy => settled t healthy
  | .checkEnded => t.goto .lastCheck
  | .checked error => checked t error
  | .contextStopped _ => t
  | .failureRecorded error => failureRecorded t error
  | .cleanUp stop close => cleanUp t stop close
  | .cleanUpSettled => t.goto .cleanUpCheck
  | .cleanUpCheckEnded => (t.log .stopAsked).goto .stop
  | .stopped error => SerialExecution.stopped t error

end SerialExecution

/-! ## `executeConcurrent` -/

namespace ConcurrentExecution

variable (b : CallerBackendOptions) (t : Turn)

def leaveQueue : Turn :=
  let t : Turn := { t with run := { t.run with granted := true } }
  if t.run.aborted then t.throw .other
  else if t.entry.quarantined ∨ t.run.context ∈ t.entry.failedContexts then t.throw .other
  else if t.run.context ∉ t.entry.contexts ∧ b.maxContexts ≤ t.entry.contexts.length then
    t.capacityFailure
  -- The context counts as acquired before the pool is asked.
  else { t with run := { t.run.acquire with phase := .allocation, wait := .container } }

def bound (bind : Option CallerRuntimeError) : Turn :=
  match bind with
  | some error => t.throw error
  | none => t.handOver

def findWorker (bind : Option CallerRuntimeError) : Turn :=
  match t.entry.contextWorkers.get? t.run.context with
  | none => t.goto .factory
  | some worker => bound { t with run := { t.run with worker := some worker } } bind

def containerReady (bind : Option CallerRuntimeError) (container : CallerContainer) : Turn :=
  let t : Turn := { t with run := { t.run with container := some container } }
  if t.run.aborted then t.throw .other
  else findWorker (t.enter .backendInitialization) bind

def workerMade (bind : Option CallerRuntimeError) (worker : ℕ) : Turn :=
  let t : Turn := {
    run := { t.run with worker := some worker }
    entry := { t.entry with
      contextWorkers := t.entry.contextWorkers.set t.run.context worker } }
  let t := t.emit (runtimeFrame [("workspaceMode", .str "context"),
    ("workspaceRestored", .bool (t.run.container.any CallerContainer.recovered)),
    ("conversationReset", .bool (t.entry.recovered || t.run.context ∈ t.entry.contexts)),
    ("legacyWorkspace", .str "/caller-workspace")])
  bound t bind

def settled (healthy : Except CallerRuntimeError Bool) : Turn :=
  match healthy with
  | .error error => t.throw error
  | .ok false => t.throw .other
  | .ok true => (t.log .stopAsked).goto .contextStop

def contextStopped (error : Option CallerRuntimeError) : Turn :=
  match error with
  | some error => t.throw error
  | none =>
      let t : Turn := { t with run := { t.run.log .stopped with acquired := false } }
      if t.run.aborted then t.throw .other else t.answer

/-- What the error alone says about the scope and the context. -/
def quarantines : Turn :=
  match t.run.error with
  | .storageHelperUnconfirmed | .scopeCleanupUnconfirmed => { t with entry := { t.entry with
      quarantined := true, failedContexts := addTo t.entry.failedContexts t.run.context } }
  | .reservationUnconfirmed | .orphanedResources | .allocationIncomplete | .storageMissing =>
      t.quarantine
  | _ => t

def failure : FrameError :=
  let quarantined := t.entry.quarantined || t.run.context ∈ t.entry.failedContexts
  { code :=
      if quarantined then "runtime_quarantined"
      else if t.run.error = .queueFull ∨ t.run.error = .contextCapacity then "runtime_capacity"
      else if t.run.error = .environmentPending then "runtime_setup_pending"
      else if t.run.timedOut then
        if t.run.phase = .queue then "runtime_queue_timeout" else "runtime_timeout"
      else if t.run.aborted then "runtime_canceled"
      else "runtime_failed"
    message :=
      if quarantined then "Runtime cleanup or storage is uncertain; offline recovery required"
      else if t.run.phase = .queue then
        "Caller request left the queue; running executions are unchanged"
      else
        ("Caller context execution ended; persistent context files, including partial writes, are " ++
          "retained") }

def report : Turn :=
  let t := quarantines t
  (t.fail (failure t).code (failure t).message).finish

def deleteWorker : Turn :=
  { t with entry := { t.entry with
    contextWorkers := t.entry.contextWorkers.erase t.run.context } }

def cleanUp (stop close : Option CallerRuntimeError) : Turn :=
  let t : Turn := { t with run := { t.run with forwarding := false } }
  if t.run.acquired || t.run.worker.isSome then
    let worker := t.run.worker.or (t.entry.contextWorkers.get? t.run.context)
    { t with run := { t.run with worker } }.stopWorker worker stop close
  else report t

def cleanUpSettled : Turn :=
  if t.run.acquired then (t.log .stopAsked).goto .stop else report (deleteWorker t)

def stopped (error : Option CallerRuntimeError) : Turn :=
  let t : Turn :=
    if error.isSome then { t with entry := { t.entry with
      failedContexts := addTo t.entry.failedContexts t.run.context } }
    else t.log .stopped
  report (deleteWorker t)

def turn : ExecutionEvent → Turn
  | .leaveQueue => leaveQueue b t
  | .refused error => t.throw error
  | .reserved => { t with entry := { t.entry with retained := true } }
  | .container (.error error) _ _ => t.throw error
  | .container (.ok container) _ bind => containerReady t bind container
  | .worker (.error error) _ => t.throw error
  | .worker (.ok worker) bind => workerMade t bind worker
  | .handled error => t.handled error
  | .canceled => t.throw .other
  | .settled healthy => settled t healthy
  | .contextStopped error => contextStopped t error
  | .cleanUp stop close => cleanUp t stop close
  | .cleanUpSettled => cleanUpSettled t
  | .stopped error => stopped t error
  | .staleSettled _ | .resumeRecorded _ | .checkEnded | .checked _ | .failureRecorded _
  | .cleanUpCheckEnded => t

end ConcurrentExecution

/-! ## The backend -/

/-- The wait in `tail` is for the links ahead. -/
inductive ReclaimWait where
  | tail
  | settle
  | stop
  | record
  | done
  deriving DecidableEq, Repr

/-- The work of an idle timer that has fired. -/
structure IdleReclaim where
  scope : String
  generation : ℕ
  wait : ReclaimWait := .tail
  failed : Bool := false
  deriving DecidableEq

/-- Whether the step of `reclaimIdle` has thrown. -/
inductive ReclaimEvent where
  | start (healthy stop close : Bool)
  | settled (failed : Bool)
  | stopped (failed : Bool)
  | recorded (failed : Bool)
  deriving DecidableEq, Repr

def ReclaimEvent.wait : ReclaimEvent → ReclaimWait
  | start .. => .tail
  | settled _ => .settle
  | stopped _ => .stop
  | recorded _ => .record

/-- `executions` and `reclaims` are all calls that there have been, in their order. -/
structure CallerScopedBackend where
  entries : InsertionMap String ScopeEntry := .empty
  pending : ℤ := 0
  stopped : Bool := false
  scheduler : CallerExecutionScheduler := {}
  executions : List CallerExecution := []
  reclaims : List IdleReclaim := []

inductive BackendEvent where
  | handle (task : CallerTask) (aborted : Bool)
  | frame (i : ℕ) (frame : TaskFrameBody)
  | heartbeat (i : ℕ)
  | monitor (i : ℕ)
  | storageChecked (i : ℕ) (error : Option CallerRuntimeError)
  | mutated (i : ℕ)
  | abort (i : ℕ) (timedOut : Bool)
  | turn (i : ℕ) (event : ExecutionEvent)
  | release (i : ℕ)
  | idle (scope : String)
  | reclaim (k : ℕ) (event : ReclaimEvent)
  | stop

namespace CallerScopedBackend

/-- `initialize`: the scopes that the pool has kept. -/
def initializeScopes (ids : List String) : CallerScopedBackend where
  entries := ids.foldl (fun entries id =>
    entries.set id { retained := true, recovered := true }) .empty

variable (b : CallerBackendOptions) (s : CallerScopedBackend)

/-! ## Admission -/

/-- A task that is answered before it counts. -/
def refuse (code message : String) : CallerScopedBackend :=
  let run : CallerExecution := { scope := "", context := "", forwarding := false, wait := .done }
  { s with executions := s.executions ++ [run.fail code message] }

def admitRun (id context : String) (entry : ScopeEntry) : CallerScopedBackend :=
  match b.concurrency with
  | none =>
      let entry := entry.cancelIdle
      { s with
        pending := s.pending + 1
        entries := s.entries.set id { entry with
          users := entry.users + 1, tail := entry.tail ++ [.execution s.executions.length] }
        executions := s.executions ++ [{ scope := id, context }] }
  | some limits =>
      { s with
        entries := s.entries.set id { entry with users := entry.users + 1 }
        scheduler := s.scheduler.acquire limits id context false
        executions := s.executions ++ [{ scope := id, context, ref := s.scheduler.nextRef }] }

/-- Find or make the entry of the scope. -/
def enterScope (id context : String) : CallerScopedBackend :=
  match s.entries.get? id with
  | none =>
      if b.maxScopes ≤ s.entries.size then
        s.refuse "runtime_capacity" "Retained caller capacity reached"
      else s.admitRun b id context {}
  | some entry =>
      if b.concurrency.isNone ∧ entry.quarantined then
        s.refuse "runtime_quarantined" "Caller runtime requires offline recovery"
      else if b.concurrency.isSome ∧ (entry.quarantined ∨ context ∈ entry.failedContexts) then
        s.refuse "runtime_quarantined" "Caller context requires offline recovery"
      else s.admitRun b id context entry

/-- `handle`, up to the first `await`. -/
def execute (task : CallerTask) (aborted : Bool) : CallerScopedBackend :=
  match task.validate b with
  | none => s.refuse "caller_scope_required" "Invalid scope or unsupported container request"
  | some id =>
      if s.stopped || aborted then s.refuse "runtime_stopped" "Caller runtime stopped"
      else if b.concurrency.isNone ∧ (b.maxScopes + b.queueLimit : ℤ) ≤ s.pending then
        s.refuse "runtime_capacity" "Caller queue full"
      else s.enterScope b id (task.context b id)

/-! ## Steps of a run -/

def update (i : ℕ) (f : CallerExecution → CallerExecution) : CallerScopedBackend :=
  { s with executions := s.executions.modify i f }

/-- One step of a run, with the entry of its scope. -/
def takeTurn (i : ℕ) (f : Turn → Turn) : CallerScopedBackend :=
  match s.executions[i]? with
  | none => s
  | some run =>
      match s.entries.get? run.scope with
      | none => s
      | some entry =>
          let t := f ⟨run, entry⟩
          { s with
            executions := s.executions.set i t.run
            entries := s.entries.set run.scope t.entry }

def abortWaiter (run : CallerExecution) (scheduler : CallerExecutionScheduler) :
    CallerExecutionScheduler :=
  match b.concurrency with
  | none => scheduler
  | some limits => scheduler.abort limits run.scope run.ref

def abort (i : ℕ) (timedOut : Bool) : CallerScopedBackend :=
  match s.executions[i]? with
  | none => s
  | some run =>
      { s.update i fun run =>
          { run with aborted := true, timedOut := run.timedOut || timedOut } with
        scheduler := abortWaiter b run s.scheduler }

/-- The entry goes with its last user, unless its capacity is retained. -/
def leaveEntry (id : String) (entry : ScopeEntry) : InsertionMap String ScopeEntry :=
  if !entry.retained && !entry.quarantined && entry.users = 0 then s.entries.erase id
  else if b.concurrency.isNone ∧ entry.users = 0 then
    s.entries.set id (entry.armIdle b s.stopped)
  else s.entries.set id entry

def release (i : ℕ) : CallerScopedBackend :=
  match s.executions[i]? with
  | none => s
  | some run =>
      match s.entries.get? run.scope with
      | none => s
      | some entry =>
          let left : ScopeEntry := { entry with users := entry.users - 1, tail := entry.tail.tail }
          let s := { s.update i fun run => { run with wait := .done } with
            entries := s.leaveEntry b run.scope left }
          match b.concurrency with
          | none => { s with pending := s.pending - 1 }
          | some limits =>
              -- A failed container keeps its slot until the daemon restarts.
              if run.granted ∧ run.context ∉ entry.failedContexts then
                { s with scheduler := s.scheduler.release limits run.ref }
              else s

def stop : CallerScopedBackend :=
  { s with
    stopped := true
    entries := s.entries.map ScopeEntry.cancelIdle
    scheduler := s.executions.foldl
      (fun scheduler run => if run.isOver then scheduler else abortWaiter b run scheduler)
      s.scheduler
    executions := s.executions.map fun run =>
      if run.isOver then run else { run with aborted := true } }

/-! ## Idle scopes -/

def eligible (generation : ℕ) (entry : ScopeEntry) : Bool :=
  !s.stopped && entry.idleGeneration = generation && entry.users = 0 && !entry.quarantined &&
    entry.worker.isSome

def idle (id : String) : CallerScopedBackend :=
  match s.entries.get? id with
  | none => s
  | some entry =>
      match entry.idleTimer with
      | none => s
      | some generation =>
          if s.eligible generation entry then
            { s with
              entries := s.entries.set id { entry with
                idleTimer := none, tail := entry.tail ++ [.reclaim s.reclaims.length] }
              reclaims := s.reclaims ++ [{ scope := id, generation }] }
          else s

def reclaimStep (work : IdleReclaim) (entry : ScopeEntry) :
    ReclaimEvent → IdleReclaim × ScopeEntry
  | .start healthy stop close =>
      if s.eligible work.generation entry then
        ({ work with wait := .settle, failed := !healthy || stop || close }, entry)
      else ({ work with wait := .done }, { entry with tail := entry.tail.tail })
  | .settled failed => ({ work with wait := .stop, failed := work.failed || failed }, entry)
  | .stopped failed =>
      let failed := work.failed || failed
      ({ work with wait := .record, failed }, { entry with
        worker := none, dockerId := none, contexts := [], recovered := true
        quarantined := failed })
  | .recorded failed =>
      ({ work with wait := .done }, { entry with
        quarantined := entry.quarantined || failed, tail := entry.tail.tail })

def reclaim (k : ℕ) (event : ReclaimEvent) : CallerScopedBackend :=
  match s.reclaims[k]? with
  | none => s
  | some work =>
      match s.entries.get? work.scope with
      | none => s
      | some entry =>
          let (done, left) := s.reclaimStep work entry event
          { s with
            reclaims := s.reclaims.set k done
            entries := s.entries.set work.scope left }

/-! ## Events -/

def apply : BackendEvent → CallerScopedBackend
  | .handle task aborted => s.execute b task aborted
  | .frame i frame => s.update i fun run => run.onFrame frame
  | .heartbeat i => s.update i fun run => run.heartbeat b.concurrency.isSome
  | .monitor i => s.update i fun run => { run with storageCheck := true }
  | .storageChecked i error => s.update i fun run => run.storageChecked error
  | .mutated i => s.update i CallerExecution.acquire
  | .abort i timedOut => s.abort b i timedOut
  | .turn i event => s.takeTurn i fun t =>
      if b.concurrency.isNone then SerialExecution.turn b t s.stopped event
      else ConcurrentExecution.turn b t event
  | .release i => s.release b i
  | .idle scope => s.idle scope
  | .reclaim k event => s.reclaim k event
  | .stop => s.stop b

/-- Whether it is the turn of the link. -/
def atHead (scope : String) (link : TailLink) : Prop :=
  ∃ entry ∈ s.entries.get? scope, entry.tail.head? = some link

/-- What the scheduler answered. -/
def refusedAs (ref : ℕ) (error : CallerRuntimeError) : Prop :=
  (ref, SchedulerRejection.executionAborted) ∈ s.scheduler.rejected ∧ error = .other ∨
    (ref, SchedulerRejection.callerQueueFull) ∈ s.scheduler.rejected ∧ error = .queueFull

/-- The two paths have some events each that the other one lacks. -/
def admissible (i : ℕ) (run : CallerExecution) : ExecutionEvent → Prop
  | .leaveQueue =>
      if b.concurrency.isNone then s.atHead run.scope (.execution i)
      else ∃ lease ∈ s.scheduler.admitted, lease.ref = run.ref
  | .refused error =>
      if b.concurrency.isNone then run.aborted ∧ error = .other else s.refusedAs run.ref error
  | .canceled => run.aborted
  | .checkEnded | .cleanUpCheckEnded => b.concurrency.isNone ∧ run.storageCheck = false
  | .staleSettled _ | .resumeRecorded _ | .checked _ | .failureRecorded _ => b.concurrency.isNone
  | .contextStopped _ => b.concurrency.isSome
  | _ => True

def enabled : BackendEvent → Prop
  | .handle .. | .stop => True
  | .frame i _ => ∃ run ∈ s.executions[i]?, run.handed
  | .heartbeat i | .abort i _ => ∃ run ∈ s.executions[i]?, run.isOver = false
  | .monitor i => ∃ run ∈ s.executions[i]?, run.monitor ∧ run.storageCheck = false
  | .storageChecked i _ => ∃ run ∈ s.executions[i]?, run.storageCheck
  | .mutated i => b.concurrency.isNone ∧ ∃ run ∈ s.executions[i]?, run.wait = .container
  | .turn i event => ∃ run ∈ s.executions[i]?, run.wait = event.wait ∧ s.admissible b i run event
  | .release i => ∃ run ∈ s.executions[i]?, run.wait = .slot ∧
      (b.concurrency.isNone → run.storageCheck = false ∧ s.atHead run.scope (.execution i))
  | .idle scope => b.concurrency.isNone ∧ ∃ entry ∈ s.entries.get? scope, entry.idleTimer.isSome
  | .reclaim k event => ∃ work ∈ s.reclaims[k]?, work.wait = event.wait ∧
      (work.wait = .tail → s.atHead work.scope (.reclaim k))

instance decidableAtHead (scope : String) (link : TailLink) : Decidable (s.atHead scope link) :=
  inferInstanceAs (Decidable (∃ entry ∈ s.entries.get? scope, entry.tail.head? = some link))

instance decidableRefusedAs (ref : ℕ) (error : CallerRuntimeError) :
    Decidable (s.refusedAs ref error) :=
  inferInstanceAs (Decidable (_ ∧ _ ∨ _ ∧ _))

instance decidableAdmissible (i : ℕ) (run : CallerExecution) :
    ∀ event, Decidable (s.admissible b i run event)
  | .leaveQueue => inferInstanceAs (Decidable (if b.concurrency.isNone = true then
      s.atHead run.scope (.execution i) else ∃ lease ∈ s.scheduler.admitted, lease.ref = run.ref))
  | .refused error => inferInstanceAs (Decidable (if b.concurrency.isNone = true then
      run.aborted = true ∧ error = .other else s.refusedAs run.ref error))
  | .canceled => inferInstanceAs (Decidable (run.aborted = true))
  | .checkEnded | .cleanUpCheckEnded =>
      inferInstanceAs (Decidable (b.concurrency.isNone = true ∧ run.storageCheck = false))
  | .staleSettled _ | .resumeRecorded _ | .checked _ | .failureRecorded _ =>
      inferInstanceAs (Decidable (b.concurrency.isNone = true))
  | .contextStopped _ => inferInstanceAs (Decidable (b.concurrency.isSome = true))
  | .reserved | .container .. | .worker .. | .handled _ | .settled _ | .cleanUp ..
  | .cleanUpSettled | .stopped _ => .isTrue trivial

instance decidableBackendEnabled : ∀ a, Decidable (s.enabled b a)
  | .handle .. | .stop => .isTrue trivial
  | .frame i _ => inferInstanceAs (Decidable (∃ run ∈ s.executions[i]?, run.handed = true))
  | .heartbeat i | .abort i _ =>
      inferInstanceAs (Decidable (∃ run ∈ s.executions[i]?, run.isOver = false))
  | .monitor i => inferInstanceAs (Decidable (∃ run ∈ s.executions[i]?,
      run.monitor = true ∧ run.storageCheck = false))
  | .storageChecked i _ =>
      inferInstanceAs (Decidable (∃ run ∈ s.executions[i]?, run.storageCheck = true))
  | .mutated i => inferInstanceAs (Decidable (b.concurrency.isNone = true ∧
      ∃ run ∈ s.executions[i]?, run.wait = .container))
  | .turn i event => inferInstanceAs (Decidable (∃ run ∈ s.executions[i]?,
      run.wait = event.wait ∧ s.admissible b i run event))
  | .release i => inferInstanceAs (Decidable (∃ run ∈ s.executions[i]?, run.wait = .slot ∧
      (b.concurrency.isNone = true → run.storageCheck = false ∧
        s.atHead run.scope (.execution i))))
  | .idle scope => inferInstanceAs (Decidable (b.concurrency.isNone = true ∧
      ∃ entry ∈ s.entries.get? scope, entry.idleTimer.isSome = true))
  | .reclaim k event => inferInstanceAs (Decidable (∃ work ∈ s.reclaims[k]?,
      work.wait = event.wait ∧ (work.wait = .tail → s.atHead work.scope (.reclaim k))))

end CallerScopedBackend

end VicoopBridge
