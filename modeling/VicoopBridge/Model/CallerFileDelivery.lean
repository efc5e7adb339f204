import VicoopBridge.Library.Base64
import VicoopBridge.Library.Transition
import VicoopBridge.Model.Json
import VicoopBridge.Model.JsString

/-! # Delivery of a caller's files

The sends of one task. Each waits for the one before it, reads the file in the container and
emits it as an artifact. What the reader prints comes in as the outcome of the command. -/

namespace VicoopBridge

open Library

/-- A parsed configuration. -/
structure CallerFileDeliveryOptions where
  allowedRoots : List String
  maxBytes : ℕ
  maxTotalBytes : ℕ
  maxFiles : ℕ
  maxBytes_mem : 1 ≤ maxBytes ∧ maxBytes ≤ 8 * 1024 * 1024
  maxTotalBytes_mem : 1 ≤ maxTotalBytes ∧ maxTotalBytes ≤ 48 * 1024 * 1024
  maxFiles_mem : 1 ≤ maxFiles ∧ maxFiles ≤ 16

def maxCallerFilePendingBytes : ℕ := 512 * 1024 * 1024

inductive PendingBytesError where
  /-- The limit of executions is not between 1 and 32. -/
  | executions
  | retention
  deriving DecidableEq

def PendingBytesError.message : PendingBytesError → Option String
  | .executions => none
  | .retention => some ("fileDelivery replay retention exceeds 512 MiB; reduce the execution " ++
      "limit (maxScopes or concurrency.global), maxTotalBytes, maxBytes, or maxFiles")

namespace CallerFileDeliveryOptions

variable (files : CallerFileDeliveryOptions)

/-- Each file may add two padding bytes of its own. -/
def encoded : ℕ :=
  4 * ((min files.maxTotalBytes (files.maxBytes * files.maxFiles) + 2 * files.maxFiles) / 3)

/-- What the artifacts carry beside the files. -/
def metadataBytes : ℕ := files.maxFiles * 64 * 1024 + 1024 * 1024

end CallerFileDeliveryOptions

def callerFilePendingBytes (config : Option CallerFileDeliveryOptions) (maxExecutions : ℕ) :
    Except PendingBytesError (Option ℕ) :=
  match config with
  | none => .ok none
  | some files =>
      if maxExecutions < 1 ∨ 32 < maxExecutions then .error .executions
      else
        let perScope := files.encoded + files.metadataBytes
        let budget := max (4 * 1024 * 1024) (maxExecutions * perScope)
        if budget > maxCallerFilePendingBytes then .error .retention else .ok (some budget)

/-! ## Requests -/

structure SendRequest where
  path : String
  name : Option String
  deriving DecidableEq

def lengthBetween (low high : ℕ) (value : String) : Bool :=
  decide (low ≤ utf16Length value.toList ∧ utf16Length value.toList ≤ high)

def isFileName (value : String) : Bool :=
  lengthBetween 1 255 value && value.toList.all fun c => c ≠ '\\' && c ≠ '/' && 0x1f < c.toNat

def isFilePath (value : String) : Bool :=
  lengthBetween 1 4096 value && value.toList.all fun c => c.toNat ≠ 0

/-- `requestSchema.parse`, which takes no other keys. -/
def parseSendRequest : Json → Option SendRequest
  | .obj fields =>
      if fields.any fun f => f.1 ∉ ["path", "name"] then none
      else
        match JsonObject.field fields "path", JsonObject.field fields "name" with
        | some (.str path), none => if isFilePath path then some ⟨path, none⟩ else none
        | some (.str path), some (.str name) =>
            if isFilePath path && isFileName name then some ⟨path, some name⟩ else none
        | _, _ => none
  | _ => none

/-- `posix.basename` -/
def basename (path : String) : String :=
  String.ofList ((path.toList.reverse.dropWhile (· == '/')).takeWhile (· != '/')).reverse

/-! ## Reads -/

/-- How `docker exec` ended: `stdout` is its output, read as JSON. -/
inductive ReadOutcome where
  | threw (message : String)
  | exited (exitCode : ℤ) (stdout : Option Json)
  deriving DecidableEq

structure ReadResult where
  bytes : Option String
  error : Option String
  deriving DecidableEq

def parseOptionalString : Option Json → Option (Option String)
  | none => some none
  | some (.str s) => some (some s)
  | _ => none

def parseReadResult : Json → Option ReadResult
  | .obj fields =>
      if fields.any fun f => f.1 ∉ ["bytes", "error"] then none
      else do
        let bytes ← parseOptionalString (JsonObject.field fields "bytes")
        let error ← parseOptionalString (JsonObject.field fields "error")
        some ⟨bytes, error⟩
  | _ => none

/-! ## The sends of a task -/

structure Delivered where
  artifactId : String
  name : String
  size : ℕ
  deriving DecidableEq

inductive SendStage where
  /-- The sends before it have not settled. -/
  | queued
  /-- The command runs with this limit. -/
  | reading (request : SendRequest) (remaining : ℕ)
  | done (result : Except String Delivered)
  deriving DecidableEq

structure SendCall where
  input : Json
  /-- The attempt of the task whose signal the call has. -/
  execution : ℕ
  stage : SendStage := .queued
  deriving DecidableEq

def SendCall.isDone (call : SendCall) : Bool :=
  match call.stage with
  | .done _ => true
  | _ => false

/-- The `send-file` artifact. -/
structure FileArtifact where
  artifactId : String
  name : String
  mimeType : String
  bytes : String
  deriving DecidableEq

structure CallerFileDelivery where
  total : ℕ := 0
  files : ℕ := 0
  cleanupConfirmed : Bool := true
  /-- `onCleanupUnconfirmed` has been called. -/
  reported : Bool := false
  aborted : Bool := false
  abortedExecutions : List ℕ := []
  calls : List SendCall := []
  emitted : List FileArtifact := []
  deriving DecidableEq

namespace CallerFileDelivery

variable (config : CallerFileDeliveryOptions) (decode : String → List UInt8)
  (inferMimeFromPath : String → String)

def setStage (d : CallerFileDelivery) (n : ℕ) (stage : SendStage) : CallerFileDelivery :=
  { d with calls := d.calls.modify n fun call => { call with stage } }

def fail (d : CallerFileDelivery) (n : ℕ) (message : String) : CallerFileDelivery :=
  d.setStage n (.done (.error message))

def unconfirmed (d : CallerFileDelivery) : CallerFileDelivery :=
  if d.cleanupConfirmed then { d with cleanupConfirmed := false, reported := true } else d

/-- The signal of the task, or that of the call. -/
def isAborted (d : CallerFileDelivery) (execution : ℕ) : Bool :=
  d.aborted || decide (execution ∈ d.abortedExecutions)

/-- The turn of a send has come. -/
def begin (d : CallerFileDelivery) (n : ℕ) (call : SendCall) : CallerFileDelivery :=
  if d.isAborted call.execution then d.fail n "aborted"
  else if ¬ d.cleanupConfirmed then d.fail n "Attachment reader cleanup is unconfirmed"
  else
    match parseSendRequest call.input with
    | none => d.fail n "invalid request"
    | some request =>
        if d.files ≥ config.maxFiles then d.fail n "Attachment count limit exceeded"
        else
          let remaining := min config.maxBytes (config.maxTotalBytes - d.total)
          if remaining = 0 then d.fail n "Attachment aggregate size limit exceeded"
          else d.setStage n (.reading request remaining)

/-- The accepted bytes, under the name they go by. -/
def deliver (d : CallerFileDelivery) (n : ℕ) (request : SendRequest) (artifactId bytes : String) :
    CallerFileDelivery :=
  let name := request.name.getD (basename request.path)
  if ¬ isFileName name then d.fail n "invalid name"
  else
    let size := (decode bytes).length
    let d := { d with files := d.files + 1, total := d.total + size }
    let artifact : FileArtifact := ⟨artifactId, name, inferMimeFromPath request.path, bytes⟩
    { d with emitted := d.emitted ++ [artifact] }.setStage n (.done (.ok ⟨artifactId, name, size⟩))

/-- The command has ended, and `remaining` was its limit. -/
def readDone (d : CallerFileDelivery) (n execution : ℕ) (request : SendRequest) (remaining : ℕ)
    (artifactId : String) : ReadOutcome → CallerFileDelivery
  | .threw message => d.unconfirmed.fail n message
  | .exited exitCode stdout =>
      if exitCode ≠ 0 then d.unconfirmed.fail n "Container attachment read failed"
      else if d.isAborted execution then d.fail n "aborted"
      else
        match stdout.bind parseReadResult with
        | none => d.fail n "invalid output"
        | some ⟨bytes, error⟩ =>
            match error.filter (· ≠ ""), bytes with
            | some message, _ => d.fail n ("Attachment rejected: " ++ message)
            | none, none => d.fail n ("Attachment rejected: " ++ error.getD "invalid read")
            | none, some bytes =>
                if (decode bytes).length > remaining ∨
                    String.ofList (Base64.encode (decode bytes)) ≠ bytes then
                  d.fail n "Invalid attachment bytes"
                else d.deliver decode inferMimeFromPath n request artifactId bytes

/-! ## Runs -/

inductive Action where
  | send (input : Json) (execution : ℕ)
  | begin (n : ℕ)
  | readDone (n : ℕ) (artifactId : String) (outcome : ReadOutcome)
  | abort
  | abortExecution (execution : ℕ)
  deriving DecidableEq

def enabled (d : CallerFileDelivery) : Action → Bool
  | .begin n => decide (d.calls[n]?.map (·.stage) = some .queued) &&
      (d.calls.take n).all SendCall.isDone
  | _ => true

def apply (d : CallerFileDelivery) : Action → CallerFileDelivery
  | .send input execution => { d with calls := d.calls ++ [{ input, execution }] }
  | .begin n =>
      match d.calls[n]? with
      | some call => d.begin config n call
      | none => d
  | .readDone n artifactId outcome =>
      match d.calls[n]? with
      | some ⟨_, execution, .reading request remaining⟩ =>
          d.readDone decode inferMimeFromPath n execution request remaining artifactId outcome
      | _ => d
  | .abort => { d with aborted := true }
  | .abortExecution execution =>
      { d with abortedExecutions := execution :: d.abortedExecutions }

def system : System CallerFileDelivery Action :=
  .ofApply (· = {}) (fun d a => d.enabled a = true) (apply config decode inferMimeFromPath)

end CallerFileDelivery

end VicoopBridge
