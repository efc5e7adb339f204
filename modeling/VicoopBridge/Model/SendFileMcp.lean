import VicoopBridge.Library.Base64
import VicoopBridge.Library.InsertionMap
import VicoopBridge.Model.CallerFileDelivery
import VicoopBridge.Model.FileAttach

/-! # The server of the `send_file` tool

Which task a call of the tool delivers to. A call waits for its file; registrations come and go
in the meantime. -/

namespace VicoopBridge.SendFileMcp

open Library

structure SendFileOptions where
  requireExecutionBinding : Bool
  inferMimeFromPath : String → String

structure SendFileInput where
  path : String
  name : Option String := none
  deriving DecidableEq

inductive SendFileError where
  | stale
  | noActiveTask
  | ambiguousTask
  | read (error : SafeReadError)
  | unexpected (message : String)
  deriving DecidableEq

def safeReadErrorCode : SafeReadErrorCode → String
  | .invalidPath => "invalid-path"
  | .outsideRoots => "outside-roots"
  | .notFound => "not-found"
  | .symlink => "symlink"
  | .notFile => "not-file"
  | .hardlink => "hardlink"
  | .tooLarge => "too-large"

def SendFileError.code : SendFileError → String
  | .stale => "inactive-execution"
  | .noActiveTask => "no-active-task"
  | .ambiguousTask => "ambiguous-task"
  | .read error => safeReadErrorCode error.code
  | .unexpected _ => "unexpected-error"

def SendFileError.message : SendFileError → String
  | .stale => "The file-delivery execution binding is missing or no longer active."
  | .noActiveTask => "No A2A task is active on this backend."
  | .ambiguousTask => "Multiple tasks are active without an execution binding."
  | .read error => error.message
  | .unexpected message => message

structure Sent where
  artifactId : String
  size : ℕ
  realPath : String
  deriving DecidableEq

inductive CallStage where
  /-- The file is being read for the task. -/
  | reading (binding : String) (task : ℕ)
  | done (result : Except SendFileError Sent)
  deriving DecidableEq

structure ToolCall where
  input : SendFileInput
  stage : CallStage
  deriving DecidableEq

/-- An artifact that was given to the `emit` of a task. -/
structure Emission where
  call : ℕ
  task : ℕ
  artifact : FileArtifact
  deriving DecidableEq

/-- Tasks are their handle objects, by number. `registrations` has the token that each `release`
deletes, `mcps` what the admitted requests have presented. -/
structure SendFileMcpServer where
  activeTasks : InsertionMap String ℕ := .empty
  closing : Bool := false
  registrations : List String := []
  mcps : List (Option String) := []
  calls : List ToolCall := []
  emitted : List Emission := []

/-- How a read ended: what was thrown may be any value, here its message. -/
inductive ReadOutcome where
  | ok (result : SafeReadResult)
  | safe (error : SafeReadError)
  | threw (message : String)
  deriving DecidableEq

namespace SendFileMcpServer

variable (options : SendFileOptions) (s : SendFileMcpServer)

def activeTaskCount : ℕ := s.activeTasks.size

/-- Throws once the server closes, and for a token in use. -/
def canRegister (token : String) : Bool := !s.closing && !s.activeTasks.has token

def registerActiveTask (handle : ℕ) (token : String) : SendFileMcpServer :=
  if s.canRegister token then
    { s with activeTasks := s.activeTasks.set token handle
             registrations := s.registrations ++ [token] }
  else s

/-- The `release` of a registration. It can be called again. -/
def release (number : ℕ) : SendFileMcpServer :=
  match s.registrations[number]? with
  | some token => { s with activeTasks := s.activeTasks.erase token }
  | none => s

/-! ## Calls -/

/-- `!token` -/
def isMissing (token : Option String) : Bool := token.all (· = "")

/-- The first part of `performSendFile`: the task that the file is read for. -/
def bind (token : Option String) : Except SendFileError (String × ℕ) :=
  if s.closing then .error .stale
  else if options.requireExecutionBinding ∧
      (isMissing token ∨ ¬ s.activeTasks.has (token.getD "")) then .error .stale
  else if isMissing token ∧ s.activeTaskCount = 0 then .error .noActiveTask
  else if isMissing token ∧ s.activeTaskCount > 1 then .error .ambiguousTask
  else
    let binding := token.getD (s.activeTasks.keys.headD "")
    match s.activeTasks.get? binding with
    | none => .error .stale
    | some task => .ok (binding, task)

def performSendFile (input : SendFileInput) (token : Option String) : SendFileMcpServer :=
  let stage : CallStage :=
    match s.bind options token with
    | .error error => .done (.error error)
    | .ok (binding, task) => .reading binding task
  { s with calls := s.calls ++ [⟨input, stage⟩] }

/-- A name of blanks only is none. -/
def fileName (input : SendFileInput) (realPath : String) : String :=
  match input.name.map trim with
  | some trimmedName => if trimmedName ≠ "" then trimmedName else basename realPath
  | none => basename realPath

def setStage (n : ℕ) (stage : CallStage) : SendFileMcpServer :=
  { s with calls := s.calls.modify n fun call => { call with stage } }

def fileArtifact (input : SendFileInput) (read : SafeReadResult) (artifactId : String) :
    FileArtifact :=
  let realPath := String.ofList read.realPath
  ⟨artifactId, fileName input realPath, options.inferMimeFromPath realPath,
    String.ofList (Base64.encode read.buffer)⟩

/-- The second part of `performSendFile`. `thrown` is what `emit` throws. -/
def readDone (n : ℕ) (outcome : ReadOutcome) (artifactId : String) (thrown : Option String) :
    SendFileMcpServer :=
  match s.calls[n]? with
  | some ⟨input, .reading binding task⟩ =>
      match outcome with
      | .safe error => s.setStage n (.done (.error (.read error)))
      | .threw message => s.setStage n (.done (.error (.unexpected message)))
      | .ok read =>
          if s.closing ∨ s.activeTasks.get? binding ≠ some task then
            s.setStage n (.done (.error .stale))
          else
            let result : Except SendFileError Sent :=
              match thrown with
              | some message => .error (.unexpected message)
              | none => .ok ⟨artifactId, read.size, String.ofList read.realPath⟩
            { s.setStage n (.done result) with
              emitted := s.emitted ++ [⟨n, task, fileArtifact options input read artifactId⟩] }
  | _ => s

/-! ## Requests -/

inductive Refusal where
  | shuttingDown
  | notFound
  | inactiveExecution
  deriving DecidableEq

def Refusal.status : Refusal → ℕ
  | .shuttingDown => 503
  | .notFound => 404
  | .inactiveExecution => 401

/-- Behind `Bearer `, where execution binding is required. -/
def bearer (authorization : Option String) : Option String :=
  if options.requireExecutionBinding then
    authorization.bind fun value =>
      if "Bearer ".toList.isPrefixOf value.toList then some (String.ofList (value.toList.drop 7))
      else none
  else none

def pathname (url : Option String) : String :=
  String.ofList ((url.getD "").toList.takeWhile (· ≠ '?'))

/-- What the tool server of an admitted request has for a token. -/
def admission (url authorization : Option String) : Except Refusal (Option String) :=
  let token := bearer options authorization
  if s.closing then .error .shuttingDown
  else if pathname url ≠ "/mcp" then .error .notFound
  else if options.requireExecutionBinding ∧
      (isMissing token ∨ ¬ s.activeTasks.has (token.getD "")) then .error .inactiveExecution
  else .ok token

def request (url authorization : Option String) : SendFileMcpServer :=
  match s.admission options url authorization with
  | .ok token => { s with mcps := s.mcps ++ [token] }
  | .error _ => s

/-- What else `close` waits for emits nothing. -/
def close : SendFileMcpServer := { s with activeTasks := .empty, closing := true }

end SendFileMcpServer

/-! ## Runs -/

/-- A call comes over an admitted request, or in a test. -/
inductive Door where
  | mcp (n : ℕ)
  | invokeSendFileForTest (token : Option String)
  deriving DecidableEq

inductive Action where
  | register (handle : ℕ) (token : String)
  | release (number : ℕ)
  | request (url authorization : Option String)
  | call (door : Door) (input : SendFileInput)
  | readDone (n : ℕ) (outcome : ReadOutcome) (artifactId : String) (thrown : Option String)
  | close
  deriving DecidableEq

namespace SendFileMcpServer

variable (options : SendFileOptions)

/-- The token that a call presents, if there is such a door. -/
def presented (s : SendFileMcpServer) : Door → Option (Option String)
  | .mcp n => s.mcps[n]?
  | .invokeSendFileForTest token => some token

def apply (s : SendFileMcpServer) : Action → SendFileMcpServer
  | .register handle token => s.registerActiveTask handle token
  | .release number => s.release number
  | .request url authorization => s.request options url authorization
  | .call door input =>
      match s.presented door with
      | some token => s.performSendFile options input token
      | none => s
  | .readDone n outcome artifactId thrown => s.readDone options n outcome artifactId thrown
  | .close => s.close

/-- A server after these actions. -/
def run (actions : List Action) : SendFileMcpServer := actions.foldl (apply options) {}

end SendFileMcpServer

end VicoopBridge.SendFileMcp
