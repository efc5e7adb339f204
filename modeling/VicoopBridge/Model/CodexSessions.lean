import VicoopBridge.Model.CallerBlock
import VicoopBridge.Model.Codex
import VicoopBridge.Model.ContextLocks

/-! # Threads of the Codex backend

A plain task (one without an openai-compat envelope) resumes the thread its context is bound
to, or starts one. The turns of a context wait for one another under the lock of
`ContextLocks`; the awaits between the steps of a task let the tasks of other contexts run. -/

namespace VicoopBridge.CodexThreads

open CallerBlock (WireContext callerContextSessionKey)
open Library

universe u

structure SessionEntry where
  threadId : String
  lastUsedAt : ℤ
  writeId : ℕ
  callerKey : JsText
  deriving DecidableEq

structure PlainTask (κ : Type u) where
  contextId : κ
  caller : Option WireContext

def PlainTask.callerKey {κ : Type u} (task : PlainTask κ) : JsText :=
  callerContextSessionKey task.caller

inductive TaskEnd where
  | completed
  | canceled
  | failed
  deriving DecidableEq

/-- How far a call of `handle` has come. -/
inductive Stage where
  /-- behind `acquireContextLock` -/
  | waiting
  /-- parts are mapped, the app-server is started -/
  | entered
  /-- `thread/resume` or `thread/start` is unanswered -/
  | requested
  | turn
  /-- the terminal frame is out, the directory of images is removed -/
  | ended (state : TaskEnd)
  | released (state : TaskEnd)
  deriving DecidableEq

/-- The variables of one call of `handle`. -/
structure TaskRun (κ : Type u) where
  task : PlainTask κ
  stage : Stage := .waiting
  tNow : ℤ := 0
  writeId : ℕ := 0
  existing : Option SessionEntry := none
  observedThreadId : Option String := none

inductive ThreadRequest where
  | resume (call : ℕ) (threadId : String)
  | start (call : ℕ)
  deriving DecidableEq

/-- `runs` are the calls that asked for the lock, in the order of the lock's own calls. -/
structure CodexSessions (κ : Type u) where
  locks : ContextLocks κ := {}
  runs : List (TaskRun κ) := []
  sessions : κ → Option SessionEntry := fun _ => none
  writeCounter : ℕ := 0
  requests : List ThreadRequest := []

variable {κ : Type u} [DecidableEq κ] (sessionTtlMs : ℤ)

def evictExpired (sessions : κ → Option SessionEntry) (cutoff : ℤ) : κ → Option SessionEntry :=
  fun contextId => (sessions contextId).filter fun entry => !decide (entry.lastUsedAt < cutoff)

namespace CodexSessions

variable (s : CodexSessions κ) (call : ℕ) (run : TaskRun κ)

def setRun : CodexSessions κ := { s with runs := s.runs.set call run }

def setSession (contextId : κ) (entry : Option SessionEntry) : CodexSessions κ :=
  { s with sessions := Function.update s.sessions contextId entry }

/-- The head of `handle`. -/
def handle (task : PlainTask κ) (aborted : Bool) : CodexSessions κ :=
  if aborted then s
  else { s with
    locks := s.locks.acquireContextLock task.contextId
    runs := s.runs ++ [{ task }] }

/-- Behind the lock. -/
def enter (aborted : Bool) : CodexSessions κ :=
  { s.setRun call { run with stage := if aborted then .ended .canceled else .entered } with
    locks := s.locks.enter call }

/-- The session lookup and the request for a thread. -/
def lookup (now : ℤ) : CodexSessions κ :=
  let sessionReuseEligible := decide (0 < sessionTtlMs)
  let sessions :=
    if sessionReuseEligible then evictExpired s.sessions (now - sessionTtlMs) else s.sessions
  let callerKey := run.task.callerKey
  let stored := if sessionReuseEligible then sessions run.task.contextId else none
  let existing := stored.filter fun entry => decide (entry.callerKey = callerKey)
  let writeCounter := if sessionReuseEligible then s.writeCounter + 1 else s.writeCounter
  let writeId := if sessionReuseEligible then writeCounter else 0
  { s with
    runs := s.runs.set call { run with stage := .requested, tNow := now, writeId, existing }
    writeCounter
    sessions := match existing with
      | some entry =>
          Function.update sessions run.task.contextId
            (some { threadId := entry.threadId, lastUsedAt := now, writeId, callerKey })
      | none => sessions
    requests := s.requests ++ [match existing with
      | some entry => .resume call entry.threadId
      | none => .start call] }

def rollbackResumeRefresh : CodexSessions κ :=
  match run.existing, s.sessions run.task.contextId with
  | some existing, some cur =>
      if 0 < sessionTtlMs ∧ cur.threadId = existing.threadId ∧ cur.writeId = run.writeId then
        { s.setSession run.task.contextId (some
            { threadId := existing.threadId
              lastUsedAt := existing.lastUsedAt
              writeId := s.writeCounter + 1
              callerKey := run.task.callerKey }) with
          writeCounter := s.writeCounter + 1 }
      else s
  | _, _ => s

/-- An empty thread id counts as none. -/
def rollbackFreshThread : CodexSessions κ :=
  match run.existing, run.observedThreadId, s.sessions run.task.contextId with
  | none, some threadId, some cur =>
      if 0 < sessionTtlMs ∧ threadId ≠ "" ∧ cur.threadId = threadId ∧ cur.writeId = run.writeId then
        s.setSession run.task.contextId none
      else s
  | _, _, _ => s

/-- The answer to `thread/resume`. The turn may be given another thread; the binding keeps
the one that was asked for. -/
def resumed : CodexSessions κ := s.setRun call { run with stage := .turn }

/-- The answer to `thread/start`. -/
def started (threadId : String) (now : ℤ) : CodexSessions κ :=
  let s := s.setRun call { run with stage := .turn, observedThreadId := some threadId }
  if 0 < sessionTtlMs then
    s.setSession run.task.contextId (some
      { threadId, lastUsedAt := now, writeId := run.writeId, callerKey := run.task.callerKey })
  else s

/-- Either request fails. -/
def threadFails : CodexSessions κ :=
  (s.rollbackResumeRefresh sessionTtlMs run).setRun call { run with stage := .ended .failed }

/-- Both rollbacks of a turn. -/
def rollback : CodexSessions κ :=
  (s.rollbackFreshThread sessionTtlMs run).rollbackResumeRefresh sessionTtlMs run

def refresh (now : ℤ) : CodexSessions κ :=
  match run.existing, s.sessions run.task.contextId with
  | some existing, some cur =>
      if 0 < sessionTtlMs ∧ cur.threadId = existing.threadId ∧ cur.writeId = run.writeId then
        s.setSession run.task.contextId (some
          { threadId := existing.threadId
            lastUsedAt := now
            writeId := run.writeId
            callerKey := run.task.callerKey })
      else s
  | _, _ => s

/-- The outcome of the turn. A plain task captures no tool call, so an interrupted turn is
a canceled one. -/
def turnEnds (status : TurnOutcomeStatus) (now : ℤ) : CodexSessions κ :=
  match status with
  | .interrupted | .aborted =>
      (s.rollback sessionTtlMs run).setRun call { run with stage := .ended .canceled }
  | .failed _ => (s.rollback sessionTtlMs run).setRun call { run with stage := .ended .failed }
  | .completed =>
      (s.refresh sessionTtlMs run now).setRun call { run with stage := .ended .completed }

def release (state : TaskEnd) : CodexSessions κ :=
  { s.setRun call { run with stage := .released state } with
    locks := s.locks.release call run.task.contextId }

end CodexSessions

/-! ## Runs -/

inductive Action (κ : Type u) where
  | handle (task : PlainTask κ) (aborted : Bool)
  /-- jobs of the lock's promises -/
  | chain (call : ℕ)
  | adopt (call : ℕ)
  | enter (call : ℕ) (aborted : Bool)
  /-- an end before the lookup: aborted, parts refused, no app-server -/
  | leave (call : ℕ) (aborted : Bool)
  | lookup (call : ℕ) (now : ℤ)
  | resumed (call : ℕ)
  | started (call : ℕ) (threadId : String) (now : ℤ)
  | threadFails (call : ℕ)
  | turnEnds (call : ℕ) (status : TurnOutcomeStatus) (now : ℤ)
  | release (call : ℕ)

namespace CodexSessions

variable (s : CodexSessions κ)

def step : Action κ → Option (CodexSessions κ)
  | .handle task aborted => some (s.handle task aborted)
  | .chain call =>
      if s.locks.enabled (.chain call) then some { s with locks := s.locks.chain call } else none
  | .adopt call =>
      if s.locks.enabled (.adopt call) then some { s with locks := s.locks.adopt call } else none
  | .enter call aborted =>
      (s.runs[call]?).bind fun run =>
        if s.locks.enabled (.enter call) then some (s.enter call run aborted) else none
  | .leave call aborted =>
      (s.runs[call]?).bind fun run =>
        if run.stage = .entered then
          some (s.setRun call
            { run with stage := .ended (if aborted then .canceled else .failed) })
        else none
  | .lookup call now =>
      (s.runs[call]?).bind fun run =>
        if run.stage = .entered then some (s.lookup sessionTtlMs call run now) else none
  | .resumed call =>
      (s.runs[call]?).bind fun run =>
        if run.stage = .requested ∧ run.existing.isSome then some (s.resumed call run) else none
  | .started call threadId now =>
      (s.runs[call]?).bind fun run =>
        if run.stage = .requested ∧ run.existing = none then
          some (s.started sessionTtlMs call run threadId now)
        else none
  | .threadFails call =>
      (s.runs[call]?).bind fun run =>
        if run.stage = .requested then some (s.threadFails sessionTtlMs call run) else none
  | .turnEnds call status now =>
      (s.runs[call]?).bind fun run =>
        if run.stage = .turn then some (s.turnEnds sessionTtlMs call run status now) else none
  | .release call =>
      (s.runs[call]?).bind fun run =>
        match run.stage with
        | .ended state => some (s.release call run state)
        | _ => none

/-- The threads that were started. -/
def startedThreads : List String := s.runs.filterMap (·.observedThreadId)

end CodexSessions

def system : System (CodexSessions κ) (Action κ) where
  init s := s = {}
  step s a s' := s.step sessionTtlMs a = some s'

/-- The app-server names each new thread by an id of its own. -/
def NewThreads (s : CodexSessions κ) : Action κ → Prop
  | .started _ threadId _ => threadId ≠ "" ∧ threadId ∉ s.startedThreads
  | _ => True

instance (s : CodexSessions κ) : DecidablePred (NewThreads s)
  | .started _ threadId _ =>
      inferInstanceAs (Decidable (threadId ≠ "" ∧ threadId ∉ s.startedThreads))
  | .handle _ _ | .chain _ | .adopt _ | .enter _ _ | .leave _ _ | .lookup _ _ | .resumed _
  | .threadFails _ | .turnEnds _ _ _ | .release _ => isTrue trivial

end VicoopBridge.CodexThreads
