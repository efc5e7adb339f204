import Mathlib.Logic.Function.Basic
import VicoopBridge.Library.InsertionMap
import VicoopBridge.Model.OpenclawHandle

/-! # Routing gateway events to tasks

All tasks of the OpenClaw backend share one gateway connection at a time. A chat event finds its
task by the run id of the gateway, which is known once `chat.send` is answered; events that come
before that wait in a buffer. A task is here from its registration to the end of its `finally`
block. What it does with its events is its own. -/

namespace VicoopBridge

open Library

inductive GatewayPhase where
  | sending
  | settling
  | returned
  deriving DecidableEq, Repr

/-- `gatewayRunId` is the id the gateway gives the run. `runId` is the one `handle` knows. -/
structure GatewayRun where
  taskId : String
  sessionKey : String
  connection : ℕ
  ownedSession : Bool
  phase : GatewayPhase := .sending
  runId : Option String := none
  gatewayRunId : Option String := none
  deriving DecidableEq

structure RunTask where
  taskId : String
  sessionKey : String
  deriving DecidableEq

/-- The handler of the owner is the one of `run`. -/
structure SessionMessageOwner where
  taskId : String
  run : ℕ
  deriving DecidableEq

/-- Connections are numbered from one. A finalizer is the number of its run, and `settled` is what
the promise of a run is resolved with. `received` are the chat events of every connection, and
`timedOut` and `abortFailed` the runs of which the timer has fired and `chat.abort` has failed. -/
structure OpenclawGateway where
  connection : ℕ := 0
  ready : Bool := false
  runs : List GatewayRun := []
  settled : ℕ → Option FinalizerEvent := fun _ => none
  runToTask : InsertionMap String RunTask := .empty
  taskFinalizers : InsertionMap String ℕ := .empty
  pendingRunEvents : InsertionMap String (List ChatEvent) := .empty
  subscribedSessionKeys : List String := []
  sessionMessageOwners : InsertionMap String SessionMessageOwner := .empty
  recentlyFinalizedRuns : List String := []
  received : ℕ → List ChatEvent := fun _ => []
  timedOut : List ℕ := []
  abortFailed : List ℕ := []

def maxFinalizedRuns : ℕ := 512

def maxBufferedEventsPerRun : ℕ := 64

def maxPendingRunKeys : ℕ := 256

inductive GatewayAction where
  | connect
  | subscribe (sessionKey : String)
  /-- `handle` registers with the connection it got before. -/
  | register (taskId sessionKey : String) (connection : ℕ)
  | acked (run : ℕ) (runId : String)
  /-- The gateway may have started the run all the same. -/
  | sendFailed (run : ℕ) (started : Option String)
  | chatEvent (event : ChatEvent)
  | timeout (run : ℕ) (message : String)
  | abortFailed (run : ℕ) (message : String)
  /-- `handle` returns after the promise of its run is resolved. -/
  | finish (run : ℕ)
  | close (message : String)
  deriving DecidableEq

def gatewayClosedEvent (message : String) : FinalizerEvent where
  runId := ""
  state := .error
  errorMessage := some ("gateway closed: " ++ message)
  cause := some .gatewayClosed

namespace OpenclawGateway

def markRunFinalized (recentlyFinalizedRuns : List String) (runId : String) : List String :=
  if runId ∈ recentlyFinalizedRuns then recentlyFinalizedRuns
  else
    let runs := recentlyFinalizedRuns ++ [runId]
    if maxFinalizedRuns < runs.length then runs.drop 1 else runs

/-- Only the first call of a run counts. -/
def resolveSettled (settled : ℕ → Option FinalizerEvent) (run : ℕ) (event : FinalizerEvent) :
    ℕ → Option FinalizerEvent :=
  Function.update settled run (settled run <|> some event)

/-- Deltas only add to the text of the run. -/
def finalizer (settled : ℕ → Option FinalizerEvent) (run : ℕ) (event : FinalizerEvent) :
    ℕ → Option FinalizerEvent :=
  if event.state = .delta then settled else resolveSettled settled run event

/-- An event of a run that is not known yet. -/
def bufferEvent (pendingRunEvents : InsertionMap String (List ChatEvent)) (p : ChatEvent) :
    InsertionMap String (List ChatEvent) :=
  match pendingRunEvents.get? p.runId with
  | some buf =>
      let buf := if maxBufferedEventsPerRun ≤ buf.length then buf.drop 1 else buf
      pendingRunEvents.set p.runId (buf ++ [p])
  | none =>
      let pending := if maxPendingRunKeys ≤ pendingRunEvents.size
        then pendingRunEvents.trimOldest (pendingRunEvents.size - 1) else pendingRunEvents
      pending.set p.runId [p]

variable (s : OpenclawGateway)

def handleGatewayClose (message : String) : OpenclawGateway :=
  { s with
    ready := false
    pendingRunEvents := .empty
    recentlyFinalizedRuns := []
    subscribedSessionKeys := []
    sessionMessageOwners := .empty
    settled := fun run =>
      if run ∈ s.taskFinalizers.values then
        finalizer s.settled run (gatewayClosedEvent message) run
      else s.settled run }

def onChatEvent (p : ChatEvent) : OpenclawGateway :=
  if p.runId = "" then s
  else
    let s := { s with
      received := Function.update s.received s.connection (s.received s.connection ++ [p]) }
    match s.runToTask.get? p.runId with
    | some binding =>
        { s with
          settled :=
            match s.taskFinalizers.get? binding.taskId with
            | some run => finalizer s.settled run { p with }
            | none => s.settled }
    | none =>
        if p.runId ∈ s.recentlyFinalizedRuns then s
        else { s with pendingRunEvents := bufferEvent s.pendingRunEvents p }

/-- The `finally` block. -/
def cleanup (k : ℕ) (run : GatewayRun) : OpenclawGateway :=
  let runId := run.runId.filter (· ≠ "")
  { s with
    taskFinalizers := s.taskFinalizers.erase run.taskId
    runToTask := (runId.map s.runToTask.erase).getD s.runToTask
    pendingRunEvents := (runId.map s.pendingRunEvents.erase).getD s.pendingRunEvents
    recentlyFinalizedRuns :=
      (runId.map (markRunFinalized s.recentlyFinalizedRuns)).getD s.recentlyFinalizedRuns
    sessionMessageOwners :=
      if run.ownedSession ∧
          (s.sessionMessageOwners.get? run.sessionKey).map SessionMessageOwner.taskId =
            some run.taskId
      then s.sessionMessageOwners.erase run.sessionKey
      else s.sessionMessageOwners
    runs := s.runs.modify k fun run => { run with phase := .returned } }

/-- The run that a registration adds. -/
def newRun (taskId sessionKey : String) (connection : ℕ) : GatewayRun where
  taskId := taskId
  sessionKey := sessionKey
  connection := connection
  ownedSession := sessionKey ∈ s.subscribedSessionKeys ∧
    s.sessionMessageOwners.get? sessionKey = none

/-- The registration as owner of the session and for events. -/
def addRun (run : GatewayRun) : OpenclawGateway :=
  { s with
    runs := s.runs ++ [run]
    taskFinalizers := s.taskFinalizers.set run.taskId s.runs.length
    sessionMessageOwners :=
      if run.ownedSession then
        s.sessionMessageOwners.set run.sessionKey { taskId := run.taskId, run := s.runs.length }
      else s.sessionMessageOwners }

/-- On a connection that has closed `chat.send` fails at once. -/
def register (taskId sessionKey : String) (connection : ℕ) : OpenclawGateway :=
  let run := s.newRun taskId sessionKey connection
  if connection = s.connection ∧ s.ready then s.addRun run
  else (s.addRun run).cleanup s.runs.length run

/-- The answer of `chat.send`. -/
def acked (k : ℕ) (run : GatewayRun) (runId : String) : OpenclawGateway :=
  { s with
    runToTask := s.runToTask.set runId { taskId := run.taskId, sessionKey := run.sessionKey }
    pendingRunEvents := s.pendingRunEvents.erase runId
    settled := ((s.pendingRunEvents.get? runId).getD []).foldl
      (fun settled event => finalizer settled k { event with }) s.settled
    runs := s.runs.modify k fun run =>
      { run with phase := .settling, runId := some runId, gatewayRunId := some runId } }

def sendFailed (k : ℕ) (run : GatewayRun) (started : Option String) : OpenclawGateway :=
  let s := s.cleanup k run
  { s with runs := s.runs.modify k fun run => { run with gatewayRunId := started } }

def apply : GatewayAction → OpenclawGateway
  | .connect => { s with connection := s.connection + 1, ready := true }
  | .subscribe sessionKey =>
      { s with subscribedSessionKeys := s.subscribedSessionKeys ++ [sessionKey] }
  | .register taskId sessionKey connection => s.register taskId sessionKey connection
  | .acked k runId => (s.runs[k]?.map (s.acked k · runId)).getD s
  | .sendFailed k started => (s.runs[k]?.map (s.sendFailed k · started)).getD s
  | .chatEvent event => s.onChatEvent event
  | .timeout k message =>
      { s with
        timedOut := s.timedOut ++ [k]
        settled := resolveSettled s.settled k {
          runId := (s.runs[k]?.bind GatewayRun.runId).getD "", state := .error
          errorMessage := some message, cause := some .timeout } }
  | .abortFailed k message =>
      { s with
        abortFailed := s.abortFailed ++ [k]
        settled := resolveSettled s.settled k {
          runId := (s.runs[k]?.bind GatewayRun.runId).getD "", state := .error
          errorMessage := some message, cause := some .abortFailed } }
  | .finish k => (s.runs[k]?.map (s.cleanup k)).getD s
  | .close message => s.handleGatewayClose message

/-- The answer of a `chat.send` comes on its own connection, if at all. -/
def enabled : GatewayAction → Prop
  | .connect => s.ready = false
  | .subscribe _ | .chatEvent _ | .close _ => s.ready = true
  | .register _ _ connection => 0 < connection ∧ connection ≤ s.connection
  | .acked k _ => ∃ run ∈ s.runs[k]?, run.phase = .sending ∧ run.connection = s.connection
  | .sendFailed k _ => ∃ run ∈ s.runs[k]?, run.phase = .sending
  | .timeout k _ => ∃ run ∈ s.runs[k]?, run.phase ≠ .returned
  | .abortFailed k _ => ∃ run ∈ s.runs[k]?, run.phase ≠ .returned ∧ run.runId.isSome
  | .finish k => ∃ run ∈ s.runs[k]?, run.phase = .settling ∧ (s.settled k).isSome

instance decidableEnabled : ∀ a, Decidable (s.enabled a)
  | .connect => inferInstanceAs (Decidable (s.ready = false))
  | .subscribe _ | .chatEvent _ | .close _ => inferInstanceAs (Decidable (s.ready = true))
  | .register _ _ connection =>
      inferInstanceAs (Decidable (0 < connection ∧ connection ≤ s.connection))
  | .acked k _ => inferInstanceAs
      (Decidable (∃ run ∈ s.runs[k]?, run.phase = .sending ∧ run.connection = s.connection))
  | .sendFailed k _ => inferInstanceAs (Decidable (∃ run ∈ s.runs[k]?, run.phase = .sending))
  | .timeout k _ => inferInstanceAs (Decidable (∃ run ∈ s.runs[k]?, run.phase ≠ .returned))
  | .abortFailed k _ => inferInstanceAs
      (Decidable (∃ run ∈ s.runs[k]?, run.phase ≠ .returned ∧ run.runId.isSome))
  | .finish k => inferInstanceAs
      (Decidable (∃ run ∈ s.runs[k]?, run.phase = .settling ∧ (s.settled k).isSome))

end OpenclawGateway

end VicoopBridge
