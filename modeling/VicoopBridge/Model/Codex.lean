import VicoopBridge.Library.InsertionMap
import VicoopBridge.Model.JsString
import VicoopBridge.Model.Protocol

/-! # The Codex backend

One turn of a task as its notification handler sees it, and the app-server process that all
turns of a backend share. What an asynchronous step waits for comes with the event that ends
the wait. Log lines, timing marks and timestamps are left out. -/

namespace VicoopBridge

open Library

/-! ## JavaScript values -/

/-- `v?.key` -/
def Json.get? (v : Option Json) (key : String) : Option Json :=
  match v with
  | some (.obj fields) => JsonObject.field fields key
  | _ => none

def Json.string? : Option Json → Option String
  | some (.str s) => some s
  | _ => none

def Json.number? : Option Json → Option ℚ
  | some (.num n) => some n
  | _ => none

/-- `text.startsWith(start) ? text.slice(start.length) : ''` -/
def tailAfter (start text : String) : String :=
  match text.toList.dropPrefix? start.toList with
  | some rest => String.ofList rest
  | none => ""

/-- The longest start of at most so many UTF-16 units. -/
def utf16Take : ℕ → List Char → List Char
  | _, [] => []
  | n, c :: cs =>
      if utf16Size c ≤ n then c :: utf16Take (n - utf16Size c) cs else []

def clipTo (text : String) (max : ℕ) : String :=
  if utf16Length text.toList ≤ max then text
  else String.ofList (utf16Take (max - 1) text.toList) ++ "…"

/-! ## Usage -/

structure OpenAICompatUsage where
  promptTokens : ℕ
  completionTokens : ℕ
  totalTokens : ℕ
  model : Option String := none
  cachedTokens : Option ℕ := none
  reasoningTokens : Option ℕ := none
  deriving DecidableEq, Repr

structure OpenAICompatUsageInput where
  promptTokens : ℚ
  completionTokens : ℚ
  model : Option String := none
  cachedTokens : Option ℚ := none
  reasoningTokens : Option ℚ := none

/-- A finite, non-negative integer. -/
def isCount (n : ℚ) : Option ℕ := if 0 ≤ n ∧ n.den = 1 then some n.num.toNat else none

def buildOpenAICompatUsage (input : OpenAICompatUsageInput) : Option OpenAICompatUsage :=
  match isCount input.promptTokens, isCount input.completionTokens with
  | some prompt, some completion => some
      { promptTokens := prompt
        completionTokens := completion
        totalTokens := prompt + completion
        model := input.model.filter (· ≠ "")
        cachedTokens := input.cachedTokens.bind isCount
        reasoningTokens := input.reasoningTokens.bind isCount }
  | _, _ => none

def parseCodexTokenUsageForOpenAICompat (raw : Option Json) : Option OpenAICompatUsage :=
  let last := Json.get? raw "last"
  match Json.number? (Json.get? last "inputTokens"), Json.number? (Json.get? last "outputTokens") with
  | some input, some output => buildOpenAICompatUsage
      { promptTokens := input
        completionTokens := output
        cachedTokens := Json.number? (Json.get? last "cachedInputTokens")
        reasoningTokens := Json.number? (Json.get? last "reasoningOutputTokens") }
  | _, _ => none

def OpenAICompatUsage.toJson (usage : OpenAICompatUsage) : Json :=
  let details (key part : String) : Option ℕ → JsonObject
    | some n => [(key, .obj [(part, .num n)])]
    | none => []
  .obj ([("prompt_tokens", .num usage.promptTokens),
    ("completion_tokens", .num usage.completionTokens), ("total_tokens", .num usage.totalTokens)] ++
    (usage.model.map fun m => ("model", .str m)).toList ++
      details "prompt_tokens_details" "cached_tokens" usage.cachedTokens ++
        details "completion_tokens_details" "reasoning_tokens" usage.reasoningTokens)

def buildOpenAICompatResponseMetadata (envelope : Option JsonObject)
    (usage : Option OpenAICompatUsage) : Option JsonObject :=
  match envelope, usage with
  | some envelope, _ =>
      some [(openaiCompatExtensionUri, .obj [("chat_completion", .obj envelope)])]
  | none, some usage => some [(openaiCompatExtensionUri, .obj [("usage", usage.toJson)])]
  | none, none => none

def toProtocolTaskUsage (usage : Option OpenAICompatUsage) : Option TaskUsage :=
  usage.map fun u =>
    { promptTokens := u.promptTokens
      completionTokens := u.completionTokens
      cachedInputTokens := u.cachedTokens
      model := u.model.filter (· ≠ "") }

/-! ## A turn -/

structure CapturedToolCall where
  id : String
  name : String
  arguments : String
  deriving DecidableEq

def CapturedToolCall.toJson (call : CapturedToolCall) : Json :=
  .obj [("id", .str call.id), ("type", .str "function"),
    ("function", .obj [("name", .str call.name), ("arguments", .str call.arguments)])]

def buildCodexChatCompletionEnvelope (taskId : String) (model content : Option String)
    (toolCalls : List CapturedToolCall) (finishReason : String) (created : ℕ)
    (usage : Option OpenAICompatUsage) : JsonObject :=
  let message : JsonObject :=
    [("role", .str "assistant"), ("content", (content.map Json.str).getD .null)] ++
      if toolCalls = [] then [] else [("tool_calls", .arr (toolCalls.map CapturedToolCall.toJson))]
  [("id", .str ("chatcmpl-codex-" ++ taskId)), ("object", .str "chat.completion"),
    ("created", .num created), ("model", .str (model.getD "codex")),
    ("choices", .arr [.obj [("index", .num 0), ("message", .obj message),
      ("finish_reason", .str finishReason), ("logprobs", .null)]])] ++
    (usage.map fun u => ("usage", u.toJson)).toList

/-- What a `handle` call works with. `stringify` is `JSON.stringify`, `normalizeTaskFailError`
the client's table of failure codes, and `uuids` what the call's `randomUUID`s return. -/
structure CodexTask where
  taskId : String
  threadId : String
  envelope : Bool
  emitTraceArtifacts : Bool
  remoteApprovals : Bool
  turnTimeoutMs : ℕ
  stringify : Json → String
  normalizeTaskFailError : FrameError → FrameError
  uuids : ℕ → String

inductive TurnOutcomeStatus where
  | completed
  | failed (message : String)
  | interrupted
  | aborted
  deriving DecidableEq

structure TurnRunOutcome where
  status : TurnOutcomeStatus
  finalText : Option String
  deriving DecidableEq

/-- A promise callback that is due. -/
inductive TurnJob where
  | started (turnId : String)
  | startFailed (message : String)
  | transportClosed
  deriving DecidableEq

structure DynamicToolCallParams where
  threadId : String
  callId : String
  tool : String
  arguments : Option Json

/-- The variables of one turn. `interrupts` are the turn ids of the `turn/interrupt` requests,
`emitted` the bodies of the frames so far. -/
structure CodexTurn where
  subscribed : Bool := false
  activeTurnId : Option String := none
  finalText : Option String := none
  finalUsage : Option OpenAICompatUsage := none
  emittedAnyArtifact : Bool := false
  capturedToolCall : Bool := false
  interruptRequested : Bool := false
  interruptSent : Bool := false
  interruptTimer : Bool := false
  capturedToolCalls : List CapturedToolCall := []
  responseArtifactId : Option String := none
  streamedResponseText : String := ""
  settled : Option TurnRunOutcome := none
  concluded : Bool := false
  aborted : Bool := false
  abortGracePending : Bool := false
  jobs : List TurnJob := []
  uuidsDrawn : ℕ := 0
  interrupts : List String := []
  emitted : List TaskFrameBody := []
  deriving DecidableEq

def extractAgentMessageDelta (params : Option Json) : String :=
  let delta := Json.get? params "delta"
  match delta with
  | some (.str s) => s
  | _ =>
      ((Json.string? (Json.get? delta "text")).or
        ((Json.string? (Json.get? delta "content")).or
          (Json.string? (Json.get? params "text")))).getD ""

def commandTraceMaxChars : ℕ := 2000

def commandExecutionSummary (stringify : Json → String) (item : Option Json) (redact : Bool) :
    String :=
  let status := (Json.string? (Json.get? item "status")).getD "unknown"
  let result := match Json.number? (Json.get? item "exitCode") with
    | none => " (" ++ status ++ ")"
    | some exit => " (" ++ status ++ ", exit " ++ stringify (.num exit) ++ ")"
  if redact then "command execution" ++ result
  else
    let head := (Json.string? (Json.get? item "command")).getD "<unknown command>" ++ result
    let output := ((Json.string? (Json.get? item "aggregatedOutput")).map trim).getD ""
    clipTo (if output ≠ "" then head ++ "\n" ++ output else head) commandTraceMaxChars

namespace CodexTurn

variable (task : CodexTask) (x : CodexTurn)

def emit (body : TaskFrameBody) : CodexTurn := { x with emitted := x.emitted ++ [body] }

def randomUUID : String := task.uuids x.uuidsDrawn

/-- `client.request('turn/interrupt', …)`, if the turn is known. -/
def requestInterrupt : CodexTurn :=
  match x.activeTurnId with
  | some turnId => if turnId = "" then x else { x with interrupts := x.interrupts ++ [turnId] }
  | none => x

def sendDeferredInterrupt : CodexTurn :=
  if x.interruptSent then x
  else { x with interruptSent := true, interruptTimer := false }.requestInterrupt

def finish (status : TurnOutcomeStatus) : CodexTurn :=
  match x.settled with
  | some _ => x
  | none => { x with
      settled := some { status := status, finalText := x.finalText }, interruptTimer := false }

/-! ### Artifacts -/

def emitAgentArtifact (text : String) (append lastChunk : Bool) : CodexTurn :=
  if text = "" then x
  else
    -- `responseArtifactId ??= randomUUID()`
    let artifactId := x.responseArtifactId.getD (x.randomUUID task)
    { x.emit (.artifact
        { artifactId := artifactId, name := some "codex-message", parts := [.text text] }
        (if append then some true else none) (some lastChunk)) with
      responseArtifactId := some artifactId
      uuidsDrawn := x.uuidsDrawn + (if x.responseArtifactId.isSome then 0 else 1)
      emittedAnyArtifact := true }

def emitCommandTrace (item : Option Json) : CodexTurn :=
  if ¬ task.emitTraceArtifacts then x
  else
    let string (key : String) : JsonObject :=
      match Json.string? (Json.get? item key) with
      | some s => [(key, .str s)]
      | none => []
    let exitCode : JsonObject :=
      match Json.number? (Json.get? item "exitCode") with
      | some n => [("exitCode", .num n)]
      | none => []
    let data := (if task.remoteApprovals then [] else string "command") ++ string "status" ++ exitCode
    { x.emit (.artifact
        { artifactId := x.randomUUID task
          name := some "codex-command-execution"
          parts := [.text (commandExecutionSummary task.stringify item task.remoteApprovals),
            .data data]
          extensions := some [traceabilityExtensionUri]
          metadata := some [("traceType", .str "command-execution")] }
        none (some true)) with
      uuidsDrawn := x.uuidsDrawn + 1, emittedAnyArtifact := true }

/-! ### Notifications -/

/-- `if (activeTurnId && turnId !== activeTurnId) return;` -/
def passes (turnId : Option Json) : Bool :=
  match x.activeTurnId with
  | some active => active = "" ∨ turnId = some (.str active)
  | none => true

def onTokenUsageUpdated (params : Option Json) : CodexTurn :=
  if ¬ x.passes (Json.get? params "turnId") then x
  else
    match parseCodexTokenUsageForOpenAICompat (Json.get? params "tokenUsage") with
    | none => x
    | some parsed =>
        let x := { x with finalUsage := some parsed }
        if x.interruptRequested then x.sendDeferredInterrupt else x

def onItemCompleted (params : Option Json) : CodexTurn :=
  if ¬ x.passes (Json.get? params "turnId") then x
  else
    let item := Json.get? params "item"
    match Json.string? (Json.get? item "type"), Json.string? (Json.get? item "text") with
    | some "agentMessage", some text =>
        let x := { x with finalText := some text }
        if x.streamedResponseText ≠ "" then
          x.emitAgentArtifact task (tailAfter x.streamedResponseText text) true true
        else x.emitAgentArtifact task text false true
    | some "commandExecution", _ => x.emitCommandTrace task item
    | _, _ => x

def onAgentMessageDelta (params : Option Json) : CodexTurn :=
  if ¬ x.passes (Json.get? params "turnId") then x
  else
    let delta := extractAgentMessageDelta params
    if delta = "" then x
    else { x with streamedResponseText := x.streamedResponseText ++ delta }.emitAgentArtifact task
      delta true false

def onTurnCompleted (params : Option Json) : CodexTurn :=
  let t := Json.get? params "turn"
  if ¬ x.passes (Json.get? t "id") then x
  else
    match Json.get? t "status" with
    | some (.str "completed") => x.finish .completed
    | some (.str "interrupted") => x.finish .interrupted
    | status => x.finish (.failed
        ((Json.string? (Json.get? (Json.get? t "error") "message")).getD
          ("turn ended with status " ++ (Json.string? status).getD "unknown")))

/-- The subscription, for as long as the turn is not settled. -/
def onNotification (method : String) (params : Option Json) : CodexTurn :=
  if ¬ x.subscribed ∨ x.settled.isSome then x
  else
    match method with
    | "thread/tokenUsage/updated" => x.onTokenUsageUpdated params
    | "item/completed" => x.onItemCompleted task params
    | "item/agentMessage/delta" => x.onAgentMessageDelta task params
    | "turn/completed" => x.onTurnCompleted params
    | _ => x

/-- The handler of `item/tool/call`. -/
def onToolCall (p : DynamicToolCallParams) : CodexTurn :=
  let arguments := match p.arguments with
    | some (.str s) => s
    | some .null | none => task.stringify (.obj [])
    | some value => task.stringify value
  let x := { x with
    capturedToolCall := true
    capturedToolCalls := x.capturedToolCalls ++ [⟨p.callId, p.tool, arguments⟩] }
  if x.interruptRequested then x
  else { x with interruptRequested := true, interruptTimer := true }

/-! ### Timers and signals -/

def onAbort : CodexTurn := { x.requestInterrupt with abortGracePending := true }

/-- The subscription and `turn/start`. On a closed transport the two callbacks are due at
once. -/
def start (closed : Bool) : CodexTurn :=
  let x := { x with subscribed := true }
  let x := if x.aborted then x.onAbort else x
  if closed then
    { x with jobs := x.jobs ++ [.transportClosed, .startFailed "transport_closed"] }
  else x

def runJob : CodexTurn :=
  match x.jobs with
  | [] => x
  | job :: jobs =>
      let x := { x with jobs := jobs }
      match job with
      | .started turnId => { x with activeTurnId := some turnId }
      | .startFailed message => x.finish (.failed ("turn/start failed: " ++ message))
      | .transportClosed => x.finish (.failed "codex app-server transport closed during turn")

def heartbeat : CodexTurn :=
  if ¬ x.subscribed ∨ x.settled.isSome ∨ x.aborted then x
  else x.emit (.status { state := .working }
    (some [(openaiCompatExtensionUri, .obj [("heartbeat", .bool true)])]))

/-! ### The end of the task -/

def complete (outcome : TurnRunOutcome) (created : ℕ) : CodexTurn :=
  let completeText := outcome.finalText.getD ""
  let parts : List WirePart :=
    if ¬ x.capturedToolCall ∧ completeText ≠ "" then [.text completeText] else []
  let x :=
    if ¬ x.emittedAnyArtifact ∧ completeText ≠ "" then
      { x.emit (.artifact { artifactId := x.randomUUID task, name := some "codex-result"
                            parts := parts } none (some true)) with
        uuidsDrawn := x.uuidsDrawn + 1 }
    else x
  let called := x.capturedToolCalls ≠ []
  let finalUsageSnapshot :=
    if task.envelope ∧ x.finalUsage = none then
      buildOpenAICompatUsage { promptTokens := 0, completionTokens := 0 }
    else x.finalUsage
  let responseEnvelope :=
    if task.envelope then
      some (buildCodexChatCompletionEnvelope task.taskId (finalUsageSnapshot.bind (·.model))
        (if called then none else some completeText) x.capturedToolCalls
        (if called then "tool_calls" else "stop") created finalUsageSnapshot)
    else none
  let messageMetadata := buildOpenAICompatResponseMetadata responseEnvelope x.finalUsage
  let message : Option WireMessage :=
    if parts ≠ [] ∨ messageMetadata.isSome then
      some { role := .agent, messageId := x.randomUUID task, parts := parts
             metadata := messageMetadata
             extensions := messageMetadata.map fun _ => [openaiCompatExtensionUri] }
    else none
  { x.emit (.complete { state := .completed, message := message }
      (toProtocolTaskUsage x.finalUsage)) with
    uuidsDrawn := x.uuidsDrawn + (if message.isSome then 1 else 0) }

/-- From the outcome of the turn to the terminal frame of the task. -/
def conclude (created : ℕ) : CodexTurn :=
  match x.settled with
  | none => x
  | some outcome =>
      if x.concluded then x
      else
        let x := { x with concluded := true }
        let callerAborted := outcome.status = .aborted ∨ x.aborted
        match outcome.status with
        | .failed message =>
            x.emit (.fail (task.normalizeTaskFailError ⟨"turn_failed", message⟩))
        | .completed => x.complete task outcome created
        | .interrupted | .aborted =>
            if x.capturedToolCall ∧ ¬ callerAborted then x.complete task outcome created
            else x.emit (.complete { state := .canceled } none)

end CodexTurn

/-- What can reach one turn. -/
inductive TurnEvent where
  | start (closed : Bool)
  | response (result : Except String String)
  | transportClosed
  | job
  | notification (method : String) (params : Option Json)
  | toolCall (p : DynamicToolCallParams)
  | abort
  | abortGrace
  | interruptTimer
  | turnTimeout
  | heartbeat
  | conclude (created : ℕ)

def CodexTurn.handle (task : CodexTask) (x : CodexTurn) : TurnEvent → CodexTurn
  | .start closed => x.start closed
  | .response (.ok turnId) => { x with jobs := x.jobs ++ [.started turnId] }
  | .response (.error message) => { x with jobs := x.jobs ++ [.startFailed message] }
  | .transportClosed => { x with jobs := x.jobs ++ [.transportClosed] }
  | .job => x.runJob
  | .notification method params => x.onNotification task method params
  | .toolCall p => x.onToolCall task p
  | .abort =>
      if x.aborted then x
      else
        let x := { x with aborted := true }
        if x.subscribed ∧ x.settled = none then x.onAbort else x
  | .abortGrace => if x.abortGracePending then x.finish .aborted else x
  | .interruptTimer => if x.interruptTimer then x.sendDeferredInterrupt else x
  | .turnTimeout =>
      if x.subscribed ∧ 0 < task.turnTimeoutMs then
        x.finish (.failed ("turn timed out after " ++ toString task.turnTimeoutMs ++ "ms"))
      else x
  | .heartbeat => x.heartbeat
  | .conclude created => x.conclude task created

/-! ## The shared app-server process -/

abbrev TurnRef := ℕ

inductive RpcRequest where
  | turnStart (turn : TurnRef)
  | turnInterrupt (turn : TurnRef)
  deriving DecidableEq

/-- The app-server client with the turns that use it. `history` only records what has reached
each turn. -/
structure AppServer where
  nextId : ℕ := 0
  pending : InsertionMap ℕ RpcRequest := .empty
  notificationHandlers : List TurnRef := []
  closeWaiters : List TurnRef := []
  toolCallHandlers : InsertionMap String TurnRef := .empty
  closed : Bool := false
  turns : TurnRef → CodexTurn := fun _ => {}
  history : TurnRef → List TurnEvent := fun _ => []

namespace AppServer

variable (tasks : TurnRef → CodexTask) (s : AppServer)

def request (r : RpcRequest) : AppServer :=
  if s.closed then s else { s with pending := s.pending.set s.nextId r, nextId := s.nextId + 1 }

/-- A turn handles an event. Its handler is removed once it has settled. -/
def deliver (k : TurnRef) (event : TurnEvent) : AppServer :=
  let before := s.turns k
  let after := before.handle (tasks k) event
  let s := { s with
    turns := Function.update s.turns k after
    history := Function.update s.history k (s.history k ++ [event])
    notificationHandlers :=
      if after.settled = none then s.notificationHandlers
      else s.notificationHandlers.filter (· ≠ k) }
  (after.interrupts.drop before.interrupts.length).foldl
    (fun s _ => s.request (.turnInterrupt k)) s

def start (k : TurnRef) : AppServer :=
  if (s.turns k).subscribed then s
  else
    let s := { s with
      notificationHandlers := s.notificationHandlers ++ [k]
      closeWaiters := if s.closed then s.closeWaiters else s.closeWaiters ++ [k]
      toolCallHandlers :=
        if (tasks k).envelope then s.toolCallHandlers.set (tasks k).threadId k
        else s.toolCallHandlers }
    (s.deliver tasks k (.start s.closed)).request (.turnStart k)

def onResponse (id : ℕ) (result : Except String String) : AppServer :=
  match s.pending.get? id with
  | none => s
  | some request =>
      let s := { s with pending := s.pending.erase id }
      match request with
      | .turnStart k => s.deliver tasks k (.response result)
      | .turnInterrupt _ => s

def onNotification (method : String) (params : Option Json) : AppServer :=
  s.notificationHandlers.foldl (fun s k => s.deliver tasks k (.notification method params)) s

def onToolCall (p : DynamicToolCallParams) : AppServer :=
  match s.toolCallHandlers.get? p.threadId with
  | some k => s.deliver tasks k (.toolCall p)
  | none => s

/-- The pending requests are rejected before the waiters are told. -/
def handleTransportEnd (detail : String) : AppServer :=
  if s.closed then s
  else
    let requests := s.pending.values
    let waiters := s.closeWaiters
    let s := { s with closed := true, pending := .empty, closeWaiters := [] }
    let s := requests.foldl (fun s request =>
      match request with
      | .turnStart k => s.deliver tasks k (.response (.error ("transport_closed" ++ detail)))
      | .turnInterrupt _ => s) s
    waiters.foldl (fun s k => s.deliver tasks k .transportClosed) s

def conclude (k : TurnRef) (created : ℕ) : AppServer :=
  if (s.turns k).settled = none then s
  else
    let s := s.deliver tasks k (.conclude created)
    if (tasks k).envelope then
      { s with toolCallHandlers := s.toolCallHandlers.erase (tasks k).threadId }
    else s

end AppServer

end VicoopBridge
