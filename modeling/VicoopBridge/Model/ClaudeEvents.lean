import Mathlib.Data.List.Infix
import VicoopBridge.Library.LineReader
import VicoopBridge.Library.Utf8Decoder
import VicoopBridge.Model.Codex

/-! # What a Claude child says

The child writes events, one to a line. The reader parses each line and hands the event to a handler
that keeps the account of the run. Only the parsing is guarded. -/

namespace VicoopBridge

open Library

namespace Json

def array? : Json → Option (List Json)
  | .arr items => some items
  | _ => none

/-- The string under a property. -/
def stringAt (value : Json) (key : String) : Option String := string? (value.property key)

/-- `value.key === text` -/
def isAt (value : Json) (key text : String) : Bool := value.property key = some (.str text)

/-- The value under a property that is an object or an array. -/
def objectAt (value : Json) (key : String) : Option Json :=
  match value.property key with
  | some (.obj fields) => some (.obj fields)
  | some (.arr items) => some (.arr items)
  | _ => none

end Json

/-- `raw.replace(/\[[^\]]+\]$/, '')` -/
def normalizeClaudeModelId (raw : String) : String :=
  match raw.toList.reverse with
  | ']' :: rest =>
      let tail := (rest.takeWhile (· ≠ ']')).reverse
      let suffix := tail.dropWhile (· ≠ '[')
      if suffix.length ≤ 1 then raw
      else String.ofList (raw.toList.take (raw.toList.length - (suffix.length + 1)))
  | _ => raw

/-! ## The parts of an event -/

def extractAssistantText (content : Option Json) : String :=
  match content.bind Json.array? with
  | none => ""
  | some blocks => blocks.foldl (fun out block =>
      if block.isAt "type" "text" then out ++ (block.stringAt "text").getD "" else out) ""

/-- The text of a delta of one kind, or of the block of that kind that a message starts with. -/
def extractClaudeStreamPart (evt : Json) (delta block key : String) : String :=
  match evt.objectAt "event" with
  | none => ""
  | some e =>
      let started :=
        if e.isAt "type" "content_block_start" then
          (e.objectAt "content_block").bind fun b =>
            if b.isAt "type" block then b.stringAt key else none
        else none
      if e.isAt "type" "content_block_delta" then
        ((e.objectAt "delta").bind fun d =>
          if d.isAt "type" delta then d.stringAt key else none).getD (started.getD "")
      else started.getD ""

def extractClaudeStreamTextDelta (evt : Json) : String :=
  extractClaudeStreamPart evt "text_delta" "text" "text"

def extractClaudeStreamReasoningDelta (evt : Json) : String :=
  extractClaudeStreamPart evt "thinking_delta" "thinking" "thinking"

structure ToolUseBlock where
  toolName : String
  toolUseId : String
  input : Option Json

def extractAssistantToolUses (content : Option Json) : List ToolUseBlock :=
  ((content.bind Json.array?).getD []).filterMap fun b =>
    if b.isAt "type" "tool_use" then
      some ⟨(b.stringAt "name").getD "<unknown>", (b.stringAt "id").getD "", b.property "input"⟩
    else none

structure TaskCompletion where
  toolUseId : String
  description : String
  isError : Bool

def extractTaskCompletions (content : Option Json) (registry : List (String × String)) :
    List TaskCompletion :=
  ((content.bind Json.array?).getD []).filterMap fun b =>
    if b.isAt "type" "tool_result" then
      (b.stringAt "tool_use_id").bind fun id => (registry.lookup id).map fun description =>
        ⟨id, description, b.property "is_error" = some (.bool true)⟩
    else none

/-- The type and the bytes of an image or a document. -/
def extractToolResultMediaParts (content : Option Json) : List (String × String) :=
  ((content.bind Json.array?).getD []).flatMap fun b =>
    if b.isAt "type" "tool_result" then
      (((b.property "content").bind Json.array?).getD []).filterMap fun i =>
        if i.isAt "type" "image" || i.isAt "type" "document" then
          (i.property "source").bind fun src =>
            if src.isAt "type" "base64" then
              (src.stringAt "media_type").bind fun mime => (src.stringAt "data").map (mime, ·)
            else none
        else none
    else []

def Json.numberAt (value : Json) (key : String) : ℚ := (Json.number? (value.property key)).getD 0

/-- The sums over the models. -/
def parseClaudeModelUsageForOpenAICompat (raw : Option Json) : Option OpenAICompatUsage :=
  match raw with
  | some (.obj fields) =>
      let models := fields.filterMap fun f => match f.2 with
        | .obj m => some (.obj m : Json)
        | _ => none
      let sum (keys : List String) : ℚ :=
        (models.map fun m => (keys.map fun key => m.numberAt key).sum).sum
      let cacheRead := sum ["cacheReadInputTokens"]
      if models.isEmpty then none
      else buildOpenAICompatUsage
        { promptTokens := sum ["inputTokens", "cacheCreationInputTokens", "cacheReadInputTokens"]
          completionTokens := sum ["outputTokens"]
          cachedTokens := if 0 < cacheRead then some cacheRead else none }
  | _ => none

/-! ## The handler -/

/-- What an event makes the run do. An artifact is known by a number that stands for its id. -/
inductive ClaudeEffect where
  | response (artifactId : ℕ) (text : String) (append lastChunk : Bool)
  | reasoning (artifactId : ℕ) (text : String)
  | toolCall (block : ToolUseBlock)
  | subagent (event toolUseId description : String)
  | toolResult (media : List (String × String))
  | requestApproval (requestId toolName : String) (input : Json)
  | denyApproval (requestId : String)
  | cancelApproval (requestId : String)
  | answerQuestion (toolUseId : String)
  | endStdin
  | logSystem (line : String)

/-- `parse` is `JSON.parse`, `stringify` is `JSON.stringify` and `print` is `String`, on what it does
not throw at. `keepsMedia` is the filter on size and on echoes of the caller's own files. -/
structure ClaudeOptions where
  parse : String → Option Json
  stringify : Json → String
  print : Json → String
  keepsMedia : String × String → Bool
  openaiCompatTrace : Bool := false
  remoteApprovals : Bool := false
  reasoningEnabled : Bool := false
  emitTraceArtifacts : Bool := false
  nativeDispatchActive : Bool := false
  usedHistoryCacheSplit : Bool := false

/-- The account of a run. `uuids` counts the artifact ids made so far. -/
structure ClaudeRun where
  settled : Bool := false
  hasStdin : Bool := true
  uuids : ℕ := 0
  responseArtifactId : Option ℕ := none
  reasoningArtifactId : Option ℕ := none
  streamedResponseText : String := ""
  emittedAnyArtifact : Bool := false
  emittedAskUserQuestion : Bool := false
  pendingInputRequest : Option (String × Option Json) := none
  emittedToolUseCount : ℕ := 0
  seenAssistantToolUseIds : List String := []
  activeTaskRuns : List (String × String) := []
  controlRequests : List String := []
  sawUnknownToolError : Bool := false
  sawCompletedResult : Bool := false
  sawErrorResult : Bool := false
  sawBlockingLimit : Bool := false
  historyCacheBudgetTripped : Bool := false
  finalText : Option String := none
  finalUsage : Option OpenAICompatUsage := none
  assistantModel : Option String := none
  initModel : Option String := none
  rateLimit : Option Json := none
  effects : List ClaudeEffect := []

namespace ClaudeRun

variable (opts : ClaudeOptions)

def effect (s : ClaudeRun) (e : ClaudeEffect) : ClaudeRun := { s with effects := s.effects ++ [e] }

def emitAssistantArtifact (s : ClaudeRun) (text : String) (append lastChunk : Bool) : ClaudeRun :=
  if text = "" then s
  else
    let id := s.responseArtifactId.getD s.uuids
    { s with
      uuids := if s.responseArtifactId.isSome then s.uuids else s.uuids + 1
      responseArtifactId := some id
      emittedAnyArtifact := true
      effects := s.effects ++ [.response id text append lastChunk] }

def emitReasoningArtifact (s : ClaudeRun) (text : String) : ClaudeRun :=
  if text = "" then s
  else
    let id := s.reasoningArtifactId.getD s.uuids
    { s with
      uuids := if s.reasoningArtifactId.isSome then s.uuids else s.uuids + 1
      reasoningArtifactId := some id
      emittedAnyArtifact := true
      effects := s.effects ++ [.reasoning id text] }

def emitAssistantTextUpdate (s : ClaudeRun) (text : String) : ClaudeRun :=
  if text = "" then s
  else if s.streamedResponseText = "" then
    emitAssistantArtifact { s with streamedResponseText := text } text true false
  else if s.streamedResponseText.toList <+: text.toList then
    emitAssistantArtifact { s with streamedResponseText := text }
      (String.ofList (text.toList.drop s.streamedResponseText.toList.length)) true false
  else
    emitAssistantArtifact { s with responseArtifactId := none, streamedResponseText := text } text
      false true

/-- An artifact of the trace, where one has been asked for. -/
def emitTrace (s : ClaudeRun) (e : ClaudeEffect) : ClaudeRun :=
  if opts.emitTraceArtifacts then { s.effect e with emittedAnyArtifact := true } else s

def subagentLabel (description : String) : String :=
  if description = "" then "Task" else description

def emitSubagentEventArtifact (s : ClaudeRun) (event toolUseId description : String) : ClaudeRun :=
  s.emitTrace opts (.subagent event toolUseId (subagentLabel description))

def taskDescriptionMaxChars : ℕ := 200

def extractTaskDescription (input : Option Json) : String :=
  match input.bind (·.stringAt "description") with
  | none => ""
  | some description =>
      let trimmed := trim description
      if trimmed = "" then "" else clipTo trimmed taskDescriptionMaxChars

def onControlRequest (s : ClaudeRun) (evt : Json) (requestId : String) : ClaudeRun :=
  if requestId ∈ s.controlRequests then s
  else
    let s := { s with controlRequests := s.controlRequests ++ [requestId] }
    let request := (evt.property "request").getD .null
    match request.stringAt "tool_name", request.property "input" with
    | some toolName, some (.obj input) =>
        if request.isAt "subtype" "can_use_tool" && toolName ≠ "AskUserQuestion" then
          s.effect (.requestApproval requestId toolName (.obj input))
        else s.effect (.denyApproval requestId)
    | _, _ => s.effect (.denyApproval requestId)

def onInit (s : ClaudeRun) (evt : Json) : ClaudeRun :=
  match evt.stringAt "model" with
  | some model =>
      let normalised := normalizeClaudeModelId model
      if model ≠ "" && normalised ≠ "" then { s with initModel := some normalised } else s
  | none => s

/-- `safeToken(String(sys.subtype ?? ''), 60)` throws where no string can be made. -/
def onSystem (s : ClaudeRun) (evt : Json) : ClaudeRun × Bool :=
  match (evt.property "subtype").bind Json.nonNull with
  | some subtype =>
      if subtype.unprintable then (s, true) else (s.effect (.logSystem (opts.print subtype)), false)
  | none => (s.effect (.logSystem ""), false)

def onStreamEvent (s : ClaudeRun) (evt : Json) : ClaudeRun :=
  let reasoning := extractClaudeStreamReasoningDelta evt
  if opts.reasoningEnabled && !s.emittedAskUserQuestion && reasoning ≠ "" then
    s.emitReasoningArtifact reasoning
  else
    let delta := extractClaudeStreamTextDelta evt
    if delta ≠ "" && !s.emittedAskUserQuestion then
      emitAssistantArtifact { s with streamedResponseText := s.streamedResponseText ++ delta } delta
        true false
    else s

/-- One block that uses a tool. -/
def onToolUse (s : ClaudeRun) (tu : ToolUseBlock) : ClaudeRun :=
  if tu.toolUseId ≠ "" && tu.toolUseId ∈ s.seenAssistantToolUseIds then s
  else
    let s := { s with
      seenAssistantToolUseIds :=
        if tu.toolUseId = "" then s.seenAssistantToolUseIds
        else s.seenAssistantToolUseIds ++ [tu.toolUseId]
      emittedToolUseCount := s.emittedToolUseCount + 1 }
    if tu.toolName = "AskUserQuestion" && tu.toolUseId ≠ "" && s.hasStdin then
      { s with
        pendingInputRequest := some (tu.toolUseId, tu.input)
        emittedAskUserQuestion := true
        effects := s.effects ++ [.answerQuestion tu.toolUseId, .endStdin] }
    else
      let s :=
        if opts.emitTraceArtifacts && (tu.toolName = "Agent" || tu.toolName = "Task") &&
            tu.toolUseId ≠ "" then
          let description :=
            if opts.remoteApprovals then "" else extractTaskDescription tu.input
          emitSubagentEventArtifact opts
            { s with
              activeTaskRuns := s.activeTaskRuns.filter (·.1 ≠ tu.toolUseId) ++
                [(tu.toolUseId, description)] }
            "subagent-started" tu.toolUseId description
        else s
      s.emitTrace opts (.toolCall tu)

def onAssistant (s : ClaudeRun) (evt : Json) : ClaudeRun :=
  match evt.property "message" with
  | none => s
  | some message =>
      if !message.isAt "role" "assistant" then s
      else
        let s := match message.stringAt "model" with
          | some model =>
              if model ≠ "" then { s with assistantModel := some (normalizeClaudeModelId model) }
              else s
          | none => s
        if s.emittedAskUserQuestion then s
        else
          (extractAssistantToolUses (message.property "content")).foldl (onToolUse opts)
            (s.emitAssistantTextUpdate (extractAssistantText (message.property "content")))

/-- `text.includes('No such tool available')`, of a content or of its JSON. -/
def saysUnknownTool (content : Json) : Bool :=
  "No such tool available".toList <:+: ((Json.string? (some content)).getD (opts.stringify content)).toList

/-- The scan for a tool that does not exist. It throws at a result without a content, of which
`JSON.stringify` makes no string. -/
def scanToolResults : List Json → Option Bool
  | [] => some false
  | b :: rest =>
      if b.isAt "type" "tool_result" then
        match b.property "content" with
        | none => none
        | some content =>
            if saysUnknownTool opts content then some true else scanToolResults rest
      else scanToolResults rest

def messageContent (evt : Json) : Option Json :=
  (evt.property "message").bind fun message => message.property "content"

def onTaskCompletions (s : ClaudeRun) (content : Option Json) : ClaudeRun :=
  (extractTaskCompletions content s.activeTaskRuns).foldl (fun s done =>
    emitSubagentEventArtifact opts
      { s with activeTaskRuns := s.activeTaskRuns.filter (·.1 ≠ done.toolUseId) }
      (if done.isError then "subagent-failed" else "subagent-completed") done.toolUseId
      done.description) s

def emitToolResultMedia (s : ClaudeRun) (content : Option Json) : ClaudeRun :=
  let media := (extractToolResultMediaParts content).filter opts.keepsMedia
  if media = [] then s else s.emitTrace opts (.toolResult media)

def onUser (s : ClaudeRun) (evt : Json) : ClaudeRun × Bool :=
  let content := messageContent evt
  let scanned :=
    if !s.sawUnknownToolError && opts.nativeDispatchActive then
      scanToolResults opts ((content.bind Json.array?).getD [])
    else some s.sawUnknownToolError
  match scanned with
  | none => (s, true)
  | some saw =>
      let s := onTaskCompletions opts { s with sawUnknownToolError := saw } content
      (s.emitToolResultMedia opts content, false)

/-- `/cache_control/i.test(text)` -/
def mentionsCacheControl (text : String) : Bool :=
  "cache_control".toList <:+: text.toList.map Char.toLower

def onResult (s : ClaudeRun) (evt : Json) : ClaudeRun :=
  let isError := evt.property "is_error" = some (.bool true)
  let result := evt.stringAt "result"
  { s with
    finalText := if s.emittedAskUserQuestion then s.finalText else result.or s.finalText
    sawCompletedResult := s.sawCompletedResult || evt.isAt "terminal_reason" "completed"
    sawErrorResult := s.sawErrorResult || isError
    sawBlockingLimit := s.sawBlockingLimit || isError && evt.isAt "terminal_reason" "blocking_limit"
    historyCacheBudgetTripped := s.historyCacheBudgetTripped ||
      isError && opts.usedHistoryCacheSplit && result.any mentionsCacheControl
    finalUsage := (parseClaudeModelUsageForOpenAICompat (evt.property "modelUsage")).or s.finalUsage
    effects := if s.hasStdin then s.effects ++ [.endStdin] else s.effects }

/-- What is left of `handleEvent` once the control requests and the trace are done with. -/
def onEvent (s : ClaudeRun) (evt : Json) : ClaudeRun × Bool :=
  match evt.stringAt "type" with
  | some "rate_limit_event" =>
      (match (evt.property "rate_limit_info").bind Json.nonNull with
        | some info => { s with rateLimit := some info }
        | none => s, false)
  | some "system" => if evt.isAt "subtype" "init" then (s.onInit evt, false) else s.onSystem opts evt
  | some "stream_event" => (s.onStreamEvent opts evt, false)
  | some "assistant" => (s.onAssistant opts evt, false)
  | some "user" => s.onUser opts evt
  | some "result" => (s.onResult opts evt, false)
  | _ => (s, false)

/-- The line of the trace prints the type. -/
def onTraced (s : ClaudeRun) (evt : Json) : ClaudeRun × Bool :=
  if opts.openaiCompatTrace && (evt.property "type").any Json.unprintable then (s, true)
  else s.onEvent opts evt

/-- The second component says that it throws. -/
def handleEvent (s : ClaudeRun) (evt : Json) : ClaudeRun × Bool :=
  if s.settled then (s, false)
  else if evt = .null then (s, true)  -- `evt.type`
  else match evt.stringAt "type", evt.stringAt "request_id" with
    | some "control_cancel_request", some requestId =>
        (if requestId ∈ s.controlRequests then s.effect (.cancelApproval requestId) else s, false)
    | some "control_request", some requestId =>
        if opts.remoteApprovals then (s.onControlRequest evt requestId, false)
        else s.onTraced opts evt
    | _, _ => s.onTraced opts evt
end ClaudeRun

/-! ## The reader -/

/-- `written` are the bytes of the child so far, and `handled` the events that have been handed to the
handler. `threw` says that the `data` listener has thrown. -/
structure ClaudeReader where
  run : ClaudeRun
  stdoutBuf : List Char := []
  written : List UInt8 := []
  ended : Bool := false
  handled : List Json := []
  threw : Bool := false

namespace ClaudeReader

variable (opts : ClaudeOptions)

/-- A line, trimmed. None where it is empty or not JSON. -/
def parseText (line : List Char) : Option Json :=
  let line := trim (String.ofList line)
  if line = "" then none else opts.parse line

def handle (s : ClaudeReader) (evt : Json) : ClaudeReader × Bool :=
  let (run, threw) := s.run.handleEvent opts evt
  ({ s with run := run, handled := s.handled ++ [evt] }, threw)

def onLine (s : ClaudeReader) (line : List Char) : ClaudeReader × Bool :=
  match parseText opts line with
  | none => (s, false)
  | some evt => s.handle opts evt

/-- The `data` listener of `attachStreams`. -/
def onData (s : ClaudeReader) (chunk : List UInt8) : ClaudeReader :=
  let buffer := s.stdoutBuf ++ decodeUtf8 chunk
  match LineReader.drain '\n' (onLine opts) buffer.length buffer
    { s with stdoutBuf := buffer, written := s.written ++ chunk } with
  | (rest, s, threw) => { s with stdoutBuf := rest, threw := threw }

/-- The end of `awaitChild`. What throws in here is caught. -/
def onClose (s : ClaudeReader) : ClaudeReader :=
  { (onLine opts s s.stdoutBuf).1 with stdoutBuf := [], ended := true }

end ClaudeReader

inductive ClaudeOutput where
  | data (chunk : List UInt8)
  | close

namespace ClaudeReader

variable (opts : ClaudeOptions)

/-- Nothing is read after the end, and nothing happens once the listener has thrown. -/
def step (s : ClaudeReader) (e : ClaudeOutput) : ClaudeReader :=
  if s.threw || s.ended then s
  else match e with
    | .data chunk => onData opts s chunk
    | .close => onClose opts s

/-- A child that is read from its first byte on. -/
def read (run : ClaudeRun) (output : List ClaudeOutput) : ClaudeReader :=
  output.foldl (step opts) { run := run }

end ClaudeReader

/-- The events in a stream: what its lines hold, the last one too once the stream has ended. -/
def claudeEvents (opts : ClaudeOptions) (written : List UInt8) (ended : Bool) : List Json :=
  let lines := LineReader.splitLines 10 written
  (if ended then lines.1 ++ [lines.2] else lines.1).filterMap fun line =>
    ClaudeReader.parseText opts (decodeUtf8 line)

end VicoopBridge
