import VicoopBridge.Library.InsertionMap
import VicoopBridge.Library.JsonText
import VicoopBridge.Library.LineReader
import VicoopBridge.Model.FederatedPrincipal
import VicoopBridge.Model.JsonData

/-! # The stream of a chat completion

The lines of a stream of server-sent events are folded into one response. Fragments of the answer
and of the reasoning are handed on as they come. -/

namespace VicoopBridge.VicoopCodexStream

open Library

abbrev Data := JsonData JsText

def field (value : Data) (key : String) : Option Data := value.get? (JsText.ofAscii key)

def string? (value : Option Data) : Option JsText := value.bind JsonData.string?

/-- The string, when it has characters. -/
def text? (value : Option Data) : Option JsText := (string? value).filter (· ≠ [])

def number? (value : Option Data) : Option JsonNumber := value.bind JsonData.number?

structure ToolCallBuffer where
  id : Option JsText := none
  type : Option JsText := none
  name : Option JsText := none
  arguments : JsText := []
  deriving DecidableEq

structure StreamAccumulator where
  id : Option JsText := none
  model : Option JsText := none
  created : Option JsonNumber := none
  content : JsText := []
  toolCalls : InsertionMap JsonNumber ToolCallBuffer := .empty
  finishReason : Option JsText := none
  usage : Option Data := none

/-- A call of `onReasoningDelta` or of `onContentDelta`. -/
inductive Delta where
  | reasoning (text : JsText)
  | content (text : JsText)
  deriving DecidableEq

inductive Stop where
  | done
  /-- An error frame, with the message of the rejection. -/
  | error (message : JsText)
  /-- Reading a property of `null` has thrown. -/
  | threw
  deriving DecidableEq

structure Fold where
  acc : StreamAccumulator := {}
  deltas : List Delta := []
  stopped : Option Stop := none

/-! ## Chunks -/

/-- `chunk.choices?.[0]` -/
def firstChoice (chunk : Data) : Option Data :=
  match field chunk "choices" with
  | some (.array items) => items.head?
  | some (.object fields) => field (.object fields) "0"
  | _ => none

/-- `choice.delta`, of a value without properties none. -/
def deltaOf (chunk : Data) : Option Data := (firstChoice chunk).bind (field · "delta")

def reasoningOf (chunk : Data) : Option JsText :=
  text? ((deltaOf chunk).bind (field · "reasoning_content"))

def contentOf (chunk : Data) : Option JsText := text? ((deltaOf chunk).bind (field · "content"))

/-- The entries of `delta.tool_calls`, when it is an array. -/
def toolCallsOf (chunk : Data) : List Data :=
  match (deltaOf chunk).bind (field · "tool_calls") with
  | some (.array items) => items
  | _ => []

def indexOf (tc : Data) : JsonNumber := (number? (field tc "index")).getD (.finite 0)

/-- The fragment of the arguments, or nothing. -/
def argumentsOf (tc : Data) : JsText :=
  (string? ((field tc "function").bind (field · "arguments"))).getD []

def ToolCallBuffer.add (cur : ToolCallBuffer) (tc : Data) : ToolCallBuffer where
  id := (string? (field tc "id")).or cur.id
  type := (string? (field tc "type")).or cur.type
  name := (string? ((field tc "function").bind (field · "name"))).or cur.name
  arguments := cur.arguments ++ argumentsOf tc

/-- The loop over the fragments of calls. It throws at `null`. -/
def addToolCalls (toolCalls : InsertionMap JsonNumber ToolCallBuffer) :
    List Data → Option (InsertionMap JsonNumber ToolCallBuffer)
  | [] => some toolCalls
  | .null :: _ => none
  | tc :: rest =>
      let cur := (toolCalls.get? (indexOf tc)).getD {}
      addToolCalls (toolCalls.set (indexOf tc) (cur.add tc)) rest

/-- What a chunk says of the response as a whole. -/
def StreamAccumulator.head (acc : StreamAccumulator) (chunk : Data) : StreamAccumulator :=
  { acc with
    id := (text? (field chunk "id")).or acc.id
    model := (text? (field chunk "model")).or acc.model
    created := (number? (field chunk "created")).or acc.created
    usage := ((field chunk "usage").filter (JsonData.truthy [])).or acc.usage
    finishReason :=
      (string? ((firstChoice chunk).bind (field · "finish_reason"))).or acc.finishReason
    content := acc.content ++ (contentOf chunk).getD [] }

def deltasOf (chunk : Data) : List Delta :=
  (reasoningOf chunk).toList.map .reasoning ++ (contentOf chunk).toList.map .content

def applyChunk (s : Fold) (chunk : Data) : Fold × Bool :=
  let acc := s.acc.head chunk
  let deltas := s.deltas ++ deltasOf chunk
  match addToolCalls acc.toolCalls (toolCallsOf chunk) with
  | some toolCalls => ({ s with acc := { acc with toolCalls }, deltas }, false)
  | none => ({ s with acc, deltas, stopped := some .threw }, true)

/-! ## Lines -/

def defaultMessage : JsText :=
  JsText.ofAscii "vicoop-codex serve reported an upstream error with no message"

def messagePrefix : JsText := JsText.ofAscii "vicoop-codex serve stream error: "

/-- The message of an error frame: `chunk.error` is an object or an array. -/
def errorFrame (chunk : Data) : Option JsText :=
  match field chunk "error" with
  | some (.object fields) =>
      some (messagePrefix ++ (text? (field (.object fields) "message")).getD defaultMessage)
  | some (.array _) => some (messagePrefix ++ defaultMessage)
  | _ => none

def stop (s : Fold) (reason : Stop) : Fold × Bool := ({ s with stopped := some reason }, true)

-- `JSON.parse`, none where it throws
variable (parse : JsText → Option Data)

def consume (s : Fold) (data : JsText) : Fold × Bool :=
  if data = JsText.ofAscii "[DONE]" then stop s .done
  else
    match parse data with
    | none => (s, false)
    | some .null => stop s .threw
    | some chunk =>
        match errorFrame chunk with
        | some message => stop s (.error message)
        | none => applyChunk s chunk

def carriageReturn : UInt16 := 0xD

/-- `line.replace(/\r$/, '')` -/
def withoutReturn (line : JsText) : JsText :=
  if line.getLast? = some carriageReturn then line.dropLast else line

def dataField : JsText := JsText.ofAscii "data:"

/-- The payload of a `data:` line, if it has one. -/
def payload (line : JsText) : Option JsText :=
  let line := withoutReturn line
  if line.take 5 = dataField then (some (JsText.trim (line.drop 5))).filter (· ≠ []) else none

def onLine (s : Fold) (line : JsText) : Fold × Bool :=
  match payload line with
  | some data => consume parse s data
  | none => (s, false)

/-- The loop over the pieces, and the line that has not ended. -/
def readPieces (buf : JsText) (s : Fold) : List JsText → Fold
  | [] => (onLine parse s buf).1
  | piece :: rest =>
      let text := buf ++ piece
      match LineReader.drain JsonText.lineFeed (onLine parse) text.length text s with
      | (_, s, true) => s
      | (buf, s, false) => readPieces buf s rest

/-! ## The response -/

structure ToolCall where
  id : Option JsText
  type : JsText
  name : Option JsText
  arguments : JsText
  deriving DecidableEq

/-- One choice, of the assistant. -/
structure ChatCompletionResponse where
  id : Option JsText
  created : Option JsonNumber
  model : Option JsText
  content : Option JsText
  toolCalls : List ToolCall
  finishReason : JsText
  usage : Option Data

def toToolCall (t : ToolCallBuffer) : ToolCall where
  id := t.id
  type := t.type.getD (JsText.ofAscii "function")
  name := t.name
  arguments := t.arguments

def indexLe (a b : JsonNumber × ToolCallBuffer) : Bool := a.1.value ≤ b.1.value

def sortedCalls (acc : StreamAccumulator) : List (JsonNumber × ToolCallBuffer) :=
  acc.toolCalls.entries.mergeSort indexLe

def synthesizeStreamedResponse (acc : StreamAccumulator) : ChatCompletionResponse :=
  let toolCalls := (sortedCalls acc).map fun entry => toToolCall entry.2
  { id := acc.id
    created := acc.created
    model := acc.model
    content := if toolCalls = [] then some acc.content else none
    toolCalls
    finishReason := acc.finishReason.getD
      (if toolCalls = [] then JsText.ofAscii "stop" else JsText.ofAscii "tool_calls")
    usage := acc.usage }

inductive Rejection where
  | upstream (message : JsText)
  | interrupted
  deriving DecidableEq

/-- What has been called on the way, and how the promise settles. -/
structure Streamed where
  deltas : List Delta
  result : Except Rejection ChatCompletionResponse

def Fold.streamed (s : Fold) : Streamed where
  deltas := s.deltas
  result :=
    match s.stopped with
    | some (.error message) => .error (.upstream message)
    | some .threw => .error .interrupted
    | _ => .ok (synthesizeStreamedResponse s.acc)

/-- An answer with status 200 whose body comes in these pieces, and ends. -/
def streamChatCompletions (pieces : List JsText) : Streamed :=
  (readPieces parse [] {} pieces).streamed

end VicoopBridge.VicoopCodexStream
