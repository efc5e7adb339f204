import VicoopBridge.Model.CallerBlock
import VicoopBridge.Model.OpenAICompat

/-! # From the messages of a request to the items of a thread

The earlier turns of a request become a history, and a history the items that are injected into a
thread of Codex. -/

namespace VicoopBridge.OpenAICompat

open Library
open Library.JsonText (Value)

/-! ## The projection of the messages -/

def textPart (text : JsText) : Value :=
  .object [(JsText.ofAscii "type", .string (JsText.ofAscii "text")),
    (JsText.ofAscii "text", .string text)]

def imageUrlPart (url : JsText) (detail : Option JsText) : Value :=
  .object [(JsText.ofAscii "type", .string (JsText.ofAscii "image_url")),
    (JsText.ofAscii "image_url", .object ((JsText.ofAscii "url", .string url) ::
      (detail.map fun detail => (JsText.ofAscii "detail", Value.string detail)).toList))]

/-- Parts of an unknown type are kept as they are. -/
def parseContentPart (raw : Value) : Option Value :=
  match raw with
  | .object p =>
      match string? (field p "type") with
      | some type =>
          if type = [] then none
          else if type = JsText.ofAscii "text" then (string? (field p "text")).map textPart
          else if type = JsText.ofAscii "image_url" then
            match field p "image_url" with
            | some iu =>
                match string? (property iu "url") with
                | some url =>
                    if url = [] then none
                    else some (imageUrlPart url (string? (property iu "detail")))
                | none => none
            | none => none
          else some raw
      | none => none
  | _ => none

def parseUserOrAssistantContent (raw : Option Value) : Option Value :=
  match raw with
  | some (.string s) => some (.string s)
  | some (.array []) => none
  | some (.array items) => (items.mapM parseContentPart).map .array
  | _ => none

/-- What one part of a tool's result gives to its text. -/
def resultSection (item : Value) : Option JsText :=
  match item with
  | .object _ => string? (property item "text")
  | .string s => some s
  | _ => none

def normalizeToolResultContent (raw : Option Value) : JsText :=
  match raw with
  | none => []
  | some .null => []
  | some (.string s) => s
  | some (.array items) => [JsonText.lineFeed].intercalate (items.filterMap resultSection)
  | some value => JsonText.compact value

def roleField (role : String) : JsText × Value :=
  (JsText.ofAscii "role", .string (JsText.ofAscii role))

def contentField (content : Value) : JsText × Value := (JsText.ofAscii "content", content)

/-- No text at all. -/
def isBlank (content : Option Value) : Bool :=
  match content with
  | none => true
  | some .null => true
  | some (.string s) => s = []
  | _ => false

def parseAssistant (e : HistoryEntry) : Option HistoryEntry :=
  let content := parseUserOrAssistantContent (field e "content")
  match field e "tool_calls" with
  | some (.array (call :: calls)) =>
      let content := if isBlank (field e "content") then some .null else content
      content.map fun content => [roleField "assistant", contentField content,
        (JsText.ofAscii "tool_calls", .array (call :: calls))]
  | _ => content.map fun content => [roleField "assistant", contentField content]

def parseTool (e : HistoryEntry) : Option HistoryEntry :=
  match string? (field e "tool_call_id") with
  | some id =>
      if id = [] then none
      else
        some ([roleField "tool", (JsText.ofAscii "tool_call_id", .string id),
          contentField (.string (normalizeToolResultContent (field e "content")))] ++
          ((string? (field e "name")).filter (· ≠ []) |>.map fun name =>
            (JsText.ofAscii "name", Value.string name)).toList)
  | none => none

def parseHistoryEntry (e : HistoryEntry) : Option HistoryEntry :=
  if hasRole e "user" then
    (parseUserOrAssistantContent (field e "content")).map fun content =>
      [roleField "user", contentField content]
  else if hasRole e "assistant" then parseAssistant e
  else if hasRole e "tool" then parseTool e
  else none

def entry? : Value → Option HistoryEntry
  | .object fields => some fields
  | _ => none

/-- The messages but for a last one of the user. -/
def withoutTrailingUser (messages : List Value) : List Value :=
  if (messages.getLast?.bind entry?).any (hasRole · "user") then messages.dropLast else messages

/-- The entries of the earlier turns. -/
def earlierEntries (messages : List Value) : List HistoryEntry :=
  ((withoutTrailingUser messages).filterMap entry?).filter fun e =>
    !hasRole e "system" && !hasRole e "developer"

/-- One entry that cannot be read drops them all. -/
def parsedHistory (messages : List Value) : Option (List HistoryEntry) :=
  (earlierEntries messages).mapM parseHistoryEntry

def chatHistoryFromMessages (messages : List Value) : Option (List HistoryEntry) :=
  match parsedHistory messages with
  | some (entry :: rest) => some (repairOrphanedToolCalls (entry :: rest))
  | _ => none

end VicoopBridge.OpenAICompat

namespace VicoopBridge.CodexHistory

open Library OpenAICompat
open Library.JsonText (Value)
open CallerBlock (neutralizeCallerContextMarkers)

inductive MessageRole where
  | user
  | assistant
  deriving DecidableEq

/-- A message has its only part, `input_text` for the user and `output_text` for the assistant. -/
inductive ResponsesApiItem where
  | message (role : MessageRole) (text : JsText)
  | functionCall (callId name arguments : JsText)
  | functionCallOutput (callId output : JsText)
  deriving DecidableEq

/-- The text of a part that is worth a line. -/
def partText (part : Value) : Option JsText :=
  if string? (property part "type") = some (JsText.ofAscii "text") then
    (string? (property part "text")).filter (· ≠ [])
  else none

/-- The text of the only part, if there is one. -/
def chatHistoryContentToCodexParts (content : Option Value) : Option JsText :=
  let flat :=
    match content with
    | some (.string s) => if s = [] then [] else [s]
    | some (.array parts) => parts.filterMap partText
    | _ => []
  match flat with
  | [] => none
  | flat => some (neutralizeCallerContextMarkers
      ([JsonText.lineFeed, JsonText.lineFeed].intercalate flat))

def messageItem (role : MessageRole) (entry : HistoryEntry) : List ResponsesApiItem :=
  (chatHistoryContentToCodexParts (field entry "content")).toList.map (.message role)

def argumentsText (fn : Value) : JsText :=
  match property fn "arguments" with
  | some (.string s) => s
  | none => JsonText.compact (.object [])
  | some .null => JsonText.compact (.object [])
  | some value => JsonText.compact value

/-- The item of a call, if it has an id and its function a name. -/
def functionCallItem (tc : Value) : Option ResponsesApiItem :=
  match string? (property tc "id") with
  | some id =>
      if id = [] then none
      else
        match property tc "function" with
        | some fn =>
            match string? (property fn "name") with
            | some name =>
                if name = [] then none
                else
                  some (.functionCall id name (neutralizeCallerContextMarkers (argumentsText fn)))
            | none => none
        | none => none
  | none => none

/-- The calls of an entry of the assistant's. -/
def callItems (entry : HistoryEntry) : List ResponsesApiItem :=
  match field entry "tool_calls" with
  | some (.array calls) => calls.filterMap functionCallItem
  | _ => []

def toolItem (entry : HistoryEntry) : ResponsesApiItem :=
  .functionCallOutput ((string? (field entry "tool_call_id")).getD [])
    (neutralizeCallerContextMarkers ((string? (field entry "content")).getD []))

def itemsOf (entry : HistoryEntry) : List ResponsesApiItem :=
  if hasRole entry "user" then messageItem .user entry
  else if hasRole entry "assistant" then messageItem .assistant entry ++ callItems entry
  else [toolItem entry]

def historyToInjectItems (history : List HistoryEntry) : List ResponsesApiItem :=
  history.flatMap itemsOf

end VicoopBridge.CodexHistory
