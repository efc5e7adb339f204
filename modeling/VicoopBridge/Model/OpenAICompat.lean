import Mathlib.Data.PNat.Notation
import Mathlib.Data.Rat.Defs
import VicoopBridge.Library.JsonText
import VicoopBridge.Model.FederatedPrincipal

/-! # The history of a chat

The earlier turns of a conversation as they are given to a model: how calls without a result get
one, how tools are named, and how the text is cut into blocks. -/

namespace VicoopBridge

open Library
open Library.JsonText (Value)

/-- One entry of a history: a JSON object. -/
abbrev HistoryEntry := List (JsText × Value)

structure ChatHistoryBlock where
  text : JsText
  cache : Bool

/-- A number of the source's language. -/
inductive JsNumber where
  | nan
  | infinite (negative : Bool)
  | finite (value : ℚ)

/-- `length < bound` -/
def JsNumber.exceeds (length : ℕ) : JsNumber → Bool
  | .nan => false
  | .infinite negative => !negative
  | .finite value => (length : ℚ) < value

structure ChatHistoryOptions where
  split : Bool := false
  minFrozenChars : Option JsNumber := none
  stepEntries : Option ℕ+ := none

namespace OpenAICompat

def minCacheableFrozenChars : JsNumber := .finite 16000

def freezeStepEntries : ℕ+ := 10

/-! ## The text of a history -/

def entrySeparator : JsText := JsText.ofAscii ",\n"

def historyOpening : JsText := JsText.ofAscii "<chat_history>\n[\n"

def historyClosing : JsText := JsText.ofAscii "\n]\n</chat_history>"

def serializeHistoryEntries (entries : List HistoryEntry) : JsText :=
  entrySeparator.intercalate
    (entries.map fun e =>
      JsText.ofAscii "  " ++ JsonText.deepen (JsonText.stringify (.object e)))

def formatChatHistory : List HistoryEntry → JsText
  | [] => []
  | history =>
      (JsText.ofAscii "\n").intercalate
        [JsText.ofAscii "<chat_history>", JsonText.stringify (.array (history.map .object)),
          JsText.ofAscii "</chat_history>"]

/-- `history.slice(start, stop)` -/
def slice (history : List HistoryEntry) (start stop : ℕ) : List HistoryEntry :=
  (history.take stop).drop start

/-- The loop over the segments of the frozen entries, from `start`. -/
def frozenBlocks (history : List HistoryEntry) (step frozenCount : ℕ) :
    ℕ → ℕ → List ChatHistoryBlock
  | 0, _ => []
  | fuel + 1, start =>
      if start < frozenCount then
        let stop := min (start + step) frozenCount
        let head := if start = 0 then historyOpening else entrySeparator
        ⟨head ++ serializeHistoryEntries (slice history start stop), frozenCount ≤ stop⟩ ::
          frozenBlocks history step frozenCount fuel (start + step)
      else []

def formatChatHistoryBlocks (history : List HistoryEntry) (opts : ChatHistoryOptions) :
    List ChatHistoryBlock :=
  let single := [⟨formatChatHistory history, false⟩]
  if history.length = 0 then []
  else if !opts.split || history.length ≤ 2 then single
  else
    let step : ℕ := opts.stepEntries.getD freezeStepEntries
    let frozenCount := (history.length - 2) / step * step
    let frozenText := historyOpening ++ serializeHistoryEntries (history.take frozenCount)
    if frozenCount < 1 then single
    else if (opts.minFrozenChars.getD minCacheableFrozenChars).exceeds frozenText.length then single
    else
      -- every pass takes at least one entry
      frozenBlocks history step frozenCount frozenCount 0 ++
        [⟨entrySeparator ++ serializeHistoryEntries (history.drop frozenCount) ++ historyClosing,
          false⟩]

/-! ## Calls and their results -/

/-- Property access: none on what is no object, and where the key is absent. -/
def property (value : Value) (key : String) : Option Value :=
  match value with
  | .object fields => fields.lookup (JsText.ofAscii key)
  | _ => none

/-- The value, when it is a string. -/
def string? : Option Value → Option JsText
  | some (.string s) => some s
  | _ => none

def field (entry : HistoryEntry) (key : String) : Option Value := property (.object entry) key

def hasRole (entry : HistoryEntry) (role : String) : Bool :=
  string? (field entry "role") = some (JsText.ofAscii role)

/-- The calls of an assistant's entry. -/
def toolCalls (entry : HistoryEntry) : List Value :=
  if hasRole entry "assistant" then
    match field entry "tool_calls" with
    | some (.array calls) => calls
    | _ => []
  else []

/-- Which call a tool's entry gives the result of. -/
def toolCallId (entry : HistoryEntry) : Option JsText :=
  if hasRole entry "tool" then string? (field entry "tool_call_id") else none

def callId (call : Value) : Option JsText := string? (property call "id")

/-- The id and the name of a call that has both. -/
def usableCall (call : Value) : Option (JsText × JsText) := do
  let id ← callId call
  if id = [] then none
  else
    let fn ← property call "function"
    let name ← string? (property fn "name")
    if name = [] then none else some (id, name)

def orphanedToolResultContent : JsText := JsText.ofAscii
  ("[vicoop-bridge] The caller returned no result for this call; its outcome " ++
    "is unknown. Do not repeat calls that have side effects. Re-issue a " ++
    "read-only call only if its output is still required to finish the current " ++
    "task; otherwise proceed with what you have.")

def orphanedResult (id name : JsText) : HistoryEntry :=
  [(JsText.ofAscii "role", .string (JsText.ofAscii "tool")),
    (JsText.ofAscii "tool_call_id", .string id),
    (JsText.ofAscii "name", .string name),
    (JsText.ofAscii "content", .string orphanedToolResultContent)]

/-- The loop over the calls of one entry: what has been answered after it, and the results. -/
def answerCalls (answered : List JsText) : List Value → List JsText × List HistoryEntry
  | [] => (answered, [])
  | call :: calls =>
      match usableCall call with
      | none => answerCalls answered calls
      | some (id, name) =>
          if id ∈ answered then answerCalls answered calls
          else
            let rest := answerCalls (answered ++ [id]) calls
            (rest.1, orphanedResult id name :: rest.2)

def repairFrom (answered : List JsText) : List HistoryEntry → List HistoryEntry
  | [] => []
  | entry :: rest =>
      let results := answerCalls answered (toolCalls entry)
      entry :: (results.2 ++ repairFrom results.1 rest)

def answeredIds (history : List HistoryEntry) : List JsText := history.filterMap toolCallId

def repairOrphanedToolCalls (history : List HistoryEntry) : List HistoryEntry :=
  repairFrom (answeredIds history) history

/-! ## The names of tools -/

/-- `{ ...fields, key: value }` -/
def setField (key : JsText) (value : Value) : List (JsText × Value) → List (JsText × Value)
  | [] => [(key, value)]
  | (k, v) :: rest => if k = key then (k, value) :: rest else (k, v) :: setField key value rest

def requalifyCall (rename : JsText → JsText) (call : Value) : Value :=
  match call, property call "function" with
  | .object fields, some (.object fn) =>
      match property (.object fn) "name" with
      | some (.string name) =>
          .object (setField (JsText.ofAscii "function")
            (.object (setField (JsText.ofAscii "name") (.string (rename name)) fn)) fields)
      | _ => call
  | _, _ => call

def requalifyEntry (rename : JsText → JsText) (entry : HistoryEntry) : HistoryEntry :=
  if hasRole entry "assistant" then
    match field entry "tool_calls" with
    | some (.array calls) =>
        setField (JsText.ofAscii "tool_calls") (.array (calls.map (requalifyCall rename))) entry
    | _ => entry
  else if hasRole entry "tool" then
    match field entry "name" with
    | some (.string name) => setField (JsText.ofAscii "name") (.string (rename name)) entry
    | _ => entry
  else entry

def requalifyHistoryToolNames (history : List HistoryEntry) (rename : JsText → JsText) :
    List HistoryEntry := history.map (requalifyEntry rename)

end OpenAICompat

end VicoopBridge
