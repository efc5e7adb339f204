import VicoopBridge.Model.Codex

/-! # The usage that a completed task is billed on

The server reads the token counts of a `task.complete` frame, or those that older clients put
into the metadata of its message. -/

namespace VicoopBridge

/-- What the merchant gate meters. -/
inductive MerchantMeterableUsage where
  | detailed (inputTokens outputTokens : ℕ) (cachedInputTokens : Option ℕ)
  | unreported
  deriving DecidableEq, Repr

inductive TaskUsageSource where
  | protocol
  | openaiCompat
  deriving DecidableEq, Repr

structure ReadTaskUsageResult where
  usage : MerchantMeterableUsage
  source : Option TaskUsageSource := none
  model : Option String := none
  deriving DecidableEq

structure ReportedCounts where
  prompt : ℕ
  completion : ℕ
  cached : Option ℕ := none
  model : Option String := none
  deriving DecidableEq

def count (v : Option Json) : Option ℕ := (Json.number? v).bind isCount

/-- A cache figure larger than the prompt is dropped. -/
def ReportedCounts.build (prompt completion : ℕ) (cached : Option ℕ) (model : Option String) :
    ReportedCounts where
  prompt := prompt
  completion := completion
  cached := cached.filter (· ≤ prompt)
  model := model.filter (· ≠ "")

def fromProtocol (usage : Option TaskUsage) : Option ReportedCounts :=
  usage.map fun usage =>
    .build usage.promptTokens usage.completionTokens usage.cachedInputTokens usage.model

def fromOpenAICompatPayload (raw : Option Json) : Option ReportedCounts :=
  match count (Json.get? raw "prompt_tokens"), count (Json.get? raw "completion_tokens") with
  | some prompt, some completion =>
      let cached := count (Json.get? (Json.get? raw "prompt_tokens_details") "cached_tokens")
      some (.build prompt completion cached (Json.string? (Json.get? raw "model")))
  | _, _ => none

def fromOpenAICompat (metadata : Option JsonObject) : Option ReportedCounts :=
  let payload := metadata.bind (JsonObject.field · openaiCompatExtensionUri)
  (fromOpenAICompatPayload (Json.get? payload "usage")).or
    (fromOpenAICompatPayload (Json.get? (Json.get? payload "chat_completion") "usage"))

def ReportedCounts.toMeterable (counts : ReportedCounts) : MerchantMeterableUsage :=
  .detailed counts.prompt counts.completion counts.cached

def readTaskUsage (reported : Option TaskUsage) (metadata : Option JsonObject) :
    ReadTaskUsageResult :=
  match fromProtocol reported, fromOpenAICompat metadata with
  | some counts, _ =>
      { usage := counts.toMeterable, source := some .protocol, model := counts.model }
  | none, some counts =>
      { usage := counts.toMeterable, source := some .openaiCompat, model := counts.model }
  | none, none => { usage := .unreported }

end VicoopBridge
