import Mathlib.Data.List.Lex
import VicoopBridge.Model.ExecutionScope

/-! # The gateway session of a task

The OpenClaw backend hands its tasks to sessions of a gateway that keep the messages they
have seen. `sha256` is the hash as lowercase hex digits. -/

namespace VicoopBridge

open Library

/-! ## JSON texts -/

/-- `JSON.stringify` of a string. -/
def jsonString (s : String) : String := String.ofList (JsonString.literal s)

def joinTexts (separator : List Char) : List String → List Char
  | [] => []
  | [text] => text.toList
  | text :: rest => text.toList ++ separator ++ joinTexts separator rest

/-- `JSON.stringify` of an object, from the texts of its fields. -/
def jsonObject (fields : List (String × String)) : String :=
  String.ofList ("\x7b".toList ++
    joinTexts [','] (fields.map fun field => jsonString field.1 ++ ":" ++ field.2) ++
      "\x7d".toList)

/-- `JSON.stringify` of an array, from the texts of its items. -/
def jsonArray (items : List String) : String :=
  String.ofList ('[' :: (joinTexts [','] items ++ [']']))

/-- A field that is left out when there is no value. -/
def optionalField (key : String) (value : Option String) : List (String × String) :=
  match value with
  | some text => [(key, text)]
  | none => []

/-! ## The order of strings -/

def utf16Units (c : Char) : List ℕ :=
  if c.val ≤ 0xFFFF then [c.toNat]
  else [0xD800 + (c.toNat - 0x10000) / 0x400, 0xDC00 + (c.toNat - 0x10000) % 0x400]

/-- `<=` on strings. -/
def stringLe (a b : String) : Bool := a.toList.flatMap utf16Units ≤ b.toList.flatMap utf16Units

/-! ## The caller's key -/

/-- The schemas are strict, so a context that is not valid in its own version is not valid in
the other one either. -/
def normalizeCallerContext (caller : Option CallerContext) : Option CallerContextV2 :=
  let canonical : Option CallerContextV2 :=
    match caller with
    | none => none
    | some (.v2 context) =>
        if context.valid then
          some { context with attestations := context.attestations.filter (· ≠ []) }
        else none
    | some (.v1 context) =>
        if context.valid then
          some { principal := context.authenticated
                 attestations := context.presented.filter (· ≠ []) }
        else none
  canonical.filter fun context =>
    context.principal ≠ none || context.actor ≠ none || context.attestations ≠ none

/-- The JSON text of what a session keeps of an attestation. -/
def sessionAttestation (a : CallerAttestationV2) : String :=
  let platform := a.platform.bind fun platform =>
    if platform.provider ≠ none ∨ platform.workspaceId ≠ none then
      some (jsonObject (optionalField "provider" (platform.provider.map jsonString) ++
        optionalField "workspaceId" (platform.workspaceId.map jsonString)))
    else none
  jsonObject ([("issuer", jsonString a.issuer), ("subject", jsonString a.subject),
      ("method", jsonString a.method)] ++
    optionalField "assurance" (a.assurance.map jsonString) ++ optionalField "platform" platform)

/-- The JSON text of the identity: equal attestations count once, in the order of their
texts. -/
def sessionIdentity (context : CallerContextV2) : String :=
  let attestations :=
    ((context.attestations.getD []).map sessionAttestation).eraseDups.mergeSort stringLe
  let identified (id : String) := jsonObject [("id", jsonString id)]
  jsonObject (optionalField "principal" (context.principal.map identified) ++
    optionalField "actor" (context.actor.map identified) ++
    optionalField "attestations"
      (if attestations = [] then none else some (jsonArray attestations)))

def callerContextSessionKey (caller : Option CallerContext) : String :=
  match normalizeCallerContext caller with
  | none => ""
  | some context => sessionIdentity context

/-! ## The session key -/

structure OpenclawSessionOptions where
  agent : Option String := none
  openaiCompatAgent : Option String := none
  sessionKeyPrefix : Option String := none

/-- `envelope` is whether the message carries a request of the openai-compat extension. -/
structure OpenclawTask where
  contextId : String
  caller : Option CallerContext := none
  envelope : Bool := false

section

variable (opts : OpenclawSessionOptions) (sha256 : String → String) (task : OpenclawTask)

def effectiveAgent : String :=
  let agent := opts.agent.getD "main"
  match (opts.openaiCompatAgent.map trim).filter (· ≠ "") with
  | some openaiCompatAgent => if task.envelope then openaiCompatAgent else agent
  | none => agent

def callerScope : String :=
  let callerKey := callerContextSessionKey task.caller
  if callerKey = "" then ""
  else ":caller-" ++ String.ofList ((sha256 callerKey).toList.take 16)

def openclawSessionKey : String :=
  opts.sessionKeyPrefix.getD "agent" ++ ":" ++ effectiveAgent opts task ++ ":" ++
    task.contextId ++ callerScope sha256 task

end

end VicoopBridge
