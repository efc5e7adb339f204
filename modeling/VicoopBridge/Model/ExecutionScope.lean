import VicoopBridge.Library.JsonString
import VicoopBridge.Model.JsString
import VicoopBridge.Model.Protocol

/-! # Caller contexts and execution scopes

The identity of a caller as the server puts it on an assignment, and as the client's
caller-scoped backend checks it. `sha256` is the hash as lowercase hex digits. -/

namespace VicoopBridge

/-! ## Caller contexts -/

def isCallerIdentifier (s : String) : Bool :=
  1 ≤ utf16Length s.toList && utf16Length s.toList ≤ 512

def isCallerSummaryField (s : String) : Bool :=
  1 ≤ utf16Length s.toList && utf16Length s.toList ≤ 256

structure CallerPlatform where
  provider : Option String := none
  workspaceId : Option String := none
  deriving DecidableEq

structure CallerProfile where
  displayName : Option String := none
  username : Option String := none
  deriving DecidableEq

/-- The shape of `PresentedCallerIdentityV1` too. -/
structure CallerAttestationV2 where
  credentialId : String
  issuer : String
  subject : String
  method : String
  assurance : Option String := none
  platform : Option CallerPlatform := none
  observedTarget : Option (Option String) := none
  profile : Option CallerProfile := none
  deriving DecidableEq

def CallerAttestationV2.valid (a : CallerAttestationV2) : Bool :=
  isCallerIdentifier a.credentialId && isCallerIdentifier a.issuer &&
    isCallerIdentifier a.subject && isCallerSummaryField a.method &&
    a.assurance.all isCallerSummaryField &&
    (a.platform.all fun p => p.provider.all isCallerSummaryField &&
      p.workspaceId.all isCallerSummaryField) &&
    (a.observedTarget.all fun target => target.all isCallerIdentifier) &&
    a.profile.all fun p => p.displayName.all isCallerSummaryField &&
      p.username.all isCallerSummaryField

/-- A principal and an actor are objects with an `id` alone. -/
structure CallerContextV2 where
  principal : Option String := none
  actor : Option String := none
  attestations : Option (List CallerAttestationV2) := none
  deriving DecidableEq

def CallerContextV2.valid (context : CallerContextV2) : Bool :=
  context.principal.all isCallerIdentifier && context.actor.all isCallerIdentifier &&
    (context.attestations.all fun as => as.length ≤ 8 && as.all CallerAttestationV2.valid) &&
    match context.actor with
    | none => true
    | some actor => context.principal.any (· ≠ actor)

def CallerContextV2.isEmpty (context : CallerContextV2) : Bool :=
  context.principal = none && context.actor = none && context.attestations.all List.isEmpty

structure CallerContextV1 where
  authenticated : Option String := none
  presented : Option (List CallerAttestationV2) := none
  deriving DecidableEq

def CallerContextV1.valid (context : CallerContextV1) : Bool :=
  context.authenticated.all isCallerIdentifier &&
    context.presented.all fun as => as.length ≤ 8 && as.all CallerAttestationV2.valid

inductive CallerContext where
  | v1 (context : CallerContextV1)
  | v2 (context : CallerContextV2)
  deriving DecidableEq

inductive CallerContextWireVersion where
  | v1
  | v2
  deriving DecidableEq

def selectCallerContextVersion (capabilities : Option (List String)) :
    Option CallerContextWireVersion :=
  if advertises capabilities callerContextV2Capability then some .v2
  else if advertises capabilities callerContextV1Capability then some .v1
  else none

def createCanonicalCallerContext (principalId actorId : Option String)
    (attestations : List CallerAttestationV2) : Option CallerContextV2 :=
  let context : CallerContextV2 := {
    principal := principalId, actor := actorId
    attestations := if attestations = [] then none else some attestations }
  if context.valid && !context.isEmpty then some context else none

/-- Version 1 cannot express a distinct actor. -/
def serializeCallerContextV1 (context : CallerContextV2) : Option CallerContextV1 :=
  if context.actor ≠ none then none
  else
    let wire : CallerContextV1 := {
      authenticated := context.principal
      presented := context.attestations.filter (· ≠ []) }
    if wire.valid && (wire.authenticated ≠ none || wire.presented ≠ none) then some wire else none

def serializeCallerContextV2 (context : CallerContextV2) : Option CallerContextV2 :=
  if context.valid && !context.isEmpty then some context else none

def serializeCallerContext (context : Option CallerContextV2)
    (version : Option CallerContextWireVersion) : Option CallerContext :=
  match context, version with
  | some context, some .v2 => (serializeCallerContextV2 context).map .v2
  | some context, some .v1 => (serializeCallerContextV1 context).map .v1
  | _, _ => none

/-! ## Federated principals -/

structure FederatedPrincipalInput where
  issuer : String
  method : String
  subject : String
  deriving DecidableEq

def federatedPrefix : String := "federated:v1:"

def maxFederatedPrincipalBytes : ℕ := 512

def isSafeInteger (n : ℕ) : Bool := n ≤ 2 ^ 53 - 1

/-- The first characters that take so many bytes together, and the rest. -/
def takeBytes : ℕ → List Char → Option (List Char × List Char)
  | 0, cs => some ([], cs)
  | _ + 1, [] => none
  | n + 1, c :: cs =>
      if n + 1 < c.utf8Size then none
      else (takeBytes (n + 1 - c.utf8Size) cs).map fun taken => (c :: taken.1, taken.2)

/-- A decimal without leading zeros. -/
def parseLength (digits : List Char) : Option ℕ :=
  if digits = [] ∨ digits.any (fun c => !c.isDigit) ∨ digits.head? = some '0' ∧ digits ≠ ['0'] then
    none
  else some (digits.foldl (fun n c => 10 * n + (c.toNat - 48)) 0)

def takeLengthPrefixed (input : List Char) : Option (List Char × List Char) :=
  match input.span (· ≠ ':') with
  | (_, []) => none
  | (rawLength, _ :: body) =>
      match parseLength rawLength with
      | none => none
      | some byteLength =>
          if !isSafeInteger byteLength || byteLength = 0 then none else takeBytes byteLength body

def lengthPrefixed (value : String) : String :=
  toString (utf8Length value.toList) ++ ":" ++ value

def formatFederatedPrincipal (input : FederatedPrincipalInput) : Option String :=
  if trim input.issuer ≠ input.issuer ∨ trim input.method ≠ input.method ∨
      trim input.subject ≠ input.subject then none
  else if ¬ input.issuer.startsWith "did:web:" ∨ input.method = "" ∨ input.subject = "" then none
  else if input.issuer.toList.any isJsWhitespace then none
  else if 512 < utf16Length input.issuer.toList ∨ 256 < utf16Length input.method.toList ∨
      512 < utf16Length input.subject.toList then none
  else
    let encoded := federatedPrefix ++ lengthPrefixed input.issuer ++
      lengthPrefixed input.method ++ lengthPrefixed input.subject
    if utf8Length encoded.toList ≤ maxFederatedPrincipalBytes then some encoded else none

/-- Only the canonical text of a tuple is accepted. -/
def parseFederatedPrincipal (value : String) : Option FederatedPrincipalInput := do
  if ¬ value.startsWith federatedPrefix then none
  let (issuer, rest) ← takeLengthPrefixed (value.toList.drop federatedPrefix.length)
  let (method, rest) ← takeLengthPrefixed rest
  let (subject, rest) ← takeLengthPrefixed rest
  if rest ≠ [] then none
  let input : FederatedPrincipalInput :=
    ⟨String.ofList issuer, String.ofList method, String.ofList subject⟩
  if formatFederatedPrincipal input = some value then some input else none

/-! ## Scopes -/

inductive ExecutionScopePolicy where
  | directPrincipalV1
  | federatedPrincipalV1
  deriving DecidableEq

def ExecutionScopePolicy.name : ExecutionScopePolicy → String
  | .directPrincipalV1 => "direct-principal-v1"
  | .federatedPrincipalV1 => "federated-principal-v1"

def executionScopePolicy (principalId : String) : ExecutionScopePolicy :=
  if (parseFederatedPrincipal principalId).isSome then .federatedPrincipalV1 else .directPrincipalV1

def executionScopePreimage (agentId principalId : String) : String :=
  String.ofList (Library.JsonString.array
    ["vicoop-execution-scope", (executionScopePolicy principalId).name, agentId, principalId])

structure ExecutionScopeV1 where
  policy : ExecutionScopePolicy
  id : String
  agentId : String
  principalId : String
  deriving DecidableEq

/-- `/^[a-f0-9]{64}$/` -/
def isSha256Hex (id : String) : Bool :=
  id.toList.length = 64 && id.toList.all fun c => c.isDigit || ('a' ≤ c && c ≤ 'f')

def ExecutionScopeV1.valid (scope : ExecutionScopeV1) : Bool :=
  isSha256Hex scope.id && isCallerIdentifier scope.agentId && isCallerIdentifier scope.principalId

def mentionableOauthProfile : String := "https://mentionable.dev/ns/oauth-federation/v0.1"

/-- The identity that the HTTP boundary has authenticated. -/
structure AuthenticatedHandoff where
  principalId : Option String := none
  actorId : Option String := none
  authorizationKey : Option String := none
  authorizationProfile : Option String := none
  deriving DecidableEq

def AuthenticatedHandoff.delegated (input : AuthenticatedHandoff) : Bool :=
  input.actorId.isSome || input.authorizationKey.isSome || input.authorizationProfile.isSome

/-- The principal that an environment is keyed by. -/
def scopePrincipal (capabilities : Option (List String)) (input : AuthenticatedHandoff) :
    Option String := do
  let principalId ← input.principalId.filter (· ≠ "")
  if input.delegated then
    if !advertises capabilities federatedExecutionScopeV1Capability ||
        input.authorizationProfile ≠ some mentionableOauthProfile then none
    let key ← input.authorizationKey.filter (· ≠ "")
    let tuple ← parseFederatedPrincipal key
    if some tuple.issuer ≠ input.actorId ∨ tuple.subject ≠ principalId then none
    key
  else if (parseFederatedPrincipal principalId).isSome then none
  else principalId

def resolveExecutionScope (sha256 : String → String) (agentId : String)
    (capabilities : Option (List String)) (input : AuthenticatedHandoff) :
    Option ExecutionScopeV1 := do
  if ¬ supportsExecutionScopeV1 capabilities then none
  let principalId ← scopePrincipal capabilities input
  let scope : ExecutionScopeV1 := {
    policy := executionScopePolicy principalId
    id := sha256 (executionScopePreimage agentId principalId)
    agentId := agentId, principalId := principalId }
  if scope.valid then some scope else none

/-- What an assignment tells about its caller. -/
structure AssignedCaller where
  executionId : Option String
  caller : Option CallerContext
  executionScope : Option ExecutionScopeV1
  deriving DecidableEq

/-- The part of `executeStream` that fills an assignment in; `freshId` is its random id. -/
def assignCaller (sha256 : String → String) (agentId : String)
    (capabilities : Option (List String)) (input : AuthenticatedHandoff)
    (presented : List CallerAttestationV2) (freshId : String) : AssignedCaller :=
  let version := selectCallerContextVersion capabilities
  let hasCallerInput := input.principalId.isSome || input.actorId.isSome || presented ≠ []
  let canonical :=
    if version.isSome && hasCallerInput then
      createCanonicalCallerContext input.principalId input.actorId presented
    else none
  let caller := serializeCallerContext canonical version
  { executionId := if advertises capabilities taskReplayCapability then some freshId else none
    caller := caller
    executionScope :=
      if caller.isNone then none else resolveExecutionScope sha256 agentId capabilities input }

/-! ## The client's check -/

def scopeDigest (sha256 : String → String) (agentId principalId : String) : String :=
  sha256 (executionScopePreimage agentId principalId)

def identityMatches (caller : Option CallerContext) (principalId : String) : Bool :=
  match caller with
  | some (.v2 context) =>
      context.principal.isSome &&
        match parseFederatedPrincipal principalId with
        | some tuple => context.actor = some tuple.issuer && context.principal = some tuple.subject
        | none => context.actor = none && context.principal = some principalId
  | _ => false

/-- The checks of `validate` on the identity; it goes on to the message. The scope is `none`
when the frame has none, or one that does not parse. -/
def validateCaller (sha256 : String → String) (agentId : String) (task : AssignedCaller) :
    Option String := do
  let scope ← task.executionScope.filter ExecutionScopeV1.valid
  let _ ← task.executionId.filter (· ≠ "")
  if !identityMatches task.caller scope.principalId ||
      scope.policy ≠ executionScopePolicy scope.principalId || scope.agentId ≠ agentId ||
      scope.id ≠ scopeDigest sha256 agentId scope.principalId then none
  scope.id

end VicoopBridge
