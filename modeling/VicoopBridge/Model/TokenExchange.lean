import VicoopBridge.Library.ReplayTable
import VicoopBridge.Library.Transition
import VicoopBridge.Model.ExecutionScope

/-! # OAuth token exchange

Concurrent requests that trade two assertions for an access token, over one replay table.
The verifier of the assertions answers through an event. -/

namespace VicoopBridge

open Library

/-! ## Assertions -/

/-- An assertion as its verifier knows it; instants are in milliseconds. -/
structure FederationAssertion where
  issuer : String
  jti : String
  iat : ℤ
  exp : ℤ
  deriving DecidableEq, Repr

/-- The bounds of a profile, in milliseconds. -/
structure ExchangeProfile where
  id : String
  maxTtlMs : ℤ
  clockSkewMs : ℤ

namespace ExchangeProfile

variable (profile : ExchangeProfile)

/-- What the verifier promises of an assertion that it accepts at a time. -/
def accepts (now : ℤ) (a : FederationAssertion) : Prop :=
  a.iat - profile.clockSkewMs ≤ now ∧ now < a.exp + profile.clockSkewMs ∧
    a.exp - a.iat ≤ profile.maxTtlMs

instance (now : ℤ) (a : FederationAssertion) : Decidable (profile.accepts now a) :=
  inferInstanceAs (Decidable (_ ∧ _ ∧ _))

def replayExpiresAt (now : ℤ) : ℤ := now + (profile.maxTtlMs + 2 * profile.clockSkewMs)

end ExchangeProfile

def tokenExchangeReplayDigest (sha256 : String → String) (profileId issuer jti : String) :
    String :=
  sha256 (lengthPrefixed profileId ++ lengthPrefixed issuer ++ lengthPrefixed jti)

/-- The outcome of a verification. -/
structure VerifiedExchange where
  principalId : String
  actorId : String
  authorizationKey : String
  scopes : List String
  taskId : Option String := none
  assertions : List FederationAssertion
  deriving DecidableEq

/-! ## Requests -/

structure TokenExchangeFailure where
  status : ℕ
  error : String
  reason : String
  stage : Option String := none
  deriving DecidableEq

/-- A conflict on the first assertion is the client's, on another the subject's. -/
def replayFailure (position : ℕ) : TokenExchangeFailure where
  status := if position = 0 then 401 else 400
  error := if position = 0 then "invalid_client" else "invalid_grant"
  reason := "replayed-jti"
  stage := some (if position = 0 then "client-assertion" else "subject-assertion")

def replayEvidenceMissing : TokenExchangeFailure where
  status := 500
  error := "server_error"
  reason := "replay_evidence_missing"
  stage := some "profile_contract"

def replayStoreFailed : TokenExchangeFailure where
  status := 500
  error := "server_error"
  reason := "replay_store_failed"
  stage := some "replay"

def tokenStoreFailed : TokenExchangeFailure where
  status := 500
  error := "server_error"
  reason := "token_store_failed"

def targetLookupFailed : TokenExchangeFailure where
  status := 500
  error := "server_error"
  reason := "target_lookup_failed"
  stage := some "target_lookup"

def unknownAgent : TokenExchangeFailure where
  status := 400
  error := "invalid_target"
  reason := "unknown_agent"

/-- A row of the table of access tokens. -/
structure AccessToken where
  agentId : String
  principalId : String
  actorId : String
  allowedCaller : String
  scopes : List String
  taskId : Option String
  expiresAt : ℤ
  deriving DecidableEq

/-- Where a request is; `now` is the time it has taken before the verification. -/
inductive ExchangePhase where
  | idle
  | targeting (agentId : String)
  | verifying (agentId : String) (now : ℤ)
  | consuming (agentId : String) (now : ℤ) (verified : VerifiedExchange)
  | issuing (agentId : String) (now : ℤ) (verified : VerifiedExchange)
  | issued (token : AccessToken)
  | rejected (failure : TokenExchangeFailure)

/-- A transaction that has consumed the identifiers of a request. -/
structure ReplayTransaction where
  request : ℕ
  assertions : List FederationAssertion
  expiresAt : ℤ
  time : ℤ
  deriving DecidableEq

/-- `allowedCallers` is the policy of each registered agent. `transactions` records what was
consumed, and `issuedTo` the requests that a token was issued to. -/
structure ExchangeState where
  now : ℤ
  replays : ReplayTable String ℤ := .empty
  allowedCallers : String → Option (List String) := fun _ => none
  accessTokens : List AccessToken := []
  requests : ℕ → ExchangePhase := fun _ => .idle
  transactions : List ReplayTransaction := []
  issuedTo : List ℕ := []

inductive ExchangeAction where
  /-- `POST /oauth/token` for the resource of an agent. -/
  | post (request : ℕ) (agentId : String)
  | target (request : ℕ)
  | verified (request : ℕ) (result : Except TokenExchangeFailure VerifiedExchange)
  | consume (request : ℕ)
  | issue (request : ℕ)
  /-- A statement fails, with or without its effect. -/
  | fail (request : ℕ) (committed : Bool)
  | sweep
  | tick (now : ℤ)
  | setPolicy (agentId : String) (allowedCallers : Option (List String))

def tokenExchangeAccessTokenTtlMs : ℤ := 300 * 1000

namespace ExchangeState

variable (profile : ExchangeProfile) (sha256 : String → String) (s : ExchangeState)

def setRequest (r : ℕ) (phase : ExchangePhase) : ExchangeState :=
  { s with requests := Function.update s.requests r phase }

def target (r : ℕ) : ExchangeState :=
  match s.requests r with
  | .targeting agentId =>
      match s.allowedCallers agentId with
      | none => s.setRequest r (.rejected unknownAgent)
      | some _ => s.setRequest r (.verifying agentId s.now)
  | _ => s

def verified (r : ℕ) (result : Except TokenExchangeFailure VerifiedExchange) : ExchangeState :=
  match s.requests r, result with
  | .verifying _ _, .error failure => s.setRequest r (.rejected failure)
  | .verifying agentId now, .ok verified =>
      if verified.assertions.length ≠ 2 then s.setRequest r (.rejected replayEvidenceMissing)
      else s.setRequest r (.consuming agentId now verified)
  | _, _ => s

def replayRow (expiresAt : ℤ) (a : FederationAssertion) : String × ℤ :=
  (tokenExchangeReplayDigest sha256 profile.id a.issuer a.jti, expiresAt)

/-- `consumeTokenExchangeReplays`: a conflict rolls the transaction back. -/
def consumeReplays (r : ℕ) (now : ℤ) (assertions : List FederationAssertion) :
    Except ℕ ExchangeState :=
  let expiresAt := profile.replayExpiresAt now
  match s.replays.consumeAll (assertions.map (replayRow profile sha256 expiresAt)) with
  | .error position => .error position
  | .ok replays =>
      let transaction : ReplayTransaction := {
        request := r, assertions := assertions, expiresAt := expiresAt, time := s.now }
      .ok { s with replays := replays, transactions := s.transactions ++ [transaction] }

def consume (r : ℕ) : ExchangeState :=
  match s.requests r with
  | .consuming agentId now verified =>
      match s.consumeReplays profile sha256 r now verified.assertions with
      | .error position => s.setRequest r (.rejected (replayFailure position))
      | .ok s => s.setRequest r (.issuing agentId now verified)
  | _ => s

/-- The policy is read again by the statement that inserts the token. -/
def insertToken (r : ℕ) (agentId : String) (now : ℤ) (verified : VerifiedExchange) :
    Option (AccessToken × ExchangeState) :=
  if (s.allowedCallers agentId).any fun callers => callers.contains verified.authorizationKey then
    let token : AccessToken := {
      agentId := agentId, principalId := verified.principalId, actorId := verified.actorId
      allowedCaller := verified.authorizationKey, scopes := verified.scopes
      taskId := verified.taskId, expiresAt := now + tokenExchangeAccessTokenTtlMs }
    some (token, { s with
      accessTokens := s.accessTokens ++ [token], issuedTo := s.issuedTo ++ [r] })
  else none

def issue (r : ℕ) : ExchangeState :=
  match s.requests r with
  | .issuing agentId now verified =>
      match s.insertToken r agentId now verified with
      | none => s.setRequest r (.rejected tokenStoreFailed)
      | some (token, s) => s.setRequest r (.issued token)
  | _ => s

def fail (r : ℕ) (committed : Bool) : ExchangeState :=
  match s.requests r with
  | .targeting _ => s.setRequest r (.rejected targetLookupFailed)
  | .consuming _ now verified =>
      let after :=
        match committed, s.consumeReplays profile sha256 r now verified.assertions with
        | true, .ok s => s
        | _, _ => s
      after.setRequest r (.rejected replayStoreFailed)
  | .issuing agentId now verified =>
      let after :=
        match committed, s.insertToken r agentId now verified with
        | true, some (_, s) => s
        | _, _ => s
      after.setRequest r (.rejected tokenStoreFailed)
  | _ => s

/-- `sweepExpiredTokenExchangeState`, of which the access tokens are left out. -/
def sweep : ExchangeState := { s with replays := s.replays.sweep s.now }

def apply : ExchangeAction → ExchangeState
  | .post r agentId => s.setRequest r (.targeting agentId)
  | .target r => s.target r
  | .verified r result => s.verified r result
  | .consume r => s.consume profile sha256 r
  | .issue r => s.issue r
  | .fail r committed => s.fail profile sha256 r committed
  | .sweep => s.sweep
  | .tick now => { s with now := now }
  | .setPolicy agentId allowedCallers =>
      { s with allowedCallers := Function.update s.allowedCallers agentId allowedCallers }

/-- The verifier accepts assertions by the time that the request has taken. -/
def enabled : ExchangeAction → Prop
  | .post r _ => match s.requests r with
      | .idle => True
      | _ => False
  | .verified r (.ok verified) => match s.requests r with
      | .verifying _ now => ∀ a ∈ verified.assertions, profile.accepts now a
      | _ => True
  | .tick now => s.now ≤ now
  | _ => True

instance (a : ExchangeAction) : Decidable (s.enabled profile a) := by
  unfold enabled
  split
  · split <;> infer_instance
  · split <;> infer_instance
  · infer_instance
  · infer_instance

end ExchangeState

def exchangeSystem (profile : ExchangeProfile) (sha256 : String → String) :
    System ExchangeState ExchangeAction :=
  .ofApply (fun s => ∃ now allowedCallers, s = { now := now, allowedCallers := allowedCallers })
    (ExchangeState.enabled profile) (ExchangeState.apply profile sha256)

end VicoopBridge
