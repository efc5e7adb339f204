import VicoopBridge.Library.ReplayTable
import VicoopBridge.Library.Transition
import VicoopBridge.Model.ExecutionScope

/-! # Presented identity credentials

Concurrent verifications of platform identity credentials over one replay table. The DID
resolver and the signature library answer through events. -/

namespace VicoopBridge

open Library

inductive IdentityVcRejectionCode where
  | malformed
  | limitExceeded
  | unsupportedProfile
  | unsupportedIssuerMethod
  | untrustedIssuer
  | keyFetchFailed
  | issuerControllerMismatch
  | unsupportedCryptosuite
  | invalidSignature
  | domainMismatch
  | challengeMismatch
  | notYetValid
  | expired
  | replayStoreFailed
  | replayed
  deriving DecidableEq, Repr

/-- A credential as it was parsed. An instant is `none` when its text is no time stamp. -/
structure PlatformIdentityCredential where
  id : String
  issuer : String
  validFrom : Option ℤ
  validUntil : Option ℤ
  subject : String
  method : String
  assurance : Option String := none
  platform : Option JsonObject := none
  observedInvocation : Option JsonObject := none
  profile : Option JsonObject := none
  verificationMethod : String
  domain : String
  challenge : String
  /-- `proof.created`, when there is one. -/
  created : Option (Option ℤ) := none
  deriving DecidableEq

/-- What a verification is for. -/
structure VerifyBinding where
  trustedIssuers : List String
  expectedDomain : String
  messageId : String
  deriving DecidableEq

structure IdentityVcLimits where
  maxTtlMs : ℤ := 10 * 60 * 1000
  clockSkewMs : ℤ := 60 * 1000

/-! ## DID documents -/

structure ResolvedDidDocument where
  id : String
  verificationMethod : List Json
  assertionMethod : List Json
  deriving DecidableEq

/-- An absent list is an empty one. -/
def didMethods (doc : JsonObject) (key : String) : Option (List Json) :=
  match doc.field key with
  | none => some []
  | some (.arr entries) => some entries
  | some _ => none

/-- `none` when the document does not have the shape of one. -/
def readDidDocument (resolved : Option Json) : Option ResolvedDidDocument :=
  match resolved with
  | some (.obj doc) => do
      let id ← JsonObject.string? doc "id"
      let verificationMethod ← didMethods doc "verificationMethod"
      let assertionMethod ← didMethods doc "assertionMethod"
      some { id, verificationMethod, assertionMethod }
  | _ => none

def hasId (id : String) : Json → Bool
  | .obj entry => JsonObject.string? entry "id" = some id
  | _ => false

/-- The controller of the key with this id. -/
def findVerificationMethod (doc : ResolvedDidDocument) (id : String) : Option String :=
  match (doc.verificationMethod ++ doc.assertionMethod).find? (hasId id) with
  | some (.obj entry) =>
      if JsonObject.string? entry "type" = some "Multikey" ∧
          (JsonObject.string? entry "publicKeyMultibase").isSome then
        JsonObject.string? entry "controller"
      else none
  | _ => none

def assertionMethodApproves (doc : ResolvedDidDocument) (id : String) : Bool :=
  doc.assertionMethod.any fun entry => entry = .str id || hasId id entry

/-- The document is the issuer's and approves the key of the proof. -/
def controls (doc : ResolvedDidDocument) (credential : PlatformIdentityCredential) : Bool :=
  doc.id = credential.issuer &&
    findVerificationMethod doc credential.verificationMethod = some credential.issuer &&
    assertionMethodApproves doc credential.verificationMethod

/-! ## Checks -/

def normalize (credential : PlatformIdentityCredential) : CallerAttestationV2 :=
  let field (record : Option JsonObject) (key : String) : Option String :=
    record.bind fun record => record.string? key
  let platform : CallerPlatform := {
    provider := field credential.platform "provider"
    workspaceId := field credential.platform "workspace_id" }
  let profile : CallerProfile := {
    displayName := field credential.profile "display_name"
    username := field credential.profile "username" }
  { credentialId := credential.id
    issuer := credential.issuer
    subject := credential.subject
    method := credential.method
    assurance := credential.assurance
    platform := if platform = {} then none else some platform
    observedTarget := (field credential.observedInvocation "target").map some
    profile := if profile = {} then none else some profile }

/-- The checks that need no key. They end with the end of the validity. -/
def checkCredential (limits : IdentityVcLimits) (binding : VerifyBinding) (now : ℤ)
    (credential : PlatformIdentityCredential) : Except IdentityVcRejectionCode ℤ :=
  if credential.issuer ∉ binding.trustedIssuers then .error .untrustedIssuer
  else if ¬ credential.issuer.startsWith "did:web:" then .error .unsupportedIssuerMethod
  else if credential.domain ≠ binding.expectedDomain then .error .domainMismatch
  else if credential.challenge ≠ binding.messageId then .error .challengeMismatch
  else
    match credential.validFrom, credential.validUntil with
    | some validFrom, some validUntil =>
        if validUntil ≤ validFrom then .error .malformed
        else if validUntil - validFrom > limits.maxTtlMs then .error .limitExceeded
        else if now + limits.clockSkewMs < validFrom then .error .notYetValid
        else if now - limits.clockSkewMs ≥ validUntil then .error .expired
        else if credential.created = some none then .error .malformed
        else .ok validUntil
    | _, _ => .error .malformed

/-! ## Replay tuples -/

structure ReplayTuple where
  issuer : String
  domain : String
  challenge : String
  deriving DecidableEq

def PlatformIdentityCredential.tuple (credential : PlatformIdentityCredential) : ReplayTuple where
  issuer := credential.issuer
  domain := credential.domain
  challenge := credential.challenge

def identityReplayPreimage (tuple : ReplayTuple) : String :=
  lengthPrefixed tuple.issuer ++ lengthPrefixed tuple.domain ++
    lengthPrefixed tuple.challenge

def identityReplayDigest (sha256 : String → String) (tuple : ReplayTuple) : String :=
  sha256 (identityReplayPreimage tuple)

/-! ## Verification -/

/-- Where a call of `verify` is. `validUntil` is that of the credential. -/
inductive VerifyPhase where
  | idle
  | resolving (credential : PlatformIdentityCredential) (validUntil : ℤ)
  /-- The document lacked the key, and is fetched past the cache. -/
  | refreshing (credential : PlatformIdentityCredential) (validUntil : ℤ)
  | verifying (credential : PlatformIdentityCredential) (validUntil : ℤ) (refreshed : Bool)
  /-- The signature did not hold, and the key may have been rotated. -/
  | rotating (credential : PlatformIdentityCredential) (validUntil : ℤ)
  | consuming (credential : PlatformIdentityCredential) (validUntil : ℤ)
  /-- The statement is over, and its answer on the way. -/
  | consumed (credential : PlatformIdentityCredential) (validUntil : ℤ) (fresh : Bool)
  | accepted (identity : CallerAttestationV2)
  /-- Rejected before the replay step, and after it. -/
  | rejected (code : IdentityVcRejectionCode)
  | refused (code : IdentityVcRejectionCode)

/-- A row that a call has inserted. -/
structure Consumption where
  call : ℕ
  digest : String
  expiresAt : ℤ
  time : ℤ
  deriving DecidableEq

/-- `expiresAt` is the end of the validity with the allowed skew. -/
structure Acceptance where
  call : ℕ
  tuple : ReplayTuple
  expiresAt : ℤ
  time : ℤ
  deriving DecidableEq

/-- `consumptions` and `acceptances` record what has happened. -/
structure VerifierState where
  now : ℤ
  replays : ReplayTable String ℤ := .empty
  calls : ℕ → VerifyPhase := fun _ => .idle
  consumptions : List Consumption := []
  acceptances : List Acceptance := []

inductive VerifierAction where
  | verify (call : ℕ) (binding : VerifyBinding)
      (parsed : Except IdentityVcRejectionCode PlatformIdentityCredential)
  /-- The resolver answers; `none` is a rejection. -/
  | resolved (call : ℕ) (document : Option Json)
  | verified (call : ℕ) (valid : Bool)
  | consume (call : ℕ)
  /-- The statement fails, with or without its effect. -/
  | consumeFails (call : ℕ) (committed : Bool)
  | finish (call : ℕ)
  | sweep
  | tick (now : ℤ)

namespace VerifierState

variable (limits : IdentityVcLimits) (sha256 : String → String) (s : VerifierState)

def setCall (call : ℕ) (phase : VerifyPhase) : VerifierState :=
  { s with calls := Function.update s.calls call phase }

def verify (call : ℕ) (binding : VerifyBinding)
    (parsed : Except IdentityVcRejectionCode PlatformIdentityCredential) : VerifierState :=
  match parsed with
  | .error code => s.setCall call (.rejected code)
  | .ok credential =>
      match checkCredential limits binding s.now credential with
      | .error code => s.setCall call (.rejected code)
      | .ok validUntil => s.setCall call (.resolving credential validUntil)

/-- A document is taken when the issuer controls the key by it. -/
def takeDocument (call : ℕ) (credential : PlatformIdentityCredential) (validUntil : ℤ)
    (refreshed : Bool) (doc : ResolvedDidDocument) : VerifierState :=
  if controls doc credential then s.setCall call (.verifying credential validUntil refreshed)
  else s.setCall call (.rejected .issuerControllerMismatch)

def resolved (call : ℕ) (document : Option Json) : VerifierState :=
  match s.calls call with
  | .resolving credential validUntil =>
      match readDidDocument document with
      | none => s.setCall call (.rejected .keyFetchFailed)
      | some doc =>
          if findVerificationMethod doc credential.verificationMethod = none ∧
              doc.id = credential.issuer then
            s.setCall call (.refreshing credential validUntil)
          else s.takeDocument call credential validUntil false doc
  | .refreshing credential validUntil | .rotating credential validUntil =>
      match readDidDocument document with
      | none => s.setCall call (.rejected .keyFetchFailed)
      | some doc => s.takeDocument call credential validUntil true doc
  | _ => s

/-- The last checks before the replay step. -/
def afterSignature (call : ℕ) (credential : PlatformIdentityCredential) (validUntil : ℤ) :
    VerifierState :=
  if s.now - limits.clockSkewMs ≥ validUntil then s.setCall call (.rejected .expired)
  else if ¬ (normalize credential).valid then s.setCall call (.rejected .malformed)
  else s.setCall call (.consuming credential validUntil)

def verified (call : ℕ) (valid : Bool) : VerifierState :=
  match s.calls call with
  | .verifying credential validUntil refreshed =>
      if valid then s.afterSignature limits call credential validUntil
      else if refreshed then s.setCall call (.rejected .invalidSignature)
      else s.setCall call (.rotating credential validUntil)
  | _ => s

/-- The row of a call is in the table. -/
def commit (call : ℕ) (replays : ReplayTable String ℤ) (digest : String) (expiresAt : ℤ) :
    VerifierState :=
  let row : Consumption := {
    call := call, digest := digest, expiresAt := expiresAt, time := s.now }
  { s with replays := replays, consumptions := s.consumptions ++ [row] }

/-- `INSERT ... ON CONFLICT (digest) DO NOTHING RETURNING digest` -/
def insertReplay (call : ℕ) (credential : PlatformIdentityCredential) (validUntil : ℤ) :
    VerifierState × Bool :=
  let digest := identityReplayDigest sha256 credential.tuple
  let expiresAt := validUntil + limits.clockSkewMs
  match s.replays.consume digest expiresAt with
  | none => (s, false)
  | some replays => (s.commit call replays digest expiresAt, true)

def consume (call : ℕ) : VerifierState :=
  match s.calls call with
  | .consuming credential validUntil =>
      let inserted := s.insertReplay limits sha256 call credential validUntil
      inserted.1.setCall call (.consumed credential validUntil inserted.2)
  | _ => s

def consumeFails (call : ℕ) (committed : Bool) : VerifierState :=
  match s.calls call with
  | .consuming credential validUntil =>
      let after :=
        if committed then (s.insertReplay limits sha256 call credential validUntil).1 else s
      after.setCall call (.refused .replayStoreFailed)
  | _ => s

def record (call : ℕ) (credential : PlatformIdentityCredential) (validUntil : ℤ) :
    VerifierState :=
  let acceptance : Acceptance := {
    call := call, tuple := credential.tuple
    expiresAt := validUntil + limits.clockSkewMs, time := s.now }
  { s with acceptances := s.acceptances ++ [acceptance] }

def finish (call : ℕ) : VerifierState :=
  match s.calls call with
  | .consumed credential validUntil fresh =>
      if s.now - limits.clockSkewMs ≥ validUntil then s.setCall call (.refused .expired)
      else if !fresh then s.setCall call (.refused .replayed)
      else
        (s.record limits call credential validUntil).setCall call
          (.accepted (normalize credential))
  | _ => s

def apply : VerifierAction → VerifierState
  | .verify call binding parsed => s.verify limits call binding parsed
  | .resolved call document => s.resolved call document
  | .verified call valid => s.verified limits call valid
  | .consume call => s.consume limits sha256 call
  | .consumeFails call committed => s.consumeFails limits sha256 call committed
  | .finish call => s.finish limits call
  | .sweep => { s with replays := s.replays.sweep s.now }
  | .tick now => { s with now := now }

/-- The clock does not run backwards. -/
def enabled : VerifierAction → Bool
  | .verify call _ _ => match s.calls call with
      | .idle => true
      | _ => false
  | .tick now => s.now ≤ now
  | _ => true

end VerifierState

def verifierSystem (limits : IdentityVcLimits) (sha256 : String → String) :
    System VerifierState VerifierAction :=
  .ofApply (fun s => ∃ now, s = { now := now }) (fun s a => s.enabled a = true)
    (VerifierState.apply limits sha256)

end VicoopBridge
