import VicoopBridge.Library.InsertionMap
import VicoopBridge.Model.DeviceFlow

/-! # Session tokens

`verifySessionToken` answers from its cache at once, or asks the database and, when that has
accepted the token, stamps the row before it fills the cache. Calls may overlap, and rows may
be issued and revoked while a call waits. -/

namespace VicoopBridge

open Library

/-- As the rows have it. -/
def Audience.name : Audience → String
  | .caller => "caller"
  | .ownerSession => "owner_session"

def callerTokenPrefix : String := "vbc_caller_"

def ownerSessionPrefix : String := "vbc_owner_"

def prefixFor : Audience → String
  | .caller => callerTokenPrefix
  | .ownerSession => ownerSessionPrefix

def audienceFromRaw (rawToken : String) : Option Audience :=
  if rawToken.startsWith callerTokenPrefix then some .caller
  else if rawToken.startsWith ownerSessionPrefix then some .ownerSession
  else none

/-- A row of the table `callers`. -/
structure CallerRow where
  id : String
  tokenHash : String
  principalId : String
  audience : String
  email : Option String := none
  expiresAt : ℕ
  revoked : Bool := false
  deriving DecidableEq

/-- The caller that a session token stands for. -/
structure SessionCaller where
  principalId : String
  email : Option String := none
  emailVerified : Option Bool := none
  deriving DecidableEq

def CallerRow.caller (row : CallerRow) : SessionCaller where
  principalId := row.principalId
  email := row.email
  emailVerified := match row.email with
    | some email => if email = "" then none else some true
    | none => none

structure VerifyCacheEntry where
  caller : SessionCaller
  audience : Audience
  expiresAt : ℕ
  deriving DecidableEq

def cacheEvictIntervalMs : ℕ := 60000

def verifyCacheMaxEntries : ℕ := 10000

def cacheMaxEntryTtlMs : ℕ := 60000

inductive VerifyResult where
  | ok (caller : SessionCaller)
  | error (message : String)
  /-- The query of the database threw. -/
  | queryFailed
  deriving DecidableEq

/-- Where a call of `verifySessionToken` stands. -/
inductive VerifyStage where
  | querying (audience : Audience)
  | stamping (audience : Audience) (row : CallerRow)
  | done (result : VerifyResult)
  deriving DecidableEq

/-- `now` is the call's own reading of the clock, by which it decides. -/
structure VerifyCall where
  rawToken : String
  expectedAudience : Option Audience
  now : ℕ
  stage : VerifyStage
  deriving DecidableEq

structure SessionTokens where
  callers : List CallerRow := []
  verifyCache : InsertionMap String VerifyCacheEntry := .empty
  lastEvict : ℕ := 0
  now : ℕ := 0
  calls : List VerifyCall := []

namespace SessionTokens

def audienceMismatch (expected audience : Audience) : String :=
  "Token audience mismatch: this endpoint expects " ++ prefixFor expected ++ "* but got " ++
    prefixFor audience ++ "*"

/-- The endpoint takes another audience than the one given. -/
def mismatches (expectedAudience : Option Audience) (audience : Audience) : Option Audience :=
  expectedAudience.filter (· ≠ audience)

def evictExpired (s : SessionTokens) : SessionTokens :=
  if s.now - s.lastEvict < cacheEvictIntervalMs ∧ s.verifyCache.size ≤ verifyCacheMaxEntries then s
  else
    { s with
      lastEvict := s.now
      verifyCache := (s.verifyCache.filter fun _ entry => ¬ entry.expiresAt ≤ s.now).trimOldest
        verifyCacheMaxEntries }

def addCall (s : SessionTokens) (rawToken : String) (expectedAudience : Option Audience)
    (stage : VerifyStage) : SessionTokens :=
  { s with calls := s.calls ++ [⟨rawToken, expectedAudience, s.now, stage⟩] }

/-- Up to the query, or to the answer of the cache. -/
def verifySessionToken (s : SessionTokens) (rawToken : String)
    (expectedAudience : Option Audience) : SessionTokens :=
  match audienceFromRaw rawToken with
  | none => s.addCall rawToken expectedAudience (.done (.error "Invalid session token format"))
  | some audience =>
      match mismatches expectedAudience audience with
      | some expected =>
          s.addCall rawToken expectedAudience (.done (.error (audienceMismatch expected audience)))
      | none =>
          let s := s.evictExpired
          match s.verifyCache.get? rawToken with
          | some cached =>
              if s.now < cached.expiresAt then
                match mismatches expectedAudience cached.audience with
                | some expected =>
                    s.addCall rawToken expectedAudience (.done (.error
                      ("Token audience mismatch: cached audience " ++ cached.audience.name ++
                        " does not satisfy " ++ expected.name)))
                | none => s.addCall rawToken expectedAudience (.done (.ok cached.caller))
              else s.addCall rawToken expectedAudience (.querying audience)
          | none => s.addCall rawToken expectedAudience (.querying audience)

/-- The row of the token, as the query finds it. -/
def row (hashCallerToken : String → String) (s : SessionTokens) (rawToken : String) :
    Option CallerRow :=
  s.callers.find? fun row => row.tokenHash = hashCallerToken rawToken

/-- The checks on the answer of the query. -/
def checkRow (call : VerifyCall) (audience : Audience) (row : Option CallerRow) : VerifyStage :=
  match row with
  | none => .done (.error "Session token not found")
  | some row =>
      if row.revoked then .done (.error "Session token revoked")
      else if row.expiresAt ≤ call.now then .done (.error "Session token expired")
      else if row.audience ≠ audience.name then .done (.error "Session token audience corruption")
      else
        match mismatches call.expectedAudience audience with
        | some expected => .done (.error (audienceMismatch expected audience))
        | none => .stamping audience row

def setStage (s : SessionTokens) (n : ℕ) (stage : VerifyStage) : SessionTokens :=
  { s with calls := s.calls.modify n fun call => { call with stage } }

/-- The answer of the query arrives; it is of this moment. -/
def query (hashCallerToken : String → String) (s : SessionTokens) (n : ℕ) : SessionTokens :=
  match s.calls[n]? with
  | some call =>
      match call.stage with
      | .querying audience =>
          s.setStage n (checkRow call audience (s.row hashCallerToken call.rawToken))
      | _ => s
  | none => s

/-- The stamp of `last_used_at` has been written, or has failed. -/
def stamped (s : SessionTokens) (n : ℕ) : SessionTokens :=
  match s.calls[n]? with
  | some call =>
      match call.stage with
      | .stamping audience row =>
          let expiresAt := min row.expiresAt (call.now + cacheMaxEntryTtlMs)
          { s.setStage n (.done (.ok row.caller)) with
            verifyCache := s.verifyCache.set call.rawToken ⟨row.caller, audience, expiresAt⟩ }
      | _ => s
  | none => s

/-! ## Runs -/

inductive Action where
  | tick (ms : ℕ)
  /-- A new row; the column `token_hash` is unique. -/
  | issue (row : CallerRow)
  /-- `UPDATE callers SET revoked = true` with some condition on the rows. -/
  | revoke (condition : CallerRow → Bool)
  | verify (rawToken : String) (expectedAudience : Option Audience)
  | query (n : ℕ)
  | queryFails (n : ℕ)
  | stamped (n : ℕ)

def isQuerying (s : SessionTokens) (n : ℕ) : Bool :=
  match s.calls[n]? with
  | some call => match call.stage with
    | .querying _ => true
    | _ => false
  | none => false

def Enabled (s : SessionTokens) : Action → Prop
  | .issue row => ∀ other ∈ s.callers, other.tokenHash ≠ row.tokenHash
  | .queryFails n => s.isQuerying n = true
  | _ => True

def apply (hashCallerToken : String → String) (s : SessionTokens) : Action → SessionTokens
  | .tick ms => { s with now := s.now + ms }
  | .issue row => { s with callers := s.callers ++ [row] }
  | .revoke condition =>
      { s with callers := s.callers.map fun row =>
          if condition row then { row with revoked := true } else row }
  | .verify rawToken expectedAudience => s.verifySessionToken rawToken expectedAudience
  | .query n => s.query hashCallerToken n
  | .queryFails n => s.setStage n (.done .queryFailed)
  | .stamped n => s.stamped n

/-- The server starts with an empty cache, some rows and some clock. -/
def Initial (s : SessionTokens) : Prop :=
  s.verifyCache = .empty ∧ s.calls = [] ∧ s.lastEvict ≤ s.now

def system (hashCallerToken : String → String) : System SessionTokens Action :=
  .ofApply Initial Enabled (apply hashCallerToken)

end SessionTokens

end VicoopBridge
