import VicoopBridge.Library.Transition
import VicoopBridge.Model.Ws

/-! # The device authorization grant

The table of device sessions with the requests on it: the token endpoint that a device
polls, and the sign-in of a browser that approves a session. A statement and a transaction
are one step each, and any number of requests may be between two of their steps. -/

namespace VicoopBridge

open Library

/-! ## The tables -/

inductive DeviceFlowIntent where
  | caller
  | ownerSession
  | clientRegister
  deriving DecidableEq, Repr

inductive DeviceStatus where
  | pending
  | approved
  | expired
  deriving DecidableEq, Repr

structure ClientRegisterParams where
  clientName : String
  allowedAgentIds : List String
  deriving DecidableEq, Repr

abbrev DeviceCode := String

structure DeviceSession where
  userCode : String
  status : DeviceStatus := .pending
  principalId : Option String := none
  email : Option String := none
  intent : DeviceFlowIntent
  intentParams : Option ClientRegisterParams := none
  expiresAt : ℕ
  deriving DecidableEq, Repr

inductive Audience where
  | caller
  | ownerSession
  deriving DecidableEq, Repr

/-- A row of `callers`. -/
structure SessionToken where
  principalId : String
  audience : Audience
  email : Option String
  expiresAt : ℕ
  deriving DecidableEq, Repr

structure AgentRow where
  id : String
  ownerPrincipal : String
  ownerEmail : Option String := none
  name : String
  deriving DecidableEq, Repr

/-- What a session is redeemed for. -/
inductive DeviceCredential where
  | token (token : SessionToken)
  | client (agent : AgentRow)
  deriving DecidableEq, Repr

structure DeviceDb where
  deviceSessions : InsertionMap DeviceCode DeviceSession := .empty
  callers : List SessionToken := []
  agents : List AgentRow := []

/-- The role that a transaction runs as. -/
inductive DbRole where
  | appPostgraphile
  | appAuthenticated
  deriving DecidableEq

namespace DeviceDb

variable (db : DeviceDb)

/-- Row security on `device_sessions` has a policy for `app_postgraphile` alone, so a
transaction of another role finds no row to delete. -/
def deleteSession (role : DbRole) (code : DeviceCode) : DeviceDb :=
  match role with
  | .appPostgraphile => { db with deviceSessions := db.deviceSessions.erase code }
  | .appAuthenticated => db

def updateSession (code : DeviceCode) (f : DeviceSession → DeviceSession) : DeviceDb :=
  match db.deviceSessions.get? code with
  | some row => { db with deviceSessions := db.deviceSessions.set code (f row) }
  | none => db

/-- `register_client()` of one agent; an id that is taken raises. -/
def registerClient (principalId : String) (email : Option String)
    (params : ClientRegisterParams) : Option (AgentRow × DeviceDb) :=
  match params.allowedAgentIds with
  | [id] =>
      if isReservedAgentId id ∨ ∃ agent ∈ db.agents, agent.id = id then none
      else
        let agent : AgentRow := {
          id := id, ownerPrincipal := principalId, name := params.clientName
          ownerEmail := truthy email }
        some (agent, { db with agents := db.agents ++ [agent] })
  | _ => none

/-- The transaction that redeems a session: `row` is what an earlier statement read. -/
def issue (code : DeviceCode) (row : DeviceSession) (principalId : String) (expiresAt : ℕ) :
    Option (DeviceCredential × DeviceDb) :=
  let issueSessionToken (audience : Audience) : DeviceCredential × DeviceDb :=
    let token : SessionToken := {
      principalId := principalId, audience := audience, email := row.email
      expiresAt := expiresAt }
    let db := { db with callers := db.callers ++ [token] }
    (.token token, db.deleteSession .appPostgraphile code)
  match row.intent with
  | .caller => some (issueSessionToken .caller)
  | .ownerSession => some (issueSessionToken .ownerSession)
  | .clientRegister =>
      match row.intentParams with
      | none => none
      | some params =>
          (db.registerClient principalId row.email params).map fun result =>
            (.client result.1, result.2.deleteSession .appAuthenticated code)

end DeviceDb

/-! ## Requests -/

structure DeviceFlowOptions where
  sessionTtlMs : ℕ := 10 * 60 * 1000
  tokenTtlMs : ℕ := 90 * 24 * 60 * 60 * 1000
  minPollIntervalMs : ℕ := 5000

inductive DeviceResponse where
  | slowDown
  | authorizationPending
  | expiredToken
  | serverError
  | issued (credential : DeviceCredential)
  /-- A page for the browser. -/
  | page
  deriving DecidableEq

/-- Where a request is. `row` is the session as the request has read it, and `process` the
server that a poll has reached. -/
inductive DeviceRequest where
  | idle
  | looking (process : ℕ) (code : DeviceCode)
  | bumping (process : ℕ) (code : DeviceCode)
  | issuing (process : ℕ) (code : DeviceCode) (row : DeviceSession) (principalId : String)
  /-- The browser is back from the sign-in; with `onsite` a popup waits for the token. -/
  | returned (code : DeviceCode) (onsite : Bool)
  | exchanging (code : DeviceCode) (onsite : Bool) (row : DeviceSession)
  | approving (code : DeviceCode) (principalId : String) (email : Option String)
  | issuingOnsite (code : DeviceCode) (row : DeviceSession) (principalId : String)
  | answered (response : DeviceResponse)

/-- The session a request holds a copy of. -/
def DeviceRequest.snapshot : DeviceRequest → Option (DeviceCode × DeviceSession)
  | .issuing _ code row _ | .exchanging code _ row | .issuingOnsite code row _ => some (code, row)
  | _ => none

/-- `minted` records the sessions by their codes as they were created, and `issued` the
credentials by the code they were issued for. -/
structure DeviceState where
  db : DeviceDb := {}
  lastPoll : ℕ → InsertionMap DeviceCode ℕ := fun _ => .empty
  requests : ℕ → DeviceRequest := fun _ => .idle
  minted : InsertionMap DeviceCode DeviceSession := .empty
  issued : List (DeviceCode × DeviceCredential) := []

inductive DeviceAction where
  /-- `POST /oauth/device/code` -/
  | create (code : DeviceCode) (userCode : String) (intent : DeviceFlowIntent)
      (intentParams : Option ClientRegisterParams) (now : ℕ)
  /-- `POST /oauth/token` with a device code. -/
  | poll (request process : ℕ) (code : DeviceCode) (now : ℕ)
  | select (request now : ℕ)
  | bump (request : ℕ)
  /-- `GET /oauth/google/callback` with a verified state and a code. -/
  | callback (request : ℕ) (code : DeviceCode) (onsite : Bool)
  /-- The sign-in has told who the user is, or failed. -/
  | exchanged (request : ℕ) (user : Option (String × Option String))
  | approve (request : ℕ)
  | issue (request now : ℕ)
  /-- A statement failed, or the connection did. -/
  | fail (request : ℕ)
  | sweep (now : ℕ)
  /-- Another part of the server has written the table of agents. -/
  | setAgents (agents : List AgentRow)

namespace DeviceState

variable (opts : DeviceFlowOptions) (s : DeviceState)

def setRequest (r : ℕ) (phase : DeviceRequest) : DeviceState :=
  { s with requests := Function.update s.requests r phase }

def answer (r : ℕ) (response : DeviceResponse) : DeviceState :=
  s.setRequest r (.answered response)

def forgetPoll (process : ℕ) (code : DeviceCode) : DeviceState :=
  { s with lastPoll := Function.update s.lastPoll process ((s.lastPoll process).erase code) }

def prunePollMap (opts : DeviceFlowOptions) (s : DeviceState) (process now : ℕ) : DeviceState :=
  let polls := (s.lastPoll process).filter fun _ polled => now ≤ polled + opts.sessionTtlMs
  { s with lastPoll := Function.update s.lastPoll process polls }

/-- The user code is unique among the rows, and a collision is retried with another. -/
def create (code : DeviceCode) (userCode : String) (intent : DeviceFlowIntent)
    (intentParams : Option ClientRegisterParams) (now : ℕ) : DeviceState :=
  let row : DeviceSession := {
    userCode := userCode, intent := intent, intentParams := intentParams
    expiresAt := now + opts.sessionTtlMs }
  { s with
    db := { s.db with deviceSessions := s.db.deviceSessions.set code row }
    minted := s.minted.set code row }

/-- The slow-down check comes before the look at the row. -/
def poll (r process : ℕ) (code : DeviceCode) (now : ℕ) : DeviceState :=
  if ((s.lastPoll process).get? code).any fun prev => now < prev + opts.minPollIntervalMs then
    s.answer r .slowDown
  else
    let polls := (s.lastPoll process).set code now
    let s := { s with lastPoll := Function.update s.lastPoll process polls }
    s.setRequest r (.looking process code)

/-- What a poll makes of the row it has read. -/
def look (r process : ℕ) (code : DeviceCode) (now : ℕ) : DeviceState :=
  let expired := (s.forgetPoll process code).answer r .expiredToken
  match s.db.deviceSessions.get? code with
  | none => expired
  | some row =>
      if row.expiresAt ≤ now then s.setRequest r (.bumping process code)
      else
        match row.status, truthy row.principalId with
        | .pending, _ => s.answer r .authorizationPending
        | .expired, _ | .approved, none => expired
        | .approved, some principalId =>
            if row.intent = .clientRegister ∧ row.intentParams = none then expired
            else s.setRequest r (.issuing process code row principalId)

/-- What a callback makes of the row it has read. -/
def lookPending (r : ℕ) (code : DeviceCode) (onsite : Bool) (now : ℕ) : DeviceState :=
  match s.db.deviceSessions.get? code with
  | none => s.answer r .page
  | some row =>
      if row.status ≠ .pending ∨ row.expiresAt ≤ now then s.answer r .page
      else s.setRequest r (.exchanging code onsite row)

def select (r now : ℕ) : DeviceState :=
  match s.requests r with
  | .looking process code => s.look r process code now
  | .returned code onsite => s.lookPending r code onsite now
  | _ => s

def bump (r : ℕ) : DeviceState :=
  match s.requests r with
  | .bumping process code =>
      let db := s.db.updateSession code fun row => { row with status := .expired }
      ({ s with db := db }.forgetPoll process code).answer r .expiredToken
  | _ => s

/-- A popup gets its token here; a device has to poll for its credential. -/
def exchanged (r : ℕ) (user : Option (String × Option String)) : DeviceState :=
  match s.requests r, user with
  | .exchanging _ _ _, none => s.answer r .page
  | .exchanging code onsite row, some (principalId, email) =>
      if onsite ∧ row.intent ≠ .clientRegister then
        s.setRequest r (.issuingOnsite code { row with email := email } principalId)
      else s.setRequest r (.approving code principalId email)
  | _, _ => s

def approve (r : ℕ) : DeviceState :=
  match s.requests r with
  | .approving code principalId email =>
      let approved (row : DeviceSession) : DeviceSession :=
        if row.status = .pending then
          { row with status := .approved, principalId := some principalId, email := email }
        else row
      { s with db := s.db.updateSession code approved }.answer r .page
  | _ => s

/-- The transaction of a request has committed. -/
def commit (code : DeviceCode) (credential : DeviceCredential) (db : DeviceDb) : DeviceState :=
  { s with db := db, issued := s.issued ++ [(code, credential)] }

/-- Run the transaction of a request; it may raise. -/
def issue (r now : ℕ) : DeviceState :=
  match s.requests r with
  | .issuing process code row principalId =>
      match s.db.issue code row principalId (now + opts.tokenTtlMs) with
      | none => s.answer r .serverError
      | some (credential, db) =>
          let s := ((s.commit code credential db).forgetPoll process code).prunePollMap opts process now
          s.answer r (.issued credential)
  | .issuingOnsite code row principalId =>
      match s.db.issue code row principalId (now + opts.tokenTtlMs) with
      | none => s.answer r .page
      | some (credential, db) => (s.commit code credential db).answer r .page
  | _ => s

/-- `DELETE FROM device_sessions WHERE expires_at <= now()` -/
def sweep (now : ℕ) : DeviceState :=
  { s with db := { s.db with
      deviceSessions := s.db.deviceSessions.filter fun _ row => now < row.expiresAt } }

def apply : DeviceAction → DeviceState
  | .create code userCode intent intentParams now =>
      s.create opts code userCode intent intentParams now
  | .poll r process code now => s.poll opts r process code now
  | .select r now => s.select r now
  | .bump r => s.bump r
  | .callback r code onsite => s.setRequest r (.returned code onsite)
  | .exchanged r user => s.exchanged r user
  | .approve r => s.approve r
  | .issue r now => s.issue opts r now
  | .fail r => s.answer r .serverError
  | .sweep now => s.sweep now
  | .setAgents agents => { s with db := { s.db with agents := agents } }

/-- A device code is 32 random bytes, so no two sessions share one. -/
def enabled : DeviceAction → Bool
  | .create code _ _ _ _ => !s.minted.has code
  | .poll r _ _ _ | .callback r _ _ => match s.requests r with
      | .idle => true
      | _ => false
  | _ => true

end DeviceState

def deviceSystem (opts : DeviceFlowOptions) : System DeviceState DeviceAction :=
  .ofApply (fun s => ∃ agents callers, s = { db := { agents := agents, callers := callers } })
    (fun s a => s.enabled a = true) (DeviceState.apply opts)

end VicoopBridge
