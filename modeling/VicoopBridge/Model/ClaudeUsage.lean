import Mathlib.Algebra.Order.Field.Rat
import Mathlib.Algebra.Order.Group.Abs
import Mathlib.Algebra.Order.Monoid.WithTop
import Mathlib.Order.WithBot
import VicoopBridge.Library.Transition
import VicoopBridge.Model.JsonData

/-! # What is left of a Claude subscription

`usage()` asks an endpoint that limits how often it may be asked. A snapshot is reused for some
time, and no attempt is made before the time that the last one has set. Numbers are rationals, and
sums of times are exact. -/

namespace VicoopBridge.ClaudeUsage

open Library

/-! ## Values from outside -/

abbrev Data := JsonData String

/-- `Object.entries`, for the values that matter: those of a string are strings. -/
def entriesOf : Data → List (String × Data)
  | .object fields => fields
  | .array items => items.zipIdx.map fun item => (toString item.2, item.1)
  | _ => []

/-! ## Units and formats -/

/-- A time a `Date` can hold, in milliseconds. -/
structure Instant where
  ms : ℚ
  inRange : |ms| ≤ 8640000000000000

inductive UsageSeverity where
  | ok
  | warning
  | critical
  deriving DecidableEq

def deriveSeverity (usedPercent : ℚ) : UsageSeverity :=
  if 90 ≤ usedPercent then .critical
  else if 75 ≤ usedPercent then .warning
  else .ok

def clampPercent (n : ℚ) : ℚ := max 0 (min 100 n)

def numberOr (v : Option Data) (fallback : ℚ) : ℚ :=
  match v with
  | some (.number (.finite q)) => q
  | _ => fallback

def isoOrNull (v : Option Data) : Option String :=
  (v.bind JsonData.string?).filter (· ≠ "")

def invalidTime : String := "Invalid time value"

variable (iso : Instant → String)

/-- `new Date(ms).toISOString()` -/
def toISOString (ms : ℚ) : Except String String :=
  if h : |ms| ≤ 8640000000000000 then .ok (iso ⟨ms, h⟩) else .error invalidTime

def epochSecondsToIso (epochSeconds : Option Data) : Except String (Option String) :=
  match epochSeconds with
  | some (.number (.finite q)) => (toISOString iso (q * 1000)).map some
  | _ => .ok none

/-! ## The payload -/

structure UsageWindow where
  /-- `undefined` for a key that every object inherits. -/
  id : Option String
  label : Option String
  usedPercent : ℚ
  resetsAt : Option String
  severity : UsageSeverity
  deriving DecidableEq

structure UsageSpend where
  usedMinor : ℚ
  limitMinor : ℚ
  currency : String
  usedPercent : ℚ
  resetsAt : Option String
  deriving DecidableEq

def claudeWindowMeta : List (String × String × String) :=
  [("five_hour", "session_5h", "5-hour session"),
    ("seven_day", "weekly", "Weekly (all models)"),
    ("seven_day_sonnet", "weekly_sonnet", "Weekly (Sonnet)"),
    ("seven_day_opus", "weekly_opus", "Weekly (Opus)")]

/-- What the lookup of a key finds on every object. -/
def inheritedKeys : List String :=
  ["constructor", "__defineGetter__", "__defineSetter__", "hasOwnProperty", "__lookupGetter__",
    "__lookupSetter__", "isPrototypeOf", "propertyIsEnumerable", "toString", "valueOf",
    "__proto__", "toLocaleString"]

/-- `CLAUDE_WINDOW_META[key] ?? { id: key, label: key }` -/
def windowMeta (key : String) : Option String × Option String :=
  match claudeWindowMeta.lookup key with
  | some (id, label) => (some id, some label)
  | none => if key ∈ inheritedKeys then (none, none) else (some key, some key)

def claudeNonWindowKeys : List String := ["extra_usage", "spend", "limits"]

/-- An array has no property of this name. -/
def isWindowObject (v : Data) : Bool := ((v.get? "utilization").bind JsonData.number?).isSome

def toWindow (key : String) (value : Data) : UsageWindow :=
  let usedPercent := clampPercent (numberOr (value.get? "utilization") 0)
  { id := (windowMeta key).1
    label := (windowMeta key).2
    usedPercent
    resetsAt := isoOrNull (value.get? "resets_at")
    severity := deriveSeverity usedPercent }

def currencyOf (v : Option Data) : Option String := (v.bind (·.get? "currency")).bind JsonData.string?

/-- `typeof v === 'number'` -/
def isNumber (v : Option Data) : Bool := (v.bind JsonData.number?).isSome

/-- `v === b` -/
def isBool (v : Option Data) (b : Bool) : Bool :=
  match v with
  | some (.bool b') => b' = b
  | _ => false

/-- The monetary budget: `spend`, and `extra_usage` where that has none. -/
def toSpend (obj : Data) (overageResetsAt : Option String) : Option UsageSpend :=
  let spendRaw := obj.get? "spend"
  let extra := obj.get? "extra_usage"
  let used := spendRaw.bind (·.get? "used")
  let limit := spendRaw.bind (·.get? "limit")
  if spendRaw.any (JsonData.truthy "") ∧ isBool (spendRaw.bind (·.get? "enabled")) false = false ∧
      isNumber (used.bind (·.get? "amount_minor")) then
    some
      { usedMinor := numberOr (used.bind (·.get? "amount_minor")) 0
        limitMinor := numberOr (limit.bind (·.get? "amount_minor")) 0
        currency := (currencyOf used).getD ((currencyOf extra).getD "USD")
        usedPercent := clampPercent (numberOr (spendRaw.bind (·.get? "percent")) 0)
        resetsAt := overageResetsAt }
  else if extra.any (JsonData.truthy "") ∧ isBool (extra.bind (·.get? "is_enabled")) true ∧
      isNumber (extra.bind (·.get? "monthly_limit")) then
    some
      { usedMinor := numberOr (extra.bind (·.get? "used_credits")) 0
        limitMinor := numberOr (extra.bind (·.get? "monthly_limit")) 0
        currency := (currencyOf extra).getD "USD"
        usedPercent := clampPercent (numberOr (extra.bind (·.get? "utilization")) 0)
        resetsAt := overageResetsAt }
  else none

def oauthToWindowsAndSpend (raw : Data) (overageResetsAt : Option String) :
    List UsageWindow × Option UsageSpend :=
  let entries := (entriesOf raw).filter fun entry =>
    !(claudeNonWindowKeys.contains entry.1) && isWindowObject entry.2
  (entries.map fun entry => toWindow entry.1 entry.2, toSpend raw overageResetsAt)

/-! ## Credentials -/

structure ClaudeOAuthCreds where
  accessToken : String
  expiresAt : Option JsonNumber
  subscriptionType : Option String

/-- The stored text as JSON, or `none` when it is not. -/
abbrev Stored := Option Data

def parseCreds (raw : Stored) : Option ClaudeOAuthCreds :=
  let oauth := raw.bind (·.get? "claudeAiOauth")
  match (oauth.bind (·.get? "accessToken")).bind JsonData.string? with
  | some token =>
      if token = "" then none
      else
        some
          { accessToken := token
            expiresAt := (oauth.bind (·.get? "expiresAt")).bind JsonData.number?
            subscriptionType := (oauth.bind (·.get? "subscriptionType")).bind JsonData.string? }
  | none => none

/-- What the host has when the login is read. -/
structure ClaudeCredEnv where
  darwin : Bool
  configDir : Option String
  /-- The home directory, or what asking for it throws. -/
  homedir : Except String String
  /-- The Keychain entry, if there is one. -/
  keychain : Except String (Option Stored)
  /-- The content of the file, if it exists. -/
  file : Option (Except String Stored)

/-- The path of the file needs the home directory unless the configuration names another. -/
def ClaudeCredEnv.located (env : ClaudeCredEnv) : Except String Unit :=
  match env.configDir.filter (· ≠ "") with
  | some _ => .ok ()
  | none => env.homedir.map fun _ => ()

def ClaudeCredEnv.keychainCreds (env : ClaudeCredEnv) : Option ClaudeOAuthCreds :=
  match env.keychain with
  | .ok (some raw) => if env.darwin then parseCreds raw else none
  | _ => none

def ClaudeCredEnv.fileCreds (env : ClaudeCredEnv) : Option ClaudeOAuthCreds :=
  match env.file with
  | some (.ok raw) => parseCreds raw
  | _ => none

def readClaudeOAuthCreds (env : ClaudeCredEnv) : Except String (Option ClaudeOAuthCreds) :=
  env.located.map fun _ => env.keychainCreds.or env.fileCreds

def ClaudeOAuthCreds.expired (creds : ClaudeOAuthCreds) (ts : Instant) : Bool :=
  match creds.expiresAt with
  | some (.finite q) => q ≤ ts.ms
  | some (.infinite negative) => negative
  | _ => false

/-! ## The provider -/

inductive Source where
  | oauth
  | none
  deriving DecidableEq

structure UsageAccount where
  plan : Option String
  windows : List UsageWindow
  spend : Option UsageSpend

structure BridgeUsage where
  source : Source
  fetchedAt : String
  accounts : List UsageAccount
  raw : Option Data
  note : Option String

/-- Before all times, a time, or after all times. -/
abbrev Time := WithBot (WithTop ℚ)

/-- The time so long after an instant. -/
def after (ts : Instant) (wait : WithTop ℚ) : Time := ((ts.ms + wait : WithTop ℚ) : Time)

/-- What one request to the endpoint has come to. -/
inductive FetchUsageResult where
  | threw (message : String)
  | ok (data : Data)
  | failed (status : ℕ) (retryAfterMs : Option (WithTop ℚ))

/-- Why the login is refreshed. -/
inductive Refresh where
  | expired
  | knownDead
  | unauthorized
  deriving DecidableEq

/-- The note when the refresh has brought no new token. -/
def Refresh.note : Refresh → String
  | .expired => "Claude OAuth token expired; using last snapshot/window"
  | .knownDead => "Claude OAuth token expired; CLI refresh did not yield a new token"
  | .unauthorized => "api/oauth/usage 401 (auth expired)"

inductive Stage where
  /-- The client is refreshing the login. -/
  | refreshing (why : Refresh) (creds : ClaudeOAuthCreds)
  /-- The login has been read again, and the caller has not gone on yet. -/
  | refreshed (why : Refresh) (creds : ClaudeOAuthCreds) (rc : Option ClaudeOAuthCreds)
  | fetching (creds : ClaudeOAuthCreds) (refreshed : Bool)
  | done (result : Except String BridgeUsage)

def Stage.settled : Stage → Bool
  | .done _ => true
  | _ => false

def Stage.awaitsRefresh : Stage → Bool
  | .refreshing _ _ => true
  | _ => false

def Stage.awaitsCaller : Stage → Bool
  | .refreshed _ _ _ => true
  | _ => false

def Stage.awaitsAnswer : Stage → Bool
  | .fetching _ _ => true
  | _ => false

/-- One call of `usage()`, with the time it read first. -/
structure Call where
  ts : Instant
  stage : Stage

/-- What has happened, in this order. -/
inductive Entry where
  | read (token : Option String)
  | request (call : ℕ) (ts : Instant) (token : String)
  | answer (call : ℕ) (ts : Instant) (token : String) (result : FetchUsageResult)
  | snapshot (value : BridgeUsage)

structure Provider where
  lastRateLimit : Option Data := none
  lastPlan : Option String := none
  cachedOauth : Option (BridgeUsage × Instant) := none
  nextAttemptAt : Time := ⊥
  lastFailedToken : Option String := none
  calls : List Call := []
  /-- The last time that was read. -/
  clock : Time := ⊥
  log : List Entry := []

namespace Provider

variable (ttl : ℚ)

def record (s : Provider) (entry : Entry) : Provider := { s with log := s.log ++ [entry] }

def push (s : Provider) (ts : Instant) (stage : Stage) : Provider :=
  { s with calls := s.calls ++ [⟨ts, stage⟩] }

def setStage (s : Provider) (n : ℕ) (stage : Stage) : Provider :=
  { s with calls := s.calls.modify n fun call => { call with stage } }

/-- A credential read with a result: it is also where the plan comes from. -/
def noteRead (s : Provider) (creds : Option ClaudeOAuthCreds) : Provider :=
  { s.record (.read (creds.map ClaudeOAuthCreds.accessToken)) with
    lastPlan := (creds.bind ClaudeOAuthCreds.subscriptionType).or s.lastPlan }

def overageResetsAt (s : Provider) : Except String (Option String) :=
  match s.lastRateLimit with
  | some rl =>
      if rl.truthy "" ∧ (rl.get? "rateLimitType").bind JsonData.string? = some "overage" then
        epochSecondsToIso iso (rl.get? "resetsAt")
      else .ok none
  | none => .ok none

def buildOauthSnapshot (s : Provider) (data : Data) (ts : Instant) (plan : Option String) :
    Except String BridgeUsage :=
  s.overageResetsAt iso |>.map fun overageResetsAt =>
    let (windows, spend) := oauthToWindowsAndSpend data overageResetsAt
    { source := .oauth
      fetchedAt := iso ts
      accounts := [{ plan := plan.filter (· ≠ ""), windows, spend }]
      raw := some data
      note := none }

/-- A snapshot that was successful before, with the reason why it is not a new one. -/
def stale (value : BridgeUsage) (note : String) : BridgeUsage :=
  { value with
    note := some (note ++ "; serving last successful snapshot (fetched " ++ value.fetchedAt ++
      ")") }

def noSnapshot (ts : Instant) (note : String) : BridgeUsage :=
  { source := .none, fetchedAt := iso ts, accounts := [], raw := none, note := some note }

def degraded (s : Provider) (ts : Instant) (note : String) : BridgeUsage :=
  match s.cachedOauth with
  | some (value, _) => stale value note
  | none => noSnapshot iso ts note

/-- The snapshot, as long as it may be reused. -/
def fresh (s : Provider) (ts : Instant) : Option BridgeUsage :=
  (s.cachedOauth.filter fun cached => ts.ms - cached.2.ms < ttl).map Prod.fst

def throttled (s : Provider) (ts : Instant) : Bool := after ts 0 < s.nextAttemptAt

/-- The call ends degraded, and the next attempt waits. -/
def backOff (s : Provider) (n : ℕ) (ts : Instant) (wait : WithTop ℚ) (note : String) : Provider :=
  { s with nextAttemptAt := after ts wait }.setStage n (.done (.ok (s.degraded iso ts note)))

/-- The request is made with these credentials. -/
def request (s : Provider) (n : ℕ) (ts : Instant) (creds : ClaudeOAuthCreds) : Provider :=
  s.record (.request n ts creds.accessToken)

/-- `attempt`, for a call that has not refreshed anything. -/
def attempt (s : Provider) (ts : Instant) (creds : ClaudeOAuthCreds) : Provider :=
  if s.lastFailedToken = some creds.accessToken then s.push ts (.refreshing .knownDead creds)
  else (s.request s.calls.length ts creds).push ts (.fetching creds false)

def readClock (s : Provider) (ts : Instant) : Provider := { s with clock := after ts 0 }

/-- A new call, up to its first wait. -/
def usage (s : Provider) (ts : Instant) (env : ClaudeCredEnv) : Provider :=
  let s := s.readClock ts
  match s.fresh ttl ts with
  | some value => s.push ts (.done (.ok value))
  | none =>
      if s.throttled ts then
        s.push ts (.done (.ok
          (s.degraded iso ts "oauth usage throttled (awaiting next attempt window)")))
      else
        match readClaudeOAuthCreds env with
        | .error message => s.push ts (.done (.error message))
        | .ok none =>
            (s.noteRead none).push ts (.done (.ok
              (s.degraded iso ts "no Claude OAuth token found on host")))
        | .ok (some creds) =>
            if creds.expired ts then
              (s.noteRead (some creds)).push ts (.refreshing .expired creds)
            else (s.noteRead (some creds)).attempt ts creds

/-- `refreshFn` has ended, whether or not it threw. -/
def refreshEnds (s : Provider) (n : ℕ) (env : ClaudeCredEnv) : Provider :=
  match s.calls[n]? with
  | some ⟨_, .refreshing why creds⟩ =>
      match readClaudeOAuthCreds env with
      | .error message => s.setStage n (.done (.error message))
      | .ok rc => (s.noteRead rc).setStage n (.refreshed why creds rc)
  | _ => s

/-- The login read again, if its token is another one. -/
def rotated (creds : ClaudeOAuthCreds) (rc : Option ClaudeOAuthCreds) : Option ClaudeOAuthCreds :=
  rc.filter fun rc => rc.accessToken ≠ creds.accessToken

/-- The caller goes on after the refresh. -/
def resume (s : Provider) (n : ℕ) : Provider :=
  match s.calls[n]? with
  | some ⟨ts, .refreshed why creds rc⟩ =>
      match rotated creds rc with
      | some rc => (s.request n ts rc).setStage n (.fetching rc true)
      | none => s.backOff iso n ts ttl why.note
  | _ => s

/-- The rest of `attempt`, once the endpoint has answered. -/
def settle (s : Provider) (n : ℕ) (ts : Instant) (creds : ClaudeOAuthCreds) (refreshed : Bool) :
    FetchUsageResult → Provider
  | .threw message => s.backOff iso n ts ttl ("api/oauth/usage request failed: " ++ message)
  | .ok data =>
      let s := { s with lastFailedToken := none }
      match s.buildOauthSnapshot iso data ts (creds.subscriptionType.or s.lastPlan) with
      | .error message => s.setStage n (.done (.error message))
      | .ok value =>
          { s.record (.snapshot value) with
            cachedOauth := some (value, ts)
            nextAttemptAt := after ts 0 }.setStage n (.done (.ok value))
  | .failed status retryAfterMs =>
      if status = 401 then
        let s := { s with lastFailedToken := some creds.accessToken }
        if refreshed then s.backOff iso n ts ttl Refresh.unauthorized.note
        else s.setStage n (.refreshing .unauthorized creds)
      else if status = 429 then
        s.backOff iso n ts (retryAfterMs.getD ttl) "api/oauth/usage 429 (rate limited)"
      else s.backOff iso n ts ttl ("api/oauth/usage returned HTTP " ++ toString status)

def answer (s : Provider) (n : ℕ) (result : FetchUsageResult) : Provider :=
  match s.calls[n]? with
  | some ⟨ts, .fetching creds refreshed⟩ =>
      (s.record (.answer n ts creds.accessToken result)).settle iso ttl n ts creds refreshed result
  | _ => s

def recordRateLimitEvent (s : Provider) (info : Data) : Provider :=
  match info with
  | .null => s
  | info => { s with lastRateLimit := some info }

/-! ## Runs -/

inductive Action where
  | recordRateLimitEvent (info : Data)
  | usage (ts : Instant) (env : ClaudeCredEnv)
  | refreshEnds (n : ℕ) (env : ClaudeCredEnv)
  | resume (n : ℕ)
  | answer (n : ℕ) (result : FetchUsageResult)

def apply (s : Provider) : Action → Provider
  | .recordRateLimitEvent info => s.recordRateLimitEvent info
  | .usage ts env => s.usage iso ttl ts env
  | .refreshEnds n env => s.refreshEnds n env
  | .resume n => s.resume iso ttl n
  | .answer n result => s.answer iso ttl n result

/-- The clock does not go back, and a call goes on only from what it waits for. -/
def Enabled (s : Provider) : Action → Prop
  | .recordRateLimitEvent _ => True
  | .usage ts _ => s.clock ≤ after ts 0
  | .refreshEnds n _ => (s.calls[n]?).any fun call => call.stage.awaitsRefresh
  | .resume n => (s.calls[n]?).any fun call => call.stage.awaitsCaller
  | .answer n _ => (s.calls[n]?).any fun call => call.stage.awaitsAnswer

def system : System Provider Action := .ofApply (· = {}) Enabled (apply iso ttl)

end Provider

end VicoopBridge.ClaudeUsage
