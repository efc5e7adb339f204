import VicoopBridge.Library.InsertionMap
import VicoopBridge.Library.Transition
import VicoopBridge.Library.Url
import VicoopBridge.Model.FederatedPrincipal
import VicoopBridge.Model.IdentityVc

/-! # Resolving did:web

Where the document of a DID is fetched from, and the cache of documents in front of it. -/

namespace VicoopBridge

open Library

/-- `invalidUrl` is what `new URL` throws, `malformedUri` what `encodeURIComponent` throws, and
`network` what DNS and the request reject with. -/
inductive DidWebError where
  | didResolution (message : String)
  | invalidUrl
  | malformedUri
  | network (message : String)
  deriving DecidableEq

namespace DidWeb

open UriComponent

def methodPrefix : JsText := JsText.ofAscii "did:web:"

/-- `/[/?#\\\s]/u` -/
def isDelimiter (u : UInt16) : Bool := u ∈ [0x2F, 0x3F, 0x23, 0x5C] || JsText.isWhitespace u

def decodeSegment (part : JsText) : Except DidWebError JsText :=
  match decodeURIComponent part with
  | some segment => .ok segment
  | none => .error (.didResolution "invalid did:web encoding")

def isInvalidSegment (part : JsText) : Bool :=
  part = [] || part = JsText.ofAscii "." || part = JsText.ofAscii ".."

/-- The decoded segments of the method-specific id. -/
def didSegments (did : JsText) : Except DidWebError (List JsText) :=
  if ¬ methodPrefix <+: did then .error (.didResolution "unsupported did method")
  else
    let methodId := did.drop methodPrefix.length
    if methodId = [] || methodId.any isDelimiter then
      .error (.didResolution "invalid did:web identifier")
    else do
      let segments ← (methodId.splitOn FederatedTuple.colon).mapM decodeSegment
      if segments.any isInvalidSegment then .error (.didResolution "invalid did:web path")
      else .ok segments

def encodeSegment (segment : JsText) : Except DidWebError (List Char) :=
  match encodeURIComponent segment with
  | some name => .ok name
  | none => .error .malformedUri

def didPathname (segments : List JsText) : Except DidWebError (List Char) :=
  if segments = [] then .ok "/.well-known/did.json".toList
  else do
    let names ← segments.mapM encodeSegment
    .ok ('/' :: ['/'].intercalate names ++ "/did.json".toList)

def didWebToHttpsUrl (hosts : HostParser) (did : JsText) : Except DidWebError Url := do
  let segments ← didSegments did
  match Url.parse hosts ("https://".toList ++ Utf16.toScalars (segments.headD [])) with
  | none => .error .invalidUrl
  | some url =>
      if url.username ≠ [] || url.password ≠ [] || url.scheme ≠ "https".toList then
        .error (.didResolution "invalid did:web host")
      else do
        let pathname ← didPathname segments.tail
        .ok (url.setPathname pathname)

end DidWeb

/-! ## The resolver -/

structure DidCacheEntry where
  expiresAt : ℤ
  document : JsonObject
  deriving DecidableEq

/-- What a load waits for. -/
inductive DidLoadPhase where
  | resolving (url : Url)
  | requesting (url : Url) (address : List Char)
  | settled (outcome : Except DidWebError JsonObject)
  deriving DecidableEq

/-- A load is finished when the call that started it has gone on. -/
structure DidLoad where
  issuer : JsText
  phase : DidLoadPhase
  finished : Bool := false

/-- How a call is answered. -/
inductive DidAnswerSource where
  | cache (entry : DidCacheEntry)
  | load (n : ℕ) (owner : Bool)
  | coolingDown

/-- A call of `resolve`, and when it came. `pending` is the load of its issuer that was under way. -/
structure DidCall where
  issuer : JsText
  refresh : Bool
  time : ℤ
  pending : Option ℕ
  source : DidAnswerSource
  outcome : Option (Except DidWebError JsonObject) := none

/-- A refresh of a document that is cached and has not expired, or what the bound on the cache
dropped. -/
inductive DidNote where
  | refreshed (issuer : JsText) (time : ℤ)
  | evicted (issuer : JsText)
  deriving DecidableEq

/-- `isIP` is that of `node:net`. -/
structure DidResolverEnv where
  hosts : HostParser
  isIP : List Char → ℕ
  isDisallowedIpAddress : List Char → Bool
  cacheTtlMs : ℤ := 5 * 60 * 1000
  refreshCooldownMs : ℤ := 5000
  failureCooldownMs : ℤ := 5000
  maxCacheEntries : ℕ := 128

/-- `loads`, `calls` and `notes` are a record, the notes with the latest first. -/
structure SafeDidWebResolver where
  now : ℤ
  cache : InsertionMap JsText DidCacheEntry := .empty
  lastRefreshAttempt : InsertionMap JsText ℤ := .empty
  failures : InsertionMap JsText ℤ := .empty
  inFlight : InsertionMap JsText ℕ := .empty
  loads : List DidLoad := []
  calls : List DidCall := []
  notes : List DidNote := []

/-- `finish` is what the call that started a load does once it has settled, and `deliver` hands a call
the outcome of its load. -/
inductive DidWebEvent where
  | tick (time : ℤ)
  | resolve (issuer : JsText) (refresh : Bool)
  | addresses (n : ℕ) (addresses : List (List Char))
  | document (n : ℕ) (raw : Json)
  | fails (n : ℕ) (error : DidWebError)
  | finish (n : ℕ)
  | deliver (call : ℕ)

def documentId (doc : JsonObject) : Option JsText :=
  (doc.string? "id").map fun id => Utf16.encode id.toList

namespace DidLoadPhase

def isSettled : DidLoadPhase → Bool
  | settled _ => true
  | _ => false

end DidLoadPhase

namespace SafeDidWebResolver

variable (env : DidResolverEnv)

def localhost : List Char := "localhost".toList

/-- What `load` does before it waits. -/
def beginLoad (issuer : JsText) : DidLoadPhase :=
  match DidWeb.didWebToHttpsUrl env.hosts issuer with
  | .error error => .settled (.error error)
  | .ok url =>
      if env.isIP url.host ≠ 0 || url.host = localhost || ".localhost".toList <:+ url.host then
        .settled (.error (.didResolution "literal or local host is not allowed"))
      else .resolving url

def afterAddresses (url : Url) (addresses : List (List Char)) : DidLoadPhase :=
  match addresses with
  | [] => .settled (.error (.didResolution "did:web resolves to a non-public address"))
  | address :: _ =>
      if addresses.any env.isDisallowedIpAddress then
        .settled (.error (.didResolution "did:web resolves to a non-public address"))
      else .requesting url address

def checkDocument (issuer : JsText) (raw : Json) : Except DidWebError JsonObject :=
  match raw with
  | .obj doc =>
      if documentId doc ≠ some issuer then .error (.didResolution "DID document id mismatch")
      else if didMethods doc "verificationMethod" = none ∨ didMethods doc "assertionMethod" = none then
        .error (.didResolution "DID document relationships are malformed")
      else .ok doc
  | _ => .error (.didResolution "DID document is not an object")

variable (s : SafeDidWebResolver)

def setLoad (n : ℕ) (load : DidLoad) : SafeDidWebResolver := { s with loads := s.loads.set n load }

def addCall (call : DidCall) : SafeDidWebResolver := { s with calls := s.calls ++ [call] }

/-- The loop that drops the oldest entries of the cache, with what else is kept for them. -/
def evict : SafeDidWebResolver :=
  let dropped := s.cache.keys.take (s.cache.size - env.maxCacheEntries)
  { s with
    cache := s.cache.trimOldest env.maxCacheEntries
    lastRefreshAttempt := s.lastRefreshAttempt.filter fun issuer _ => issuer ∉ dropped
    failures := s.failures.filter fun issuer _ => issuer ∉ dropped
    notes := dropped.reverse.map .evicted ++ s.notes }

def remember (issuer : JsText) (doc : JsonObject) : SafeDidWebResolver :=
  evict env { s with cache := s.cache.set issuer ⟨s.now + env.cacheTtlMs, doc⟩ }

def rememberFailure (issuer : JsText) : SafeDidWebResolver :=
  { s with
    failures := ((s.failures.erase issuer).set issuer (s.now + env.failureCooldownMs)).trimOldest
      env.maxCacheEntries }

/-- The load of the issuer that has not settled. -/
def underWay (issuer : JsText) : Option ℕ :=
  s.loads.findIdx? fun load => load.issuer = issuer && !load.phase.isSettled

/-- The entry, unless it has expired. -/
def fresh (issuer : JsText) : Option DidCacheEntry :=
  (s.cache.get? issuer).filter fun entry => s.now < entry.expiresAt

def makeCall (issuer : JsText) (refresh : Bool) (source : DidAnswerSource)
    (outcome : Option (Except DidWebError JsonObject)) : DidCall where
  issuer := issuer
  refresh := refresh
  time := s.now
  pending := s.underWay issuer
  source := source
  outcome := outcome

def serveCached (issuer : JsText) (refresh : Bool) (entry : DidCacheEntry) : SafeDidWebResolver :=
  s.addCall (s.makeCall issuer refresh (.cache entry) (some (.ok entry.document)))

def startLoad (issuer : JsText) (refresh : Bool) : SafeDidWebResolver :=
  let n := s.loads.length
  let s := s.addCall (s.makeCall issuer refresh (.load n true) none)
  { s with
    loads := s.loads ++ [⟨issuer, beginLoad env issuer, false⟩]
    inFlight := s.inFlight.set issuer n }

/-- A call that neither the cache nor a load answers, and that is not cooling down. -/
def resolveAnew (issuer : JsText) (refresh : Bool) : SafeDidWebResolver :=
  match if refresh then s.fresh issuer else none with
  | none => s.startLoad env issuer refresh
  | some entry =>
      if ((s.lastRefreshAttempt.get? issuer).any fun last => s.now - last < env.refreshCooldownMs) then
        s.serveCached issuer refresh entry
      else
        let s := { s with
          lastRefreshAttempt := s.lastRefreshAttempt.set issuer s.now
          notes := .refreshed issuer s.now :: s.notes }
        s.startLoad env issuer refresh

/-- `resolve`, up to where it waits. -/
def resolve (issuer : JsText) (refresh : Bool) : SafeDidWebResolver :=
  match if refresh then none else s.fresh issuer with
  | some entry =>
      let s := { s with cache := (s.cache.erase issuer).set issuer entry }
      s.serveCached issuer refresh entry
  | none =>
      match s.inFlight.get? issuer with
      | some n => s.addCall (s.makeCall issuer refresh (.load n false) none)
      | none =>
          match s.failures.get? issuer with
          | none => s.resolveAnew env issuer refresh
          | some retryAfter =>
              if s.now < retryAfter then
                s.addCall (s.makeCall issuer refresh .coolingDown
                  (some (.error (.didResolution "DID document resolution is cooling down"))))
              else
                resolveAnew env { s with failures := s.failures.erase issuer } issuer refresh

/-- The document has come: it is cached when it passes the checks. -/
def onDocument (n : ℕ) (load : DidLoad) (raw : Json) : SafeDidWebResolver :=
  let outcome := checkDocument load.issuer raw
  let s := s.setLoad n { load with phase := .settled outcome }
  match outcome with
  | .ok doc => s.remember env load.issuer doc
  | .error _ => s

/-- What follows the `await` of the call that started the load. -/
def finish (n : ℕ) (load : DidLoad) (outcome : Except DidWebError JsonObject) :
    SafeDidWebResolver :=
  let s := match outcome with
    | .ok _ => { s with failures := s.failures.erase load.issuer }
    | .error _ => s.rememberFailure env load.issuer
  let s := if s.inFlight.get? load.issuer = some n then
      { s with inFlight := s.inFlight.erase load.issuer }
    else s
  s.setLoad n { load with finished := true }

def apply : DidWebEvent → SafeDidWebResolver
  | .tick time => { s with now := time }
  | .resolve issuer refresh => s.resolve env issuer refresh
  | .addresses n addresses =>
      match s.loads[n]? with
      | some ⟨issuer, .resolving url, finished⟩ =>
          s.setLoad n ⟨issuer, afterAddresses env url addresses, finished⟩
      | _ => s
  | .document n raw =>
      match s.loads[n]? with
      | some ⟨issuer, .requesting url address, finished⟩ =>
          s.onDocument env n ⟨issuer, .requesting url address, finished⟩ raw
      | _ => s
  | .fails n error =>
      match s.loads[n]? with
      | some ⟨issuer, phase, finished⟩ =>
          if phase.isSettled then s else s.setLoad n ⟨issuer, .settled (.error error), finished⟩
      | none => s
  | .finish n =>
      match s.loads[n]? with
      | some ⟨issuer, .settled outcome, false⟩ =>
          s.finish env n ⟨issuer, .settled outcome, false⟩ outcome
      | _ => s
  | .deliver call =>
      match s.calls[call]? with
      | some ⟨issuer, refresh, time, pending, .load n owner, none⟩ =>
          match s.loads[n]? with
          | some ⟨_, .settled outcome, finished⟩ =>
              if owner && !finished then s
              else { s with
                calls := s.calls.set call
                  ⟨issuer, refresh, time, pending, .load n owner, some outcome⟩ }
          | _ => s
      | _ => s

/-- Time does not go back. -/
def enabled : DidWebEvent → Prop
  | .tick time => s.now ≤ time
  | _ => True

instance (event : DidWebEvent) : Decidable (s.enabled event) :=
  match event with
  | .tick time => inferInstanceAs (Decidable (s.now ≤ time))
  | .resolve .. | .addresses .. | .document .. | .fails .. | .finish _ | .deliver _ =>
      inferInstanceAs (Decidable True)

end SafeDidWebResolver

def didResolverSystem (env : DidResolverEnv) : System SafeDidWebResolver DidWebEvent :=
  System.ofApply (fun s => ∃ now, s = { now := now }) SafeDidWebResolver.enabled
    (SafeDidWebResolver.apply env)

end VicoopBridge
