import VicoopBridge.Library.JsonReading
import VicoopBridge.Library.Transition
import VicoopBridge.Model.FederatedPrincipal

/-! # The shared catalog of Codex models

Calls for one version and one login share a load. A call leaves when its signal aborts, and the
last one to leave aborts the load. -/

namespace VicoopBridge.CodexModelCatalogCache

open Library
open Library.JsonText (Value)

inductive CredentialKind where
  | apiKey
  | oauth
  deriving DecidableEq

def CredentialKind.text : CredentialKind → JsText
  | .apiKey => JsText.ofAscii "api-key"
  | .oauth => JsText.ofAscii "oauth"

structure CodexCredential where
  kind : CredentialKind
  secret : JsText
  accountId : Option JsText
  deriving DecidableEq

/-- `[version, auth.kind, auth.accountId, auth.secret]` -/
def identity (version : JsText) (auth : CodexCredential) : Value :=
  .array [.string version, .string auth.kind.text,
    match auth.accountId with
    | some id => .string id
    | none => .null,
    .string auth.secret]

inductive Rejection where
  /-- `signal.reason`, which may be `null`. -/
  | reason (value : Option String)
  | catalogRequestAborted
  /-- What reading the login threw. -/
  | credential (message : String)
  /-- What loading the catalog threw. -/
  | load (message : String)
  deriving DecidableEq

/-- A catalog, or none for an API key. -/
abbrev Settlement := Except Rejection (Option String)

structure Entry where
  version : JsText
  auth : CodexCredential
  key : JsText
  users : ℕ := 0
  /-- How the load has ended, once `settled` is set. -/
  settled : Option Settlement := none
  /-- `controller.abort()` has been called. -/
  aborted : Bool := false
  deriving DecidableEq

def Entry.failed (entry : Entry) : Bool :=
  match entry.settled with
  | some (.error _) => true
  | _ => false

inductive CallStage where
  /-- The login is being read. -/
  | reading
  /-- Rejected without a load. -/
  | rejected (rejection : Rejection)
  /-- The call has the promise of this entry, and its own settles with the result. -/
  | joined (entry : ℕ) (auth : CodexCredential) (result : Option Settlement)
  deriving DecidableEq

structure CatalogCall where
  version : JsText
  signal : ℕ
  stage : CallStage := .reading
  deriving DecidableEq

def CatalogCall.result (call : CatalogCall) : Option Settlement :=
  match call.stage with
  | .reading => none
  | .rejected rejection => some (.error rejection)
  | .joined _ _ result => result

/-- The call has joined the entry and not finished. -/
def CatalogCall.waitsFor (e : ℕ) (call : CatalogCall) : Bool :=
  match call.stage with
  | .joined entry _ none => entry = e
  | _ => false

structure CatalogCache where
  entries : List Entry := []
  current : Option ℕ := none
  calls : List CatalogCall := []
  /-- The signals that have aborted, with their reasons. -/
  signals : List (ℕ × Option String) := []
  deriving DecidableEq

namespace CatalogCache

variable (sha256 : JsText → JsText)

def reason? (s : CatalogCache) (signal : ℕ) : Option (Option String) := s.signals.lookup signal

def setStage (s : CatalogCache) (n : ℕ) (stage : CallStage) : CatalogCache :=
  { s with calls := s.calls.modify n fun call => { call with stage } }

def modifyEntry (s : CatalogCache) (e : ℕ) (f : Entry → Entry) : CatalogCache :=
  { s with entries := s.entries.modify e f }

/-- `throwIfAborted`, before anything else. -/
def start (s : CatalogCache) (version : JsText) (signal : ℕ) : CatalogCache :=
  let stage : CallStage :=
    match s.reason? signal with
    | some reason => .rejected (.reason reason)
    | none => .reading
  { s with calls := s.calls ++ [{ version, signal, stage }] }

def keyOf (version : JsText) (auth : CodexCredential) : JsText :=
  sha256 (JsonText.compact (identity version auth))

/-- The current entry, if it has this key. -/
def hit (s : CatalogCache) (key : JsText) : Option ℕ :=
  s.current.filter fun e => (s.entries[e]?).any fun entry => entry.key = key

/-- The entry for the key, a new one if the current one has another key. -/
def entryFor (s : CatalogCache) (version : JsText) (auth : CodexCredential) : CatalogCache × ℕ :=
  let key := keyOf sha256 version auth
  match s.hit key with
  | some e => (s, e)
  | none =>
      ({ s with entries := s.entries ++ [⟨version, auth, key, 0, none, false⟩]
                current := some s.entries.length }, s.entries.length)

def join (s : CatalogCache) (n : ℕ) (version : JsText) (auth : CodexCredential) : CatalogCache :=
  let (t, e) := s.entryFor sha256 version auth
  (t.modifyEntry e fun entry => { entry with users := entry.users + 1 }).setStage n
    (.joined e auth none)

/-- Reading the login has ended. -/
def credentialRead (s : CatalogCache) (n : ℕ) (outcome : Except String CodexCredential) :
    CatalogCache :=
  match s.calls[n]? with
  | some ⟨version, signal, .reading⟩ =>
      match outcome with
      | .error message => s.setStage n (.rejected (.credential message))
      | .ok auth =>
          match s.reason? signal with
          | some reason => s.setStage n (.rejected (.reason reason))
          | none => s.join sha256 n version auth
  | _ => s

/-- The entry is not current any more. -/
def drop (s : CatalogCache) (e : ℕ) : CatalogCache :=
  { s with current := if s.current = some e then none else s.current }

/-- The load has ended. -/
def loadSettles (s : CatalogCache) (e : ℕ) (outcome : Except String (Option String)) :
    CatalogCache :=
  match s.entries[e]? with
  | some entry =>
      if entry.settled.isSome then s
      else
        match outcome with
        | .ok value => s.modifyEntry e fun entry => { entry with settled := some (.ok value) }
        | .error message =>
            (s.modifyEntry e fun entry =>
              { entry with settled := some (.error (.load message)) }).drop e
  | none => s

/-- The call is done and not counted any more. -/
def leave (s : CatalogCache) (n e : ℕ) (auth : CodexCredential) (result : Settlement) :
    CatalogCache :=
  (s.setStage n (.joined e auth (some result))).modifyEntry e fun entry =>
    { entry with users := entry.users - 1 }

def abandon (s : CatalogCache) (e : ℕ) : CatalogCache :=
  (s.drop e).modifyEntry e fun entry => { entry with aborted := true }

/-- Does nothing once the call is done. -/
def finish (s : CatalogCache) (n : ℕ) (result : Settlement) : CatalogCache :=
  match s.calls[n]? with
  | some ⟨_, _, .joined e auth none⟩ =>
      let s := s.leave n e auth result
      if (s.entries[e]?).any fun entry => entry.users = 0 ∧ entry.settled = none then s.abandon e
      else s
  | _ => s

/-- The promise of the entry tells the call how the load has ended. -/
def react (s : CatalogCache) (n : ℕ) : CatalogCache :=
  match s.calls[n]? with
  | some ⟨_, _, .joined e _ none⟩ =>
      match (s.entries[e]?).bind Entry.settled with
      | some outcome => s.finish n outcome
      | none => s
  | _ => s

/-- `signal.reason ?? new Error('catalog request aborted')` -/
def abortRejection : Option String → Rejection
  | some value => .reason (some value)
  | none => .catalogRequestAborted

/-- The abort listener of a call. -/
def abortCall (signal : ℕ) (reason : Option String) (s : CatalogCache) (n : ℕ) : CatalogCache :=
  if (s.calls[n]?).any fun call => call.signal = signal then
    s.finish n (.error (abortRejection reason))
  else s

/-- All listeners of the signal, one after the other. A signal aborts once. -/
def abort (s : CatalogCache) (signal : ℕ) (reason : Option String) : CatalogCache :=
  if (s.reason? signal).isSome then s
  else
    (List.range s.calls.length).foldl (abortCall signal reason)
      { s with signals := (signal, reason) :: s.signals }

/-! ## Runs -/

inductive Action where
  | call (version : JsText) (signal : ℕ)
  | credentialRead (n : ℕ) (outcome : Except String CodexCredential)
  | loadSettles (e : ℕ) (outcome : Except String (Option String))
  | react (n : ℕ)
  | abort (signal : ℕ) (reason : Option String)

def apply (s : CatalogCache) : Action → CatalogCache
  | .call version signal => s.start version signal
  | .credentialRead n outcome => s.credentialRead sha256 n outcome
  | .loadSettles e outcome => s.loadSettles e outcome
  | .react n => s.react n
  | .abort signal reason => s.abort signal reason

def system : System CatalogCache Action := .ofApply (· = {}) (fun _ _ => True) (apply sha256)

end CatalogCache

end VicoopBridge.CodexModelCatalogCache
