import VicoopBridge.Library.Transition
import VicoopBridge.Model.FederatedPrincipal

/-! # The caller runtime store

The manifest, written file by file, and the database, whose statements run without a break. A
call of the store is cut at its awaits: it waits for its write of the manifest, or for nothing,
and then goes on. Rows are those of the tables that the modelled calls read or write. -/

namespace VicoopBridge.RuntimeStore

open Library

structure ScopeRecord where
  id : JsText
  kind : JsText
  recordNamespace : JsText
  agentId : JsText
  principalId : Option JsText
  deriving DecidableEq

/-- `callerContexts` holds scopes and contexts, the other tables ids and what belongs to them. -/
structure Database where
  scopes : List ScopeRecord := []
  callerContexts : List (JsText × JsText) := []
  fixedStorage : List (JsText × JsText) := []
  preparations : List (JsText × JsText × Bool) := []
  pendingReservations : List JsText := []
  storageHelpers : List (JsText × JsText) := []
  deriving DecidableEq

/-- What a store is made for. The digest is that of `scopeDigest`. -/
structure StoreEnv where
  agentId : JsText
  recordNamespace : JsText
  scopeDigest : JsText → JsText → JsText

/-- `/^[a-f0-9]{64}$/` -/
def isScopeId (id : JsText) : Bool :=
  id.length = 64 && id.all fun u => 48 ≤ u && u ≤ 57 || 97 ≤ u && u ≤ 102

def isKind (kind : JsText) : Bool :=
  kind = JsText.ofAscii "claude" || kind = JsText.ofAscii "codex"

/-- A row is looked up by the id it has, so its id need not be compared. -/
def validateRecord (env : StoreEnv) (record : ScopeRecord) : Bool :=
  isKind record.kind && record.agentId ≠ [] && record.principalId ≠ some [] &&
    isScopeId record.id && record.agentId = env.agentId && record.recordNamespace = env.recordNamespace &&
      record.principalId.all fun principalId =>
        env.scopeDigest env.agentId principalId = record.id

/-- `parseFederatedPrincipal` accepts it. -/
def isFederated (principalId : Option JsText) : Bool :=
  match principalId with
  | some principalId => principalId ≠ [] && (FederatedTuple.parse principalId).isSome
  | none => false

namespace Database

def find (db : Database) (id : JsText) : Option ScopeRecord := db.scopes.find? (·.id = id)

/-- `validateRecord` of the row of an id does not throw. -/
def stored (env : StoreEnv) (db : Database) (id : JsText) : Bool :=
  (db.find id).any (validateRecord env)

def contexts (db : Database) (id : JsText) : List JsText :=
  (db.callerContexts.filter (·.1 = id)).map (·.2)

/-- The row of another id stands for the same principal and kind. -/
def conflicts (db : Database) (record : ScopeRecord) : Bool :=
  db.scopes.any fun row => row.id ≠ record.id && row.agentId = record.agentId &&
    record.principalId.isSome && row.principalId = record.principalId && row.kind = record.kind

/-- The transaction of `reserve`; rolled back where it fails. -/
def reserve (env : StoreEnv) (db : Database) (id kind : JsText) (principalId : Option JsText)
    (requirePreflight : Bool) : Option Database :=
  match db.find id with
  | some stored =>
      if !validateRecord env stored then none
      else if stored.kind ≠ kind ∨ (stored.principalId ≠ none ∧ principalId ≠ none ∧
          stored.principalId ≠ principalId) then none
      else if stored.principalId = none ∧ principalId ≠ none then
        if db.conflicts { stored with principalId } then none
        else some { db with
          scopes := db.scopes.map fun row => if row.id = id then { row with principalId } else row }
      else some db
  | none =>
      let record : ScopeRecord :=
        { id, kind, recordNamespace := env.recordNamespace, agentId := env.agentId, principalId }
      if db.conflicts record then none
      else if requirePreflight && db.pendingReservations.contains id then none
      else some { db with
        scopes := db.scopes ++ [record]
        pendingReservations :=
          if requirePreflight then db.pendingReservations ++ [id] else db.pendingReservations }

/-- The transaction of `forget`. -/
def forget (db : Database) (id : JsText) (preservePreparation : Bool) : Database :=
  { db with
    preparations :=
      if preservePreparation then db.preparations else db.preparations.filter (·.1 ≠ id)
    callerContexts := db.callerContexts.filter (·.1 ≠ id)
    fixedStorage := db.fixedStorage.filter (·.1 ≠ id)
    pendingReservations := db.pendingReservations.filter (· ≠ id)
    scopes := db.scopes.filter (·.id ≠ id) }

/-- `INSERT ... ON CONFLICT(id) DO UPDATE` -/
def setPreparation (db : Database) (id version : JsText) (ready : Bool) : Database :=
  { db with preparations :=
      if db.preparations.any (·.1 = id) then
        db.preparations.map fun row => if row.1 = id then (id, version, ready) else row
      else db.preparations ++ [(id, version, ready)] }

end Database

inductive Request where
  | reserve (id kind : JsText) (principalId : Option JsText) (requirePreflight : Bool)
  | reserveContext (id context : JsText) (limit : ℕ)
  | recordFixedStorage (id record : JsText)
  | setPreparation (id version : JsText) (ready : Bool)
  | setPrincipalPreparation (principalId version : JsText)
  | recordStorageHelper (id record : JsText)
  | clearStorageHelper (id : JsText)
  | forget (id : JsText) (preservePreparation : Bool)
  deriving DecidableEq

/-- What a call does when its await is over. -/
inductive Step where
  | reserve (id kind : JsText) (principalId : Option JsText) (requirePreflight : Bool)
  | insertContext (id context : JsText) (limit : ℕ)
  | insertFixedStorage (id record : JsText)
  /-- `writePreparation` behind `markFederated` -/
  | preparePrincipal (principalId version : JsText)
  | insertPreparation (id version : JsText) (ready : Bool)
  | forget (id : JsText) (preservePreparation : Bool)
  /-- `rm` of the JSON backup, behind the transaction of `forget` -/
  | removeBackup (id : JsText)
  deriving DecidableEq

/-- A call waits for a write of the manifest, where it has asked for one. -/
inductive CallStage where
  | awaiting (write : Option ℕ) (next : Step)
  | done (ok : Bool)
  deriving DecidableEq

structure Call where
  request : Request
  stage : CallStage
  deriving DecidableEq

/-- The stages of one `atomicWrite` of the manifest. Behind the `rename` only the removal of the
temporary file can fail. -/
inductive WriteStage where
  | queued
  | writing (version : ℕ)
  | renamed (version : ℕ)
  | settled (ok : Bool)
  deriving DecidableEq

/-- `opened`: locked, with a database. `manifest` is the version in the file. -/
structure CallerRuntimeStore where
  opened : Bool := false
  manifest : Option ℕ := none
  manifestVersion : ℕ := 4
  writes : List WriteStage := []
  calls : List Call := []
  db : Database := {}
  deriving DecidableEq

namespace CallerRuntimeStore

variable (env : StoreEnv) (s : CallerRuntimeStore)

/-- The write is one more behind the tail. -/
def advanceManifest (version : ℕ) : CallerRuntimeStore :=
  { s with
    manifestVersion := max version s.manifestVersion
    writes := s.writes ++ [.queued] }

/-- The store, and how the call stands. -/
abbrev Outcome := CallerRuntimeStore × CallStage

def fail : Outcome := (s, .done false)

def awaitManifest (version : ℕ) (next : Step) : Outcome :=
  (s.advanceManifest version, .awaiting (some s.writes.length) next)

/-- `await this.markFederated(principalId)`, and the step behind it. -/
def markFederated (principalId : Option JsText) (next : Step) : Outcome :=
  if !isFederated principalId then (s, .awaiting none next)
  else if !s.opened then s.fail
  else s.awaitManifest 7 next

def isVersion (version : JsText) : Bool := 1 ≤ version.length && version.length ≤ 128

def writePreparation (id version : JsText) (ready : Bool) : Outcome :=
  if !isVersion version then s.fail
  else if !s.opened then s.fail
  else s.awaitManifest 6 (.insertPreparation id version ready)

/-- A call up to its first await. -/
def start : Request → Outcome
  | .reserve id kind principalId requirePreflight =>
      if !s.opened then s.fail
      else if !isScopeId id then s.fail
      else if principalId.any fun p => p = [] || env.scopeDigest env.agentId p ≠ id then s.fail
      else s.markFederated principalId (.reserve id kind principalId requirePreflight)
  | .reserveContext id context limit =>
      if !s.opened || !s.db.stored env id then s.fail
      else if !isScopeId context then s.fail
      else s.awaitManifest 8 (.insertContext id context limit)
  | .recordFixedStorage id record =>
      if !s.opened || !s.db.stored env id then s.fail
      else s.awaitManifest 5 (.insertFixedStorage id record)
  | .setPreparation id version ready =>
      if !s.opened || !s.db.stored env id then s.fail
      else s.writePreparation id version ready
  | .setPrincipalPreparation principalId version =>
      if JsText.trim principalId = [] || 512 < principalId.length then s.fail
      else s.markFederated (some principalId) (.preparePrincipal principalId version)
  | .recordStorageHelper id record =>
      if !s.opened || !s.db.stored env id || s.db.storageHelpers.any (·.1 = id) then s.fail
      else ({ s with db.storageHelpers := s.db.storageHelpers ++ [(id, record)] }, .done true)
  | .clearStorageHelper id =>
      if !s.opened then s.fail
      else ({ s with db.storageHelpers := s.db.storageHelpers.filter (·.1 ≠ id) }, .done true)
  | .forget id preservePreparation =>
      if !isScopeId id then s.fail
      else if !s.opened || s.db.storageHelpers.any (·.1 = id) then s.fail
      else (s, .awaiting none (.forget id preservePreparation))

/-- Behind an await. `dbFails`: a statement of the database throws, and what it belongs to is
rolled back. -/
def goOn (dbFails : Bool) : Step → Outcome
  | .reserve id kind principalId requirePreflight =>
      if !s.opened || !isKind kind || dbFails then s.fail
      else match s.db.reserve env id kind principalId requirePreflight with
        | some db => ({ s with db }, .done true)
        | none => s.fail
  | .insertContext id context limit =>
      if !s.opened || dbFails then s.fail
      else if context ∈ s.db.contexts id then (s, .done true)
      else if limit ≤ (s.db.contexts id).length then s.fail
      else ({ s with db.callerContexts := s.db.callerContexts ++ [(id, context)] }, .done true)
  | .insertFixedStorage id record =>
      if !s.opened || dbFails || s.db.fixedStorage.any (·.1 = id) then s.fail
      else ({ s with db.fixedStorage := s.db.fixedStorage ++ [(id, record)] }, .done true)
  | .preparePrincipal principalId version =>
      s.writePreparation (env.scopeDigest env.agentId principalId) version false
  | .insertPreparation id version ready =>
      if !s.opened || dbFails then s.fail
      else ({ s with db := s.db.setPreparation id version ready }, .done true)
  | .forget id preservePreparation =>
      if !s.opened || dbFails then s.fail
      else ({ s with db := s.db.forget id preservePreparation }, .awaiting none (.removeBackup id))
  | .removeBackup _ => if dbFails then s.fail else (s, .done true)

/-- What `openStorage` checks of a store it has not to import. -/
def openable : Bool :=
  s.manifest.all (fun version => 2 ≤ version && version ≤ 8) &&
    s.db.scopes.all (validateRecord env) &&
      s.db.callerContexts.all fun row =>
        isScopeId row.1 && isScopeId row.2 && s.db.stored env row.1

/-- The version is the one found, or that of a new store. `fails`: the owner file is not
written. -/
def lock (fails : Bool) : CallerRuntimeStore :=
  let version := max 4 (s.manifest.getD 4)
  { s with
    opened := s.openable env && !fails
    manifest := some version
    manifestVersion := version }

end CallerRuntimeStore

/-! ## Runs -/

inductive Action where
  | call (request : Request)
  /-- an `atomicWrite` gets its turn and takes the version -/
  | beginWrite (write : ℕ)
  | rename (write : ℕ)
  | settleWrite (write : ℕ) (ok : Bool)
  /-- the await of a call is over; `fails` is a failure of the database, or of the `rm` -/
  | proceed (call : ℕ) (fails : Bool)
  | unlock
  | lock (fails : Bool)
  deriving DecidableEq

namespace CallerRuntimeStore

variable (env : StoreEnv) (s : CallerRuntimeStore)

def isSettled : WriteStage → Bool
  | .settled _ => true
  | _ => false

def setWrite (write : ℕ) (stage : WriteStage) : CallerRuntimeStore :=
  { s with writes := s.writes.set write stage }

/-- How the await of a call has ended: `none` while the write is under way. -/
def awaited : Option ℕ → Option Bool
  | none => some true
  | some write =>
      match s.writes[write]? with
      | some (.settled ok) => some ok
      | _ => none

def step : Action → Option CallerRuntimeStore
  | .call request =>
      let (t, stage) := s.start env request
      some { t with calls := t.calls ++ [{ request, stage }] }
  | .beginWrite write =>
      if s.writes[write]? = some .queued ∧ (s.writes.take write).all isSettled then
        some (s.setWrite write (.writing s.manifestVersion))
      else none
  | .rename write =>
      match s.writes[write]? with
      | some (.writing version) =>
          some { s.setWrite write (.renamed version) with manifest := some version }
      | _ => none
  | .settleWrite write ok =>
      match s.writes[write]? with
      | some (.writing _) => if ok then none else some (s.setWrite write (.settled false))
      | some (.renamed _) => some (s.setWrite write (.settled ok))
      | _ => none
  | .proceed call fails =>
      (s.calls[call]?).bind fun c =>
        match c.stage with
        | .awaiting write next =>
            (s.awaited write).map fun ok =>
              let (t, stage) := if ok then s.goOn env fails next else s.fail
              { t with calls := t.calls.set call { c with stage } }
        | .done _ => none
  | .unlock => if s.opened then some { s with opened := false } else none
  | .lock fails => if s.opened then none else some (s.lock env fails)

end CallerRuntimeStore

def system (env : StoreEnv) : System CallerRuntimeStore Action where
  init s := s = {}
  step s a s' := s.step env a = some s'

end VicoopBridge.RuntimeStore
