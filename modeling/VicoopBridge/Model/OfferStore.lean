import VicoopBridge.Model.Json

/-! # The payment offering store

One row of `x402_offerings` holds an offering of an agent for a task: the entry that the
payment SDK reads and patches, the offer frozen beside it, the claim on it, and its expiry.
Each method is one statement or one transaction on that row. -/

namespace VicoopBridge

inductive X402EntryStatus where
  | offered
  | verified
  | completed
  | failed
  | rejected
  deriving DecidableEq, Repr

inductive X402FailurePoint where
  | classify
  | verify
  | rejectedByClient
  | settle
  deriving DecidableEq, Repr

structure X402Failure where
  point : X402FailurePoint
  indeterminate : Bool := false
  details : JsonObject := []
  deriving DecidableEq

/-- The delivery audit of an entry, and a patch of it. -/
structure X402MerchantDelivery where
  timing : Option String := none
  publicationStartedAt : Option ℕ := none
  publicationClosedAt : Option ℕ := none
  details : JsonObject := []
  deriving DecidableEq

/-- The frozen terms, stored verbatim. -/
abbrev MerchantOffer := Json

/-- The entry as it is stored. Its `taskId` is the key of its row. `bridgeOfferExpiresAt` is
the field `_bridgeOfferExpiresAt`, which may be present with the value `null`. -/
structure X402StoreEntry where
  status : X402EntryStatus
  accepts : Option Json := none
  updatedAt : ℕ
  expiresAt : Option ℕ := none
  failure : Option X402Failure := none
  merchantDelivery : Option X402MerchantDelivery := none
  bridgeOfferExpiresAt : Option (Option ℕ) := none
  details : JsonObject := []
  deriving DecidableEq

structure X402StoreEntryPatch where
  status : Option X402EntryStatus := none
  accepts : Option Json := none
  expiresAt : Option ℕ := none
  failure : Option X402Failure := none
  merchantDelivery : Option X402MerchantDelivery := none
  bridgeOfferExpiresAt : Option (Option ℕ) := none
  details : JsonObject := []

structure X402MerchantDeliveryWriteCondition where
  notAfter : Option ℕ := none
  publicationStarted : Option Bool := none
  publicationClosed : Option Bool := none

/-- `a || b` on `jsonb` objects: a field of `b` replaces the field of `a`. -/
def JsonObject.concat (a b : JsonObject) : JsonObject :=
  List.filter (fun field => ¬ JsonObject.has b field.1) a ++ b

/-- `entry || patch || {updatedAt}`. -/
def X402StoreEntry.patch (entry : X402StoreEntry) (patch : X402StoreEntryPatch) (now : ℕ) :
    X402StoreEntry where
  status := patch.status.getD entry.status
  accepts := patch.accepts <|> entry.accepts
  updatedAt := now
  expiresAt := patch.expiresAt <|> entry.expiresAt
  failure := patch.failure <|> entry.failure
  merchantDelivery := patch.merchantDelivery <|> entry.merchantDelivery
  bridgeOfferExpiresAt := patch.bridgeOfferExpiresAt <|> entry.bridgeOfferExpiresAt
  details := JsonObject.concat entry.details patch.details

namespace X402MerchantDelivery

/-- The audit with a patch over it, where a publication marker that is set stays. -/
def patch (delivery patch : X402MerchantDelivery) : X402MerchantDelivery where
  timing := patch.timing <|> delivery.timing
  publicationStartedAt := delivery.publicationStartedAt <|> patch.publicationStartedAt
  publicationClosedAt := delivery.publicationClosedAt <|> patch.publicationClosedAt
  details := JsonObject.concat delivery.details patch.details

end X402MerchantDelivery

/-- Only the property that everything downstream relies on is checked. -/
def reviveOffer (raw : MerchantOffer) : Option MerchantOffer :=
  match raw with
  | .obj fields =>
      match JsonObject.field fields "accepts" with
      | some (.arr (_ :: _)) => some raw
      | _ => none
  | _ => none

structure OfferingRow where
  entry : X402StoreEntry
  offer : Option MerchantOffer := none
  claimedAt : Option ℕ := none
  expiresAt : Option ℕ := none
  deriving DecidableEq

namespace OfferingRow

variable (row : OfferingRow) (now : ℕ)

/-- `expires_at IS NULL OR expires_at > clock_timestamp()`. -/
def Live : Prop := ∀ expiresAt ∈ row.expiresAt, now < expiresAt

instance : Decidable (row.Live now) := inferInstanceAs (Decidable (∀ t ∈ row.expiresAt, now < t))

def publicationStartedAt : Option ℕ :=
  row.entry.merchantDelivery.bind X402MerchantDelivery.publicationStartedAt

def publicationClosedAt : Option ℕ :=
  row.entry.merchantDelivery.bind X402MerchantDelivery.publicationClosedAt

/-! ## Statements that update the row: `none` where the row does not match -/

def updateIfStatus (expected : List X402EntryStatus) (patch : X402StoreEntryPatch) :
    Option OfferingRow :=
  let preAcceptance : Prop := patch.status = some .verified ∨
    ∃ failure ∈ patch.failure, failure.point ≠ .settle
  if row.entry.status ∈ expected ∧ (¬ preAcceptance ∨ row.claimedAt = none) ∧ row.Live now then
    some { row with entry := row.entry.patch patch now }
  else none

def updateMerchantDeliveryIfStatus (expected : List X402EntryStatus)
    (patch : X402MerchantDelivery) (condition : X402MerchantDeliveryWriteCondition) :
    Option OfferingRow :=
  let timing := row.entry.merchantDelivery.bind X402MerchantDelivery.timing
  if row.entry.status ∈ expected ∧ row.Live now ∧
      (∀ notAfter ∈ condition.notAfter, now < notAfter) ∧
      (∀ started ∈ condition.publicationStarted, row.publicationStartedAt.isSome = started) ∧
      (∀ closed ∈ condition.publicationClosed, row.publicationClosedAt.isSome = closed) ∧
      (patch.timing <|> timing).isSome ∧
      ¬ ((row.publicationStartedAt.isSome ∨ patch.publicationStartedAt.isSome) ∧
        (row.publicationClosedAt.isSome ∨ patch.publicationClosedAt.isSome)) then
    some { row with
      entry := { row.entry with
        merchantDelivery := some ((row.entry.merchantDelivery.getD {}).patch patch)
        updatedAt := now } }
  else none

/-- `GREATEST(expires_at, clock_timestamp() + ttl)`, which ignores a null. -/
def lifecycleDeadline (ttl : ℕ) : ℕ := max (row.expiresAt.getD 0) (now + ttl)

/-- The one-shot right to act on the submission of the task. -/
def claim (ttl : ℕ) : Option OfferingRow :=
  if row.claimedAt = none ∧ row.Live now then
    some { row with
      claimedAt := some now
      entry := { row.entry with
        bridgeOfferExpiresAt := some row.expiresAt
        expiresAt := some (row.lifecycleDeadline now ttl)
        updatedAt := now }
      expiresAt := some (row.lifecycleDeadline now ttl) }
  else none

/-- The right is handed back, and the signing deadline with it. -/
def release : OfferingRow :=
  match row.entry.bridgeOfferExpiresAt with
  | some expiresAt =>
      { row with
        claimedAt := none
        entry := { row.entry with
          bridgeOfferExpiresAt := none, expiresAt := expiresAt, updatedAt := now }
        expiresAt := expiresAt }
  | none => { row with claimedAt := none }

/-- Settlement drops the frozen terms. -/
def deleteOffer : OfferingRow := { row with offer := none }

end OfferingRow

/-! ## Reads -/

def getOffer (now : ℕ) (row : Option OfferingRow) : Option MerchantOffer :=
  (row.filter (·.Live now)).bind fun row => row.offer.bind reviveOffer

inductive MerchantOfferClaimStatus where
  | claimed
  | available
  deriving DecidableEq, Repr

def getClaimStatus (now : ℕ) (row : Option OfferingRow) : Option MerchantOfferClaimStatus :=
  (row.filter (·.Live now)).map fun row =>
    if row.claimedAt.isSome then .claimed else .available

/-! ## The offering write -/

/-- The offer that an unfinished `publishing` puts beside the entry. -/
structure PublishingContext where
  offer : MerchantOffer
  resetClaim : Bool

/-- `INSERT … ON CONFLICT DO UPDATE`. A write outside a publication has no terms and leaves
those of the row alone, and the claim with them. -/
def put (ctx : Option PublishingContext) (entry : X402StoreEntry) :
    Option OfferingRow → OfferingRow
  | none => {
      entry := entry, offer := ctx.map PublishingContext.offer, expiresAt := entry.expiresAt }
  | some row => {
      entry := entry
      offer := ctx.map PublishingContext.offer <|> row.offer
      claimedAt := if ctx.any PublishingContext.resetClaim then none else row.claimedAt
      expiresAt := entry.expiresAt }

inductive PublishingError where
  | alreadyClaimed
  | noFrozenOffer
  /-- `publish` has thrown, and the transaction is rolled back. -/
  | publish
  deriving DecidableEq, Repr

/-- The row that a publication finds under its lock. -/
def publishedRow (now : ℕ) (row : Option OfferingRow) : Option OfferingRow :=
  row.filter fun row => row.Live now ∧ row.entry.accepts.isSome

/-- What a transaction has frozen, and the row it leaves. -/
structure Publication where
  ctx : PublishingContext
  entries : List X402StoreEntry
  row : Option OfferingRow

/-- The transaction of one publication. `publish` gives the entries that it puts for the
task, and `none` when it throws. -/
def publishing (now : ℕ) (offer : MerchantOffer)
    (publish : MerchantOffer → Option (List X402StoreEntry)) (row : Option OfferingRow) :
    Except PublishingError Publication :=
  let existing := publishedRow now row
  if existing.any (·.claimedAt.isSome) then .error .alreadyClaimed
  else
    let frozenOffer := match existing with
      | some existing => existing.offer.bind reviveOffer
      | none => some offer
    match frozenOffer with
    | none => .error .noFrozenOffer
    | some frozenOffer =>
        let ctx : PublishingContext := {
          offer := frozenOffer, resetClaim := existing.isNone }
        match publish frozenOffer with
        | none => .error .publish
        | some entries =>
            .ok {
              ctx := ctx, entries := entries
              row := entries.foldl (fun row entry => some (put (some ctx) entry row)) row }

/-! ## The table -/

/-- The primary key: every statement of a store filters on its agent and on the task. -/
structure OfferingKey where
  agentId : String
  taskId : String
  deriving DecidableEq, Repr

/-- The writing methods, on one row. `clearOffering` is `delete`. -/
inductive StoreMethod where
  | publishing (offer : MerchantOffer) (publish : MerchantOffer → Option (List X402StoreEntry))
  | put (entry : X402StoreEntry)
  | updateIfStatus (expected : List X402EntryStatus) (patch : X402StoreEntryPatch)
  | updateMerchantDeliveryIfStatus (expected : List X402EntryStatus)
      (patch : X402MerchantDelivery) (condition : X402MerchantDeliveryWriteCondition)
  | deleteOffer
  | delete
  | claim
  | release

/-- The row after a method. A statement that matches no row changes nothing. -/
def StoreMethod.apply (ttl now : ℕ) (row : Option OfferingRow) :
    StoreMethod → Option OfferingRow
  | .publishing offer publish =>
      match VicoopBridge.publishing now offer publish row with
      | .ok publication => publication.row
      | .error _ => row
  | .put entry => some (VicoopBridge.put none entry row)
  | .updateIfStatus expected patch =>
      (row.bind (·.updateIfStatus now expected patch)) <|> row
  | .updateMerchantDeliveryIfStatus expected patch condition =>
      (row.bind (·.updateMerchantDeliveryIfStatus now expected patch condition)) <|> row
  | .deleteOffer => row.map OfferingRow.deleteOffer
  | .delete => none
  | .claim => (row.bind (·.claim now ttl)) <|> row
  | .release => row.map (·.release now)

/-- `sweepExpiredX402Offerings`, on one row. -/
def sweepExpired (now : ℕ) (row : Option OfferingRow) : Option OfferingRow :=
  row.filter (·.Live now)

end VicoopBridge
