import VicoopBridge.Library.Spaced
import VicoopBridge.Library.Transition
import VicoopBridge.Model.OfferStore

/-! # Payment offerings under concurrent requests

Every method is one step on the row of its key, so the requests of any number of callers are
a sequence of steps. A row is kept with the generation of its offering and with the history
of what was published, claimed, released and written on it. -/

namespace VicoopBridge

open Library

inductive OfferEvent where
  /-- A publication went on with these terms. -/
  | published (generation : ℕ) (offer : MerchantOffer)
  | claimed (generation : ℕ)
  | released (generation : ℕ)
  /-- A publication marker of the audit in place has changed. -/
  | publicationStarted (generation : ℕ)
  | publicationClosed (generation : ℕ)
  /-- The audit was written whole, or has gone with its row. -/
  | rewrote (delivery : Option X402MerchantDelivery)
  deriving DecidableEq

structure OfferingCell where
  row : Option OfferingRow := none
  generation : ℕ := 0
  history : List OfferEvent := []

namespace OfferingCell

/-- A new offering takes the row. -/
def begin (cell : OfferingCell) : OfferingCell := { cell with generation := cell.generation + 1 }

def advance (cell : OfferingCell) (row : Option OfferingRow) (events : List OfferEvent) :
    OfferingCell :=
  { cell with row := row, history := cell.history ++ events }

/-- The markers that an edit of the entry in place changes. -/
def markers (generation : ℕ) (before after : OfferingRow) : List OfferEvent :=
  (if after.publicationStartedAt = before.publicationStartedAt then []
    else [.publicationStarted generation]) ++
  (if after.publicationClosedAt = before.publicationClosedAt then []
    else [.publicationClosed generation])

/-- An update of the row that matches when `update` has a result. -/
def edit (cell : OfferingCell) (update : OfferingRow → Option OfferingRow)
    (events : OfferingRow → OfferingRow → List OfferEvent) : OfferingCell :=
  match cell.row with
  | none => cell
  | some before =>
      match update before with
      | none => cell
      | some after => cell.advance (some after) (events before after)

/-- One method on the row. A publication that finds no live offering, and a write where there
is no row, begin a generation. -/
def step (ttl now : ℕ) (cell : OfferingCell) : StoreMethod → OfferingCell
  | .publishing offer publish =>
      match publishing now offer publish cell.row with
      | .error _ => cell
      | .ok publication =>
          let rewrites := publication.entries.map fun entry => .rewrote entry.merchantDelivery
          let cell' :=
            if publication.ctx.resetClaim ∧ publication.entries ≠ [] then cell.begin else cell
          let events :=
            if publication.ctx.resetClaim ∧ publication.entries = [] then []
            else [.published cell'.generation publication.ctx.offer]
          cell'.advance publication.row (rewrites ++ events)
  | .put entry =>
      (if cell.row.isNone then cell.begin else cell).advance (some (put none entry cell.row))
        [.rewrote entry.merchantDelivery]
  | .updateIfStatus expected patch =>
      cell.edit (·.updateIfStatus now expected patch) fun before after =>
        if patch.merchantDelivery.isSome then [.rewrote patch.merchantDelivery]
        else markers cell.generation before after
  | .updateMerchantDeliveryIfStatus expected patch condition =>
      cell.edit (·.updateMerchantDeliveryIfStatus now expected patch condition)
        (markers cell.generation)
  | .deleteOffer => cell.edit (some ·.deleteOffer) (markers cell.generation)
  | .delete => if cell.row.isSome then cell.advance none [.rewrote none] else cell
  | .claim =>
      cell.edit (·.claim now ttl) fun before after =>
        .claimed cell.generation :: markers cell.generation before after
  | .release =>
      cell.edit (fun row => some (row.release now)) fun before after =>
        .released cell.generation :: markers cell.generation before after

/-- The sweep removes a row whose expiry has passed. -/
def sweep (now : ℕ) (cell : OfferingCell) : OfferingCell :=
  if cell.row.all (·.Live now) then cell else cell.advance none [.rewrote none]

variable {cell : OfferingCell} {ttl now : ℕ}

theorem edit_row {update : OfferingRow → Option OfferingRow}
    {events : OfferingRow → OfferingRow → List OfferEvent} :
    (cell.edit update events).row = (cell.row.bind update <|> cell.row) := by
  unfold edit
  cases hrow : cell.row with
  | none => simp [hrow]
  | some before => cases hupdate : update before <;> simp [hrow, hupdate, advance]

/-- The row of a cell goes through the methods of the store. -/
theorem step_row (m : StoreMethod) : (cell.step ttl now m).row = m.apply ttl now cell.row := by
  cases m with
  | publishing offer publish =>
      simp only [step, StoreMethod.apply]
      cases publishing now offer publish cell.row <;> simp [advance]
  | put entry => simp [step, StoreMethod.apply, advance]
  | delete => cases hrow : cell.row <;> simp [step, StoreMethod.apply, advance, hrow]
  | deleteOffer | release =>
      simp only [step, StoreMethod.apply, edit_row]
      cases cell.row <;> simp
  | updateIfStatus | updateMerchantDeliveryIfStatus | claim =>
      simp only [step, StoreMethod.apply, edit_row]

theorem sweep_row : (cell.sweep now).row = sweepExpired now cell.row := by
  cases hrow : cell.row with
  | none => simp [sweep, sweepExpired, hrow]
  | some row =>
      by_cases hlive : row.Live now <;>
        simp [sweep, sweepExpired, advance, hrow, hlive, Option.filter]

end OfferingCell

/-! ## What one publication does -/

/-- The write of the last entry decides what the row is. -/
theorem foldl_put (ctx : PublishingContext) (entries : List X402StoreEntry)
    (row : Option OfferingRow) (hentries : entries ≠ [])
    (hrow : ctx.resetClaim = false → ∀ existing ∈ row, existing.claimedAt = none) :
    ∃ entry ∈ entries,
      entries.foldl (fun row entry => some (put (some ctx) entry row)) row =
        some {
          entry := entry, offer := some ctx.offer, expiresAt := entry.expiresAt } := by
  induction entries generalizing row with
  | nil => exact absurd rfl hentries
  | cons entry entries ih =>
      have hput : put (some ctx) entry row = {
          entry := entry, offer := some ctx.offer, expiresAt := entry.expiresAt } := by
        cases row with
        | none => rfl
        | some existing =>
            cases hreset : ctx.resetClaim with
            | false => simp [put, hreset, hrow hreset existing rfl]
            | true => simp [put, hreset]
      cases entries with
      | nil => exact ⟨entry, by simp, by simp [hput]⟩
      | cons next entries =>
          obtain ⟨last, hlast, heq⟩ := ih (some (put (some ctx) entry row)) (by simp)
            (by simp [hput])
          exact ⟨last, List.mem_cons_of_mem _ hlast, by simpa using heq⟩

/-- The transaction has found an unclaimed live offering, or none, and leaves the row as it
was or as its last write made it. -/
structure PublicationSpec (now : ℕ) (offer : MerchantOffer)
    (publish : MerchantOffer → Option (List X402StoreEntry)) (row : Option OfferingRow)
    (publication : Publication) : Prop where
  entries : publish publication.ctx.offer = some publication.entries
  found : (publication.ctx.resetClaim = true ∧ publishedRow now row = none ∧
      publication.ctx.offer = offer) ∨
    (publication.ctx.resetClaim = false ∧ ∃ existing, row = some existing ∧
      existing.claimedAt = none ∧ existing.offer = some publication.ctx.offer)
  idle : publication.entries = [] → publication.row = row
  written : publication.entries ≠ [] → ∃ entry ∈ publication.entries, publication.row = some {
    entry := entry, offer := some publication.ctx.offer, expiresAt := entry.expiresAt }

theorem reviveOffer_eq {raw offer : MerchantOffer} (h : reviveOffer raw = some offer) :
    raw = offer := by
  unfold reviveOffer at h
  split at h <;> try split at h
  all_goals simp_all

theorem publishing_spec {now : ℕ} {offer : MerchantOffer}
    {publish : MerchantOffer → Option (List X402StoreEntry)} {row : Option OfferingRow}
    {publication : Publication} (h : publishing now offer publish row = .ok publication) :
    PublicationSpec now offer publish row publication := by
  simp only [publishing] at h
  cases hexisting : publishedRow now row with
  | none =>
      simp only [hexisting, Option.any_none, Bool.false_eq_true, if_false] at h
      split at h
      · cases h
      · rename_i entries hpublish
        obtain rfl : _ = publication := by simpa using h
        refine ⟨hpublish, .inl ⟨rfl, hexisting, rfl⟩, ?_, ?_⟩
        · rintro hnil
          have hnil' : entries = [] := hnil
          simp [hnil']
        · intro hentries
          exact foldl_put _ entries row hentries (by simp)
  | some existing =>
      have hrow : row = some existing := by
        have := Option.filter_eq_some_iff.mp hexisting
        exact this.1
      simp only [hexisting, Option.any_some] at h
      split at h
      · cases h
      · rename_i hclaimed
        have hunclaimed : existing.claimedAt = none := by simpa using hclaimed
        cases hoffer : existing.offer.bind reviveOffer with
        | none => simp [hoffer] at h
        | some frozenOffer =>
            simp only [hoffer] at h
            split at h
            · cases h
            · rename_i entries hpublish
              obtain rfl : _ = publication := by simpa using h
              obtain ⟨raw, hraw, hrevive⟩ := Option.bind_eq_some_iff.mp hoffer
              refine ⟨hpublish, .inr ⟨rfl, existing, hrow, hunclaimed, ?_⟩, ?_, ?_⟩
              · rw [hraw, reviveOffer_eq hrevive]
              · rintro hnil
                have hnil' : entries = [] := hnil
                simp [hnil']
              · intro hentries
                refine foldl_put _ entries row hentries fun _ other hother => ?_
                obtain rfl : existing = other := by simpa [hrow] using hother
                exact hunclaimed

/-! ## What one step does to a cell -/

/-- An edit in place sets no marker beside another, and changes none that is set. -/
def OfferingRow.MarksOnce (before after : OfferingRow) : Prop :=
  (after.publicationStartedAt = before.publicationStartedAt ∧
    after.publicationClosedAt = before.publicationClosedAt) ∨
  (before.publicationStartedAt = none ∧ before.publicationClosedAt = none ∧
    (after.publicationStartedAt = none ∨ after.publicationClosedAt = none))

/-- The rows of one offering: the terms are kept or dropped. -/
def OfferingRow.KeepsOffer (before after : OfferingRow) : Prop :=
  after.offer = before.offer ∨ after.offer = none

namespace OfferingCell

/-- All that a step does, whichever method takes it. -/
inductive Advances (cell : OfferingCell) : OfferingCell → Prop where
  | stayed : Advances cell cell
  | repeated (existing offer) (hrow : cell.row = some existing)
      (hoffer : existing.offer = some offer) :
      Advances cell (cell.advance cell.row [.published cell.generation offer])
  | republished (existing offer) (entries : List X402StoreEntry) (entry)
      (hrow : cell.row = some existing)
      (hclaimed : existing.claimedAt = none) (hoffer : existing.offer = some offer)
      (hentry : entry ∈ entries) :
      Advances cell (cell.advance
        (some { entry := entry, offer := some offer, expiresAt := entry.expiresAt })
        (entries.map (fun entry => .rewrote entry.merchantDelivery) ++
          [.published cell.generation offer]))
  | published (offer) (entries : List X402StoreEntry) (entry) (hentry : entry ∈ entries) :
      Advances cell (cell.begin.advance
        (some { entry := entry, offer := some offer, expiresAt := entry.expiresAt })
        (entries.map (fun entry => .rewrote entry.merchantDelivery) ++
          [.published cell.begin.generation offer]))
  | inserted (entry) (hrow : cell.row = none) :
      Advances cell (cell.begin.advance (some { entry := entry, expiresAt := entry.expiresAt })
        [.rewrote entry.merchantDelivery])
  | rewritten (before after) (hrow : cell.row = some before)
      (hclaimed : after.claimedAt = before.claimedAt) (hoffer : after.offer = before.offer) :
      Advances cell (cell.advance (some after) [.rewrote after.entry.merchantDelivery])
  | edited (before after) (hrow : cell.row = some before)
      (hclaimed : after.claimedAt = before.claimedAt) (hoffer : before.KeepsOffer after)
      (hmarks : before.MarksOnce after) :
      Advances cell (cell.advance (some after) (markers cell.generation before after))
  | claimed (before after) (hrow : cell.row = some before) (hbefore : before.claimedAt = none)
      (hafter : after.claimedAt ≠ none) (hoffer : after.offer = before.offer)
      (hmarks : before.MarksOnce after) :
      Advances cell (cell.advance (some after)
        (.claimed cell.generation :: markers cell.generation before after))
  | released (before after) (hrow : cell.row = some before)
      (hoffer : after.offer = before.offer) (hmarks : before.MarksOnce after) :
      Advances cell (cell.advance (some after)
        (.released cell.generation :: markers cell.generation before after))
  | removed : Advances cell (cell.advance none [.rewrote none])

variable {cell : OfferingCell} {ttl now : ℕ}

theorem advances_edit {update : OfferingRow → Option OfferingRow}
    {events : OfferingRow → OfferingRow → List OfferEvent}
    (h : ∀ before after, cell.row = some before → update before = some after →
      Advances cell (cell.advance (some after) (events before after))) :
    Advances cell (cell.edit update events) := by
  unfold edit
  cases hrow : cell.row with
  | none => exact .stayed
  | some before =>
      cases hupdate : update before with
      | none => simpa [hupdate] using Advances.stayed
      | some after => simpa [hupdate] using h before after hrow hupdate

end OfferingCell

section Updates

variable {before after : OfferingRow} {now ttl : ℕ}

theorem OfferingRow.MarksOnce.of_eq (h : after.entry.merchantDelivery =
    before.entry.merchantDelivery) : before.MarksOnce after :=
  .inl ⟨by simp only [OfferingRow.publicationStartedAt, h],
    by simp only [OfferingRow.publicationClosedAt, h]⟩

theorem updateIfStatus_spec {expected : List X402EntryStatus} {patch : X402StoreEntryPatch}
    (h : before.updateIfStatus now expected patch = some after) :
    after = { before with entry := before.entry.patch patch now } := by
  simp only [OfferingRow.updateIfStatus] at h
  split at h
  · exact (Option.some.inj h).symm
  · cases h

theorem updateMerchantDeliveryIfStatus_spec {expected : List X402EntryStatus}
    {patch : X402MerchantDelivery} {condition : X402MerchantDeliveryWriteCondition}
    (h : before.updateMerchantDeliveryIfStatus now expected patch condition = some after) :
    ¬ ((before.publicationStartedAt.isSome ∨ patch.publicationStartedAt.isSome) ∧
      (before.publicationClosedAt.isSome ∨ patch.publicationClosedAt.isSome)) ∧
    after = { before with
      entry := { before.entry with
        merchantDelivery := some ((before.entry.merchantDelivery.getD {}).patch patch)
        updatedAt := now } } := by
  simp only [OfferingRow.updateMerchantDeliveryIfStatus] at h
  split at h
  · rename_i hcond
    exact ⟨hcond.2.2.2.2.2.2, (Option.some.inj h).symm⟩
  · cases h

/-- The condition of the update leaves a marker to at most one of the two, and what is set
wins over the patch. -/
theorem updateMerchantDeliveryIfStatus_marksOnce {expected : List X402EntryStatus}
    {patch : X402MerchantDelivery} {condition : X402MerchantDeliveryWriteCondition}
    (h : before.updateMerchantDeliveryIfStatus now expected patch condition = some after) :
    before.MarksOnce after := by
  obtain ⟨hguard, rfl⟩ := updateMerchantDeliveryIfStatus_spec h
  have hstarted (d : Option X402MerchantDelivery) :
      (d.getD {}).publicationStartedAt = d.bind X402MerchantDelivery.publicationStartedAt := by
    cases d <;> rfl
  have hclosed (d : Option X402MerchantDelivery) :
      (d.getD {}).publicationClosedAt = d.bind X402MerchantDelivery.publicationClosedAt := by
    cases d <;> rfl
  simp only [OfferingRow.MarksOnce, OfferingRow.publicationStartedAt,
    OfferingRow.publicationClosedAt, X402MerchantDelivery.patch, Option.bind_some, hstarted,
    hclosed] at hguard ⊢
  generalize before.entry.merchantDelivery.bind X402MerchantDelivery.publicationStartedAt =
    started at hguard ⊢
  generalize before.entry.merchantDelivery.bind X402MerchantDelivery.publicationClosedAt =
    closed at hguard ⊢
  -- The markers of the row and of the patch: at least one side has none.
  cases started <;> cases closed <;> cases hs : patch.publicationStartedAt <;>
    cases hc : patch.publicationClosedAt <;> simp_all

theorem claim_spec (h : before.claim now ttl = some after) :
    before.claimedAt = none ∧ before.Live now ∧ after = { before with
      claimedAt := some now
      entry := { before.entry with
        bridgeOfferExpiresAt := some before.expiresAt
        expiresAt := some (before.lifecycleDeadline now ttl)
        updatedAt := now }
      expiresAt := some (before.lifecycleDeadline now ttl) } := by
  unfold OfferingRow.claim at h
  split at h
  · rename_i hcond
    exact ⟨hcond.1, hcond.2, (Option.some.inj h).symm⟩
  · cases h

theorem release_keeps (row : OfferingRow) (now : ℕ) :
    (row.release now).claimedAt = none ∧ (row.release now).offer = row.offer ∧
      (row.release now).entry.merchantDelivery = row.entry.merchantDelivery := by
  unfold OfferingRow.release
  split <;> simp

end Updates

namespace OfferingCell

variable {cell : OfferingCell} {ttl now : ℕ}

theorem advances_publishing (offer : MerchantOffer)
    (publish : MerchantOffer → Option (List X402StoreEntry)) :
    cell.Advances (cell.step ttl now (.publishing offer publish)) := by
  simp only [step]
  cases hpublishing : publishing now offer publish cell.row with
  | error => exact .stayed
  | ok publication =>
      have hspec := publishing_spec hpublishing
      by_cases hentries : publication.entries = []
      · obtain ⟨hreset, -, -⟩ | ⟨hreset, existing, hrow, -, hoffer⟩ := hspec.found
        · simpa [hentries, hreset, hspec.idle hentries, advance] using Advances.stayed
        · simpa [hentries, hreset, hspec.idle hentries] using
            Advances.repeated existing _ hrow hoffer
      · obtain ⟨entry, hentry, hwritten⟩ := hspec.written hentries
        obtain ⟨hreset, -, -⟩ | ⟨hreset, existing, hrow, hclaimed, hoffer⟩ := hspec.found
        · simpa [hentries, hreset, hwritten] using Advances.published _ _ entry hentry
        · simpa [hentries, hreset, hwritten] using
            Advances.republished existing _ _ entry hrow hclaimed hoffer hentry

theorem advances_step (m : StoreMethod) : cell.Advances (cell.step ttl now m) := by
  cases m with
  | publishing offer publish => exact advances_publishing offer publish
  | put entry =>
      simp only [step]
      cases hrow : cell.row with
      | none => simpa [put, hrow] using Advances.inserted entry hrow
      | some row => simpa [put] using
          Advances.rewritten row (put none entry (some row)) hrow (by simp [put]) (by simp [put])
  | updateIfStatus expected patch =>
      refine advances_edit fun before after hrow hupdate => ?_
      obtain rfl := updateIfStatus_spec hupdate
      cases hdelivery : patch.merchantDelivery with
      | none =>
          simp only [Option.isSome_none, Bool.false_eq_true, if_false]
          exact .edited before _ hrow rfl (.inl rfl) (.of_eq (by
            simp [X402StoreEntry.patch, hdelivery]))
      | some delivery =>
          simpa [X402StoreEntry.patch, hdelivery] using
            Advances.rewritten before { before with entry := before.entry.patch patch now } hrow
              rfl rfl
  | updateMerchantDeliveryIfStatus expected patch condition =>
      refine advances_edit fun before after hrow hupdate => ?_
      have hmarks := updateMerchantDeliveryIfStatus_marksOnce hupdate
      obtain ⟨-, rfl⟩ := updateMerchantDeliveryIfStatus_spec hupdate
      exact .edited before _ hrow rfl (.inl rfl) hmarks
  | deleteOffer =>
      simp only [step]
      refine advances_edit fun before after hrow hupdate => ?_
      obtain rfl := Option.some.inj hupdate
      exact .edited before _ hrow rfl (.inr rfl) (.of_eq rfl)
  | delete =>
      simp only [step]
      split
      · exact .removed
      · exact .stayed
  | claim =>
      refine advances_edit fun before after hrow hupdate => ?_
      obtain ⟨hclaimed, -, rfl⟩ := claim_spec hupdate
      exact .claimed before _ hrow hclaimed (by simp) rfl (.of_eq rfl)
  | release =>
      simp only [step]
      refine advances_edit fun before after hrow hupdate => ?_
      obtain rfl := Option.some.inj hupdate
      obtain ⟨-, hoffer, hdelivery⟩ := release_keeps before now
      exact .released before _ hrow hoffer (.of_eq hdelivery)

theorem advances_sweep : cell.Advances (cell.sweep now) := by
  unfold sweep
  split
  · exact .stayed
  · exact .removed

end OfferingCell

/-! ## The claim on a generation -/

namespace OfferEvent

def Within (bound : ℕ) : OfferEvent → Prop
  | .published generation _ | .claimed generation | .released generation
  | .publicationStarted generation | .publicationClosed generation => generation ≤ bound
  | .rewrote _ => True

def Marker : OfferEvent → Prop
  | .publicationStarted _ | .publicationClosed _ => True
  | _ => False

def Rewrite : OfferEvent → Prop
  | .rewrote _ => True
  | _ => False

theorem Within.mono {e : OfferEvent} {a b : ℕ} (h : e.Within a) (hab : a ≤ b) : e.Within b := by
  cases e <;> first | exact le_trans h hab | trivial

end OfferEvent

namespace OfferingCell

variable {cell cell' : OfferingCell}

theorem mem_markers {generation : ℕ} {before after : OfferingRow} {e : OfferEvent}
    (h : e ∈ markers generation before after) :
    e = .publicationStarted generation ∨ e = .publicationClosed generation := by
  unfold markers at h
  split at h <;> split at h <;> simp_all

theorem mem_writes {entries : List X402StoreEntry} {generation : ℕ} {offer : MerchantOffer}
    {e : OfferEvent}
    (h : e ∈ entries.map (fun entry => OfferEvent.rewrote entry.merchantDelivery) ++
      [.published generation offer]) :
    (∃ entry ∈ entries, e = .rewrote entry.merchantDelivery) ∨
      e = .published generation offer := by
  obtain h | h := List.mem_append.mp h
  · obtain ⟨entry, hentry, rfl⟩ := List.mem_map.mp h
    exact .inl ⟨entry, hentry, rfl⟩
  · exact .inr (List.mem_singleton.mp h)

@[simp] theorem advance_advance (row row' : Option OfferingRow) (es es' : List OfferEvent) :
    (cell.advance row es).advance row' es' = cell.advance row' (es ++ es') := by
  simp [advance]

/-- No event is of a generation that has not begun. -/
def Dated (cell : OfferingCell) : Prop := ∀ e ∈ cell.history, e.Within cell.generation

theorem Dated.begin (h : cell.Dated) : cell.begin.Dated :=
  fun e he => (h e he).mono (Nat.le_succ _)

theorem Dated.advance (h : cell.Dated) {row : Option OfferingRow} {events : List OfferEvent}
    (hevents : ∀ e ∈ events, e.Within cell.generation) : (cell.advance row events).Dated := by
  intro e he
  obtain he | he := List.mem_append.mp he
  · exact h e he
  · exact hevents e he

theorem Dated.advances (h : cell.Dated) (hstep : cell.Advances cell') : cell'.Dated := by
  have hmarkers (before after) :
      ∀ e ∈ markers cell.generation before after, e.Within cell.generation := by
    intro e he
    obtain rfl | rfl := mem_markers he <;> exact le_refl cell.generation
  have hwrites (bound : ℕ) (entries : List X402StoreEntry) (offer) :
      ∀ e ∈ entries.map (fun entry => OfferEvent.rewrote entry.merchantDelivery) ++
        [.published bound offer], e.Within bound := by
    intro e he
    obtain ⟨entry, -, rfl⟩ | rfl := mem_writes he
    · trivial
    · exact le_refl bound
  cases hstep with
  | stayed => exact h
  | repeated => exact h.advance (by simp [OfferEvent.Within])
  | republished _ offer entries => exact h.advance (hwrites _ entries offer)
  | published offer entries => exact h.begin.advance (hwrites _ entries offer)
  | inserted => exact h.begin.advance (by simp [OfferEvent.Within])
  | rewritten | removed => exact h.advance (by simp [OfferEvent.Within])
  | edited before after => exact h.advance (hmarkers before after)
  | claimed before after | released before after =>
      refine h.advance fun e he => ?_
      obtain rfl | he := List.mem_cons.mp he
      · exact le_refl cell.generation
      · exact hmarkers before after e he

/-- The claims of one generation have a release between them, and the right to claim is open
only when the last was released. -/
structure Claims (cell : OfferingCell) : Prop where
  spaced : ∀ generation,
    Spaced (· = .claimed generation) (· = .released generation) cell.history
  unclaimed : ∀ row ∈ cell.row, row.claimedAt = none →
    Closed (· = .claimed cell.generation) (· = .released cell.generation) cell.history

theorem Dated.closed_begin (h : cell.Dated) :
    Closed (· = .claimed cell.begin.generation) (· = .released cell.begin.generation)
      cell.begin.history := by
  refine .of_forall fun e he hclaimed => ?_
  have hwithin := h e he
  subst hclaimed
  exact absurd hwithin (Nat.not_succ_le_self cell.generation)

/-- Without a claim among the events, the row may be unclaimed if it was, or on a release. -/
theorem Claims.advance (hspaced : ∀ generation,
      Spaced (· = .claimed generation) (· = .released generation) cell.history)
    {row : Option OfferingRow} {events : List OfferEvent}
    (hevents : ∀ e ∈ events, ∀ generation, e ≠ .claimed generation)
    (hrow : ∀ current ∈ row, current.claimedAt = none →
      .released cell.generation ∈ events ∨
      Closed (· = .claimed cell.generation) (· = .released cell.generation) cell.history) :
    (cell.advance row events).Claims where
  spaced generation := (hspaced generation).append fun e he => hevents e he generation
  unclaimed row hmem hclaimed := by
    refine Closed.append ?_ fun e he => hevents e he _
    exact (hrow row hmem hclaimed).imp (fun h => ⟨_, h, rfl⟩) id

theorem Claims.advances (h : cell.Claims) (hdated : cell.Dated) (hstep : cell.Advances cell') :
    cell'.Claims := by
  have hmarkers (before after) :
      ∀ e ∈ markers cell.generation before after, ∀ generation, e ≠ .claimed generation := by
    intro e he generation
    obtain rfl | rfl := mem_markers he <;> simp
  have hwrites (bound : ℕ) (entries : List X402StoreEntry) (offer) :
      ∀ e ∈ entries.map (fun entry => OfferEvent.rewrote entry.merchantDelivery) ++
        [.published bound offer], ∀ generation, e ≠ .claimed generation := by
    intro e he generation
    obtain ⟨entry, -, rfl⟩ | rfl := mem_writes he <;> simp
  have hbegin : ∀ generation, Spaced (· = .claimed generation) (· = .released generation)
      cell.begin.history := h.spaced
  cases hstep with
  | stayed => exact h
  | repeated existing offer hrow =>
      exact .advance h.spaced (by simp) fun row hmem hclaimed => .inr (h.unclaimed row hmem hclaimed)
  | republished existing offer entries entry hrow hclaimed =>
      exact .advance h.spaced (hwrites _ entries offer)
        fun _ _ _ => .inr (h.unclaimed existing hrow hclaimed)
  | published offer entries entry =>
      exact .advance hbegin (hwrites _ entries offer) fun _ _ _ => .inr hdated.closed_begin
  | inserted entry =>
      exact .advance hbegin (by simp) fun _ _ _ => .inr hdated.closed_begin
  | rewritten before after hrow hclaimed =>
      refine .advance h.spaced (by simp) fun row hmem hnone => .inr ?_
      obtain rfl := Option.some.inj hmem
      exact h.unclaimed before hrow (hclaimed ▸ hnone)
  | edited before after hrow hclaimed =>
      refine .advance h.spaced (hmarkers before after) fun row hmem hnone => .inr ?_
      obtain rfl := Option.some.inj hmem
      exact h.unclaimed before hrow (hclaimed ▸ hnone)
  | claimed before after hrow hbefore hafter =>
      have hclosed := h.unclaimed before hrow hbefore
      have hsnoc : ∀ generation, Spaced (· = .claimed generation) (· = .released generation)
          (cell.advance (some after) [.claimed cell.generation]).history := by
        intro generation
        refine (h.spaced generation).snoc fun heq => ?_
        obtain rfl := OfferEvent.claimed.inj heq
        exact hclosed
      have hadvance : ((cell.advance (some after) [.claimed cell.generation]).advance (some after)
          (markers cell.generation before after)).Claims :=
        .advance hsnoc (hmarkers before after) fun row hmem hnone => by
          obtain rfl := Option.some.inj hmem
          exact absurd hnone hafter
      simpa using hadvance
  | released before after =>
      refine .advance h.spaced ?_ fun _ _ _ => .inl (by simp)
      intro e he
      obtain rfl | he := List.mem_cons.mp he
      · simp
      · exact hmarkers before after e he
  | removed => exact .advance h.spaced (by simp) (by simp)

/-! ## The frozen terms of a generation -/

/-- One generation goes on with one offer, which the row keeps until it is dropped. -/
structure Offers (cell : OfferingCell) : Prop where
  agree : ∀ generation offer offer', .published generation offer ∈ cell.history →
    .published generation offer' ∈ cell.history → offer = offer'
  frozen : ∀ row ∈ cell.row, ∀ offer, .published cell.generation offer ∈ cell.history →
    row.offer = some offer ∨ row.offer = none

theorem Dated.not_published_begin (h : cell.Dated) (offer : MerchantOffer) :
    .published cell.begin.generation offer ∉ cell.begin.history :=
  fun hmem => absurd (h _ hmem) (Nat.not_succ_le_self cell.generation)

/-- Events without a publication, on a row that keeps or drops the terms it had. -/
theorem Offers.advance (h : cell.Offers) {row : Option OfferingRow} {events : List OfferEvent}
    (hevents : ∀ e ∈ events, ∀ generation offer, e ≠ .published generation offer)
    (hrow : ∀ after ∈ row, ∃ before, cell.row = some before ∧ before.KeepsOffer after) :
    (cell.advance row events).Offers := by
  have hold {generation : ℕ} {offer : MerchantOffer}
      (hmem : .published generation offer ∈ (cell.advance row events).history) :
      .published generation offer ∈ cell.history := by
    obtain hmem | hmem := List.mem_append.mp hmem
    · exact hmem
    · exact absurd rfl (hevents _ hmem generation offer)
  refine ⟨fun generation offer offer' hmem hmem' =>
    h.agree generation offer offer' (hold hmem) (hold hmem'), ?_⟩
  intro after hafter offer hmem
  obtain ⟨before, hbefore, hkeeps | hnone⟩ := hrow after hafter
  · rw [hkeeps]
    exact h.frozen before hbefore offer (hold hmem)
  · exact .inr hnone

/-- The writes of a publication whose terms are those of the generation so far. -/
theorem Offers.publish (hagree : ∀ generation offer offer',
      .published generation offer ∈ cell.history →
      .published generation offer' ∈ cell.history → offer = offer')
    {offer : MerchantOffer}
    (hoffer : ∀ offer', .published cell.generation offer' ∈ cell.history → offer' = offer)
    {row : Option OfferingRow} (hrow : ∀ after ∈ row, after.offer = some offer)
    (entries : List X402StoreEntry) :
    (cell.advance row (entries.map (fun entry => .rewrote entry.merchantDelivery) ++
      [.published cell.generation offer])).Offers := by
  have hcases {generation : ℕ} {offer' : MerchantOffer}
      (hmem : .published generation offer' ∈ (cell.advance row
        (entries.map (fun entry => .rewrote entry.merchantDelivery) ++
          [.published cell.generation offer])).history) :
      .published generation offer' ∈ cell.history ∨
        generation = cell.generation ∧ offer' = offer := by
    obtain hmem | hmem := List.mem_append.mp hmem
    · exact .inl hmem
    · obtain ⟨entry, -, heq⟩ | heq := mem_writes hmem
      · cases heq
      · obtain ⟨rfl, rfl⟩ := OfferEvent.published.inj heq
        exact .inr ⟨rfl, rfl⟩
  constructor
  · intro generation o o' hmem hmem'
    obtain hold | ⟨hgen, ho⟩ := hcases hmem <;> obtain hold' | ⟨hgen', ho'⟩ := hcases hmem'
    · exact hagree generation o o' hold hold'
    · exact (hoffer o (hgen' ▸ hold)).trans ho'.symm
    · exact ho.trans (hoffer o' (hgen ▸ hold')).symm
    · exact ho.trans ho'.symm
  · intro after hafter o hmem
    have ho : o = offer := by
      obtain hmem | ⟨-, rfl⟩ := hcases hmem
      · exact hoffer o hmem
      · rfl
    exact .inl (by rw [hrow after hafter, ho])

theorem Offers.advances (h : cell.Offers) (hdated : cell.Dated) (hstep : cell.Advances cell') :
    cell'.Offers := by
  have hmarkers (before after) : ∀ e ∈ markers cell.generation before after,
      ∀ generation offer, e ≠ .published generation offer := by
    intro e he generation offer
    obtain rfl | rfl := mem_markers he <;> simp
  have hcurrent {existing : OfferingRow} {offer : MerchantOffer} (hrow : cell.row = some existing)
      (hoffer : existing.offer = some offer) (offer' : MerchantOffer)
      (hmem : .published cell.generation offer' ∈ cell.history) : offer' = offer := by
    obtain hsome | hnone := h.frozen existing hrow offer' hmem
    · exact (Option.some.inj (hoffer.symm.trans hsome)).symm
    · exact absurd (hoffer.symm.trans hnone) (by simp)
  have hbegin : ∀ generation offer offer', .published generation offer ∈ cell.begin.history →
      .published generation offer' ∈ cell.begin.history → offer = offer' := h.agree
  cases hstep with
  | stayed => exact h
  | repeated existing offer hrow hoffer =>
      refine .publish h.agree (hcurrent hrow hoffer) (fun after hafter => ?_) []
      obtain rfl := Option.some.inj (hrow.symm.trans hafter)
      exact hoffer
  | republished existing offer entries entry hrow hclaimed hoffer =>
      exact .publish h.agree (hcurrent hrow hoffer) (by simp) entries
  | published offer entries entry =>
      exact .publish hbegin (fun offer' hmem => absurd hmem (hdated.not_published_begin offer'))
        (by simp) entries
  | inserted entry hrow =>
      refine ⟨fun generation offer offer' hmem hmem' => ?_, fun row hrow offer _ => ?_⟩
      · exact h.agree generation offer offer' (by simpa [OfferingCell.advance, begin] using hmem)
          (by simpa [OfferingCell.advance, begin] using hmem')
      · obtain rfl := Option.some.inj hrow
        exact .inr rfl
  | rewritten before after hrow _ hoffer =>
      refine h.advance (by simp) fun row hmem => ⟨before, hrow, ?_⟩
      obtain rfl := Option.some.inj hmem
      exact .inl hoffer
  | edited before after hrow _ hoffer =>
      refine h.advance (hmarkers before after) fun row hmem => ⟨before, hrow, ?_⟩
      obtain rfl := Option.some.inj hmem
      exact hoffer
  | claimed before after hrow _ _ hoffer | released before after hrow hoffer =>
      refine h.advance (fun e he => ?_) fun row hmem => ⟨before, hrow, ?_⟩
      · obtain rfl | he := List.mem_cons.mp he
        · simp
        · exact hmarkers before after e he
      · obtain rfl := Option.some.inj hmem
        exact .inl hoffer
  | removed => exact h.advance (by simp) (by simp)

/-! ## The markers of an audit -/

end OfferingCell

def X402MerchantDelivery.MarkedOnce (delivery : X402MerchantDelivery) : Prop :=
  delivery.publicationStartedAt = none ∨ delivery.publicationClosedAt = none

namespace OfferingRow

def MarkedOnce (row : OfferingRow) : Prop :=
  row.publicationStartedAt = none ∨ row.publicationClosedAt = none

def Unmarked (row : OfferingRow) : Prop :=
  row.publicationStartedAt = none ∧ row.publicationClosedAt = none

theorem markedOnce_of_delivery {row : OfferingRow}
    (h : ∀ delivery ∈ row.entry.merchantDelivery, delivery.MarkedOnce) : row.MarkedOnce := by
  cases hdelivery : row.entry.merchantDelivery with
  | none => exact .inl (by simp [publicationStartedAt, hdelivery])
  | some delivery =>
      have hmarked := h delivery hdelivery
      simpa [MarkedOnce, X402MerchantDelivery.MarkedOnce, publicationStartedAt,
        publicationClosedAt, hdelivery] using hmarked

end OfferingRow

namespace OfferingCell

variable {cell cell' : OfferingCell}

/-- No audit that a caller wrote whole has both markers. -/
def WritesMarkedOnce (cell : OfferingCell) : Prop :=
  ∀ delivery, .rewrote (some delivery) ∈ cell.history → delivery.MarkedOnce

/-- From one write of the whole audit to the next, one marker is set once. -/
structure Audits (cell : OfferingCell) : Prop where
  spaced : Spaced OfferEvent.Marker OfferEvent.Rewrite cell.history
  unmarked : (∀ row ∈ cell.row, row.Unmarked) →
    Closed OfferEvent.Marker OfferEvent.Rewrite cell.history
  once : cell.WritesMarkedOnce → ∀ row ∈ cell.row, row.MarkedOnce

theorem Audits.rewrite (hspaced : Spaced OfferEvent.Marker OfferEvent.Rewrite cell.history)
    {row : Option OfferingRow} {events : List OfferEvent}
    (hevents : ∀ e ∈ events, ¬ e.Marker) (hrewrite : ∃ e ∈ events, e.Rewrite)
    (hrow : ∀ after ∈ row, ∀ delivery ∈ after.entry.merchantDelivery,
      .rewrote (some delivery) ∈ events) : (cell.advance row events).Audits where
  spaced := hspaced.append hevents
  unmarked _ := .append (.inl hrewrite) hevents
  once h after hafter :=
    OfferingRow.markedOnce_of_delivery fun delivery hdelivery =>
      h delivery (List.mem_append_right _ (hrow after hafter delivery hdelivery))

/-- An edit in place logs nothing and changes no marker, or sets one where there was none. -/
theorem markers_cases (generation : ℕ) {before after : OfferingRow}
    (h : before.MarksOnce after) :
    (markers generation before after = [] ∧ (after.Unmarked ↔ before.Unmarked) ∧
      (before.MarkedOnce → after.MarkedOnce)) ∨
    (before.Unmarked ∧ ¬ after.Unmarked ∧ after.MarkedOnce ∧
      ∃ marker, markers generation before after = [marker]) := by
  obtain ⟨hstarted, hclosed⟩ | ⟨hstarted, hclosed, hone⟩ := h
  · refine .inl ⟨by simp [markers, hstarted, hclosed], ?_, ?_⟩
    · simp only [OfferingRow.Unmarked, hstarted, hclosed]
    · simp only [OfferingRow.MarkedOnce, hstarted, hclosed, imp_self]
  · by_cases hunmarked : after.Unmarked
    · refine .inl ⟨?_, iff_of_true hunmarked ⟨hstarted, hclosed⟩, fun _ => hone⟩
      simp [markers, hunmarked.1, hunmarked.2, hstarted, hclosed]
    · refine .inr ⟨⟨hstarted, hclosed⟩, hunmarked, hone, ?_⟩
      obtain hnone | hnone := hone
      · have hset : after.publicationClosedAt ≠ none := fun heq => hunmarked ⟨hnone, heq⟩
        exact ⟨.publicationClosed generation, by simp [markers, hnone, hstarted, hclosed, hset]⟩
      · have hset : after.publicationStartedAt ≠ none := fun heq => hunmarked ⟨heq, hnone⟩
        exact ⟨.publicationStarted generation, by simp [markers, hnone, hstarted, hclosed, hset]⟩

theorem Audits.mark (h : cell.Audits) {before after : OfferingRow} (events : List OfferEvent)
    (hrow : cell.row = some before) (hmarks : before.MarksOnce after)
    (hevents : ∀ e ∈ events, ¬ e.Marker) :
    (cell.advance (some after)
      (events ++ markers cell.generation before after)).Audits := by
  have hbefore {P : OfferingRow → Prop} (hP : P before) : ∀ row ∈ cell.row, P row := by
    intro row hmem
    obtain rfl := Option.some.inj (hrow.symm.trans hmem)
    exact hP
  have hwrites {more : List OfferEvent}
      (hall : (cell.advance (some after) more).WritesMarkedOnce) : cell.WritesMarkedOnce :=
    fun delivery hmem => hall delivery (List.mem_append_left _ hmem)
  obtain ⟨hnone, hunmarked, honce⟩ | ⟨hunmarked, hset, hone, marker, hmarker⟩ :=
    markers_cases cell.generation hmarks
  · rw [hnone, List.append_nil]
    refine ⟨h.spaced.append hevents, fun hafter => .append (.inr ?_) hevents, fun hall row hmem => ?_⟩
    · exact h.unmarked (hbefore (hunmarked.mp (hafter after rfl)))
    · obtain rfl := Option.some.inj hmem
      exact honce (h.once (hwrites hall) before hrow)
  · rw [hmarker]
    have hlog : Closed OfferEvent.Marker OfferEvent.Rewrite (cell.history ++ events) :=
      .append (.inr (h.unmarked (hbefore hunmarked))) hevents
    refine ⟨?_, fun hafter => absurd (hafter after rfl) hset, fun _ row hmem => ?_⟩
    · have hsnoc := (h.spaced.append hevents).snoc (e := marker) fun _ => hlog
      simpa [advance] using hsnoc
    · obtain rfl := Option.some.inj hmem
      exact hone

theorem Audits.advances (h : cell.Audits) (hstep : cell.Advances cell') : cell'.Audits := by
  have hwrites (generation : ℕ) (entries : List X402StoreEntry) (offer : MerchantOffer) :
      ∀ e ∈ entries.map (fun entry => OfferEvent.rewrote entry.merchantDelivery) ++
        [.published generation offer], ¬ e.Marker := by
    intro e he
    obtain ⟨entry, -, rfl⟩ | rfl := mem_writes he <;> simp [OfferEvent.Marker]
  have hbegin : Spaced OfferEvent.Marker OfferEvent.Rewrite cell.begin.history := h.spaced
  have hentry (generation : ℕ) (offer : MerchantOffer) {entries : List X402StoreEntry}
      {entry : X402StoreEntry} (hmem : entry ∈ entries) :
      .rewrote entry.merchantDelivery ∈
        entries.map (fun entry => OfferEvent.rewrote entry.merchantDelivery) ++
          [.published generation offer] :=
    List.mem_append_left _ (List.mem_map.mpr ⟨entry, hmem, rfl⟩)
  cases hstep with
  | stayed => exact h
  | repeated existing offer hrow hoffer =>
      have hsame : existing.MarksOnce existing := .inl ⟨rfl, rfl⟩
      simpa [markers, hrow] using
        h.mark [.published cell.generation offer] hrow hsame (by simp [OfferEvent.Marker])
  | republished existing offer entries entry hrow hclaimed hoffer hmem =>
      refine .rewrite h.spaced (hwrites _ entries offer) ⟨_, hentry _ offer hmem, trivial⟩ ?_
      rintro after hafter delivery hdelivery
      obtain rfl := Option.some.inj hafter
      exact hdelivery ▸ hentry _ offer hmem
  | published offer entries entry hmem =>
      refine .rewrite hbegin (hwrites _ entries offer) ⟨_, hentry _ offer hmem, trivial⟩ ?_
      rintro after hafter delivery hdelivery
      obtain rfl := Option.some.inj hafter
      exact hdelivery ▸ hentry _ offer hmem
  | inserted entry hrow =>
      refine .rewrite hbegin (by simp [OfferEvent.Marker]) (by simp [OfferEvent.Rewrite]) ?_
      rintro after hafter delivery hdelivery
      obtain rfl := Option.some.inj hafter
      simpa using hdelivery.symm
  | rewritten before after hrow =>
      refine .rewrite h.spaced (by simp [OfferEvent.Marker]) (by simp [OfferEvent.Rewrite]) ?_
      rintro after hafter delivery hdelivery
      obtain rfl := Option.some.inj hafter
      simpa using hdelivery.symm
  | edited before after hrow _ _ hmarks =>
      simpa using h.mark [] hrow hmarks (by simp)
  | claimed before after hrow _ _ _ hmarks =>
      simpa using h.mark [.claimed cell.generation] hrow hmarks
        (by simp [OfferEvent.Marker])
  | released before after hrow _ hmarks =>
      simpa using h.mark [.released cell.generation] hrow hmarks
        (by simp [OfferEvent.Marker])
  | removed =>
      refine .rewrite h.spaced ?_ ?_ (by simp)
      · simp [OfferEvent.Marker]
      · simp [OfferEvent.Rewrite]

end OfferingCell

/-! ## The table -/

abbrev OfferStore := OfferingKey → OfferingCell

inductive StoreRequest where
  | method (key : OfferingKey) (now : ℕ) (m : StoreMethod)
  | sweepExpired (now : ℕ)

def OfferStore.apply (ttl : ℕ) (store : OfferStore) : StoreRequest → OfferStore
  | .method key now m => Function.update store key ((store key).step ttl now m)
  | .sweepExpired now => fun key => (store key).sweep now

/-- Requests of any callers, on any keys, in any order. -/
def offerStoreSystem (ttl : ℕ) : System OfferStore StoreRequest :=
  .ofApply (fun store => ∀ key, store key = {}) (fun _ _ => True) (OfferStore.apply ttl)

namespace OfferStore

variable {ttl : ℕ} {store : OfferStore}

/-- A request moves each row by at most one step. -/
theorem cell_apply {I : OfferingCell → Prop} (request : StoreRequest) (h : ∀ key, I (store key))
    (hstep : ∀ cell cell', I cell → cell.Advances cell' → I cell') (key : OfferingKey) :
    I (store.apply ttl request key) := by
  cases request with
  | method target now m =>
      by_cases hkey : key = target
      · subst hkey
        simpa [apply] using hstep _ _ (h key) (OfferingCell.advances_step m)
      · simpa [apply, hkey] using h key
  | sweepExpired now => exact hstep _ _ (h key) OfferingCell.advances_sweep

structure Consistent (cell : OfferingCell) : Prop where
  dated : cell.Dated
  claims : cell.Claims
  offers : cell.Offers
  audits : cell.Audits

theorem Consistent.init : Consistent {} where
  dated := by simp [OfferingCell.Dated]
  claims := ⟨by simp, by simp⟩
  offers := ⟨by simp, by simp⟩
  audits := ⟨by simp, by simp, by simp⟩

theorem Consistent.advances {cell cell' : OfferingCell} (h : Consistent cell)
    (hstep : cell.Advances cell') : Consistent cell' where
  dated := h.dated.advances hstep
  claims := h.claims.advances h.dated hstep
  offers := h.offers.advances h.dated hstep
  audits := h.audits.advances hstep

theorem consistent_of_reachable (h : (offerStoreSystem ttl).Reachable store) (key : OfferingKey) :
    Consistent (store key) := by
  refine h.invariant (I := fun store => ∀ key, Consistent (store key)) ?_ ?_ key
  · intro s hinit key
    rw [hinit key]
    exact .init
  · rintro s request t hs ⟨-, rfl⟩ key
    exact cell_apply request hs (fun _ _ => Consistent.advances) key

end OfferStore

/-! ## Release after a claim -/

namespace OfferingRow

variable {row claimed : OfferingRow} {ttl now now' : ℕ}

/-- A release gives the row the expiry it had before the claim, and the entry the same. -/
theorem release_claim (h : row.claim now ttl = some claimed) :
    claimed.release now' = { row with
      entry := { row.entry with
        expiresAt := row.expiresAt, bridgeOfferExpiresAt := none, updatedAt := now' } } := by
  obtain ⟨hclaimed, -, rfl⟩ := claim_spec h
  simp [release, hclaimed]

/-- The entry tells the expiry of its row, and has the deadline aside only under a claim. -/
def Aligned (row : OfferingRow) : Prop :=
  row.entry.expiresAt = row.expiresAt ∧
    (row.claimedAt = none → row.entry.bridgeOfferExpiresAt = none)

theorem Aligned.release_claim (hrow : row.Aligned) (h : row.claim now ttl = some claimed) :
    claimed.release now' = { row with entry := { row.entry with updatedAt := now' } } := by
  rw [OfferingRow.release_claim h, ← hrow.1, ← hrow.2 (claim_spec h).1]

end OfferingRow

/-- The fields of the expiry are left to the store: no patch has one of them, and no entry has
the one that the store keeps aside. -/
def StoreMethod.LeavesExpiry : StoreMethod → Prop
  | .publishing _ publish => ∀ offer, ∀ entries ∈ publish offer, ∀ entry ∈ entries,
      entry.bridgeOfferExpiresAt = none
  | .put entry => entry.bridgeOfferExpiresAt = none
  | .updateIfStatus _ patch => patch.expiresAt = none ∧ patch.bridgeOfferExpiresAt = none
  | _ => True

def StoreRequest.LeavesExpiry : StoreRequest → Prop
  | .method _ _ m => m.LeavesExpiry
  | .sweepExpired _ => True

theorem aligned_apply {ttl now : ℕ} {row : Option OfferingRow} (h : ∀ r ∈ row, r.Aligned)
    {m : StoreMethod} (hm : m.LeavesExpiry) : ∀ r ∈ m.apply ttl now row, r.Aligned := by
  intro after hafter
  cases m with
  | publishing offer publish =>
      simp only [StoreMethod.apply] at hafter
      cases hpublishing : publishing now offer publish row with
      | error => exact h after (by simpa [hpublishing] using hafter)
      | ok publication =>
          have hspec := publishing_spec hpublishing
          simp only [hpublishing] at hafter
          by_cases hentries : publication.entries = []
          · exact h after (hspec.idle hentries ▸ hafter)
          · obtain ⟨entry, hentry, hwritten⟩ := hspec.written hentries
            obtain rfl := Option.some.inj (hwritten.symm.trans hafter)
            exact ⟨rfl, fun _ => hm _ _ hspec.entries entry hentry⟩
  | put entry =>
      obtain rfl := Option.some.inj hafter
      cases row <;> exact ⟨rfl, fun _ => hm⟩
  | updateIfStatus expected patch =>
      cases row with
      | none => cases hafter
      | some before =>
          have hbefore := h before rfl
          cases hupdate : before.updateIfStatus now expected patch with
          | none => exact h after (by simpa [StoreMethod.apply, hupdate] using hafter)
          | some updated =>
              obtain rfl : updated = after := by simpa [StoreMethod.apply, hupdate] using hafter
              obtain rfl := updateIfStatus_spec hupdate
              refine ⟨?_, fun hclaimed => ?_⟩
              · simpa [X402StoreEntry.patch, hm.1] using hbefore.1
              · simpa [X402StoreEntry.patch, hm.2] using hbefore.2 hclaimed
  | updateMerchantDeliveryIfStatus expected patch condition =>
      cases row with
      | none => cases hafter
      | some before =>
          cases hupdate : before.updateMerchantDeliveryIfStatus now expected patch condition with
          | none => exact h after (by simpa [StoreMethod.apply, hupdate] using hafter)
          | some updated =>
              obtain rfl : updated = after := by simpa [StoreMethod.apply, hupdate] using hafter
              obtain ⟨-, rfl⟩ := updateMerchantDeliveryIfStatus_spec hupdate
              exact h before rfl
  | deleteOffer =>
      obtain ⟨before, hbefore, rfl⟩ := Option.map_eq_some_iff.mp hafter
      exact h before hbefore
  | delete => cases hafter
  | claim =>
      cases row with
      | none => cases hafter
      | some before =>
          cases hupdate : before.claim now ttl with
          | none => exact h after (by simpa [StoreMethod.apply, hupdate] using hafter)
          | some updated =>
              obtain rfl : updated = after := by simpa [StoreMethod.apply, hupdate] using hafter
              obtain ⟨-, -, rfl⟩ := claim_spec hupdate
              exact ⟨rfl, fun hnone => absurd hnone (by simp)⟩
  | release =>
      obtain ⟨before, hbefore, rfl⟩ := Option.map_eq_some_iff.mp hafter
      cases hdeadline : before.entry.bridgeOfferExpiresAt with
      | none => simpa [OfferingRow.release, hdeadline, OfferingRow.Aligned] using (h before hbefore).1
      | some deadline => simp [OfferingRow.release, hdeadline, OfferingRow.Aligned]

theorem aligned_of_reachable {ttl : ℕ} {store : OfferStore}
    (h : ((offerStoreSystem ttl).restrict fun _ request => request.LeavesExpiry).Reachable store)
    (key : OfferingKey) : ∀ row ∈ (store key).row, row.Aligned := by
  refine h.invariant (I := fun store => ∀ key, ∀ row ∈ (store key).row, row.Aligned) ?_ ?_ key
  · intro s hinit key row hrow
    rw [hinit key] at hrow
    cases hrow
  · rintro s request t hs ⟨hleaves, -, rfl⟩ key row hrow
    cases request with
    | method target now m =>
        by_cases hkey : key = target
        · subst hkey
          simp only [OfferStore.apply, Function.update_self, OfferingCell.step_row] at hrow
          exact aligned_apply (hs key) hleaves row hrow
        · exact hs key row (by simpa [OfferStore.apply, hkey] using hrow)
    | sweepExpired now =>
        simp only [OfferStore.apply, OfferingCell.sweep_row] at hrow
        exact hs key row (Option.filter_eq_some_iff.mp hrow).1

/-- The claims on a generation have a release between them, its terms are one offer, and a
marker is set once from one write of the whole audit to the next. A release right after a
claim brings back the entry and its expiry, where callers leave the fields of the expiry to
the store. -/
theorem offerStore_contract {ttl : ℕ} {store : OfferStore}
    (h : (offerStoreSystem ttl).Reachable store) (key : OfferingKey) :
    (∀ generation,
      Spaced (· = .claimed generation) (· = .released generation) (store key).history) ∧
    (∀ generation offer offer', .published generation offer ∈ (store key).history →
      .published generation offer' ∈ (store key).history → offer = offer') ∧
    (∀ now offer offer', .published (store key).generation offer ∈ (store key).history →
      getOffer now (store key).row = some offer' → offer' = offer) ∧
    Spaced OfferEvent.Marker OfferEvent.Rewrite (store key).history ∧
    ((store key).WritesMarkedOnce → ∀ row ∈ (store key).row, row.MarkedOnce) ∧
    (∀ row ∈ (store key).row, ∀ now now' claimed, row.claim now ttl = some claimed →
      claimed.release now' = { row with
        entry := { row.entry with
          expiresAt := row.expiresAt, bridgeOfferExpiresAt := none, updatedAt := now' } }) ∧
    (((offerStoreSystem ttl).restrict fun _ request => request.LeavesExpiry).Reachable store →
      ∀ row ∈ (store key).row, ∀ now now' claimed, row.claim now ttl = some claimed →
        claimed.release now' = { row with entry := { row.entry with updatedAt := now' } }) := by
  have hcell := OfferStore.consistent_of_reachable h key
  refine ⟨hcell.claims.spaced, hcell.offers.agree, ?_, hcell.audits.spaced, hcell.audits.once,
    fun row hrow now now' claimed => OfferingRow.release_claim, ?_⟩
  · intro now offer offer' hmem hget
    obtain ⟨row, hrow, hoffer⟩ := Option.bind_eq_some_iff.mp hget
    obtain ⟨raw, hraw, hrevive⟩ := Option.bind_eq_some_iff.mp hoffer
    obtain hsome | hnone :=
      hcell.offers.frozen row (Option.filter_eq_some_iff.mp hrow).1 offer hmem
    · rw [← reviveOffer_eq hrevive]
      exact Option.some.inj (hraw.symm.trans hsome)
    · exact absurd (hraw.symm.trans hnone) (by simp)
  · intro hleaves row hrow now now' claimed hclaim
    exact (aligned_of_reachable hleaves key row hrow).release_claim hclaim

section Witness

private def exampleKey : OfferingKey := ⟨"agent", "task"⟩

private def exampleOffer : MerchantOffer := .obj [("accepts", .arr [.str "exact"])]

/-- The publication of an offering that is signed until 100. -/
private def publishOffering (now : ℕ) : StoreRequest :=
  .method exampleKey now (.publishing exampleOffer fun _ =>
    some [{ status := .offered, accepts := some .null, updatedAt := now, expiresAt := some 100 }])

private def markAudit (now : ℕ) (patch : X402MerchantDelivery) : StoreRequest :=
  .method exampleKey now (.updateMerchantDeliveryIfStatus [.offered] patch {})

/-- A payment is accepted, its publication started, and the claim released; the caller asks
for payment again, and the publication of the second payment is closed. -/
private def retriedOffering : List StoreRequest :=
  [publishOffering 1, .method exampleKey 2 .claim,
    markAudit 3 { timing := some "after-verification", publicationStartedAt := some 3 },
    .method exampleKey 4 .release, publishOffering 5, .method exampleKey 6 .claim,
    markAudit 7 { timing := some "after-verification", publicationClosedAt := some 7 }]

private def patchedOffering : List StoreRequest :=
  [publishOffering 1,
    .method exampleKey 2 (.updateIfStatus [.offered] { expiresAt := some 200 })]

/-- One generation has both markers, and a release puts an expiry on an entry that it did not
have before the claim. -/
theorem offerStore_contract_rewritten :
    (∃ store, (offerStoreSystem 86400).Reachable store ∧
      .publicationStarted 1 ∈ (store exampleKey).history ∧
      .publicationClosed 1 ∈ (store exampleKey).history) ∧
    (∃ store, (offerStoreSystem 86400).Reachable store ∧
      ∃ row ∈ (store exampleKey).row, ∃ claimed, row.claim 3 86400 = some claimed ∧
        (claimed.release 4).entry.expiresAt ≠ row.entry.expiresAt) := by
  have hreachable (script : List StoreRequest) :
      (offerStoreSystem 86400).Reachable
        (script.foldl (OfferStore.apply 86400) fun _ => {}) := by
    refine System.Legal.reachable ?_ (.of_init fun _ => rfl)
    generalize (fun _ => {} : OfferStore) = store
    induction script generalizing store with
    | nil => trivial
    | cons request script ih => exact ⟨trivial, ih _⟩
  refine ⟨⟨_, hreachable retriedOffering, by decide +kernel, by decide +kernel⟩,
    ⟨_, hreachable patchedOffering, ?_⟩⟩
  refine ⟨_, rfl, _, rfl, ?_⟩
  decide +kernel

theorem offerStore_contract_published :
    ∃ store, (offerStoreSystem 86400).Reachable store ∧
      ∀ generation, Spaced (· = .claimed generation) (· = .released generation)
        (store exampleKey).history := by
  have hreachable : (offerStoreSystem 86400).Reachable
      ([publishOffering 1, .method exampleKey 2 .claim].foldl (OfferStore.apply 86400)
        fun _ => {}) :=
    System.Legal.reachable ⟨trivial, trivial, trivial⟩ (.of_init fun _ => rfl)
  exact ⟨_, hreachable, (offerStore_contract hreachable exampleKey).1⟩

end Witness

end VicoopBridge
