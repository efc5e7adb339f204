import Mathlib.Data.List.Pairwise
import VicoopBridge.Model.IdentityVc

/-! # A presented credential is accepted once

The replay row outlives the validity of the credential it was inserted for, and the expiry
is checked again after the insertion. -/

namespace VicoopBridge

open Library

/-- The call has come to its replay step. -/
def VerifyPhase.spent : VerifyPhase → Bool
  | .consumed .. | .accepted _ | .refused _ => true
  | _ => false

namespace VerifierState

variable (limits : IdentityVcLimits) (sha256 : String → String)

/-- While a credential is valid, with the allowed skew, no other with its tuple is accepted;
and a call that rejects its evidence before the replay step has consumed nothing. -/
structure AcceptedOnce (s : VerifierState) : Prop where
  apart : s.acceptances.Pairwise fun a b => a.tuple = b.tuple → a.expiresAt ≤ b.time
  inTime : ∀ a ∈ s.acceptances, a.time < a.expiresAt
  unspent : ∀ call code, s.calls call = .rejected code → ∀ c ∈ s.consumptions, c.call ≠ call

/-- A row inserted by a call for a credential. -/
def Inserted (s : VerifierState) (call : ℕ) (tuple : ReplayTuple) (expiresAt : ℤ) : Prop :=
  ∃ c ∈ s.consumptions, c.call = call ∧ c.digest = identityReplayDigest sha256 tuple ∧
    c.expiresAt = expiresAt

structure Invariant (s : VerifierState) : Prop where
  remembers : s.replays.Remembers s.now (s.consumptions.map fun c => (c.digest, c.expiresAt))
  consumedApart : s.consumptions.Pairwise fun c c' => c.digest = c'.digest → c.expiresAt ≤ c'.time
  consumedPast : ∀ c ∈ s.consumptions, c.time ≤ s.now
  consumedBy : ∀ c ∈ s.consumptions, (s.calls c.call).spent = true
  fresh : ∀ call credential validUntil, s.calls call = .consumed credential validUntil true →
    s.Inserted sha256 call credential.tuple (validUntil + limits.clockSkewMs)
  acceptedBy : ∀ a ∈ s.acceptances, (∃ identity, s.calls a.call = .accepted identity) ∧
    s.Inserted sha256 a.call a.tuple a.expiresAt
  inTime : ∀ a ∈ s.acceptances, a.time < a.expiresAt
  apart : s.acceptances.Pairwise fun a b => a.tuple = b.tuple → a.expiresAt ≤ b.time

variable {limits : IdentityVcLimits} {sha256 : String → String} {s t : VerifierState}

theorem Invariant.once (inv : s.Invariant limits sha256) : s.AcceptedOnce where
  apart := inv.apart
  inTime := inv.inTime
  unspent call code hcall c hc heq := by
    have hspent := inv.consumedBy c hc
    rw [heq, hcall] at hspent
    simp [VerifyPhase.spent] at hspent

@[simp] theorem commit_calls (call : ℕ) (replays : ReplayTable String ℤ) (digest : String)
    (expiresAt : ℤ) : (s.commit call replays digest expiresAt).calls = s.calls := rfl

@[simp] theorem record_calls (call : ℕ) (credential : PlatformIdentityCredential)
    (validUntil : ℤ) : (s.record limits call credential validUntil).calls = s.calls := rfl

/-! ## Steps -/

/-- A call moves on, but not from the replay step back before it. -/
theorem Invariant.setCall (inv : s.Invariant limits sha256) {call : ℕ} {phase : VerifyPhase}
    (hkeep : (s.calls call).spent = true → phase.spent = true)
    (hopen : ∀ identity, s.calls call ≠ .accepted identity)
    (hfresh : ∀ credential validUntil, phase ≠ .consumed credential validUntil true) :
    (s.setCall call phase).Invariant limits sha256 := by
  refine ⟨inv.remembers, inv.consumedApart, inv.consumedPast, fun c hc => ?_,
    fun call' credential validUntil h => ?_, fun a ha => ?_, inv.inTime, inv.apart⟩
  · have hspent := inv.consumedBy c hc
    by_cases hcall : c.call = call
    · simpa [VerifierState.setCall, hcall] using hkeep (hcall ▸ hspent)
    · simpa [VerifierState.setCall, hcall] using hspent
  · by_cases hcall : call' = call
    · subst hcall
      exact absurd (by simpa [VerifierState.setCall] using h) (hfresh credential validUntil)
    · exact inv.fresh call' credential validUntil (by simpa [VerifierState.setCall, hcall] using h)
  · obtain ⟨⟨identity, haccepted⟩, hinserted⟩ := inv.acceptedBy a ha
    have hcall : a.call ≠ call := fun heq => hopen identity (heq ▸ haccepted)
    exact ⟨⟨identity, by simpa [VerifierState.setCall, hcall] using haccepted⟩, hinserted⟩

/-- A call before its replay step is rejected or goes on. -/
theorem Invariant.advance (inv : s.Invariant limits sha256) {call : ℕ} {phase : VerifyPhase}
    (hbefore : (s.calls call).spent = false)
    (hfresh : ∀ credential validUntil, phase ≠ .consumed credential validUntil true) :
    (s.setCall call phase).Invariant limits sha256 := by
  refine inv.setCall (by simp [hbefore]) (fun identity h => ?_) hfresh
  simp [h, VerifyPhase.spent] at hbefore

/-- The row of a call goes in: every earlier row with its digest has expired. -/
theorem Invariant.insert (inv : s.Invariant limits sha256) {call : ℕ}
    {credential : PlatformIdentityCredential} {validUntil : ℤ} {replays : ReplayTable String ℤ}
    (hphase : s.calls call = .consuming credential validUntil)
    (hconsume : s.replays.consume (identityReplayDigest sha256 credential.tuple)
      (validUntil + limits.clockSkewMs) = some replays)
    {phase : VerifyPhase} (hspent : phase.spent = true)
    (hfresh : ∀ credential' validUntil', phase = .consumed credential' validUntil' true →
      credential' = credential ∧ validUntil' = validUntil) :
    ((s.commit call replays (identityReplayDigest sha256 credential.tuple)
      (validUntil + limits.clockSkewMs)).setCall call phase).Invariant limits sha256 := by
  obtain ⟨hremembers, hexpired⟩ := inv.remembers.consume hconsume
  have hinserted : ∀ {call' tuple expiresAt}, s.Inserted sha256 call' tuple expiresAt →
      (s.commit call replays (identityReplayDigest sha256 credential.tuple)
        (validUntil + limits.clockSkewMs)).Inserted sha256 call' tuple expiresAt := by
    rintro call' tuple expiresAt ⟨c, hc, hrest⟩
    exact ⟨c, List.mem_append_left _ hc, hrest⟩
  refine ⟨?_, ?_, fun c hc => ?_, fun c hc => ?_, fun call' credential' validUntil' h => ?_,
    fun a ha => ?_, inv.inTime, inv.apart⟩
  · simpa [VerifierState.setCall, commit] using hremembers
  · refine List.pairwise_append.mpr ⟨inv.consumedApart, List.pairwise_singleton _ _, ?_⟩
    rintro c hc c' hc' hdigest
    obtain rfl := List.mem_singleton.mp hc'
    exact hexpired (c.digest, c.expiresAt) (List.mem_map.mpr ⟨c, hc, rfl⟩) hdigest
  · rcases List.mem_append.mp hc with hold | hnew
    · exact inv.consumedPast c hold
    · obtain rfl := List.mem_singleton.mp hnew
      exact le_refl s.now
  · by_cases hcall : c.call = call
    · simpa [VerifierState.setCall, hcall] using hspent
    · rcases List.mem_append.mp hc with hold | hnew
      · simpa [VerifierState.setCall, hcall] using inv.consumedBy c hold
      · exact absurd (by rw [List.mem_singleton.mp hnew]) hcall
  · by_cases hcall : call' = call
    · subst hcall
      obtain ⟨rfl, rfl⟩ := hfresh credential' validUntil' (by simpa [VerifierState.setCall] using h)
      exact ⟨_, List.mem_append_right _ (List.mem_singleton.mpr rfl), rfl, rfl, rfl⟩
    · exact hinserted (inv.fresh call' credential' validUntil'
        (by simpa [VerifierState.setCall, hcall] using h))
  · obtain ⟨⟨identity, haccepted⟩, hrow⟩ := inv.acceptedBy a ha
    have hcall : a.call ≠ call := by
      rintro heq
      simp [← heq, haccepted] at hphase
    exact ⟨⟨identity, by simpa [VerifierState.setCall, hcall] using haccepted⟩, hinserted hrow⟩

/-- Two rows with one digest: the one inserted first expires before the other goes in. -/
theorem Invariant.rows_apart (inv : s.Invariant limits sha256) {c c' : Consumption}
    (hc : c ∈ s.consumptions) (hc' : c' ∈ s.consumptions) (hne : c ≠ c')
    (hdigest : c.digest = c'.digest) : c.expiresAt ≤ s.now ∨ c'.expiresAt ≤ s.now := by
  have hsymm : s.consumptions.Pairwise fun c c' => c.digest = c'.digest →
      c.expiresAt ≤ s.now ∨ c'.expiresAt ≤ s.now := by
    refine inv.consumedApart.imp_of_mem fun hmem hmem' h hdigest => .inl ?_
    exact (h hdigest).trans (inv.consumedPast _ hmem')
  have : Std.Symm fun c c' : Consumption => c.digest = c'.digest →
      c.expiresAt ≤ s.now ∨ c'.expiresAt ≤ s.now :=
    ⟨fun c c' h hdigest => (h hdigest.symm).symm⟩
  exact hsymm.forall hc hc' hne hdigest

/-- A credential is accepted in time, so every other with its tuple has expired. -/
theorem Invariant.accept (inv : s.Invariant limits sha256) {call : ℕ}
    {credential : PlatformIdentityCredential} {validUntil : ℤ}
    (hphase : s.calls call = .consumed credential validUntil true)
    (htime : ¬ s.now - limits.clockSkewMs ≥ validUntil) (identity : CallerAttestationV2) :
    ((s.record limits call credential validUntil).setCall call
      (.accepted identity)).Invariant limits sha256 := by
  obtain ⟨c, hc, hcall, hdigest, hexpires⟩ := inv.fresh call credential validUntil hphase
  have hlive : s.now < validUntil + limits.clockSkewMs := by omega
  have hother : ∀ a ∈ s.acceptances, a.call ≠ call := by
    intro a ha heq
    obtain ⟨⟨identity', haccepted⟩, -⟩ := inv.acceptedBy a ha
    simp [← heq, haccepted] at hphase
  refine ⟨inv.remembers, inv.consumedApart, inv.consumedPast, fun c' hc' => ?_,
    fun call' credential' validUntil' h => ?_, fun a ha => ?_, fun a ha => ?_, ?_⟩
  · by_cases heq : c'.call = call
    · simp [VerifierState.setCall, heq, VerifyPhase.spent]
    · simpa [VerifierState.setCall, heq] using inv.consumedBy c' hc'
  · by_cases heq : call' = call
    · simp [VerifierState.setCall, heq] at h
    · exact inv.fresh call' credential' validUntil' (by simpa [VerifierState.setCall, heq] using h)
  · rcases List.mem_append.mp ha with hold | hnew
    · obtain ⟨⟨identity', haccepted⟩, hrow⟩ := inv.acceptedBy a hold
      exact ⟨⟨identity', by simpa [VerifierState.setCall, hother a hold] using haccepted⟩, hrow⟩
    · obtain rfl := List.mem_singleton.mp hnew
      exact ⟨⟨identity, by simp [VerifierState.setCall]⟩, c, hc, hcall, hdigest, hexpires⟩
  · rcases List.mem_append.mp ha with hold | hnew
    · exact inv.inTime a hold
    · obtain rfl := List.mem_singleton.mp hnew
      exact hlive
  · refine List.pairwise_append.mpr ⟨inv.apart, List.pairwise_singleton _ _, ?_⟩
    intro a ha b hb htuple
    obtain rfl := List.mem_singleton.mp hb
    obtain ⟨-, c', hc', hcall', hdigest', hexpires'⟩ := inv.acceptedBy a ha
    have hne : c' ≠ c := by
      rintro rfl
      exact hother a ha (hcall'.symm.trans hcall)
    have hsame : c'.digest = c.digest := by rw [hdigest', hdigest, htuple]
    rcases inv.rows_apart hc' hc hne hsame with hexpired | hexpired
    · exact hexpires' ▸ hexpired
    · exact absurd hexpired (by rw [hexpires]; exact not_le.mpr hlive)

theorem Invariant.takeDocument (inv : s.Invariant limits sha256) {call : ℕ}
    (hbefore : (s.calls call).spent = false) (credential : PlatformIdentityCredential)
    (validUntil : ℤ) (refreshed : Bool) (doc : ResolvedDidDocument) :
    (s.takeDocument call credential validUntil refreshed doc).Invariant limits sha256 := by
  unfold VerifierState.takeDocument
  split <;> exact inv.advance hbefore (by simp)

theorem Invariant.resolved (inv : s.Invariant limits sha256) (call : ℕ)
    (document : Option Json) : (s.resolved call document).Invariant limits sha256 := by
  unfold VerifierState.resolved
  split
  · rename_i credential validUntil hphase
    have hbefore : (s.calls call).spent = false := by rw [hphase]; rfl
    split
    · exact inv.advance hbefore (by simp)
    · split
      · exact inv.advance hbefore (by simp)
      · exact inv.takeDocument hbefore _ _ _ _
  · rename_i credential validUntil hphase
    have hbefore : (s.calls call).spent = false := by rw [hphase]; rfl
    split
    · exact inv.advance hbefore (by simp)
    · exact inv.takeDocument hbefore _ _ _ _
  · rename_i credential validUntil hphase
    have hbefore : (s.calls call).spent = false := by rw [hphase]; rfl
    split
    · exact inv.advance hbefore (by simp)
    · exact inv.takeDocument hbefore _ _ _ _
  · exact inv

theorem Invariant.verified (inv : s.Invariant limits sha256) (call : ℕ) (valid : Bool) :
    (s.verified limits call valid).Invariant limits sha256 := by
  unfold VerifierState.verified afterSignature
  split
  · rename_i credential validUntil refreshed hphase
    have hbefore : (s.calls call).spent = false := by rw [hphase]; rfl
    repeat' split
    all_goals exact inv.advance hbefore (by simp)
  · exact inv

theorem Invariant.consume (inv : s.Invariant limits sha256) (call : ℕ) :
    (s.consume limits sha256 call).Invariant limits sha256 := by
  unfold VerifierState.consume insertReplay
  split
  · rename_i credential validUntil hphase
    have hbefore : (s.calls call).spent = false := by rw [hphase]; rfl
    simp only
    split
    · exact inv.advance hbefore (by simp)
    · rename_i replays hconsume
      exact inv.insert hphase hconsume rfl fun credential' validUntil' h => by
        simpa [eq_comm] using h
  · exact inv

theorem Invariant.consumeFails (inv : s.Invariant limits sha256) (call : ℕ) (committed : Bool) :
    (s.consumeFails limits sha256 call committed).Invariant limits sha256 := by
  unfold VerifierState.consumeFails insertReplay
  split
  · rename_i credential validUntil hphase
    have hbefore : (s.calls call).spent = false := by rw [hphase]; rfl
    cases committed with
    | false => exact inv.advance hbefore (by simp)
    | true =>
        simp only [if_true]
        split
        · exact inv.advance hbefore (by simp)
        · rename_i replays hconsume
          exact inv.insert hphase hconsume rfl (by simp)
  · exact inv

theorem Invariant.finish (inv : s.Invariant limits sha256) (call : ℕ) :
    (s.finish limits call).Invariant limits sha256 := by
  unfold VerifierState.finish
  split
  · rename_i credential validUntil fresh hphase
    have hrefuse : ∀ code, (s.setCall call (.refused code)).Invariant limits sha256 := fun code =>
      inv.setCall (fun _ => rfl) (by simp [hphase]) (by simp)
    split
    · exact hrefuse _
    · rename_i htime
      split
      · exact hrefuse _
      · rename_i hfresh
        obtain rfl : fresh = true := by simpa using hfresh
        exact inv.accept hphase htime _
  · exact inv

theorem Invariant.step {a : VerifierAction} (inv : s.Invariant limits sha256)
    (hstep : (verifierSystem limits sha256).step s a t) : t.Invariant limits sha256 := by
  obtain ⟨henabled, rfl⟩ := hstep
  cases a with
  | verify call binding parsed =>
      have hidle : (s.calls call).spent = false := by
        cases hphase : s.calls call <;> simp_all [enabled, VerifyPhase.spent]
      simp only [apply, VerifierState.verify]
      repeat' split
      all_goals exact inv.advance hidle (by simp)
  | resolved call document => exact inv.resolved call document
  | verified call valid => exact inv.verified call valid
  | consume call => exact inv.consume call
  | consumeFails call committed => exact inv.consumeFails call committed
  | finish call => exact inv.finish call
  | sweep => exact { inv with remembers := inv.remembers.sweep }
  | tick now =>
      have hlater : s.now ≤ now := by simpa [enabled] using henabled
      exact { inv with
        remembers := inv.remembers.later hlater
        consumedPast := fun c hc => (inv.consumedPast c hc).trans hlater }

theorem acceptedOnce (h : (verifierSystem limits sha256).Reachable s) : s.AcceptedOnce := by
  refine (h.invariant (I := Invariant limits sha256) ?_ fun s a t inv => inv.step).once
  rintro s ⟨now, rfl⟩
  exact ⟨.nil _ _, .nil, by simp, by simp, by simp, by simp, by simp, .nil⟩

/-! ## What an acceptance rests on -/

section Evidence

variable (limits) (took : VerifierState → VerifierAction → Prop) (call : ℕ)
  (credential : PlatformIdentityCredential)

/-- The call was given the credential for a message that it fits, in time. -/
def Presented (validUntil : ℤ) : Prop :=
  ∃ u binding, took u (.verify call binding (.ok credential)) ∧
    checkCredential limits binding u.now credential = .ok validUntil

/-- The call has fetched a document by which the issuer controls the key of the proof. -/
def Controlled : Prop :=
  ∃ u document doc, took u (.resolved call document) ∧ readDidDocument document = some doc ∧
    controls doc credential = true

/-- The signature held, and what it covers may be passed on. -/
def Signed : Prop := (∃ u, took u (.verified call true)) ∧ (normalize credential).valid = true

/-- All the evidence. -/
def Vouched (validUntil : ℤ) : Prop :=
  Presented limits took call credential validUntil ∧ Controlled took call credential ∧
    Signed took call credential

/-- The evidence for the phase that the call is in. -/
def Backed : VerifyPhase → Prop
  | .resolving c validUntil | .refreshing c validUntil | .rotating c validUntil =>
      Presented limits took call c validUntil
  | .verifying c validUntil _ => Presented limits took call c validUntil ∧ Controlled took call c
  | .consuming c validUntil | .consumed c validUntil _ => Vouched limits took call c validUntil
  | .accepted identity => ∃ c validUntil, Vouched limits took call c validUntil ∧
      identity = normalize c
  | _ => True

end Evidence

theorem backed_step {took : VerifierState → VerifierAction → Prop} {a : VerifierAction}
    (h : ∀ n, Backed limits took n (s.calls n))
    (hstep : ((verifierSystem limits sha256).restrict took).step s a t) (n : ℕ) :
    Backed limits took n (t.calls n) := by
  obtain ⟨htook, -, rfl⟩ := hstep
  have hset {call : ℕ} {phase : VerifyPhase} (hphase : Backed limits took call phase) (n : ℕ) :
      Backed limits took n (Function.update s.calls call phase n) := by
    by_cases hn : n = call
    · subst hn
      rwa [Function.update_self]
    · rw [Function.update_of_ne hn]
      exact h n
  have htake {call : ℕ} {c : PlatformIdentityCredential} {validUntil : ℤ} (refreshed : Bool)
      {document : Option Json} {doc : ResolvedDidDocument} (hnow : took s (.resolved call document))
      (hdoc : readDidDocument document = some doc)
      (hpresented : Presented limits took call c validUntil) (n : ℕ) :
      Backed limits took n ((s.takeDocument call c validUntil refreshed doc).calls n) := by
    unfold VerifierState.takeDocument
    split
    · rename_i hcontrols
      exact hset (by exact ⟨hpresented, s, document, doc, hnow, hdoc, hcontrols⟩) n
    · exact hset (by trivial) n
  cases a with
  | verify call binding parsed =>
      simp only [apply, VerifierState.verify]
      repeat' split
      · exact hset (by trivial) n
      · exact hset (by trivial) n
      · exact hset (by exact ⟨s, binding, htook, by assumption⟩) n
  | resolved call document =>
      have hcall := h call
      simp only [apply, VerifierState.resolved]
      repeat' split
      all_goals first
        | exact h n
        | exact hset (by trivial) n
        | rw [‹s.calls call = _›] at hcall
          first
            | exact hset (by exact hcall) n
            | exact htake _ htook ‹_› hcall n
  | verified call valid =>
      have hcall := h call
      simp only [apply, VerifierState.verified, afterSignature]
      repeat' split
      all_goals first
        | exact h n
        | exact hset (by trivial) n
        | rw [‹s.calls call = _›] at hcall
          first
            | exact hset (by exact hcall.1) n
            | obtain rfl : valid = true := ‹_›
              exact hset (by exact ⟨hcall.1, hcall.2, ⟨s, htook⟩, not_not.mp ‹_›⟩) n
  | consume call | consumeFails call _ | finish call =>
      have hcall := h call
      simp only [apply, VerifierState.consume, VerifierState.consumeFails, VerifierState.finish,
        insertReplay]
      repeat' split
      all_goals first
        | exact h n
        | exact hset (by trivial) n
        | rw [‹s.calls call = _›] at hcall
          first
            | exact hset (by exact hcall) n
            | exact hset (by exact ⟨_, _, hcall, rfl⟩) n
  | sweep | tick => exact h n

/-- A call accepts an identity only on a credential that it was itself given for a message from a
trusted issuer, with a document of the issuer and a signature that hold. -/
theorem accepted_of_run {start : VerifierState} {labels : List VerifierAction}
    (hstart : (verifierSystem limits sha256).init start)
    (h : (verifierSystem limits sha256).Run start labels s) {call : ℕ}
    {identity : CallerAttestationV2} (haccepted : s.calls call = .accepted identity) :
    ∃ credential validUntil, Vouched limits ((verifierSystem limits sha256).Took start labels) call
      credential validUntil ∧ identity = normalize credential := by
  have hbacked := h.took.invariant (I := fun s => ∀ n, Backed limits _ n (s.calls n))
    (fun _ _ _ => backed_step) (by obtain ⟨now, rfl⟩ := hstart; exact fun _ => trivial) call
  rw [haccepted] at hbacked
  exact hbacked

section Witness

private def presented : PlatformIdentityCredential where
  id := "urn:uuid:1"
  issuer := "did:web:issuer.example"
  validFrom := some 0
  validUntil := some 60000
  subject := "urn:user:1"
  method := "urn:platform"
  verificationMethod := "did:web:issuer.example#k"
  domain := "@agent@bridge.example"
  challenge := "message-1"

private def issuerDocument : Json :=
  .obj [("id", .str "did:web:issuer.example"),
    ("verificationMethod", .arr [.obj [("id", .str "did:web:issuer.example#k"),
      ("type", .str "Multikey"), ("controller", .str "did:web:issuer.example"),
      ("publicKeyMultibase", .str "z6Mk")]]),
    ("assertionMethod", .arr [.str "did:web:issuer.example#k"])]

private def forMessage : VerifyBinding where
  trustedIssuers := ["did:web:issuer.example"]
  expectedDomain := "@agent@bridge.example"
  messageId := "message-1"

/-- Two calls present the credential at once, and a sweep comes between their statements. -/
private def race : List VerifierAction :=
  [.verify 0 forMessage (.ok presented), .verify 1 forMessage (.ok presented),
    .resolved 0 (some issuerDocument), .resolved 1 (some issuerDocument), .verified 0 true,
    .verified 1 true, .consume 1, .sweep, .consume 0, .tick 1001, .finish 0, .finish 1]

/-- The digest of the one tuple. -/
private def tupleDigest (text : String) : String :=
  if text = identityReplayPreimage presented.tuple then
    "922f63dc5ca1112da22c143b3401a06031b090edbf953c0136adc2e04e8504ca"
  else text

private def raced : VerifierState := race.foldl (apply {} tupleDigest) { now := 1000 }

theorem acceptedOnce_raced : raced.acceptances.map (·.call) = [1] ∧ raced.AcceptedOnce := by
  have hreach : (verifierSystem {} tupleDigest).Reachable raced :=
    System.Legal.reachable (by decide +kernel) (.of_init ⟨1000, rfl⟩)
  exact ⟨by decide +kernel, acceptedOnce hreach⟩

/-- The second call was accepted. -/
theorem accepted_of_run_raced :
    ∃ identity credential validUntil, Vouched {} ((verifierSystem {} tupleDigest).Took
      { now := 1000 } race) 1 credential validUntil ∧ identity = normalize credential := by
  have hrun : (verifierSystem {} tupleDigest).Run { now := 1000 } race raced :=
    System.Legal.run (by decide +kernel)
  cases hphase : raced.calls 1 with
  | accepted identity => exact ⟨identity, accepted_of_run ⟨1000, rfl⟩ hrun hphase⟩
  | _ =>
      have haccepted : (match raced.calls 1 with | .accepted _ => true | _ => false) = true := by
        decide +kernel
      simp [hphase] at haccepted

end Witness

end VerifierState

end VicoopBridge
