import VicoopBridge.Model.TokenExchange

/-! # Assertions are consumed whole and once

The retention of a replay row is counted from the time that a request took before it was
verified, and covers the window of every assertion it accepted. -/

namespace VicoopBridge

open Library

namespace ExchangeState

variable (profile : ExchangeProfile) (sha256 : String → String)

def digestOf (a : FederationAssertion) : String :=
  tokenExchangeReplayDigest sha256 profile.id a.issuer a.jti

/-- Of the requests that have consumed an identifier, one at most was issued a token. -/
def SingleIssue (s : ExchangeState) : Prop :=
  ∀ x ∈ s.transactions, ∀ y ∈ s.transactions, x.request ∈ s.issuedTo → y.request ∈ s.issuedTo →
    (∃ a ∈ x.assertions, ∃ b ∈ y.assertions,
      digestOf profile sha256 a = digestOf profile sha256 b) → x.request = y.request

/-- Tokens are issued for transactions that have consumed all the identifiers of a request,
and an identifier is consumed again only when the assertion before can no longer verify. -/
structure ConsumedWhole (s : ExchangeState) : Prop where
  once : (s.transactions.map (·.request)).Nodup
  backed : ∀ r ∈ s.issuedTo, ∃ x ∈ s.transactions, x.request = r
  refused : ∀ r position, s.requests r = .rejected (replayFailure position) →
    r ∉ s.issuedTo ∧ ∀ x ∈ s.transactions, x.request ≠ r
  rows : ∀ digest expiresAt, s.replays.get? digest = some expiresAt →
    ∃ x ∈ s.transactions, ∃ a ∈ x.assertions, digest = digestOf profile sha256 a
  apart : s.transactions.Pairwise fun x y => ∀ a ∈ x.assertions, ∀ b ∈ y.assertions,
    digestOf profile sha256 a = digestOf profile sha256 b → a.exp + profile.clockSkewMs ≤ y.time
  kept : ∀ x ∈ s.transactions, ∀ a ∈ x.assertions, s.now < a.exp + profile.clockSkewMs →
    s.replays.get? (digestOf profile sha256 a) = some x.expiresAt

end ExchangeState

/-! ## Retention -/

/-- The row of an assertion that is accepted outlives its window. -/
theorem ExchangeProfile.accepts_retained {profile : ExchangeProfile} {now : ℤ}
    {a : FederationAssertion} (h : profile.accepts now a) :
    a.exp + profile.clockSkewMs ≤ profile.replayExpiresAt now := by
  obtain ⟨hiat, -, httl⟩ := h
  unfold ExchangeProfile.replayExpiresAt
  omega

/-! ## The invariant -/

/-- The request has come past its replay transaction, or may have. -/
def ExchangePhase.past : ExchangePhase → Bool
  | .issuing .. | .issued _ => true
  | .rejected failure => failure = replayStoreFailed ∨ failure = tokenStoreFailed
  | _ => false

namespace ExchangeState

variable (profile : ExchangeProfile) (sha256 : String → String)

/-- The rows that a transaction has inserted. -/
def rowsOf (x : ReplayTransaction) : List (String × ℤ) :=
  x.assertions.map (replayRow profile sha256 x.expiresAt)

def consumedRows (s : ExchangeState) : List (String × ℤ) :=
  s.transactions.flatMap (rowsOf profile sha256)

structure Invariant (s : ExchangeState) : Prop where
  remembers : s.replays.Remembers s.now (s.consumedRows profile sha256)
  rows : ∀ digest expiresAt, s.replays.get? digest = some expiresAt →
    (digest, expiresAt) ∈ s.consumedRows profile sha256
  retained : ∀ x ∈ s.transactions, ∀ a ∈ x.assertions, a.exp + profile.clockSkewMs ≤ x.expiresAt
  apart : s.transactions.Pairwise fun x y => ∀ a ∈ x.assertions, ∀ b ∈ y.assertions,
    digestOf profile sha256 a = digestOf profile sha256 b → x.expiresAt ≤ y.time
  once : (s.transactions.map (·.request)).Nodup
  past : ∀ x ∈ s.transactions, (s.requests x.request).past = true
  issued : ∀ r ∈ s.issuedTo, (∃ x ∈ s.transactions, x.request = r) ∧
    ∀ agentId now verified, s.requests r ≠ .issuing agentId now verified
  accepted : ∀ r agentId now verified, s.requests r = .consuming agentId now verified →
    ∀ a ∈ verified.assertions, profile.accepts now a
  issuing : ∀ r agentId now verified, s.requests r = .issuing agentId now verified →
    ∃ x ∈ s.transactions, x.request = r

variable {profile : ExchangeProfile} {sha256 : String → String} {s t : ExchangeState}

theorem mem_consumedRows {x : ReplayTransaction} {a : FederationAssertion}
    (hx : x ∈ s.transactions) (ha : a ∈ x.assertions) :
    (digestOf profile sha256 a, x.expiresAt) ∈ s.consumedRows profile sha256 :=
  List.mem_flatMap.mpr ⟨x, hx, List.mem_map.mpr ⟨a, ha, rfl⟩⟩

theorem past_replayFailure (position : ℕ) :
    (ExchangePhase.rejected (replayFailure position)).past = false := by
  simp [ExchangePhase.past, replayFailure, replayStoreFailed, tokenStoreFailed]

theorem Invariant.whole (inv : s.Invariant profile sha256) :
    s.ConsumedWhole profile sha256 where
  once := inv.once
  backed r hr := (inv.issued r hr).1
  refused r position hphase := by
    have hnone : ∀ x ∈ s.transactions, x.request ≠ r := by
      rintro x hx rfl
      have hpast := inv.past x hx
      rw [hphase, past_replayFailure] at hpast
      simp at hpast
    refine ⟨fun hissued => ?_, hnone⟩
    obtain ⟨x, hx, heq⟩ := (inv.issued r hissued).1
    exact hnone x hx heq
  rows digest expiresAt h := by
    obtain ⟨x, hx, hrow⟩ := List.mem_flatMap.mp (inv.rows digest expiresAt h)
    obtain ⟨a, ha, heq⟩ := List.mem_map.mp hrow
    exact ⟨x, hx, a, ha, (Prod.mk.inj heq).1.symm⟩
  apart := inv.apart.imp_of_mem fun hx _ h a ha b hb hdigest =>
    (inv.retained _ hx a ha).trans (h a ha b hb hdigest)
  kept x hx a ha hlive := by
    refine (inv.remembers _ (mem_consumedRows hx ha)).resolve_right (not_le.mpr ?_)
    exact lt_of_lt_of_le hlive (inv.retained x hx a ha)

/-! ## Steps -/

/-- A request moves on without a statement that commits. -/
theorem Invariant.setRequest (inv : s.Invariant profile sha256) {r : ℕ} {phase : ExchangePhase}
    (hpast : (s.requests r).past = true → phase.past = true)
    (hissued : ∀ agentId now verified, phase ≠ .issuing agentId now verified)
    (haccepted : ∀ agentId now verified, phase = .consuming agentId now verified →
      ∀ a ∈ verified.assertions, profile.accepts now a) :
    (s.setRequest r phase).Invariant profile sha256 := by
  have hother : ∀ {r'}, r' ≠ r → (s.setRequest r phase).requests r' = s.requests r' :=
    fun hne => by simp [ExchangeState.setRequest, hne]
  have hself : (s.setRequest r phase).requests r = phase := by simp [ExchangeState.setRequest]
  refine ⟨inv.remembers, inv.rows, inv.retained, inv.apart, inv.once, fun x hx => ?_,
    fun r' hr' => ⟨(inv.issued r' hr').1, fun agentId now verified h => ?_⟩,
    fun r' agentId now verified h => ?_, fun r' agentId now verified h => ?_⟩
  · by_cases hr : x.request = r
    · rw [hr, hself]
      exact hpast (hr ▸ inv.past x hx)
    · rw [hother hr]
      exact inv.past x hx
  · by_cases hr : r' = r
    · exact hissued agentId now verified (by rwa [hr, hself] at h)
    · exact (inv.issued r' hr').2 agentId now verified (by rwa [hother hr] at h)
  · by_cases hr : r' = r
    · exact haccepted agentId now verified (by rwa [hr, hself] at h)
    · exact inv.accepted r' agentId now verified (by rwa [hother hr] at h)
  · by_cases hr : r' = r
    · exact absurd (by rwa [hr, hself] at h) (hissued agentId now verified)
    · exact inv.issuing r' agentId now verified (by rwa [hother hr] at h)

theorem Invariant.reject (inv : s.Invariant profile sha256) {r : ℕ}
    {failure : TokenExchangeFailure}
    (hpast : (s.requests r).past = true → (ExchangePhase.rejected failure).past = true) :
    (s.setRequest r (.rejected failure)).Invariant profile sha256 :=
  inv.setRequest hpast (by simp) (by simp)

/-- The identifiers of a request go in together: what was consumed before under one of them
has expired. -/
theorem Invariant.consumeReplays (inv : s.Invariant profile sha256) {r : ℕ} {agentId : String}
    {now : ℤ} {verified : VerifiedExchange}
    (hphase : s.requests r = .consuming agentId now verified)
    (hconsume : s.consumeReplays profile sha256 r now verified.assertions = .ok t)
    {phase : ExchangePhase} (hpast : phase.past = true)
    (hphase' : ∀ agentId' now' verified', phase ≠ .consuming agentId' now' verified') :
    (t.setRequest r phase).Invariant profile sha256 := by
  simp only [ExchangeState.consumeReplays] at hconsume
  split at hconsume
  · simp at hconsume
  rename_i replays hall
  obtain rfl := Except.ok.inj hconsume
  have hfresh : ∀ x ∈ s.transactions, x.request ≠ r := by
    rintro x hx rfl
    have hpast := inv.past x hx
    simp [hphase, ExchangePhase.past] at hpast
  have hnotIssued : r ∉ s.issuedTo := by
    intro hr
    obtain ⟨x, hx, heq⟩ := (inv.issued r hr).1
    exact hfresh x hx heq
  obtain ⟨hremembers, hexpired⟩ := inv.remembers.consumeAll hall
  refine ⟨?_, fun digest expiresAt h => ?_, fun x hx => ?_, ?_, ?_, fun x hx => ?_,
    fun r' hr' => ?_, fun r' agentId' now' verified' h => ?_,
    fun r' agentId' now' verified' h => ?_⟩
  · simpa [ExchangeState.setRequest, consumedRows, rowsOf] using hremembers
  · have hrow := (ReplayTable.get?_consumeAll hall h).imp_left (inv.rows digest expiresAt)
    simpa [ExchangeState.setRequest, consumedRows, rowsOf] using hrow
  · rcases List.mem_append.mp hx with hold | hnew
    · exact inv.retained x hold
    · obtain rfl := List.mem_singleton.mp hnew
      exact fun a ha =>
        ExchangeProfile.accepts_retained (inv.accepted r agentId now verified hphase a ha)
  · refine List.pairwise_append.mpr ⟨inv.apart, List.pairwise_singleton _ _, ?_⟩
    intro x hx y hy a ha b hb hdigest
    obtain rfl := List.mem_singleton.mp hy
    exact hexpired _ (List.mem_map.mpr ⟨b, hb, rfl⟩) _ (mem_consumedRows hx ha) hdigest
  · refine (List.map_append ..) ▸ List.nodup_append.mpr ⟨inv.once, List.nodup_singleton _, ?_⟩
    intro r₁ hr₁ r₂ hr₂ heq
    obtain ⟨x, hx, rfl⟩ := List.mem_map.mp hr₁
    exact hfresh x hx (heq.trans (by simpa using hr₂))
  · rcases List.mem_append.mp hx with hold | hnew
    · simpa [ExchangeState.setRequest, hfresh x hold] using inv.past x hold
    · obtain rfl := List.mem_singleton.mp hnew
      simpa [ExchangeState.setRequest] using hpast
  · have hne : r' ≠ r := fun heq => hnotIssued (heq ▸ hr')
    obtain ⟨⟨x, hx, heq⟩, hnever⟩ := inv.issued r' hr'
    refine ⟨⟨x, List.mem_append_left _ hx, heq⟩, fun agentId' now' verified' h => ?_⟩
    exact hnever agentId' now' verified' (by simpa [ExchangeState.setRequest, hne] using h)
  · by_cases hr : r' = r
    · subst hr
      exact absurd (by simpa [ExchangeState.setRequest] using h) (hphase' agentId' now' verified')
    · exact inv.accepted r' agentId' now' verified'
        (by simpa [ExchangeState.setRequest, hr] using h)
  · by_cases hr : r' = r
    · exact ⟨_, List.mem_append_right _ (List.mem_singleton.mpr rfl), hr.symm⟩
    · obtain ⟨x, hx, heq⟩ := inv.issuing r' agentId' now' verified'
        (by simpa [ExchangeState.setRequest, hr] using h)
      exact ⟨x, List.mem_append_left _ hx, heq⟩

/-- A token is issued to a request whose identifiers are consumed. -/
theorem Invariant.insertToken (inv : s.Invariant profile sha256) {r : ℕ} {agentId : String}
    {now : ℤ} {verified : VerifiedExchange} {token : AccessToken}
    (hphase : s.requests r = .issuing agentId now verified)
    (hinsert : s.insertToken r agentId now verified = some (token, t))
    {phase : ExchangePhase} (hpast : phase.past = true)
    (hphase' : ∀ agentId' now' verified', phase ≠ .consuming agentId' now' verified' ∧
      phase ≠ .issuing agentId' now' verified') :
    (t.setRequest r phase).Invariant profile sha256 := by
  have hdone : (s.setRequest r phase).Invariant profile sha256 :=
    inv.setRequest (fun _ => hpast) (fun _ _ _ => (hphase' _ _ _).2)
      fun _ _ _ h => absurd h (hphase' _ _ _).1
  unfold ExchangeState.insertToken at hinsert
  split at hinsert
  · obtain ⟨-, rfl⟩ := Prod.mk.inj (Option.some.inj hinsert)
    refine ⟨hdone.remembers, hdone.rows, hdone.retained, hdone.apart, hdone.once, hdone.past,
      fun r' hr' => ?_, hdone.accepted, hdone.issuing⟩
    rcases List.mem_append.mp hr' with hold | hnew
    · exact hdone.issued r' hold
    · obtain rfl := List.mem_singleton.mp hnew
      refine ⟨inv.issuing r' agentId now verified hphase, fun agentId' now' verified' h => ?_⟩
      exact (hphase' agentId' now' verified').2 (by simpa [ExchangeState.setRequest] using h)
  · simp at hinsert

theorem Invariant.verified (inv : s.Invariant profile sha256) {r : ℕ}
    {result : Except TokenExchangeFailure VerifiedExchange}
    (henabled : s.enabled profile (.verified r result)) :
    (s.verified r result).Invariant profile sha256 := by
  unfold ExchangeState.verified
  split
  · rename_i hphase
    exact inv.reject (by simp [hphase, ExchangePhase.past])
  · rename_i agentId now verified hphase
    split
    · exact inv.reject (by simp [hphase, ExchangePhase.past])
    · refine inv.setRequest (by simp [hphase, ExchangePhase.past]) (by simp) ?_
      intro agentId' now' verified' heq
      obtain ⟨-, rfl, rfl⟩ := ExchangePhase.consuming.inj heq
      simpa [enabled, hphase] using henabled
  · exact inv

theorem Invariant.consume (inv : s.Invariant profile sha256) (r : ℕ) :
    (s.consume profile sha256 r).Invariant profile sha256 := by
  unfold ExchangeState.consume
  split
  · rename_i agentId now verified hphase
    split
    · exact inv.reject (by simp [hphase, ExchangePhase.past])
    · rename_i hconsume
      exact inv.consumeReplays hphase hconsume rfl (by simp)
  · exact inv

theorem Invariant.issue (inv : s.Invariant profile sha256) (r : ℕ) :
    (s.issue r).Invariant profile sha256 := by
  unfold ExchangeState.issue
  split
  · rename_i agentId now verified hphase
    split
    · exact inv.reject fun _ => by simp [ExchangePhase.past]
    · rename_i hinsert
      exact inv.insertToken hphase hinsert rfl (by simp)
  · exact inv

theorem Invariant.fail (inv : s.Invariant profile sha256) (r : ℕ) (committed : Bool) :
    (s.fail profile sha256 r committed).Invariant profile sha256 := by
  unfold ExchangeState.fail
  split
  · rename_i hphase
    exact inv.reject (by simp [hphase, ExchangePhase.past])
  · rename_i agentId now verified hphase
    simp only
    split
    · rename_i hconsume
      exact inv.consumeReplays hphase hconsume (by simp [ExchangePhase.past]) (by simp)
    · exact inv.reject (by simp [hphase, ExchangePhase.past])
  · rename_i agentId now verified hphase
    simp only
    split
    · rename_i hinsert
      exact inv.insertToken hphase hinsert (by simp [ExchangePhase.past]) (by simp)
    · exact inv.reject fun _ => by simp [ExchangePhase.past]
  · exact inv

theorem Invariant.step {a : ExchangeAction} (inv : s.Invariant profile sha256)
    (hstep : (exchangeSystem profile sha256).step s a t) : t.Invariant profile sha256 := by
  obtain ⟨henabled, rfl⟩ := hstep
  cases a with
  | post r agentId =>
      have hidle : (s.requests r).past = false := by
        cases hphase : s.requests r <;> simp_all [enabled, ExchangePhase.past]
      exact inv.setRequest (by simp [hidle]) (by simp) (by simp)
  | target r =>
      simp only [apply, ExchangeState.target]
      split
      · rename_i agentId hphase
        have hbefore : (s.requests r).past = false := by rw [hphase]; rfl
        split
        · exact inv.reject (by simp [hbefore])
        · exact inv.setRequest (by simp [hbefore]) (by simp) (by simp)
      · exact inv
  | verified r result => exact inv.verified henabled
  | consume r => exact inv.consume r
  | issue r => exact inv.issue r
  | fail r committed => exact inv.fail r committed
  | sweep =>
      refine { inv with remembers := inv.remembers.sweep, rows := fun digest expiresAt h => ?_ }
      have hrow : (s.replays.sweep s.now).get? digest = some expiresAt := h
      rw [ReplayTable.sweep, InsertionMap.get?_filter] at hrow
      exact inv.rows digest expiresAt (Option.filter_eq_some_iff.mp hrow).1
  | tick now => exact { inv with remembers := inv.remembers.later henabled }
  | setPolicy agentId allowedCallers => exact { inv with }

section Witness

private def mentionable : ExchangeProfile where
  id := mentionableOauthProfile
  maxTtlMs := 300 * 1000
  clockSkewMs := 60 * 1000

private def assertion (jti : String) (iat : ℤ) : FederationAssertion where
  issuer := "did:web:connector.example"
  jti := jti
  iat := iat
  exp := iat + 60 * 1000

private def exchange (client subject : FederationAssertion) : VerifiedExchange where
  principalId := "U1234"
  actorId := "did:web:connector.example"
  authorizationKey := "key"
  scopes := ["a2a.invoke"]
  assertions := [client, subject]

private def preimage (jti : String) : String :=
  lengthPrefixed mentionableOauthProfile ++ lengthPrefixed "did:web:connector.example" ++
    lengthPrefixed jti

/-- The digests of the three identifiers. -/
private def jtiDigest (text : String) : String :=
  if text = preimage "client-1" then
    "5996b16adc1682777405041950772f4398562fd185d83b0798248c5e1dbb82a2"
  else if text = preimage "client-2" then
    "dd606e84aab08d841b146a44ec32b92278a1a4281fdef334cbe44b3b9ecf5c85"
  else if text = preimage "subject" then
    "d4df4b65a08132a0fc5c633e1925a7607259cee03eb4d99188eeb34d2618f5d5"
  else text

private def served (r : ℕ) (verified : VerifiedExchange) : List ExchangeAction :=
  [.post r "agent", .target r, .verified r (.ok verified), .consume r, .issue r]

private def started : ExchangeState where
  now := 1000000
  allowedCallers := fun _ => some ["key"]

/-- The subject's `jti` comes a second time while its row is there. -/
private def replayed : ExchangeState :=
  (served 0 (exchange (assertion "client-1" 1000000) (assertion "subject" 1000000)) ++
    served 1 (exchange (assertion "client-2" 1000000) (assertion "subject" 1000000))).foldl
    (apply mentionable jtiDigest) started

/-- The subject's `jti` comes again in a later assertion, after the sweep. -/
private def reused : ExchangeState :=
  (served 0 (exchange (assertion "client-1" 1000000) (assertion "subject" 1000000)) ++
    [ExchangeAction.tick 1500000, ExchangeAction.sweep] ++
    served 1 (exchange (assertion "client-2" 1500000) (assertion "subject" 1500000))).foldl
    (apply mentionable jtiDigest) started

end Witness

end ExchangeState

end VicoopBridge
