import VicoopBridge.Model.CallerToken

/-! # What a verified session token was good for

An answer is backed by a row that some moment of the run had: the moment of the call's own
query, or of the query that filled the cache. -/

namespace VicoopBridge.SessionTokens

open Library

variable {hashCallerToken : String → String} {start s s' m : SessionTokens}
  {labels : List Action}

/-- A state that the run has passed through. -/
def Moment (hashCallerToken : String → String) (start : SessionTokens) (labels : List Action)
    (s m : SessionTokens) : Prop :=
  ∃ before after, labels = before ++ after ∧ (system hashCallerToken).Run start before m ∧
    (system hashCallerToken).Run m after s

theorem Moment.now (h : (system hashCallerToken).Run start labels s) :
    Moment hashCallerToken start labels s s :=
  ⟨labels, [], (List.append_nil _).symm, h, .nil s⟩

theorem Moment.step {a : Action} (h : Moment hashCallerToken start labels s m)
    (hstep : (system hashCallerToken).step s a s') :
    Moment hashCallerToken start (labels ++ [a]) s' m := by
  obtain ⟨before, after, rfl, hbefore, hafter⟩ := h
  exact ⟨before, after ++ [a], List.append_assoc _ _ _, hbefore, hafter.snoc hstep⟩

/-- The row entitles the holder of the token: not revoked, and of the audience of its kind. -/
structure Good (hashCallerToken : String → String) (m : SessionTokens) (rawToken : String)
    (row : CallerRow) : Prop where
  found : m.row hashCallerToken rawToken = some row
  valid : row.revoked = false
  audience : (audienceFromRaw rawToken).map Audience.name = some row.audience

/-- The token is of a kind that the endpoint takes. -/
def Accepts (call : VerifyCall) : Prop :=
  ∃ audience, audienceFromRaw call.rawToken = some audience ∧
    ∀ expected ∈ call.expectedAudience, expected = audience

/-- What stands behind an accepted call: a row that was valid no longer ago than the lifetime of
the cache, and that had not expired at the time of the call. -/
def Honoured (moment : SessionTokens → Prop) (hashCallerToken : String → String)
    (call : VerifyCall) (caller : SessionCaller) : Prop :=
  Accepts call ∧ ∃ m row, moment m ∧ Good hashCallerToken m call.rawToken row ∧
    call.now < row.expiresAt ∧ call.now ≤ m.now + cacheMaxEntryTtlMs ∧ caller = row.caller

/-- What stands behind a refused one: the token as such, or what its own query has found. -/
def Refused (moment : SessionTokens → Prop) (hashCallerToken : String → String)
    (call : VerifyCall) : Prop :=
  ¬ Accepts call ∨ ∃ m, moment m ∧ call.now ≤ m.now ∧
    ¬ ∃ row, Good hashCallerToken m call.rawToken row ∧ call.now < row.expiresAt

theorem mismatches_eq_none {expectedAudience : Option Audience} {audience : Audience} :
    mismatches expectedAudience audience = none ↔
      ∀ expected ∈ expectedAudience, expected = audience := by
  cases expectedAudience with
  | none => simp [mismatches]
  | some expected => simp [mismatches, Option.filter]

/-- Where a call may stand, given the moments there have been. -/
def CallSound (moment : SessionTokens → Prop) (hashCallerToken : String → String)
    (call : VerifyCall) : Prop :=
  match call.stage with
  | .querying audience => Accepts call ∧ audienceFromRaw call.rawToken = some audience
  | .stamping audience row =>
      Accepts call ∧ audienceFromRaw call.rawToken = some audience ∧
        call.now < row.expiresAt ∧
        ∃ m, moment m ∧ call.now ≤ m.now ∧ Good hashCallerToken m call.rawToken row
  | .done (.ok caller) => Honoured moment hashCallerToken call caller
  | .done (.error _) => Refused moment hashCallerToken call
  | .done .queryFailed => True

/-- What backs an entry of the cache. -/
def EntrySound (moment : SessionTokens → Prop) (hashCallerToken : String → String)
    (rawToken : String) (entry : VerifyCacheEntry) : Prop :=
  audienceFromRaw rawToken = some entry.audience ∧
    ∃ m row, moment m ∧ Good hashCallerToken m rawToken row ∧ entry.caller = row.caller ∧
      entry.expiresAt ≤ row.expiresAt ∧ entry.expiresAt ≤ m.now + cacheMaxEntryTtlMs

structure Sound (moment : SessionTokens → Prop) (hashCallerToken : String → String)
    (s : SessionTokens) : Prop where
  cache : ∀ rawToken entry, s.verifyCache.get? rawToken = some entry →
    EntrySound moment hashCallerToken rawToken entry
  calls : ∀ call ∈ s.calls, CallSound moment hashCallerToken call ∧ call.now ≤ s.now

section Kept

variable {moment moment' : SessionTokens → Prop}

theorem CallSound.mono (hmono : ∀ m, moment m → moment' m) {call : VerifyCall}
    (h : CallSound moment hashCallerToken call) : CallSound moment' hashCallerToken call := by
  unfold CallSound at h ⊢
  cases hstage : call.stage with
  | querying audience => simpa only [hstage] using h
  | stamping audience row =>
      simp only [hstage] at h ⊢
      obtain ⟨haccepts, haudience, hexpires, m, hm, hnow, hgood⟩ := h
      exact ⟨haccepts, haudience, hexpires, m, hmono m hm, hnow, hgood⟩
  | done result =>
      cases result with
      | ok caller =>
          simp only [hstage] at h ⊢
          obtain ⟨haccepts, m, row, hm, hrest⟩ := h
          exact ⟨haccepts, m, row, hmono m hm, hrest⟩
      | error message =>
          simp only [hstage] at h ⊢
          rcases h with hnot | ⟨m, hm, hrest⟩
          · exact .inl hnot
          · exact .inr ⟨m, hmono m hm, hrest⟩
      | queryFailed => trivial

theorem Sound.mono (hmono : ∀ m, moment m → moment' m) (h : Sound moment hashCallerToken s) :
    Sound moment' hashCallerToken s where
  cache rawToken entry hentry := by
    obtain ⟨haudience, m, row, hm, hrest⟩ := h.cache rawToken entry hentry
    exact ⟨haudience, m, row, hmono m hm, hrest⟩
  calls call hcall := ⟨(h.calls call hcall).1.mono hmono, (h.calls call hcall).2⟩

/-- A step that touches neither the cache nor the calls. -/
theorem Sound.of_eq (h : Sound moment hashCallerToken s) (hcache : s'.verifyCache = s.verifyCache)
    (hcalls : s'.calls = s.calls) (hnow : s.now ≤ s'.now) : Sound moment hashCallerToken s' where
  cache := by rw [hcache]; exact h.cache
  calls call hcall := by
    rw [hcalls] at hcall
    exact ⟨(h.calls call hcall).1, (h.calls call hcall).2.trans hnow⟩

theorem Sound.addCall (h : Sound moment hashCallerToken s) (rawToken : String)
    (expectedAudience : Option Audience) (stage : VerifyStage)
    (hstage : CallSound moment hashCallerToken ⟨rawToken, expectedAudience, s.now, stage⟩) :
    Sound moment hashCallerToken (s.addCall rawToken expectedAudience stage) where
  cache := h.cache
  calls call hcall := by
    rcases List.mem_append.mp hcall with hmem | hmem
    · exact h.calls call hmem
    · obtain rfl := List.mem_singleton.mp hmem
      exact ⟨hstage, le_rfl⟩

theorem Sound.evictExpired (h : Sound moment hashCallerToken s) :
    Sound moment hashCallerToken s.evictExpired := by
  unfold SessionTokens.evictExpired
  split
  · exact h
  · refine ⟨fun rawToken entry hentry => ?_, h.calls⟩
    have hfiltered := InsertionMap.get?_of_get?_trimOldest hentry
    rw [InsertionMap.get?_filter] at hfiltered
    exact h.cache rawToken entry (Option.eq_some_of_filter_eq_some hfiltered)

theorem Sound.setStage (h : Sound moment hashCallerToken s) {n : ℕ} {call : VerifyCall}
    (hcall : s.calls[n]? = some call) (stage : VerifyStage)
    (hstage : CallSound moment hashCallerToken { call with stage }) :
    Sound moment hashCallerToken (s.setStage n stage) where
  cache := h.cache
  calls other hother := by
    obtain ⟨i, hi⟩ := List.mem_iff_getElem?.mp hother
    rw [SessionTokens.setStage, List.getElem?_modify] at hi
    by_cases heq : n = i
    · subst heq
      obtain rfl : { call with stage } = other := by simpa [hcall] using hi
      exact ⟨hstage, (h.calls call (List.mem_of_getElem? hcall)).2⟩
    · refine h.calls other (List.mem_of_getElem? (i := i) ?_)
      simpa [heq] using hi

/-! ## The steps of a call -/

theorem accepts_of_mismatches {call : VerifyCall} {audience : Audience}
    (haudience : audienceFromRaw call.rawToken = some audience)
    (hexpected : mismatches call.expectedAudience audience = none) : Accepts call :=
  ⟨audience, haudience, mismatches_eq_none.mp hexpected⟩

theorem not_accepts_of_mismatches {call : VerifyCall} {audience expected : Audience}
    (haudience : audienceFromRaw call.rawToken = some audience)
    (hexpected : mismatches call.expectedAudience audience = some expected) : ¬ Accepts call := by
  rintro ⟨other, hother, hall⟩
  obtain rfl : audience = other := Option.some.inj (haudience.symm.trans hother)
  rw [mismatches_eq_none.mpr hall] at hexpected
  exact absurd hexpected (by simp)

theorem Sound.verifySessionToken (h : Sound moment hashCallerToken s) (rawToken : String)
    (expectedAudience : Option Audience) :
    Sound moment hashCallerToken (s.verifySessionToken rawToken expectedAudience) := by
  unfold SessionTokens.verifySessionToken
  cases haudience : audienceFromRaw rawToken with
  | none =>
      refine h.addCall _ _ _ (.inl ?_)
      rintro ⟨audience, hsome, -⟩
      simp [haudience] at hsome
  | some audience =>
      dsimp only
      cases hexpected : mismatches expectedAudience audience with
      | some expected =>
          exact h.addCall _ _ _ (.inl (not_accepts_of_mismatches haudience hexpected))
      | none =>
          have hevicted := h.evictExpired
          have hquerying : Sound moment hashCallerToken
              (s.evictExpired.addCall rawToken expectedAudience (.querying audience)) :=
            hevicted.addCall _ _ _ ⟨accepts_of_mismatches haudience hexpected, haudience⟩
          dsimp only
          cases hcached : s.evictExpired.verifyCache.get? rawToken with
          | none => exact hquerying
          | some cached =>
              dsimp only
              split
              · rename_i hfresh
                obtain ⟨hof, m, row, hm, hgood, hcaller, hrow, hmoment⟩ :=
                  hevicted.cache rawToken cached hcached
                obtain rfl : audience = cached.audience :=
                  Option.some.inj (haudience.symm.trans hof)
                rw [hexpected]
                refine hevicted.addCall _ _ _ ⟨accepts_of_mismatches haudience hexpected,
                  m, row, hm, hgood, ?_, ?_, hcaller⟩
                · exact hfresh.trans_le hrow
                · exact hfresh.le.trans hmoment
              · exact hquerying

theorem Sound.query (h : Sound moment hashCallerToken s) (hnow : moment s) (n : ℕ) :
    Sound moment hashCallerToken (s.query hashCallerToken n) := by
  unfold SessionTokens.query
  cases hcall : s.calls[n]? with
  | none => exact h
  | some call =>
      dsimp only
      cases hstage : call.stage with
      | stamping audience row => exact h
      | done result => exact h
      | querying audience =>
          obtain ⟨hsound, hle⟩ := h.calls call (List.mem_of_getElem? hcall)
          simp only [CallSound, hstage] at hsound
          obtain ⟨haccepts, haudience⟩ := hsound
          have hrefused (message : String)
              (hnot : ¬ ∃ row, Good hashCallerToken s call.rawToken row ∧
                call.now < row.expiresAt) :
              Sound moment hashCallerToken (s.setStage n (.done (.error message))) :=
            h.setStage hcall _ (.inr ⟨s, hnow, hle, hnot⟩)
          unfold checkRow
          cases hrow : s.row hashCallerToken call.rawToken with
          | none =>
              refine hrefused _ ?_
              rintro ⟨row, hgood, -⟩
              simp [hgood.found] at hrow
          | some row =>
              have honly : ∀ other, Good hashCallerToken s call.rawToken other → other = row :=
                fun other hgood => Option.some.inj (hgood.found.symm.trans hrow)
              dsimp only
              split
              · rename_i hrevoked
                refine hrefused _ ?_
                rintro ⟨other, hgood, -⟩
                have hvalid := hgood.valid
                rw [honly other hgood, hrevoked] at hvalid
                exact absurd hvalid.symm Bool.false_ne_true
              · rename_i hrevoked
                split
                · rename_i hexpired
                  refine hrefused _ ?_
                  rintro ⟨other, hgood, hexpires⟩
                  rw [honly other hgood] at hexpires
                  exact Nat.not_lt.mpr hexpired hexpires
                · rename_i hexpired
                  split
                  · rename_i hcorrupt
                    refine hrefused _ ?_
                    rintro ⟨other, hgood, -⟩
                    have hname := hgood.audience
                    rw [honly other hgood, haudience] at hname
                    exact hcorrupt (Option.some.inj hname).symm
                  · rename_i hcorrupt
                    obtain ⟨other, hother, hall⟩ := haccepts
                    obtain rfl : audience = other := Option.some.inj (haudience.symm.trans hother)
                    rw [mismatches_eq_none.mpr hall]
                    refine h.setStage hcall _ ⟨⟨audience, haudience, hall⟩, haudience,
                      Nat.lt_of_not_le hexpired, s, hnow, hle, hrow, by simpa using hrevoked, ?_⟩
                    rw [haudience, Option.map_some]
                    exact congrArg some (not_not.mp hcorrupt).symm

theorem Sound.stamped (h : Sound moment hashCallerToken s) (n : ℕ) :
    Sound moment hashCallerToken (s.stamped n) := by
  unfold SessionTokens.stamped
  cases hcall : s.calls[n]? with
  | none => exact h
  | some call =>
      dsimp only
      cases hstage : call.stage with
      | querying audience => exact h
      | done result => exact h
      | stamping audience row =>
          have hsound := (h.calls call (List.mem_of_getElem? hcall)).1
          simp only [CallSound, hstage] at hsound
          obtain ⟨haccepts, haudience, hexpires, m, hm, hle, hgood⟩ := hsound
          have hdone := h.setStage hcall (.done (.ok row.caller))
            ⟨haccepts, m, row, hm, hgood, hexpires, hle.trans (Nat.le_add_right _ _), rfl⟩
          refine ⟨fun rawToken entry hentry => ?_, hdone.calls⟩
          rw [InsertionMap.get?_set] at hentry
          split at hentry
          · rename_i heq
            subst heq
            obtain rfl := Option.some.inj hentry
            refine ⟨haudience, m, row, hm, hgood, rfl, min_le_left _ _, (min_le_right _ _).trans ?_⟩
            exact Nat.add_le_add_right hle _
          · exact h.cache rawToken entry hentry

end Kept

/-! ## Runs -/

theorem Sound.step {a : Action} (hrun : (system hashCallerToken).Run start labels s)
    (h : Sound (Moment hashCallerToken start labels s) hashCallerToken s)
    (hstep : (system hashCallerToken).step s a s') :
    Sound (Moment hashCallerToken start (labels ++ [a]) s') hashCallerToken s' := by
  have hmono : ∀ m, Moment hashCallerToken start labels s m →
      Moment hashCallerToken start (labels ++ [a]) s' m := fun m hm => hm.step hstep
  refine Sound.mono hmono ?_
  have hnow := Moment.now hrun
  obtain ⟨henabled, rfl⟩ := hstep
  cases a with
  | tick ms => exact h.of_eq rfl rfl (Nat.le_add_right _ _)
  | issue row => exact h.of_eq rfl rfl le_rfl
  | revoke condition => exact h.of_eq rfl rfl le_rfl
  | verify rawToken expectedAudience => exact h.verifySessionToken rawToken expectedAudience
  | query n => exact h.query hnow n
  | stamped n => exact h.stamped n
  | queryFails n =>
      cases hcall : s.calls[n]? with
      | none => simp [Enabled, isQuerying, hcall] at henabled
      | some call => exact h.setStage hcall _ trivial

theorem sound_of_run (hinit : Initial start) (h : (system hashCallerToken).Run start labels s) :
    Sound (Moment hashCallerToken start labels s) hashCallerToken s := by
  induction h with
  | nil =>
      obtain ⟨hcache, hcalls, -⟩ := hinit
      refine ⟨fun rawToken entry hentry => ?_, fun call hcall => ?_⟩
      · simp [hcache] at hentry
      · simp [hcalls] at hcall
  | snoc hrun hstep ih => exact ih.step hrun hstep

/-- However calls, revocations and evictions follow each other while the clock goes on: a token
that is accepted had not expired at the time of the call, and had not been revoked at some
moment within the lifetime of the cache; one that is refused was no good to the call's own
query, or is not for the endpoint. -/
theorem verified_of_run (hinit : Initial start)
    (h : (system hashCallerToken).Run start labels s) :
    ∀ call ∈ s.calls,
      (∀ caller, call.stage = .done (.ok caller) →
        Honoured (Moment hashCallerToken start labels s) hashCallerToken call caller) ∧
      ∀ message, call.stage = .done (.error message) →
        Refused (Moment hashCallerToken start labels s) hashCallerToken call := by
  intro call hcall
  have hsound := ((sound_of_run hinit h).calls call hcall).1
  refine ⟨fun caller hstage => ?_, fun message hstage => ?_⟩
  · simpa only [CallSound, hstage] using hsound
  · simpa only [CallSound, hstage] using hsound

/-- A token that is revoked while the cache has it: the second call still succeeds, the third,
after the lifetime of the entry, does not. -/
theorem verified_of_run_example :
    ∃ labels s, (system id).Run {} labels s ∧
      s.calls.map (·.stage) = [.done (.ok ⟨"google:7", none, none⟩),
        .done (.ok ⟨"google:7", none, none⟩), .done (.error "Session token revoked")] ∧
      ∀ call ∈ s.calls,
        (∀ caller, call.stage = .done (.ok caller) →
          Honoured (Moment id {} labels s) id call caller) ∧
        ∀ message, call.stage = .done (.error message) →
          Refused (Moment id {} labels s) id call := by
  have hrun : (system id).Run {}
      [.issue ⟨"1", "vbc_caller_x", "google:7", "caller", none, 200000, false⟩,
        .verify "vbc_caller_x" (some .caller), .query 0, .stamped 0, .revoke fun _ => true,
        .tick 30000, .verify "vbc_caller_x" none, .tick 30000, .verify "vbc_caller_x" none,
        .query 2] _ :=
    System.Legal.run ⟨by simp [Enabled], trivial, trivial, trivial, trivial, trivial, trivial,
      trivial, trivial, trivial, trivial⟩
  exact ⟨_, _, hrun, by decide +kernel, verified_of_run ⟨rfl, rfl, le_rfl⟩ hrun⟩

end VicoopBridge.SessionTokens
