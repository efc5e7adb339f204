import VicoopBridge.Model.DeviceFlow

/-! # Whose a credential is

What is issued for a device code belongs to a user who signed in for that very code. -/

namespace VicoopBridge

open Library

def DeviceCredential.BelongsTo (principalId : String) (email : Option String) :
    DeviceCredential → Prop
  | .token row => row.principalId = principalId ∧ row.email = email
  | .client agent => agent.ownerPrincipal = principalId ∧ agent.ownerEmail = truthy email

theorem DeviceDb.issue_belongsTo {db db' : DeviceDb} {code : DeviceCode} {row : DeviceSession}
    {principalId : String} {expiresAt : ℕ} {credential : DeviceCredential}
    (h : db.issue code row principalId expiresAt = some (credential, db')) :
    credential.BelongsTo principalId row.email ∧ ∀ code' row',
      db'.deviceSessions.get? code' = some row' → db.deviceSessions.get? code' = some row' := by
  have herase (code' : DeviceCode) (row' : DeviceSession)
      (hrow : (db.deviceSessions.erase code).get? code' = some row') :
      db.deviceSessions.get? code' = some row' := by
    rw [InsertionMap.get?_erase] at hrow
    split at hrow
    · cases hrow
    · exact hrow
  unfold issue registerClient at h
  dsimp only at h
  repeat' split at h
  all_goals cases h
  · exact ⟨⟨rfl, rfl⟩, herase⟩
  · exact ⟨⟨rfl, rfl⟩, herase⟩
  · exact ⟨⟨rfl, rfl⟩, fun _ _ => id⟩

namespace DeviceState

section Provenance

variable (took : DeviceState → DeviceAction → Prop)

/-- A request of a browser has found the session pending. -/
def Found (r : ℕ) (code : DeviceCode) : Prop :=
  ∃ u now onsite row, took u (.select r now) ∧ u.requests r = .returned code onsite ∧
    u.db.deviceSessions.get? code = some row ∧ row.status = .pending ∧ now < row.expiresAt

/-- The user of such a request has signed in. -/
def SignedIn (code : DeviceCode) (principalId : String) (email : Option String) : Prop :=
  ∃ u r onsite row, Found took r code ∧ u.requests r = .exchanging code onsite row ∧
    took u (.exchanged r (some (principalId, email)))

def Backed (r : ℕ) : DeviceRequest → Prop
  | .exchanging code _ _ => Found took r code
  | .issuing _ code row principalId | .issuingOnsite code row principalId =>
      SignedIn took code principalId row.email
  | .approving code principalId email => SignedIn took code principalId email
  | _ => True

structure Vouched (s : DeviceState) : Prop where
  row : ∀ code row, s.db.deviceSessions.get? code = some row →
    ∀ principalId ∈ row.principalId, SignedIn took code principalId row.email
  request : ∀ r, Backed took r (s.requests r)
  issued : ∀ code credential, (code, credential) ∈ s.issued → ∃ principalId email,
    credential.BelongsTo principalId email ∧ SignedIn took code principalId email

end Provenance

namespace Vouched

variable {took : DeviceState → DeviceAction → Prop} {s : DeviceState} {r now : ℕ}
  {code : DeviceCode}

theorem setRequest (h : Vouched took s) {phase : DeviceRequest} (hphase : Backed took r phase) :
    Vouched took (s.setRequest r phase) where
  row := h.row
  request n := by
    by_cases hn : n = r
    · subst hn
      simpa [DeviceState.setRequest] using hphase
    · simpa [DeviceState.setRequest, hn] using h.request n
  issued := h.issued

theorem answer (h : Vouched took s) {response : DeviceResponse} :
    Vouched took (s.answer r response) :=
  h.setRequest trivial

theorem lastPoll (h : Vouched took s) (polls : ℕ → InsertionMap DeviceCode ℕ) :
    Vouched took { s with lastPoll := polls } :=
  ⟨h.row, h.request, h.issued⟩

theorem updateSession (h : Vouched took s) {f : DeviceSession → DeviceSession}
    (hf : ∀ row, s.db.deviceSessions.get? code = some row →
      ∀ principalId ∈ (f row).principalId, SignedIn took code principalId (f row).email) :
    Vouched took { s with db := s.db.updateSession code f } := by
  refine ⟨fun code' row' hrow => ?_, h.request, h.issued⟩
  simp only [DeviceDb.updateSession] at hrow
  split at hrow
  · rename_i row hfound
    rw [InsertionMap.get?_set] at hrow
    split at hrow
    · rename_i hcode
      cases hrow
      exact hcode ▸ hf row hfound
    · exact h.row code' row' hrow
  · exact h.row code' row' hrow

theorem look (h : Vouched took s) (process : ℕ) : Vouched took (s.look r process code now) := by
  have hexpired : Vouched took ((s.forgetPoll process code).answer r .expiredToken) :=
    (h.lastPoll _).answer
  unfold DeviceState.look
  dsimp only
  repeat' split
  all_goals first | exact hexpired | exact h.answer | exact h.setRequest trivial | skip
  rename_i row hrow _ _ _ principalId _ hprincipal _
  refine h.setRequest (h.row code row hrow principalId ?_)
  simp only [truthy] at hprincipal
  exact (Option.filter_eq_some_iff.mp hprincipal).1

theorem lookPending (h : Vouched took s) (htook : took s (.select r now)) {onsite : Bool}
    (hphase : s.requests r = .returned code onsite) :
    Vouched took (s.lookPending r code onsite now) := by
  unfold DeviceState.lookPending
  split
  · exact h.answer
  · rename_i row hrow
    split
    · exact h.answer
    · rename_i hpending
      push Not at hpending
      exact h.setRequest ⟨s, now, onsite, row, htook, hphase, hrow, hpending⟩

theorem commit (h : Vouched took s) {row : DeviceSession} {principalId : String} {expiresAt : ℕ}
    {credential : DeviceCredential} {db : DeviceDb}
    (huser : SignedIn took code principalId row.email)
    (hissue : s.db.issue code row principalId expiresAt = some (credential, db)) :
    Vouched took (s.commit code credential db) := by
  obtain ⟨hbelongs, hkept⟩ := DeviceDb.issue_belongsTo hissue
  refine ⟨fun code' row' hrow => h.row code' row' (hkept code' row' hrow), h.request, ?_⟩
  intro code' credential' hmem
  rcases List.mem_append.mp hmem with hold | hnew
  · exact h.issued code' credential' hold
  · obtain ⟨rfl, rfl⟩ : code' = code ∧ credential' = credential := by simpa using hnew
    exact ⟨principalId, row.email, hbelongs, huser⟩

end Vouched

theorem Vouched.step {opts : DeviceFlowOptions} {took : DeviceState → DeviceAction → Prop}
    {s t : DeviceState} {a : DeviceAction} (h : Vouched took s)
    (hstep : ((deviceSystem opts).restrict took).step s a t) : Vouched took t := by
  obtain ⟨htook, -, rfl⟩ := hstep
  cases a with
  | create code userCode intent params now =>
      refine ⟨fun code' row hrow => ?_, h.request, h.issued⟩
      simp only [apply, create, InsertionMap.get?_set] at hrow
      split at hrow
      · cases hrow
        exact fun _ hnone => by cases hnone
      · exact h.row code' row hrow
  | poll r process code now =>
      simp only [apply, poll]
      split
      · exact h.answer
      · exact (h.lastPoll _).setRequest trivial
  | select r now =>
      simp only [apply, select]
      split
      · exact h.look _
      · exact h.lookPending htook ‹_›
      · exact h
  | bump r =>
      simp only [apply, bump]
      split
      · exact ((h.updateSession (f := fun row => { row with status := .expired })
          fun row => h.row _ row).lastPoll _).answer
      · exact h
  | callback r code onsite => exact h.setRequest trivial
  | exchanged r user =>
      simp only [apply, exchanged]
      split
      · exact h.answer
      · rename_i code onsite row principalId email hphase
        have hfound := h.request r
        rw [hphase] at hfound
        have huser : SignedIn took code principalId email :=
          ⟨s, r, onsite, row, hfound, hphase, htook⟩
        split <;> exact h.setRequest huser
      · exact h
  | approve r =>
      simp only [apply, approve]
      split
      · rename_i code principalId email hphase
        have huser := h.request r
        rw [hphase] at huser
        refine (h.updateSession fun row hrow => ?_).answer
        split
        · intro principalId' hprincipal
          obtain rfl : principalId = principalId' := Option.some.inj hprincipal
          exact huser
        · exact h.row code row hrow
      · exact h
  | issue r now =>
      have huser := h.request r
      simp only [apply, issue]
      split
      · rename_i hphase
        rw [hphase] at huser
        split
        · exact h.answer
        · exact (((h.commit huser ‹_›).lastPoll _).lastPoll _).answer
      · rename_i hphase
        rw [hphase] at huser
        split
        · exact h.answer
        · exact (h.commit huser ‹_›).answer
      · exact h
  | fail r => exact h.answer
  | sweep now =>
      refine ⟨fun code row hrow => h.row code row ?_, h.request, h.issued⟩
      rw [apply, sweep, InsertionMap.get?_filter] at hrow
      exact (Option.filter_eq_some_iff.mp hrow).1
  | setAgents agents => exact ⟨h.row, h.request, h.issued⟩

/-- In every run a credential belongs to a user who has signed in for its code. -/
theorem belongsTo_of_run {opts : DeviceFlowOptions} {start s : DeviceState}
    {labels : List DeviceAction} {code : DeviceCode} {credential : DeviceCredential}
    (hinit : (deviceSystem opts).init start) (h : (deviceSystem opts).Run start labels s)
    (hissued : (code, credential) ∈ s.issued) :
    ∃ principalId email, credential.BelongsTo principalId email ∧
      SignedIn ((deviceSystem opts).Took start labels) code principalId email := by
  obtain ⟨agents, callers, rfl⟩ := hinit
  have hvouched := h.took.invariant (I := Vouched _) (fun _ _ _ => Vouched.step)
    ⟨by simp, fun _ => trivial, by simp⟩
  exact hvouched.issued code credential hissued

/-- A browser approves the session of a device. -/
private def redemption : List DeviceAction :=
  [.create "code" "WDJB-MJHT" .caller none 0, .callback 0 "code" false, .select 0 1,
    .exchanged 0 (some ("google:1", none)), .approve 0, .poll 1 0 "code" 2, .select 1 3, .issue 1 4]

theorem belongsTo_of_run_redeemed :
    ∃ principalId email,
      (DeviceCredential.token ⟨"google:1", .caller, none, 7776000004⟩).BelongsTo principalId email ∧
        SignedIn ((deviceSystem {}).Took {} redemption) "code" principalId email :=
  belongsTo_of_run ⟨[], [], rfl⟩ (System.Legal.run (by decide +kernel)) (by decide +kernel)

end DeviceState

end VicoopBridge
