import VicoopBridge.Model.DeviceFlow

/-! # Single use of a device code

A request reads a session and redeems it in a later transaction, which takes no notice of
whether the row is still there. -/

namespace VicoopBridge

open Library

namespace DeviceState

/-- The credentials issued for a session. -/
def issuedFor (s : DeviceState) (code : DeviceCode) : List DeviceCredential :=
  (s.issued.filter fun p => p.1 = code).map Prod.snd

def SingleUse (s : DeviceState) : Prop := ∀ code, (s.issuedFor code).length ≤ 1

/-- The row of the session is there, or a request has a copy of it. -/
def Open (s : DeviceState) (code : DeviceCode) : Prop :=
  (∃ row, s.db.deviceSessions.get? code = some row) ∨
    ∃ r row, (s.requests r).snapshot = some (code, row)

/-- A token is issued only while the row that the request has read is in the table, and an
agent that was registered through a session keeps its row while the session is open. -/
def Undisturbed (s : DeviceState) : DeviceAction → Prop
  | .issue r _ => ∀ code row, (s.requests r).snapshot = some (code, row) →
      row.intent ≠ .clientRegister → ∃ stored, s.db.deviceSessions.get? code = some stored
  | .setAgents agents => ∀ code agent, (code, .client agent) ∈ s.issued → s.Open code →
      ∃ row ∈ agents, row.id = agent.id
  | _ => True

/-! ## The invariant -/

/-- A row or a copy of a session has the intent that the session was created with. -/
def CreatedAs (s : DeviceState) (code : DeviceCode) (row : DeviceSession) : Prop :=
  ∃ origin, s.minted.get? code = some origin ∧ row.intent = origin.intent ∧
    row.intentParams = origin.intentParams

/-- What keeps a session from being redeemed a second time: a token was issued for it and the
row is gone, or an agent was registered and the id is taken. -/
def Spent (s : DeviceState) (code : DeviceCode) : DeviceCredential → Prop
  | .token _ => s.db.deviceSessions.get? code = none ∧
      ∃ origin, s.minted.get? code = some origin ∧ origin.intent ≠ .clientRegister
  | .client agent => (s.Open code → ∃ row ∈ s.db.agents, row.id = agent.id) ∧
      ∃ origin params, s.minted.get? code = some origin ∧ origin.intent = .clientRegister ∧
        origin.intentParams = some params ∧ params.allowedAgentIds = [agent.id]

structure Invariant (s : DeviceState) : Prop where
  row : ∀ code row, s.db.deviceSessions.get? code = some row → s.CreatedAs code row
  copy : ∀ r code row, (s.requests r).snapshot = some (code, row) → s.CreatedAs code row
  spent : ∀ code credential, (code, credential) ∈ s.issued → s.Spent code credential
  once : s.SingleUse

/-- A step that neither creates nor redeems a session. -/
structure Quiet (s t : DeviceState) : Prop where
  minted : t.minted = s.minted
  issued : t.issued = s.issued
  row : ∀ code row, t.db.deviceSessions.get? code = some row → ∃ old,
    s.db.deviceSessions.get? code = some old ∧ row.intent = old.intent ∧
      row.intentParams = old.intentParams
  copy : ∀ r code row, (t.requests r).snapshot = some (code, row) → ∃ old,
    (s.db.deviceSessions.get? code = some old ∨
      ∃ r', (s.requests r').snapshot = some (code, old)) ∧
      row.intent = old.intent ∧ row.intentParams = old.intentParams
  agents : ∀ code agent, (code, .client agent) ∈ s.issued → t.Open code →
    (∃ row ∈ s.db.agents, row.id = agent.id) → ∃ row ∈ t.db.agents, row.id = agent.id

variable {s t u : DeviceState}

theorem Quiet.refl (s : DeviceState) : s.Quiet s :=
  ⟨rfl, rfl, fun _ row h => ⟨row, h, rfl, rfl⟩,
    fun r _ row h => ⟨row, .inr ⟨r, h⟩, rfl, rfl⟩, fun _ _ _ _ h => h⟩

theorem Quiet.open_of (h : s.Quiet t) {code : DeviceCode} (hopen : t.Open code) : s.Open code := by
  rcases hopen with ⟨row, hrow⟩ | ⟨r, row, hcopy⟩
  · obtain ⟨old, hold, -⟩ := h.row code row hrow
    exact .inl ⟨old, hold⟩
  · obtain ⟨old, hold | ⟨r', hold⟩, -⟩ := h.copy r code row hcopy
    · exact .inl ⟨old, hold⟩
    · exact .inr ⟨r', old, hold⟩

theorem Quiet.invariant (h : s.Quiet t) (inv : s.Invariant) : t.Invariant := by
  have hcreated : ∀ {code row old}, s.CreatedAs code old → row.intent = old.intent →
      row.intentParams = old.intentParams → t.CreatedAs code row := by
    rintro code row old ⟨origin, horigin, hintent, hparams⟩ hi hp
    exact ⟨origin, h.minted ▸ horigin, hi.trans hintent, hp.trans hparams⟩
  refine ⟨fun code row hrow => ?_, fun r code row hcopy => ?_, fun code credential hmem => ?_, ?_⟩
  · obtain ⟨old, hold, hi, hp⟩ := h.row code row hrow
    exact hcreated (inv.row code old hold) hi hp
  · obtain ⟨old, hold | ⟨r', hold⟩, hi, hp⟩ := h.copy r code row hcopy
    · exact hcreated (inv.row code old hold) hi hp
    · exact hcreated (inv.copy r' code old hold) hi hp
  · rw [h.issued] at hmem
    have hspent := inv.spent code credential hmem
    cases credential with
    | token token =>
        obtain ⟨hgone, origin, horigin, hintent⟩ := hspent
        refine ⟨?_, origin, h.minted ▸ horigin, hintent⟩
        by_contra hrow
        obtain ⟨row, hrow⟩ := Option.ne_none_iff_exists'.mp hrow
        obtain ⟨old, hold, -⟩ := h.row code row hrow
        simp [hgone] at hold
    | client agent =>
        obtain ⟨htaken, origin, params, horigin, hrest⟩ := hspent
        refine ⟨fun hopen => ?_, origin, params, h.minted ▸ horigin, hrest⟩
        exact h.agents code agent hmem hopen (htaken (h.open_of hopen))
  · intro code
    simpa [issuedFor, h.issued] using inv.once code

/-! ## Steps -/

/-- A request moves on, with no copy or with one it has or has just read. -/
theorem Quiet.setRequest (r : ℕ) {phase : DeviceRequest}
    (hcopy : ∀ code row, phase.snapshot = some (code, row) → ∃ old,
      (s.db.deviceSessions.get? code = some old ∨
        ∃ r', (s.requests r').snapshot = some (code, old)) ∧
      row.intent = old.intent ∧ row.intentParams = old.intentParams) :
    s.Quiet (s.setRequest r phase) := by
  refine ⟨rfl, rfl, fun _ row h => ⟨row, h, rfl, rfl⟩, fun r' code row h => ?_, fun _ _ _ _ h => h⟩
  by_cases hr : r' = r
  · subst hr
    exact hcopy code row (by simpa [DeviceState.setRequest] using h)
  · exact ⟨row, .inr ⟨r', by simpa [DeviceState.setRequest, hr] using h⟩, rfl, rfl⟩

theorem Quiet.answer (s : DeviceState) (r : ℕ) (response : DeviceResponse) :
    s.Quiet (s.answer r response) :=
  .setRequest r fun _ _ h => by simp [DeviceRequest.snapshot] at h

theorem Quiet.trans (h : s.Quiet t) (h' : t.Quiet u) : s.Quiet u := by
  refine ⟨h'.minted.trans h.minted, h'.issued.trans h.issued, fun code row hrow => ?_,
    fun r code row hcopy => ?_, fun code agent hmem hopen htaken => ?_⟩
  · obtain ⟨mid, hmid, hi, hp⟩ := h'.row code row hrow
    obtain ⟨old, hold, hi', hp'⟩ := h.row code mid hmid
    exact ⟨old, hold, hi.trans hi', hp.trans hp'⟩
  · obtain ⟨mid, hmid | ⟨r', hmid⟩, hi, hp⟩ := h'.copy r code row hcopy
    · obtain ⟨old, hold, hi', hp'⟩ := h.row code mid hmid
      exact ⟨old, .inl hold, hi.trans hi', hp.trans hp'⟩
    · obtain ⟨old, hold, hi', hp'⟩ := h.copy r' code mid hmid
      exact ⟨old, hold, hi.trans hi', hp.trans hp'⟩
  · have hmid := h.agents code agent hmem (h'.open_of hopen) htaken
    exact h'.agents code agent (h.issued ▸ hmem) hopen hmid

theorem Quiet.lastPoll (s : DeviceState) (polls : ℕ → InsertionMap DeviceCode ℕ) :
    s.Quiet { s with lastPoll := polls } :=
  ⟨rfl, rfl, fun _ row h => ⟨row, h, rfl, rfl⟩,
    fun r _ row h => ⟨row, .inr ⟨r, h⟩, rfl, rfl⟩, fun _ _ _ _ h => h⟩

/-- The rows that stay keep their intent, and no agent changes. -/
theorem Quiet.sessions {sessions : InsertionMap DeviceCode DeviceSession}
    (hrow : ∀ code row, sessions.get? code = some row → ∃ old,
      s.db.deviceSessions.get? code = some old ∧ row.intent = old.intent ∧
        row.intentParams = old.intentParams) :
    s.Quiet { s with db := { s.db with deviceSessions := sessions } } :=
  ⟨rfl, rfl, hrow, fun r _ row h => ⟨row, .inr ⟨r, h⟩, rfl, rfl⟩, fun _ _ _ _ h => h⟩

theorem Quiet.updateSession (s : DeviceState) (code : DeviceCode)
    {f : DeviceSession → DeviceSession}
    (hf : ∀ row, (f row).intent = row.intent ∧ (f row).intentParams = row.intentParams) :
    s.Quiet { s with db := s.db.updateSession code f } := by
  unfold DeviceDb.updateSession
  cases hstored : s.db.deviceSessions.get? code with
  | none => exact .refl s
  | some stored =>
      refine .sessions fun code' row hrow => ?_
      by_cases hcode : code = code'
      · subst hcode
        obtain rfl : f stored = row := by simpa using hrow
        exact ⟨stored, hstored, hf stored⟩
      · rw [InsertionMap.get?_set_of_ne _ _ hcode] at hrow
        exact ⟨row, hrow, rfl, rfl⟩

theorem Quiet.look (s : DeviceState) (r process : ℕ) (code : DeviceCode) (now : ℕ) :
    s.Quiet (s.look r process code now) := by
  have hexpired : s.Quiet ((s.forgetPoll process code).answer r .expiredToken) :=
    (Quiet.lastPoll s _).trans (.answer _ r _)
  unfold DeviceState.look
  split
  · exact hexpired
  · rename_i row hrow
    repeat' split
    · exact .setRequest r fun _ _ h => by simp [DeviceRequest.snapshot] at h
    · exact .answer s r _
    · exact hexpired
    · exact hexpired
    · exact hexpired
    · refine .setRequest r fun code' row' h => ?_
      obtain ⟨rfl, rfl⟩ : code = code' ∧ row = row' := by simpa [DeviceRequest.snapshot] using h
      exact ⟨row, .inl hrow, rfl, rfl⟩

theorem Quiet.lookPending (s : DeviceState) (r : ℕ) (code : DeviceCode) (onsite : Bool)
    (now : ℕ) : s.Quiet (s.lookPending r code onsite now) := by
  unfold DeviceState.lookPending
  split
  · exact .answer s r _
  · rename_i row hrow
    split
    · exact .answer s r _
    · refine .setRequest r fun code' row' h => ?_
      obtain ⟨rfl, rfl⟩ : code = code' ∧ row = row' := by simpa [DeviceRequest.snapshot] using h
      exact ⟨row, .inl hrow, rfl, rfl⟩

theorem Quiet.exchanged (s : DeviceState) (r : ℕ) (user : Option (String × Option String)) :
    s.Quiet (s.exchanged r user) := by
  unfold DeviceState.exchanged
  split
  · exact .answer s r _
  · rename_i code onsite row principalId email hphase
    split
    · refine .setRequest r fun code' row' h => ?_
      obtain ⟨rfl, rfl⟩ : code = code' ∧ { row with email := email } = row' := by
        simpa [DeviceRequest.snapshot] using h
      exact ⟨row, .inr ⟨r, by rw [hphase]; rfl⟩, rfl, rfl⟩
    · exact .setRequest r fun _ _ h => by simp [DeviceRequest.snapshot] at h
  · exact .refl s

theorem Quiet.approve (s : DeviceState) (r : ℕ) : s.Quiet (s.approve r) := by
  unfold DeviceState.approve
  split
  · refine (Quiet.updateSession s _ fun row => ?_).trans (.answer _ r _)
    split <;> exact ⟨rfl, rfl⟩
  · exact .refl s

theorem Quiet.bump (s : DeviceState) (r : ℕ) : s.Quiet (s.bump r) := by
  unfold DeviceState.bump
  split
  · rename_i process code hphase
    have hupdate := Quiet.updateSession s code (f := fun row => { row with status := .expired })
      fun row => ⟨rfl, rfl⟩
    exact (hupdate.trans (.lastPoll _ _)).trans (.answer _ r _)
  · exact .refl s

theorem Quiet.poll (opts : DeviceFlowOptions) (s : DeviceState) (r process : ℕ)
    (code : DeviceCode) (now : ℕ) : s.Quiet (s.poll opts r process code now) := by
  unfold DeviceState.poll
  split
  · exact .answer s r _
  · exact (Quiet.lastPoll s _).trans
      (.setRequest r fun _ _ h => by simp [DeviceRequest.snapshot] at h)

/-! ## Redeeming -/

/-- A transaction that commits has issued a token and deleted the row, or has registered an
agent whose id was free. -/
theorem issue_cases {db db' : DeviceDb} {code : DeviceCode} {row : DeviceSession}
    {principalId : String} {expiresAt : ℕ} {credential : DeviceCredential}
    (h : db.issue code row principalId expiresAt = some (credential, db')) :
    (∃ token, row.intent ≠ .clientRegister ∧ credential = .token token ∧ db' = { db with
      callers := db.callers ++ [token], deviceSessions := db.deviceSessions.erase code }) ∨
    ∃ params agent, row.intent = .clientRegister ∧ row.intentParams = some params ∧
      params.allowedAgentIds = [agent.id] ∧ (∀ a ∈ db.agents, a.id ≠ agent.id) ∧
      credential = .client agent ∧ db' = { db with agents := db.agents ++ [agent] } := by
  unfold DeviceDb.issue at h
  cases hintent : row.intent with
  | caller =>
      simp only [hintent, Option.some.injEq, Prod.mk.injEq] at h
      exact .inl ⟨_, by simp, h.1.symm, h.2.symm⟩
  | ownerSession =>
      simp only [hintent, Option.some.injEq, Prod.mk.injEq] at h
      exact .inl ⟨_, by simp, h.1.symm, h.2.symm⟩
  | clientRegister =>
      cases hparams : row.intentParams with
      | none => simp [hintent, hparams] at h
      | some params =>
          simp only [hintent, hparams, DeviceDb.registerClient] at h
          split at h
          · rename_i id hids
            split at h
            · simp at h
            · rename_i hfree
              simp only [Option.map_some, Option.some.injEq, Prod.mk.injEq] at h
              obtain ⟨rfl, rfl⟩ := h
              push Not at hfree
              exact .inr ⟨params, _, rfl, rfl, hids, hfree.2, rfl, rfl⟩
          · simp at h

theorem issuedFor_commit (s : DeviceState) (code : DeviceCode) (credential : DeviceCredential)
    (db : DeviceDb) (code' : DeviceCode) : (s.commit code credential db).issuedFor code' =
      s.issuedFor code' ++ if code = code' then [credential] else [] := by
  simp only [issuedFor, commit, List.filter_append, List.map_append]
  congr 1
  by_cases h : code = code' <;> simp [h]

/-- Nothing was issued for a session whose transaction goes through. -/
theorem Invariant.not_issued (inv : s.Invariant) {code : DeviceCode} {row : DeviceSession}
    {principalId : String} {expiresAt : ℕ} {credential : DeviceCredential} {db : DeviceDb}
    {r : ℕ} (hcopy : (s.requests r).snapshot = some (code, row))
    (hallowed : row.intent ≠ .clientRegister →
      ∃ stored, s.db.deviceSessions.get? code = some stored)
    (h : s.db.issue code row principalId expiresAt = some (credential, db))
    (earlier : DeviceCredential) : (code, earlier) ∉ s.issued := by
  intro hmem
  obtain ⟨origin, horigin, hintent, hparams⟩ := inv.copy r code row hcopy
  have hspent := inv.spent code earlier hmem
  cases earlier with
  | token token =>
      obtain ⟨hgone, origin', horigin', hne⟩ := hspent
      obtain rfl : origin = origin' := Option.some.inj (horigin.symm.trans horigin')
      obtain ⟨stored, hstored⟩ := hallowed (hintent ▸ hne)
      simp [hgone] at hstored
  | client agent =>
      obtain ⟨htaken, origin', params, horigin', heq, hparams', hids⟩ := hspent
      obtain rfl : origin = origin' := Option.some.inj (horigin.symm.trans horigin')
      rcases issue_cases h with ⟨-, hne, -⟩ | ⟨params', agent', -, hp, hids', hfree, -⟩
      · exact hne (hintent.trans heq)
      · obtain rfl : params' = params :=
          Option.some.inj (hp.symm.trans (hparams.trans hparams'))
        obtain ⟨taken, hmem', hid⟩ := htaken (.inr ⟨r, row, hcopy⟩)
        have heq : agent'.id = agent.id := by simpa [hids] using hids'.symm
        exact hfree taken hmem' (hid.trans heq.symm)

theorem singleUse_commit (h : s.SingleUse) {code : DeviceCode} {credential : DeviceCredential}
    {db : DeviceDb} (hfirst : ∀ earlier, (code, earlier) ∉ s.issued) :
    (s.commit code credential db).SingleUse := by
  intro code'
  rw [issuedFor_commit, List.length_append]
  by_cases hcode : code = code'
  · subst hcode
    have hnone : s.issuedFor code = [] := by
      simp only [issuedFor, List.map_eq_nil_iff, List.filter_eq_nil_iff, decide_eq_true_eq]
      rintro ⟨code', earlier⟩ hmem rfl
      exact hfirst earlier hmem
    simp [hnone]
  · simpa [hcode] using h code'

/-- A session is redeemed for the first time. -/
theorem Invariant.commit (inv : s.Invariant) {code : DeviceCode} {row : DeviceSession}
    {principalId : String} {expiresAt : ℕ} {credential : DeviceCredential} {db : DeviceDb}
    {r : ℕ} (hcopy : (s.requests r).snapshot = some (code, row))
    (hallowed : row.intent ≠ .clientRegister →
      ∃ stored, s.db.deviceSessions.get? code = some stored)
    (h : s.db.issue code row principalId expiresAt = some (credential, db)) :
    (s.commit code credential db).Invariant := by
  have hfirst := inv.not_issued hcopy hallowed h
  obtain ⟨origin, horigin, hintent, hparams⟩ := inv.copy r code row hcopy
  rcases issue_cases h with ⟨token, hne, rfl, rfl⟩ |
    ⟨params, agent, hregister, hp, hids, hfree, rfl, rfl⟩
  · have hkept : ∀ {code' row'}, (s.db.deviceSessions.erase code).get? code' = some row' →
        s.db.deviceSessions.get? code' = some row' := by
      intro code' row' hrow
      rw [InsertionMap.get?_erase] at hrow
      split at hrow <;> simp_all
    refine ⟨fun code' row' hrow => inv.row code' row' (hkept hrow), inv.copy, ?_,
      singleUse_commit inv.once hfirst⟩
    intro code' earlier hmem
    rcases List.mem_append.mp hmem with hold | hnew
    · have hspent := inv.spent code' earlier hold
      cases earlier with
      | token earlier =>
          refine ⟨?_, hspent.2⟩
          rw [show (s.commit code (.token token) _).db.deviceSessions =
            s.db.deviceSessions.erase code from rfl, InsertionMap.get?_erase, hspent.1, ite_self]
      | client earlier =>
          refine ⟨fun hopen => hspent.1 ?_, hspent.2⟩
          rcases hopen with ⟨row', hrow'⟩ | hother
          · exact .inl ⟨row', hkept hrow'⟩
          · exact .inr hother
    · obtain ⟨rfl, rfl⟩ : code' = code ∧ earlier = .token token := by simpa using hnew
      exact ⟨InsertionMap.get?_erase_self _ _, origin, horigin, hintent ▸ hne⟩
  · refine ⟨inv.row, inv.copy, ?_, singleUse_commit inv.once hfirst⟩
    intro code' earlier hmem
    rcases List.mem_append.mp hmem with hold | hnew
    · have hspent := inv.spent code' earlier hold
      cases earlier with
      | token earlier => exact hspent
      | client earlier =>
          refine ⟨fun hopen => ?_, hspent.2⟩
          obtain ⟨taken, hmem', hid⟩ := hspent.1 hopen
          exact ⟨taken, List.mem_append_left _ hmem', hid⟩
    · obtain ⟨rfl, rfl⟩ : code' = code ∧ earlier = .client agent := by simpa using hnew
      refine ⟨fun _ => ⟨agent, by simp [DeviceState.commit], rfl⟩, origin, params, horigin, ?_, ?_,
        hids⟩
      · exact hintent.symm.trans hregister
      · exact hparams.symm.trans hp

/-! ## Runs -/

theorem Invariant.issue {opts : DeviceFlowOptions} (inv : s.Invariant) {r now : ℕ}
    (hallowed : s.Undisturbed (.issue r now)) : (s.issue opts r now).Invariant := by
  unfold DeviceState.issue
  split
  · rename_i process code row principalId hphase
    have hcopy : (s.requests r).snapshot = some (code, row) := by rw [hphase]; rfl
    split
    · exact (Quiet.answer s r _).invariant inv
    · rename_i credential db hissue
      refine Quiet.invariant ?_ (inv.commit hcopy (hallowed code row hcopy) hissue)
      exact ((Quiet.lastPoll _ _).trans (.lastPoll _ _)).trans (.answer _ r _)
  · rename_i code row principalId hphase
    have hcopy : (s.requests r).snapshot = some (code, row) := by rw [hphase]; rfl
    split
    · exact (Quiet.answer s r _).invariant inv
    · rename_i credential db hissue
      exact (Quiet.answer _ r _).invariant (inv.commit hcopy (hallowed code row hcopy) hissue)
  · exact inv

/-- A new session has a code that was never used. -/
theorem Invariant.create {opts : DeviceFlowOptions} (inv : s.Invariant) {code : DeviceCode}
    (userCode : String) (intent : DeviceFlowIntent) (params : Option ClientRegisterParams)
    (now : ℕ) (hfresh : s.minted.get? code = none) :
    (s.create opts code userCode intent params now).Invariant := by
  have hminted : ∀ code' origin, s.minted.get? code' = some origin →
      (s.create opts code userCode intent params now).minted.get? code' = some origin := by
    intro code' origin horigin
    have hne : code ≠ code' := by rintro rfl; simp [hfresh] at horigin
    exact (InsertionMap.get?_set_of_ne _ _ hne).trans horigin
  have hcreated : ∀ code' row, s.CreatedAs code' row →
      (s.create opts code userCode intent params now).CreatedAs code' row := by
    rintro code' row ⟨origin, horigin, hrest⟩
    exact ⟨origin, hminted code' origin horigin, hrest⟩
  refine ⟨fun code' row hrow => ?_,
    fun r code' row hcopy => hcreated _ _ (inv.copy r code' row hcopy),
    fun code' credential hmem => ?_, inv.once⟩
  · by_cases hcode : code = code'
    · subst hcode
      refine ⟨row, ?_, rfl, rfl⟩
      rw [← hrow]
      exact (InsertionMap.get?_set_self _ _ _).trans (InsertionMap.get?_set_self _ _ _).symm
    · exact hcreated _ _ (inv.row code' row
        ((InsertionMap.get?_set_of_ne _ _ hcode).symm.trans hrow))
  · have hspent := inv.spent code' credential hmem
    have hne : code ≠ code' := by
      rintro rfl
      cases credential <;> obtain ⟨-, origin, h⟩ := hspent <;> simp [hfresh] at h
    have hrow : (s.create opts code userCode intent params now).db.deviceSessions.get? code' =
        s.db.deviceSessions.get? code' := InsertionMap.get?_set_of_ne _ _ hne
    cases credential with
    | token token =>
        obtain ⟨hgone, origin, horigin, hintent⟩ := hspent
        exact ⟨hrow.trans hgone, origin, hminted code' origin horigin, hintent⟩
    | client agent =>
        obtain ⟨htaken, origin, params, horigin, hrest⟩ := hspent
        refine ⟨fun hopen => htaken ?_, origin, params, hminted code' origin horigin, hrest⟩
        rcases hopen with ⟨row, hstored⟩ | hcopy
        · exact .inl ⟨row, hrow.symm.trans hstored⟩
        · exact .inr hcopy

theorem Invariant.step {opts : DeviceFlowOptions} {a : DeviceAction} (inv : s.Invariant)
    (hallowed : s.Undisturbed a) (hstep : (deviceSystem opts).step s a t) : t.Invariant := by
  obtain ⟨henabled, rfl⟩ := hstep
  cases a with
  | create code userCode intent params now =>
      exact inv.create userCode intent params now
        (by simpa [enabled, InsertionMap.has] using henabled)
  | poll r process code now => exact (Quiet.poll opts s r process code now).invariant inv
  | select r now =>
      simp only [apply, select]
      split
      · exact (Quiet.look s r _ _ now).invariant inv
      · exact (Quiet.lookPending s r _ _ now).invariant inv
      · exact inv
  | bump r => exact (Quiet.bump s r).invariant inv
  | callback r code onsite =>
      exact (Quiet.setRequest r fun _ _ h => by simp [DeviceRequest.snapshot] at h).invariant inv
  | exchanged r user => exact (Quiet.exchanged s r user).invariant inv
  | approve r => exact (Quiet.approve s r).invariant inv
  | issue r now => exact inv.issue hallowed
  | fail r => exact (Quiet.answer s r _).invariant inv
  | sweep now =>
      refine Quiet.invariant (Quiet.sessions fun code row hrow => ?_) inv
      rw [InsertionMap.get?_filter] at hrow
      exact ⟨row, (Option.filter_eq_some_iff.mp hrow).1, rfl, rfl⟩
  | setAgents agents =>
      have hquiet : s.Quiet (s.apply opts (.setAgents agents)) :=
        ⟨rfl, rfl, fun _ row h => ⟨row, h, rfl, rfl⟩, fun r _ row h => ⟨row, .inr ⟨r, h⟩, rfl, rfl⟩,
          fun code agent hmem hopen _ => hallowed code agent hmem hopen⟩
      exact hquiet.invariant inv

/-- In an undisturbed run every session is redeemed at most once. -/
theorem singleUse_of_undisturbed {opts : DeviceFlowOptions}
    (h : ((deviceSystem opts).restrict Undisturbed).Reachable s) : s.SingleUse := by
  refine (h.invariant (I := Invariant) ?_ ?_).once
  · rintro s ⟨agents, callers, rfl⟩
    exact ⟨by simp, by simp [DeviceRequest.snapshot], by simp, fun code => by simp [issuedFor]⟩
  · rintro s a t inv ⟨hallowed, hstep⟩
    exact inv.step hallowed hstep

section Witness

/-- A session is created, and a browser approves it. -/
private def approval : List DeviceAction :=
  [.create "code" "WDJB-MJHT" .caller none 0, .callback 0 "code" false, .select 0 1,
    .exchanged 0 (some ("google:1", none)), .approve 0]

private def onePoll : List DeviceAction := [.poll 1 0 "code" 2, .select 1 3]

/-- The two polls reach different servers. -/
private def twoPolls : List DeviceAction :=
  [.poll 1 0 "code" 2, .poll 2 1 "code" 2, .select 1 3, .select 2 3, .issue 1 4, .issue 2 4]

private def polled : DeviceState := (approval ++ onePoll).foldl (apply {}) {}

private def overtaken : DeviceState := (approval ++ twoPolls).foldl (apply {}) {}

private theorem init_reachable {C : DeviceState → DeviceAction → Prop} :
    ((deviceSystem {}).restrict C).Reachable {} := .of_init ⟨[], [], rfl⟩

private theorem polled_reachable : ((deviceSystem {}).restrict Undisturbed).Reachable polled := by
  refine System.Legal.reachable_restrict ?_ init_reachable
  exact ⟨⟨trivial, by decide +kernel⟩, ⟨trivial, by decide +kernel⟩, ⟨trivial, rfl⟩,
    ⟨trivial, rfl⟩, ⟨trivial, rfl⟩, ⟨trivial, by decide +kernel⟩, ⟨trivial, rfl⟩, trivial⟩

theorem singleUse_of_undisturbed_polled :
    ((polled.apply {} (.issue 1 4)).issuedFor "code").length = 1 ∧
      (polled.apply {} (.issue 1 4)).SingleUse := by
  have hreach : ((deviceSystem {}).restrict Undisturbed).Reachable
      (polled.apply {} (.issue 1 4)) := by
    refine polled_reachable.step ⟨?_, rfl, rfl⟩
    intro code row hcopy _
    have hcode : (polled.requests 1).snapshot.map Prod.fst = some "code" := by decide +kernel
    obtain rfl : code = "code" := by simpa [hcopy] using hcode
    exact Option.isSome_iff_exists.mp (by decide +kernel)
  exact ⟨by decide +kernel, singleUse_of_undisturbed hreach⟩

/-- Both polls read the approved row before either transaction. -/
theorem singleUse_overtaken :
    ¬ ∀ s : DeviceState, (deviceSystem {}).Reachable s → s.SingleUse := by
  intro hclaim
  have hreach : (deviceSystem {}).Reachable overtaken :=
    System.Legal.reachable (by decide +kernel) (.of_init ⟨[], [], rfl⟩)
  exact absurd (hclaim overtaken hreach "code") (by decide +kernel)

end Witness

end DeviceState

end VicoopBridge
