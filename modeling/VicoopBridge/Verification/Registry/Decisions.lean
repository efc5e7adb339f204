import VicoopBridge.Verification.Registry.Calm

/-! # Decisions on tool requests

Every accepted call of `decide` is recorded. A permission that goes out on a socket was the
first decision on its request, and an execution waits for one request at a time. -/

namespace VicoopBridge

open Library

/-! ## The record of accepted decisions -/

/-- A call of `decide` that was accepted, with what held of the request before the call. -/
structure AcceptedDecision where
  requestId : String
  executionId : String
  decision : ApprovalDecision
  bound : Bool
  expired : Bool
  deriving DecidableEq

/-- The first decision on a request. Its id alone does not name it, since whoever raises a
request chooses the id. -/
def firstDecision (log : List AcceptedDecision) (requestId executionId : String) :
    Option AcceptedDecision :=
  log.find? fun d => d.requestId = requestId ∧ d.executionId = executionId

theorem firstDecision_append (log new : List AcceptedDecision) (requestId executionId : String) :
    firstDecision (log ++ new) requestId executionId =
      (firstDecision log requestId executionId).or (firstDecision new requestId executionId) :=
  List.find?_append

/-- A later decision does not change which one was first. -/
theorem firstDecision_append_of_some {log : List AcceptedDecision} (new : List AcceptedDecision)
    {first : AcceptedDecision} {requestId executionId : String}
    (h : firstDecision log requestId executionId = some first) :
    firstDecision (log ++ new) requestId executionId = some first := by
  rw [firstDecision_append, h, Option.some_or]

theorem mem_of_firstDecision {log : List AcceptedDecision} {d : AcceptedDecision}
    {requestId executionId : String} (h : firstDecision log requestId executionId = some d) :
    d ∈ log ∧ d.requestId = requestId ∧ d.executionId = executionId := by
  refine ⟨List.mem_of_find?_eq_some h, ?_⟩
  simpa using List.find?_some h

namespace Registry

def acceptedDecision (r : Registry) (now : ℕ) (id : String) (decision : ApprovalDecision)
    (principal : String) (via : ApprovalAuthority) : Option AcceptedDecision :=
  match r.approvals.entries.get? id, (r.decide now id decision principal via).1 with
  | some a, some _ => some
      { requestId := id, executionId := a.executionId, decision := decision
        bound := (r.liveBinding a).isSome, expired := a.request.expiresAt.ms ≤ now }
  | _, _ => none

/-! ## The invariant -/

/-- Approvals belong to bound executions, and what is decided about them is on record.
`issued` are the bindings that have been made so far. -/
structure Decided (r : Registry) (issued : List TaskBinding) (log : List AcceptedDecision) :
    Prop where
  stored : ∀ k b, r.bindings.get? k = some b → b ∈ issued
  unique : ∀ b ∈ issued, ∀ b' ∈ issued, b.executionId.isSome → b'.executionId = b.executionId →
    b' = b
  live : ∀ id a, r.approvals.entries.get? id = some a → (r.liveBinding a).isSome
  waiting : ∀ id a id' a', r.approvals.entries.get? id = some a →
    r.approvals.entries.get? id' = some a' → a.isOpen → a'.isOpen →
      a.executionId = a'.executionId → id = id'
  pending : ∀ id a, r.approvals.entries.get? id = some a → a.state = .pending →
    firstDecision log id a.executionId = none
  decided : ∀ id a, r.approvals.entries.get? id = some a → a.state = .decided →
    ∃ d, firstDecision log id a.executionId = some d ∧ a.decision = some d.decision
  /-- An allow that arrived is the first decision; a denial may be the client's own. -/
  received : ∀ id a, r.approvals.entries.get? id = some a → a.state = .received →
    a.decision = some .allowOnce →
      ∃ d, firstDecision log id a.executionId = some d ∧ d.decision = .allowOnce
  keyed : r.approvals.Keyed
  sound : ∀ d ∈ log, d.bound = true ∧ d.expired = false
  logged : ∀ d ∈ log, ∃ b ∈ issued, b.executionId = some d.executionId
  /-- A decided request stays on the books as long as its execution is bound. -/
  entry : ∀ d ∈ log, ∀ k b, r.bindings.get? k = some b → b.executionId = some d.executionId →
    ∃ a, r.approvals.entries.get? d.requestId = some a ∧ a.executionId = d.executionId
  permits : ∀ ws taskId executionId requestId,
    .approvalResolve taskId executionId requestId .allowOnce ∈ (r.sockets ws).sent →
      ∃ d, firstDecision log requestId executionId = some d ∧ d.decision = .allowOnce

variable {r r' : Registry} {issued : List TaskBinding} {log : List AcceptedDecision}

/-- The binding an approval lives by is the only one of its execution. -/
theorem Decided.live_of_stored (inv : r.Decided issued log) (hr : r.Consistent) {id : String}
    {a : ToolApproval} (ha : r.approvals.entries.get? id = some a) {k : String} {b : TaskBinding}
    (hk : r.bindings.get? k = some b) (hexec : b.executionId = some a.executionId) :
    a.taskId = k ∧ r.liveBinding a = some b := by
  obtain ⟨b', hb'⟩ := Option.isSome_iff_exists.mp (inv.live id a ha)
  obtain ⟨hk', hagent, hexec'⟩ := liveBinding_eq_some.mp hb'
  obtain rfl := inv.unique b (inv.stored k b hk) b' (inv.stored _ b' hk') (by simp [hexec])
    (by rw [hexec, hexec'])
  exact ⟨(hr.binding_key _ _ hk').symm.trans (hr.binding_key _ _ hk), hb'⟩

theorem Decided.calm (inv : r.Decided issued log) (hr : r.Consistent) (h : r.Calm r') :
    r'.Decided issued log where
  stored k b hk := inv.stored k b (h.bindings k b hk)
  unique := inv.unique
  live id a ha := h.live id a ha (inv.live id a (h.entries id a ha))
  waiting id a id' a' ha ha' :=
    inv.waiting id a id' a' (h.entries id a ha) (h.entries id' a' ha')
  pending id a ha := inv.pending id a (h.entries id a ha)
  decided id a ha := inv.decided id a (h.entries id a ha)
  received id a ha := inv.received id a (h.entries id a ha)
  keyed := h.keyed inv.keyed
  sound := inv.sound
  logged := inv.logged
  entry d hd k b hk hexec := by
    obtain ⟨a, ha, hsame⟩ := inv.entry d hd k b (h.bindings k b hk) hexec
    obtain ⟨htask, hlive⟩ := inv.live_of_stored hr ha (h.bindings k b hk) (hsame ▸ hexec)
    obtain ⟨-, hagent, hexec'⟩ := liveBinding_eq_some.mp hlive
    refine ⟨a, h.kept _ a ha (Option.isSome_iff_exists.mpr ⟨b, ?_⟩), hsame⟩
    exact liveBinding_eq_some.mpr ⟨htask ▸ hk, hagent, hexec'⟩
  permits ws taskId executionId requestId hsent :=
    inv.permits ws taskId executionId requestId (h.resolves ws _ rfl hsent)

/-- The bindings that are made later are of no concern. -/
theorem Decided.issue (inv : r.Decided issued log) {b : TaskBinding}
    (hfresh : ∀ e, b.executionId = some e → ∀ b' ∈ issued, b'.executionId ≠ some e) :
    r.Decided (issued ++ [b]) log where
  stored k b' hk := List.mem_append_left _ (inv.stored k b' hk)
  unique b₁ h₁ b₂ h₂ hsome hexec := by
    obtain ⟨e, he⟩ := Option.isSome_iff_exists.mp hsome
    rcases List.mem_append.mp h₁ with hold₁ | hnew₁ <;>
      rcases List.mem_append.mp h₂ with hold₂ | hnew₂
    · exact inv.unique b₁ hold₁ b₂ hold₂ hsome hexec
    · obtain rfl := List.mem_singleton.mp hnew₂
      exact absurd he (hfresh e (hexec.trans he) b₁ hold₁)
    · obtain rfl := List.mem_singleton.mp hnew₁
      exact absurd (hexec.trans he) (hfresh e he b₂ hold₂)
    · rw [List.mem_singleton.mp hnew₁, List.mem_singleton.mp hnew₂]
  live := inv.live
  waiting := inv.waiting
  pending := inv.pending
  decided := inv.decided
  received := inv.received
  keyed := inv.keyed
  sound := inv.sound
  logged d hd := by
    obtain ⟨b', hb', hexec⟩ := inv.logged d hd
    exact ⟨b', List.mem_append_left _ hb', hexec⟩
  entry := inv.entry
  permits := inv.permits

/-! ## Raising a request -/

theorem request_waiting {t : ToolApprovals} {now : ℕ} {b : TaskBinding} {request : ApprovalRequest}
    {a : ToolApproval} {t' : ToolApprovals} (h : t.request now b request = .ok (a, t')) :
    t.waiting b = none ∧ a.state = .pending ∧ a.taskId = b.taskId := by
  unfold ToolApprovals.request at h
  repeat' split at h
  all_goals try simp only [reduceCtorEq] at h
  rename_i hfree
  obtain ⟨rfl, -⟩ := Prod.mk.inj (Except.ok.inj h)
  exact ⟨by simpa using fun hwaiting => hfree (.inr hwaiting), rfl, rfl⟩

theorem Decided.raise (inv : r.Decided issued log) (hr : r.Consistent) {now : ℕ} {b : TaskBinding}
    (hb : r.bindings.get? b.taskId = some b) {request : ApprovalRequest} {a : ToolApproval}
    {approvals : ToolApprovals} (h : r.approvals.request now b request = .ok (a, approvals)) :
    { r with approvals := approvals }.Decided issued log := by
  obtain ⟨hnone, hreq, hagent, hexec, origin, rfl⟩ := r.approvals.request_cases b h
  obtain ⟨hwaiting, hpending, htask⟩ := request_waiting h
  have hlive : r.liveBinding a = some b := liveBinding_eq_some.mpr ⟨htask ▸ hb, hagent.symm, hexec⟩
  -- An open request of the same execution would have been found waiting.
  have hfree : ∀ id' a', r.approvals.entries.get? id' = some a' → a'.isOpen →
      a'.executionId ≠ a.executionId := by
    intro id' a' ha' hopen hsame
    obtain ⟨htask', -⟩ := inv.live_of_stored hr ha' hb (by rw [hexec, hsame])
    have hfound := List.find?_eq_none.mp hwaiting a'
      ((r.approvals.entries.mem_values_iff a').mpr ⟨id', ha'⟩)
    simp [ToolApproval.raisedBy, htask', hexec, hsame, hopen] at hfound
  refine ⟨inv.stored, inv.unique, ?_, ?_, ?_, ?_, ?_, ?_, inv.sound, inv.logged, ?_, inv.permits⟩
  · intro id' a' ha'
    rw [InsertionMap.get?_set] at ha'
    split at ha'
    · obtain rfl := Option.some.inj ha'
      exact Option.isSome_iff_exists.mpr ⟨b, hlive⟩
    · exact inv.live id' a' ha'
  · intro id₁ a₁ id₂ a₂ h₁ h₂ hopen₁ hopen₂ hsame
    rw [InsertionMap.get?_set] at h₁ h₂
    split at h₁
    · rename_i heq₁
      obtain rfl := Option.some.inj h₁
      split at h₂
      · rename_i heq₂
        exact heq₁.symm.trans heq₂
      · exact absurd hsame.symm (hfree id₂ a₂ h₂ hopen₂)
    · split at h₂
      · obtain rfl := Option.some.inj h₂
        exact absurd hsame (hfree id₁ a₁ h₁ hopen₁)
      · exact inv.waiting id₁ a₁ id₂ a₂ h₁ h₂ hopen₁ hopen₂ hsame
  · intro id' a' ha' hstate
    rw [InsertionMap.get?_set] at ha'
    split at ha'
    · rename_i heq
      subst heq
      obtain rfl := Option.some.inj ha'
      by_contra hsome
      obtain ⟨d, hd⟩ := Option.ne_none_iff_exists'.mp hsome
      obtain ⟨hmem, hid, hsame⟩ := mem_of_firstDecision hd
      obtain ⟨a', ha', -⟩ := inv.entry d hmem _ b hb (by rw [hexec, hsame])
      rw [hid, hnone] at ha'
      simp at ha'
    · exact inv.pending id' a' ha' hstate
  · intro id' a' ha' hstate
    rw [InsertionMap.get?_set] at ha'
    split at ha'
    · obtain rfl := Option.some.inj ha'
      simp [hpending] at hstate
    · exact inv.decided id' a' ha' hstate
  · intro id' a' ha' hstate
    rw [InsertionMap.get?_set] at ha'
    split at ha'
    · obtain rfl := Option.some.inj ha'
      simp [hpending] at hstate
    · exact inv.received id' a' ha' hstate
  · intro id'
    simp only [InsertionMap.get?_set]
    split
    · rfl
    · exact inv.keyed id'
  · intro d hd k b' hk hexec'
    obtain ⟨a', ha', hsame⟩ := inv.entry d hd k b' hk hexec'
    refine ⟨a', ?_, hsame⟩
    rw [InsertionMap.get?_set_of_ne]
    · exact ha'
    · rintro heq
      rw [← heq, hnone] at ha'
      simp at ha'

/-! ## Progress of a request -/

/-- A request moves on, perhaps by a decision: it does not become open again, nor pending,
and what it says was decided is the first decision on record. -/
theorem Decided.move (inv : r.Decided issued log) {id : String} {a a' : ToolApproval}
    (ha : r.approvals.entries.get? id = some a) (hbindings : r'.bindings = r.bindings)
    (hsockets : r'.sockets = r.sockets) (horigins : r'.approvals.origins = r.approvals.origins)
    (hentries : ∀ id', r'.approvals.entries.get? id' =
      if id = id' then some a' else r.approvals.entries.get? id')
    (hagent : a'.agentId = a.agentId) (htask : a'.taskId = a.taskId)
    (hexec : a'.executionId = a.executionId) (hopen : a'.isOpen → a.isOpen)
    (hpending : a'.state ≠ .pending) {new : List AcceptedDecision}
    (hnew : ∀ d ∈ new, (d.bound = true ∧ d.expired = false) ∧ d.requestId = id ∧
      d.executionId = a.executionId)
    (hdecided : a'.state = .decided →
      ∃ d, firstDecision (log ++ new) id a.executionId = some d ∧ a'.decision = some d.decision)
    (hreceived : a'.state = .received → a'.decision = some .allowOnce →
      ∃ d, firstDecision (log ++ new) id a.executionId = some d ∧ d.decision = .allowOnce) :
    r'.Decided issued (log ++ new) := by
  have hbefore : ∀ id' a₁, r'.approvals.entries.get? id' = some a₁ →
      ∃ a₀, r.approvals.entries.get? id' = some a₀ ∧ a₁.agentId = a₀.agentId ∧
        a₁.taskId = a₀.taskId ∧ a₁.executionId = a₀.executionId ∧ (a₁.isOpen → a₀.isOpen) := by
    intro id' a₁ h₁
    rw [hentries] at h₁
    split at h₁
    · rename_i heq
      subst heq
      obtain rfl := Option.some.inj h₁
      exact ⟨a, ha, hagent, htask, hexec, hopen⟩
    · exact ⟨a₁, h₁, rfl, rfl, rfl, fun h => h⟩
  refine ⟨by rw [hbindings]; exact inv.stored, inv.unique, ?_, ?_, ?_, ?_, ?_, ?_, ?_, ?_, ?_, ?_⟩
  · intro id' a₁ h₁
    obtain ⟨a₀, h₀, hagent₀, htask₀, hexec₀, -⟩ := hbefore id' a₁ h₁
    obtain ⟨b, hb⟩ := Option.isSome_iff_exists.mp (inv.live id' a₀ h₀)
    obtain ⟨hk, hmine, hsame⟩ := liveBinding_eq_some.mp hb
    refine Option.isSome_iff_exists.mpr ⟨b, liveBinding_eq_some.mpr ⟨?_, ?_, ?_⟩⟩
    · rw [hbindings, htask₀, hk]
    · rw [hmine, hagent₀]
    · rw [hsame, hexec₀]
  · intro id₁ a₁ id₂ a₂ h₁ h₂ hopen₁ hopen₂ hsame
    obtain ⟨a₁', h₁', -, -, hexec₁, hopen₁'⟩ := hbefore id₁ a₁ h₁
    obtain ⟨a₂', h₂', -, -, hexec₂, hopen₂'⟩ := hbefore id₂ a₂ h₂
    exact inv.waiting id₁ a₁' id₂ a₂' h₁' h₂' (hopen₁' hopen₁) (hopen₂' hopen₂)
      (by rw [← hexec₁, ← hexec₂, hsame])
  · intro id' a₁ h₁ hstate
    rw [hentries] at h₁
    split at h₁
    · obtain rfl := Option.some.inj h₁
      exact absurd hstate hpending
    · rename_i hne
      rw [firstDecision_append, inv.pending id' a₁ h₁ hstate, Option.none_or]
      refine List.find?_eq_none.mpr fun d hd => ?_
      have hid := (hnew d hd).2.1
      simp [hid, hne]
  · intro id' a₁ h₁ hstate
    rw [hentries] at h₁
    split at h₁
    · rename_i heq
      subst heq
      obtain rfl := Option.some.inj h₁
      rw [hexec]
      exact hdecided hstate
    · obtain ⟨first, hfirst, hdecision⟩ := inv.decided id' a₁ h₁ hstate
      exact ⟨first, firstDecision_append_of_some new hfirst, hdecision⟩
  · intro id' a₁ h₁ hstate hallow
    rw [hentries] at h₁
    split at h₁
    · rename_i heq
      subst heq
      obtain rfl := Option.some.inj h₁
      rw [hexec]
      exact hreceived hstate hallow
    · obtain ⟨first, hfirst, hdecision⟩ := inv.received id' a₁ h₁ hstate hallow
      exact ⟨first, firstDecision_append_of_some new hfirst, hdecision⟩
  · intro id'
    rw [horigins, hentries]
    split
    · rename_i heq
      rw [← heq, inv.keyed id, ha]
      rfl
    · exact inv.keyed id'
  · intro d hd
    rcases List.mem_append.mp hd with hold | hadded
    · exact inv.sound d hold
    · exact (hnew d hadded).1
  · intro d hd
    rcases List.mem_append.mp hd with hold | hadded
    · exact inv.logged d hold
    · obtain ⟨b, hb⟩ := Option.isSome_iff_exists.mp (inv.live id a ha)
      obtain ⟨hk, -, hsame⟩ := liveBinding_eq_some.mp hb
      exact ⟨b, inv.stored _ b hk, by rw [hsame, (hnew d hadded).2.2]⟩
  · intro d hd k b hk hsame
    rw [hbindings] at hk
    have hkept : ∃ a₀, r.approvals.entries.get? d.requestId = some a₀ ∧
        a₀.executionId = d.executionId := by
      rcases List.mem_append.mp hd with hold | hadded
      · exact inv.entry d hold k b hk hsame
      · obtain ⟨-, hid, hexec₀⟩ := hnew d hadded
        exact ⟨a, by rw [hid, ha], hexec₀.symm⟩
    obtain ⟨a₀, h₀, hexec₀⟩ := hkept
    by_cases heq : id = d.requestId
    · subst heq
      obtain rfl : a = a₀ := Option.some.inj (ha.symm.trans h₀)
      exact ⟨a', by rw [hentries, if_pos rfl], hexec.trans hexec₀⟩
    · exact ⟨a₀, by rw [hentries, if_neg heq, h₀], hexec₀⟩
  · intro ws taskId executionId requestId hsent
    rw [hsockets] at hsent
    obtain ⟨first, hfirst, hallow⟩ := inv.permits ws taskId executionId requestId hsent
    exact ⟨first, firstDecision_append_of_some new hfirst, hallow⟩

theorem Decided.setEntry (inv : r.Decided issued log) {id : String} {a a' : ToolApproval}
    (ha : r.approvals.entries.get? id = some a) (hagent : a'.agentId = a.agentId)
    (htask : a'.taskId = a.taskId) (hexec : a'.executionId = a.executionId)
    (hclosed : a'.isOpen = false)
    (hreceived : a'.state = .received → a'.decision = some .allowOnce →
      ∃ d, firstDecision log id a.executionId = some d ∧ d.decision = .allowOnce)
    (timers : InsertionMap String ℕ) :
    { r with approvals := ⟨r.approvals.entries.set id a', timers, r.approvals.origins⟩ }.Decided
      issued log := by
  have hpending : a'.state ≠ .pending := by
    intro hstate
    simp [ToolApproval.isOpen, hstate] at hclosed
  have hdecided : a'.state ≠ .decided := by
    intro hstate
    simp [ToolApproval.isOpen, hstate] at hclosed
  have hmoved :
      { r with approvals := ⟨r.approvals.entries.set id a', timers, r.approvals.origins⟩ }.Decided
        issued (log ++ []) :=
    inv.move ha (by rfl) (by rfl) (by rfl) (fun id' => InsertionMap.get?_set _ _ _ _) hagent htask
      hexec (by simp [hclosed]) hpending (by simp) (fun hstate => absurd hstate hdecided)
      (by simpa using hreceived)
  simpa using hmoved

/-- An allow is taken only from a client that was sent it. -/
theorem received_allow {t t' : ToolApprovals} {b : TaskBinding} {id : String} {a a' : ToolApproval}
    (ha : t.entries.get? id = some a) (h : t.received b id .allowOnce = some (a', t')) :
    a.state = .decided ∧ a.decision = some .allowOnce := by
  unfold ToolApprovals.received at h
  simp only [ha] at h
  repeat' split at h
  all_goals try simp only [reduceCtorEq] at h
  rename_i hallow
  simpa using hallow

theorem Decided.receive (inv : r.Decided issued log) {b : TaskBinding} {id : String}
    {decision : ApprovalDecision} {a : ToolApproval} {approvals : ToolApprovals}
    (h : r.approvals.received b id decision = some (a, approvals)) :
    { r with approvals := approvals }.Decided issued log := by
  obtain ⟨a₀, ha₀, -, -, ha, rfl⟩ := r.approvals.received_cases b h
  refine inv.setEntry ha₀ (by rw [ha]) (by rw [ha]) (by rw [ha]) (by simp [ha, ToolApproval.isOpen])
    (fun _ hallow => ?_) _
  obtain rfl : decision = .allowOnce := by simpa [ha] using hallow
  obtain ⟨hstate, hdecision⟩ := received_allow ha₀ h
  obtain ⟨d, hfirst, hsame⟩ := inv.decided id a₀ ha₀ hstate
  exact ⟨d, hfirst, Option.some.inj (hsame.symm.trans hdecision)⟩

/-- A permission is sent only for a request on which it was the first decision. -/
theorem Decided.deliver (inv : r.Decided issued log) {a : ToolApproval}
    (hallow : a.decision = some .allowOnce → ∃ d,
      firstDecision log a.request.requestId a.executionId = some d ∧ d.decision = .allowOnce) :
    (r.deliver a).Decided issued log := by
  unfold Registry.deliver
  split
  · rename_i decision _ hdecision
    unfold sendToAgent
    split
    · exact inv
    · rename_i conn _
      refine { inv with permits := ?_ }
      intro ws taskId executionId requestId hsent
      by_cases heq : ws = conn.ws
      · subst heq
        simp only [modifySocket, Function.update_self, Socket.send] at hsent
        split at hsent
        · rcases List.mem_append.mp hsent with hold | hnew
          · exact inv.permits _ taskId executionId requestId hold
          · have hframe := List.mem_singleton.mp hnew
            simp only [DownFrame.approvalResolve.injEq] at hframe
            obtain ⟨-, rfl, rfl, rfl⟩ := hframe
            exact hallow hdecision
        · exact inv.permits _ taskId executionId requestId hsent
      · refine inv.permits ws taskId executionId requestId ?_
        simpa [modifySocket, heq] using hsent
  · exact inv

/-! ## Deciding -/

/-- An accepted call repeats the decision that stands, or is the first. -/
theorem decide_cases (r : Registry) (now : ℕ) (id : String) (decision : ApprovalDecision)
    (principal : String) (via : ApprovalAuthority) :
    (r.decide now id decision principal via = (none, r)) ∨
      ∃ a, r.approvals.entries.get? id = some a ∧ (r.liveBinding a).isSome ∧
        now < a.request.expiresAt.ms ∧
        ((a.state ≠ .pending ∧ r.decide now id decision principal via = (some a, r)) ∨
          a.state = .pending ∧ ∃ a', a' = { a with
              state := .decided, decision := some decision
              decidedBy := some principal, decidedVia := some via } ∧
            r.decide now id decision principal via = (some a', (r.setApproval a').deliver a')) := by
  unfold Registry.decide
  cases ha : r.approvals.entries.get? id with
  | none => exact .inl rfl
  | some a =>
      simp only
      split
      · exact .inl rfl
      · rename_i hlive
        simp only [not_or, Option.isNone_iff_eq_none, ← ne_eq, ← Option.isSome_iff_ne_none] at hlive
        have hvalid := Int.not_le.mp hlive.2
        split
        · rename_i hstate
          split
          · exact .inr ⟨a, rfl, hlive.1, hvalid, .inl ⟨hstate, rfl⟩⟩
          · exact .inl rfl
        · rename_i hstate
          exact .inr ⟨a, rfl, hlive.1, hvalid, .inr ⟨not_not.mp hstate, _, rfl, rfl⟩⟩

theorem Decided.decide (inv : r.Decided issued log) (hr : r.Consistent) (now : ℕ) (id : String)
    (decision : ApprovalDecision) (principal : String) (via : ApprovalAuthority) :
    (r.decide now id decision principal via).2.Decided issued
      (log ++ (r.acceptedDecision now id decision principal via).toList) := by
  unfold acceptedDecision
  rcases r.decide_cases now id decision principal via with
    hrefused | ⟨a, ha, hlive, hvalid, ⟨hstate, hrepeated⟩ | ⟨hpending, a', ha', hfirst⟩⟩
  · rw [hrefused]
    cases r.approvals.entries.get? id <;> simpa using inv
  · rw [hrepeated, ha]
    refine inv.move ha rfl rfl rfl ?_ rfl rfl rfl (fun h => h) hstate ?_ ?_ ?_
    · intro id'
      split
      · rename_i heq
        rw [← heq, ha]
      · rfl
    · simpa using ⟨hlive, hvalid⟩
    · intro hdecided
      obtain ⟨first, hrecorded, hsame⟩ := inv.decided id a ha hdecided
      exact ⟨first, firstDecision_append_of_some _ hrecorded, hsame⟩
    · intro hreceived hallow
      obtain ⟨first, hrecorded, hsame⟩ := inv.received id a ha hreceived hallow
      exact ⟨first, firstDecision_append_of_some _ hrecorded, hsame⟩
  · rw [hfirst, ha]
    have hkey : a'.request.requestId = id := by rw [ha']; exact hr.approval_key id a ha
    have hexec : a'.executionId = a.executionId := by rw [ha']
    set d : AcceptedDecision :=
      { requestId := id, executionId := a.executionId, decision := decision
        bound := (r.liveBinding a).isSome, expired := a.request.expiresAt.ms ≤ now } with hd
    have hrecorded : firstDecision (log ++ [d]) id a.executionId = some d := by
      rw [firstDecision_append, inv.pending id a ha hpending]
      simp [firstDecision, hd]
    have hmoved : (r.setApproval a').Decided issued (log ++ [d]) := by
      refine inv.move ha (by rfl) (by rfl) (by rfl) (fun id' => ?_) (by rw [ha']) (by rw [ha'])
        hexec ?_ ?_ ?_ ?_ ?_
      · unfold setApproval
        rw [hkey]
        exact InsertionMap.get?_set _ _ _ _
      · simp [ToolApproval.isOpen, hpending]
      · simp [ha']
      · simpa [hd] using ⟨hlive, hvalid⟩
      · exact fun _ => ⟨d, hrecorded, by simp [ha', hd]⟩
      · simp [ha']
    refine hmoved.deliver fun hallow => ⟨d, ?_, ?_⟩
    · rw [hkey, hexec]
      exact hrecorded
    · simpa [ha', hd] using hallow

theorem Decided.setApproval (inv : r.Decided issued log) (hr : r.Consistent) {id : String}
    {a a' : ToolApproval} (ha : r.approvals.entries.get? id = some a)
    (hrequest : a'.request = a.request) (hagent : a'.agentId = a.agentId)
    (htask : a'.taskId = a.taskId) (hexec : a'.executionId = a.executionId)
    (hclosed : a'.isOpen = false) (hstate : a'.state ≠ .received) :
    (r.setApproval a').Decided issued log := by
  have hkey : a'.request.requestId = id := by rw [hrequest]; exact hr.approval_key id a ha
  unfold Registry.setApproval
  rw [hkey]
  exact inv.setEntry ha hagent htask hexec hclosed (fun h => absurd h hstate) _

theorem Decided.approvalTick (inv : r.Decided issued log) (hr : r.Consistent) (now : ℕ)
    (id : String) : (r.approvalTick now id).Decided issued log := by
  have hcleared := hr.clearApproval id
  have inv₁ : { r with approvals := r.approvals.clear id }.Decided issued log :=
    inv.calm hr (calm_of_eq rfl rfl rfl rfl)
  unfold Registry.approvalTick
  generalize { r with approvals := r.approvals.clear id } = r₁ at hcleared inv₁
  simp only
  cases ha : r₁.approvals.entries.get? id with
  | none => exact inv₁
  | some a =>
      have hlive := inv₁.live id a ha
      simp only [Option.isNone_iff_eq_none, Option.ne_none_iff_isSome.mpr hlive, if_false]
      split
      · exact inv₁
      split
      · set a' : ToolApproval := { a with state := .expired, decision := some .deny } with ha'
        have hset := hcleared.setApproval a' ha rfl rfl rfl
        have hsetInv : (r₁.setApproval a').Decided issued log :=
          inv₁.setApproval hcleared ha rfl rfl rfl rfl (by simp [ha', ToolApproval.isOpen])
            (by simp [ha'])
        have hdelivered : ((r₁.setApproval a').deliver a').Decided issued log :=
          hsetInv.deliver (by simp [ha'])
        have hdeliveredHr := hset.deliver a'
        split
        · exact hdelivered
        · refine Decided.calm ?_ (hdeliveredHr.sendToAgent _ _) (calm_failTaskBinding _ _ _ _)
          exact hdelivered.calm hdeliveredHr (calm_sendToAgent _ a.agentId rfl)
      · have hdelivered : (if a.state = .decided then r₁.deliver a else r₁).Decided issued log := by
          split
          · rename_i hdecided
            obtain ⟨d, hfirst, hdecision⟩ := inv₁.decided id a ha hdecided
            refine inv₁.deliver fun hallow => ⟨d, ?_, ?_⟩
            · rw [hcleared.approval_key id a ha]
              exact hfirst
            · exact (Option.some.inj (hdecision.symm.trans hallow))
          · exact inv₁
        have hdeliveredHr : (if a.state = .decided then r₁.deliver a else r₁).Consistent := by
          split
          · exact hcleared.deliver a
          · exact hcleared
        exact hdelivered.calm hdeliveredHr (calm_of_eq rfl rfl rfl rfl)

/-! ## Binding -/

/-- A binding takes a place that is free. -/
theorem Decided.bind (inv : r.Decided issued log) {b : TaskBinding}
    (hfresh : ∀ e, b.executionId = some e → ∀ b' ∈ issued, b'.executionId ≠ some e)
    (hfree : r.bindings.get? b.taskId = none)
    (hbindings : ∀ k, r'.bindings.get? k =
      if b.taskId = k then some b else r.bindings.get? k)
    (hentries : r'.approvals.entries = r.approvals.entries)
    (horigins : r'.approvals.origins = r.approvals.origins) (hsockets : r'.sockets = r.sockets) :
    r'.Decided (issued ++ [b]) log := by
  have hissued := inv.issue hfresh
  refine ⟨?_, hissued.unique, ?_, ?_, ?_, ?_, ?_, ?_, inv.sound, hissued.logged, ?_, ?_⟩
  · intro k b' hk
    rw [hbindings] at hk
    split at hk
    · rw [← Option.some.inj hk]
      simp
    · exact hissued.stored k b' hk
  · intro id a ha
    rw [hentries] at ha
    obtain ⟨b', hb'⟩ := Option.isSome_iff_exists.mp (inv.live id a ha)
    obtain ⟨hk, hmine⟩ := liveBinding_eq_some.mp hb'
    have hne : b.taskId ≠ a.taskId := by
      rintro heq
      rw [← heq, hfree] at hk
      simp at hk
    exact Option.isSome_iff_exists.mpr
      ⟨b', liveBinding_eq_some.mpr ⟨by rw [hbindings, if_neg hne, hk], hmine⟩⟩
  · rw [hentries]
    exact inv.waiting
  · rw [hentries]
    exact inv.pending
  · rw [hentries]
    exact inv.decided
  · rw [hentries]
    exact inv.received
  · intro id
    rw [horigins, hentries]
    exact inv.keyed id
  · intro d hd k b' hk hexec
    rw [hbindings] at hk
    rw [hentries]
    split at hk
    · obtain rfl := Option.some.inj hk
      obtain ⟨b₀, hb₀, hsame⟩ := inv.logged d hd
      exact absurd hsame (hfresh _ hexec b₀ hb₀)
    · exact inv.entry d hd k b' hk hexec
  · rw [hsockets]
    exact inv.permits

theorem Decided.bindTask (inv : r.Decided issued log) (hr : r.Consistent) {b : TaskBinding}
    (hfresh : ∀ e, b.executionId = some e → ∀ b' ∈ issued, b'.executionId ≠ some e) :
    (r.bindTask b).2.Decided (issued ++ [b]) log := by
  unfold Registry.bindTask
  cases hk : r.bindings.get? b.taskId with
  | none =>
      exact inv.bind hfresh hk (fun k => InsertionMap.get?_set _ _ _ _) rfl rfl rfl
  | some existing =>
      simp only
      split
      · exact inv.issue hfresh
      split
      · rename_i heq
        subst heq
        have hsame : ∀ k, (r.bindings.set existing.taskId existing).get? k = r.bindings.get? k := by
          intro k
          rw [InsertionMap.get?_set]
          split
          · rename_i heq
            rw [← heq, hk]
          · rfl
        have hcalm : r.Calm { r with bindings := r.bindings.set existing.taskId existing } :=
          calm_of_lookups hsame rfl rfl rfl
        exact (inv.calm hr hcalm).issue hfresh
      · have htask : existing.taskId = b.taskId := hr.binding_key _ existing hk
        have hstored : r.bindings.get? existing.taskId = some existing := htask ▸ hk
        have hfailed := inv.calm hr
          (calm_failBoundTask r taskSupersededError (unrivaled_of_stored hstored))
        have hshape : r.failBoundTask taskSupersededError existing =
            { (r.clearGraceHold b.taskId (some existing)).failBinding existing
                taskSupersededError with
              bindings := r.bindings.erase b.taskId } := by
          unfold failBoundTask deleteBinding
          rw [htask, if_pos (by simpa using hk)]
          simp
        rw [hshape] at hfailed
        refine hfailed.bind hfresh (by simp) (fun k => ?_) rfl rfl rfl
        simp only [failBinding_bindings, clearGraceHold_bindings]
        rw [InsertionMap.get?_set]
        split
        · rfl
        · rename_i hne
          rw [InsertionMap.get?_erase_of_ne _ hne]

end Registry

end VicoopBridge
