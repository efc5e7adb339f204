import VicoopBridge.Verification.Registry.GraceRuns

/-! # Whose things are whose

Everything the registry keeps under an execution id belongs to the agent of the binding
that runs the execution. -/

namespace VicoopBridge

open Library

/-! ## Approvals -/

namespace ToolApprovals

variable (t : ToolApprovals) (b : TaskBinding)

theorem get?_invalidate_entries (id : String) :
    (t.invalidate b).entries.get? id =
      (t.entries.get? id).filter fun _ => !t.invalidated b id :=
  InsertionMap.get?_filter _ _ _

theorem invalidated_eq_false {id : String} {a : ToolApproval} (h : t.entries.get? id = some a)
    (hb : a.raisedBy b = false) : t.invalidated b id = false := by
  simp [invalidated, h, hb]

theorem request_cases {now : ℕ} {request : ApprovalRequest} {a : ToolApproval}
    {t' : ToolApprovals} (h : t.request now b request = .ok (a, t')) :
    t.entries.get? request.requestId = none ∧ a.request = request ∧ a.agentId = b.agentId ∧
      b.executionId = some a.executionId ∧
      ∃ origin, t' =
        { entries := t.entries.set request.requestId a
          timers := t.timers.set request.requestId (now + 1000)
          origins := t.origins.set request.requestId origin } := by
  unfold ToolApprovals.request at h
  cases hexec : truthy b.executionId with
  | none => simp [hexec] at h
  | some executionId =>
      simp only [hexec] at h
      split at h
      · simp at h
      split at h
      · simp at h
      split at h
      · simp at h
      rename_i hfree
      obtain ⟨rfl, rfl⟩ := Prod.mk.inj (Except.ok.inj h)
      have hnone : t.entries.get? request.requestId = none := by
        simpa [InsertionMap.has] using fun hhas => hfree (.inl hhas)
      refine ⟨hnone, rfl, rfl, ?_, _, rfl⟩
      exact (Option.filter_eq_some_iff.mp hexec).1

theorem received_cases {id : String} {decision : ApprovalDecision} {a' : ToolApproval}
    {t' : ToolApprovals} (h : t.received b id decision = some (a', t')) :
    ∃ a, t.entries.get? id = some a ∧ a.raisedBy b = true ∧ a.agentId = b.agentId ∧
      a' = { a with state := .received, decision := some decision } ∧
      t' = { t with entries := t.entries.set id a', timers := t.timers.erase id } := by
  unfold received at h
  cases hk : t.entries.get? id with
  | none => simp [hk] at h
  | some a =>
      simp only [hk] at h
      split at h
      · simp at h
      split at h
      · simp at h
      split at h
      · simp at h
      rename_i howner _ _
      obtain ⟨rfl, rfl⟩ := Prod.mk.inj (Option.some.inj h)
      simp only [not_or, not_not] at howner
      exact ⟨a, rfl, howner.1, howner.2, rfl, rfl⟩

end ToolApprovals

namespace Registry

/-! ## Consistency -/

/-- Beyond the grace invariant: the maps are keyed by what they hold, and whatever shares
an execution id with a stored binding belongs to the same agent. -/
structure Consistent (r : Registry) : Prop extends r.GraceInvariant where
  agent_key : ∀ agentId conn, r.agents.get? agentId = some conn → conn.agentId = agentId
  agent_ws : ∀ agentId conn agentId' conn', r.agents.get? agentId = some conn →
    r.agents.get? agentId' = some conn' → conn.ws = conn'.ws → agentId = agentId'
  approval_key : ∀ id a, r.approvals.entries.get? id = some a → a.request.requestId = id
  execution_agent : ∀ k b k' b', r.bindings.get? k = some b → r.bindings.get? k' = some b' →
    b.executionId = b'.executionId → b.executionId.isSome → b.agentId = b'.agentId
  approval_agent : ∀ id a k b, r.approvals.entries.get? id = some a → r.bindings.get? k = some b →
    b.executionId = some a.executionId → a.agentId = b.agentId
  receipt_agent : ∀ e receipt k b, r.terminalReceipts.get? e = some receipt →
    r.bindings.get? k = some b → b.executionId = some e → receipt.agentId = b.agentId

/-- `r'` holds nothing that `r` does not hold, up to the progress of an approval. -/
structure Below (r r' : Registry) : Prop where
  agents : ∀ agentId conn, r'.agents.get? agentId = some conn → r.agents.get? agentId = some conn
  bindings : ∀ k b, r'.bindings.get? k = some b → r.bindings.get? k = some b
  approvals : ∀ id a', r'.approvals.entries.get? id = some a' →
    ∃ a, r.approvals.entries.get? id = some a ∧ a'.request = a.request ∧ a'.agentId = a.agentId ∧
      a'.executionId = a.executionId
  receipts : ∀ e receipt, r'.terminalReceipts.get? e = some receipt →
    r.terminalReceipts.get? e = some receipt

theorem Below.refl (r : Registry) : r.Below r :=
  ⟨fun _ _ h => h, fun _ _ h => h, fun _ a h => ⟨a, h, rfl, rfl, rfl⟩, fun _ _ h => h⟩

theorem Below.trans {r r' r'' : Registry} (h : r.Below r') (h' : r'.Below r'') : r.Below r'' where
  agents a conn hc := h.agents a conn (h'.agents a conn hc)
  bindings k b hb := h.bindings k b (h'.bindings k b hb)
  approvals id a'' ha := by
    obtain ⟨a', ha', hreq', hagent', hexec'⟩ := h'.approvals id a'' ha
    obtain ⟨a, ha, hreq, hagent, hexec⟩ := h.approvals id a' ha'
    exact ⟨a, ha, hreq'.trans hreq, hagent'.trans hagent, hexec'.trans hexec⟩
  receipts e receipt hr := h.receipts e receipt (h'.receipts e receipt hr)

theorem Consistent.below {r r' : Registry} (hr : r.Consistent) (h : r.Below r')
    (inv : r'.GraceInvariant) : r'.Consistent where
  toGraceInvariant := inv
  agent_key agentId conn hc := hr.agent_key agentId conn (h.agents agentId conn hc)
  agent_ws agentId conn agentId' conn' hc hc' :=
    hr.agent_ws agentId conn agentId' conn' (h.agents _ _ hc) (h.agents _ _ hc')
  approval_key id a' ha' := by
    obtain ⟨a, ha, hreq, -, -⟩ := h.approvals id a' ha'
    rw [hreq]
    exact hr.approval_key id a ha
  execution_agent k b k' b' hb hb' :=
    hr.execution_agent k b k' b' (h.bindings k b hb) (h.bindings k' b' hb')
  approval_agent id a' k b ha' hb hexec := by
    obtain ⟨a, ha, -, hagent, hsame⟩ := h.approvals id a' ha'
    rw [hagent]
    exact hr.approval_agent id a k b ha (h.bindings k b hb) (hsame ▸ hexec)
  receipt_agent e receipt k b he hb :=
    hr.receipt_agent e receipt k b (h.receipts e receipt he) (h.bindings k b hb)

/-! ## Operations that only remove -/

theorem below_of_eq {r r' : Registry} (ha : r'.agents = r.agents) (hb : r'.bindings = r.bindings)
    (hp : r'.approvals = r.approvals) (ht : r'.terminalReceipts = r.terminalReceipts) :
    r.Below r' where
  agents := by rw [ha]; exact fun _ _ h => h
  bindings := by rw [hb]; exact fun _ _ h => h
  approvals := by rw [hp]; exact fun _ a h => ⟨a, h, rfl, rfl, rfl⟩
  receipts := by rw [ht]; exact fun _ _ h => h

theorem below_invalidate (r : Registry) (b : TaskBinding) :
    r.Below { r with approvals := r.approvals.invalidate b } where
  agents _ _ h := h
  bindings _ _ h := h
  approvals id a h := by
    rw [ToolApprovals.get?_invalidate_entries] at h
    exact ⟨a, (Option.filter_eq_some_iff.mp h).1, rfl, rfl, rfl⟩
  receipts _ _ h := h

theorem below_eraseBinding (r : Registry) (k : String) :
    r.Below { r with bindings := r.bindings.erase k } where
  agents _ _ h := h
  bindings k' b h := by
    rw [InsertionMap.get?_erase] at h
    split at h
    · simp at h
    · exact h
  approvals _ a h := ⟨a, h, rfl, rfl, rfl⟩
  receipts _ _ h := h

theorem below_respects : Respects Below where
  refl := .refl
  trans h h' := h.trans h'
  hold _ _ _ _ := below_of_eq rfl rfl rfl rfl
  invalidate := below_invalidate
  fail r b _ := (below_invalidate r b).trans (below_of_eq rfl rfl rfl rfl)
  erase := below_eraseBinding
  close _ _ _ _ := below_of_eq rfl rfl rfl rfl
  note _ _ := below_of_eq rfl rfl rfl rfl

theorem below_unregisterAgent (r : Registry) (now : ℕ) (agentId : String) (ws : WsId)
    (closeCode : Option ℕ) : r.Below (r.unregisterAgent now agentId ws closeCode) := by
  refine below_respects.unregisterAgent r (fun r agentId => ?_) now agentId ws closeCode
  refine ⟨?_, fun _ _ h => h, fun _ a h => ⟨a, h, rfl, rfl, rfl⟩, fun _ _ h => h⟩
  intro agentId' conn h
  rw [InsertionMap.get?_erase] at h
  split at h
  · cases h
  · exact h

/-- An agent whose registered connection went away is offline. -/
theorem unregisterAgent_gone (r : Registry) (now : ℕ) {agentId : String} {ws : WsId}
    (hws : ∀ conn, r.agents.get? agentId = some conn → conn.ws = ws) (closeCode : Option ℕ)
    (conn : ClientConnection) :
    (r.unregisterAgent now agentId ws closeCode).agents.get? agentId ≠ some conn := by
  unfold unregisterAgent
  cases hk : r.agents.get? agentId with
  | none => simp [hk]
  | some existing =>
      simp only
      rw [if_neg (not_not.mpr (hws existing hk))]
      split
      · intro h
        simpa using (below_respects.holdBindingsForAgent _ _ _ _).agents _ _ h
      · intro h
        simpa using (below_respects.failBindingsForAgent _ _ _).agents _ _ h

theorem below_pruneTerminalReceipts (r : Registry) (now : ℕ) :
    r.Below (r.pruneTerminalReceipts now) where
  agents _ _ h := h
  bindings _ _ h := h
  approvals _ a h := ⟨a, h, rfl, rfl, rfl⟩
  receipts e receipt h := by
    rw [pruneTerminalReceipts, InsertionMap.get?_filter] at h
    exact (Option.filter_eq_some_iff.mp h).1

theorem below_sendToAgent (r : Registry) (agentId : String) (frame : DownFrame) :
    r.Below (r.sendToAgent agentId frame).2 := by
  unfold sendToAgent
  split
  · exact .refl r
  · exact below_of_eq rfl rfl rfl rfl

/-! ## What the other operations keep -/

namespace Consistent

variable {r : Registry} (hr : r.Consistent)

include hr

/-- The invariant does not read cells, sockets or the record of condemned sockets. -/
theorem of_core {r' : Registry} (h : r.Below r') (hs : r.SameTasks r') : r'.Consistent :=
  hr.below h (hr.toGraceInvariant.congr hs.bindings hs.graceHolds hs.timers hs.nextTimer)

theorem modifyCell (b : TaskBinding) (f : BindingCell → BindingCell) :
    (r.modifyCell b f).Consistent :=
  hr.below (below_of_eq rfl rfl rfl rfl) (hr.toGraceInvariant.congr rfl rfl rfl rfl)

theorem modifySocket (ws : WsId) (f : Socket → Socket) : (r.modifySocket ws f).Consistent :=
  hr.below (below_of_eq rfl rfl rfl rfl) (hr.toGraceInvariant.congr rfl rfl rfl rfl)

theorem sendToAgent (agentId : String) (frame : DownFrame) :
    (r.sendToAgent agentId frame).2.Consistent := by
  unfold Registry.sendToAgent
  split
  · exact hr
  · exact hr.modifySocket _ _

theorem failTaskBinding (b : TaskBinding) (code message : String) :
    (r.failTaskBinding b code message).Consistent :=
  hr.below (below_respects.failTaskBinding r b code message)
    (hr.toGraceInvariant.graceStep_failTaskBinding b code message).invariant

theorem unbindTask (taskId : String) (b : TaskBinding) : (r.unbindTask taskId b).Consistent :=
  hr.below (below_respects.unbindTask r taskId b)
    (hr.toGraceInvariant.graceStep_unbindTask taskId b).invariant

theorem resumeBinding (taskId agentId : String) : (r.resumeBinding taskId agentId).Consistent :=
  hr.below (below_respects.resumeBinding r taskId agentId)
    (hr.toGraceInvariant.graceStep_resumeBinding taskId agentId).invariant

theorem pruneTerminalReceipts (now : ℕ) : (r.pruneTerminalReceipts now).Consistent :=
  hr.below (below_pruneTerminalReceipts r now) (hr.toGraceInvariant.congr rfl rfl rfl rfl)

theorem expireGraceTimer {timer : GraceTimer} (h : timer ∈ r.timers) :
    (r.expireGraceTimer timer).Consistent := by
  rw [hr.toGraceInvariant.expireGraceTimer_eq h]
  exact hr.below (below_respects.failBoundTask r _ _) (hr.toGraceInvariant.failBoundTask _ _)

theorem unregisterAgent (now : ℕ) (agentId : String) (ws : WsId) (closeCode : Option ℕ) :
    (r.unregisterAgent now agentId ws closeCode).Consistent :=
  hr.below (below_unregisterAgent r now agentId ws closeCode)
    (hr.toGraceInvariant.graceStep_unregisterAgent now agentId ws closeCode).invariant

/-- A receipt is kept for the agent whose binding just ended. -/
theorem rememberTerminalReceipt (now : ℕ) {k : String} {b : TaskBinding} (acceptedSeq : ℕ)
    (hstored : r.bindings.get? k = some b) :
    (r.rememberTerminalReceipt now b acceptedSeq).Consistent := by
  unfold Registry.rememberTerminalReceipt
  cases hexec : truthy b.executionId with
  | none => exact hr
  | some executionId =>
      have hb : b.executionId = some executionId := (Option.filter_eq_some_iff.mp hexec).1
      have hp := hr.pruneTerminalReceipts now
      refine ⟨hp.toGraceInvariant.congr rfl rfl rfl rfl, hp.agent_key, hp.agent_ws, hp.approval_key,
        hp.execution_agent, hp.approval_agent, ?_⟩
      intro e receipt k' b' he hb' hexec'
      have hset := InsertionMap.get?_of_get?_trimOldest he
      rw [InsertionMap.get?_set] at hset
      split at hset
      · rename_i heq
        obtain rfl := Option.some.inj hset
        refine hr.execution_agent k b k' b' hstored hb' ?_ (by simp [hb])
        rw [hb, hexec', heq]
      · exact hp.receipt_agent e receipt k' b' hset hb' hexec'

theorem approvalRequest {now : ℕ} {k : String} {b : TaskBinding} {request : ApprovalRequest}
    {a : ToolApproval} {approvals : ToolApprovals} (hstored : r.bindings.get? k = some b)
    (h : r.approvals.request now b request = .ok (a, approvals)) :
    { r with approvals := approvals }.Consistent := by
  obtain ⟨-, hreq, hagent, hexec, origin, rfl⟩ := r.approvals.request_cases b h
  refine ⟨hr.toGraceInvariant.congr rfl rfl rfl rfl, hr.agent_key, hr.agent_ws, ?_,
    hr.execution_agent, ?_, hr.receipt_agent⟩
  · intro id a' ha'
    rw [InsertionMap.get?_set] at ha'
    split at ha'
    · rename_i heq
      obtain rfl := Option.some.inj ha'
      rw [hreq, heq]
    · exact hr.approval_key id a' ha'
  · intro id a' k' b' ha' hb' hexec'
    rw [InsertionMap.get?_set] at ha'
    split at ha'
    · obtain rfl := Option.some.inj ha'
      rw [hagent]
      refine hr.execution_agent k b k' b' hstored hb' ?_ (by simp [hexec])
      rw [hexec, hexec']
    · exact hr.approval_agent id a' k' b' ha' hb' hexec'

theorem setEntry {id : String} {a a' : ToolApproval} (h : r.approvals.entries.get? id = some a)
    (hreq : a'.request = a.request) (hagent : a'.agentId = a.agentId)
    (hexec : a'.executionId = a.executionId) (timers : InsertionMap String ℕ) :
    { r with approvals :=
        { r.approvals with entries := r.approvals.entries.set id a', timers := timers } }.Consistent := by
  refine hr.below ⟨fun _ _ h => h, fun _ _ h => h, ?_, fun _ _ h => h⟩
    (hr.toGraceInvariant.congr rfl rfl rfl rfl)
  intro id' a'' ha''
  rw [InsertionMap.get?_set] at ha''
  split at ha''
  · rename_i heq
    subst heq
    obtain rfl := Option.some.inj ha''
    exact ⟨a, h, hreq, hagent, hexec⟩
  · exact ⟨a'', ha'', rfl, rfl, rfl⟩

theorem approvalReceived {b : TaskBinding} {id : String} {decision : ApprovalDecision}
    {a : ToolApproval} {approvals : ToolApprovals}
    (h : r.approvals.received b id decision = some (a, approvals)) :
    { r with approvals := approvals }.Consistent := by
  obtain ⟨a₀, hentry, -, -, ha, rfl⟩ := r.approvals.received_cases b h
  exact hr.setEntry hentry (by rw [ha]) (by rw [ha]) (by rw [ha]) _

theorem clearApproval (id : String) :
    { r with approvals := r.approvals.clear id }.Consistent :=
  hr.below ⟨fun _ _ h => h, fun _ _ h => h, fun _ a h => ⟨a, h, rfl, rfl, rfl⟩, fun _ _ h => h⟩
    (hr.toGraceInvariant.congr rfl rfl rfl rfl)

theorem setApproval {id : String} {a : ToolApproval} (a' : ToolApproval)
    (h : r.approvals.entries.get? id = some a) (hreq : a'.request = a.request)
    (hagent : a'.agentId = a.agentId) (hexec : a'.executionId = a.executionId) :
    (r.setApproval a').Consistent := by
  have hid : a'.request.requestId = id := by rw [hreq]; exact hr.approval_key id a h
  unfold Registry.setApproval
  rw [hid]
  exact hr.setEntry h hreq hagent hexec _

theorem deliver (a : ToolApproval) : (r.deliver a).Consistent := by
  unfold Registry.deliver
  split
  · exact hr.sendToAgent _ _
  · exact hr

theorem decide (now : ℕ) (id : String) (decision : ApprovalDecision) (principal : String)
    (via : ApprovalAuthority) : (r.decide now id decision principal via).2.Consistent := by
  unfold Registry.decide
  cases hk : r.approvals.entries.get? id with
  | none => exact hr
  | some a =>
      simp only
      split
      · exact hr
      split
      · split <;> exact hr
      · exact (hr.setApproval { a with state := .decided, decision := some decision
                                       decidedBy := some principal, decidedVia := some via }
          hk rfl rfl rfl).deliver _

theorem approvalTick (now : ℕ) (id : String) : (r.approvalTick now id).Consistent := by
  have hclear := hr.clearApproval id
  unfold Registry.approvalTick
  generalize { r with approvals := r.approvals.clear id } = r₁ at hclear
  simp only
  cases hk : r₁.approvals.entries.get? id with
  | none => exact hclear
  | some a =>
      simp only
      split
      · refine hclear.below ⟨fun _ _ h => h, fun _ _ h => h, ?_, fun _ _ h => h⟩
          (hclear.toGraceInvariant.congr rfl rfl rfl rfl)
        intro id' a' h
        rw [InsertionMap.get?_erase] at h
        split at h
        · simp at h
        · exact ⟨a', h, rfl, rfl, rfl⟩
      split
      · exact hclear
      split
      · have hset := (hclear.setApproval { a with state := .expired, decision := some .deny }
          hk rfl rfl rfl).deliver { a with state := .expired, decision := some .deny }
        split
        · exact hset
        · exact (hset.sendToAgent _ _).failTaskBinding _ _ _
      · have hdelivered : (if a.state = .decided then r₁.deliver a else r₁).Consistent := by
          split
          · exact hclear.deliver a
          · exact hclear
        exact hdelivered.below ⟨fun _ _ h => h, fun _ _ h => h,
          fun _ a h => ⟨a, h, rfl, rfl, rfl⟩, fun _ _ h => h⟩
          (hdelivered.toGraceInvariant.congr rfl rfl rfl rfl)

/-- A new connection of an agent, on a socket no agent is connected through. -/
theorem registerAgent (now : ℕ) {conn : ClientConnection}
    (hfresh : ∀ agentId conn', r.agents.get? agentId = some conn' → conn'.ws ≠ conn.ws)
    {r' : Registry} (h : r.registerAgent now conn = .ok r') : r'.Consistent := by
  have inv' := (hr.toGraceInvariant.graceStep_registerAgent now conn h).invariant
  have hshape : ∃ r₁, r₁.Consistent ∧ r.Below r₁ ∧
      r' = { r₁ with agents := r₁.agents.set conn.agentId conn } := by
    unfold Registry.registerAgent at h
    cases hk : r.agents.get? conn.agentId with
    | none =>
        rw [hk] at h
        exact ⟨r, hr, .refl r, (Except.ok.inj h).symm⟩
    | some existing =>
        rw [hk] at h
        simp only at h
        split at h
        · refine ⟨r.displaceConnection now conn.agentId existing, ?_, ?_, (Except.ok.inj h).symm⟩
          · refine hr.below ?_
              (hr.toGraceInvariant.graceStep_displaceConnection now _ existing).invariant
            exact below_respects.displaceConnection r now _ existing
          · exact below_respects.displaceConnection r now _ existing
        · simp at h
  obtain ⟨r₁, hr₁, hbelow, rfl⟩ := hshape
  replace hfresh : ∀ agentId conn', r₁.agents.get? agentId = some conn' → conn'.ws ≠ conn.ws :=
    fun agentId conn' hc => hfresh agentId conn' (hbelow.agents agentId conn' hc)
  refine ⟨inv', ?_, ?_, hr₁.approval_key, hr₁.execution_agent, hr₁.approval_agent,
    hr₁.receipt_agent⟩
  · intro agentId conn' hc
    rw [InsertionMap.get?_set] at hc
    split at hc
    · rename_i heq
      obtain rfl := Option.some.inj hc
      exact heq
    · exact hr₁.agent_key agentId conn' hc
  · intro agentId conn₁ agentId' conn₂ hc₁ hc₂ hws
    rw [InsertionMap.get?_set] at hc₁ hc₂
    split at hc₁
    · rename_i heq₁
      obtain rfl := Option.some.inj hc₁
      split at hc₂
      · rename_i heq₂
        exact heq₁.symm.trans heq₂
      · exact absurd hws.symm (hfresh agentId' conn₂ hc₂)
    · split at hc₂
      · obtain rfl := Option.some.inj hc₂
        exact absurd hws (hfresh agentId conn₁ hc₁)
      · exact hr₁.agent_ws agentId conn₁ agentId' conn₂ hc₁ hc₂ hws

end Consistent

/-- Nothing in the registry carries the execution id the binding was given. -/
def FreshExecution (r : Registry) (b : TaskBinding) : Prop :=
  ∀ e, b.executionId = some e →
    (∀ k b', r.bindings.get? k = some b' → b'.executionId ≠ some e) ∧
      (∀ id a, r.approvals.entries.get? id = some a → a.executionId ≠ e) ∧
      r.terminalReceipts.get? e = none

instance (r : Registry) (b : TaskBinding) : Decidable (r.FreshExecution b) :=
  decidable_of_iff (∀ e ∈ b.executionId,
    (∀ p ∈ r.bindings.entries, p.2.executionId ≠ some e) ∧
      (∀ p ∈ r.approvals.entries.entries, p.2.executionId ≠ e) ∧
      r.terminalReceipts.get? e = none) (by
    simp only [FreshExecution, Option.mem_def, Prod.forall, InsertionMap.mem_entries_iff])

theorem FreshExecution.below {r r' : Registry} {b : TaskBinding} (h : r.FreshExecution b)
    (hb : r.Below r') : r'.FreshExecution b := by
  intro e he
  obtain ⟨hbindings, happrovals, hreceipts⟩ := h e he
  refine ⟨fun k b' hk => hbindings k b' (hb.bindings k b' hk), ?_, ?_⟩
  · intro id a' ha'
    obtain ⟨a, ha, -, -, hexec⟩ := hb.approvals id a' ha'
    rw [hexec]
    exact happrovals id a ha
  · cases hk : r'.terminalReceipts.get? e with
    | none => rfl
    | some receipt => exact absurd (hb.receipts e receipt hk) (by simp [hreceipts])

theorem Consistent.setBinding {r : Registry} (hr : r.Consistent) {b : TaskBinding}
    (hfresh : r.FreshExecution b)
    (inv : { r with bindings := r.bindings.set b.taskId b }.GraceInvariant) :
    { r with bindings := r.bindings.set b.taskId b }.Consistent := by
  refine ⟨inv, hr.agent_key, hr.agent_ws, hr.approval_key, ?_, ?_, ?_⟩
  · intro k b₁ k' b₂ hb₁ hb₂ hexec hsome
    obtain ⟨e, he⟩ := Option.isSome_iff_exists.mp hsome
    rw [InsertionMap.get?_set] at hb₁ hb₂
    split at hb₁
    · obtain rfl := Option.some.inj hb₁
      split at hb₂
      · rw [Option.some.inj hb₂]
      · exact absurd (hexec.symm.trans he) ((hfresh e he).1 k' b₂ hb₂)
    · split at hb₂
      · obtain rfl := Option.some.inj hb₂
        exact absurd he ((hfresh e (hexec.symm.trans he)).1 k b₁ hb₁)
      · exact hr.execution_agent k b₁ k' b₂ hb₁ hb₂ hexec hsome
  · intro id a k b' ha hb' hexec
    rw [InsertionMap.get?_set] at hb'
    split at hb'
    · obtain rfl := Option.some.inj hb'
      exact absurd rfl ((hfresh _ hexec).2.1 id a ha)
    · exact hr.approval_agent id a k b' ha hb' hexec
  · intro e receipt k b' he hb' hexec
    rw [InsertionMap.get?_set] at hb'
    split at hb'
    · obtain rfl := Option.some.inj hb'
      exact absurd (he.symm.trans (hfresh e hexec).2.2) (by simp)
    · exact hr.receipt_agent e receipt k b' he hb' hexec

theorem Consistent.bindTask {r : Registry} (hr : r.Consistent) {b : TaskBinding}
    (hfresh : r.FreshExecution b) : (r.bindTask b).2.Consistent := by
  have inv' := (hr.toGraceInvariant.graceStep_bindTask b).invariant
  unfold Registry.bindTask at inv' ⊢
  cases hk : r.bindings.get? b.taskId with
  | none =>
      rw [hk] at inv'
      exact hr.setBinding hfresh inv'
  | some existing =>
      rw [hk] at inv'
      simp only at inv' ⊢
      split at inv'
      · rename_i hagent
        rw [if_pos hagent]
        exact hr
      · rename_i hagent
        rw [if_neg hagent]
        split at inv'
        · rename_i hsame
          rw [if_pos hsame]
          exact hr.setBinding hfresh inv'
        · rename_i hsame
          rw [if_neg hsame]
          have hbelow := (below_respects.clearGraceHold r b.taskId (some existing)).trans
            (below_respects.fail _ existing taskSupersededError)
          have hcleared := (hr.toGraceInvariant.clearGraceHold b.taskId (some existing)).failBinding
            existing taskSupersededError
          exact (hr.below hbelow hcleared).setBinding (hfresh.below hbelow) inv'

end Registry

end VicoopBridge
