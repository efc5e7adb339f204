import VicoopBridge.Model.Registry

/-! # What the registry's operations leave alone

Frame lemmas for the primitive operations, and the one shape every operation that ends a
binding has: it is `failBoundTask` on that binding. -/

namespace VicoopBridge

open Library

namespace Registry

variable (r : Registry) (b : TaskBinding)

/-! ## Cells and sockets -/

theorem modifyCell_cells_of_ne {b b' : TaskBinding} (f : BindingCell → BindingCell) (h : b' ≠ b) :
    (r.modifyCell b f).cells b' = r.cells b' :=
  Function.update_of_ne h _ _

@[simp] theorem modifyCell_cells_self (f : BindingCell → BindingCell) :
    (r.modifyCell b f).cells b = f (r.cells b) :=
  Function.update_self b _ _

@[simp] theorem modifyCell_bindings (f : BindingCell → BindingCell) :
    (r.modifyCell b f).bindings = r.bindings := rfl

@[simp] theorem modifyCell_graceHolds (f : BindingCell → BindingCell) :
    (r.modifyCell b f).graceHolds = r.graceHolds := rfl

@[simp] theorem modifyCell_timers (f : BindingCell → BindingCell) :
    (r.modifyCell b f).timers = r.timers := rfl

@[simp] theorem modifySocket_bindings (ws : WsId) (f : Socket → Socket) :
    (r.modifySocket ws f).bindings = r.bindings := rfl

@[simp] theorem modifySocket_graceHolds (ws : WsId) (f : Socket → Socket) :
    (r.modifySocket ws f).graceHolds = r.graceHolds := rfl

@[simp] theorem modifySocket_timers (ws : WsId) (f : Socket → Socket) :
    (r.modifySocket ws f).timers = r.timers := rfl

/-! ## Failing a binding -/

variable (error : TerminalError)

@[simp] theorem failBinding_bindings : (r.failBinding b error).bindings = r.bindings := rfl

@[simp] theorem failBinding_graceHolds : (r.failBinding b error).graceHolds = r.graceHolds := rfl

@[simp] theorem failBinding_timers : (r.failBinding b error).timers = r.timers := rfl

@[simp] theorem failBinding_nextTimer : (r.failBinding b error).nextTimer = r.nextTimer := rfl

@[simp] theorem failBinding_agents : (r.failBinding b error).agents = r.agents := rfl

@[simp] theorem failBinding_disconnectGraceMs :
    (r.failBinding b error).disconnectGraceMs = r.disconnectGraceMs := rfl

theorem failBinding_cells_of_ne {b b' : TaskBinding} (h : b' ≠ b) :
    (r.failBinding b error).cells b' = r.cells b' := by
  simp only [failBinding, finish, pushStatus]
  rw [modifyCell_cells_of_ne _ _ h, modifyCell_cells_of_ne _ _ h]

/-- The sink of a failed binding gets the failure and is closed; nothing else of the
binding changes. -/
theorem failBinding_cells_self :
    (r.failBinding b error).cells b =
      { r.cells b with
        queue := ((r.cells b).queue.push (.status (failureEvent b error))).end } := by
  simp [failBinding, finish, pushStatus]

/-! ## Clearing a hold -/

section ClearGraceHold

variable (k : String) (binding : Option TaskBinding)

/-- Only the holds and the timers change. -/
theorem clearGraceHold_frame :
    ∃ timers graceHolds, r.clearGraceHold k binding =
      { r with timers := timers, graceHolds := graceHolds } := by
  unfold clearGraceHold
  cases r.graceHolds.get? k with
  | none => exact ⟨r.timers, r.graceHolds, rfl⟩
  | some hold =>
      by_cases hb : binding.isSome ∧ binding ≠ some hold.binding
      · exact ⟨r.timers, r.graceHolds, by simp only [if_pos hb]⟩
      · exact ⟨_, _, by simp only [if_neg hb]; rfl⟩

@[simp] theorem clearGraceHold_bindings : (r.clearGraceHold k binding).bindings = r.bindings := by
  obtain ⟨_, _, h⟩ := clearGraceHold_frame r k binding
  rw [h]

@[simp] theorem clearGraceHold_cells : (r.clearGraceHold k binding).cells = r.cells := by
  obtain ⟨_, _, h⟩ := clearGraceHold_frame r k binding
  rw [h]

@[simp] theorem clearGraceHold_agents : (r.clearGraceHold k binding).agents = r.agents := by
  obtain ⟨_, _, h⟩ := clearGraceHold_frame r k binding
  rw [h]

@[simp] theorem clearGraceHold_nextTimer :
    (r.clearGraceHold k binding).nextTimer = r.nextTimer := by
  obtain ⟨_, _, h⟩ := clearGraceHold_frame r k binding
  rw [h]

@[simp] theorem clearGraceHold_disconnectGraceMs :
    (r.clearGraceHold k binding).disconnectGraceMs = r.disconnectGraceMs := by
  obtain ⟨_, _, h⟩ := clearGraceHold_frame r k binding
  rw [h]

/-- A cleared hold goes together with its timer; otherwise nothing happens. -/
theorem clearGraceHold_cases :
    r.clearGraceHold k binding = r ∨
      ∃ hold, r.graceHolds.get? k = some hold ∧ (binding = none ∨ binding = some hold.binding) ∧
        r.clearGraceHold k binding =
          { r.clearTimeout hold.timer with graceHolds := r.graceHolds.erase k } := by
  unfold clearGraceHold
  cases hk : r.graceHolds.get? k with
  | none => exact .inl rfl
  | some hold =>
      by_cases hb : binding.isSome ∧ binding ≠ some hold.binding
      · exact .inl (by simp only [if_pos hb])
      · refine .inr ⟨hold, rfl, ?_, by simp only [if_neg hb]⟩
        cases binding with
        | none => exact .inl rfl
        | some b => exact .inr (by simpa using hb)

end ClearGraceHold

/-! ## Removing a binding -/

theorem deleteBinding_cases :
    (r.bindings.get? b.taskId ≠ some b ∧ r.deleteBinding b = r) ∨
      (r.bindings.get? b.taskId = some b ∧
        r.deleteBinding b = { r with bindings := r.bindings.erase b.taskId }) := by
  unfold deleteBinding
  by_cases h : r.bindings.get? b.taskId = some b
  · exact .inr ⟨h, if_pos h⟩
  · exact .inl ⟨h, if_neg h⟩

@[simp] theorem deleteBinding_cells : (r.deleteBinding b).cells = r.cells := by
  unfold deleteBinding
  split <;> rfl

@[simp] theorem deleteBinding_agents : (r.deleteBinding b).agents = r.agents := by
  unfold deleteBinding
  split <;> rfl

@[simp] theorem deleteBinding_graceHolds : (r.deleteBinding b).graceHolds = r.graceHolds := by
  unfold deleteBinding
  split <;> rfl

@[simp] theorem deleteBinding_timers : (r.deleteBinding b).timers = r.timers := by
  unfold deleteBinding
  split <;> rfl

theorem deleteBinding_bindings_of_ne {k : String} (h : k ≠ b.taskId) :
    (r.deleteBinding b).bindings.get? k = r.bindings.get? k := by
  unfold deleteBinding
  split
  · exact InsertionMap.get?_erase_of_ne _ (Ne.symm h)
  · rfl

theorem deleteBinding_not_stored : (r.deleteBinding b).bindings.get? b.taskId ≠ some b := by
  unfold deleteBinding
  split
  · simp
  · assumption

/-! ## Failing a bound task -/

/-- Every deliberate failure of a stored binding is one operation. -/
theorem failTaskBinding_eq (code message : String) :
    r.failTaskBinding b code message =
      if r.bindings.get? b.taskId = some b then r.failBoundTask ⟨code, message, code⟩ b else r := by
  unfold failTaskBinding
  by_cases h : r.bindings.get? b.taskId = some b
  · simp [h, failBoundTask, deleteBinding]
  · simp [h]

theorem failBoundTask_cells_of_ne {b b' : TaskBinding} (h : b' ≠ b) :
    (r.failBoundTask error b).cells b' = r.cells b' := by
  simp only [failBoundTask, deleteBinding_cells]
  rw [failBinding_cells_of_ne _ _ h, clearGraceHold_cells]

theorem failBoundTask_cells_self :
    (r.failBoundTask error b).cells b =
      { r.cells b with
        queue := ((r.cells b).queue.push (.status (failureEvent b error))).end } := by
  simp only [failBoundTask, deleteBinding_cells]
  rw [failBinding_cells_self, clearGraceHold_cells]

theorem failBoundTask_not_stored :
    (r.failBoundTask error b).bindings.get? b.taskId ≠ some b :=
  deleteBinding_not_stored _ _

theorem failBoundTask_bindings_of_ne {k : String} (h : k ≠ b.taskId) :
    (r.failBoundTask error b).bindings.get? k = r.bindings.get? k := by
  rw [failBoundTask, deleteBinding_bindings_of_ne _ _ h]
  simp

@[simp] theorem failBoundTask_agents : (r.failBoundTask error b).agents = r.agents := by
  simp [failBoundTask]

/-! ## Relations that hold across the operations -/

/-- A relation between the registry before and after, kept by the writes that end and hold
bindings and close sockets. -/
structure Respects (R : Registry → Registry → Prop) : Prop where
  refl : ∀ r, R r r
  trans : ∀ {r r' r''}, R r r' → R r' r'' → R r r''
  hold : ∀ r timers nextTimer graceHolds, R r { r with timers, nextTimer, graceHolds }
  invalidate : ∀ r b, R r { r with approvals := r.approvals.invalidate b }
  fail : ∀ r b error, R r (r.failBinding b error)
  erase : ∀ r k, R r { r with bindings := r.bindings.erase k }
  close : ∀ r ws code reason, R r (r.modifySocket ws (Socket.close · code reason))
  note : ∀ r ws, R r (r.noteServerClose ws)

/-- The relation is kept by what approvals write and send, too. -/
structure RespectsApprovals (R : Registry → Registry → Prop) : Prop extends Respects R where
  approvals : ∀ r approvals, R r { r with approvals }
  resolve : ∀ r ws taskId executionId id decision,
    R r (r.modifySocket ws (Socket.send · (.approvalResolve taskId executionId id decision)))
  cancel : ∀ r ws taskId executionId,
    R r (r.modifySocket ws (Socket.send · (.taskCancel taskId executionId)))

section Respects

variable {R : Registry → Registry → Prop} (h : Respects R) (r : Registry)

include h

theorem Respects.clearGraceHold (k : String) (binding : Option TaskBinding) :
    R r (r.clearGraceHold k binding) := by
  obtain ⟨timers, graceHolds, heq⟩ := clearGraceHold_frame r k binding
  rw [heq]
  exact h.hold r timers r.nextTimer graceHolds

theorem Respects.deleteBinding (b : TaskBinding) : R r (r.deleteBinding b) := by
  unfold Registry.deleteBinding
  split
  · exact h.erase r b.taskId
  · exact h.refl r

theorem Respects.failBoundTask (error : TerminalError) (b : TaskBinding) :
    R r (r.failBoundTask error b) :=
  h.trans (h.trans (h.clearGraceHold r _ _) (h.fail _ b error)) (h.deleteBinding _ b)

theorem Respects.failTaskBinding (b : TaskBinding) (code message : String) :
    R r (r.failTaskBinding b code message) := by
  rw [failTaskBinding_eq]
  split
  · exact h.failBoundTask r _ b
  · exact h.refl r

theorem Respects.failBindingsForAgent (agentId : String) (error : TerminalError) :
    R r (r.failBindingsForAgent agentId error) :=
  List.foldlRecOn (motive := R r) _ _ (h.refl r)
    fun _ hr b _ => h.trans hr (h.failBoundTask _ error b)

theorem Respects.holdBindingsForAgent (now : ℕ) (agentId : String) (error : TerminalError) :
    R r (r.holdBindingsForAgent now agentId error) := by
  unfold Registry.holdBindingsForAgent
  split
  · exact h.failBindingsForAgent r agentId error
  · refine List.foldlRecOn (motive := R r) _ _ (h.refl r) fun r' hr b _ => h.trans hr ?_
    unfold holdBinding
    split
    · exact h.refl r'
    · exact h.hold r' _ _ _

theorem Respects.unbindTask (taskId : String) (b : TaskBinding) : R r (r.unbindTask taskId b) := by
  unfold Registry.unbindTask
  dsimp only
  split
  · exact h.invalidate r b
  · exact h.trans (h.trans (h.invalidate r b) (h.clearGraceHold _ taskId (some b))) (h.erase _ taskId)

theorem Respects.resumeBinding (taskId agentId : String) : R r (r.resumeBinding taskId agentId) := by
  unfold Registry.resumeBinding
  repeat' split
  all_goals first | exact h.refl r | exact h.hold r _ r.nextTimer _

theorem Respects.expireGraceTimer (timer : GraceTimer) : R r (r.expireGraceTimer timer) := by
  have hfired := h.hold r (r.clearTimeout timer.id).timers r.nextTimer
    (r.graceHolds.erase timer.binding.taskId)
  unfold Registry.expireGraceTimer
  dsimp only
  split
  · exact hfired
  · exact h.trans (h.trans hfired (h.fail _ timer.binding timer.terminalError)) (h.erase _ _)

theorem Respects.displaceConnection (now : ℕ) (agentId : String) (existing : ClientConnection) :
    R r (r.displaceConnection now agentId existing) := by
  unfold Registry.displaceConnection
  dsimp only
  refine h.trans (h.close r existing.ws 4009 "another client with the same token connected") ?_
  repeat' split
  · exact h.failBindingsForAgent _ _ _
  · exact h.holdBindingsForAgent _ _ _ _
  · exact h.failBindingsForAgent _ _ _

theorem Respects.registerAgent (hset : ∀ r agents, R r { r with agents }) {now : ℕ}
    {conn : ClientConnection} {r' : Registry} (hr : r.registerAgent now conn = .ok r') : R r r' := by
  unfold Registry.registerAgent at hr
  split at hr
  · split at hr
    · obtain rfl := Except.ok.inj hr
      exact h.trans (h.displaceConnection r now _ _) (hset _ _)
    · cases hr
  · obtain rfl := Except.ok.inj hr
    exact hset _ _

theorem Respects.unregisterAgent
    (herase : ∀ r agentId, R r { r with agents := r.agents.erase agentId }) (now : ℕ)
    (agentId : String) (ws : WsId) (closeCode : Option ℕ) :
    R r (r.unregisterAgent now agentId ws closeCode) := by
  unfold Registry.unregisterAgent
  split
  · exact h.refl r
  dsimp only
  split
  · exact h.refl r
  refine h.trans (herase r agentId) ?_
  split
  · exact h.holdBindingsForAgent _ _ _ _
  · exact h.failBindingsForAgent _ _ _

theorem Respects.disconnectClient (clientId : String) : R r (r.disconnectClient clientId).2 :=
  List.foldlRecOn (motive := R r) _ _ (h.refl r) fun r' hr conn _ =>
    h.trans (h.trans hr (h.note r' conn.ws)) (h.close _ conn.ws 4014 "client deleted")

omit h

variable (ha : RespectsApprovals R)

include ha

theorem RespectsApprovals.deliver (a : ToolApproval) : R r (r.deliver a) := by
  unfold Registry.deliver sendToAgent
  repeat' split
  all_goals first | exact ha.refl r | exact ha.resolve r _ _ _ _ _

theorem RespectsApprovals.decide (now : ℕ) (id : String) (decision : ApprovalDecision)
    (principal : String) (via : ApprovalAuthority) :
    R r (r.decide now id decision principal via).2 := by
  unfold Registry.decide
  repeat' split
  all_goals first
    | exact ha.refl r
    | exact ha.trans (ha.approvals r _) (ha.deliver _ _)

theorem RespectsApprovals.approvalTick (now : ℕ) (id : String) : R r (r.approvalTick now id) := by
  have hcancel (r : Registry) (agentId taskId : String) (executionId : Option String) :
      R r (r.sendToAgent agentId (.taskCancel taskId executionId)).2 := by
    unfold sendToAgent
    split
    · exact ha.refl r
    · exact ha.cancel r _ _ _
  unfold Registry.approvalTick
  dsimp only
  refine ha.trans (ha.approvals r (r.approvals.clear id)) ?_
  split
  · exact ha.refl _
  split
  · exact ha.approvals _ _
  split
  · exact ha.refl _
  split
  · split
    · exact ha.trans (ha.approvals _ _) (ha.deliver _ _)
    · exact ha.trans (ha.trans (ha.trans (ha.approvals _ _) (ha.deliver _ _)) (hcancel _ _ _ _))
        (ha.failTaskBinding _ _ _ _)
  · refine ha.trans ?_ (ha.approvals _ _)
    split
    · exact ha.deliver _ _
    · exact ha.refl _

end Respects

/-! ## Operations that leave the connections alone -/

theorem respects_agents : RespectsApprovals fun r r' => r'.agents = r.agents where
  refl _ := rfl
  trans h h' := h'.trans h
  hold _ _ _ _ := rfl
  invalidate _ _ := rfl
  fail _ _ _ := rfl
  erase _ _ := rfl
  close _ _ _ _ := rfl
  note _ _ := rfl
  approvals _ _ := rfl
  resolve _ _ _ _ _ _ := rfl
  cancel _ _ _ _ := rfl

@[simp] theorem failTaskBinding_agents (code message : String) :
    (r.failTaskBinding b code message).agents = r.agents :=
  respects_agents.failTaskBinding r b code message

@[simp] theorem unbindTask_agents (taskId : String) : (r.unbindTask taskId b).agents = r.agents :=
  respects_agents.unbindTask r taskId b

@[simp] theorem unbindTask_cells (taskId : String) : (r.unbindTask taskId b).cells = r.cells := by
  unfold unbindTask
  simp only
  split
  · rfl
  · exact clearGraceHold_cells _ _ _

@[simp] theorem failBindingsForAgent_agents (agentId : String) :
    (r.failBindingsForAgent agentId error).agents = r.agents :=
  respects_agents.failBindingsForAgent r agentId error

@[simp] theorem holdBindingsForAgent_agents (now : ℕ) (agentId : String) :
    (r.holdBindingsForAgent now agentId error).agents = r.agents :=
  respects_agents.holdBindingsForAgent r now agentId error

@[simp] theorem displaceConnection_agents (now : ℕ) (agentId : String)
    (existing : ClientConnection) :
    (r.displaceConnection now agentId existing).agents = r.agents :=
  respects_agents.displaceConnection r now agentId existing

@[simp] theorem sendToAgent_agents (agentId : String) (frame : DownFrame) :
    (r.sendToAgent agentId frame).2.agents = r.agents := by
  unfold sendToAgent
  split <;> rfl

@[simp] theorem sendToAgent_bindings (agentId : String) (frame : DownFrame) :
    (r.sendToAgent agentId frame).2.bindings = r.bindings := by
  unfold sendToAgent
  split <;> rfl

@[simp] theorem sendToAgent_cells (agentId : String) (frame : DownFrame) :
    (r.sendToAgent agentId frame).2.cells = r.cells := by
  unfold sendToAgent
  split <;> rfl

theorem sendToAgent_sent (agentId : String) (frame : DownFrame) :
    (r.sendToAgent agentId frame).1 = (r.getAgent agentId).isSome := by
  unfold sendToAgent getAgent
  split <;> simp_all

@[simp] theorem expireGraceTimer_agents (timer : GraceTimer) :
    (r.expireGraceTimer timer).agents = r.agents :=
  respects_agents.expireGraceTimer r timer

@[simp] theorem disconnectClient_agents (clientId : String) :
    (r.disconnectClient clientId).2.agents = r.agents :=
  respects_agents.disconnectClient r clientId

@[simp] theorem bindTask_agents : (r.bindTask b).2.agents = r.agents := by
  unfold bindTask
  repeat' split
  all_goals simp

/-- Binding a task adds at most the binding itself. -/
theorem bindTask_bindings {k : String} {b' : TaskBinding}
    (h : (r.bindTask b).2.bindings.get? k = some b') :
    (b' = b ∧ k = b.taskId ∧ (r.bindTask b).1 = true) ∨ r.bindings.get? k = some b' := by
  have hset : ∀ r' : Registry, r'.bindings = r.bindings →
      (r'.bindings.set b.taskId b).get? k = some b' →
      (b' = b ∧ k = b.taskId) ∨ r.bindings.get? k = some b' := by
    intro r' hr' hk
    rw [InsertionMap.get?_set] at hk
    split at hk
    · rename_i hkey
      exact .inl ⟨(Option.some.inj hk).symm, hkey.symm⟩
    · exact .inr (hr' ▸ hk)
  unfold bindTask at h ⊢
  cases hk : r.bindings.get? b.taskId with
  | none =>
      rw [hk] at h
      exact (hset r rfl h).imp (fun h => ⟨h.1, h.2, rfl⟩) id
  | some existing =>
      rw [hk] at h
      simp only at h ⊢
      split at h
      · exact .inr h
      · rename_i hagent
        rw [if_neg hagent]
        split at h
        · rename_i hsame
          rw [if_pos hsame]
          exact (hset r rfl h).imp (fun h => ⟨h.1, h.2, rfl⟩) id
        · rename_i hsame
          rw [if_neg hsame]
          exact (hset _ (by simp) h).imp (fun h => ⟨h.1, h.2, rfl⟩) id

/-- A binding that is accepted is registered, with its own cell as it was. -/
theorem bindTask_bound {registry : Registry} (h : r.bindTask b = (true, registry)) :
    registry.bindings.get? b.taskId = some b ∧ registry.cells b = r.cells b := by
  unfold bindTask at h
  simp only at h
  split at h
  · obtain rfl := (Prod.mk.inj h).2
    exact ⟨by simp, rfl⟩
  · rename_i existing hexisting
    split at h
    · simp at h
    · split at h
      · obtain rfl := (Prod.mk.inj h).2
        exact ⟨by simp, rfl⟩
      · rename_i hne
        obtain rfl := (Prod.mk.inj h).2
        refine ⟨by simp, ?_⟩
        simp only [failBinding_cells_of_ne _ _ (Ne.symm hne),
          clearGraceHold_cells]

theorem bindTask_refused {registry : Registry} (h : r.bindTask b = (false, registry)) :
    registry = r := by
  unfold bindTask at h
  simp only at h
  split at h
  · simp at h
  · split at h
    · exact (Prod.mk.inj h).2.symm
    · split at h <;> simp at h

@[simp] theorem deliver_agents (a : ToolApproval) : (r.deliver a).agents = r.agents :=
  respects_agents.deliver r a

@[simp] theorem decide_agents (now : ℕ) (id : String) (decision : ApprovalDecision)
    (principal : String) (via : ApprovalAuthority) :
    (r.decide now id decision principal via).2.agents = r.agents :=
  respects_agents.decide r now id decision principal via

@[simp] theorem approvalTick_agents (now : ℕ) (id : String) :
    (r.approvalTick now id).agents = r.agents :=
  respects_agents.approvalTick r now id

end Registry

end VicoopBridge
