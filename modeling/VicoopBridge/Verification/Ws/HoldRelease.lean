import VicoopBridge.Verification.Ws.Handlers

/-! # Who releases a grace hold

Every operation but `resumeBinding` drops a hold only together with the binding it
protects. -/

namespace VicoopBridge

open Library

namespace Registry

/-! ## Operations that keep the holds of surviving bindings -/

/-- No binding appears, and a binding that stays keeps its hold. -/
structure KeepsHolds (r r' : Registry) : Prop where
  bindings : ∀ k b, r'.bindings.get? k = some b → r.bindings.get? k = some b
  hold : ∀ k hold, r.graceHolds.get? k = some hold → r'.bindings.get? k = some hold.binding →
    r'.graceHolds.get? k = some hold

variable {r r' r'' : Registry}

theorem KeepsHolds.refl (r : Registry) : r.KeepsHolds r := ⟨fun _ _ h => h, fun _ _ h _ => h⟩

theorem KeepsHolds.trans (h : r.KeepsHolds r') (h' : r'.KeepsHolds r'') : r.KeepsHolds r'' where
  bindings k b hb := h.bindings k b (h'.bindings k b hb)
  hold k hold hk hstored := h'.hold k hold (h.hold k hold hk (h'.bindings k _ hstored)) hstored

theorem keepsHolds_of_eq (hb : r'.bindings = r.bindings) (hh : r'.graceHolds = r.graceHolds) :
    r.KeepsHolds r' where
  bindings := by rw [hb]; exact fun _ _ h => h
  hold k hold hk _ := by rw [hh]; exact hk

theorem Holds.keepsHolds (h : r.Holds r') : r.KeepsHolds r' where
  bindings := by rw [h.bindings]; exact fun _ _ h => h
  hold k hold hk _ := h.kept k hold hk

/-- Clearing the hold of a binding and removing the binding, in one go. -/
theorem keepsHolds_failBoundTask (r : Registry) (error : TerminalError) (b : TaskBinding) :
    r.KeepsHolds (r.failBoundTask error b) where
  bindings := (ends_failBoundTask r error b).binding
  hold k hold hk hstored := by
    have hholds : (r.failBoundTask error b).graceHolds =
        (r.clearGraceHold b.taskId (some b)).graceHolds := by
      simp [failBoundTask]
    rw [hholds]
    rcases clearGraceHold_cases r b.taskId (some b) with h | ⟨hold', hk', hsame, h⟩
    · rwa [h]
    · rw [h]
      by_cases hkey : b.taskId = k
      · subst hkey
        have hb : b = hold.binding := by
          rw [hk] at hk'
          rw [Option.some.inj hk']
          simpa using hsame
        exact absurd (hb ▸ hstored) (failBoundTask_not_stored r b error)
      · exact (InsertionMap.get?_erase_of_ne _ hkey).trans hk

theorem keepsHolds_failBindingsForAgent (r : Registry) (agentId : String) (error : TerminalError) :
    r.KeepsHolds (r.failBindingsForAgent agentId error) :=
  List.foldlRecOn (motive := r.KeepsHolds) _ _ (.refl r)
    fun _ h b _ => h.trans (keepsHolds_failBoundTask _ error b)

theorem keepsHolds_failTaskBinding (r : Registry) (b : TaskBinding) (code message : String) :
    r.KeepsHolds (r.failTaskBinding b code message) := by
  rw [failTaskBinding_eq]
  split
  · exact keepsHolds_failBoundTask r _ b
  · exact .refl r

theorem keepsHolds_unbindTask (r : Registry) (taskId : String) (b : TaskBinding) :
    r.KeepsHolds (r.unbindTask taskId b) := by
  refine ⟨(below_respects.unbindTask r taskId b).bindings, ?_⟩
  intro k hold hk hstored
  unfold unbindTask at hstored ⊢
  simp only at hstored ⊢
  split at hstored
  · rename_i hother
    rwa [if_pos hother]
  · rename_i hother
    rw [if_neg hother]
    rw [InsertionMap.get?_erase] at hstored
    split at hstored
    · simp at hstored
    · rename_i hne
      rcases clearGraceHold_cases { r with approvals := r.approvals.invalidate b } taskId (some b)
        with h | ⟨hold', -, -, h⟩
      · rwa [h]
      · rw [h]
        exact (InsertionMap.get?_erase_of_ne _ hne).trans hk

theorem keepsHolds_holdBindingsForAgent (inv : r.GraceInvariant) (now : ℕ) (agentId : String)
    (error : TerminalError) : r.KeepsHolds (r.holdBindingsForAgent now agentId error) := by
  unfold holdBindingsForAgent
  split
  · exact keepsHolds_failBindingsForAgent r agentId error
  · exact (inv.holdLoop now agentId error).2.keepsHolds

theorem keepsHolds_displaceConnection (inv : r.GraceInvariant) (now : ℕ) (agentId : String)
    (existing : ClientConnection) :
    r.KeepsHolds (r.displaceConnection now agentId existing) := by
  have hsocket : r.KeepsHolds (r.modifySocket existing.ws
      (Socket.close · 4009 "another client with the same token connected")) :=
    keepsHolds_of_eq rfl rfl
  have inv' : (r.modifySocket existing.ws
      (Socket.close · 4009 "another client with the same token connected")).GraceInvariant :=
    inv.congr rfl rfl rfl rfl
  unfold displaceConnection
  simp only
  split
  · exact hsocket.trans (keepsHolds_failBindingsForAgent _ _ _)
  split
  · exact hsocket.trans (keepsHolds_holdBindingsForAgent inv' now agentId _)
  · exact hsocket.trans (keepsHolds_failBindingsForAgent _ _ _)

theorem keepsHolds_registerAgent (inv : r.GraceInvariant) (now : ℕ) {conn : ClientConnection}
    (h : r.registerAgent now conn = .ok r') : r.KeepsHolds r' := by
  unfold registerAgent at h
  cases hk : r.agents.get? conn.agentId with
  | none =>
      rw [hk] at h
      obtain rfl := Except.ok.inj h
      exact keepsHolds_of_eq rfl rfl
  | some existing =>
      rw [hk] at h
      simp only at h
      split at h
      · obtain rfl := Except.ok.inj h
        exact (keepsHolds_displaceConnection inv now _ existing).trans (keepsHolds_of_eq rfl rfl)
      · simp at h

theorem keepsHolds_unregisterAgent (inv : r.GraceInvariant) (now : ℕ) (agentId : String)
    (ws : WsId) (closeCode : Option ℕ) :
    r.KeepsHolds (r.unregisterAgent now agentId ws closeCode) := by
  have herase : r.KeepsHolds { r with agents := r.agents.erase agentId } :=
    keepsHolds_of_eq rfl rfl
  have inv' : { r with agents := r.agents.erase agentId }.GraceInvariant :=
    inv.congr rfl rfl rfl rfl
  unfold unregisterAgent
  cases r.agents.get? agentId with
  | none => exact .refl r
  | some existing =>
      simp only
      split
      · exact .refl r
      split
      · exact herase.trans (keepsHolds_holdBindingsForAgent inv' now agentId _)
      · exact herase.trans (keepsHolds_failBindingsForAgent _ _ _)

theorem keepsHolds_expireGraceTimer (inv : r.GraceInvariant) {timer : GraceTimer}
    (h : timer ∈ r.timers) : r.KeepsHolds (r.expireGraceTimer timer) := by
  rw [inv.expireGraceTimer_eq h]
  exact keepsHolds_failBoundTask r _ _

theorem keepsHolds_sendToAgent (r : Registry) (agentId : String) (frame : DownFrame) :
    r.KeepsHolds (r.sendToAgent agentId frame).2 := by
  unfold sendToAgent
  split
  · exact .refl r
  · exact keepsHolds_of_eq rfl rfl

theorem keepsHolds_disconnectClient (r : Registry) (clientId : String) :
    r.KeepsHolds (r.disconnectClient clientId).2 :=
  keepsHolds_of_eq (sameTasks_disconnectClient r clientId).bindings
    (sameTasks_disconnectClient r clientId).graceHolds

theorem keepsHolds_deliver (r : Registry) (a : ToolApproval) : r.KeepsHolds (r.deliver a) := by
  unfold deliver
  split
  · exact keepsHolds_sendToAgent r _ _
  · exact .refl r

theorem keepsHolds_decide (r : Registry) (now : ℕ) (id : String) (decision : ApprovalDecision)
    (principal : String) (via : ApprovalAuthority) :
    r.KeepsHolds (r.decide now id decision principal via).2 := by
  unfold decide
  split
  · exact .refl r
  split
  · exact .refl r
  split
  · split <;> exact .refl r
  · refine KeepsHolds.trans ?_ (keepsHolds_deliver _ _)
    exact keepsHolds_of_eq rfl rfl

theorem keepsHolds_approvalTick (r : Registry) (now : ℕ) (id : String) :
    r.KeepsHolds (r.approvalTick now id) := by
  have hclear : r.KeepsHolds { r with approvals := r.approvals.clear id } :=
    keepsHolds_of_eq rfl rfl
  refine hclear.trans ?_
  unfold approvalTick
  generalize { r with approvals := r.approvals.clear id } = r₁
  simp only
  split
  · exact .refl r₁
  rename_i a _
  split
  · exact keepsHolds_of_eq rfl rfl
  split
  · exact .refl r₁
  split
  · have hexpired : r₁.KeepsHolds ((r₁.setApproval
        { a with state := .expired, decision := some .deny }).deliver
        { a with state := .expired, decision := some .deny }) := by
      refine KeepsHolds.trans ?_ (keepsHolds_deliver _ _)
      exact keepsHolds_of_eq rfl rfl
    split
    · exact hexpired
    · exact (hexpired.trans (keepsHolds_sendToAgent _ _ _)).trans
        (keepsHolds_failTaskBinding _ _ _ _)
  · have hdelivered : r₁.KeepsHolds (if a.state = .decided then r₁.deliver a else r₁) := by
      split
      · exact keepsHolds_deliver r₁ a
      · exact .refl r₁
    exact hdelivered.trans (keepsHolds_of_eq rfl rfl)

/-- A binding installed over another one takes the task without its hold. -/
theorem bindTask_hold (inv : r.GraceInvariant) (b : TaskBinding) {k : String} {hold : GraceHold}
    (hk : r.graceHolds.get? k = some hold)
    (hstored : (r.bindTask b).2.bindings.get? k = some hold.binding) :
    (r.bindTask b).2.graceHolds.get? k = some hold := by
  have hbound := inv.hold_stored k hold hk
  unfold bindTask at hstored ⊢
  cases hkey : r.bindings.get? b.taskId with
  | none => exact hk
  | some existing =>
      rw [hkey] at hstored
      simp only at hstored ⊢
      split
      · exact hk
      · rename_i hagent
        rw [if_neg hagent] at hstored
        split
        · exact hk
        · rename_i hne
          rw [if_neg hne] at hstored
          rcases clearGraceHold_cases r b.taskId (some existing) with h | ⟨hold', -, -, h⟩
          · rw [h]
            exact hk
          · by_cases hsame : b.taskId = k
            · subst hsame
              have hb : b = hold.binding := by simpa using hstored
              exact absurd (Option.some.inj (hkey.symm.trans hbound)) (by rw [← hb]; exact hne)
            · rw [h]
              exact (InsertionMap.get?_erase_of_ne _ hsame).trans hk

/-! ## Frames -/

/-- The frame is a sound continuation of the execution behind the binding. -/
def Continues (frame : TaskUpFrame) (b : TaskBinding) (expected : ℕ) : Prop :=
  frame.executionId = b.executionId ∧
    match b.executionId with
    | some _ => ∃ seq, frame.seq = some seq ∧ seq ≤ expected
    | none => frame.seq = none

theorem keepsHolds_resumeBinding_of_ne (r : Registry) (taskId agentId : String) :
    (∀ k b, (r.resumeBinding taskId agentId).bindings.get? k = some b →
      r.bindings.get? k = some b) ∧
    ∀ k hold, r.graceHolds.get? k = some hold →
      (k ≠ taskId ∨ hold.binding.agentId ≠ agentId) →
        (r.resumeBinding taskId agentId).graceHolds.get? k = some hold := by
  refine ⟨(below_respects.resumeBinding r taskId agentId).bindings, ?_⟩
  intro k hold hk hother
  unfold resumeBinding
  split
  · exact hk
  · rename_i hold' hk'
    split
    · exact hk
    split
    · exact hk
    · rename_i hagent _
      have hne : taskId ≠ k := by
        rintro rfl
        obtain rfl : hold' = hold := Option.some.inj (hk'.symm.trans hk)
        rcases hother with h | h
        · exact h rfl
        · exact hagent h
      exact (InsertionMap.get?_erase_of_ne _ hne).trans hk

theorem keepsHolds_frames : RespectsFrames KeepsHolds where
  refl := .refl
  trans h h' := h.trans h'
  cell _ _ _ _ := keepsHolds_of_eq rfl rfl
  receipts _ _ := keepsHolds_of_eq rfl rfl
  approvals _ _ := keepsHolds_of_eq rfl rfl
  send _ _ _ _ := keepsHolds_of_eq rfl rfl
  failTask := keepsHolds_failTaskBinding
  unbind := keepsHolds_unbindTask

end Registry

end VicoopBridge
