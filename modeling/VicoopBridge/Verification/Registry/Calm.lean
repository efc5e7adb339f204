import VicoopBridge.Verification.Registry.Consistency
import VicoopBridge.Verification.Registry.Sockets

/-! # Steps that settle no approval

Most of what the registry does leaves the approvals of every live execution alone and sends
no decision. An execution that ends takes its approvals with it. -/

namespace VicoopBridge

open Library

def DownFrame.isResolve : DownFrame → Bool
  | .approvalResolve _ _ _ _ => true
  | _ => false

/-- The caller of a request is kept as long as the request is. -/
def ToolApprovals.Keyed (t : ToolApprovals) : Prop :=
  ∀ id, (t.origins.get? id).isSome = (t.entries.get? id).isSome

theorem ToolApprovals.Keyed.invalidate {t : ToolApprovals} (h : t.Keyed) (b : TaskBinding) :
    (t.invalidate b).Keyed := by
  intro id
  simp only [ToolApprovals.invalidate, InsertionMap.get?_filter]
  have hid := h id
  cases ho : t.origins.get? id <;> cases he : t.entries.get? id <;> simp_all

namespace Registry

structure Calm (r r' : Registry) : Prop where
  bindings : ∀ k b, r'.bindings.get? k = some b → r.bindings.get? k = some b
  entries : ∀ id a, r'.approvals.entries.get? id = some a → r.approvals.entries.get? id = some a
  live : ∀ id a, r'.approvals.entries.get? id = some a → (r.liveBinding a).isSome →
    (r'.liveBinding a).isSome
  kept : ∀ id a, r.approvals.entries.get? id = some a → (r'.liveBinding a).isSome →
    r'.approvals.entries.get? id = some a
  keyed : r.approvals.Keyed → r'.approvals.Keyed
  resolves : ∀ ws frame, frame.isResolve → frame ∈ (r'.sockets ws).sent →
    frame ∈ (r.sockets ws).sent

variable {r r' r'' : Registry}

theorem liveBinding_eq_some {a : ToolApproval} {b : TaskBinding} :
    r.liveBinding a = some b ↔ r.bindings.get? a.taskId = some b ∧ b.agentId = a.agentId ∧
      b.executionId = some a.executionId := by
  unfold liveBinding getBinding
  cases r.bindings.get? a.taskId with
  | none => simp
  | some b' =>
      simp only [Option.some.injEq]
      split
      · rename_i h
        simp only [Option.some.injEq]
        exact ⟨fun heq => ⟨heq, heq ▸ h⟩, fun heq => heq.1⟩
      · rename_i h
        simp only [reduceCtorEq, false_iff]
        rintro ⟨rfl, h'⟩
        exact h h'

theorem liveBinding_mono (h : ∀ k b, r'.bindings.get? k = some b → r.bindings.get? k = some b)
    {a : ToolApproval} (hlive : (r'.liveBinding a).isSome) : (r.liveBinding a).isSome := by
  obtain ⟨b, hb⟩ := Option.isSome_iff_exists.mp hlive
  obtain ⟨hk, hmine⟩ := liveBinding_eq_some.mp hb
  exact Option.isSome_iff_exists.mpr ⟨b, liveBinding_eq_some.mpr ⟨h _ b hk, hmine⟩⟩

theorem Calm.refl (r : Registry) : r.Calm r :=
  ⟨fun _ _ h => h, fun _ _ h => h, fun _ _ _ h => h, fun _ _ h _ => h, fun h => h, fun _ _ _ h => h⟩

theorem Calm.trans (h : r.Calm r') (h' : r'.Calm r'') : r.Calm r'' where
  bindings k b hb := h.bindings k b (h'.bindings k b hb)
  entries id a ha := h.entries id a (h'.entries id a ha)
  live id a ha hlive := h'.live id a ha (h.live id a (h'.entries id a ha) hlive)
  kept id a ha hlive := h'.kept id a (h.kept id a ha (liveBinding_mono h'.bindings hlive)) hlive
  keyed hk := h'.keyed (h.keyed hk)
  resolves ws frame hf hsent := h.resolves ws frame hf (h'.resolves ws frame hf hsent)

theorem liveBinding_congr (h : ∀ k, r'.bindings.get? k = r.bindings.get? k) (a : ToolApproval) :
    r'.liveBinding a = r.liveBinding a := by
  unfold liveBinding getBinding
  rw [h]

theorem calm_of_lookups (hb : ∀ k, r'.bindings.get? k = r.bindings.get? k)
    (he : r'.approvals.entries = r.approvals.entries)
    (ho : r'.approvals.origins = r.approvals.origins) (hs : r'.sockets = r.sockets) :
    r.Calm r' where
  bindings k b hk := by rwa [hb] at hk
  entries := by rw [he]; exact fun _ _ h => h
  live id a _ hlive := by rwa [liveBinding_congr hb]
  kept id a ha _ := by rwa [he]
  keyed := by unfold ToolApprovals.Keyed; rw [he, ho]; exact fun h => h
  resolves := by rw [hs]; exact fun _ _ _ h => h

theorem calm_of_eq (hb : r'.bindings = r.bindings)
    (he : r'.approvals.entries = r.approvals.entries)
    (ho : r'.approvals.origins = r.approvals.origins) (hs : r'.sockets = r.sockets) : r.Calm r' :=
  calm_of_lookups (fun _ => by rw [hb]) he ho hs

/-! ## Sockets -/

theorem calm_modifySocket (r : Registry) (ws : WsId) {f : Socket → Socket}
    (hf : ∀ s frame, frame.isResolve → frame ∈ (f s).sent → frame ∈ s.sent) :
    r.Calm (r.modifySocket ws f) where
  bindings _ _ h := h
  entries _ _ h := h
  live _ _ _ h := h
  kept _ _ h _ := h
  keyed h := h
  resolves ws' frame hframe hsent := by
    by_cases heq : ws' = ws
    · subst heq
      exact hf _ frame hframe (by simpa [modifySocket] using hsent)
    · simpa [modifySocket, heq] using hsent

theorem Socket.sent_close (s : Socket) (code : ℕ) (reason : String) :
    (s.close code reason).sent = s.sent := by
  unfold Socket.close
  split <;> rfl

theorem calm_close (r : Registry) (ws : WsId) (code : ℕ) (reason : String) :
    r.Calm (r.modifySocket ws (Socket.close · code reason)) :=
  calm_modifySocket r ws fun s frame _ h => by rwa [Socket.sent_close] at h

theorem calm_send (r : Registry) (ws : WsId) {frame : DownFrame} (hframe : frame.isResolve = false) :
    r.Calm (r.modifySocket ws (Socket.send · frame)) := by
  refine calm_modifySocket r ws fun s frame' hresolve hsent => ?_
  unfold Socket.send at hsent
  split at hsent
  · rcases List.mem_append.mp hsent with h | h
    · exact h
    · rw [List.mem_singleton.mp h, hframe] at hresolve
      simp at hresolve
  · exact hsent

theorem calm_sendToAgent (r : Registry) (agentId : String) {frame : DownFrame}
    (hframe : frame.isResolve = false) : r.Calm (r.sendToAgent agentId frame).2 := by
  unfold sendToAgent
  split
  · exact .refl r
  · exact calm_send r _ hframe

/-! ## Ending a binding -/

theorem calm_clearGraceHold (r : Registry) (k : String) (binding : Option TaskBinding) :
    r.Calm (r.clearGraceHold k binding) := by
  obtain ⟨_, _, h⟩ := clearGraceHold_frame r k binding
  rw [h]
  exact calm_of_eq rfl rfl rfl rfl

/-- No other stored binding stands for the execution of `b`. -/
def Unrivaled (r : Registry) (b : TaskBinding) : Prop :=
  ∀ b', r.bindings.get? b.taskId = some b' → b.executionId.isSome →
    b'.executionId = b.executionId → b' = b

theorem unrivaled_of_stored {b : TaskBinding} (h : r.bindings.get? b.taskId = some b) :
    r.Unrivaled b :=
  fun _ h' _ _ => Option.some.inj (h'.symm.trans h)

theorem Calm.unrivaled (h : r.Calm r') {b : TaskBinding} (hb : r.Unrivaled b) : r'.Unrivaled b :=
  fun b' hk => hb b' (h.bindings _ b' hk)

/-- The approvals of an execution and its binding go together. -/
theorem calm_endBinding {b : TaskBinding} (hb : r.Unrivaled b)
    (happrovals : r'.approvals = r.approvals.invalidate b)
    (hbindings : ∀ k b', r'.bindings.get? k = some b' ↔ r.bindings.get? k = some b' ∧
      ¬ (k = b.taskId ∧ b' = b)) (hs : r'.sockets = r.sockets) : r.Calm r' := by
  have hentries : ∀ id, r'.approvals.entries.get? id =
      (r.approvals.entries.get? id).filter fun _ => !r.approvals.invalidated b id := by
    intro id
    rw [happrovals]
    exact ToolApprovals.get?_invalidate_entries _ _ _
  have hraised : ∀ id a, r.approvals.entries.get? id = some a →
      r.approvals.invalidated b id = a.raisedBy b := by
    intro id a ha
    simp [ToolApprovals.invalidated, ha]
  refine ⟨fun k b' h => ((hbindings k b').mp h).1, ?_, ?_, ?_, ?_,
    by rw [hs]; exact fun _ _ _ h => h⟩
  · intro id a ha
    rw [hentries] at ha
    exact (Option.filter_eq_some_iff.mp ha).1
  · intro id a ha hlive
    rw [hentries] at ha
    obtain ⟨ha, hkeep⟩ := Option.filter_eq_some_iff.mp ha
    rw [hraised id a ha] at hkeep
    obtain ⟨b', hb'⟩ := Option.isSome_iff_exists.mp hlive
    obtain ⟨hk, hagent, hexec⟩ := liveBinding_eq_some.mp hb'
    refine Option.isSome_iff_exists.mpr ⟨b', liveBinding_eq_some.mpr ⟨?_, hagent, hexec⟩⟩
    refine (hbindings _ _).mpr ⟨hk, ?_⟩
    rintro ⟨htask, rfl⟩
    simp [ToolApproval.raisedBy, hexec, htask] at hkeep
  · intro id a ha hlive
    obtain ⟨b', hb'⟩ := Option.isSome_iff_exists.mp hlive
    obtain ⟨hk, hagent, hexec⟩ := liveBinding_eq_some.mp hb'
    obtain ⟨hk, hother⟩ := (hbindings _ _).mp hk
    rw [hentries, ha, Option.filter_eq_some_iff]
    refine ⟨rfl, ?_⟩
    rw [hraised id a ha]
    by_contra hraised'
    simp only [Bool.not_eq_true', Bool.not_eq_false, ToolApproval.raisedBy,
      decide_eq_true_eq] at hraised'
    obtain ⟨hexec', htask⟩ := hraised'
    rw [htask] at hk
    exact hother ⟨htask, hb b' hk (by simp [← hexec']) (by rw [hexec, hexec'])⟩
  · intro hkeyed
    rw [happrovals]
    exact hkeyed.invalidate b

theorem deleteBinding_bindings_iff (b : TaskBinding) (k : String) (b' : TaskBinding) :
    (r.deleteBinding b).bindings.get? k = some b' ↔
      r.bindings.get? k = some b' ∧ ¬ (k = b.taskId ∧ b' = b) := by
  rcases deleteBinding_cases r b with ⟨hother, h⟩ | ⟨hstored, h⟩
  · rw [h]
    refine ⟨fun hk => ⟨hk, ?_⟩, And.left⟩
    rintro ⟨rfl, rfl⟩
    exact hother hk
  · rw [h, InsertionMap.get?_erase]
    by_cases hk : b.taskId = k
    · subst hk
      rw [if_pos rfl, hstored]
      simp only [reduceCtorEq, Option.some.injEq, true_and, false_iff, not_and, not_not]
      exact Eq.symm
    · simp [hk, Ne.symm hk]

theorem calm_failBoundTask (r : Registry) (error : TerminalError) {b : TaskBinding}
    (hb : r.Unrivaled b) : r.Calm (r.failBoundTask error b) := by
  have hcleared := calm_clearGraceHold r b.taskId (some b)
  refine hcleared.trans (calm_endBinding (hcleared.unrivaled hb) ?_ ?_ ?_)
  · unfold failBoundTask deleteBinding
    split <;> rfl
  · exact deleteBinding_bindings_iff b
  · unfold failBoundTask deleteBinding
    split <;> rfl

theorem calm_failTaskBinding (r : Registry) (b : TaskBinding) (code message : String) :
    r.Calm (r.failTaskBinding b code message) := by
  rw [failTaskBinding_eq]
  split
  · rename_i hstored
    exact calm_failBoundTask r _ (unrivaled_of_stored hstored)
  · exact .refl r

theorem calm_failBindingsForAgent (inv : r.GraceInvariant) (agentId : String)
    (error : TerminalError) : r.Calm (r.failBindingsForAgent agentId error) := by
  have hunrivaled : ∀ b ∈ r.bindings.values.filter fun b => b.agentId = agentId,
      r.Unrivaled b := by
    intro b hb
    obtain ⟨k, hk⟩ := (r.bindings.mem_values_iff b).mp (List.mem_filter.mp hb).1
    exact unrivaled_of_stored (inv.binding_key k b hk ▸ hk)
  exact List.foldlRecOn (motive := r.Calm) _ _ (.refl r)
    fun r' h b hb => h.trans (calm_failBoundTask r' error (h.unrivaled (hunrivaled b hb)))

theorem calm_holdBindingsForAgent (inv : r.GraceInvariant) (now : ℕ) (agentId : String)
    (error : TerminalError) : r.Calm (r.holdBindingsForAgent now agentId error) := by
  unfold holdBindingsForAgent
  split
  · exact calm_failBindingsForAgent inv agentId error
  · refine List.foldlRecOn (motive := r.Calm) _ _ (.refl r) ?_
    intro r' h b _
    refine h.trans ?_
    unfold holdBinding
    split
    · exact .refl r'
    · exact calm_of_eq rfl rfl rfl rfl

theorem unbindTask_approvals (r : Registry) (b : TaskBinding) :
    (r.unbindTask b.taskId b).approvals = r.approvals.invalidate b := by
  unfold unbindTask
  simp only
  split
  · rfl
  · obtain ⟨_, _, h⟩ := clearGraceHold_frame { r with approvals := r.approvals.invalidate b }
      b.taskId (some b)
    rw [h]

theorem unbindTask_bindings (r : Registry) (b : TaskBinding) :
    (r.unbindTask b.taskId b).bindings = (r.deleteBinding b).bindings := by
  unfold unbindTask deleteBinding
  by_cases hstored : r.bindings.get? b.taskId = some b
  · simp [hstored]
  · simp [hstored]

theorem calm_unbindTask {b : TaskBinding} (hb : r.Unrivaled b) :
    r.Calm (r.unbindTask b.taskId b) := by
  refine calm_endBinding hb (unbindTask_approvals r b) ?_ (unbindTask_sockets r b b.taskId)
  rw [unbindTask_bindings]
  exact deleteBinding_bindings_iff b

/-! ## Connections -/

theorem calm_registerAgent (inv : r.GraceInvariant) {now : ℕ} {conn : ClientConnection}
    (h : r.registerAgent now conn = .ok r') : r.Calm r' := by
  have hdisplaced : ∀ existing, r.Calm (r.displaceConnection now conn.agentId existing) := by
    intro existing
    have hclose := calm_close r existing.ws 4009 "another client with the same token connected"
    have inv' : (r.modifySocket existing.ws
        (Socket.close · 4009 "another client with the same token connected")).GraceInvariant :=
      inv.congr rfl rfl rfl rfl
    unfold displaceConnection
    simp only
    split
    · exact hclose.trans (calm_failBindingsForAgent inv' _ _)
    split
    · exact hclose.trans (calm_holdBindingsForAgent inv' _ _ _)
    · exact hclose.trans (calm_failBindingsForAgent inv' _ _)
  unfold registerAgent at h
  split at h
  · split at h
    · obtain rfl := Except.ok.inj h
      exact (hdisplaced _).trans (calm_of_eq rfl rfl rfl rfl)
    · simp at h
  · obtain rfl := Except.ok.inj h
    exact calm_of_eq rfl rfl rfl rfl

theorem calm_unregisterAgent (inv : r.GraceInvariant) (now : ℕ) (agentId : String) (ws : WsId)
    (closeCode : Option ℕ) : r.Calm (r.unregisterAgent now agentId ws closeCode) := by
  have herased : r.Calm { r with agents := r.agents.erase agentId } := calm_of_eq rfl rfl rfl rfl
  have inv' : { r with agents := r.agents.erase agentId }.GraceInvariant := inv.congr rfl rfl rfl rfl
  unfold unregisterAgent
  split
  · exact .refl r
  · simp only
    split
    · exact .refl r
    split
    · exact herased.trans (calm_holdBindingsForAgent inv' _ _ _)
    · exact herased.trans (calm_failBindingsForAgent inv' _ _)

theorem calm_disconnectClient (r : Registry) (clientId : String) :
    r.Calm (r.disconnectClient clientId).2 := by
  refine List.foldlRecOn (motive := r.Calm) _ _ (.refl r) ?_
  intro r' h conn _
  have hnoted : r'.Calm (r'.noteServerClose conn.ws) := calm_of_eq rfl rfl rfl rfl
  exact (h.trans hnoted).trans (calm_close _ conn.ws 4014 "client deleted")

theorem calm_expireGraceTimer (inv : r.GraceInvariant) {timer : GraceTimer}
    (h : timer ∈ r.timers) : r.Calm (r.expireGraceTimer timer) := by
  rw [inv.expireGraceTimer_eq h]
  exact calm_failBoundTask r _ (unrivaled_of_stored (inv.timer_stored h))

end Registry

end VicoopBridge
