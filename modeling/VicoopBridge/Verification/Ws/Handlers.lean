import VicoopBridge.Verification.Registry.Routine
import VicoopBridge.Verification.Ws.ServerSystem

/-! # Relations across the handlers

What the writes of the handlers keep is kept by every handler, and by every step of the server
but messages and new tasks. -/

namespace VicoopBridge

open Library

namespace Registry

/-- The relation is kept by what the handlers of frames do. -/
structure RespectsFrames (R : Registry → Registry → Prop) : Prop where
  refl : ∀ r, R r r
  trans : ∀ {r r' r''}, R r r' → R r' r'' → R r r''
  cell : ∀ r b f, (∀ c : BindingCell, (f c).nextClientSeq = c.nextClientSeq) →
    R r (r.modifyCell b f)
  receipts : ∀ r terminalReceipts, R r { r with terminalReceipts }
  approvals : ∀ r approvals, R r { r with approvals }
  send : ∀ r ws frame, (∀ e, frame.Ordinary e) → R r (r.modifySocket ws (Socket.send · frame))
  failTask : ∀ r b code message, R r (r.failTaskBinding b code message)
  unbind : ∀ r taskId b, R r (r.unbindTask taskId b)

/-- The relation is kept by what happens to connections, too. -/
structure RespectsHandlers (R : Registry → Registry → Prop) : Prop extends
    RespectsApprovals R, RespectsFrames R where
  agents : ∀ r agents, R r { r with agents }
  state : ∀ r ws (f : Socket → Socket), (∀ s, (f s).sent = s.sent) →
    (∀ s, s.readyState ≠ .opened → (f s).readyState ≠ .opened) → R r (r.modifySocket ws f)

section Respects

variable {R : Registry → Registry → Prop} {r' : Registry} (r : Registry) (now : ℕ) (ws : WsId)
  (b : TaskBinding)

section Frames

variable (h : RespectsFrames R)

include h

/-! ## Task frames -/

theorem RespectsFrames.sendToAgent (agentId : String) {frame : DownFrame}
    (hframe : ∀ e, frame.Ordinary e) : R r (r.sendToAgent agentId frame).2 := by
  unfold Registry.sendToAgent
  split
  · exact h.refl r
  · exact h.send r _ frame hframe

theorem RespectsFrames.acknowledge : R r (r.acknowledge ws b) := by
  unfold Registry.acknowledge
  split
  · exact h.send r ws _ fun _ => ⟨trivial, rfl⟩
  · exact h.refl r

theorem RespectsFrames.acknowledgeReceipt (agentId : Option String) (frame : TaskUpFrame) :
    R r (r.acknowledgeReceipt now ws agentId frame).2 := by
  have hpruned : R r (r.pruneTerminalReceipts now) := h.receipts r _
  rcases r.acknowledgeReceipt_cases ws now agentId frame with heq | heq | ⟨_, _, heq⟩ <;> rw [heq]
  · exact h.refl r
  · exact hpruned
  · exact h.trans hpruned (h.send _ ws _ fun _ => ⟨trivial, rfl⟩)

theorem RespectsFrames.failExecution (code message : String) :
    R r (r.failExecution b code message) :=
  h.trans (h.failTask r b code message) (h.sendToAgent _ b.agentId fun _ => ⟨trivial, rfl⟩)

theorem RespectsFrames.rejectApprovalRequest : R r (r.rejectApprovalRequest b) := by
  refine h.trans (h.sendToAgent r b.agentId ?_) (h.failTask _ b _ _)
  exact fun _ => ⟨trivial, rfl⟩

theorem RespectsFrames.pushWireStatus (status : WireTaskStatus) (final : Bool)
    (metadata : Option JsonObject) : R r (r.pushWireStatus b status final metadata) := by
  unfold Registry.pushWireStatus pushStatus
  exact h.cell r b _ (by intros; rfl)

/-- Every handler but the terminals' ends with a status and an acknowledgement. -/
theorem RespectsFrames.shown (hr : R r r') (status : WireTaskStatus) (final : Bool)
    (metadata : Option JsonObject) :
    R r ((r'.pushWireStatus b status final metadata).acknowledge ws b) :=
  h.trans (h.trans hr (h.pushWireStatus r' b status final metadata)) (h.acknowledge _ ws b)

theorem RespectsFrames.closeBinding : R r (r.closeBinding now ws b) := by
  have hfinished : R r (r.finish b) := h.cell r b _ (by intros; rfl)
  have hclosed (r₁ : Registry) : R r₁ ((r₁.unbindTask b.taskId b).acknowledge ws b) :=
    h.trans (h.unbind r₁ b.taskId b) (h.acknowledge _ ws b)
  unfold Registry.closeBinding
  dsimp only
  split
  · obtain ⟨receipts, heq⟩ := (r.finish b).rememberTerminalReceipt_frame now b _
    rw [heq]
    exact h.trans (h.trans hfinished (h.receipts _ receipts)) (hclosed _)
  · exact h.trans hfinished (hclosed _)

theorem RespectsFrames.processAccepted (body : TaskFrameBody) : R r (r.processAccepted now ws b body) := by
  have hcell (f : BindingCell → BindingCell)
      (hf : ∀ c, (f c).nextClientSeq = c.nextClientSeq) : R r (r.modifyCell b f) := h.cell r b f hf
  have hclose (r₁ : Registry) (h₁ : R r r₁) : R r (r₁.closeBinding now ws b) :=
    h.trans h₁ (h.closeBinding r₁ now ws b)
  cases body with
  | approvalRequest request =>
      simp only [Registry.processAccepted, processApprovalRequest]
      split
      · exact h.rejectApprovalRequest r b
      split
      · exact h.rejectApprovalRequest r b
      · exact h.shown r ws b (h.approvals r _) _ _ _
  | approvalReceived requestId decision =>
      simp only [Registry.processAccepted, processApprovalReceived]
      split
      · exact h.acknowledge r ws b
      · exact h.shown r ws b (h.approvals r _) _ _ _
  | status status metadata =>
      simp only [Registry.processAccepted, processTaskStatus]
      split
      · exact h.shown r ws b (hcell _ (by intros; rfl)) _ _ _
      · exact h.shown r ws b (h.refl r) _ _ _
  | artifact artifact append lastChunk =>
      exact h.trans (hcell _ (by intros; rfl)) (h.acknowledge _ ws b)
  | complete status usage =>
      simp only [Registry.processAccepted, processTaskComplete]
      split
      · exact hclose _ (h.trans (hcell _ (by intros; rfl)) (h.pushWireStatus _ b _ _ _))
      · exact hclose _ (h.pushWireStatus r b _ _ _)
  | fail error => exact hclose _ (hcell _ (by intros; rfl))

end Frames

/-! ## Steps -/

variable (s : Server) (h : RespectsHandlers R)

include h

theorem RespectsHandlers.closeSocket (code : ℕ) (reason : String) :
    R s.registry (s.closeSocket ws code reason).registry :=
  h.close s.registry ws code reason

theorem RespectsHandlers.rejectSocket (code : ℕ) (reason : String) :
    R s.registry (s.rejectSocket ws code reason).registry :=
  h.trans (h.note s.registry ws) (h.close _ ws code reason)

theorem RespectsHandlers.onAuthenticated (c : Connection) (frame : HelloFrame) (client : Option ClientRow)
    (card : Except (ℕ × String) Unit) :
    R s.registry (s.onAuthenticated now ws c frame client card).registry := by
  unfold Server.onAuthenticated
  dsimp only
  split
  · exact h.closeSocket ws (s.setConnection ws _) _ _
  · rename_i registry hok
    obtain ⟨conn, -, -, hreg⟩ := Server.authenticateAndRegister_ok hok
    have hregistered := h.registerAgent s.registry h.agents hreg
    split
    · split
      · exact hregistered
      · exact h.trans hregistered
          (h.unregisterAgent _ (fun r agentId => h.agents r (r.agents.erase agentId)) _ _ _ _)
    · split
      · exact h.trans hregistered (h.send _ ws _ fun _ => ⟨rfl, rfl⟩)
      · exact hregistered

theorem RespectsHandlers.onClose (c : Connection) (code : ℕ) :
    R s.registry (s.onClose now ws c code).registry := by
  have hclosed : R s.registry (s.registry.modifySocket ws
      fun socket => { socket with readyState := .closed }) :=
    h.state _ ws _ (by intros; rfl) (by simp)
  unfold Server.onClose
  dsimp only
  split
  · exact h.trans hclosed
      (h.unregisterAgent _ (fun r agentId => h.agents r (r.agents.erase agentId)) _ _ _ _)
  · exact hclosed

/-- Apart from messages and new tasks, everything that happens to the server is routine. -/
theorem RespectsHandlers.apply {a : ServerAction} (hmessage : ∀ now ws parsed, a ≠ .message now ws parsed)
    (hdispatch : ∀ binding assign, a ≠ .dispatch binding assign)
    (hsend : ∀ agentId frame, a = .sendToAgent agentId frame →
      R s.registry (s.registry.sendToAgent agentId frame).2) :
    R s.registry (s.apply a).registry := by
  have hconnection (ws : WsId) (f : Connection → Server) (hf : ∀ c, R s.registry (f c).registry) :
      R s.registry (s.withConnection ws f).registry := by
    unfold Server.withConnection
    split
    · exact hf _
    · exact h.refl _
  cases a with
  | connect ws => exact h.refl _
  | message now ws parsed => exact absurd rfl (hmessage now ws parsed)
  | authenticated now ws client card =>
      refine hconnection ws _ fun c => ?_
      split
      · exact h.onAuthenticated now ws s c _ client card
      · exact h.refl _
  | authenticationError ws =>
      exact hconnection ws _ fun c => h.closeSocket ws (s.setConnection ws _) _ _
  | helloTimeout ws =>
      refine hconnection ws _ fun c => ?_
      unfold Server.onHelloTimeout
      split
      · exact h.refl _
      · exact h.rejectSocket ws s _ _
  | peerClosing ws =>
      simp only [Server.apply, Server.onPeerClosing, Server.modifyRegistry]
      refine h.state s.registry ws _ (fun socket => ?_) fun socket hclosed => ?_
      · split <;> rfl
      · rw [if_neg hclosed]
        exact hclosed
  | oversizedMessage ws => exact h.note _ ws
  | close now ws code => exact hconnection ws _ fun c => h.onClose now ws s c code
  | disconnectClient clientId => exact h.disconnectClient _ clientId
  | requestUsage requestId agentId =>
      have hsent : R s.registry (s.registry.sendToAgent agentId (.usageRequest requestId)).2 :=
        h.sendToAgent _ agentId fun _ => ⟨trivial, rfl⟩
      simp only [Server.apply, Server.requestUsage]
      split
      · rename_i registry heq
        rw [heq] at hsent
        exact hsent
      · exact h.refl _
  | usageTimeout requestId => exact h.refl _
  | decideApproval now id decision principal via => exact h.decide _ now id decision principal via
  | approvalTick now id => exact h.approvalTick _ now id
  | graceExpire timer => exact h.expireGraceTimer _ timer
  | dispatch binding assign => exact absurd rfl (hdispatch binding assign)
  | sendToAgent agentId frame => exact hsend agentId frame rfl
  | sink binding f =>
      simp only [Server.apply, Server.modifyRegistry]
      exact h.cell _ binding _ (by intros; rfl)
  | unbindTask taskId binding => exact h.unbindTask _ taskId binding

end Respects

end Registry

end VicoopBridge
