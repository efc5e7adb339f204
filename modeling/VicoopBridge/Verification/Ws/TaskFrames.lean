import VicoopBridge.Model.Ws
import VicoopBridge.Verification.Registry.AgentView

/-! # What a task frame may touch

A frame of one agent acts on that agent's bindings only, on its own socket, and keeps the
registry consistent. -/

namespace VicoopBridge

open Library

namespace Registry

/-! ## Effects -/

/-- The effect a frame of agent `B` on socket `ws` is allowed to have. -/
structure FrameEffect (B : String) (ws : WsId) (r r' : Registry) : Prop where
  consistent : r'.Consistent
  agents : r'.agents = r.agents
  bindings : ∀ k b, r'.bindings.get? k = some b → r.bindings.get? k = some b
  view : ∀ A, A ≠ B → r.NotSocketOf ws A → r'.view A = r.view A

variable {B : String} {ws : WsId} {r r' r'' : Registry}

theorem FrameEffect.refl (hr : r.Consistent) : r.FrameEffect B ws r :=
  ⟨hr, rfl, fun _ _ h => h, fun _ _ _ => rfl⟩

theorem FrameEffect.andThen (h : FrameEffect B ws r r')
    (h' : r'.Consistent → FrameEffect B ws r' r'') : FrameEffect B ws r r'' := by
  have hlast := h' h.consistent
  refine ⟨hlast.consistent, hlast.agents.trans h.agents,
    fun k b hb => h.bindings k b (hlast.bindings k b hb), ?_⟩
  intro A hA hws
  have hws' : r'.NotSocketOf ws A := by
    rw [NotSocketOf, h.agents]
    exact hws
  exact (hlast.view A hA hws').trans (h.view A hA hws)

/-! ## The steps a handler is made of -/

theorem effect_modifyCell (hr : r.Consistent) {b : TaskBinding} (hb : b.agentId = B)
    (f : BindingCell → BindingCell) : r.FrameEffect B ws (r.modifyCell b f) :=
  ⟨hr.modifyCell b f, rfl, fun _ _ h => h,
    fun _ hA _ => view_modifyCell (by rw [hb]; exact Ne.symm hA) f⟩

theorem effect_modifySocket (hr : r.Consistent) (f : Socket → Socket) :
    r.FrameEffect B ws (r.modifySocket ws f) :=
  ⟨hr.modifySocket ws f, rfl, fun _ _ h => h, fun _ _ hws => view_modifySocket hws f⟩

theorem effect_sendToAgent (hr : r.Consistent) (frame : DownFrame) :
    r.FrameEffect B ws (r.sendToAgent B frame).2 := by
  exact ⟨hr.sendToAgent B frame, sendToAgent_agents r B frame,
    (below_sendToAgent r B frame).bindings,
    fun _ hA _ => view_sendToAgent hr (Ne.symm hA) frame⟩

theorem effect_failTaskBinding (hr : r.Consistent) {b : TaskBinding} (hb : b.agentId = B)
    (code message : String) : r.FrameEffect B ws (r.failTaskBinding b code message) := by
  exact ⟨hr.failTaskBinding b code message, failTaskBinding_agents r b code message,
    (below_respects.failTaskBinding r b _ _).bindings,
    fun _ hA _ => view_failTaskBinding hr _ _ (by rw [hb]; exact Ne.symm hA)⟩

theorem effect_unbindTask (hr : r.Consistent) {taskId : String} {b : TaskBinding}
    (hk : r.bindings.get? taskId = some b) (hb : b.agentId = B) :
    r.FrameEffect B ws (r.unbindTask taskId b) := by
  exact ⟨hr.unbindTask taskId b, unbindTask_agents r b taskId, (below_respects.unbindTask r taskId b).bindings,
    fun _ hA _ => view_unbindTask hr hk (by rw [hb]; exact Ne.symm hA)⟩

theorem resumeBinding_frame (taskId agentId : String) :
    (r.resumeBinding taskId agentId).agents = r.agents ∧
      (r.resumeBinding taskId agentId).bindings = r.bindings ∧
      (r.resumeBinding taskId agentId).cells = r.cells ∧
      (r.resumeBinding taskId agentId).terminalReceipts = r.terminalReceipts := by
  unfold resumeBinding
  repeat' split
  all_goals exact ⟨rfl, rfl, rfl, rfl⟩

theorem effect_resumeBinding (hr : r.Consistent) (taskId : String) :
    r.FrameEffect B ws (r.resumeBinding taskId B) :=
  ⟨hr.resumeBinding taskId B, (resumeBinding_frame taskId B).1,
    (below_respects.resumeBinding r taskId B).bindings,
    fun _ hA _ => view_resumeBinding hr.toGraceInvariant (Ne.symm hA) taskId⟩

theorem effect_pruneTerminalReceipts (hr : r.Consistent) (now : ℕ) :
    r.FrameEffect B ws (r.pruneTerminalReceipts now) :=
  ⟨hr.pruneTerminalReceipts now, rfl, fun _ _ h => h, fun _ _ _ => rfl⟩

theorem rememberTerminalReceipt_frame (now : ℕ) (b : TaskBinding) (acceptedSeq : ℕ) :
    ∃ receipts, r.rememberTerminalReceipt now b acceptedSeq =
      { r with terminalReceipts := receipts } := by
  unfold rememberTerminalReceipt
  cases truthy b.executionId with
  | none => exact ⟨r.terminalReceipts, rfl⟩
  | some executionId => exact ⟨_, rfl⟩

theorem effect_rememberTerminalReceipt (hr : r.Consistent) (now : ℕ) {k : String}
    {b : TaskBinding} (acceptedSeq : ℕ) (hk : r.bindings.get? k = some b) :
    r.FrameEffect B ws (r.rememberTerminalReceipt now b acceptedSeq) := by
  have hc := hr.rememberTerminalReceipt now acceptedSeq hk
  obtain ⟨receipts, h⟩ := r.rememberTerminalReceipt_frame now b acceptedSeq
  rw [h] at hc ⊢
  exact ⟨hc, rfl, fun _ _ h => h, fun _ _ _ => rfl⟩

theorem effect_acknowledge (hr : r.Consistent) (b : TaskBinding) :
    r.FrameEffect B ws (r.acknowledge ws b) := by
  unfold acknowledge
  split
  · exact effect_modifySocket hr _
  · exact .refl hr

theorem acknowledge_frame (r : Registry) (ws : WsId) (b : TaskBinding) :
    ∃ sockets, r.acknowledge ws b = { r with sockets := sockets } := by
  unfold acknowledge
  split
  · exact ⟨_, rfl⟩
  · exact ⟨r.sockets, rfl⟩

theorem getTerminalReceipt_snd (now : ℕ) (executionId agentId taskId : String) :
    (r.getTerminalReceipt now executionId agentId taskId).2 = r.pruneTerminalReceipts now := by
  unfold getTerminalReceipt
  simp only
  split
  · split <;> rfl
  · rfl

/-- Looking a receipt up prunes the expired ones; finding one sends an ack. -/
theorem acknowledgeReceipt_cases (r : Registry) (ws : WsId) (now : ℕ) (agentId : Option String)
    (frame : TaskUpFrame) :
    (r.acknowledgeReceipt now ws agentId frame).2 = r ∨
      (r.acknowledgeReceipt now ws agentId frame).2 = r.pruneTerminalReceipts now ∨
      ∃ executionId seq, (r.acknowledgeReceipt now ws agentId frame).2 =
        (r.pruneTerminalReceipts now).modifySocket ws
          (Socket.send · (.taskAck frame.taskId executionId seq)) := by
  obtain ⟨taskId, executionId, seq, body⟩ := frame
  cases agentId with
  | none => exact .inl rfl
  | some agentId =>
    cases executionId with
    | none => exact .inl rfl
    | some executionId =>
      cases seq with
      | none => exact .inl rfl
      | some seq =>
          have hsnd := r.getTerminalReceipt_snd now executionId agentId taskId
          simp only [acknowledgeReceipt]
          rcases hget : r.getTerminalReceipt now executionId agentId taskId with ⟨found, r'⟩
          rw [hget] at hsnd
          obtain rfl : r' = r.pruneTerminalReceipts now := hsnd
          cases found with
          | none => exact .inr (.inl rfl)
          | some acceptedSeq =>
              simp only
              split
              · exact .inr (.inl rfl)
              · exact .inr (.inr ⟨_, _, rfl⟩)

theorem effect_acknowledgeReceipt (hr : r.Consistent) (now : ℕ) (agentId : Option String)
    (frame : TaskUpFrame) :
    r.FrameEffect B ws (r.acknowledgeReceipt now ws agentId frame).2 := by
  have hprune : r.FrameEffect B ws (r.pruneTerminalReceipts now) :=
    effect_pruneTerminalReceipts hr now
  rcases r.acknowledgeReceipt_cases ws now agentId frame with h | h | ⟨_, _, h⟩ <;> rw [h]
  · exact .refl hr
  · exact hprune
  · exact hprune.andThen fun hp => effect_modifySocket hp _

/-! ## The verdict on a frame -/

/-- The sequence number the binding accepts next. -/
def expectedSeq (r : Registry) (b : TaskBinding) : ℕ := (r.cells b).nextClientSeq.getD 0

/-- Everything `acceptTaskFrame` can decide about a frame of agent `B`, with the registry
it leaves. -/
inductive FrameVerdict (r : Registry) (now : ℕ) (ws : WsId) (B : String) (frame : TaskUpFrame) :
    Option TaskFrameAcceptance → Registry → Prop where
  | unbound (res) (hres : ∀ b, res ≠ some (.binding b)) (h : r.getBinding frame.taskId = none) :
      FrameVerdict r now ws B frame res (r.acknowledgeReceipt now ws (some B) frame).2
  | foreign (b) (h : r.getBinding frame.taskId = some b) (hb : b.agentId ≠ B) :
      FrameVerdict r now ws B frame (some .handled) r
  | stale (res) (b) (hres : ∀ b, res ≠ some (.binding b))
      (h : r.getBinding frame.taskId = some b) (hb : b.agentId = B)
      (hgen : frame.executionId ≠ b.executionId ∨ b.executionId = none ∧ frame.seq.isSome) :
      FrameVerdict r now ws B frame res (r.acknowledgeReceipt now ws (some B) frame).2
  | broken (b) (code message) (h : r.getBinding frame.taskId = some b) (hb : b.agentId = B)
      (hexec : b.executionId.isSome)
      (hframe : frame.executionId = none ∨ frame.executionId = b.executionId ∧
        ∀ seq, frame.seq = some seq → r.expectedSeq b < seq) :
      FrameVerdict r now ws B frame (some .handled) (r.failExecution b code message)
  | duplicate (b) (seq) (h : r.getBinding frame.taskId = some b) (hb : b.agentId = B)
      (hexec : b.executionId.isSome) (hgen : frame.executionId = b.executionId)
      (hseq : frame.seq = some seq) (hlt : seq < r.expectedSeq b) :
      FrameVerdict r now ws B frame (some .handled)
        ((r.acknowledge ws b).resumeBinding frame.taskId B)
  | accepted (b) (h : r.getBinding frame.taskId = some b) (hb : b.agentId = B)
      (hexec : b.executionId.isSome) (hgen : frame.executionId = b.executionId)
      (hseq : frame.seq = some (r.expectedSeq b)) :
      FrameVerdict r now ws B frame (some (.binding b))
        ((r.modifyCell b fun c => { c with nextClientSeq := some (r.expectedSeq b + 1) }).resumeBinding
          frame.taskId B)
  | legacy (b) (h : r.getBinding frame.taskId = some b) (hb : b.agentId = B)
      (hexec : b.executionId = none) (hgen : frame.executionId = none) (hseq : frame.seq = none) :
      FrameVerdict r now ws B frame (some (.binding b)) (r.resumeBinding frame.taskId B)

private theorem receipt_verdict_ne {acknowledged : Bool} (b : TaskBinding) :
    (if acknowledged then some TaskFrameAcceptance.handled else none) ≠ some (.binding b) := by
  cases acknowledged <;> simp

theorem acceptTaskFrame_verdict (r : Registry) (now : ℕ) (ws : WsId) (B : String)
    (frame : TaskUpFrame) :
    FrameVerdict r now ws B frame (r.acceptTaskFrame now ws (some B) frame).1
      (r.acceptTaskFrame now ws (some B) frame).2 := by
  unfold acceptTaskFrame
  cases hbinding : r.getBinding frame.taskId with
  | none => exact .unbound _ receipt_verdict_ne hbinding
  | some b =>
      by_cases howner : b.agentId = B
      · have howned : r.ownedBinding (some B) frame.taskId = some b := by
          simp [ownedBinding, hbinding, howner]
        simp only [howned]
        cases hexec : b.executionId with
        | none =>
            simp only
            by_cases hreliable : frame.executionId.isSome ∨ frame.seq.isSome
            · rw [if_pos hreliable]
              refine .stale _ b receipt_verdict_ne hbinding howner ?_
              rcases hreliable with he | hs
              · exact .inl (by rw [hexec]; exact Option.isSome_iff_ne_none.mp he)
              · exact .inr ⟨hexec, hs⟩
            · rw [if_neg hreliable]
              simp only [not_or, Bool.not_eq_true, Option.isSome_eq_false_iff,
                Option.isNone_iff_eq_none] at hreliable
              exact .legacy b hbinding howner hexec hreliable.1 hreliable.2
        | some executionId =>
            have hsome : b.executionId.isSome := by simp [hexec]
            simp only
            cases hframe : frame.executionId with
            | none => exact .broken b _ _ hbinding howner hsome (.inl hframe)
            | some frameExecutionId =>
                simp only
                by_cases hgen : frameExecutionId = executionId
                · have hsame : frame.executionId = b.executionId := by rw [hframe, hexec, hgen]
                  rw [if_neg (not_not.mpr hgen)]
                  cases hseq : frame.seq with
                  | none =>
                      exact .broken b _ _ hbinding howner hsome (.inr ⟨hsame, by simp [hseq]⟩)
                  | some seq =>
                      simp only
                      by_cases hlt : seq < (r.cells b).nextClientSeq.getD 0
                      · rw [if_pos hlt, howner]
                        exact .duplicate b seq hbinding howner hsome hsame hseq hlt
                      rw [if_neg hlt]
                      by_cases hgt : seq > (r.cells b).nextClientSeq.getD 0
                      · rw [if_pos hgt]
                        refine .broken b _ _ hbinding howner hsome (.inr ⟨hsame, ?_⟩)
                        rintro seq' hseq'
                        obtain rfl : seq = seq' := Option.some.inj (hseq.symm.trans hseq')
                        exact hgt
                      · rw [if_neg hgt]
                        have heq : seq = r.expectedSeq b := by
                          unfold expectedSeq
                          omega
                        exact .accepted b hbinding howner hsome hsame (by rw [hseq, heq])
                · rw [if_pos hgen]
                  refine .stale _ b (by simp) hbinding howner (.inl ?_)
                  rw [hframe, hexec]
                  simpa using hgen
      · have howned : r.ownedBinding (some B) frame.taskId = none := by
          simp [ownedBinding, hbinding, howner]
        simp only [howned]
        exact .foreign b hbinding howner

/-- The frame an execution continues with is accepted. -/
theorem acceptTaskFrame_next (now : ℕ) (ws : WsId) {frame : TaskUpFrame} {b : TaskBinding}
    (hk : r.getBinding frame.taskId = some b) (hexec : b.executionId.isSome)
    (hframe : frame.executionId = b.executionId) (hseq : frame.seq = some (r.expectedSeq b)) :
    r.acceptTaskFrame now ws (some b.agentId) frame = (some (.binding b),
      (r.modifyCell b fun c => { c with nextClientSeq := some (r.expectedSeq b + 1) }).resumeBinding
        frame.taskId b.agentId) := by
  obtain ⟨executionId, he⟩ := Option.isSome_iff_exists.mp hexec
  have howned : r.ownedBinding (some b.agentId) frame.taskId = some b := by
    simp [ownedBinding, hk]
  rw [expectedSeq] at hseq
  simp [acceptTaskFrame, hk, howned, he, hframe, hseq, expectedSeq]

theorem effect_failExecution (hr : r.Consistent) {b : TaskBinding} (hb : b.agentId = B)
    (code message : String) : r.FrameEffect B ws (r.failExecution b code message) := by
  unfold failExecution
  rw [hb]
  exact (effect_failTaskBinding hr hb code message).andThen fun h => effect_sendToAgent h _

theorem FrameVerdict.effect (hr : r.Consistent) {now : ℕ} {frame : TaskUpFrame}
    {res : Option TaskFrameAcceptance} (h : FrameVerdict r now ws B frame res r') :
    r.FrameEffect B ws r' := by
  cases h with
  | unbound => exact effect_acknowledgeReceipt hr now _ frame
  | foreign => exact .refl hr
  | stale => exact effect_acknowledgeReceipt hr now _ frame
  | broken b code message _ hb => exact effect_failExecution hr hb code message
  | duplicate b =>
      exact (effect_acknowledge hr b).andThen fun h => effect_resumeBinding h frame.taskId
  | accepted b _ hb =>
      exact (effect_modifyCell hr hb _).andThen fun h => effect_resumeBinding h frame.taskId
  | legacy => exact effect_resumeBinding hr frame.taskId

/-- An accepted frame's binding is the stored one, before and after. -/
theorem FrameVerdict.stored {now : ℕ} {frame : TaskUpFrame} {b : TaskBinding}
    (h : FrameVerdict r now ws B frame (some (.binding b)) r') :
    b.agentId = B ∧ r.bindings.get? frame.taskId = some b ∧
      r'.bindings.get? frame.taskId = some b := by
  generalize hres : some (TaskFrameAcceptance.binding b) = res at h
  cases h with
  | unbound _ hne => exact absurd hres.symm (hne b)
  | foreign => simp at hres
  | stale _ _ hne => exact absurd hres.symm (hne b)
  | broken => simp at hres
  | duplicate => simp at hres
  | accepted b' hb' howner =>
      obtain rfl : b = b' := by simpa using hres
      exact ⟨howner, hb', by rw [(resumeBinding_frame _ _).2.1]; exact hb'⟩
  | legacy b' hb' howner =>
      obtain rfl : b = b' := by simpa using hres
      exact ⟨howner, hb', by rw [(resumeBinding_frame _ _).2.1]; exact hb'⟩

/-! ## Accepted frames -/

section Handlers

variable {now : ℕ} {k : String} {b : TaskBinding}

theorem effect_pushWireStatus (hr : r.Consistent) (hb : b.agentId = B) (status : WireTaskStatus)
    (final : Bool) (metadata : Option JsonObject) :
    r.FrameEffect B ws (r.pushWireStatus b status final metadata) := by
  unfold pushWireStatus pushStatus
  exact effect_modifyCell hr hb _

theorem effect_rejectApprovalRequest (hr : r.Consistent) (hb : b.agentId = B) :
    r.FrameEffect B ws (r.rejectApprovalRequest b) := by
  unfold rejectApprovalRequest
  rw [hb]
  exact (effect_sendToAgent hr _).andThen fun h => effect_failTaskBinding h hb _ _

theorem effect_processApprovalRequest (hr : r.Consistent) (hk : r.bindings.get? k = some b)
    (hb : b.agentId = B) (request : ApprovalRequest) :
    r.FrameEffect B ws (r.processApprovalRequest now ws b request) := by
  unfold processApprovalRequest
  split
  · exact effect_rejectApprovalRequest hr hb
  · split
    · exact effect_rejectApprovalRequest hr hb
    · rename_i a approvals hreq
      have hstep : r.FrameEffect B ws { r with approvals := approvals } :=
        ⟨hr.approvalRequest hk hreq, rfl, fun _ _ h => h, fun A hA _ =>
          view_approvals (r.approvals.ofAgent_request (by rw [hb]; exact Ne.symm hA) hreq)⟩
      exact (hstep.andThen fun h => effect_pushWireStatus h hb _ _ _).andThen fun h =>
        effect_acknowledge h b

theorem effect_processApprovalReceived (hr : r.Consistent) (hb : b.agentId = B)
    (requestId : String) (decision : ApprovalDecision) :
    r.FrameEffect B ws (r.processApprovalReceived ws b requestId decision) := by
  unfold processApprovalReceived
  split
  · exact effect_acknowledge hr b
  · rename_i received approvals hreceived
    have hstep : r.FrameEffect B ws { r with approvals := approvals } :=
      ⟨hr.approvalReceived hreceived, rfl, fun _ _ h => h, fun A hA _ =>
        view_approvals (r.approvals.ofAgent_received (by rw [hb]; exact Ne.symm hA) hreceived)⟩
    exact (hstep.andThen fun h => effect_pushWireStatus h hb _ _ _).andThen fun h =>
      effect_acknowledge h b

theorem effect_processTaskStatus (hr : r.Consistent) (hb : b.agentId = B)
    (status : WireTaskStatus) (metadata : Option JsonObject) :
    r.FrameEffect B ws (r.processTaskStatus ws b status metadata) := by
  unfold processTaskStatus
  have hbeat : r.FrameEffect B ws (if isHeartbeatStatusFrame metadata then
      r.modifyCell b fun c => { c with heartbeats := some (c.heartbeats.getD 0 + 1) } else r) := by
    split
    · exact effect_modifyCell hr hb _
    · exact .refl hr
  exact (hbeat.andThen fun h => effect_pushWireStatus h hb _ _ _).andThen fun h =>
    effect_acknowledge h b

theorem effect_closeBinding (hr : r.Consistent) (hk : r.bindings.get? b.taskId = some b)
    (hb : b.agentId = B) : r.FrameEffect B ws (r.closeBinding now ws b) := by
  unfold closeBinding
  have hfinish : r.FrameEffect B ws (r.finish b) := effect_modifyCell hr hb _
  have hkfinish : (r.finish b).bindings.get? b.taskId = some b := hk
  generalize r.finish b = r₁ at hfinish hkfinish
  simp only
  split
  · refine (hfinish.andThen fun h => ?_).andThen fun h => effect_acknowledge h b
    refine (effect_rememberTerminalReceipt h now _ hkfinish).andThen fun h =>
      effect_unbindTask h ?_ hb
    obtain ⟨receipts, heq⟩ := r₁.rememberTerminalReceipt_frame now b _
    rw [heq]
    exact hkfinish
  · exact (hfinish.andThen fun h => effect_unbindTask h hkfinish hb).andThen fun h =>
      effect_acknowledge h b

theorem effect_processAccepted (hr : r.Consistent) (hk : r.bindings.get? b.taskId = some b)
    (hb : b.agentId = B) (body : TaskFrameBody) :
    r.FrameEffect B ws (r.processAccepted now ws b body) := by
  cases body with
  | status status metadata => exact effect_processTaskStatus hr hb status metadata
  | artifact artifact append lastChunk =>
      exact (effect_modifyCell hr hb _).andThen fun h => effect_acknowledge h b
  | complete status usage =>
      have husage : r.FrameEffect B ws
          (if usage.isSome then r.modifyCell b fun c => { c with usage := usage } else r) := by
        split
        · exact effect_modifyCell hr hb _
        · exact .refl hr
      have hkusage : (if usage.isSome then r.modifyCell b fun c => { c with usage := usage }
          else r).bindings.get? b.taskId = some b := by
        split <;> exact hk
      exact (husage.andThen fun h => effect_pushWireStatus h hb _ _ _).andThen fun h =>
        effect_closeBinding h hkusage hb
  | fail error =>
      have hpush : r.FrameEffect B ws (r.pushStatus b (clientFailureEvent b error)) :=
        effect_modifyCell hr hb _
      exact hpush.andThen fun h => effect_closeBinding h hk hb
  | approvalRequest request => exact effect_processApprovalRequest hr hk hb request
  | approvalReceived requestId decision =>
      exact effect_processApprovalReceived hr hb requestId decision

end Handlers

/-- A task frame of agent `B` acts on what is `B`'s. -/
theorem effect_processTaskFrame (hr : r.Consistent) (now : ℕ) (frame : TaskUpFrame) :
    r.FrameEffect B ws (r.processTaskFrame now ws (some B) frame) := by
  have hverdict := acceptTaskFrame_verdict r now ws B frame
  unfold processTaskFrame
  rcases hres : r.acceptTaskFrame now ws (some B) frame with ⟨res, r₁⟩
  rw [hres] at hverdict
  simp only at hverdict
  rcases res with _ | b | _
  · exact hverdict.effect hr
  · obtain ⟨hb, hk, hk₁⟩ := hverdict.stored
    refine (hverdict.effect hr).andThen fun h => ?_
    rw [← hr.binding_key _ _ hk] at hk₁
    exact effect_processAccepted h hk₁ hb frame.body
  · exact hverdict.effect hr

end Registry

end VicoopBridge
