import VicoopBridge.Verification.Ws.Handlers

/-! # Sockets over the steps of the server -/

namespace VicoopBridge

open Library

namespace Registry

variable (r : Registry) (now : ℕ) (ws : WsId)

/-! ## Task frames -/

theorem progress_handlers : RespectsHandlers Progress where
  toRespectsApprovals := progress_respects
  cell _ _ _ _ := progress_of_eq rfl rfl
  receipts _ _ := progress_of_eq rfl rfl
  failTask := progress_respects.failTaskBinding
  unbind := progress_respects.unbindTask
  agents _ _ := progress_of_eq rfl rfl
  send r ws frame _ := progress_send r ws frame
  state r ws _ hsent hstate :=
    progress_modifySocket r ws fun s => ⟨by rw [hsent s], fun h => ⟨hstate s h, hsent s⟩⟩

theorem progress_acceptTaskFrame (agentId : Option String) (frame : TaskUpFrame) :
    r.Progress (r.acceptTaskFrame now ws agentId frame).2 := by
  have hreceipt := progress_handlers.acknowledgeReceipt r now ws agentId frame
  unfold acceptTaskFrame
  split
  · exact hreceipt
  split
  · exact .refl r
  split
  · split
    · exact progress_handlers.failExecution r _ _ _
    split
    · exact hreceipt
    split
    · exact progress_handlers.failExecution r _ _ _
    simp only
    split
    · exact (progress_handlers.acknowledge r ws _).trans (progress_respects.resumeBinding _ _ _)
    split
    · exact progress_handlers.failExecution r _ _ _
    · have hcell : ∀ b f, r.Progress (r.modifyCell b f) := fun b f => progress_of_eq rfl rfl
      exact (hcell _ _).trans (progress_respects.resumeBinding _ _ _)
  · split
    · exact hreceipt
    · exact progress_respects.resumeBinding r _ _

theorem progress_processTaskFrame (agentId : Option String) (frame : TaskUpFrame) :
    r.Progress (r.processTaskFrame now ws agentId frame) := by
  have haccept := progress_acceptTaskFrame r now ws agentId frame
  unfold processTaskFrame
  split
  · rename_i b r' heq
    rw [heq] at haccept
    exact haccept.trans (progress_handlers.processAccepted r' now ws b frame.body)
  · rename_i heq
    rw [heq] at haccept
    exact haccept

end Registry

/-! ## Steps -/

namespace Server

variable (s : Server)

theorem progress_onMessage (now : ℕ) (ws : WsId) (c : Connection)
    (parsed : Except String UpFrame) :
    s.registry.Progress (s.onMessage now ws c parsed).registry := by
  have hreject := Registry.progress_handlers.rejectSocket ws s
  unfold onMessage
  split
  · exact hreject _ _
  split
  · unfold processAuthedFrame
    split
    · exact Registry.progress_processTaskFrame _ now ws _ _
    · split
      · unfold resolveUsageResponse
        repeat' split
        all_goals exact .refl _
      · exact .refl _
    · exact .refl _
    · exact hreject _ _
  split
  · split
    · exact Registry.progress_handlers.closeSocket ws s _ _
    split <;> exact .refl _
  · exact hreject _ _

theorem progress_apply (a : ServerAction) : s.registry.Progress (s.apply a).registry := by
  cases a with
  | message now ws parsed =>
      simp only [apply, withConnection]
      split
      · exact progress_onMessage s now ws _ parsed
      · exact .refl _
  | dispatch binding assign =>
      have hbind := Registry.progress_bindTask s.registry binding
      simp only [apply, dispatch]
      split
      · rename_i registry heq
        rw [heq] at hbind
        exact hbind
      · rename_i registry heq
        rw [heq] at hbind
        exact hbind.trans (Registry.progress_sendToAgent _ _ _)
  | _ =>
      exact Registry.progress_handlers.apply s (by simp) (by simp)
        fun _ _ _ => Registry.progress_sendToAgent _ _ _

end Server

end VicoopBridge
