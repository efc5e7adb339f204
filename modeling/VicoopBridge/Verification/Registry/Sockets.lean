import Mathlib.Data.List.Infix
import VicoopBridge.Verification.Registry.Frame

/-! # Sockets only move forward

Whatever the registry does, a socket that stopped being open stays so, its sent frames
are never taken back, and neither is a verdict on it. -/

namespace VicoopBridge

open Library

namespace Socket

/-- How a socket may look later on. -/
structure Later (s s' : Socket) : Prop where
  sent : s.sent <+: s'.sent
  silent : s.readyState ≠ .opened → s'.readyState ≠ .opened ∧ s'.sent = s.sent

theorem Later.refl (s : Socket) : s.Later s := ⟨List.prefix_refl _, fun h => ⟨h, rfl⟩⟩

theorem Later.trans {s s' s'' : Socket} (h : s.Later s') (h' : s'.Later s'') : s.Later s'' where
  sent := h.sent.trans h'.sent
  silent hs := by
    obtain ⟨hs', hsent⟩ := h.silent hs
    obtain ⟨hs'', hsent'⟩ := h'.silent hs'
    exact ⟨hs'', hsent'.trans hsent⟩

theorem later_send (s : Socket) (frame : DownFrame) : s.Later (s.send frame) := by
  unfold send
  split
  · rename_i hopen
    exact ⟨List.prefix_append _ _, fun h => absurd hopen h⟩
  · exact .refl s

theorem later_close (s : Socket) (code : ℕ) (reason : String) : s.Later (s.close code reason) := by
  unfold close
  split
  · rename_i hopen
    exact ⟨List.prefix_refl _, fun h => absurd hopen h⟩
  · exact .refl s

theorem close_not_opened (s : Socket) (code : ℕ) (reason : String) :
    (s.close code reason).readyState ≠ .opened := by
  unfold close
  split
  · simp
  · assumption

end Socket

namespace Registry

/-! ## Progress -/

structure Progress (r r' : Registry) : Prop where
  socket : ∀ ws, (r.sockets ws).Later (r'.sockets ws)
  verdict : ∀ ws, r.serverClosed ws → r'.serverClosed ws

variable {r r' r'' : Registry}

theorem Progress.refl (r : Registry) : r.Progress r := ⟨fun _ => .refl _, fun _ h => h⟩

theorem Progress.trans (h : r.Progress r') (h' : r'.Progress r'') : r.Progress r'' :=
  ⟨fun ws => (h.socket ws).trans (h'.socket ws), fun ws hws => h'.verdict ws (h.verdict ws hws)⟩

theorem progress_of_eq (hsockets : r'.sockets = r.sockets)
    (hverdicts : r'.serverClosed = r.serverClosed) : r.Progress r' := by
  refine ⟨?_, ?_⟩
  · rw [hsockets]
    exact fun _ => .refl _
  · rw [hverdicts]
    exact fun _ h => h

variable (r)

theorem progress_modifySocket (ws : WsId) {f : Socket → Socket} (hf : ∀ s : Socket, s.Later (f s)) :
    r.Progress (r.modifySocket ws f) := by
  refine ⟨fun ws' => ?_, fun _ h => h⟩
  by_cases heq : ws' = ws
  · subst heq
    simpa [modifySocket] using hf _
  · simpa [modifySocket, heq] using Socket.Later.refl _

theorem progress_send (ws : WsId) (frame : DownFrame) :
    r.Progress (r.modifySocket ws (Socket.send · frame)) :=
  progress_modifySocket r ws fun s => s.later_send frame

theorem progress_close (ws : WsId) (code : ℕ) (reason : String) :
    r.Progress (r.modifySocket ws (Socket.close · code reason)) :=
  progress_modifySocket r ws fun s => s.later_close code reason

theorem progress_sendToAgent (agentId : String) (frame : DownFrame) :
    r.Progress (r.sendToAgent agentId frame).2 := by
  unfold sendToAgent
  split
  · exact .refl r
  · exact progress_send r _ frame

@[simp] theorem noteServerClose_self (ws : WsId) : (r.noteServerClose ws).serverClosed ws := by
  simp [noteServerClose]

theorem progress_noteServerClose (ws : WsId) : r.Progress (r.noteServerClose ws) := by
  refine ⟨fun _ => .refl _, fun ws' h => ?_⟩
  by_cases heq : ws' = ws
  · simp [noteServerClose, heq]
  · simpa [noteServerClose, heq] using h

/-- The loop of `disconnectClient`. -/
theorem progress_disconnectLoop (conns : List ClientConnection) (r : Registry) :
    r.Progress (conns.foldl (fun r conn => (r.noteServerClose conn.ws).modifySocket conn.ws
      (Socket.close · 4014 "client deleted")) r) := by
  refine List.foldlRecOn (motive := r.Progress) _ _ (.refl r) ?_
  intro r' h conn _
  exact (h.trans (progress_noteServerClose r' conn.ws)).trans
    (progress_close _ conn.ws 4014 "client deleted")

/-! ## The operations -/

theorem progress_respects : RespectsApprovals Progress where
  refl := .refl
  trans h h' := h.trans h'
  hold _ _ _ _ := progress_of_eq rfl rfl
  invalidate _ _ := progress_of_eq rfl rfl
  fail _ _ _ := progress_of_eq rfl rfl
  erase _ _ := progress_of_eq rfl rfl
  close := progress_close
  note := progress_noteServerClose
  approvals _ _ := progress_of_eq rfl rfl
  resolve r ws _ _ _ _ := progress_send r ws _
  cancel r ws _ _ := progress_send r ws _

theorem progress_registerAgent {now : ℕ} {conn : ClientConnection}
    (h : r.registerAgent now conn = .ok r') : r.Progress r' :=
  progress_respects.registerAgent r (fun _ _ => progress_of_eq rfl rfl) h

theorem progress_unregisterAgent (now : ℕ) (agentId : String) (ws : WsId)
    (closeCode : Option ℕ) : r.Progress (r.unregisterAgent now agentId ws closeCode) :=
  progress_respects.unregisterAgent r (fun _ _ => progress_of_eq rfl rfl) now agentId ws closeCode

theorem progress_bindTask (b : TaskBinding) : r.Progress (r.bindTask b).2 := by
  unfold bindTask
  split
  · exact progress_of_eq rfl rfl
  · rename_i existing _
    simp only
    split
    · exact .refl r
    split
    · exact progress_of_eq rfl rfl
    · exact (progress_respects.clearGraceHold r b.taskId (some existing)).trans
        (progress_of_eq rfl rfl)

/-! ## Operations that write to no socket -/

section Silent

variable (r : Registry) (b : TaskBinding)

@[simp] theorem clearGraceHold_sockets (k : String) (binding : Option TaskBinding) :
    (r.clearGraceHold k binding).sockets = r.sockets := by
  obtain ⟨_, _, h⟩ := clearGraceHold_frame r k binding
  rw [h]

@[simp] theorem failTaskBinding_sockets (code message : String) :
    (r.failTaskBinding b code message).sockets = r.sockets := by
  unfold failTaskBinding
  split
  · rfl
  · exact clearGraceHold_sockets r b.taskId (some b)

@[simp] theorem unbindTask_sockets (taskId : String) :
    (r.unbindTask taskId b).sockets = r.sockets := by
  unfold unbindTask
  simp only
  split
  · rfl
  · exact clearGraceHold_sockets _ taskId (some b)

@[simp] theorem resumeBinding_sockets (taskId agentId : String) :
    (r.resumeBinding taskId agentId).sockets = r.sockets := by
  unfold resumeBinding
  repeat' split
  all_goals rfl

end Silent

/-! ## What is sent on the way -/

/-- The frame is among those sent on the socket between the two states. -/
def Sends (r r' : Registry) (ws : WsId) (frame : DownFrame) : Prop :=
  frame ∈ (r'.sockets ws).sent.drop (r.sockets ws).sent.length

section Sends

variable {r r' r'' : Registry} {ws : WsId} {frame : DownFrame}

theorem Sends.after (h : r.Sends r' ws frame) (hlater : r'.Progress r'') :
    r.Sends r'' ws frame :=
  (List.IsPrefix.drop (hlater.socket ws).sent _).subset h

theorem Sends.before (hearlier : r.Progress r') (h : r'.Sends r'' ws frame) :
    r.Sends r'' ws frame :=
  List.drop_subset_drop_left _ (hearlier.socket ws).sent.length_le h

theorem sends_send (hopen : (r.sockets ws).readyState = .opened) :
    r.Sends (r.modifySocket ws (Socket.send · frame)) ws frame := by
  simp [Sends, modifySocket, Socket.send, hopen]

theorem sends_sendToAgent {agentId : String} {conn : ClientConnection}
    (hagent : r.agents.get? agentId = some conn)
    (hopen : (r.sockets conn.ws).readyState = .opened) :
    r.Sends (r.sendToAgent agentId frame).2 conn.ws frame := by
  simp only [sendToAgent, hagent]
  exact sends_send hopen

/-- Nothing can be sent on a socket that is not open. -/
theorem Progress.not_sends (h : r.Progress r') (hclosed : (r.sockets ws).readyState ≠ .opened) :
    ¬ r.Sends r' ws frame := by
  simp [Sends, ((h.socket ws).silent hclosed).2]

theorem not_sends_of_eq (h : r'.sockets = r.sockets) : ¬ r.Sends r' ws frame := by
  simp [Sends, h]

end Sends

end Registry

end VicoopBridge
