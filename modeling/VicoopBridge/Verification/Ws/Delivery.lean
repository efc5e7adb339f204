import VicoopBridge.Verification.Ws.Handlers

/-! # What a server applies of one execution

A frame of an execution is applied exactly at the sequence number its binding expects, which
then goes on by one. Nothing else moves that number. -/

namespace VicoopBridge

open Library

namespace Registry

variable {e : String} {r r' : Registry} {now : ℕ} {ws : WsId}

/-! ## Handlers -/

theorem routine_handlers : RespectsHandlers (Routine e) where
  toRespectsApprovals := routine_respects
  cell r b _ hf := routine_modifyCell r b fun _ => hf
  receipts _ _ := routine_of_eq rfl rfl rfl
  failTask := routine_respects.failTaskBinding
  unbind := routine_respects.unbindTask
  agents _ _ := routine_of_eq rfl rfl rfl
  send r ws _ hframe := routine_send r ws (hframe e)
  state r ws _ hsent _ := routine_modifySocket r ws fun s => .of_eq (hsent s)

theorem closeBinding_not_stored (r : Registry) (now : ℕ) (ws : WsId) (b : TaskBinding) :
    (r.closeBinding now ws b).bindings.get? b.taskId ≠ some b := by
  have hclosed (r₁ : Registry) :
      ((r₁.unbindTask b.taskId b).acknowledge ws b).bindings.get? b.taskId ≠ some b := by
    intro hk
    have hk' := (routine_handlers (e := "").acknowledge (r₁.unbindTask b.taskId b) ws b).bindings
      _ _ hk
    unfold unbindTask at hk'
    simp only at hk'
    split at hk'
    · rename_i hother
      exact hother hk'
    · simp at hk'
  exact hclosed _

theorem processAccepted_fail (r : Registry) (now : ℕ) (ws : WsId) (b : TaskBinding)
    (error : FrameError) :
    (r.processAccepted now ws b (.fail error)).bindings.get? b.taskId ≠ some b :=
  closeBinding_not_stored _ now ws b

/-! ## Task frames -/

/-- The frame, if it is applied to the binding of the execution. -/
def appliedFrame (r : Registry) (now : ℕ) (ws : WsId) (agentId : Option String)
    (frame : TaskUpFrame) (e : String) : List TaskUpFrame :=
  match (r.acceptTaskFrame now ws agentId frame).1 with
  | some (.binding b) => if b.executionId = some e then [frame] else []
  | _ => []

/-- A step of the registry and the frames of the execution that it applies. -/
inductive Delivers (e : String) (r r' : Registry) : List TaskUpFrame → Prop where
  | nothing (h : r.Routine e r') : Delivers e r r' []
  | frame (b) (frame : TaskUpFrame) (hexec : b.executionId = some e)
      (hstored : r.bindings.get? b.taskId = some b) (hframe : frame.executionId = some e)
      (hseq : frame.seq = some (r.expectedSeq b))
      (hnext : (r'.cells b).nextClientSeq = some (r.expectedSeq b + 1))
      (hothers : ∀ b', b'.executionId = some e → b' ≠ b →
        (r'.cells b').nextClientSeq = (r.cells b').nextClientSeq)
      (hbindings : ∀ k b', r'.bindings.get? k = some b' → r.bindings.get? k = some b')
      (hsent : ∀ ws, (r.sockets ws).Adds e (r'.sockets ws))
      (hfail : ∀ error, frame.body = .fail error → r'.bindings.get? b.taskId ≠ some b) :
      Delivers e r r' [frame]

theorem processTaskFrame_delivers (hr : r.Consistent) (now : ℕ) (ws : WsId) (B : String)
    (frame : TaskUpFrame) :
    Delivers e r (r.processTaskFrame now ws (some B) frame)
      (r.appliedFrame now ws (some B) frame e) := by
  have hverdict := acceptTaskFrame_verdict r now ws B frame
  unfold processTaskFrame appliedFrame
  generalize r.acceptTaskFrame now ws (some B) frame = result at hverdict
  obtain ⟨res, r₁⟩ := result
  simp only at hverdict ⊢
  cases hverdict with
  | unbound _ hres | stale _ _ hres =>
      cases res with
      | none => exact .nothing (routine_handlers.acknowledgeReceipt r now ws _ frame)
      | some acceptance =>
          cases acceptance with
          | binding b => exact absurd rfl (hres b)
          | handled => exact .nothing (routine_handlers.acknowledgeReceipt r now ws _ frame)
  | foreign => exact .nothing (.refl r)
  | broken b code message => exact .nothing (routine_handlers.failExecution r b code message)
  | duplicate b =>
      exact .nothing ((routine_handlers.acknowledge r ws b).trans (routine_respects.resumeBinding _ _ _))
  | legacy b _ _ hexec =>
      simp only [hexec, reduceCtorEq, if_false]
      exact .nothing
        ((routine_respects.resumeBinding r _ _).trans (routine_handlers.processAccepted _ now ws b _))
  | accepted b hget hb hexec hgen hseq =>
      set r₁ := (r.modifyCell b fun c => { c with nextClientSeq := some (r.expectedSeq b + 1) })
        |>.resumeBinding frame.taskId B with hr₁
      have hresumed := (routine_respects : RespectsApprovals (Routine e)).resumeBinding
        (r.modifyCell b fun c => { c with nextClientSeq := some (r.expectedSeq b + 1) })
        frame.taskId B
      have hdone := hresumed.trans (routine_handlers.processAccepted r₁ now ws b frame.body)
      by_cases he : b.executionId = some e
      · simp only [he, if_true]
        have hkey : b.taskId = frame.taskId := hr.binding_key _ _ hget
        refine .frame b frame he (by rw [hkey]; exact hget) (hgen.trans he) hseq ?_ ?_ ?_ ?_ ?_
        · rw [hdone.next b he]
          simp [modifyCell]
        · intro b' he' hne
          rw [hdone.next b' he']
          simp [modifyCell, hne]
        · exact fun k b' hk => hdone.bindings k b' hk
        · exact hdone.sent
        · intro error hbody
          rw [hbody]
          exact processAccepted_fail r₁ now ws b error
      · simp only [he, if_false]
        exact .nothing ((routine_modifyCell r b fun h => absurd h he).trans hdone)

end Registry

/-! ## Steps of the server -/

namespace Server

variable {e : String} {s : Server}

/-- The frames of the execution that a message has the server apply. -/
def appliedFrames (s : Server) (now : ℕ) (ws : WsId) (parsed : Except String UpFrame)
    (e : String) : List TaskUpFrame :=
  match s.connections ws, parsed with
  | some c, .ok (.task frame) =>
      if c.authed then s.registry.appliedFrame now ws c.agentId frame e else []
  | _, _ => []

theorem message_delivers (hs : s.Invariant) (now : ℕ) {ws : WsId} {c : Connection}
    (hc : s.connections ws = some c) (parsed : Except String UpFrame) :
    Registry.Delivers e s.registry (s.apply (.message now ws parsed)).registry
      (s.appliedFrames now ws parsed e) := by
  have hroutine (t : Server) (h : s.registry.Routine e t.registry) :
      Registry.Delivers e s.registry t.registry [] := .nothing h
  have hreject := Registry.routine_handlers (e := e).rejectSocket ws s
  simp only [apply, withConnection, hc]
  unfold onMessage appliedFrames
  simp only [hc]
  cases parsed with
  | error complaint => exact hroutine _ (hreject _ _)
  | ok frame =>
      by_cases hauthed : c.authed
      · obtain ⟨B, hB⟩ := Option.isSome_iff_exists.mp ((hs.connection ws c hc).authed hauthed)
        simp only [hauthed, if_true, hB]
        cases frame with
        | task frame =>
            simp only [hauthed, if_true, hB]
            exact Registry.processTaskFrame_delivers hs.consistent now ws B frame
        | usageResponse frame =>
            simp only [processAuthedFrame]
            split
            · unfold resolveUsageResponse
              repeat' split
              all_goals exact hroutine _ (.refl _)
            · exact hroutine _ (.refl _)
        | pong => exact hroutine _ (.refl _)
        | hello hello => exact hroutine _ (hreject _ _)
      · simp only [hauthed, Bool.false_eq_true, if_false]
        cases frame with
        | hello hello =>
            simp only
            split
            · exact hroutine _ (Registry.routine_handlers.closeSocket ws s _ _)
            split <;> exact hroutine _ (.refl _)
        | task frame =>
            simp only [hauthed, Bool.false_eq_true, if_false]
            exact hroutine _ (hreject _ _)
        | usageResponse frame => exact hroutine _ (hreject _ _)
        | pong => exact hroutine _ (hreject _ _)

theorem mem_appliedFrames {now : ℕ} {ws : WsId} {parsed : Except String UpFrame}
    {frame : TaskUpFrame} (h : frame ∈ s.appliedFrames now ws parsed e) :
    parsed = .ok (.task frame) := by
  unfold appliedFrames at h
  split at h
  · split at h
    · unfold Registry.appliedFrame at h
      split at h
      · split at h
        · rw [List.mem_singleton.mp h]
        · simp at h
      · simp at h
    · simp at h
  · simp at h

/-- A task goes to at most one socket. -/
theorem dispatch_spec (s : Server) (binding : TaskBinding) (assign : DownFrame) :
    (∀ b, b.executionId = some e → ((s.dispatch binding assign).registry.cells b).nextClientSeq =
      (s.registry.cells b).nextClientSeq) ∧
    (∀ k b, (s.dispatch binding assign).registry.bindings.get? k = some b →
      b = binding ∨ s.registry.bindings.get? k = some b) ∧
    ∃ target : Option WsId, ∀ ws, ((s.dispatch binding assign).registry.sockets ws).sent =
      (s.registry.sockets ws).sent ++ if target = some ws then [assign] else [] := by
  obtain ⟨hnext, hbindings, hsockets⟩ := Registry.bindTask_spec (e := e) s.registry binding
  unfold dispatch
  generalize s.registry.bindTask binding = result at hnext hbindings hsockets
  obtain ⟨bound, r⟩ := result
  simp only at hnext hbindings hsockets
  cases bound with
  | false => exact ⟨hnext, hbindings, none, by simp [hsockets]⟩
  | true =>
      simp only [Registry.sendToAgent]
      split
      · exact ⟨hnext, hbindings, none, by simp [hsockets]⟩
      · rename_i conn _
        refine ⟨hnext, hbindings, if (r.sockets conn.ws).readyState = .opened then some conn.ws
          else none, fun ws => ?_⟩
        rw [← hsockets]
        by_cases hws : conn.ws = ws
        · subst hws
          unfold Socket.send
          by_cases hopen : (r.sockets conn.ws).readyState = .opened <;>
            simp [Registry.modifySocket, hopen]
        · rw [if_neg (by split <;> simp_all), List.append_nil]
          simp [Registry.modifySocket, Ne.symm hws]

end Server

end VicoopBridge
