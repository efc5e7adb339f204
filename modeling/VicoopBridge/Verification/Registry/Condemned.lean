import VicoopBridge.Model.Ws
import VicoopBridge.Verification.Registry.GraceRuns
import VicoopBridge.Verification.Registry.Sockets

/-! # Condemned sockets

A verdict of the server on a socket is never taken back, so whenever and however the
socket is lost afterwards, the tasks of its agent fail instead of being held. -/

namespace VicoopBridge

open Library

namespace Registry

/-! ## The server's decisions -/

/-- The loop of `disconnectClient` condemns the socket of every connection it closes. -/
theorem disconnectLoop_serverClosed (conns : List ClientConnection) :
    ∀ r : Registry, ∀ conn ∈ conns, (conns.foldl (fun r conn => (r.noteServerClose conn.ws).modifySocket
      conn.ws (Socket.close · 4014 "client deleted")) r).serverClosed conn.ws := by
  induction conns with
  | nil => simp
  | cons conn rest ih =>
      intro r conn' hconn'
      rcases List.mem_cons.mp hconn' with rfl | hmem
      · have hrest : ((r.noteServerClose conn'.ws).modifySocket conn'.ws
            (Socket.close · 4014 "client deleted")).Progress (rest.foldl
              (fun r conn => (r.noteServerClose conn.ws).modifySocket conn.ws
                (Socket.close · 4014 "client deleted")) _) :=
          progress_disconnectLoop rest _
        exact hrest.verdict conn'.ws (noteServerClose_self r conn'.ws)
      · exact ih _ conn' hmem

/-- The step decides that the socket is to be closed. -/
def GraceAction.condemns (r : Registry) (ws : WsId) : GraceAction → Prop
  | noteServerClose ws' => ws' = ws
  | disconnectClient clientId =>
      ∃ agentId conn, r.agents.get? agentId = some conn ∧ conn.clientId = clientId ∧ conn.ws = ws
  | _ => False

theorem GraceAction.condemned {r : Registry} {ws : WsId} {a : GraceAction}
    (h : a.condemns r ws) : (a.apply r).serverClosed ws := by
  cases a with
  | noteServerClose ws' =>
      obtain rfl : ws' = ws := h
      exact noteServerClose_self r ws'
  | disconnectClient clientId =>
      obtain ⟨agentId, conn, hconn, hclient, rfl⟩ := h
      refine disconnectLoop_serverClosed _ r conn ?_
      rw [List.mem_filter, InsertionMap.mem_values_iff]
      exact ⟨⟨agentId, hconn⟩, by simpa using hclient⟩
  | _ => exact h.elim

theorem GraceAction.progress (r : Registry) (a : GraceAction) : r.Progress (a.apply r) := by
  cases a with
  | registerAgent now conn =>
      simp only [GraceAction.apply]
      cases hreg : r.registerAgent now conn with
      | ok r' => exact progress_registerAgent r hreg
      | error reason => exact .refl r
  | unregisterAgent now agentId ws closeCode => exact progress_unregisterAgent r _ _ _ _
  | noteServerClose ws => exact progress_noteServerClose r ws
  | disconnectClient clientId => exact progress_respects.disconnectClient r clientId
  | holdBindingsForAgent now agentId error => exact progress_respects.holdBindingsForAgent r _ _ _
  | resumeBinding taskId agentId => exact progress_respects.resumeBinding r _ _
  | bindTask binding => exact progress_bindTask r binding
  | unbindTask taskId binding => exact progress_respects.unbindTask r _ _
  | failTaskBinding binding code message => exact progress_respects.failTaskBinding r _ _ _
  | failBindingsForAgent agentId error => exact progress_respects.failBindingsForAgent r _ _
  | expire timer => exact progress_respects.expireGraceTimer r timer

theorem progress_run {r r' : Registry} {labels : List GraceAction}
    (h : graceSystem.Run r labels r') : r.Progress r' := by
  refine h.invariant (I := r.Progress) ?_ (.refl r)
  rintro r₁ a _ hprogress ⟨-, rfl⟩
  exact hprogress.trans (GraceAction.progress r₁ a)

/-! ## Losing a socket -/

/-- The tasks of the agent are failed: none stays bound, none is held. -/
structure FailsTasks (agentId : String) (r r' : Registry) : Prop where
  unbound : ∀ k b, r'.bindings.get? k = some b → b.agentId ≠ agentId
  unheld : ∀ k hold, r'.graceHolds.get? k = some hold →
    r.graceHolds.get? k = some hold ∧ hold.binding.agentId ≠ agentId

theorem FailsTasks.congr {agentId : String} {r r₁ r₂ r' : Registry}
    (h : r₁.FailsTasks agentId r₂) (hheld : r₁.graceHolds = r.graceHolds)
    (hbindings : r'.bindings = r₂.bindings) (hheld' : r'.graceHolds = r₂.graceHolds) :
    r.FailsTasks agentId r' where
  unbound := by rw [hbindings]; exact h.unbound
  unheld := by rw [hheld', ← hheld]; exact h.unheld

theorem GraceInvariant.failsTasks {r : Registry} (inv : r.GraceInvariant) (agentId : String)
    (error : TerminalError) : r.FailsTasks agentId (r.failBindingsForAgent agentId error) := by
  have hends := ends_failBindingsForAgent r agentId error
  have hunbound : ∀ k b, (r.failBindingsForAgent agentId error).bindings.get? k = some b →
      b.agentId ≠ agentId := by
    intro k b hstored hagent
    have hbefore := hends.binding k b hstored
    have hkey : b.taskId = k := inv.binding_key k b hbefore
    refine failLoop_not_stored error b _ r ?_ (hkey ▸ hstored)
    rw [List.mem_filter, InsertionMap.mem_values_iff]
    exact ⟨⟨k, hbefore⟩, by simpa using hagent⟩
  refine ⟨hunbound, fun k hold hk => ⟨hends.hold k hold hk, ?_⟩⟩
  exact hunbound k _ ((inv.failBindingsForAgent agentId error).hold_stored k hold hk)

theorem GraceInvariant.failsTasks_unregisterAgent {r : Registry} (inv : r.GraceInvariant)
    {agentId : String} {conn : ClientConnection} (hconn : r.agents.get? agentId = some conn)
    (hclosed : r.serverClosed conn.ws) (now : ℕ) (closeCode : Option ℕ) :
    r.FailsTasks agentId (r.unregisterAgent now agentId conn.ws closeCode) := by
  have inv' : { r with agents := r.agents.erase agentId }.GraceInvariant :=
    inv.congr rfl rfl rfl rfl
  have hunregister : r.unregisterAgent now agentId conn.ws closeCode =
      { r with agents := r.agents.erase agentId }.failBindingsForAgent agentId
        disconnectedError := by
    simp [unregisterAgent, hconn, hclosed]
  rw [hunregister]
  exact (inv'.failsTasks agentId disconnectedError).congr rfl rfl rfl

theorem GraceInvariant.failsTasks_registerAgent {r r' : Registry} (inv : r.GraceInvariant)
    {now : ℕ} {conn existing : ClientConnection}
    (hexisting : r.agents.get? conn.agentId = some existing) (hclosed : r.serverClosed existing.ws)
    (hreg : r.registerAgent now conn = .ok r') : r.FailsTasks conn.agentId r' := by
  have inv' : (r.modifySocket existing.ws
      (Socket.close · 4009 "another client with the same token connected")).GraceInvariant :=
    inv.congr rfl rfl rfl rfl
  have hdisplace : r.displaceConnection now conn.agentId existing =
      (r.modifySocket existing.ws
        (Socket.close · 4009 "another client with the same token connected")).failBindingsForAgent
          conn.agentId disconnectedError := by
    simp [displaceConnection, hclosed]
  unfold registerAgent at hreg
  rw [hexisting] at hreg
  simp only at hreg
  split at hreg
  · obtain rfl := Except.ok.inj hreg
    rw [hdisplace]
    exact (inv'.failsTasks conn.agentId disconnectedError).congr rfl rfl rfl
  · simp at hreg

/-- A socket that is not the agent's registered one has nothing to unregister. -/
theorem unregisterAgent_stale (r : Registry) (now : ℕ) {agentId : String} {ws : WsId}
    (closeCode : Option ℕ)
    (hstale : ∀ conn, r.agents.get? agentId = some conn → conn.ws ≠ ws) :
    r.unregisterAgent now agentId ws closeCode = r := by
  unfold unregisterAgent
  split
  · rfl
  · rename_i conn hconn
    exact if_pos (hstale conn hconn)

/-! ## The contract -/

/-- At some earlier time the server decided to close the socket. -/
def Condemned (r : Registry) (ws : WsId) : Prop :=
  ∃ r₀ a r₁ later, graceSystem.Reachable r₀ ∧ graceSystem.step r₀ a r₁ ∧ a.condemns r₀ ws ∧
    graceSystem.Run r₁ later r

theorem Condemned.serverClosed {r : Registry} {ws : WsId} (h : r.Condemned ws) :
    r.serverClosed ws := by
  obtain ⟨r₀, a, r₁, later, -, ⟨-, rfl⟩, hverdict, hrun⟩ := h
  exact (progress_run hrun).verdict ws (GraceAction.condemned hverdict)

/-- What the loss of a socket may do, for one that was condemned and for one that is not
registered any more. -/
structure SocketSpec (r : Registry) : Prop where
  unregistered : ∀ ws, r.Condemned ws → ∀ agentId conn, r.agents.get? agentId = some conn →
    conn.ws = ws → ∀ now closeCode,
      r.FailsTasks agentId (r.unregisterAgent now agentId ws closeCode)
  displaced : ∀ ws, r.Condemned ws → ∀ conn existing,
    r.agents.get? conn.agentId = some existing → existing.ws = ws → ∀ now r',
      r.registerAgent now conn = .ok r' → r.FailsTasks conn.agentId r'
  stale : ∀ agentId ws, (∀ conn, r.agents.get? agentId = some conn → conn.ws ≠ ws) →
    ∀ now closeCode, r.unregisterAgent now agentId ws closeCode = r
  /-- The close event of a condemned socket adds no hold, whatever its code. -/
  closed : ∀ ws, r.Condemned ws → ∀ s : Server, s.registry = r → ∀ now c code k hold,
    (s.onClose now ws c code).registry.graceHolds.get? k = some hold →
      r.graceHolds.get? k = some hold
  /-- The close event of a socket that is not registered changes the socket alone. -/
  staleClosed : ∀ (s : Server) ws c, s.registry = r →
    (∀ agentId conn, c.agentId = some agentId → r.agents.get? agentId = some conn →
      conn.ws ≠ ws) → ∀ now code, (s.onClose now ws c code).registry =
        r.modifySocket ws fun socket => { socket with readyState := .closed }

theorem socketSpec_of_reachable {r : Registry} (h : graceSystem.Reachable r) : r.SocketSpec := by
  have inv := graceInvariant_of_reachable h
  refine ⟨?_, ?_, ?_, ?_, ?_⟩
  · rintro _ hcondemned agentId conn hconn rfl now closeCode
    exact inv.failsTasks_unregisterAgent hconn hcondemned.serverClosed now closeCode
  · rintro _ hcondemned conn existing hexisting rfl now r' hreg
    exact inv.failsTasks_registerAgent hexisting hcondemned.serverClosed hreg
  · intro agentId ws hstale now closeCode
    exact r.unregisterAgent_stale now closeCode hstale
  · rintro ws hcondemned s rfl now c code k hold hk
    have inv' : (s.registry.modifySocket ws
        fun socket => { socket with readyState := .closed }).GraceInvariant :=
      inv.congr rfl rfl rfl rfl
    unfold Server.onClose at hk
    simp only at hk
    split at hk
    · rename_i agentId hagent
      by_cases hmine : ∃ conn, s.registry.agents.get? agentId = some conn ∧ conn.ws = ws
      · obtain ⟨conn, hconn, rfl⟩ := hmine
        exact ((inv'.failsTasks_unregisterAgent hconn hcondemned.serverClosed now
          (some code)).unheld k hold hk).1
      · have hstale : ∀ conn, s.registry.agents.get? agentId = some conn → conn.ws ≠ ws :=
          fun conn hconn hws => hmine ⟨conn, hconn, hws⟩
        have hsame := (s.registry.modifySocket ws fun socket =>
          { socket with readyState := .closed }).unregisterAgent_stale now (some code) hstale
        exact (congrArg (fun r => r.graceHolds.get? k) hsame).symm.trans hk
    · exact hk
  · rintro s ws c rfl hstale now code
    unfold Server.onClose
    simp only
    split
    · rename_i agentId hagent
      have hc : c.agentId = some agentId := (Option.filter_eq_some_iff.mp hagent).1
      exact unregisterAgent_stale _ now (some code) fun conn hconn => hstale agentId conn hc hconn
    · rfl

section Witness

private def revokedClient : ClientConnection where
  agentId := "agent"
  clientId := "client"
  protocolCapabilities := some [taskReplayCapability]
  ws := 0

private def revokedBinding : TaskBinding where
  ref := 0
  agentId := "agent"
  taskId := "task"
  executionId := some "execution"
  contextId := "context"

private def boundRegistry : Registry :=
  let r : Registry := { disconnectGraceMs := 30000 }
  let r := GraceAction.apply r (.registerAgent 0 revokedClient)
  GraceAction.apply r (.bindTask revokedBinding)

private theorem boundRegistry_reachable : graceSystem.Reachable boundRegistry :=
  System.Reachable.step (System.Reachable.step (System.Reachable.of_init ⟨30000, rfl⟩)
    (a := .registerAgent 0 revokedClient) ⟨trivial, rfl⟩)
    (a := .bindTask revokedBinding) ⟨trivial, rfl⟩

/-- The client of a bound task was deleted. -/
private def revokedRegistry : Registry := GraceAction.apply boundRegistry (.disconnectClient "client")

private theorem revokedRegistry_condemned : revokedRegistry.Condemned 0 :=
  ⟨boundRegistry, .disconnectClient "client", revokedRegistry, [], boundRegistry_reachable,
    ⟨trivial, rfl⟩, ⟨"agent", revokedClient, by decide, rfl, rfl⟩, .nil _⟩

theorem socketSpec_of_reachable_revoked :
    (revokedRegistry.unregisterAgent 5 "agent" 0 (some 1006)).graceHolds.get? "task" = none ∧
      revokedRegistry.FailsTasks "agent" (revokedRegistry.unregisterAgent 5 "agent" 0 (some 1006)) :=
  ⟨by decide +kernel, (socketSpec_of_reachable (boundRegistry_reachable.step
    (a := .disconnectClient "client") ⟨trivial, rfl⟩)).unregistered 0 revokedRegistry_condemned
    "agent" revokedClient (by decide) rfl 5 (some 1006)⟩

end Witness

end Registry

end VicoopBridge
