import VicoopBridge.Verification.Ws.Answers
import VicoopBridge.Verification.Ws.Delivery

/-! # Where an assignment goes

An execution is assigned to the one socket on which its agent is registered, and by the
executor alone. -/

namespace VicoopBridge

open Library

variable {e : String} {ws : WsId} {i : ℕ}

theorem Registry.assignsAt_sendToAgent {r : Registry} {agentId : String} {frame : DownFrame}
    (hnew : ((r.sendToAgent agentId frame).2.sockets ws).AssignsAt e i)
    (hold : ¬ (r.sockets ws).AssignsAt e i) :
    frame.assigns e ∧ r.ConnectedBy agentId ws := by
  unfold sendToAgent at hnew
  split at hnew
  · exact absurd hnew hold
  rename_i conn hconn
  by_cases hws : conn.ws = ws
  · refine ⟨?_, conn, hconn, hws⟩
    subst hws
    obtain ⟨frame', hi, hassigns⟩ := hnew
    simp only [modifySocket, Function.update_self, Socket.send] at hi
    split at hi
    · rw [List.getElem?_append] at hi
      split at hi
      · exact absurd ⟨frame', hi, hassigns⟩ hold
      · obtain rfl := List.mem_singleton.mp (List.mem_of_getElem? hi)
        exact hassigns
    · exact absurd ⟨frame', hi, hassigns⟩ hold
  · refine absurd ?_ hold
    simpa [modifySocket, Ne.symm hws] using hnew

namespace Server

/-- The executor sends the assignment to the agent whose socket this is. -/
def Assigns (s : Server) (a : ServerAction) (e : String) (ws : WsId) : Prop :=
  ∃ agentId frame, frame.assigns e ∧
    (a = .sendToAgent agentId frame ∨
      ∃ binding : TaskBinding, binding.agentId = agentId ∧ a = .dispatch binding frame) ∧
    s.registry.ConnectedBy agentId ws ∧ ∃ c, s.connections ws = some c ∧ c.agentId = some agentId

variable {s t : Server} {a : ServerAction}

theorem assigns_of_registered (inv : s.Invariant) {agentId : String} {frame : DownFrame}
    (ha : a = .sendToAgent agentId frame ∨
      ∃ binding : TaskBinding, binding.agentId = agentId ∧ a = .dispatch binding frame)
    (h : frame.assigns e ∧ s.registry.ConnectedBy agentId ws) :
    s.Assigns a e ws := by
  obtain ⟨hframe, conn, hconn, rfl⟩ := h
  obtain ⟨c, hc, hagent, -⟩ := inv.registered agentId conn hconn
  exact ⟨agentId, frame, hframe, ha, ⟨conn, hconn, rfl⟩, c, hc, hagent⟩

/-- Whatever happens to a server that runs, only the executor assigns an execution, and only to
the socket of the agent that it names. -/
theorem assigns_of_reachable (h : serverSystem.Reachable s) (hstep : serverSystem.step s a t)
    (hnew : (t.registry.sockets ws).AssignsAt e i)
    (hold : ¬ (s.registry.sockets ws).AssignsAt e i) : s.Assigns a e ws := by
  have inv := invariant_of_reachable h
  obtain ⟨henabled, rfl⟩ := hstep
  have hroutine (hsent : (s.registry.sockets ws).Adds e ((s.apply a).registry.sockets ws)) :
      s.Assigns a e ws := absurd ((hsent.assignsAt_iff i).mp hnew) hold
  cases a with
  | message now ws' parsed =>
      refine hroutine ?_
      obtain ⟨c, hc, -⟩ := henabled
      have hdelivers := message_delivers (e := e) inv now hc parsed
      generalize s.appliedFrames now ws' parsed e = applied at hdelivers
      cases hdelivers with
      | nothing h => exact h.sent ws
      | frame _ _ _ _ _ _ _ _ _ hsent _ => exact hsent ws
  | dispatch binding assign =>
      have hagents := s.registry.bindTask_agents binding
      have hsockets := (s.registry.bindTask_spec (e := e) binding).2.2
      simp only [apply, dispatch] at hnew
      generalize s.registry.bindTask binding = bound at hnew hagents hsockets
      obtain ⟨bound, r⟩ := bound
      cases bound with
      | false => exact absurd (hsockets ▸ hnew) hold
      | true =>
          refine assigns_of_registered inv (.inr ⟨binding, rfl, rfl⟩) ?_
          obtain ⟨hframe, hconnected⟩ := Registry.assignsAt_sendToAgent hnew (hsockets ▸ hold)
          exact ⟨hframe, hconnected.congr hagents.symm⟩
  | sendToAgent agentId frame =>
      exact assigns_of_registered inv (.inl rfl) (Registry.assignsAt_sendToAgent hnew hold)
  | _ =>
      refine hroutine (Registry.Routine.sent ?_ ws)
      exact Registry.routine_handlers.apply s (by simp) (by simp) (by simp)

section Witness

private def namingHello : HelloFrame where
  agentId := "laptop"
  version := protocolVersion
  token := "token"
  protocolCapabilities := some [taskReplayCapability]

private def givenTask : TaskBinding where
  ref := 0
  agentId := "laptop"
  taskId := "task"
  executionId := some "execution"
  contextId := "context"

private def givenFrame : DownFrame :=
  .taskAssign "task" (some "execution") "context" ⟨.user, [], "message", none, none⟩ none none none

private def joining : List ServerAction :=
  [.connect 0, .message 0 0 (.ok (.hello namingHello)),
    .authenticated 0 0 (some { id := "laptop", clientId := "client" }) (.ok ())]

private def joined : Server := joining.foldl apply { registry := { disconnectGraceMs := 30000 } }

/-- The agent has joined, and is given a task. -/
theorem assigns_of_reachable_joined :
    joined.Assigns (.dispatch givenTask givenFrame) "execution" 0 := by
  have hjoined : (System.ofApply serverSystem.init enabled apply).Reachable joined :=
    System.Legal.reachable (by decide +kernel) (.of_init ⟨30000, rfl⟩)
  have hsent : (joined.registry.sockets 0).sent.length = 1 := by decide +kernel
  refine assigns_of_reachable (i := 1) hjoined ⟨by decide +kernel, rfl⟩ ⟨givenFrame, ?_, rfl⟩ ?_
  · decide +kernel
  · rintro ⟨frame, hframe, -⟩
    have hlong := (List.getElem?_eq_some_iff.mp hframe).1
    omega

end Witness

end Server

end VicoopBridge
