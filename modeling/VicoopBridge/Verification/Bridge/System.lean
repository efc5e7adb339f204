import VicoopBridge.Model.Client
import VicoopBridge.Verification.Ws.ServerSystem

/-! # Both ends of the bridge

One daemon and the server it connects to. Each direction of a socket delivers in order what
was written at the other end, until the socket is lost with whatever is still under way.
Other daemons act on the server as they like. -/

namespace VicoopBridge

open Library

/-! ## What can happen to a client -/

inductive ClientAction where
  | connect (ws : WsId)
  | opened (ws : WsId)
  | sendHello (ws : WsId)
  /-- The backend of a run emits a frame. -/
  | emit (now : ℕ) (run : RunRef) (body : TaskFrameBody)
  /-- A tool of a run asks for permission. -/
  | askTool (now : ℕ) (run : RunRef) (inputBytes : ℕ) (request : ApprovalRequest)
  /-- A tool request times out here, or its backend gives it up. -/
  | denyTool (now : ℕ) (requestId : String)
  | endRun (now : ℕ) (run : RunRef)
  | answerUsage (frame : UsageResponseFrame)
  | expirePending (now : ℕ)
  | sent (ws : WsId)
  | socketFailure (ws : WsId)
  | closed (ws : WsId) (code : ℕ)
  | stop

/-- What a backend emits, as opposed to the approval frames of its tools. -/
def TaskFrameBody.isOutput : TaskFrameBody → Bool
  | .approvalRequest _ | .approvalReceived _ _ => false
  | _ => true

namespace Client

variable (opts : ClientOptions) (c : Client)

def apply : ClientAction → Client
  | .connect ws => c.connect ws
  | .opened ws => c.onOpen ws
  | .sendHello ws => c.sendHello opts ws
  | .emit now run body => c.sendTaskFrame opts now run { taskId := (c.runs run).taskId, body := body }
  | .askTool now run inputBytes request => c.requestApproval opts now run inputBytes request
  | .denyTool now requestId => c.finishApproval opts now requestId .deny
  | .endRun now run => c.endRun opts now run
  | .answerUsage frame => c.send (.usageResponse frame)
  | .expirePending now => c.expirePendingFrames opts now
  | .sent ws => c.onSent ws
  | .socketFailure ws => c.onSocketFailure ws
  | .closed ws code => c.onClose opts ws code
  | .stop => c.stop

/-- A lost socket is replaced, request ids come from `randomUUID`, and a run is over only
once. -/
def enabled : ClientAction → Prop
  | .connect _ => c.ws = none
  | .emit _ run body => run < c.nextRun ∧ (c.runs run).ended = false ∧ body.isOutput
  | .askTool now run _ request => run < c.nextRun ∧ (c.runs run).ended = false ∧
      request.expiresAt.ms = now + opts.approvalTimeoutMs ∧
      c.approvals.get? request.requestId = none ∧
      ∀ answer ∈ c.resolved, answer.1 ≠ request.requestId
  | .endRun _ run => run < c.nextRun ∧ (c.runs run).ended = false
  | .socketFailure ws => c.ws = some ws
  | _ => True

instance decidableEnabled : ∀ a, Decidable (c.enabled opts a)
  | .connect _ | .socketFailure _ => inferInstanceAs (Decidable (_ = _))
  | .emit _ run body => inferInstanceAs
      (Decidable (run < c.nextRun ∧ (c.runs run).ended = false ∧ body.isOutput = true))
  | .askTool now run _ request => inferInstanceAs
      (Decidable (run < c.nextRun ∧ (c.runs run).ended = false ∧
        request.expiresAt.ms = now + opts.approvalTimeoutMs ∧
        c.approvals.get? request.requestId = none ∧
        ∀ answer ∈ c.resolved, answer.1 ≠ request.requestId))
  | .endRun _ run => inferInstanceAs
      (Decidable (run < c.nextRun ∧ (c.runs run).ended = false))
  | .opened _ | .sendHello _ | .denyTool _ _ | .answerUsage _ | .expirePending _ | .sent _
  | .closed _ _ | .stop => isTrue trivial

end Client

/-! ## The composed system -/

inductive BridgeAction where
  | server (a : ServerAction)
  | client (a : ClientAction)
  /-- The server receives the next frame of the daemon. -/
  | up (now : ℕ) (ws : WsId)
  /-- The daemon receives the next frame of the server. -/
  | down (now : ℕ) (ws : WsId)

/-- `dialed` are the sockets of the daemon; `toServer` and `toClient` count what each of
them has delivered. `issued` are the bindings the executor has made. -/
structure Bridge where
  server : Server
  client : Client := {}
  dialed : WsId → Bool := fun _ => false
  toServer : WsId → ℕ := fun _ => 0
  toClient : WsId → ℕ := fun _ => 0
  issued : List TaskBinding := []

namespace Bridge

variable (opts : ClientOptions) (s : Bridge)

def nextUp (ws : WsId) : Option UpFrame := (s.client.sockets ws).sent[s.toServer ws]?

def nextDown (ws : WsId) : Option DownFrame := (s.server.registry.sockets ws).sent[s.toClient ws]?

def apply : BridgeAction → Bridge
  | .server a =>
      { s with server := s.server.apply a
               issued := match a with
                 | .dispatch binding _ => s.issued ++ [binding]
                 | _ => s.issued }
  | .client a =>
      { s with client := s.client.apply opts a
               dialed := match a with
                 | .connect ws => Function.update s.dialed ws true
                 | _ => s.dialed }
  | .up now ws =>
      match s.nextUp ws with
      | some frame =>
          { s with server := s.server.apply (.message now ws (.ok frame))
                   toServer := Function.update s.toServer ws (s.toServer ws + 1) }
      | none => s
  | .down now ws =>
      match s.nextDown ws with
      | some frame =>
          { s with client := s.client.onMessage opts now ws frame
                   toClient := Function.update s.toClient ws (s.toClient ws + 1) }
      | none => s

/-- How the executor and the daemon's sockets take part in the steps of the server. -/
def serverEnabled : ServerAction → Prop
  | .message _ ws _ => s.dialed ws = false
  | .dispatch binding assign =>
      (∀ e, binding.executionId = some e → ∀ b ∈ s.issued, b.executionId ≠ some e) ∧
        ∃ message requestedExtensions caller executionScope,
          assign = .taskAssign binding.taskId binding.executionId binding.contextId message
            requestedExtensions caller executionScope
  | .sendToAgent _ frame => ∃ taskId executionId, frame = .taskCancel taskId executionId
  | .unbindTask taskId binding => binding ∈ s.issued ∧ binding.taskId = taskId
  | _ => True

def clientEnabled : ClientAction → Prop
  | .connect ws => s.dialed ws = false ∧ s.server.connections ws = none
  | .opened ws => s.dialed ws ∧ (s.server.connections ws).isSome
  | .sendHello ws | .closed ws _ => s.dialed ws
  | _ => True

def enabled : BridgeAction → Prop
  | .server a => s.server.enabled a ∧ s.serverEnabled a
  | .client a => s.client.enabled opts a ∧ s.clientEnabled a
  | .up now ws => s.dialed ws ∧ ∃ frame, s.nextUp ws = some frame ∧
      s.server.enabled (.message now ws (.ok frame))
  | .down _ ws => s.dialed ws ∧ (s.client.sockets ws).readyState ≠ .closed ∧ (s.nextDown ws).isSome

instance decidableServerEnabled : ∀ a, Decidable (s.serverEnabled a)
  | .message _ ws _ => inferInstanceAs (Decidable (s.dialed ws = false))
  | .dispatch binding assign =>
      have : Decidable (∃ message requestedExtensions caller executionScope,
          assign = .taskAssign binding.taskId binding.executionId binding.contextId message
            requestedExtensions caller executionScope) :=
        match assign with
        | .taskAssign taskId executionId contextId message requestedExtensions caller scope =>
            decidable_of_iff (taskId = binding.taskId ∧ executionId = binding.executionId ∧
              contextId = binding.contextId) (by simp)
        | .helloAck _ _ _ | .approvalResolve _ _ _ _ | .taskAck _ _ _ | .taskCancel _ _ | .ping
        | .usageRequest _ => isFalse (by simp)
      have : Decidable (∀ e, binding.executionId = some e →
          ∀ b ∈ s.issued, b.executionId ≠ some e) :=
        decidable_of_iff (∀ e ∈ binding.executionId, ∀ b ∈ s.issued, b.executionId ≠ some e)
          (by rfl)
      inferInstanceAs (Decidable (_ ∧ _))
  | .sendToAgent _ frame =>
      match frame with
      | .taskCancel taskId executionId => isTrue ⟨taskId, executionId, rfl⟩
      | .helloAck _ _ _ | .approvalResolve _ _ _ _ | .taskAck _ _ _
      | .taskAssign _ _ _ _ _ _ _ | .ping | .usageRequest _ =>
          isFalse (by rintro ⟨_, _, h⟩; simp at h)
  | .unbindTask taskId binding =>
      inferInstanceAs (Decidable (binding ∈ s.issued ∧ binding.taskId = taskId))
  | .connect _ | .authenticated _ _ _ _ | .authenticationError _ | .helloTimeout _
  | .peerClosing _ | .oversizedMessage _ | .close _ _ _ | .disconnectClient _
  | .requestUsage _ _ | .usageTimeout _ | .decideApproval _ _ _ _ _ | .approvalTick _ _
  | .graceExpire _ | .sink _ _ => isTrue trivial

instance decidableClientEnabled : ∀ a, Decidable (s.clientEnabled a)
  | .connect ws => inferInstanceAs
      (Decidable (s.dialed ws = false ∧ s.server.connections ws = none))
  | .opened ws => inferInstanceAs
      (Decidable (s.dialed ws = true ∧ (s.server.connections ws).isSome = true))
  | .sendHello ws | .closed ws _ => inferInstanceAs (Decidable (s.dialed ws = true))
  | .emit _ _ _ | .askTool _ _ _ _ | .denyTool _ _ | .endRun _ _ | .answerUsage _
  | .expirePending _ | .sent _ | .socketFailure _ | .stop => isTrue trivial

instance decidableEnabled : ∀ a, Decidable (s.enabled opts a)
  | .server a => inferInstanceAs (Decidable (s.server.enabled a ∧ s.serverEnabled a))
  | .client a => inferInstanceAs (Decidable (s.client.enabled opts a ∧ s.clientEnabled a))
  | .up now ws =>
      decidable_of_iff (s.dialed ws ∧ ∃ frame ∈ s.nextUp ws,
        s.server.enabled (.message now ws (.ok frame))) (by rfl)
  | .down _ ws => inferInstanceAs
      (Decidable (s.dialed ws = true ∧ (s.client.sockets ws).readyState ≠ .closed ∧
        (s.nextDown ws).isSome = true))

end Bridge

def bridgeSystem (opts : ClientOptions) : System Bridge BridgeAction :=
  .ofApply (fun s => ∃ graceMs, s = { server := { registry := { disconnectGraceMs := graceMs } } })
    (Bridge.enabled opts) (Bridge.apply opts)

/-! ## The server by itself -/

namespace Bridge

variable {opts : ClientOptions} {s t : Bridge} {a : BridgeAction}

/-- What happens to a server that has a daemon may happen to it without one. -/
theorem server_step (h : (bridgeSystem opts).step s a t) :
    t.server = s.server ∨ ∃ b, serverSystem.step s.server b t.server := by
  obtain ⟨henabled, rfl⟩ := h
  cases a with
  | server b => exact .inr ⟨b, henabled.1, rfl⟩
  | client b => exact .inl rfl
  | up now ws =>
      obtain ⟨-, frame, hnext, hup⟩ := henabled
      refine .inr ⟨.message now ws (.ok frame), hup, ?_⟩
      simp only [apply, hnext]
  | down now ws =>
      obtain ⟨-, -, hsome⟩ := henabled
      obtain ⟨frame, hnext⟩ := Option.isSome_iff_exists.mp hsome
      exact .inl (by simp only [apply, hnext])

theorem server_invariant (inv : s.server.Invariant) (h : (bridgeSystem opts).step s a t) :
    t.server.Invariant := by
  obtain heq | ⟨b, hstep⟩ := server_step h
  · rwa [heq]
  · exact inv.step hstep

private def dialer : ClientOptions where
  hello := { agentId := "agent", version := protocolVersion, token := "token" }
  size _ := 1

/-- The hello of a daemon has arrived. -/
private def greeting : List BridgeAction :=
  [.client (.connect 0), .server (.connect 0), .client (.opened 0), .client (.sendHello 0), .up 0 0]

end Bridge

end VicoopBridge
