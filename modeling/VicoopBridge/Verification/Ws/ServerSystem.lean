import VicoopBridge.Verification.Ws.TaskFrames

/-! # The server as a transition system

Everything that can reach the registry: socket events, timers, approval decisions, and the
calls the executor makes. -/

namespace VicoopBridge

open Library

/-! ## Steps -/

inductive ServerAction where
  | connect (ws : WsId)
  | message (now : ℕ) (ws : WsId) (parsed : Except String UpFrame)
  | authenticated (now : ℕ) (ws : WsId) (client : Option ClientRow)
      (card : Except (ℕ × String) Unit)
  | authenticationError (ws : WsId)
  | helloTimeout (ws : WsId)
  | peerClosing (ws : WsId)
  | oversizedMessage (ws : WsId)
  | close (now : ℕ) (ws : WsId) (code : ℕ)
  | disconnectClient (clientId : String)
  | requestUsage (requestId agentId : String)
  | usageTimeout (requestId : String)
  | decideApproval (now : ℕ) (id : String) (decision : ApprovalDecision) (principal : String)
      (via : ApprovalAuthority)
  | approvalTick (now : ℕ) (id : String)
  | graceExpire (timer : GraceTimer)
  /-- The executor binds a task and sends its assignment. -/
  | dispatch (binding : TaskBinding) (assign : DownFrame)
  | sendToAgent (agentId : String) (frame : DownFrame)
  /-- The executor pushes to, ends or reads the queue behind a binding's sink. -/
  | sink (binding : TaskBinding) (f : SinkQueue → SinkQueue)
  | unbindTask (taskId : String) (binding : TaskBinding)

namespace Server

/-- `bindTask`, then the `task.assign`; both results are the executor's to look at. -/
def dispatch (s : Server) (binding : TaskBinding) (assign : DownFrame) : Server :=
  match s.registry.bindTask binding with
  | (false, registry) => { s with registry := registry }
  | (true, registry) => { s with registry := (registry.sendToAgent binding.agentId assign).2 }

def withConnection (s : Server) (ws : WsId) (f : Connection → Server) : Server :=
  match s.connections ws with
  | some c => f c
  | none => s

def apply (s : Server) : ServerAction → Server
  | .connect ws => s.setConnection ws {}
  | .message now ws parsed => s.withConnection ws fun c => s.onMessage now ws c parsed
  | .authenticated now ws client card => s.withConnection ws fun c =>
      match c.authenticating with
      | some frame => s.onAuthenticated now ws c frame client card
      | none => s
  | .authenticationError ws => s.withConnection ws fun c => s.onAuthenticationError ws c
  | .helloTimeout ws => s.withConnection ws fun c => s.onHelloTimeout ws c
  | .peerClosing ws => s.onPeerClosing ws
  | .oversizedMessage ws => s.onOversizedMessage ws
  | .close now ws code => s.withConnection ws fun c => s.onClose now ws c code
  | .disconnectClient clientId => s.modifyRegistry fun r => (r.disconnectClient clientId).2
  | .requestUsage requestId agentId => s.requestUsage requestId agentId
  | .usageTimeout requestId => s.usageTimeout requestId
  | .decideApproval now id decision principal via =>
      s.modifyRegistry fun r => (r.decide now id decision principal via).2
  | .approvalTick now id => s.modifyRegistry (Registry.approvalTick · now id)
  | .graceExpire timer => s.modifyRegistry (Registry.expireGraceTimer · timer)
  | .dispatch binding assign => s.dispatch binding assign
  | .sendToAgent agentId frame => s.modifyRegistry fun r => (r.sendToAgent agentId frame).2
  | .sink binding f => s.modifyRegistry (Registry.modifyCell · binding fun c =>
      { c with queue := f c.queue })
  | .unbindTask taskId binding => s.modifyRegistry (Registry.unbindTask · taskId binding)

/-- When a step can happen. A socket is silent after its close event, an execution id is
never used twice, and only armed timers fire. -/
def enabled (s : Server) : ServerAction → Prop
  | .connect ws => s.connections ws = none
  | .message _ ws _ | .helloTimeout ws | .close _ ws _ =>
      ∃ c, s.connections ws = some c ∧ c.observedCloseCode = none
  | .authenticated _ ws _ _ | .authenticationError ws =>
      ∃ c, s.connections ws = some c ∧ c.authenticating.isSome
  | .approvalTick _ id => (s.registry.approvals.timers.get? id).isSome
  | .graceExpire timer => timer ∈ s.registry.timers
  | .dispatch binding _ => s.registry.FreshExecution binding
  | _ => True

instance decidableEnabled (s : Server) : ∀ a, Decidable (s.enabled a)
  | .connect ws => inferInstanceAs (Decidable (s.connections ws = none))
  | .message _ ws _ | .helloTimeout ws | .close _ ws _ =>
      decidable_of_iff (∃ c ∈ s.connections ws, c.observedCloseCode = none) (by rfl)
  | .authenticated _ ws _ _ | .authenticationError ws =>
      decidable_of_iff (∃ c ∈ s.connections ws, c.authenticating.isSome) (by rfl)
  | .approvalTick _ id =>
      inferInstanceAs (Decidable ((s.registry.approvals.timers.get? id).isSome = true))
  | .graceExpire timer => inferInstanceAs (Decidable (timer ∈ s.registry.timers))
  | .dispatch binding _ => inferInstanceAs (Decidable (s.registry.FreshExecution binding))
  | .peerClosing _ | .oversizedMessage _ | .disconnectClient _ | .requestUsage _ _
  | .usageTimeout _ | .decideApproval _ _ _ _ _ | .sendToAgent _ _ | .sink _ _
  | .unbindTask _ _ => isTrue trivial

end Server

/-- A server that has just started, and all its steps. -/
def serverSystem : System Server ServerAction where
  init s := ∃ graceMs, s = { registry := { disconnectGraceMs := graceMs } }
  step s a t := s.enabled a ∧ t = s.apply a

/-! ## The invariant -/

namespace Server

/-- How far a connection has come. -/
structure ConnectionInvariant (c : Connection) : Prop where
  fresh : c.helloProcessing = false → c.agentId = none ∧ c.authed = false
  authenticating : c.authenticating.isSome → c.agentId = none ∧ c.authed = false ∧
    c.helloProcessing = true
  authed : c.authed = true → c.agentId.isSome

/-- A registered connection is one that has named its agent and not been closed. An agent
with an empty id is not unregistered when its socket closes. -/
structure Invariant (s : Server) : Prop where
  consistent : s.registry.Consistent
  connection : ∀ ws c, s.connections ws = some c → ConnectionInvariant c
  registered : ∀ agentId conn, s.registry.agents.get? agentId = some conn →
    ∃ c, s.connections conn.ws = some c ∧ c.agentId = some agentId ∧
      (agentId ≠ "" → c.observedCloseCode = none)

variable {s : Server}

/-- What registered sockets need to know about a step that leaves the agents alone. -/
theorem Invariant.of_agents (inv : s.Invariant) {t : Server} (hr : t.registry.Consistent)
    (hagents : ∀ a conn, t.registry.agents.get? a = some conn →
      s.registry.agents.get? a = some conn)
    (hconn : t.connections = s.connections) : t.Invariant where
  consistent := hr
  connection := by rw [hconn]; exact inv.connection
  registered a conn h := by rw [hconn]; exact inv.registered a conn (hagents a conn h)

/-- A step that rewrites one connection without taking back what it announced. -/
theorem Invariant.setConnection (inv : s.Invariant) {ws : WsId} {c c' : Connection}
    (hc : s.connections ws = some c) (hc' : ConnectionInvariant c')
    (hagent : c.agentId.isSome → c'.agentId = c.agentId)
    (hclose : c'.observedCloseCode = c.observedCloseCode) :
    (s.setConnection ws c').Invariant where
  consistent := inv.consistent
  connection ws' c₁ h := by
    by_cases heq : ws' = ws
    · subst heq
      obtain rfl : c' = c₁ := by simpa [Server.setConnection] using h
      exact hc'
    · exact inv.connection ws' c₁ (by simpa [Server.setConnection, heq] using h)
  registered a conn h := by
    obtain ⟨c₁, hc₁, ha, hopen⟩ := inv.registered a conn h
    by_cases heq : conn.ws = ws
    · obtain rfl : c = c₁ := Option.some.inj (hc.symm.trans (heq ▸ hc₁))
      refine ⟨c', by simp [Server.setConnection, heq], ?_, ?_⟩
      · rw [hagent (by simp [ha]), ha]
      · rw [hclose]
        exact hopen
    · exact ⟨c₁, by simp [Server.setConnection, heq, hc₁], ha, hopen⟩

/-! ## Every step keeps it -/

theorem Invariant.modifyRegistry (inv : s.Invariant) {f : Registry → Registry}
    (hr : (f s.registry).Consistent) (hagents : ∀ a conn,
      (f s.registry).agents.get? a = some conn → s.registry.agents.get? a = some conn) :
    (s.modifyRegistry f).Invariant :=
  inv.of_agents hr hagents rfl

theorem consistent_noteServerClose {r : Registry} (hr : r.Consistent) (ws : WsId) :
    (r.noteServerClose ws).Consistent :=
  hr.of_core (Registry.below_of_eq rfl rfl rfl rfl) ⟨rfl, rfl, rfl, rfl, rfl⟩

theorem Invariant.closeSocket (inv : s.Invariant) (ws : WsId) (code : ℕ) (reason : String) :
    (s.closeSocket ws code reason).Invariant :=
  inv.modifyRegistry (inv.consistent.modifySocket ws _) fun _ _ h => h

theorem Invariant.rejectSocket (inv : s.Invariant) (ws : WsId) (code : ℕ) (reason : String) :
    (s.rejectSocket ws code reason).Invariant := by
  have hnoted : (s.modifyRegistry (Registry.noteServerClose · ws)).Invariant :=
    inv.modifyRegistry (consistent_noteServerClose inv.consistent ws) fun _ _ h => h
  exact hnoted.closeSocket ws code reason

theorem Invariant.resolveUsageResponse (inv : s.Invariant) (agentId : String)
    (frame : UsageResponseFrame) : (s.resolveUsageResponse agentId frame).Invariant := by
  unfold Server.resolveUsageResponse
  split
  · exact inv
  split
  · exact inv
  · exact inv.of_agents inv.consistent (fun _ _ h => h) rfl

theorem Invariant.processAuthedFrame (inv : s.Invariant) (now : ℕ) (ws : WsId) (B : String)
    (frame : UpFrame) : (s.processAuthedFrame now ws (some B) frame).Invariant := by
  cases frame with
  | task frame =>
      have heffect : s.registry.FrameEffect B ws
          (s.registry.processTaskFrame now ws (some B) frame) :=
        Registry.effect_processTaskFrame inv.consistent now frame
      refine inv.of_agents heffect.consistent ?_ rfl
      intro a conn h
      rw [← heffect.agents]
      exact h
  | usageResponse frame =>
      unfold Server.processAuthedFrame
      simp only
      split
      · exact inv.resolveUsageResponse _ frame
      · exact inv
  | pong => exact inv
  | hello => exact inv.rejectSocket ws 4007 "duplicate hello"

theorem Invariant.onMessage (inv : s.Invariant) (now : ℕ) {ws : WsId} {c : Connection}
    (hc : s.connections ws = some c) (parsed : Except String UpFrame) :
    (s.onMessage now ws c parsed).Invariant := by
  have hconn := inv.connection ws c hc
  cases parsed with
  | error complaint => exact inv.rejectSocket ws 4002 _
  | ok frame =>
      unfold Server.onMessage
      simp only
      split
      · rename_i hauthed
        obtain ⟨B, hB⟩ := Option.isSome_iff_exists.mp (hconn.authed hauthed)
        rw [hB]
        exact inv.processAuthedFrame now ws B frame
      split
      · split
        · exact inv.closeSocket ws _ _
        split
        · exact inv
        · rename_i hnew
          have hfresh := hconn.fresh (by simpa using hnew)
          refine inv.setConnection hc ?_ (fun _ => rfl) rfl
          exact ⟨by simp, fun _ => ⟨hfresh.1, hfresh.2, rfl⟩, by simp [hfresh.2]⟩
      · exact inv.rejectSocket ws 4003 _

theorem authenticateAndRegister_ok {r r' : Registry} {now : ℕ} {ws : WsId} {frame : HelloFrame}
    {client : Option ClientRow} {card : Except (ℕ × String) Unit}
    (h : authenticateAndRegister r now ws frame client card = .ok r') :
    ∃ conn, conn.agentId = frame.agentId ∧ conn.ws = ws ∧ r.registerAgent now conn = .ok r' := by
  unfold authenticateAndRegister at h
  repeat' split at h
  all_goals try simp at h
  subst h
  exact ⟨_, rfl, rfl, ‹_›⟩

/-- Registering adds one entry and removes none but the one it replaces. -/
theorem registerAgent_agents {r r' : Registry} {now : ℕ} {conn : ClientConnection}
    (h : r.registerAgent now conn = .ok r') (a : String) (conn' : ClientConnection)
    (hc : r'.agents.get? a = some conn') :
    (a = conn.agentId ∧ conn' = conn) ∨
      (a ≠ conn.agentId ∧ r.agents.get? a = some conn') := by
  have hshape : ∃ r₁, r.Below r₁ ∧ r' = { r₁ with agents := r₁.agents.set conn.agentId conn } := by
    unfold Registry.registerAgent at h
    cases hk : r.agents.get? conn.agentId with
    | none =>
        rw [hk] at h
        exact ⟨r, .refl r, (Except.ok.inj h).symm⟩
    | some existing =>
        rw [hk] at h
        simp only at h
        split at h
        · exact ⟨_, Registry.below_respects.displaceConnection r now _ existing, (Except.ok.inj h).symm⟩
        · simp at h
  obtain ⟨r₁, hbelow, rfl⟩ := hshape
  rw [InsertionMap.get?_set] at hc
  split at hc
  · rename_i heq
    exact .inl ⟨heq.symm, (Option.some.inj hc).symm⟩
  · rename_i hne
    exact .inr ⟨Ne.symm hne, hbelow.agents a conn' hc⟩

theorem registerAgent_get? {r r' : Registry} {now : ℕ} {conn : ClientConnection}
    (h : r.registerAgent now conn = .ok r') : r'.agents.get? conn.agentId = some conn := by
  unfold Registry.registerAgent at h
  repeat' split at h
  all_goals first
    | (obtain rfl := Except.ok.inj h; exact InsertionMap.get?_set_self _ _ _)
    | simp at h

theorem setConnection_self (s : Server) (ws : WsId) (c : Connection) :
    (s.setConnection ws c).connections ws = some c := by
  simp [setConnection]

theorem setConnection_of_ne (s : Server) {ws ws' : WsId} (c : Connection) (h : ws' ≠ ws) :
    (s.setConnection ws c).connections ws' = s.connections ws' := by
  simp [setConnection, h]

/-- A connection that has not named its agent is not registered. -/
theorem Invariant.not_registered (inv : s.Invariant) {ws : WsId} {c : Connection}
    (hc : s.connections ws = some c) (hagent : c.agentId = none) (a : String)
    (conn : ClientConnection) (h : s.registry.agents.get? a = some conn) : conn.ws ≠ ws := by
  intro heq
  obtain ⟨c', hc', ha, -⟩ := inv.registered a conn h
  obtain rfl : c = c' := Option.some.inj (hc.symm.trans (heq ▸ hc'))
  simp [hagent] at ha

/-- The three ways an authentication that succeeded can end. -/
theorem Invariant.onAuthenticated (inv : s.Invariant) (now : ℕ) {ws : WsId} {c : Connection}
    {frame : HelloFrame} (hc : s.connections ws = some c) (hauth : c.authenticating = some frame)
    (client : Option ClientRow) (card : Except (ℕ × String) Unit) :
    (s.onAuthenticated now ws c frame client card).Invariant := by
  obtain ⟨hagent, hauthed, hprocessing⟩ :=
    (inv.connection ws c hc).authenticating (by simp [hauth])
  have hdone : ConnectionInvariant { c with authenticating := none } :=
    ⟨by simp [hprocessing], by simp, by simp [hauthed]⟩
  have inv₁ : (s.setConnection ws { c with authenticating := none }).Invariant :=
    inv.setConnection hc hdone (fun _ => rfl) rfl
  unfold Server.onAuthenticated
  simp only
  split
  · exact inv₁.closeSocket ws _ _
  · rename_i registry hok
    obtain ⟨conn, hid, hws, hreg⟩ := authenticateAndRegister_ok hok
    have hr : registry.Consistent := by
      refine inv.consistent.registerAgent now ?_ hreg
      rw [hws]
      exact inv.not_registered hc hagent
    -- Whoever else is registered was so before, on another socket.
    have hothers : ∀ a conn', registry.agents.get? a = some conn' → a ≠ frame.agentId →
        s.registry.agents.get? a = some conn' ∧ conn'.ws ≠ ws := by
      intro a conn' h hne
      rcases registerAgent_agents hreg a conn' h with ⟨heq, -⟩ | ⟨-, hold⟩
      · exact absurd (heq.trans hid) hne
      · exact ⟨hold, inv.not_registered hc hagent a conn' hold⟩
    have hmine : ∀ conn', registry.agents.get? frame.agentId = some conn' → conn'.ws = ws := by
      intro conn' h
      rw [← hid, registerAgent_get? hreg] at h
      rw [← Option.some.inj h, hws]
    have hregistered : ∀ c' : Connection, c'.agentId = some frame.agentId →
        c'.observedCloseCode = none → ConnectionInvariant c' → ∀ t : Server,
        t.connections = (s.setConnection ws c').connections → t.registry.Consistent →
        t.registry.agents = registry.agents → t.Invariant := by
      intro c' ha hopen hinv t hconns htr htagents
      refine ⟨htr, ?_, ?_⟩
      · intro ws' c₁ h
        rw [hconns] at h
        by_cases heq : ws' = ws
        · subst heq
          obtain rfl := Option.some.inj ((setConnection_self s ws' c').symm.trans h)
          exact hinv
        · rw [setConnection_of_ne s c' heq] at h
          exact inv.connection ws' c₁ h
      · intro a conn' h
        rw [htagents] at h
        rw [hconns]
        by_cases heq : a = frame.agentId
        · subst heq
          rw [hmine conn' h]
          exact ⟨c', setConnection_self s ws c', ha, fun _ => hopen⟩
        · obtain ⟨hold, hne⟩ := hothers a conn' h heq
          rw [setConnection_of_ne s c' hne]
          exact inv.registered a conn' hold
    have hoverwrite : ∀ c' : Connection, (Function.update (Function.update s.connections ws
        (some { c with authenticating := none })) ws (some c')) =
        (s.setConnection ws c').connections := by
      intro c'
      exact Function.update_idem _ _ _
    split
    · rename_i hnotOpen
      split
      · rename_i hcode
        exact hregistered { c with authenticating := none, agentId := some frame.agentId } rfl
          hcode ⟨by simp [hprocessing], by simp, by simp⟩ _ (hoverwrite _) hr rfl
      · rename_i code hcode
        refine ⟨hr.unregisterAgent now _ ws (some code), inv₁.connection, ?_⟩
        intro a conn' h
        have hbelow := Registry.below_unregisterAgent registry now frame.agentId ws (some code)
        have hne : a ≠ frame.agentId := by
          rintro rfl
          exact Registry.unregisterAgent_gone registry now hmine (some code) conn' h
        obtain ⟨hold, -⟩ := hothers a conn' (hbelow.agents a conn' h) hne
        exact inv₁.registered a conn' hold
    · rename_i hopen
      have hnone : c.observedCloseCode = none := by
        by_contra hsome
        apply hopen
        simp [Server.readyState, Option.isSome_iff_ne_none.mpr hsome]
      have hfinal := hregistered
        { c with authenticating := none, agentId := some frame.agentId, authed := true } rfl hnone
        ⟨by simp [hprocessing], by simp, by simp⟩
      split
      · exact hfinal _ (hoverwrite _) (hr.modifySocket ws _) rfl
      · exact hfinal _ (hoverwrite _) hr rfl

theorem Invariant.onClose (inv : s.Invariant) (now : ℕ) {ws : WsId} {c : Connection}
    (hc : s.connections ws = some c) (code : ℕ) : (s.onClose now ws c code).Invariant := by
  have hconn := inv.connection ws c hc
  have hother : ∀ a conn', s.registry.agents.get? a = some conn' → conn'.ws = ws →
      c.agentId = some a := by
    intro a conn' h hws
    obtain ⟨c₁, hc₁, ha, -⟩ := inv.registered a conn' h
    obtain rfl : c = c₁ := Option.some.inj (hc.symm.trans (hws ▸ hc₁))
    exact ha
  have hclosed : ConnectionInvariant { c with observedCloseCode := some code } :=
    ⟨hconn.fresh, hconn.authenticating, hconn.authed⟩
  have hconnections : ∀ t : Server,
      t.connections = (s.setConnection ws { c with observedCloseCode := some code }).connections →
      t.registry.Consistent →
      (∀ a conn', t.registry.agents.get? a = some conn' →
        s.registry.agents.get? a = some conn' ∧ (a ≠ "" → conn'.ws ≠ ws)) → t.Invariant := by
    intro t hconns htr hagents
    refine ⟨htr, ?_, ?_⟩
    · intro ws' c₁ h
      rw [hconns] at h
      by_cases heq : ws' = ws
      · subst heq
        obtain rfl := Option.some.inj ((setConnection_self s ws' _).symm.trans h)
        exact hclosed
      · rw [setConnection_of_ne s _ heq] at h
        exact inv.connection ws' c₁ h
    · intro a conn' h
      obtain ⟨hold, hne⟩ := hagents a conn' h
      rw [hconns]
      by_cases heq : conn'.ws = ws
      · have hempty : a = "" := by_contra fun ha => hne ha heq
        rw [heq]
        exact ⟨_, setConnection_self s ws _, hother a conn' hold heq, fun ha => absurd hempty ha⟩
      · rw [setConnection_of_ne s _ heq]
        exact inv.registered a conn' hold
  have hsocket := inv.consistent.modifySocket ws
    (fun socket => { socket with readyState := .closed })
  unfold Server.onClose
  simp only
  split
  · rename_i agentId hagent
    have hc' : c.agentId = some agentId := (Option.filter_eq_some_iff.mp hagent).1
    refine hconnections _ rfl (hsocket.unregisterAgent now agentId ws (some code)) ?_
    intro a conn' h
    have hbelow := (Registry.below_unregisterAgent _ now agentId ws (some code)).agents a conn' h
    refine ⟨hbelow, fun _ hws => ?_⟩
    obtain rfl : a = agentId := Option.some.inj ((hother a conn' hbelow hws).symm.trans hc')
    refine Registry.unregisterAgent_gone _ now ?_ (some code) conn' h
    intro conn₁ hconn₁
    exact (congrArg ClientConnection.ws (Option.some.inj (hconn₁.symm.trans hbelow))).trans hws
  · rename_i hagent
    refine hconnections _ rfl hsocket ?_
    intro a conn' h
    refine ⟨h, fun ha hws => ?_⟩
    have hc' := hother a conn' h hws
    simp [truthy, hc', Option.filter, ha] at hagent

theorem Invariant.dispatch (inv : s.Invariant) {binding : TaskBinding}
    (hfresh : s.registry.FreshExecution binding) (assign : DownFrame) :
    (s.dispatch binding assign).Invariant := by
  have hbind := inv.consistent.bindTask hfresh
  have hagents := Registry.bindTask_agents s.registry binding
  unfold Server.dispatch
  rcases hres : s.registry.bindTask binding with ⟨bound, registry⟩
  rw [hres] at hbind hagents
  cases bound with
  | false => exact inv.of_agents hbind (by rw [hagents]; exact fun _ _ h => h) rfl
  | true =>
      refine inv.of_agents (hbind.sendToAgent _ _) ?_ rfl
      intro a conn h
      have h' := (Registry.below_sendToAgent registry _ _).agents a conn h
      rwa [hagents] at h'

/-- What every step of the server keeps. -/
theorem Invariant.step {t : Server} {a : ServerAction} (inv : s.Invariant)
    (h : serverSystem.step s a t) : t.Invariant := by
  obtain ⟨henabled, rfl⟩ := h
  cases a with
  | connect ws =>
      refine ⟨inv.consistent, ?_, ?_⟩
      · intro ws' c h
        by_cases heq : ws' = ws
        · subst heq
          obtain rfl := Option.some.inj ((setConnection_self s ws' {}).symm.trans h)
          exact ⟨fun _ => ⟨rfl, rfl⟩, by simp, by simp⟩
        · rw [show (s.apply (.connect ws)).connections ws' = s.connections ws' from
            setConnection_of_ne s {} heq] at h
          exact inv.connection ws' c h
      · intro a conn h
        obtain ⟨c, hc, ha, hopen⟩ := inv.registered a conn h
        have hne : conn.ws ≠ ws := by
          rintro rfl
          exact Option.some_ne_none c (hc.symm.trans henabled)
        exact ⟨c, (setConnection_of_ne s {} hne).trans hc, ha, hopen⟩
  | message now ws parsed =>
      obtain ⟨c, hc, -⟩ := henabled
      simpa [apply, withConnection, hc] using inv.onMessage now hc parsed
  | authenticated now ws client card =>
      obtain ⟨c, hc, hauth⟩ := henabled
      obtain ⟨frame, hframe⟩ := Option.isSome_iff_exists.mp hauth
      simpa [apply, withConnection, hc, hframe] using
        inv.onAuthenticated now hc hframe client card
  | authenticationError ws =>
      obtain ⟨c, hc, hauth⟩ := henabled
      obtain ⟨-, hauthed, hprocessing⟩ := (inv.connection ws c hc).authenticating hauth
      have hset : (s.setConnection ws { c with authenticating := none }).Invariant :=
        inv.setConnection hc ⟨by simp [hprocessing], by simp, by simp [hauthed]⟩ (fun _ => rfl) rfl
      simp only [apply, withConnection, hc]
      exact hset.closeSocket ws 1011 "internal error"
  | helloTimeout ws =>
      obtain ⟨c, hc, -⟩ := henabled
      simp only [apply, withConnection, hc, onHelloTimeout]
      split
      · exact inv
      · exact inv.rejectSocket ws 4001 _
  | peerClosing ws => exact inv.of_agents (inv.consistent.modifySocket ws _) (fun _ _ h => h) rfl
  | oversizedMessage ws =>
      exact inv.of_agents (consistent_noteServerClose inv.consistent ws) (fun _ _ h => h) rfl
  | close now ws code =>
      obtain ⟨c, hc, -⟩ := henabled
      simpa [apply, withConnection, hc] using inv.onClose now hc code
  | disconnectClient clientId =>
      have hfold := Registry.sameTasks_disconnectClient s.registry clientId
      have hbelow := Registry.below_respects.disconnectClient s.registry clientId
      exact inv.of_agents (inv.consistent.of_core hbelow hfold) hbelow.agents rfl
  | requestUsage requestId agentId =>
      have hsend := inv.consistent.sendToAgent agentId (.usageRequest requestId)
      have hbelow := Registry.below_sendToAgent s.registry agentId (.usageRequest requestId)
      simp only [apply, requestUsage]
      split
      · rename_i registry heq
        rw [heq] at hsend hbelow
        exact inv.of_agents hsend hbelow.agents rfl
      · exact inv
  | usageTimeout requestId => exact inv.of_agents inv.consistent (fun _ _ h => h) rfl
  | decideApproval now id decision principal via =>
      refine inv.of_agents (inv.consistent.decide now id decision principal via) ?_ rfl
      intro a conn h
      rw [← Registry.decide_agents s.registry now id decision principal via]
      exact h
  | approvalTick now id =>
      refine inv.of_agents (inv.consistent.approvalTick now id) ?_ rfl
      intro a conn h
      rw [← Registry.approvalTick_agents s.registry now id]
      exact h
  | graceExpire timer =>
      refine inv.of_agents (inv.consistent.expireGraceTimer henabled) ?_ rfl
      intro a conn h
      rw [← Registry.expireGraceTimer_agents s.registry timer]
      exact h
  | dispatch binding assign => exact inv.dispatch henabled assign
  | sendToAgent agentId frame =>
      exact inv.of_agents (inv.consistent.sendToAgent agentId frame)
        (Registry.below_sendToAgent s.registry agentId frame).agents rfl
  | sink binding f =>
      exact inv.of_agents (inv.consistent.modifyCell binding fun c => { c with queue := f c.queue })
        (fun _ _ h => h) rfl
  | unbindTask taskId binding =>
      exact inv.of_agents (inv.consistent.unbindTask taskId binding)
        (Registry.below_respects.unbindTask s.registry taskId binding).agents rfl

theorem invariant_init (graceMs : ℕ) :
    ({ registry := { disconnectGraceMs := graceMs } } : Server).Invariant where
  consistent :=
    { Registry.graceInvariant_init graceMs with
      agent_key := by intro _ _ h; simp at h
      agent_ws := by intro _ _ _ _ h; simp at h
      approval_key := by intro _ _ h; simp [ToolApprovals.empty] at h
      execution_agent := by intro _ _ _ _ h; simp at h
      approval_agent := by intro _ _ _ _ h; simp [ToolApprovals.empty] at h
      receipt_agent := by intro _ _ _ _ h; simp at h }
  connection ws c h := by simp at h
  registered a conn h := by simp at h

theorem invariant_of_reachable (h : serverSystem.Reachable s) : s.Invariant := by
  refine h.invariant ?_ fun _ _ _ inv hstep => inv.step hstep
  rintro s ⟨graceMs, rfl⟩
  exact invariant_init graceMs

end Server

end VicoopBridge
