import VicoopBridge.Verification.Ws.SocketProgress

/-! # Authentication that finishes late

A socket can close, or be closed, while its hello is being authenticated. Whatever the
order, nothing is processed for a connection that was not registered while it was open,
and a registration does not outlive the close event. -/

namespace VicoopBridge

open Library

/-! ## What an observer of a socket sees -/

def UpFrame.isHello : UpFrame → Bool
  | .hello _ => true
  | _ => false

/-- `early` are the frames other than a hello that arrived before the authentication had
finished, `late` the frames after it, `processed` those given to the frame handlers.
`registered` is how the authentication ended. -/
structure SocketHistory where
  early : List UpFrame := []
  late : List UpFrame := []
  processed : List UpFrame := []
  registered : Option Bool := none
  closed : Bool := false
  deriving DecidableEq

/-- A frame arrives; the message handler processes it if the connection is authenticated. -/
def SocketHistory.arrive (h : SocketHistory) (authed : Bool) (frame : UpFrame) : SocketHistory :=
  let h := if authed then { h with processed := h.processed ++ [frame] } else h
  match h.registered with
  | none => if frame.isHello then h else { h with early := h.early ++ [frame] }
  | some _ => { h with late := h.late ++ [frame] }

structure ObservedServer where
  server : Server
  history : WsId → SocketHistory := fun _ => {}

namespace ObservedServer

def modifyHistory (s : ObservedServer) (ws : WsId) (f : SocketHistory → SocketHistory) :
    WsId → SocketHistory :=
  Function.update s.history ws (f (s.history ws))

/-- The outcome of the authentication that ends now. -/
def registers (s : ObservedServer) (now : ℕ) (ws : WsId) (client : Option ClientRow)
    (card : Except (ℕ × String) Unit) : Bool :=
  match (s.server.connections ws).bind (·.authenticating) with
  | some hello =>
      (Server.authenticateAndRegister s.server.registry now ws hello client card).isOk
  | none => false

def historyAfter (s : ObservedServer) : ServerAction → WsId → SocketHistory
  | .message _ ws (.ok frame) => s.modifyHistory ws fun h =>
      h.arrive ((s.server.connections ws).any (·.authed)) frame
  | .authenticated now ws client card => s.modifyHistory ws fun h =>
      { h with registered := some (s.registers now ws client card) }
  | .authenticationError ws => s.modifyHistory ws fun h => { h with registered := some false }
  | .close _ ws _ => s.modifyHistory ws fun h => { h with closed := true }
  | _ => s.history

def apply (s : ObservedServer) (a : ServerAction) : ObservedServer :=
  ⟨s.server.apply a, s.historyAfter a⟩

end ObservedServer

def observedSystem : System ObservedServer ServerAction :=
  .ofApply (fun s => ∃ graceMs, s = { server := { registry := { disconnectGraceMs := graceMs } } })
    (fun s a => s.server.enabled a) ObservedServer.apply

namespace ObservedServer

/-! ## The contract -/

/-- The frame was not processed: only its own socket and connection can tell. -/
structure Ignored (ws : WsId) (s t : Server) : Prop where
  registry : ∃ serverClosed sockets,
    t.registry = { s.registry with serverClosed := serverClosed, sockets := sockets } ∧
      ∀ ws', ws' ≠ ws → serverClosed ws' = s.registry.serverClosed ws' ∧
        sockets ws' = s.registry.sockets ws'
  connections : ∀ ws', ws' ≠ ws → t.connections ws' = s.connections ws'
  usagePending : t.usagePending = s.usagePending
  usageSettled : t.usageSettled = s.usageSettled

structure AuthenticationSpec (s : ObservedServer) : Prop where
  /-- Once the authentication has ended and the socket has closed, it is not registered. -/
  gone : ∀ ws c, s.server.connections ws = some c → c.agentId ≠ some "" →
    (s.history ws).registered.isSome → (s.history ws).closed →
      ∀ a conn, s.server.registry.agents.get? a = some conn → conn.ws ≠ ws
  /-- A frame that came too early ends the connection before it can process anything. -/
  early : ∀ ws, (s.history ws).early ≠ [] → (s.history ws).processed = [] ∧
    s.server.registry.serverClosed ws ∧ (s.server.registry.sockets ws).readyState ≠ .opened
  /-- What is processed is what arrives after a successful registration, in this order. -/
  inOrder : ∀ ws, (s.history ws).processed ≠ [] →
    (s.history ws).registered = some true ∧ (s.history ws).processed = (s.history ws).late
  failed : ∀ ws, (s.history ws).registered = some false → (s.history ws).processed = []
  ignored : ∀ ws c now frame, s.server.connections ws = some c → c.authed = false →
    Ignored ws s.server (s.server.onMessage now ws c (.ok frame))

/-! ## The invariant -/

/-- What a connection remembers agrees with what was observed of its socket. -/
structure Tells (c : Connection) (h : SocketHistory) : Prop where
  closed : h.closed = c.observedCloseCode.isSome
  pending : h.registered.isSome → c.helloProcessing = true ∧ c.authenticating = none
  authed : c.authed = true → h.registered = some true ∧ h.early = [] ∧ h.processed = h.late
  unauthed : c.authed = false → h.processed = []
  fresh : h.registered = none → h.late = []

structure HistoryInvariant (s : ObservedServer) (ws : WsId) : Prop where
  unconnected : s.server.connections ws = none → s.history ws = {}
  tells : ∀ c, s.server.connections ws = some c → Tells c (s.history ws)
  early : (s.history ws).early ≠ [] →
    s.server.registry.serverClosed ws ∧ (s.server.registry.sockets ws).readyState ≠ .opened

variable {s : ObservedServer} {ws : WsId}

/-- The verdict on a frame that came too early stands. -/
theorem HistoryInvariant.early_apply (inv : s.HistoryInvariant ws) (a : ServerAction)
    (h : (s.history ws).early ≠ []) : (s.apply a).server.registry.serverClosed ws ∧
      ((s.apply a).server.registry.sockets ws).readyState ≠ .opened := by
  have hprogress := s.server.progress_apply a
  obtain ⟨hverdict, hclosed⟩ := inv.early h
  exact ⟨hprogress.verdict ws hverdict, ((hprogress.socket ws).silent hclosed).1⟩

/-- A step that concerns other sockets. -/
theorem HistoryInvariant.of_same (inv : s.HistoryInvariant ws) {a : ServerAction}
    (hconn : (s.apply a).server.connections ws = s.server.connections ws)
    (hhistory : (s.apply a).history ws = s.history ws) : (s.apply a).HistoryInvariant ws where
  unconnected := by rw [hconn, hhistory]; exact inv.unconnected
  tells := by rw [hconn, hhistory]; exact inv.tells
  early := by rw [hhistory]; exact inv.early_apply a

/-- A step that concerns this socket and adds no early frame. -/
theorem HistoryInvariant.of_tells (inv : s.HistoryInvariant ws) {a : ServerAction}
    {c : Connection} (hconn : (s.apply a).server.connections ws = some c)
    (htells : Tells c ((s.apply a).history ws))
    (hearly : ((s.apply a).history ws).early = (s.history ws).early) :
    (s.apply a).HistoryInvariant ws where
  unconnected h := absurd (hconn.symm.trans h) (by simp)
  tells c' hc' := by rwa [← Option.some.inj (hconn.symm.trans hc')]
  early := by rw [hearly]; exact inv.early_apply a

theorem modifyHistory_self (f : SocketHistory → SocketHistory) :
    s.modifyHistory ws f ws = f (s.history ws) :=
  Function.update_self ws _ _

/-! ## Messages -/

theorem ignored_rejectSocket (s : Server) (ws : WsId) (code : ℕ) (reason : String) :
    Ignored ws s (s.rejectSocket ws code reason) where
  registry := ⟨_, _, rfl, fun _ h => ⟨Function.update_of_ne h _ _, Function.update_of_ne h _ _⟩⟩
  connections _ _ := rfl
  usagePending := rfl
  usageSettled := rfl

theorem ignored_closeSocket (s : Server) (ws : WsId) (code : ℕ) (reason : String) :
    Ignored ws s (s.closeSocket ws code reason) where
  registry := ⟨_, _, rfl, fun _ h => ⟨rfl, Function.update_of_ne h _ _⟩⟩
  connections _ _ := rfl
  usagePending := rfl
  usageSettled := rfl

theorem ignored_onMessage (s : Server) (now : ℕ) {ws : WsId} {c : Connection}
    (hauthed : c.authed = false) (frame : UpFrame) :
    Ignored ws s (s.onMessage now ws c (.ok frame)) := by
  have hself : Ignored ws s s := ⟨⟨_, _, rfl, fun _ _ => ⟨rfl, rfl⟩⟩, fun _ _ => rfl, rfl, rfl⟩
  simp only [Server.onMessage, hauthed, Bool.false_eq_true, if_false]
  split
  · split
    · exact ignored_closeSocket s ws _ _
    split
    · exact hself
    · exact ⟨hself.registry, fun _ h => Function.update_of_ne h _ _, rfl, rfl⟩
  · exact ignored_rejectSocket s ws _ _

theorem processAuthedFrame_connections (s : Server) (now : ℕ) (ws : WsId)
    (agentId : Option String) (frame : UpFrame) :
    (s.processAuthedFrame now ws agentId frame).connections = s.connections := by
  unfold Server.processAuthedFrame
  split
  · rfl
  · split
    · unfold Server.resolveUsageResponse
      repeat' split
      all_goals rfl
    · rfl
  · rfl
  · rfl

theorem HistoryInvariant.message_authed (inv : s.HistoryInvariant ws) {c : Connection}
    (hc : s.server.connections ws = some c) (hauthed : c.authed = true) (now : ℕ)
    (frame : UpFrame) : (s.apply (.message now ws (.ok frame))).HistoryInvariant ws := by
  have htells := inv.tells c hc
  obtain ⟨hregistered, hearly, hprocessed⟩ := htells.authed hauthed
  have hconn : (s.apply (.message now ws (.ok frame))).server.connections ws = some c := by
    simp only [apply, Server.apply, Server.withConnection, hc, Server.onMessage, hauthed, if_true]
    rw [processAuthedFrame_connections, hc]
  have hhistory : (s.apply (.message now ws (.ok frame))).history ws = { s.history ws with
      processed := (s.history ws).processed ++ [frame], late := (s.history ws).late ++ [frame] } := by
    simp [apply, historyAfter, modifyHistory_self, hc, hauthed, SocketHistory.arrive, hregistered]
  refine inv.of_tells hconn ?_ (by rw [hhistory])
  rw [hhistory]
  exact ⟨htells.closed, htells.pending, fun _ => ⟨hregistered, hearly, by rw [hprocessed]⟩,
    fun h => absurd (hauthed.symm.trans h) (by simp),
    fun h => absurd (hregistered.symm.trans h) (by simp)⟩

/-- A frame that arrives before the connection is authenticated is not processed. -/
theorem SocketHistory.arrive_unauthed (h : SocketHistory) (frame : UpFrame) :
    (h.arrive false frame).processed = h.processed ∧
      (h.arrive false frame).registered = h.registered ∧
      (h.arrive false frame).closed = h.closed ∧
      (h.registered = none → (h.arrive false frame).late = h.late) := by
  unfold SocketHistory.arrive
  simp only [Bool.false_eq_true, if_false]
  repeat' split
  · exact ⟨rfl, rfl, rfl, fun _ => rfl⟩
  · exact ⟨rfl, rfl, rfl, fun _ => rfl⟩
  · rename_i hsome
    exact ⟨rfl, rfl, rfl, fun h => absurd (hsome.symm.trans h) (by simp)⟩

theorem SocketHistory.arrive_hello (h : SocketHistory) (hello : HelloFrame) :
    (h.arrive false (.hello hello)).early = h.early := by
  unfold SocketHistory.arrive
  simp only [Bool.false_eq_true, if_false, UpFrame.isHello, if_true]
  split <;> rfl

theorem onMessage_early (s : Server) (now : ℕ) (ws : WsId) {c : Connection} {frame : UpFrame}
    (hauthed : c.authed = false) (hframe : frame.isHello = false) :
    s.onMessage now ws c (.ok frame) =
      s.rejectSocket ws 4003 "expected hello before task frames" := by
  cases frame with
  | hello hello => simp [UpFrame.isHello] at hframe
  | _ => simp [Server.onMessage, hauthed]

/-- What a hello does to its connection. -/
theorem onMessage_hello (s : Server) (now : ℕ) {ws : WsId} {c : Connection} (hello : HelloFrame)
    (hc : s.connections ws = some c) (hauthed : c.authed = false) :
    (s.onMessage now ws c (.ok (.hello hello))).connections ws = some c ∨
      c.helloProcessing = false ∧ (s.onMessage now ws c (.ok (.hello hello))).connections ws =
        some { c with helloProcessing := true, authenticating := some hello } := by
  unfold Server.onMessage
  simp only [hauthed, Bool.false_eq_true, if_false]
  split
  · exact .inl hc
  split
  · exact .inl hc
  · rename_i hbusy
    exact .inr ⟨by simpa using hbusy, Server.setConnection_self s ws _⟩

/-- Before the authentication a hello is kept, every other frame is a protocol violation. -/
theorem HistoryInvariant.message_unauthed (inv : s.HistoryInvariant ws) {c : Connection}
    (hc : s.server.connections ws = some c) (hauthed : c.authed = false) (now : ℕ)
    (frame : UpFrame) : (s.apply (.message now ws (.ok frame))).HistoryInvariant ws := by
  have htells := inv.tells c hc
  have hhistory : (s.apply (.message now ws (.ok frame))).history ws =
      (s.history ws).arrive false frame := by
    simp [apply, historyAfter, modifyHistory_self, hc, hauthed]
  have hserver : (s.apply (.message now ws (.ok frame))).server =
      s.server.onMessage now ws c (.ok frame) := by
    simp [apply, Server.apply, Server.withConnection, hc]
  obtain ⟨hprocessed, hregistered, hclosed, hlate⟩ :=
    SocketHistory.arrive_unauthed (s.history ws) frame
  have hkept : Tells c ((s.history ws).arrive false frame) := by
    refine ⟨hclosed.trans htells.closed, hregistered ▸ htells.pending, ?_,
      fun h => hprocessed.trans (htells.unauthed h), fun h => ?_⟩
    · exact fun h => absurd (hauthed.symm.trans h) (by simp)
    · rw [hregistered] at h
      exact (hlate h).trans (htells.fresh h)
  by_cases hframe : frame.isHello = true
  · obtain ⟨hello, rfl⟩ : ∃ hello, frame = .hello hello := by
      cases frame with
      | hello hello => exact ⟨hello, rfl⟩
      | _ => simp [UpFrame.isHello] at hframe
    have hearly := SocketHistory.arrive_hello (s.history ws) hello
    rcases onMessage_hello s.server now hello hc hauthed with hconn | ⟨hnew, hconn⟩
    · exact inv.of_tells (hserver ▸ hconn) (hhistory ▸ hkept) (by rw [hhistory, hearly])
    · refine inv.of_tells (hserver ▸ hconn) ?_ (by rw [hhistory, hearly])
      rw [hhistory]
      refine ⟨hkept.closed, fun h => ?_, hkept.authed, hkept.unauthed, hkept.fresh⟩
      exact absurd (hnew.symm.trans (hkept.pending h).1) (by simp)
  · have hreject := onMessage_early s.server now ws hauthed (by simpa using hframe)
    rw [← hserver] at hreject
    refine ⟨fun h => ?_, fun c' hc' => ?_, fun _ => ?_⟩
    · rw [hreject] at h
      exact absurd (hc.symm.trans h) (by simp)
    · rw [hreject] at hc'
      rw [hhistory, ← Option.some.inj (hc.symm.trans hc')]
      exact hkept
    · rw [hreject]
      exact ⟨Registry.noteServerClose_self _ ws, by
        simpa [Server.rejectSocket, Server.closeSocket, Server.modifyRegistry,
          Registry.modifySocket] using Socket.close_not_opened _ _ _⟩

/-! ## The end of the authentication -/

/-- Where the continuation of the authentication leaves the connection. -/
theorem onAuthenticated_connection (s : Server) (now : ℕ) (ws : WsId) (c : Connection)
    (hello : HelloFrame) (client : Option ClientRow) (card : Except (ℕ × String) Unit) :
    ∃ agentId authed, (s.onAuthenticated now ws c hello client card).connections ws =
        some { c with authenticating := none, agentId := agentId, authed := authed } ∧
      (authed = c.authed ∨
        (Server.authenticateAndRegister s.registry now ws hello client card).isOk ∧
          ((s.onAuthenticated now ws c hello client card).registry.sockets ws).readyState =
            .opened) := by
  unfold Server.onAuthenticated
  simp only
  split
  · exact ⟨c.agentId, c.authed, Server.setConnection_self s ws _, .inl rfl⟩
  · rename_i registry hok
    split
    · split
      · exact ⟨_, c.authed, Server.setConnection_self _ ws _, .inl rfl⟩
      · exact ⟨c.agentId, c.authed, Server.setConnection_self s ws _, .inl rfl⟩
    · rename_i hopen
      have hstate : (registry.sockets ws).readyState = .opened := by
        have h := not_not.mp hopen
        unfold Server.readyState at h
        split at h
        · simp at h
        · exact h
      split
      · refine ⟨_, true, Server.setConnection_self _ ws _, .inr ⟨by rw [hok]; rfl, ?_⟩⟩
        simp [Server.modifyRegistry, Server.setConnection, Registry.modifySocket, Socket.send,
          hstate]
      · exact ⟨_, true, Server.setConnection_self _ ws _, .inr ⟨by rw [hok]; rfl, hstate⟩⟩

theorem HistoryInvariant.authenticated (inv : s.HistoryInvariant ws)
    (hserver : s.server.Invariant) {c : Connection} (hc : s.server.connections ws = some c)
    {hello : HelloFrame} (hauth : c.authenticating = some hello) (now : ℕ)
    (client : Option ClientRow) (card : Except (ℕ × String) Unit) :
    (s.apply (.authenticated now ws client card)).HistoryInvariant ws := by
  have htells := inv.tells c hc
  obtain ⟨-, hauthed, hprocessing⟩ :=
    (hserver.connection ws c hc).authenticating (by simp [hauth])
  have hregistered : (s.history ws).registered = none := by
    rw [← Option.not_isSome_iff_eq_none]
    intro h
    exact absurd (hauth.symm.trans (htells.pending h).2) (by simp)
  have hserver' : (s.apply (.authenticated now ws client card)).server =
      s.server.onAuthenticated now ws c hello client card := by
    simp [apply, Server.apply, Server.withConnection, hc, hauth]
  have hhistory : (s.apply (.authenticated now ws client card)).history ws =
      { s.history ws with registered := some (Server.authenticateAndRegister s.server.registry
        now ws hello client card).isOk } := by
    simp [apply, historyAfter, modifyHistory_self, registers, hc, hauth]
  obtain ⟨agentId, authed, hconn, hhow⟩ :=
    onAuthenticated_connection s.server now ws c hello client card
  rw [← hserver'] at hconn hhow
  refine inv.of_tells hconn ?_ (by rw [hhistory])
  have hnone : (s.history ws).processed = [] := htells.unauthed hauthed
  rw [hhistory]
  refine ⟨htells.closed, fun _ => ⟨hprocessing, rfl⟩, fun h => ?_, fun _ => hnone,
    fun h => absurd h (by simp)⟩
  rcases hhow with hsame | ⟨hok, hopen⟩
  · exact absurd (h.symm.trans (hsame.trans hauthed)) (by simp)
  · -- A frame that had come too early would have closed the socket.
    have hearly : (s.history ws).early = [] := by
      by_contra hsome
      exact (inv.early_apply _ hsome).2 hopen
    exact ⟨by rw [hok], hearly, hnone.trans (htells.fresh hregistered).symm⟩

/-- The steps that end something on the socket without touching its frames. -/
theorem Tells.of_frames {c c' : Connection} {h h' : SocketHistory} (htells : Tells c h)
    (hauthed : c'.authed = c.authed) (hearly : h'.early = h.early) (hlate : h'.late = h.late)
    (hprocessed : h'.processed = h.processed) (hregistered : h'.registered = h.registered)
    (hclosed : h'.closed = c'.observedCloseCode.isSome)
    (hpending : c'.helloProcessing = c.helloProcessing ∧ c'.authenticating = c.authenticating) :
    Tells c' h' where
  closed := hclosed
  pending := by rw [hregistered, hpending.1, hpending.2]; exact htells.pending
  authed := by rw [hauthed, hregistered, hearly, hprocessed, hlate]; exact htells.authed
  unauthed := by rw [hauthed, hprocessed]; exact htells.unauthed
  fresh := by rw [hregistered, hlate]; exact htells.fresh

/-! ## Every step keeps it -/

/-- The socket whose connection a step may rewrite. -/
def socketOf : ServerAction → Option WsId
  | .connect ws | .message _ ws _ | .authenticated _ ws _ _ | .authenticationError ws
  | .helloTimeout ws | .close _ ws _ => some ws
  | _ => none

theorem onMessage_connections_of_ne (s : Server) (now : ℕ) {ws ws' : WsId} (c : Connection)
    (parsed : Except String UpFrame) (hne : ws' ≠ ws) :
    (s.onMessage now ws c parsed).connections ws' = s.connections ws' := by
  unfold Server.onMessage
  split
  · rfl
  split
  · rw [processAuthedFrame_connections]
  split
  · split
    · rfl
    split
    · rfl
    · exact Server.setConnection_of_ne s _ hne
  · rfl

theorem onAuthenticated_connections_of_ne (s : Server) (now : ℕ) {ws ws' : WsId} (c : Connection)
    (hello : HelloFrame) (client : Option ClientRow) (card : Except (ℕ × String) Unit)
    (hne : ws' ≠ ws) :
    (s.onAuthenticated now ws c hello client card).connections ws' = s.connections ws' := by
  have hset : ∀ (s : Server) c', (s.setConnection ws c').connections ws' = s.connections ws' :=
    fun s c' => Server.setConnection_of_ne s c' hne
  unfold Server.onAuthenticated
  simp only
  split
  · exact hset s _
  · split
    · split
      · exact (hset _ _).trans (hset s _)
      · exact hset s _
    · split
      · exact (hset _ _).trans (hset s _)
      · exact (hset _ _).trans (hset s _)

theorem onClose_connections (s : Server) (now : ℕ) (ws : WsId) (c : Connection) (code : ℕ) :
    (s.onClose now ws c code).connections =
      (s.setConnection ws { c with observedCloseCode := some code }).connections := by
  unfold Server.onClose
  simp only
  split <;> rfl

theorem connections_of_ne (s : Server) {a : ServerAction} {ws' : WsId}
    (h : socketOf a ≠ some ws') : (s.apply a).connections ws' = s.connections ws' := by
  have hconnection : ∀ ws f, (∀ c, (f c : Server).connections ws' = s.connections ws') →
      (s.withConnection ws f).connections ws' = s.connections ws' := by
    intro ws f hf
    unfold Server.withConnection
    split
    · exact hf _
    · rfl
  have hset : ∀ ws c, socketOf a = some ws →
      (s.setConnection ws c).connections ws' = s.connections ws' :=
    fun ws c ha => Server.setConnection_of_ne s c fun heq => h (heq ▸ ha)
  cases a with
  | connect ws => exact hset ws _ rfl
  | message now ws parsed =>
      exact hconnection ws _ fun c =>
        onMessage_connections_of_ne s now c parsed fun heq => h (heq ▸ rfl)
  | authenticated now ws client card =>
      refine hconnection ws _ fun c => ?_
      split
      · exact onAuthenticated_connections_of_ne s now c _ client card fun heq => h (heq ▸ rfl)
      · rfl
  | authenticationError ws => exact hconnection ws _ fun c => hset ws _ rfl
  | helloTimeout ws =>
      refine hconnection ws _ fun c => ?_
      unfold Server.onHelloTimeout
      split <;> rfl
  | close now ws code =>
      refine hconnection ws _ fun c => ?_
      rw [onClose_connections]
      exact hset ws _ rfl
  | requestUsage requestId agentId =>
      simp only [Server.apply, Server.requestUsage]
      split <;> rfl
  | dispatch binding assign =>
      simp only [Server.apply, Server.dispatch]
      split <;> rfl
  | _ => rfl

theorem historyAfter_of_ne (s : ObservedServer) {a : ServerAction} {ws' : WsId}
    (h : socketOf a ≠ some ws') : s.historyAfter a ws' = s.history ws' := by
  have hne : ∀ ws, socketOf a = some ws → ws' ≠ ws := fun ws ha heq => h (heq ▸ ha)
  cases a with
  | message now ws parsed =>
      cases parsed with
      | error complaint => rfl
      | ok frame => exact Function.update_of_ne (hne ws rfl) _ _
  | authenticated now ws client card => exact Function.update_of_ne (hne ws rfl) _ _
  | authenticationError ws => exact Function.update_of_ne (hne ws rfl) _ _
  | close now ws code => exact Function.update_of_ne (hne ws rfl) _ _
  | _ => rfl

theorem HistoryInvariant.step (inv : s.HistoryInvariant ws) (hserver : s.server.Invariant)
    {a : ServerAction} (henabled : s.server.enabled a) : (s.apply a).HistoryInvariant ws := by
  by_cases hws : socketOf a = some ws
  swap
  · exact inv.of_same (connections_of_ne s.server hws) (historyAfter_of_ne s hws)
  cases a with
  | connect ws' =>
      obtain rfl : ws' = ws := Option.some.inj hws
      have hnew := inv.unconnected henabled
      have hhistory : (s.apply (.connect ws')).history ws' = {} := hnew
      refine inv.of_tells (Server.setConnection_self s.server ws' {}) ?_ (by rw [hhistory, hnew])
      rw [hhistory]
      exact ⟨rfl, fun h => absurd h (by simp), fun h => absurd h (by simp), fun _ => rfl,
        fun _ => rfl⟩
  | message now ws' parsed =>
      obtain rfl : ws' = ws := Option.some.inj hws
      obtain ⟨c, hc, -⟩ := henabled
      cases parsed with
      | error complaint =>
          refine inv.of_same ?_ rfl
          simp [apply, Server.apply, Server.withConnection, hc, Server.onMessage,
            Server.rejectSocket, Server.closeSocket, Server.modifyRegistry]
      | ok frame =>
          cases hauthed : c.authed with
          | true => exact inv.message_authed hc hauthed now frame
          | false => exact inv.message_unauthed hc hauthed now frame
  | authenticated now ws' client card =>
      obtain rfl : ws' = ws := Option.some.inj hws
      obtain ⟨c, hc, hauth⟩ := henabled
      obtain ⟨hello, hhello⟩ := Option.isSome_iff_exists.mp hauth
      exact inv.authenticated hserver hc hhello now client card
  | authenticationError ws' =>
      obtain rfl : ws' = ws := Option.some.inj hws
      obtain ⟨c, hc, hauth⟩ := henabled
      have htells := inv.tells c hc
      obtain ⟨-, hauthed, hprocessing⟩ := (hserver.connection ws' c hc).authenticating hauth
      have hconn : (s.apply (.authenticationError ws')).server.connections ws' =
          some { c with authenticating := none } := by
        simp [apply, Server.apply, Server.withConnection, hc, Server.onAuthenticationError,
          Server.closeSocket, Server.modifyRegistry, Server.setConnection]
      have hhistory : (s.apply (.authenticationError ws')).history ws' =
          { s.history ws' with registered := some false } := by
        simp [apply, historyAfter, modifyHistory_self]
      refine inv.of_tells hconn ?_ (by rw [hhistory])
      rw [hhistory]
      exact ⟨htells.closed, fun _ => ⟨hprocessing, rfl⟩,
        fun h => absurd (hauthed.symm.trans h) (by simp), htells.unauthed,
        fun h => absurd h (by simp)⟩
  | helloTimeout ws' =>
      obtain rfl : ws' = ws := Option.some.inj hws
      obtain ⟨c, hc, -⟩ := henabled
      refine inv.of_same ?_ rfl
      simp only [apply, Server.apply, Server.withConnection, hc, Server.onHelloTimeout]
      split
      · exact hc
      · exact hc
  | close now ws' code =>
      obtain rfl : ws' = ws := Option.some.inj hws
      obtain ⟨c, hc, -⟩ := henabled
      have htells := inv.tells c hc
      have hconn : (s.apply (.close now ws' code)).server.connections ws' =
          some { c with observedCloseCode := some code } := by
        simp only [apply, Server.apply, Server.withConnection, hc, onClose_connections]
        exact Server.setConnection_self s.server ws' _
      have hhistory : (s.apply (.close now ws' code)).history ws' =
          { s.history ws' with closed := true } := by
        simp [apply, historyAfter, modifyHistory_self]
      refine inv.of_tells hconn ?_ (by rw [hhistory])
      rw [hhistory]
      exact htells.of_frames rfl rfl rfl rfl rfl rfl ⟨rfl, rfl⟩
  | _ => exact absurd hws (by simp [socketOf])

theorem historyInvariant_of_reachable (h : observedSystem.Reachable s) :
    s.server.Invariant ∧ ∀ ws, s.HistoryInvariant ws := by
  refine h.invariant (I := fun s => s.server.Invariant ∧ ∀ ws, s.HistoryInvariant ws) ?_ ?_
  · rintro s ⟨graceMs, rfl⟩
    refine ⟨Server.invariant_init graceMs, fun ws => ⟨fun _ => rfl, fun c hc => ?_, fun h => ?_⟩⟩
    · simp at hc
    · simp at h
  · rintro s a t ⟨hserver, inv⟩ ⟨henabled, rfl⟩
    exact ⟨hserver.step ⟨henabled, rfl⟩, fun ws => (inv ws).step hserver henabled⟩

/-- The contract holds in every state of every run. -/
theorem authenticationSpec_of_reachable (h : observedSystem.Reachable s) :
    s.AuthenticationSpec := by
  obtain ⟨hserver, inv⟩ := historyInvariant_of_reachable h
  have hprocessed : ∀ ws, (s.history ws).processed ≠ [] →
      (s.history ws).registered = some true ∧ (s.history ws).early = [] ∧
        (s.history ws).processed = (s.history ws).late := by
    intro ws hsome
    cases hc : s.server.connections ws with
    | none => exact absurd (by rw [(inv ws).unconnected hc]) hsome
    | some c =>
        cases hauthed : c.authed with
        | true => exact ((inv ws).tells c hc).authed hauthed
        | false => exact absurd (((inv ws).tells c hc).unauthed hauthed) hsome
  refine ⟨?_, ?_, ?_, ?_, ?_⟩
  · rintro ws c hc hnamed - hclosed a conn hconn rfl
    obtain ⟨c', hc', hagent, hopen⟩ := hserver.registered a conn hconn
    obtain rfl := Option.some.inj (hc.symm.trans hc')
    have hname : a ≠ "" := fun heq => hnamed (heq ▸ hagent)
    rw [((inv conn.ws).tells c hc).closed, hopen hname] at hclosed
    exact absurd hclosed (by simp)
  · intro ws hearly
    refine ⟨?_, (inv ws).early hearly⟩
    by_contra hsome
    exact hearly (hprocessed ws hsome).2.1
  · intro ws hsome
    exact ⟨(hprocessed ws hsome).1, (hprocessed ws hsome).2.2⟩
  · intro ws hfailed
    by_contra hsome
    exact absurd (hfailed.symm.trans (hprocessed ws hsome).1) (by simp)
  · intro ws c now frame hc hauthed
    exact ignored_onMessage s.server now hauthed frame

section Witness

private def promptHello : HelloFrame where
  agentId := "agent"
  version := protocolVersion
  token := "token"
  protocolCapabilities := some [taskReplayCapability]

private def promptFrame : TaskUpFrame where
  taskId := "task"
  executionId := some "execution"
  seq := some 0
  body := .status { state := .working } none

private def initial : ObservedServer := { server := { registry := { disconnectGraceMs := 30000 } } }

private theorem initial_reachable : observedSystem.Reachable initial := .of_init ⟨30000, rfl⟩

private def agentRow : ClientRow where
  id := "agent"
  clientId := "client"

/-- A connection is authenticated, sends a frame and closes. -/
private def orderly : List ServerAction :=
  [.connect 0, .message 0 0 (.ok (.hello promptHello)),
    .authenticated 1 0 (some agentRow) (.ok ()), .message 2 0 (.ok (.task promptFrame)),
    .close 3 0 1006]

theorem authenticationSpec_of_reachable_orderly :
    ((orderly.foldl apply initial).history 0).processed = [.task promptFrame] ∧
      (orderly.foldl apply initial).AuthenticationSpec :=
  ⟨by decide +kernel,
    authenticationSpec_of_reachable (System.Legal.reachable (by decide +kernel) initial_reachable)⟩

/-- A connection sends its first frame without waiting for the authentication. -/
private def impatient : List ServerAction :=
  [.connect 0, .message 0 0 (.ok (.hello promptHello)), .message 1 0 (.ok (.task promptFrame)),
    .authenticated 2 0 (some agentRow) (.ok ())]

/-- Frames that came before the authentication are not processed after it either. -/
theorem early_frames_dropped : ¬ ∀ s : ObservedServer, observedSystem.Reachable s → ∀ ws,
    (s.history ws).registered = some true → (s.history ws).early <+: (s.history ws).processed := by
  intro hclaim
  have hprefix := hclaim (impatient.foldl apply initial)
    (System.Legal.reachable (by decide +kernel) initial_reachable) 0 (by decide +kernel)
  exact absurd hprefix (by decide +kernel)

end Witness

end ObservedServer

end VicoopBridge
