import VicoopBridge.Verification.Bridge.ToolAnswers
import VicoopBridge.Verification.Registry.Decisions

/-! # Tool approvals across both processes

A tool of the daemon is allowed only by the first decision the server recorded for its
request, made while its execution was bound and before the request expired. -/

namespace VicoopBridge

open Library

namespace Registry

variable {r r' : Registry} {issued : List TaskBinding} {log : List AcceptedDecision}

/-! ## Task frames -/

theorem calm_acknowledge (r : Registry) (ws : WsId) (b : TaskBinding) :
    r.Calm (r.acknowledge ws b) := by
  unfold acknowledge
  split
  · exact calm_send r ws rfl
  · exact .refl r

theorem calm_acknowledgeReceipt (r : Registry) (now : ℕ) (ws : WsId) (agentId : Option String)
    (frame : TaskUpFrame) : r.Calm (r.acknowledgeReceipt now ws agentId frame).2 := by
  have hpruned : r.Calm (r.pruneTerminalReceipts now) := calm_of_eq rfl rfl rfl rfl
  rcases r.acknowledgeReceipt_cases ws now agentId frame with h | h | ⟨_, _, h⟩ <;> rw [h]
  · exact .refl r
  · exact hpruned
  · exact hpruned.trans (calm_send _ ws rfl)

theorem calm_resumeBinding (r : Registry) (taskId agentId : String) :
    r.Calm (r.resumeBinding taskId agentId) := by
  unfold resumeBinding
  repeat' split
  all_goals exact calm_of_eq rfl rfl rfl rfl

theorem calm_failExecution (r : Registry) (b : TaskBinding) (code message : String) :
    r.Calm (r.failExecution b code message) :=
  (calm_failTaskBinding r b code message).trans (calm_sendToAgent _ b.agentId rfl)

theorem FrameVerdict.calm {now : ℕ} {ws : WsId} {B : String} {frame : TaskUpFrame}
    {res : Option TaskFrameAcceptance} (h : FrameVerdict r now ws B frame res r') : r.Calm r' := by
  cases h with
  | unbound => exact calm_acknowledgeReceipt r now ws _ frame
  | foreign => exact .refl r
  | stale => exact calm_acknowledgeReceipt r now ws _ frame
  | broken b code message => exact calm_failExecution r b code message
  | duplicate b => exact (calm_acknowledge r ws b).trans (calm_resumeBinding _ _ _)
  | accepted b =>
      have hcell : r.Calm (r.modifyCell b fun c =>
          { c with nextClientSeq := some (r.expectedSeq b + 1) }) := calm_of_eq rfl rfl rfl rfl
      exact hcell.trans (calm_resumeBinding _ _ _)
  | legacy => exact calm_resumeBinding r _ _

theorem calm_rejectApprovalRequest (r : Registry) (b : TaskBinding) :
    r.Calm (r.rejectApprovalRequest b) :=
  (calm_sendToAgent r b.agentId rfl).trans (calm_failTaskBinding _ b _ _)

/-- Every handler changes cells first and acknowledges last. -/
theorem calm_acknowledge_of (hb : r'.bindings = r.bindings)
    (he : r'.approvals.entries = r.approvals.entries)
    (ho : r'.approvals.origins = r.approvals.origins) (hs : r'.sockets = r.sockets) (ws : WsId)
    (b : TaskBinding) : r.Calm (r'.acknowledge ws b) :=
  (calm_of_eq hb he ho hs).trans (calm_acknowledge r' ws b)

theorem calm_closeBinding_of {b : TaskBinding} (hk : r.bindings.get? b.taskId = some b)
    (hb : r'.bindings = r.bindings) (he : r'.approvals.entries = r.approvals.entries)
    (ho : r'.approvals.origins = r.approvals.origins) (hs : r'.sockets = r.sockets) (now : ℕ) (ws : WsId) : r.Calm (r'.closeBinding now ws b) := by
  have hfinished : r.Calm (r'.finish b) := calm_of_eq hb he ho hs
  have hunrivaled := hfinished.unrivaled (unrivaled_of_stored hk)
  have hclose : ∀ r₁ : Registry, (r'.finish b).Calm r₁ →
      r.Calm ((r₁.unbindTask b.taskId b).acknowledge ws b) := by
    intro r₁ h
    exact ((hfinished.trans h).trans (calm_unbindTask (h.unrivaled hunrivaled))).trans
      (calm_acknowledge _ ws b)
  unfold closeBinding
  simp only
  split
  · rename_i next _ _
    obtain ⟨receipts, heq⟩ := (r'.finish b).rememberTerminalReceipt_frame now b (next - 1)
    rw [heq]
    exact hclose _ (calm_of_eq rfl rfl rfl rfl)
  · exact hclose _ (.refl _)

/-- Only the approval frames touch approvals. -/
theorem Decided.processAccepted (inv : r.Decided issued log) (hr : r.Consistent) (now : ℕ)
    (ws : WsId) {b : TaskBinding} (hk : r.bindings.get? b.taskId = some b) (body : TaskFrameBody) :
    (r.processAccepted now ws b body).Decided issued log := by
  cases body with
  | approvalRequest request =>
      have hrejected := inv.calm hr (calm_rejectApprovalRequest r b)
      simp only [Registry.processAccepted, processApprovalRequest]
      split
      · exact hrejected
      split
      · exact hrejected
      · rename_i a approvals heq
        exact (inv.raise hr hk heq).calm (hr.approvalRequest hk heq)
          (calm_acknowledge_of (by rfl) (by rfl) (by rfl) (by rfl) ws b)
  | approvalReceived requestId decision =>
      simp only [Registry.processAccepted, processApprovalReceived]
      split
      · exact inv.calm hr (calm_acknowledge r ws b)
      · rename_i received approvals heq
        exact (inv.receive heq).calm (hr.approvalReceived heq)
          (calm_acknowledge_of (by rfl) (by rfl) (by rfl) (by rfl) ws b)
  | status status metadata =>
      refine inv.calm hr ?_
      simp only [Registry.processAccepted, processTaskStatus]
      split <;> exact calm_acknowledge_of (by rfl) (by rfl) (by rfl) (by rfl) ws b
  | artifact artifact append lastChunk =>
      exact inv.calm hr (calm_acknowledge_of (by rfl) (by rfl) (by rfl) (by rfl) ws b)
  | complete status usage =>
      refine inv.calm hr ?_
      simp only [Registry.processAccepted, processTaskComplete]
      split <;> exact calm_closeBinding_of hk (by rfl) (by rfl) (by rfl) (by rfl) now ws
  | fail error =>
      exact inv.calm hr (calm_closeBinding_of hk (by rfl) (by rfl) (by rfl) (by rfl) now ws)

theorem Decided.processTaskFrame (inv : r.Decided issued log) (hr : r.Consistent) (now : ℕ)
    (ws : WsId) (B : String) (frame : TaskUpFrame) :
    (r.processTaskFrame now ws (some B) frame).Decided issued log := by
  have hverdict := acceptTaskFrame_verdict r now ws B frame
  have inv' := inv.calm hr hverdict.calm
  unfold Registry.processTaskFrame
  rcases hres : r.acceptTaskFrame now ws (some B) frame with ⟨res, r₁⟩
  rw [hres] at hverdict inv'
  simp only at hverdict inv'
  rcases res with _ | b | _
  · exact inv'
  · obtain ⟨-, hk, hk₁⟩ := hverdict.stored
    rw [← hr.binding_key _ _ hk] at hk₁
    exact inv'.processAccepted (hverdict.effect hr).consistent now ws hk₁ frame.body
  · exact inv'

end Registry

/-! ## Steps of the server -/

namespace Server

variable {s : Server} {issued : List TaskBinding} {log : List AcceptedDecision}

theorem calm_closeSocket (s : Server) (ws : WsId) (code : ℕ) (reason : String) :
    s.registry.Calm (s.closeSocket ws code reason).registry :=
  Registry.calm_close s.registry ws code reason

theorem calm_rejectSocket (s : Server) (ws : WsId) (code : ℕ) (reason : String) :
    s.registry.Calm (s.rejectSocket ws code reason).registry := by
  have hnoted : s.registry.Calm (s.registry.noteServerClose ws) :=
    Registry.calm_of_eq rfl rfl rfl rfl
  exact hnoted.trans (Registry.calm_close _ ws code reason)

theorem decided_onMessage (hs : s.Invariant) (inv : s.registry.Decided issued log) (now : ℕ)
    {ws : WsId} {c : Connection} (hc : s.connections ws = some c)
    (parsed : Except String UpFrame) :
    (s.onMessage now ws c parsed).registry.Decided issued log := by
  have hcalm : ∀ t : Server, s.registry.Calm t.registry → t.registry.Decided issued log :=
    fun t h => inv.calm hs.consistent h
  unfold onMessage
  split
  · exact hcalm _ (calm_rejectSocket s ws _ _)
  split
  · rename_i hauthed
    obtain ⟨B, hB⟩ := Option.isSome_iff_exists.mp ((hs.connection ws c hc).authed hauthed)
    rw [hB]
    unfold processAuthedFrame
    split
    · exact inv.processTaskFrame hs.consistent now ws B _
    · split
      · unfold resolveUsageResponse
        repeat' split
        all_goals exact inv
      · exact inv
    · exact inv
    · exact hcalm _ (calm_rejectSocket s ws _ _)
  split
  · split
    · exact hcalm _ (calm_closeSocket s ws _ _)
    split <;> exact inv
  · exact hcalm _ (calm_rejectSocket s ws _ _)

theorem calm_onAuthenticated (hs : s.Invariant) (now : ℕ) (ws : WsId) (c : Connection)
    {frame : HelloFrame} (hc : s.connections ws = some c) (hauth : c.authenticating = some frame)
    (client : Option ClientRow) (card : Except (ℕ × String) Unit) :
    s.registry.Calm (s.onAuthenticated now ws c frame client card).registry := by
  unfold onAuthenticated
  simp only
  split
  · exact calm_closeSocket (s.setConnection ws _) ws _ _
  · rename_i registry hok
    obtain ⟨conn, -, hws, hreg⟩ := authenticateAndRegister_ok hok
    have hregistered := Registry.calm_registerAgent hs.consistent.toGraceInvariant hreg
    have hagent := ((hs.connection ws c hc).authenticating (by simp [hauth])).1
    have hr : registry.Consistent := by
      refine hs.consistent.registerAgent now ?_ hreg
      rw [hws]
      exact hs.not_registered hc hagent
    split
    · split
      · exact hregistered
      · exact hregistered.trans (Registry.calm_unregisterAgent hr.toGraceInvariant _ _ _ _)
    · split
      · exact hregistered.trans (Registry.calm_send _ ws rfl)
      · exact hregistered

theorem calm_onClose (hs : s.Invariant) (now : ℕ) (ws : WsId) (c : Connection) (code : ℕ) :
    s.registry.Calm (s.onClose now ws c code).registry := by
  have hclosed : s.registry.Calm (s.registry.modifySocket ws
      fun socket => { socket with readyState := .closed }) :=
    Registry.calm_modifySocket _ ws fun _ _ _ h => h
  have inv' : (s.registry.modifySocket ws
      fun socket => { socket with readyState := .closed }).GraceInvariant :=
    hs.consistent.toGraceInvariant.congr rfl rfl rfl rfl
  unfold onClose
  simp only
  split
  · exact hclosed.trans (Registry.calm_unregisterAgent inv' _ _ _ _)
  · exact hclosed

end Server

namespace Bridge

/-- The decision a step puts on record. -/
def decisionOf (s : Bridge) : BridgeAction → List AcceptedDecision
  | .server (.decideApproval now id decision principal via) =>
      (s.server.registry.acceptedDecision now id decision principal via).toList
  | _ => []

variable {s : Bridge} {log : List AcceptedDecision}

/-- What every step of the server keeps. -/
theorem decided_server (opts : ClientOptions) (hs : s.server.Invariant)
    (inv : s.server.registry.Decided s.issued log) {a : ServerAction}
    (henabled : s.server.enabled a) (hpart : s.serverEnabled a) :
    (s.apply opts (.server a)).server.registry.Decided (s.apply opts (.server a)).issued
      (log ++ s.decisionOf (.server a)) := by
  have hr := hs.consistent
  have hcalm : ∀ r', s.server.registry.Calm r' → r'.Decided s.issued (log ++ []) := by
    intro r' h
    rw [List.append_nil]
    exact inv.calm hr h
  cases a with
  | connect ws => exact hcalm _ (.refl _)
  | message now ws parsed =>
      obtain ⟨c, hc, -⟩ := henabled
      simp only [apply, Server.apply, Server.withConnection, hc, decisionOf, List.append_nil]
      exact Server.decided_onMessage hs inv now hc parsed
  | authenticated now ws client card =>
      obtain ⟨c, hc, hauth⟩ := henabled
      obtain ⟨frame, hframe⟩ := Option.isSome_iff_exists.mp hauth
      simp only [apply, Server.apply, Server.withConnection, hc, hframe]
      exact hcalm _ (Server.calm_onAuthenticated hs now ws c hc hframe client card)
  | authenticationError ws =>
      obtain ⟨c, hc, -⟩ := henabled
      simp only [apply, Server.apply, Server.withConnection, hc]
      exact hcalm _ (Server.calm_closeSocket (s.server.setConnection ws _) ws _ _)
  | helloTimeout ws =>
      obtain ⟨c, hc, -⟩ := henabled
      simp only [apply, Server.apply, Server.withConnection, hc, Server.onHelloTimeout]
      split
      · exact hcalm _ (.refl _)
      · exact hcalm _ (Server.calm_rejectSocket s.server ws _ _)
  | peerClosing ws =>
      have hsent : ∀ (socket : Socket) (frame : DownFrame), frame.isResolve →
          frame ∈ (if socket.readyState = .opened then { socket with readyState := .closing }
            else socket).sent → frame ∈ socket.sent := by
        intro socket frame _ h
        split at h <;> exact h
      have hclosing := Registry.calm_modifySocket s.server.registry ws hsent
      exact hcalm _ hclosing
  | oversizedMessage ws => exact hcalm _ (Registry.calm_of_eq rfl rfl rfl rfl)
  | close now ws code =>
      obtain ⟨c, hc, -⟩ := henabled
      simp only [apply, Server.apply, Server.withConnection, hc]
      exact hcalm _ (Server.calm_onClose hs now ws c code)
  | disconnectClient clientId => exact hcalm _ (Registry.calm_disconnectClient _ clientId)
  | requestUsage requestId agentId =>
      have hsend := Registry.calm_sendToAgent s.server.registry agentId
        (rfl : (DownFrame.usageRequest requestId).isResolve = false)
      simp only [apply, Server.apply, Server.requestUsage]
      split
      · rename_i registry heq
        rw [heq] at hsend
        exact hcalm _ hsend
      · exact hcalm _ (.refl _)
  | usageTimeout requestId => exact hcalm _ (.refl _)
  | decideApproval now id decision principal via =>
      exact inv.decide hr now id decision principal via
  | approvalTick now id =>
      simp only [decisionOf, List.append_nil]
      exact inv.approvalTick hr now id
  | graceExpire timer => exact hcalm _ (Registry.calm_expireGraceTimer hr.toGraceInvariant henabled)
  | dispatch binding assign =>
      obtain ⟨hfresh, _, _, _, _, rfl⟩ := hpart
      have hbound := inv.bindTask hr hfresh
      have hboundHr := hr.bindTask henabled
      simp only [apply, Server.apply, Server.dispatch, decisionOf, List.append_nil]
      split
      · rename_i registry heq
        rw [heq] at hbound
        exact hbound
      · rename_i registry heq
        rw [heq] at hbound hboundHr
        exact hbound.calm hboundHr (Registry.calm_sendToAgent _ binding.agentId rfl)
  | sendToAgent agentId frame =>
      obtain ⟨taskId, executionId, rfl⟩ := hpart
      exact hcalm _ (Registry.calm_sendToAgent _ agentId rfl)
  | sink binding f => exact hcalm _ (Registry.calm_of_eq rfl rfl rfl rfl)
  | unbindTask taskId binding =>
      obtain ⟨hissued, rfl⟩ := hpart
      refine hcalm _ (Registry.calm_unbindTask fun b' hk hsome hexec => ?_)
      exact inv.unique binding hissued b' (inv.stored _ b' hk) hsome hexec

end Bridge

/-! ## Requests and decisions -/

/-- A request of one of the daemon's tools, for the execution its run belongs to. -/
structure ToolRequest where
  requestId : String
  taskId : String
  executionId : Option String
  deriving DecidableEq

/-- `asked` are the requests of the daemon's tools, `log` the decisions the server accepted. -/
structure DecidedBridge where
  bridge : Bridge
  asked : List ToolRequest := []
  log : List AcceptedDecision := []

namespace DecidedBridge

def apply (opts : ClientOptions) (s : DecidedBridge) (a : BridgeAction) : DecidedBridge where
  bridge := s.bridge.apply opts a
  asked := match a with
    | .client (.askTool _ run _ request) => s.asked ++
        [{ requestId := request.requestId, taskId := (s.bridge.client.runs run).taskId
           executionId := (s.bridge.client.runs run).executionId }]
    | _ => s.asked
  log := s.log ++ s.bridge.decisionOf a

end DecidedBridge

def decidedSystem (opts : ClientOptions) : System DecidedBridge BridgeAction :=
  .ofApply (fun s => ∃ graceMs,
      s = { bridge := { server := { registry := { disconnectGraceMs := graceMs } } } })
    (fun s a => s.bridge.enabled opts a) (DecidedBridge.apply opts)

/-- What has been asked and decided is only looked at. -/
theorem DecidedBridge.bridge_reachable {opts : ClientOptions} {s : DecidedBridge}
    (h : (decidedSystem opts).Reachable s) : (bridgeSystem opts).Reachable s.bridge := by
  refine h.invariant (I := fun s => (bridgeSystem opts).Reachable s.bridge) ?_ ?_
  · rintro _ ⟨graceMs, rfl⟩
    exact .of_init ⟨graceMs, rfl⟩
  · rintro s a _ hs ⟨henabled, rfl⟩
    exact hs.step ⟨henabled, rfl⟩

/-- The first decision on the request was to allow it, while its execution was bound and
before it expired. -/
def Granted (asked : List ToolRequest) (log : List AcceptedDecision) (id : String) : Prop :=
  ∃ q ∈ asked, q.requestId = id ∧ ∃ executionId d, q.executionId = some executionId ∧
    firstDecision log id executionId = some d ∧ d.decision = .allowOnce ∧ d.bound = true ∧
      d.expired = false

/-- How often the tool got an answer. -/
def Client.answersTo (c : Client) (id : String) : ℕ :=
  (c.resolved.filter fun answer => answer.1 = id).length

namespace DecidedBridge

structure ApprovalSpec (opts : ClientOptions) (s : DecidedBridge) : Prop where
  /-- A request has been answered once, or it waits; then its own timer can answer it. -/
  once : ∀ q ∈ s.asked, s.bridge.client.answersTo q.requestId = 1 ∨
    s.bridge.client.answersTo q.requestId = 0 ∧ ∀ now,
      (s.bridge.client.finishApproval opts now q.requestId .deny).answersTo q.requestId = 1
  asked : ∀ answer ∈ s.bridge.client.resolved, ∃ q ∈ s.asked, q.requestId = answer.1
  granted : ∀ id, (id, .allowOnce) ∈ s.bridge.client.resolved → Granted s.asked s.log id
  oneWaiting : ∀ id a id' a', s.bridge.server.registry.approvals.entries.get? id = some a →
    s.bridge.server.registry.approvals.entries.get? id' = some a' → a.isOpen → a'.isOpen →
      a.executionId = a'.executionId → id = id'

/-! ## The invariant -/

/-- The daemon's half: what its tools asked is answered or waits, never both. -/
structure ToolsInvariant (asked : List ToolRequest) (log : List AcceptedDecision) (c : Client) :
    Prop where
  answered : (c.resolved.map Prod.fst).Nodup
  exclusive : ∀ id ∈ c.resolved.map Prod.fst, c.approvals.get? id = none
  known : ∀ q ∈ asked, q.requestId ∈ c.resolved.map Prod.fst ∨
    (c.approvals.get? q.requestId).isSome
  waits : ∀ id p, c.approvals.get? id = some p → ∃ q ∈ asked, q.requestId = id ∧
    q.taskId = p.taskId ∧ q.executionId = some p.executionId
  own : ∀ id ∈ c.resolved.map Prod.fst, ∃ q ∈ asked, q.requestId = id
  granted : ∀ id, (id, .allowOnce) ∈ c.resolved → Granted asked log id

variable {asked : List ToolRequest} {log : List AcceptedDecision} {c c' : Client}

theorem ToolsInvariant.settle (inv : ToolsInvariant asked log c)
    {permitted : String → ApprovalDecision → Prop} (h : c.Settles permitted c')
    (hgranted : ∀ id, permitted id .allowOnce → Granted asked log id) :
    ToolsInvariant asked log c' := by
  have hwaiting : ∀ id p, c'.approvals.get? id = some p → c.approvals.get? id = some p :=
    fun _ _ hp => h.waiting hp
  obtain ⟨answers, ⟨hresolved, hnodup, hanswers⟩, hpermitted⟩ := h
  have hmem : ∀ id, id ∈ c'.resolved.map Prod.fst ↔
      id ∈ c.resolved.map Prod.fst ∨ id ∈ answers.map Prod.fst := by
    intro id
    rw [hresolved, List.map_append, List.mem_append]
  have hnew : ∀ id ∈ answers.map Prod.fst,
      (c.approvals.get? id).isSome ∧ c'.approvals.get? id = none := by
    intro id hid
    have hgone := hanswers id
    rwa [if_pos hid] at hgone
  have hsame : ∀ id, id ∉ answers.map Prod.fst → c'.approvals.get? id = c.approvals.get? id := by
    intro id hid
    have hkept := hanswers id
    rwa [if_neg hid] at hkept
  refine ⟨?_, ?_, ?_, fun id p hp => inv.waits id p (hwaiting id p hp), ?_, ?_⟩
  · rw [hresolved, List.map_append]
    refine inv.answered.append hnodup fun id hid hid' => ?_
    simpa [inv.exclusive id hid] using (hnew id hid').1
  · intro id hid
    by_cases hid' : id ∈ answers.map Prod.fst
    · exact (hnew id hid').2
    · rw [hsame id hid']
      exact inv.exclusive id (((hmem id).mp hid).resolve_right hid')
  · intro q hq
    by_cases hid : q.requestId ∈ answers.map Prod.fst
    · exact .inl ((hmem _).mpr (.inr hid))
    · rw [hsame _ hid]
      exact (inv.known q hq).imp_left fun h => (hmem _).mpr (.inl h)
  · intro id hid
    rcases (hmem id).mp hid with hold | hanswered
    · exact inv.own id hold
    · obtain ⟨p, hp⟩ := Option.isSome_iff_exists.mp (hnew id hanswered).1
      obtain ⟨q, hq, hid, -⟩ := inv.waits id p hp
      exact ⟨q, hq, hid⟩
  · intro id hid
    rw [hresolved] at hid
    rcases List.mem_append.mp hid with hold | hanswered
    · exact inv.granted id hold
    · exact hgranted id (hpermitted _ hanswered)

theorem ToolsInvariant.deny (inv : ToolsInvariant asked log c)
    (h : c.Settles Client.onlyDeny c') : ToolsInvariant asked log c' :=
  inv.settle h fun _ hallow => by simp [Client.onlyDeny] at hallow

theorem granted_extend {id : String} (h : Granted asked log id) (more : List ToolRequest)
    (new : List AcceptedDecision) : Granted (asked ++ more) (log ++ new) id := by
  obtain ⟨q, hq, hid, executionId, d, hexec, hfirst, hd⟩ := h
  exact ⟨q, List.mem_append_left _ hq, hid, executionId, d, hexec,
    firstDecision_append_of_some new hfirst, hd⟩

theorem ToolsInvariant.extend (inv : ToolsInvariant asked log c) (new : List AcceptedDecision) :
    ToolsInvariant asked (log ++ new) c := by
  refine { inv with granted := fun id hid => ?_ }
  simpa using granted_extend (inv.granted id hid) [] new

/-- A tool asks under an id that is new to the daemon. -/
theorem ToolsInvariant.ask (inv : ToolsInvariant asked log c) (opts : ClientOptions) (now : ℕ)
    (r : RunRef) (inputBytes : ℕ) (request : ApprovalRequest)
    (hfree : c.approvals.get? request.requestId = none)
    (hnew : ∀ answer ∈ c.resolved, answer.1 ≠ request.requestId) :
    ToolsInvariant (asked ++ [⟨request.requestId, (c.runs r).taskId, (c.runs r).executionId⟩]) log
      (c.requestApproval opts now r inputBytes request) := by
  have hunanswered : request.requestId ∉ c.resolved.map Prod.fst := by
    simpa using fun decision h => hnew _ h rfl
  have hold : ∀ id, Granted asked log id → Granted
      (asked ++ [⟨request.requestId, (c.runs r).taskId, (c.runs r).executionId⟩]) log id :=
    fun id h => by simpa using granted_extend h _ []
  rcases c.requestApproval_cases opts now r inputBytes request with
    hdenied | ⟨p, htask, hexec, hsettled⟩
  · rw [hdenied]
    refine ⟨?_, ?_, ?_, ?_, ?_, ?_⟩
    · rw [List.map_append]
      refine inv.answered.append (by simp) ?_
      simpa using hunanswered
    · intro id hid
      rw [List.map_append, List.mem_append] at hid
      rcases hid with hid | hid
      · exact inv.exclusive id hid
      · simp only [List.map_cons, List.map_nil, List.mem_singleton] at hid
        rw [hid, hfree]
    · intro q hq
      rw [List.map_append, List.mem_append]
      rcases List.mem_append.mp hq with h | h
      · exact (inv.known q h).imp_left .inl
      · rw [List.mem_singleton.mp h]
        exact .inl (.inr (by simp))
    · intro id p hp
      obtain ⟨q, hq, h⟩ := inv.waits id p hp
      exact ⟨q, List.mem_append_left _ hq, h⟩
    · intro id hid
      rw [List.map_append, List.mem_append] at hid
      rcases hid with hid | hid
      · obtain ⟨q, hq, h⟩ := inv.own id hid
        exact ⟨q, List.mem_append_left _ hq, h⟩
      · refine ⟨_, List.mem_append_right _ (List.mem_singleton_self _), ?_⟩
        simp only [List.map_cons, List.map_nil, List.mem_singleton] at hid
        exact hid.symm
    · intro id hid
      rcases List.mem_append.mp hid with h | h
      · exact hold id (inv.granted id h)
      · simp at h
  · refine ToolsInvariant.deny ?_ hsettled
    refine ⟨inv.answered, ?_, ?_, ?_, ?_, fun id hid => hold id (inv.granted id hid)⟩
    · intro id hid
      have hne : request.requestId ≠ id := by
        rintro rfl
        exact hunanswered hid
      exact (InsertionMap.get?_set_of_ne _ _ hne).trans (inv.exclusive id hid)
    · intro q hq
      rcases List.mem_append.mp hq with h | h
      · rcases inv.known q h with h | h
        · exact .inl h
        · refine .inr ?_
          simp only [InsertionMap.get?_set]
          split
          · rfl
          · exact h
      · rw [List.mem_singleton.mp h]
        exact .inr (by simp)
    · intro id p' hp'
      rw [InsertionMap.get?_set] at hp'
      split at hp'
      · rename_i heq
        obtain rfl := Option.some.inj hp'
        exact ⟨_, List.mem_append_right _ (List.mem_singleton_self _), heq, htask.symm, hexec⟩
      · obtain ⟨q, hq, h⟩ := inv.waits id p' hp'
        exact ⟨q, List.mem_append_left _ hq, h⟩
    · intro id hid
      obtain ⟨q, hq, h⟩ := inv.own id hid
      exact ⟨q, List.mem_append_left _ hq, h⟩

/-! ## Every run -/

/-- What a daemon does by itself denies tools, and what it is told answers them. -/
theorem settles_client (opts : ClientOptions) (c : Client) (a : ClientAction)
    (ha : ∀ now run inputBytes request, a ≠ .askTool now run inputBytes request) :
    c.Settles Client.onlyDeny (c.apply opts a) := by
  refine (Client.settles_denials opts).apply c a ?_ fun ws code =>
    (Client.settles_respects opts).onClose c ws code fun c₁ _ _ => Client.settles_suppressAll c₁ _
  exact fun now run inputBytes request heq => absurd heq (ha now run inputBytes request)

structure Invariant (s : DecidedBridge) : Prop where
  server : s.bridge.server.Invariant
  decided : s.bridge.server.registry.Decided s.bridge.issued s.log
  tools : ToolsInvariant s.asked s.log s.bridge.client

theorem Invariant.step {opts : ClientOptions} {s t : DecidedBridge} {a : BridgeAction}
    (inv : s.Invariant) (h : (decidedSystem opts).step s a t) : t.Invariant := by
  obtain ⟨henabled, rfl⟩ := h
  have hserver := Bridge.server_invariant inv.server ⟨henabled, rfl⟩
  cases a with
  | server a =>
      exact ⟨hserver, Bridge.decided_server opts inv.server inv.decided henabled.1 henabled.2,
        inv.tools.extend _⟩
  | client a =>
      refine ⟨hserver, ?_, ?_⟩
      · simpa [apply, Bridge.decisionOf, Bridge.apply] using inv.decided
      · simp only [apply, Bridge.decisionOf, Bridge.apply, List.append_nil]
        by_cases hask : ∃ now run inputBytes request, a = .askTool now run inputBytes request
        · obtain ⟨now, run, inputBytes, request, rfl⟩ := hask
          obtain ⟨⟨-, -, -, hfree, hnew⟩, -⟩ := henabled
          exact inv.tools.ask opts now run inputBytes request hfree hnew
        · push Not at hask
          have hsettled := inv.tools.deny (settles_client opts _ a hask)
          cases a with
          | askTool now run inputBytes request => exact absurd rfl (hask now run inputBytes request)
          | _ => exact hsettled
  | up now ws =>
      obtain ⟨hdialed, frame, hnext, hup⟩ := henabled
      obtain ⟨c, hc, -⟩ := hup
      have hdecided := Server.decided_onMessage inv.server inv.decided now hc (.ok frame)
      refine ⟨hserver, ?_, ?_⟩
      · simpa [apply, Bridge.apply, hnext, Bridge.decisionOf, Server.apply, Server.withConnection,
          hc] using hdecided
      · simpa [apply, Bridge.apply, hnext, Bridge.decisionOf] using inv.tools
  | down now ws =>
      obtain ⟨-, -, hsome⟩ := henabled
      obtain ⟨frame, hnext⟩ := Option.isSome_iff_exists.mp hsome
      refine ⟨hserver, ?_, ?_⟩
      · simpa [apply, Bridge.apply, hnext, Bridge.decisionOf] using inv.decided
      · simp only [apply, Bridge.apply, hnext, Bridge.decisionOf, List.append_nil]
        refine inv.tools.settle (Client.settles_onMessage opts _ now ws frame) ?_
        rintro id (hdeny | ⟨p, hp, hframe⟩)
        · simp at hdeny
        · obtain ⟨q, hq, hid, -, hexec⟩ := inv.tools.waits id p hp
          have hsent : frame ∈ (s.bridge.server.registry.sockets ws).sent :=
            List.mem_of_getElem? hnext
          rw [hframe] at hsent
          obtain ⟨d, hfirst, hallow⟩ := inv.decided.permits ws _ _ _ hsent
          obtain ⟨hbound, hvalid⟩ := inv.decided.sound d (mem_of_firstDecision hfirst).1
          exact ⟨q, hq, hid, p.executionId, d, hexec, hfirst, hallow, hbound, hvalid⟩

theorem invariant_of_reachable {opts : ClientOptions} {s : DecidedBridge}
    (h : (decidedSystem opts).Reachable s) : s.Invariant := by
  refine h.invariant ?_ fun _ _ _ inv hstep => inv.step hstep
  rintro _ ⟨graceMs, rfl⟩
  refine ⟨Server.invariant_init graceMs, ?_, ?_⟩
  · constructor <;> simp [ToolApprovals.empty, ToolApprovals.Keyed]
  · constructor <;> simp

theorem answersTo_eq_one {id : String} (hnodup : (c.resolved.map Prod.fst).Nodup)
    (hmem : id ∈ c.resolved.map Prod.fst) : c.answersTo id = 1 := by
  have hcount := List.count_eq_one_of_mem hnodup hmem
  rwa [List.count_eq_countP, List.countP_map, List.countP_eq_length_filter] at hcount

theorem answersTo_eq_zero {id : String} (h : id ∉ c.resolved.map Prod.fst) :
    c.answersTo id = 0 := by
  simp only [Client.answersTo, List.length_eq_zero_iff, List.filter_eq_nil_iff]
  intro answer hanswer heq
  exact h (List.mem_map.mpr ⟨answer, hanswer, by simpa using heq⟩)

/-- A tool is answered once, is allowed only by a first decision that was made in time, and
the server keeps at most one request waiting for an execution. -/
theorem approvalSpec_of_reachable {opts : ClientOptions} {s : DecidedBridge}
    (h : (decidedSystem opts).Reachable s) : s.ApprovalSpec opts := by
  have inv := invariant_of_reachable h
  refine ⟨fun q hq => ?_, fun answer hanswer => ?_, inv.tools.granted, inv.decided.waiting⟩
  · by_cases hanswered : q.requestId ∈ s.bridge.client.resolved.map Prod.fst
    · exact .inl (answersTo_eq_one inv.tools.answered hanswered)
    · refine .inr ⟨answersTo_eq_zero hanswered, fun now => ?_⟩
      obtain ⟨p, hp⟩ := Option.isSome_iff_exists.mp ((inv.tools.known q hq).resolve_left hanswered)
      have inv' := inv.tools.deny
        (Client.settles_finishApproval_deny opts s.bridge.client now q.requestId)
      refine answersTo_eq_one inv'.answered ?_
      simp [Client.finishApproval, hp]
  · exact inv.tools.own answer.1 (List.mem_map.mpr ⟨answer, hanswer, rfl⟩)

/-! ## What the server keeps -/

/-- Approvals and their callers go with the execution that raised them, and an allow counts
as received only when it was decided. -/
structure StoreSpec (s : DecidedBridge) : Prop where
  live : ∀ id a, s.bridge.server.registry.approvals.entries.get? id = some a →
    ∃ b, s.bridge.server.registry.getBinding a.taskId = some b ∧ b.agentId = a.agentId ∧
      b.executionId = some a.executionId
  origins : ∀ id, (s.bridge.server.registry.approvals.origins.get? id).isSome =
    (s.bridge.server.registry.approvals.entries.get? id).isSome
  waiting : ∀ id a id' a', s.bridge.server.registry.approvals.entries.get? id = some a →
    s.bridge.server.registry.approvals.entries.get? id' = some a' → a.isOpen → a'.isOpen →
      a.executionId = a'.executionId → id = id'
  ended : ∀ b ∈ s.bridge.issued, s.bridge.server.registry.getBinding b.taskId ≠ some b →
    ∀ id a, s.bridge.server.registry.approvals.entries.get? id = some a → a.raisedBy b = false
  received : ∀ id a, s.bridge.server.registry.approvals.entries.get? id = some a →
    a.state = .received → a.decision = some .allowOnce →
      ∃ d, firstDecision s.log id a.executionId = some d ∧ d.decision = .allowOnce

theorem storeSpec_of_reachable {opts : ClientOptions} {s : DecidedBridge}
    (h : (decidedSystem opts).Reachable s) : s.StoreSpec := by
  have inv := (invariant_of_reachable h).decided
  constructor
  case live =>
      intro id a ha
      obtain ⟨b, hb⟩ := Option.isSome_iff_exists.mp (inv.live id a ha)
      exact ⟨b, Registry.liveBinding_eq_some.mp hb⟩
  case origins => exact inv.keyed
  case waiting => exact inv.waiting
  case ended =>
      intro b hb hended id a ha
      by_contra hraised
      simp only [ToolApproval.raisedBy, Bool.not_eq_false, decide_eq_true_eq] at hraised
      obtain ⟨hexec, htask⟩ := hraised
      obtain ⟨b', hb'⟩ := Option.isSome_iff_exists.mp (inv.live id a ha)
      obtain ⟨hk, -, hexec'⟩ := Registry.liveBinding_eq_some.mp hb'
      obtain rfl := inv.unique b hb b' (inv.stored _ b' hk) (by simp [← hexec])
        (hexec'.trans hexec)
      exact hended (htask ▸ hk)
  case received => exact inv.received

section Witness

private def options : ClientOptions where
  hello :=
    { agentId := "agent", version := protocolVersion, token := "token"
      protocolCapabilities := some [taskReplayCapability, remoteApprovalCapability] }
  size _ := 1

private def row : ClientRow where
  id := "agent"
  clientId := "client"

private def toolTask : TaskBinding where
  ref := 0
  agentId := "agent"
  taskId := "task"
  executionId := some "execution"
  contextId := "context"

private def toolAssign : DownFrame :=
  .taskAssign "task" (some "execution") "context" ⟨.user, [], "message", none, none⟩ none none none

private def toolRequest : ApprovalRequest where
  requestId := "request"
  toolName := "shell"
  input := []
  expiresAt := ⟨"", 600003⟩
  jsonLength := 100

private def initial : DecidedBridge :=
  { bridge := { server := { registry := { disconnectGraceMs := 30000 } } } }

/-- A tool asks, the owner allows it, and the answer comes back. -/
private def allowed : List BridgeAction :=
  [.client (.connect 0), .server (.connect 0), .client (.opened 0), .client (.sendHello 0),
    .up 0 0, .server (.authenticated 1 0 (some row) (.ok ())), .down 1 0,
    .server (.dispatch toolTask toolAssign), .down 2 0, .client (.askTool 3 0 2 toolRequest),
    .up 4 0, .server (.decideApproval 5 "request" .allowOnce "owner" .owner), .down 6 0, .down 6 0]

theorem approvalSpec_of_reachable_allowed :
    (allowed.foldl (apply options) initial).bridge.client.resolved = [("request", .allowOnce)] ∧
      (allowed.foldl (apply options) initial).ApprovalSpec options :=
  ⟨by decide +kernel,
    approvalSpec_of_reachable (System.Legal.reachable (by decide +kernel) (.of_init ⟨30000, rfl⟩))⟩

theorem storeSpec_of_reachable_allowed :
    ((allowed.foldl (apply options) initial).bridge.server.registry.approvals.entries.get?
      "request").isSome ∧ (allowed.foldl (apply options) initial).StoreSpec :=
  ⟨by decide +kernel,
    storeSpec_of_reachable (System.Legal.reachable (by decide +kernel) (.of_init ⟨30000, rfl⟩))⟩

/-- The daemon gives the request up before the owner has decided. -/
private def givenUp : List BridgeAction :=
  allowed.take 11 ++ [.client (.denyTool 5 "request"), .up 6 0]

theorem storeSpec_of_reachable_undecided :
    ∃ s, (decidedSystem options).Reachable s ∧ s.log = [] ∧
      ∃ a, s.bridge.server.registry.approvals.entries.get? "request" = some a ∧
        a.state = .received ∧ a.decision = some .deny ∧ a.decidedBy = none :=
  ⟨givenUp.foldl (apply options) initial,
    System.Legal.reachable (by decide +kernel) (.of_init ⟨30000, rfl⟩),
    by decide +kernel, by decide +kernel⟩

end Witness

end DecidedBridge

end VicoopBridge
