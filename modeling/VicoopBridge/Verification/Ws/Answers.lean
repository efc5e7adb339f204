import VicoopBridge.Verification.Ws.SocketProgress

/-! # Answers to reliable frames

A client keeps a reliable frame until the server acknowledges it or cancels its execution.
Which of the frames that arrive are answered is decided by what is left of the execution:
its binding, a terminal receipt, or nothing. -/

namespace VicoopBridge

open Library

namespace Registry

/-! ## Answers -/

section Answers

variable (r : Registry) (now : ℕ) (ws : WsId) (agentId taskId executionId : String) (seq : ℕ)

/-- The last sequence number accepted from the execution the task is bound to. -/
def lastAccepted : Option ℕ :=
  (r.getBinding taskId).bind fun b =>
    match (r.cells b).nextClientSeq with
    | some (accepted + 1) => if b.executionId = some executionId then some accepted else none
    | _ => none

/-- A frame that releases what the client retains: a cumulative acknowledgement, one that
names the last contiguous frame before a gap, or a cancel of the execution. -/
def answers : DownFrame → Bool
  | .taskAck taskId' executionId' acceptedSeq =>
      taskId' = taskId && executionId' = executionId &&
        (seq ≤ acceptedSeq ||
          acceptedSeq + 1 < seq && r.lastAccepted taskId executionId = some acceptedSeq)
  | .taskCancel taskId' executionId' => taskId' = taskId && executionId' = some executionId
  | _ => false

/-- Between the two states an answer was sent on the socket. -/
def answered (r' : Registry) : Bool :=
  ((r'.sockets ws).sent.drop (r.sockets ws).sent.length).any
    (r.answers taskId executionId seq)

/-- A live receipt of the agent's execution covers the frame. -/
def receipted : Bool :=
  (r.terminalReceipts.get? executionId).any fun receipt =>
    receipt.expiresAt > now && receipt.agentId = agentId && receipt.taskId = taskId &&
      seq ≤ receipt.acceptedSeq

/-- The socket is open, and the task is still bound to the execution or a receipt of the
execution covers the frame. -/
def answerable : Bool :=
  (r.sockets ws).readyState = .opened &&
    match r.getBinding taskId with
    | some b => b.agentId = agentId &&
        (b.executionId = some executionId || r.receipted now agentId taskId executionId seq)
    | none => r.receipted now agentId taskId executionId seq

end Answers

section AnswerLemmas

variable {r r' : Registry} {now : ℕ} {ws : WsId} {agentId taskId executionId : String} {seq : ℕ}

theorem Sends.answered {frame : DownFrame} (h : r.Sends r' ws frame)
    (hanswers : r.answers taskId executionId seq frame) :
    r.answered ws taskId executionId seq r' :=
  List.any_eq_true.mpr ⟨frame, h, hanswers⟩

theorem not_answered (h : ∀ frame, ¬ r.Sends r' ws frame) :
    r.answered ws taskId executionId seq r' = false := by
  refine List.any_eq_false.mpr fun frame hsent => ?_
  exact absurd hsent (h frame)

theorem answers_cumulative {acceptedSeq : ℕ} (h : seq ≤ acceptedSeq) :
    r.answers taskId executionId seq (.taskAck taskId executionId acceptedSeq) := by
  simp [answers, h]

theorem answers_cancel : r.answers taskId executionId seq (.taskCancel taskId (some executionId)) := by
  simp [answers]

end AnswerLemmas

/-! ## Receipts -/

section Receipts

variable (r : Registry) (now : ℕ) (ws : WsId) (agentId : String) {frame : TaskUpFrame}
  {executionId : String} {seq : ℕ}

/-- What answers a frame whose execution is no longer bound. -/
theorem answered_acknowledgeReceipt (hexec : frame.executionId = some executionId)
    (hseq : frame.seq = some seq) (hopen : (r.sockets ws).readyState = .opened) :
    r.answered ws frame.taskId executionId seq
        (r.acknowledgeReceipt now ws (some agentId) frame).2 =
      r.receipted now agentId frame.taskId executionId seq := by
  have hfilter : (r.pruneTerminalReceipts now).terminalReceipts.get? executionId =
      (r.terminalReceipts.get? executionId).filter fun receipt => receipt.expiresAt > now :=
    InsertionMap.get?_filter _ _ _
  have hsilent : r.answered ws frame.taskId executionId seq (r.pruneTerminalReceipts now) = false :=
    not_answered fun _ => not_sends_of_eq rfl
  simp only [acknowledgeReceipt, hexec, hseq, getTerminalReceipt, hfilter, receipted]
  cases hk : r.terminalReceipts.get? executionId with
  | none => simpa using hsilent
  | some receipt =>
      by_cases hlive : receipt.expiresAt > now
      · by_cases hmine : receipt.agentId ≠ agentId ∨ receipt.taskId ≠ frame.taskId
        · simp only [Option.filter_some, hlive, decide_true, if_true, if_pos hmine]
          rw [hsilent]
          rcases hmine with h | h <;> simp [h]
        · simp only [Option.filter_some, hlive, decide_true, if_true, if_neg hmine]
          simp only [not_or, not_not] at hmine
          by_cases hcovered : seq > receipt.acceptedSeq
          · rw [if_pos hcovered, hsilent]
            simp [hcovered]
          · rw [if_neg hcovered]
            have hsent : r.answered ws frame.taskId executionId seq
                ((r.pruneTerminalReceipts now).modifySocket ws
                  (Socket.send · (.taskAck frame.taskId executionId receipt.acceptedSeq))) :=
              Sends.answered (Sends.before (progress_of_eq rfl rfl) (sends_send hopen))
                (answers_cumulative (by omega))
            rw [hsent]
            simp [hlive, hmine, Nat.le_of_not_gt hcovered]
      · simp [Option.filter_some, hlive, hsilent]

end Receipts

/-! ## Accepted frames -/

section Accepted

variable {r r' : Registry} (now : ℕ) {ws : WsId} {b : TaskBinding} {executionId : String} {seq : ℕ}

@[simp] theorem pushStatus_nextClientSeq (event : TaskStatusUpdateEvent) :
    ((r.pushStatus b event).cells b).nextClientSeq = (r.cells b).nextClientSeq := by
  simp [pushStatus]

@[simp] theorem pushArtifact_nextClientSeq (event : TaskArtifactUpdateEvent) :
    ((r.pushArtifact b event).cells b).nextClientSeq = (r.cells b).nextClientSeq := by
  simp [pushArtifact]

@[simp] theorem finish_nextClientSeq :
    ((r.finish b).cells b).nextClientSeq = (r.cells b).nextClientSeq := by
  simp [finish]

/-- Whatever a handler did before, its acknowledgement names the frame just accepted. -/
theorem sends_acknowledge (hopen : (r.sockets ws).readyState = .opened)
    (hexec : b.executionId = some executionId) (hsockets : r'.sockets = r.sockets)
    (hnext : (r'.cells b).nextClientSeq = some (seq + 1)) :
    r.Sends (r'.acknowledge ws b) ws (.taskAck b.taskId executionId seq) := by
  simp only [acknowledge, hexec, hnext, Nat.add_sub_cancel]
  have hopen' : (r'.sockets ws).readyState = .opened := by rwa [hsockets]
  have hsent : r'.Sends (r'.modifySocket ws
      (Socket.send · (.taskAck b.taskId executionId seq))) ws
      (.taskAck b.taskId executionId seq) := sends_send hopen'
  unfold Sends at hsent ⊢
  rwa [hsockets] at hsent

theorem sends_closeBinding (hopen : (r.sockets ws).readyState = .opened)
    (hexec : b.executionId = some executionId) (hsockets : r'.sockets = r.sockets)
    (hnext : (r'.cells b).nextClientSeq = some (seq + 1)) :
    r.Sends (r'.closeBinding now ws b) ws (.taskAck b.taskId executionId seq) := by
  have hnext' : ((r'.finish b).cells b).nextClientSeq = some (seq + 1) := by simpa using hnext
  obtain ⟨receipts, hreceipts⟩ := (r'.finish b).rememberTerminalReceipt_frame now b seq
  simp only [closeBinding, hexec, hnext', Nat.add_sub_cancel, hreceipts]
  refine sends_acknowledge hopen hexec ?_ ?_
  · rw [unbindTask_sockets]
    exact hsockets
  · rw [unbindTask_cells]
    exact hnext'

/-- The agent is connected through the socket. -/
def ConnectedBy (r : Registry) (agentId : String) (ws : WsId) : Prop :=
  ∃ conn, r.agents.get? agentId = some conn ∧ conn.ws = ws

theorem ConnectedBy.sends {agentId : String} (h : r.ConnectedBy agentId ws)
    (hopen : (r.sockets ws).readyState = .opened) (frame : DownFrame) :
    r.Sends (r.sendToAgent agentId frame).2 ws frame := by
  obtain ⟨conn, hagent, rfl⟩ := h
  exact sends_sendToAgent hagent hopen

theorem ConnectedBy.congr {agentId : String} (h : r.ConnectedBy agentId ws)
    (hagents : r'.agents = r.agents) : r'.ConnectedBy agentId ws := by
  unfold ConnectedBy
  rwa [hagents]

theorem sends_failExecution (hopen : (r.sockets ws).readyState = .opened)
    (hconnected : r.ConnectedBy b.agentId ws) (code message : String) :
    r.Sends (r.failExecution b code message) ws (.taskCancel b.taskId b.executionId) := by
  have hfailed : (r.failTaskBinding b code message).ConnectedBy b.agentId ws :=
    hconnected.congr (by simp)
  exact (hfailed.sends (by simpa using hopen) _).before (progress_respects.failTaskBinding r b code message)

theorem sends_rejectApprovalRequest (hopen : (r.sockets ws).readyState = .opened)
    (hconnected : r.ConnectedBy b.agentId ws) :
    r.Sends (r.rejectApprovalRequest b) ws (.taskCancel b.taskId b.executionId) :=
  (hconnected.sends hopen _).after (progress_respects.failTaskBinding _ _ _ _)

/-- A frame accepted from an execution is acknowledged, or its execution is cancelled. -/
theorem sends_processAccepted (hopen : (r.sockets ws).readyState = .opened)
    (hconnected : r.ConnectedBy b.agentId ws) (hexec : b.executionId = some executionId)
    (hnext : (r.cells b).nextClientSeq = some (seq + 1)) (body : TaskFrameBody) :
    r.Sends (r.processAccepted now ws b body) ws (.taskAck b.taskId executionId seq) ∨
      r.Sends (r.processAccepted now ws b body) ws (.taskCancel b.taskId b.executionId) := by
  cases body with
  | approvalRequest request =>
      simp only [processAccepted, processApprovalRequest]
      split
      · exact .inr (sends_rejectApprovalRequest hopen hconnected)
      split
      · exact .inr (sends_rejectApprovalRequest hopen hconnected)
      · exact .inl (sends_acknowledge hopen hexec (by rfl) (by simpa [pushWireStatus] using hnext))
  | approvalReceived requestId decision =>
      simp only [processAccepted, processApprovalReceived]
      split
      · exact .inl (sends_acknowledge hopen hexec rfl hnext)
      · exact .inl (sends_acknowledge hopen hexec (by rfl) (by simpa [pushWireStatus] using hnext))
  | status status metadata =>
      simp only [processAccepted, processTaskStatus]
      split
      · exact .inl (sends_acknowledge hopen hexec (by rfl) (by simpa [pushWireStatus] using hnext))
      · exact .inl (sends_acknowledge hopen hexec (by rfl) (by simpa [pushWireStatus] using hnext))
  | artifact artifact append lastChunk =>
      exact .inl (sends_acknowledge hopen hexec (by rfl) (by simpa using hnext))
  | complete status usage =>
      simp only [processAccepted, processTaskComplete]
      split
      · exact .inl (sends_closeBinding now hopen hexec (by rfl)
          (by simpa [pushWireStatus] using hnext))
      · exact .inl (sends_closeBinding now hopen hexec (by rfl)
          (by simpa [pushWireStatus] using hnext))
  | fail error =>
      exact .inl (sends_closeBinding now hopen hexec (by rfl)
        (by simpa [pushWireStatus] using hnext))

end Accepted

/-! ## Every frame -/

section Frames

variable {r : Registry} {now : ℕ} {ws : WsId} {agentId executionId : String} {frame : TaskUpFrame}
  {seq : ℕ}

theorem processTaskFrame_handled {res : Option TaskFrameAcceptance}
    (hres : ∀ b, res ≠ some (.binding b)) {r' : Registry}
    (h : r.acceptTaskFrame now ws (some agentId) frame = (res, r')) :
    r.processTaskFrame now ws (some agentId) frame = r' := by
  unfold processTaskFrame
  rw [h]
  split
  · rename_i b _ heq
    exact absurd (congrArg Prod.fst heq) (hres b)
  · rename_i heq
    exact (congrArg Prod.snd heq).symm

theorem processTaskFrame_binding {b : TaskBinding} {r' : Registry}
    (h : r.acceptTaskFrame now ws (some agentId) frame = (some (.binding b), r')) :
    r.processTaskFrame now ws (some agentId) frame = r'.processAccepted now ws b frame.body := by
  unfold processTaskFrame
  rw [h]

/-- The next frame of an execution is answered. -/
theorem answered_accepted {b : TaskBinding} (hopen : (r.sockets ws).readyState = .opened)
    (hconnected : r.ConnectedBy b.agentId ws) (hexec : b.executionId = some executionId)
    (htask : b.taskId = frame.taskId) :
    r.answered ws frame.taskId executionId (r.expectedSeq b)
      (((r.modifyCell b fun c => { c with nextClientSeq := some (r.expectedSeq b + 1) }).resumeBinding
        frame.taskId b.agentId).processAccepted now ws b frame.body) := by
  set r₁ := r.modifyCell b fun c => { c with nextClientSeq := some (r.expectedSeq b + 1) } with hr₁
  have hcell : r.Progress r₁ := progress_of_eq rfl rfl
  have hprogress := hcell.trans (progress_respects.resumeBinding r₁ frame.taskId b.agentId)
  have hframe := resumeBinding_frame (r := r₁) frame.taskId b.agentId
  have hopen' : ((r₁.resumeBinding frame.taskId b.agentId).sockets ws).readyState = .opened := by
    rw [resumeBinding_sockets]
    exact hopen
  have hnext : ((r₁.resumeBinding frame.taskId b.agentId).cells b).nextClientSeq =
      some (r.expectedSeq b + 1) := by
    rw [hframe.2.2.1, hr₁, modifyCell_cells_self]
  rcases sends_processAccepted now hopen' (hconnected.congr hframe.1) hexec hnext frame.body with
    hack | hcancel
  · rw [htask] at hack
    exact (hack.before hprogress).answered (answers_cumulative le_rfl)
  · rw [htask, hexec] at hcancel
    exact (hcancel.before hprogress).answered answers_cancel

/-- On an open socket the frame's execution decides. -/
theorem answered_of_opened (hr : r.Consistent) (hconnected : r.ConnectedBy agentId ws)
    (hexec : frame.executionId = some executionId) (hseq : frame.seq = some seq)
    (hopen : (r.sockets ws).readyState = .opened) :
    r.answered ws frame.taskId executionId seq
        (r.processTaskFrame now ws (some agentId) frame) =
      r.answerable now ws agentId frame.taskId executionId seq := by
  have hverdict := r.acceptTaskFrame_verdict now ws agentId frame
  have hreceipt := r.answered_acknowledgeReceipt now ws agentId hexec hseq hopen
  generalize haccept : r.acceptTaskFrame now ws (some agentId) frame = verdict at hverdict
  obtain ⟨res, r'⟩ := verdict
  simp only at hverdict
  cases hverdict with
  | unbound _ hres h =>
      rw [processTaskFrame_handled hres haccept, hreceipt]
      simp [answerable, hopen, h]
  | foreign b h hb =>
      rw [processTaskFrame_handled (by simp) haccept]
      rw [not_answered fun _ => not_sends_of_eq rfl]
      simp [answerable, h, hb]
  | stale _ b hres h hb hgen =>
      have hother : b.executionId ≠ some executionId := by
        rcases hgen with hne | ⟨hnone, -⟩
        · rw [← hexec]
          exact Ne.symm hne
        · simp [hnone]
      rw [processTaskFrame_handled hres haccept, hreceipt]
      simp [answerable, hopen, h, hb, hother]
  | broken b code message h hb _ hframe =>
      have hsame : b.executionId = some executionId := by
        rcases hframe with hnone | ⟨hgen, -⟩
        · simp [hexec] at hnone
        · rw [← hgen, hexec]
      have htask : b.taskId = frame.taskId := hr.binding_key _ b h
      rw [processTaskFrame_handled (by simp) haccept]
      have hsent := sends_failExecution hopen (hb ▸ hconnected) code message
      rw [hsame, htask] at hsent
      rw [hsent.answered answers_cancel]
      simp [answerable, hopen, h, hb, hsame]
  | duplicate b seq' h hb _ hgen hseq' hlt =>
      have hsame : b.executionId = some executionId := by rw [← hgen, hexec]
      have htask : b.taskId = frame.taskId := hr.binding_key _ b h
      obtain rfl : seq = seq' := Option.some.inj (hseq.symm.trans hseq')
      obtain ⟨accepted, hnext, hle⟩ : ∃ accepted,
          (r.cells b).nextClientSeq = some (accepted + 1) ∧ seq ≤ accepted := by
        unfold expectedSeq at hlt
        cases hnext : (r.cells b).nextClientSeq with
        | none => simp [hnext] at hlt
        | some next =>
            simp only [hnext, Option.getD_some] at hlt
            exact ⟨next - 1, by congr; omega, by omega⟩
      rw [processTaskFrame_handled (by simp) haccept]
      have hsent := (sends_acknowledge hopen hsame rfl hnext).after
        (progress_respects.resumeBinding _ frame.taskId agentId)
      rw [htask] at hsent
      rw [hsent.answered (answers_cumulative hle)]
      simp [answerable, hopen, h, hb, hsame]
  | accepted b h hb _ hgen hseq' =>
      have hsame : b.executionId = some executionId := by rw [← hgen, hexec]
      have htask : b.taskId = frame.taskId := hr.binding_key _ b h
      obtain rfl : seq = r.expectedSeq b := Option.some.inj (hseq.symm.trans hseq')
      subst hb
      rw [processTaskFrame_binding haccept, answered_accepted hopen hconnected hsame htask]
      simp [answerable, hopen, h, hsame]
  | legacy b _ _ _ hgen => simp [hexec] at hgen

/-- A frame is answered if and only if it is answerable. -/
theorem answered_processTaskFrame (hr : r.Consistent) (hconnected : r.ConnectedBy agentId ws)
    (hexec : frame.executionId = some executionId) (hseq : frame.seq = some seq) :
    r.answered ws frame.taskId executionId seq
        (r.processTaskFrame now ws (some agentId) frame) =
      r.answerable now ws agentId frame.taskId executionId seq := by
  by_cases hopen : (r.sockets ws).readyState = .opened
  · exact answered_of_opened hr hconnected hexec hseq hopen
  · have hprogress := r.progress_processTaskFrame now ws (some agentId) frame
    rw [not_answered fun _ => hprogress.not_sends hopen]
    simp [answerable, hopen]

end Frames

end Registry

/-! ## Over every run -/

/-- A reliable frame that arrived on its agent's replay-capable connection: whether its
execution was still known, and whether the server answered. -/
structure Arrival where
  frame : TaskUpFrame
  answerable : Bool
  answered : Bool
  deriving DecidableEq

structure AnsweringServer where
  server : Server
  arrivals : List Arrival := []

namespace AnsweringServer

/-- The agent that is reached through the socket and replays. -/
def replayAgent (s : Server) (ws : WsId) : Option String :=
  match s.connections ws with
  | some c =>
      if c.authed then
        c.agentId.filter fun agentId => (s.registry.agents.get? agentId).any fun conn =>
          conn.ws = ws && advertises conn.protocolCapabilities taskReplayCapability
      else none
  | none => none

def arrivalsOf (s t : Server) (now : ℕ) (ws : WsId) (frame : TaskUpFrame) : List Arrival :=
  match replayAgent s ws, frame.executionId, frame.seq with
  | some agentId, some executionId, some seq =>
      [{ frame := frame
         answerable := s.registry.answerable now ws agentId frame.taskId executionId seq
         answered := s.registry.answered ws frame.taskId executionId seq t.registry }]
  | _, _, _ => []

def apply (s : AnsweringServer) (a : ServerAction) : AnsweringServer where
  server := s.server.apply a
  arrivals := match a with
    | .message now ws (.ok (.task frame)) =>
        s.arrivals ++ arrivalsOf s.server (s.server.apply a) now ws frame
    | _ => s.arrivals

end AnsweringServer

def answeringSystem : System AnsweringServer ServerAction :=
  .ofApply (fun s => ∃ graceMs, s = { server := { registry := { disconnectGraceMs := graceMs } } })
    (fun s a => s.server.enabled a) AnsweringServer.apply

namespace AnsweringServer

theorem replayAgent_eq_some {s : Server} {ws : WsId} {agentId : String}
    (h : replayAgent s ws = some agentId) : s.registry.ConnectedBy agentId ws ∧
      ∃ c, s.connections ws = some c ∧ c.authed = true ∧ c.agentId = some agentId := by
  unfold replayAgent at h
  split at h
  · rename_i c hc
    split at h
    · rename_i hauthed
      obtain ⟨hagent, hany⟩ := Option.filter_eq_some_iff.mp h
      obtain ⟨conn, hconn, hreplay⟩ := Option.any_eq_true _ _ |>.mp hany
      simp only [Bool.and_eq_true, decide_eq_true_eq] at hreplay
      exact ⟨⟨conn, hconn, hreplay.1⟩, c, hc, hauthed, hagent⟩
    · simp at h
  · simp at h

/-- The step lemma: every arrival is answered exactly when it can be. -/
theorem arrivalsOf_answered {s : Server} (inv : s.Invariant) (now : ℕ) (ws : WsId)
    (frame : TaskUpFrame) (arrival : Arrival)
    (h : arrival ∈ arrivalsOf s (s.apply (.message now ws (.ok (.task frame)))) now ws frame) :
    arrival.answered = arrival.answerable := by
  unfold arrivalsOf at h
  split at h
  · rename_i agentId executionId seq hreplay hexec hseq
    obtain ⟨hconnected, c, hc, hauthed, hagent⟩ := replayAgent_eq_some hreplay
    obtain rfl := List.mem_singleton.mp h
    simp only [Server.apply, Server.withConnection, hc, Server.onMessage, hauthed, if_true,
      Server.processAuthedFrame, hagent]
    exact Registry.answered_processTaskFrame inv.consistent hconnected hexec hseq
  · simp at h

/-- In every run, the reliable frames that stay unanswered are those of an execution that
is neither bound nor covered by a receipt, and those on a closing socket. -/
theorem answered_iff_answerable {s : AnsweringServer} (h : answeringSystem.Reachable s) :
    ∀ arrival ∈ s.arrivals, arrival.answered = true ↔ arrival.answerable = true := by
  have hinv : serverSystem.Reachable s.server ∧
      ∀ arrival ∈ s.arrivals, arrival.answered = arrival.answerable := by
    refine h.invariant (I := fun s : AnsweringServer => serverSystem.Reachable s.server ∧
      ∀ arrival ∈ s.arrivals, arrival.answered = arrival.answerable) ?_ ?_
    · rintro _ ⟨graceMs, rfl⟩
      exact ⟨.of_init ⟨graceMs, rfl⟩, by simp⟩
    · rintro s a _ ⟨hreachable, hanswered⟩ ⟨henabled, rfl⟩
      refine ⟨hreachable.step ⟨henabled, rfl⟩, fun arrival harrival => ?_⟩
      simp only [apply] at harrival
      split at harrival
      · rename_i now ws frame
        rcases List.mem_append.mp harrival with hold | hnew
        · exact hanswered arrival hold
        · exact arrivalsOf_answered (Server.invariant_of_reachable hreachable) now ws frame
            arrival hnew
      · exact hanswered arrival harrival
  exact fun arrival harrival => by rw [hinv.2 arrival harrival]

section Witness

private def replayHello : HelloFrame where
  agentId := "agent"
  version := protocolVersion
  token := "token"
  protocolCapabilities := some [taskReplayCapability]

private def replayRow : ClientRow where
  id := "agent"
  clientId := "client"

private def execution : TaskBinding where
  ref := 0
  agentId := "agent"
  taskId := "task"
  executionId := some "execution"
  contextId := "context"

private def assignment : DownFrame :=
  .taskAssign "task" (some "execution") "context" ⟨.user, [], "message", none, none⟩ none none none

private def progressFrame : TaskUpFrame where
  taskId := "task"
  executionId := some "execution"
  seq := some 0
  body := .status { state := .working } none

private def start : AnsweringServer := { server := { registry := { disconnectGraceMs := 30000 } } }

private def assigned : List ServerAction :=
  [.connect 0, .message 0 0 (.ok (.hello replayHello)),
    .authenticated 1 0 (some replayRow) (.ok ()), .dispatch execution assignment]

private def timely : List ServerAction :=
  assigned ++ [.message 2 0 (.ok (.task progressFrame))]

theorem answered_iff_answerable_timely :
    (timely.foldl apply start).arrivals = [⟨progressFrame, true, true⟩] ∧
      ∀ arrival ∈ (timely.foldl apply start).arrivals,
        arrival.answered = true ↔ arrival.answerable = true :=
  ⟨by decide +kernel,
    answered_iff_answerable (System.Legal.reachable (by decide +kernel) (.of_init ⟨30000, rfl⟩))⟩

/-- The inactivity timer ends the task, and the executor unbinds it, just before its first
frame arrives. -/
private def timedOut : List ServerAction :=
  assigned ++ [.sink execution (·.end), .unbindTask "task" execution,
    .message 2 0 (.ok (.task progressFrame))]

/-- The frame of a task that timed out is never answered. -/
theorem frame_after_timeout_unanswered : ¬ ∀ s : AnsweringServer, answeringSystem.Reachable s →
    ∀ arrival ∈ s.arrivals, arrival.answered = true := by
  intro hclaim
  have hanswered := hclaim (timedOut.foldl apply start)
    (System.Legal.reachable (by decide +kernel) (.of_init ⟨30000, rfl⟩))
    ⟨progressFrame, false, false⟩ (by decide +kernel)
  simp at hanswered

end Witness

end AnsweringServer

end VicoopBridge
