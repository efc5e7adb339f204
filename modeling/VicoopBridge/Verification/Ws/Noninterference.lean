import VicoopBridge.Verification.Ws.ServerSystem

/-! # Other agents' messages

Whatever the connections of other agents send, an agent's share of the server stays as it
is. Its terminal receipts are never written, but they sit in a table all agents share: one
can expire, or fall out when the table overflows. -/

namespace VicoopBridge

open Library

namespace Registry

variable {r r' : Registry} {now : ℕ} {ws : WsId} {b : TaskBinding}

/-! ## Terminal receipts -/

theorem clearGraceHold_receipts (r : Registry) (taskId : String) (b : Option TaskBinding) :
    (r.clearGraceHold taskId b).terminalReceipts = r.terminalReceipts := by
  unfold clearGraceHold
  repeat' split
  all_goals rfl

theorem unbindTask_receipts (r : Registry) (taskId : String) (b : TaskBinding) :
    (r.unbindTask taskId b).terminalReceipts = r.terminalReceipts := by
  unfold unbindTask
  simp only
  split
  · rfl
  · exact clearGraceHold_receipts _ _ _

theorem failTaskBinding_receipts (r : Registry) (b : TaskBinding) (code message : String) :
    (r.failTaskBinding b code message).terminalReceipts = r.terminalReceipts := by
  unfold failTaskBinding
  split
  · rfl
  · exact clearGraceHold_receipts _ _ _

theorem sendToAgent_receipts (r : Registry) (agentId : String) (frame : DownFrame) :
    (r.sendToAgent agentId frame).2.terminalReceipts = r.terminalReceipts := by
  unfold sendToAgent
  split <;> rfl

theorem acknowledge_receipts (r : Registry) (ws : WsId) (b : TaskBinding) :
    (r.acknowledge ws b).terminalReceipts = r.terminalReceipts := by
  obtain ⟨sockets, h⟩ := r.acknowledge_frame ws b
  rw [h]

/-- Recording one more receipt loses none that has not expired. -/
def HasReceiptRoom (r : Registry) (now : ℕ) : Prop :=
  (r.pruneTerminalReceipts now).terminalReceipts.size < 10000

/-- The table with the receipt of a closing binding recorded. -/
def receiptsAfter (r : Registry) (now : ℕ) (executionId : String) (receipt : TerminalReceipt) :
    InsertionMap String TerminalReceipt :=
  ((r.pruneTerminalReceipts now).terminalReceipts.set executionId receipt).trimOldest 10000

/-- What a frame of agent `B` may do to the table of receipts. -/
inductive ReceiptChange (r : Registry) (now : ℕ) (B : String) (r' : Registry) : Prop where
  | same (h : r'.terminalReceipts = r.terminalReceipts)
  | pruned (h : r'.terminalReceipts = (r.pruneTerminalReceipts now).terminalReceipts)
  | remembered (k b executionId receipt) (hk : r.bindings.get? k = some b)
      (hexec : b.executionId = some executionId) (hb : b.agentId = B) (hr : receipt.agentId = B)
      (h : r'.terminalReceipts = r.receiptsAfter now executionId receipt)

variable {B : String}

theorem rememberTerminalReceipt_change (r : Registry) (now : ℕ) (b : TaskBinding)
    (acceptedSeq : ℕ) :
    (r.rememberTerminalReceipt now b acceptedSeq).terminalReceipts = r.terminalReceipts ∨
      ∃ executionId receipt, b.executionId = some executionId ∧ receipt.agentId = b.agentId ∧
        (r.rememberTerminalReceipt now b acceptedSeq).terminalReceipts =
          r.receiptsAfter now executionId receipt := by
  unfold rememberTerminalReceipt
  cases hexec : truthy b.executionId with
  | none => exact .inl rfl
  | some executionId =>
      exact .inr ⟨executionId, _, (Option.filter_eq_some_iff.mp hexec).1, rfl, rfl⟩

theorem closeBinding_change (r : Registry) (now : ℕ) (ws : WsId) (b : TaskBinding) :
    (r.closeBinding now ws b).terminalReceipts = r.terminalReceipts ∨
      ∃ executionId receipt, b.executionId = some executionId ∧ receipt.agentId = b.agentId ∧
        (r.closeBinding now ws b).terminalReceipts = r.receiptsAfter now executionId receipt := by
  simp only [closeBinding, acknowledge_receipts, unbindTask_receipts]
  split
  · exact (r.finish b).rememberTerminalReceipt_change now b _
  · exact .inl rfl

theorem processApprovalRequest_receipts (r : Registry) (now : ℕ) (ws : WsId) (b : TaskBinding)
    (request : ApprovalRequest) :
    (r.processApprovalRequest now ws b request).terminalReceipts = r.terminalReceipts := by
  have hreject : (r.rejectApprovalRequest b).terminalReceipts = r.terminalReceipts := by
    simp only [rejectApprovalRequest, failTaskBinding_receipts, sendToAgent_receipts]
  unfold processApprovalRequest
  split
  · exact hreject
  · split
    · exact hreject
    · exact acknowledge_receipts _ ws b

theorem processApprovalReceived_receipts (r : Registry) (ws : WsId) (b : TaskBinding)
    (requestId : String) (decision : ApprovalDecision) :
    (r.processApprovalReceived ws b requestId decision).terminalReceipts = r.terminalReceipts := by
  unfold processApprovalReceived
  split <;> exact acknowledge_receipts _ ws b

/-- Only the two terminal frames record a receipt. -/
theorem processAccepted_change (r : Registry) (now : ℕ) (ws : WsId) (b : TaskBinding)
    (body : TaskFrameBody) :
    (r.processAccepted now ws b body).terminalReceipts = r.terminalReceipts ∨
      ∃ executionId receipt, b.executionId = some executionId ∧ receipt.agentId = b.agentId ∧
        (r.processAccepted now ws b body).terminalReceipts =
          r.receiptsAfter now executionId receipt := by
  cases body with
  | status status metadata =>
      refine .inl ?_
      simp only [processAccepted, processTaskStatus, acknowledge_receipts]
      split <;> rfl
  | artifact artifact append lastChunk => exact .inl (acknowledge_receipts _ ws b)
  | approvalRequest request => exact .inl (r.processApprovalRequest_receipts now ws b request)
  | approvalReceived requestId decision =>
      exact .inl (r.processApprovalReceived_receipts ws b requestId decision)
  | fail error => exact (r.pushStatus b (clientFailureEvent b error)).closeBinding_change now ws b
  | complete status usage =>
      simp only [processAccepted, processTaskComplete]
      split
      · exact ((r.modifyCell b fun c => { c with usage := usage }).pushWireStatus b status true
          none).closeBinding_change now ws b
      · exact (r.pushWireStatus b status true none).closeBinding_change now ws b

theorem FrameVerdict.receipts {frame : TaskUpFrame} {res : Option TaskFrameAcceptance}
    (h : FrameVerdict r now ws B frame res r') :
    r'.terminalReceipts = r.terminalReceipts ∨
      r'.terminalReceipts = (r.pruneTerminalReceipts now).terminalReceipts ∧
        ∀ b, res ≠ some (.binding b) := by
  have hreceipt : ∀ agentId,
      (r.acknowledgeReceipt now ws agentId frame).2.terminalReceipts = r.terminalReceipts ∨
      (r.acknowledgeReceipt now ws agentId frame).2.terminalReceipts =
        (r.pruneTerminalReceipts now).terminalReceipts := by
    intro agentId
    rcases r.acknowledgeReceipt_cases ws now agentId frame with h | h | ⟨_, _, h⟩ <;> rw [h]
    · exact .inl rfl
    · exact .inr rfl
    · exact .inr rfl
  cases h with
  | unbound res hres => exact (hreceipt _).imp id fun h => ⟨h, hres⟩
  | foreign => exact .inl rfl
  | stale res b hres => exact (hreceipt _).imp id fun h => ⟨h, hres⟩
  | broken b code message =>
      refine .inl ?_
      simp only [failExecution, sendToAgent_receipts, failTaskBinding_receipts]
  | duplicate b =>
      exact .inl (((resumeBinding_frame _ _).2.2.2).trans (acknowledge_receipts r ws b))
  | accepted b => exact .inl (resumeBinding_frame _ _).2.2.2
  | legacy => exact .inl (resumeBinding_frame _ _).2.2.2

theorem processTaskFrame_change (r : Registry) (now : ℕ) (ws : WsId) (B : String)
    (frame : TaskUpFrame) : r.ReceiptChange now B (r.processTaskFrame now ws (some B) frame) := by
  have hverdict := acceptTaskFrame_verdict r now ws B frame
  unfold processTaskFrame
  rcases hres : r.acceptTaskFrame now ws (some B) frame with ⟨res, r₁⟩
  rw [hres] at hverdict
  simp only at hverdict
  have hsame := hverdict.receipts
  rcases res with _ | b | _
  · exact hsame.elim .same fun h => .pruned h.1
  · have hkept : r₁.terminalReceipts = r.terminalReceipts :=
      hsame.resolve_right fun h => h.2 b rfl
    obtain ⟨hb, hk, -⟩ := hverdict.stored
    rcases r₁.processAccepted_change now ws b frame.body with h | ⟨e, receipt, hexec, hagent, h⟩
    · exact .same (h.trans hkept)
    · refine .remembered _ b e receipt hk hexec hb (hagent.trans hb) (h.trans ?_)
      simp only [receiptsAfter, pruneTerminalReceipts, hkept]
  · exact hsame.elim .same fun h => .pruned h.1

theorem get?_pruneTerminalReceipts (r : Registry) (now : ℕ) (e : String) :
    (r.pruneTerminalReceipts now).terminalReceipts.get? e =
      (r.terminalReceipts.get? e).filter fun receipt => receipt.expiresAt > now :=
  InsertionMap.get?_filter _ _ _

/-- Another agent's receipts are neither added nor altered. -/
theorem ReceiptChange.old {A : String} (hA : B ≠ A) (h : r.ReceiptChange now B r') {e : String}
    {receipt : TerminalReceipt} (hr : receipt.agentId = A)
    (hk : r'.terminalReceipts.get? e = some receipt) :
    r.terminalReceipts.get? e = some receipt := by
  have hpruned : (r.pruneTerminalReceipts now).terminalReceipts.get? e = some receipt →
      r.terminalReceipts.get? e = some receipt := by
    rw [get?_pruneTerminalReceipts]
    exact fun h => (Option.filter_eq_some_iff.mp h).1
  cases h with
  | same h => rwa [h] at hk
  | pruned h => exact hpruned (by rwa [h] at hk)
  | remembered k b executionId receipt' _ _ _ hr' h =>
      rw [h] at hk
      have hset := InsertionMap.get?_of_get?_trimOldest hk
      rw [InsertionMap.get?_set] at hset
      split at hset
      · obtain rfl := Option.some.inj hset
        exact absurd (hr'.symm.trans hr) hA
      · exact hpruned hset

/-- While the table has room, another agent's receipts stay until they expire. -/
theorem ReceiptChange.kept {A : String} (hconsistent : r.Consistent) (hA : B ≠ A)
    (h : r.ReceiptChange now B r') (hroom : r.HasReceiptRoom now) {e : String}
    {receipt : TerminalReceipt} (hr : receipt.agentId = A) (halive : now < receipt.expiresAt)
    (hk : r.terminalReceipts.get? e = some receipt) :
    r'.terminalReceipts.get? e = some receipt := by
  have hpruned : (r.pruneTerminalReceipts now).terminalReceipts.get? e = some receipt := by
    rw [get?_pruneTerminalReceipts, hk]
    simp [Option.filter, halive]
  cases h with
  | same h => rwa [h]
  | pruned h => rwa [h]
  | remembered k b executionId receipt' hb hexec howner _ h =>
      have hne : executionId ≠ e := by
        rintro rfl
        have hsame := hconsistent.receipt_agent executionId receipt k b hk hb hexec
        exact hA (howner.symm.trans (hsame.symm.trans hr))
      have hsize : ((r.pruneTerminalReceipts now).terminalReceipts.set executionId
          receipt').size ≤ 10000 := by
        rw [InsertionMap.size_set]
        unfold HasReceiptRoom at hroom
        split <;> omega
      rw [h, receiptsAfter, InsertionMap.trimOldest_of_size_le hsize,
        InsertionMap.get?_set_of_ne _ _ hne]
      exact hpruned

theorem unbindTask_stored {taskId : String} (hk : r.bindings.get? taskId = some b) :
    (r.unbindTask taskId b).bindings = r.bindings.erase taskId ∧
      (r.unbindTask taskId b).approvals = r.approvals.invalidate b := by
  obtain ⟨timers, graceHolds, h⟩ := clearGraceHold_frame
    { r with approvals := r.approvals.invalidate b } taskId (some b)
  simp only [unbindTask]
  rw [if_neg (not_not.mpr hk), h]
  exact ⟨rfl, rfl⟩

theorem closeBinding_execution (now : ℕ) (ws : WsId) {executionId : String} {next : ℕ}
    (hk : r.bindings.get? b.taskId = some b) (hexec : b.executionId = some executionId)
    (hne : executionId ≠ "") (hnext : (r.cells b).nextClientSeq = some next) :
    (r.closeBinding now ws b).bindings = r.bindings.erase b.taskId ∧
      (r.closeBinding now ws b).approvals = r.approvals.invalidate b ∧
      ∃ receipt, receipt.agentId = b.agentId ∧ now < receipt.expiresAt ∧
        (r.closeBinding now ws b).terminalReceipts = r.receiptsAfter now executionId receipt := by
  have hseq : ((r.finish b).cells b).nextClientSeq = some next := by
    simpa [finish, modifyCell] using hnext
  set receipt : TerminalReceipt :=
    ⟨b.agentId, b.taskId, next - 1, now + max r.disconnectGraceMs 60000⟩
  set r₁ : Registry :=
    { r.finish b with terminalReceipts := r.receiptsAfter now executionId receipt } with hr₁
  have hremember : (r.finish b).rememberTerminalReceipt now b (next - 1) = r₁ := by
    simp only [rememberTerminalReceipt, truthy, hexec, Option.filter, hne, ne_eq, not_false_eq_true,
      decide_true, if_true]
    rfl
  obtain ⟨sockets, hack⟩ := acknowledge_frame (r₁.unbindTask b.taskId b) ws b
  obtain ⟨hbindings, happrovals⟩ := unbindTask_stored (r := r₁) hk
  have hclose : r.closeBinding now ws b = { r₁.unbindTask b.taskId b with sockets := sockets } := by
    simp only [closeBinding, hexec, hseq, hremember, hack]
  rw [hclose]
  have hexpires : now < receipt.expiresAt := by
    show now < now + max r.disconnectGraceMs 60000
    omega
  exact ⟨hbindings, happrovals, receipt, rfl, hexpires, unbindTask_receipts r₁ b.taskId b⟩

/-- The completion of an execution closes its binding and leaves a receipt. -/
theorem processTaskFrame_complete (now : ℕ) (ws : WsId) {frame : TaskUpFrame}
    {executionId : String} {status : WireTaskStatus} (hk : r.bindings.get? b.taskId = some b)
    (hexec : b.executionId = some executionId) (hne : executionId ≠ "")
    (htask : frame.taskId = b.taskId) (hframe : frame.executionId = b.executionId)
    (hseq : frame.seq = some (r.expectedSeq b)) (hbody : frame.body = .complete status none) :
    (r.processTaskFrame now ws (some b.agentId) frame).bindings = r.bindings.erase b.taskId ∧
      (r.processTaskFrame now ws (some b.agentId) frame).approvals = r.approvals.invalidate b ∧
      ∃ receipt, receipt.agentId = b.agentId ∧ now < receipt.expiresAt ∧
        (r.processTaskFrame now ws (some b.agentId) frame).terminalReceipts =
          r.receiptsAfter now executionId receipt := by
  have haccept := r.acceptTaskFrame_next now ws (by rw [htask]; exact hk) (by simp [hexec]) hframe
    hseq
  obtain ⟨-, hbindings, hcells, hreceipts⟩ := resumeBinding_frame
    (r := r.modifyCell b fun c => { c with nextClientSeq := some (r.expectedSeq b + 1) })
    frame.taskId b.agentId
  have happrovals : ((r.modifyCell b fun c => { c with
      nextClientSeq := some (r.expectedSeq b + 1) }).resumeBinding frame.taskId
        b.agentId).approvals = r.approvals := by
    unfold resumeBinding
    repeat' split
    all_goals rfl
  generalize (r.modifyCell b fun c => { c with
    nextClientSeq := some (r.expectedSeq b + 1) }).resumeBinding frame.taskId b.agentId = r₁
    at haccept hbindings hcells hreceipts happrovals
  have hprocess : r.processTaskFrame now ws (some b.agentId) frame =
      (r₁.pushWireStatus b status true none).closeBinding now ws b := by
    simp [processTaskFrame, haccept, hbody, processAccepted, processTaskComplete]
  have hnext : ((r₁.pushWireStatus b status true none).cells b).nextClientSeq =
      some (r.expectedSeq b + 1) := by
    simp [pushWireStatus, pushStatus, modifyCell, hcells]
  obtain ⟨hb, ha, receipt, hagent, hexpires, hr⟩ :=
    closeBinding_execution now ws (by exact hbindings ▸ hk) hexec hne hnext
  have hpushed : (r₁.pushWireStatus b status true none).terminalReceipts = r.terminalReceipts :=
    hreceipts
  rw [hprocess]
  refine ⟨hb.trans (by exact hbindings ▸ rfl), ha.trans (by exact happrovals ▸ rfl), receipt,
    hagent, hexpires, ?_⟩
  rw [hr, receiptsAfter, pruneTerminalReceipts, hpushed]
  rfl

end Registry

/-! ## Sequences of messages -/

/-- A message on a socket and the time at which the server finds it. -/
structure Incoming where
  now : ℕ
  ws : WsId
  parsed : Except String UpFrame

namespace Server

def receive (s : Server) (m : Incoming) : Server := s.apply (.message m.now m.ws m.parsed)

def receiveAll (s : Server) (ms : List Incoming) : Server := ms.foldl receive s

/-- The message arrives on an open connection authenticated as an agent other than `A`. -/
def FromOther (s : Server) (A : String) (m : Incoming) : Prop :=
  ∃ c B, s.connections m.ws = some c ∧ c.observedCloseCode = none ∧ c.authed = true ∧
    c.agentId = some B ∧ B ≠ A

/-- None of the messages finds the table of receipts full. -/
def RoomThroughout : Server → List Incoming → Prop
  | _, [] => True
  | s, m :: ms => s.registry.HasReceiptRoom m.now ∧ RoomThroughout (s.receive m) ms

/-- What one message of another agent leaves as it was. -/
structure Unaffected (A : String) (now : ℕ) (s t : Server) : Prop where
  connections : t.connections = s.connections
  view : t.registry.view A = s.registry.view A
  usage : ∀ id, t.usagePending.get? id = some A ↔ s.usagePending.get? id = some A
  old : ∀ e receipt, receipt.agentId = A → t.registry.terminalReceipts.get? e = some receipt →
    s.registry.terminalReceipts.get? e = some receipt
  kept : s.registry.HasReceiptRoom now → ∀ e receipt, receipt.agentId = A →
    now < receipt.expiresAt → s.registry.terminalReceipts.get? e = some receipt →
    t.registry.terminalReceipts.get? e = some receipt

variable {s t : Server} {A B : String} {now : ℕ} {ws : WsId}

/-- The sockets other agents are connected through are not `A`'s. -/
theorem Invariant.notSocketOf (inv : s.Invariant) {c : Connection}
    (hc : s.connections ws = some c) (hagent : c.agentId = some B) (hB : B ≠ A) :
    s.registry.NotSocketOf ws A := by
  rintro conn hconn rfl
  obtain ⟨c', hc', ha, -⟩ := inv.registered A conn hconn
  obtain rfl := Option.some.inj (hc.symm.trans hc')
  exact hB (Option.some.inj (hagent.symm.trans ha))

theorem unaffected_rejectSocket (hws : s.registry.NotSocketOf ws A) (now code : ℕ)
    (reason : String) : Unaffected A now s (s.rejectSocket ws code reason) where
  connections := rfl
  view := by
    have hnote := Registry.view_noteServerClose hws
    have hws' : (s.registry.noteServerClose ws).NotSocketOf ws A := hws
    exact (Registry.view_modifySocket hws' (Socket.close · code reason)).trans hnote
  usage _ := Iff.rfl
  old _ _ _ h := h
  kept _ _ _ _ _ h := h

theorem unaffected_refl (s : Server) (now : ℕ) : Unaffected A now s s :=
  ⟨rfl, rfl, fun _ => Iff.rfl, fun _ _ _ h => h, fun _ _ _ _ _ h => h⟩

theorem unaffected_resolveUsageResponse (hB : B ≠ A) (now : ℕ) (frame : UsageResponseFrame) :
    Unaffected A now s (s.resolveUsageResponse B frame) := by
  unfold resolveUsageResponse
  cases hpending : s.usagePending.get? frame.requestId with
  | none => exact unaffected_refl s now
  | some agentId =>
      simp only
      split
      · exact unaffected_refl s now
      · rename_i howner
        obtain rfl := not_not.mp howner
        refine ⟨rfl, rfl, fun id => ?_, fun _ _ _ h => h, fun _ _ _ _ _ h => h⟩
        rw [InsertionMap.get?_erase]
        split
        · rename_i heq
          subst heq
          simp [hpending, hB]
        · exact Iff.rfl

theorem Invariant.unaffected_receive (inv : s.Invariant) {m : Incoming}
    (h : s.FromOther A m) : Unaffected A m.now s (s.receive m) := by
  obtain ⟨c, B, hc, -, hauthed, hagent, hB⟩ := h
  have hws := inv.notSocketOf hc hagent hB
  have hreceive : s.receive m = s.onMessage m.now m.ws c m.parsed := by
    simp [receive, apply, withConnection, hc]
  rw [hreceive]
  cases hparsed : m.parsed with
  | error complaint => exact unaffected_rejectSocket hws _ 4002 _
  | ok frame =>
      have hframe : s.onMessage m.now m.ws c (.ok frame) =
          s.processAuthedFrame m.now m.ws (some B) frame := by
        simp [Server.onMessage, hauthed, hagent]
      rw [hframe]
      cases frame with
      | hello => exact unaffected_rejectSocket hws _ 4007 _
      | pong => exact unaffected_refl s _
      | usageResponse frame =>
          simp only [Server.processAuthedFrame]
          split
          · rename_i agentId htruthy
            obtain rfl : B = agentId := Option.some.inj (Option.filter_eq_some_iff.mp htruthy).1
            exact unaffected_resolveUsageResponse hB _ frame
          · exact unaffected_refl s _
      | task frame =>
          have heffect : s.registry.FrameEffect B m.ws
              (s.registry.processTaskFrame m.now m.ws (some B) frame) :=
            Registry.effect_processTaskFrame inv.consistent m.now frame
          have hchange := s.registry.processTaskFrame_change m.now m.ws B frame
          exact
            { connections := rfl
              view := heffect.view A (Ne.symm hB) hws
              usage := fun _ => Iff.rfl
              old := fun _ _ hr => hchange.old hB hr
              kept := fun hroom _ _ hr => hchange.kept inv.consistent hB hroom hr }

theorem FromOther.enabled {m : Incoming} (h : s.FromOther A m) :
    s.enabled (.message m.now m.ws m.parsed) := by
  obtain ⟨c, -, hc, hopen, -⟩ := h
  exact ⟨c, hc, hopen⟩

/-- What a whole sequence of messages of other agents leaves as it was. -/
structure UnaffectedByAll (A : String) (ms : List Incoming) (s t : Server) : Prop where
  view : t.registry.view A = s.registry.view A
  usage : ∀ id, t.usagePending.get? id = some A ↔ s.usagePending.get? id = some A
  old : ∀ e receipt, receipt.agentId = A → t.registry.terminalReceipts.get? e = some receipt →
    s.registry.terminalReceipts.get? e = some receipt
  kept : s.RoomThroughout ms → ∀ e receipt, receipt.agentId = A →
    (∀ m ∈ ms, m.now < receipt.expiresAt) → s.registry.terminalReceipts.get? e = some receipt →
    t.registry.terminalReceipts.get? e = some receipt

theorem Invariant.unaffected_receiveAll (inv : s.Invariant) {ms : List Incoming}
    (h : ∀ m ∈ ms, s.FromOther A m) : UnaffectedByAll A ms s (s.receiveAll ms) := by
  induction ms generalizing s with
  | nil => exact ⟨rfl, fun _ => Iff.rfl, fun _ _ _ h => h, fun _ _ _ _ _ h => h⟩
  | cons m ms ih =>
      have hm : s.FromOther A m := h m (by simp)
      have hfirst := inv.unaffected_receive hm
      have inv' : (s.receive m).Invariant := inv.step ⟨hm.enabled, rfl⟩
      have hrest := ih inv' fun m' hm' => by
        have h' := h m' (by simp [hm'])
        unfold FromOther at h' ⊢
        rwa [hfirst.connections]
      refine ⟨hrest.view.trans hfirst.view, fun id => (hrest.usage id).trans (hfirst.usage id), ?_,
        ?_⟩
      · intro e receipt hr hk
        exact hfirst.old e receipt hr (hrest.old e receipt hr hk)
      · rintro ⟨hroom, hrooms⟩ e receipt hr halive hk
        refine hrest.kept hrooms e receipt hr (fun m' hm' => halive m' (by simp [hm'])) ?_
        exact hfirst.kept hroom e receipt hr (halive m (by simp)) hk

/-- Two sequences of messages of other agents are the same to `A`. -/
structure SameTo (A : String) (s : Server) (ms₁ ms₂ : List Incoming) : Prop where
  view : (s.receiveAll ms₁).registry.view A = (s.receiveAll ms₂).registry.view A
  usage : ∀ id, (s.receiveAll ms₁).usagePending.get? id = some A ↔
    (s.receiveAll ms₂).usagePending.get? id = some A
  /-- Receipts of `A` are neither added nor altered. -/
  old : ∀ ms ∈ [ms₁, ms₂], ∀ e receipt, receipt.agentId = A →
    (s.receiveAll ms).registry.terminalReceipts.get? e = some receipt →
    s.registry.terminalReceipts.get? e = some receipt
  /-- Without an overflow, those that have not expired are the same. -/
  receipts : s.RoomThroughout ms₁ → s.RoomThroughout ms₂ → ∀ e receipt, receipt.agentId = A →
    (∀ m ∈ ms₁ ++ ms₂, m.now < receipt.expiresAt) →
    ((s.receiveAll ms₁).registry.terminalReceipts.get? e = some receipt ↔
      (s.receiveAll ms₂).registry.terminalReceipts.get? e = some receipt)

section Overflow

/-! ## A full table

Two agents; the first task is the owner's, the other 10,000 are not. -/

private def SeatedAt (s : Server) (ws : WsId) (agentId : String) : Prop :=
  ∃ c, s.connections ws = some c ∧ c.observedCloseCode = none ∧ c.authed = true ∧
    c.agentId = some agentId

private def executionName (k : ℕ) : String := String.ofList (List.replicate (k + 1) 'x')

private theorem executionName_inj {j k : ℕ} (h : executionName j = executionName k) : j = k := by
  have hlength := congrArg List.length (String.ofList_injective h)
  simpa using hlength

private theorem executionName_ne_empty (k : ℕ) : executionName k ≠ "" := by
  intro h
  have hlist : String.ofList (List.replicate (k + 1) 'x') = String.ofList [] := h
  simpa using congrArg List.length (String.ofList_injective hlist)

/-- Whose turn the `k`-th task is, and the socket of that agent. -/
private def turn (k : ℕ) : String × WsId := if k = 0 then ("owner", 0) else ("other", 1)

private def nthTask (k : ℕ) : TaskBinding where
  ref := k
  agentId := (turn k).1
  taskId := "task"
  executionId := some (executionName k)
  contextId := "context"

private def completionFrame (s : Server) (k : ℕ) : TaskUpFrame where
  taskId := "task"
  executionId := some (executionName k)
  seq := some (s.registry.expectedSeq (nthTask k))
  body := .complete { state := .completed } none

private def completion (s : Server) (k : ℕ) : Incoming :=
  ⟨0, (turn k).2, .ok (.task (s.completionFrame k))⟩

/-- Both agents are connected, the first `k` tasks have come and gone, and only `bound` is
bound. -/
private structure Stage (s : Server) (k : ℕ) (bound : Option TaskBinding) : Prop where
  reachable : serverSystem.Reachable s
  seated : ∀ k, s.SeatedAt (turn k).2 (turn k).1
  bindings : ∀ t, s.registry.bindings.get? t = if t = "task" then bound else none
  approvals : ∀ id, s.registry.approvals.entries.get? id = none
  keys : s.registry.terminalReceipts.entries.map Prod.fst = (List.range k).map executionName
  alive : ∀ e receipt, s.registry.terminalReceipts.get? e = some receipt → 0 < receipt.expiresAt
  first : 0 < k → ∃ receipt, receipt.agentId = "owner" ∧
    s.registry.terminalReceipts.get? (executionName 0) = some receipt

private theorem executionName_fresh {s : Server} {k : ℕ}
    (h : s.registry.terminalReceipts.entries.map Prod.fst = (List.range k).map executionName) :
    s.registry.terminalReceipts.get? (executionName k) = none := by
  rw [InsertionMap.get?_eq_none, h]
  simp only [List.mem_map, List.mem_range, not_exists, not_and]
  intro j hj heq
  exact absurd (executionName_inj heq) (by omega)

private theorem Stage.assigned {s : Server} {k : ℕ} (h : Stage s k none) :
    Stage (s.apply (.dispatch (nthTask k) .ping)) k (some (nthTask k)) := by
  have hfresh : s.registry.FreshExecution (nthTask k) := by
    intro e he
    obtain rfl : executionName k = e := Option.some.inj he
    refine ⟨fun t b hb => ?_, fun id a ha => ?_, executionName_fresh h.keys⟩
    · simp [h.bindings t] at hb
    · simp [h.approvals id] at ha
  have hbind : s.registry.bindTask (nthTask k) =
      (true, { s.registry with bindings := s.registry.bindings.set "task" (nthTask k) }) := by
    simp [Registry.bindTask, h.bindings, nthTask]
  have hdispatch : ∃ sockets, s.apply (.dispatch (nthTask k) .ping) =
      { s with registry :=
          { s.registry with bindings := s.registry.bindings.set "task" (nthTask k)
                            sockets := sockets } } := by
    simp only [apply, dispatch, hbind, Registry.sendToAgent]
    split
    · exact ⟨_, rfl⟩
    · exact ⟨_, rfl⟩
  have hreach : serverSystem.Reachable (s.apply (.dispatch (nthTask k) .ping)) :=
    h.reachable.step (a := .dispatch (nthTask k) .ping) ⟨hfresh, rfl⟩
  obtain ⟨sockets, heq⟩ := hdispatch
  rw [heq] at hreach ⊢
  refine ⟨hreach, h.seated, fun t => ?_, h.approvals, h.keys, h.alive, h.first⟩
  simp [InsertionMap.get?_set, h.bindings t, eq_comm]

/-- The table after the completion of the `k`-th task. -/
private theorem Stage.completed {s : Server} {k : ℕ} (h : Stage s k (some (nthTask k))) :
    (s.receive (s.completion k)).connections = s.connections ∧
      (∀ t, (s.receive (s.completion k)).registry.bindings.get? t = none) ∧
      (∀ id, (s.receive (s.completion k)).registry.approvals.entries.get? id = none) ∧
      ∃ receipt, receipt.agentId = (turn k).1 ∧ 0 < receipt.expiresAt ∧
        (s.receive (s.completion k)).registry.terminalReceipts =
          s.registry.receiptsAfter 0 (executionName k) receipt := by
  obtain ⟨c, hc, -, hauthed, hagent⟩ := h.seated k
  have hk : s.registry.bindings.get? (nthTask k).taskId = some (nthTask k) := by
    simp [h.bindings, nthTask]
  have hreceive : s.receive (s.completion k) = s.modifyRegistry
      (Registry.processTaskFrame · 0 (turn k).2 (some (nthTask k).agentId)
        (s.completionFrame k)) := by
    simp [receive, completion, apply, withConnection, hc, onMessage, hauthed, hagent,
      processAuthedFrame, nthTask]
  obtain ⟨hbindings, happrovals, receipt, howner, hexpires, hreceipts⟩ :=
    Registry.processTaskFrame_complete 0 (turn k).2 hk rfl (executionName_ne_empty k)
      (show (s.completionFrame k).taskId = _ from rfl) rfl rfl rfl
  rw [hreceive]
  refine ⟨rfl, fun t => ?_, fun id => ?_, receipt, howner, hexpires, hreceipts⟩
  · simp only [modifyRegistry]
    rw [hbindings, InsertionMap.get?_erase, h.bindings]
    by_cases ht : t = "task" <;> simp [nthTask, ht, eq_comm]
  · simp only [modifyRegistry]
    rw [happrovals, ToolApprovals.get?_invalidate_entries, h.approvals]
    rfl

private theorem Stage.pruned {s : Server} {k : ℕ} (h : Stage s k (some (nthTask k))) :
    (s.registry.pruneTerminalReceipts 0).terminalReceipts = s.registry.terminalReceipts := by
  have hall : s.registry.terminalReceipts.entries.filter
      (fun e => decide (e.2.expiresAt > 0)) = s.registry.terminalReceipts.entries := by
    rw [List.filter_eq_self]
    rintro ⟨e, receipt⟩ hmem
    exact decide_eq_true (h.alive e receipt ((InsertionMap.mem_entries_iff _ e receipt).mp hmem))
  simp only [Registry.pruneTerminalReceipts, InsertionMap.filter, hall]

private theorem Stage.recorded {s : Server} {k : ℕ} (h : Stage s k (some (nthTask k)))
    (receipt : TerminalReceipt) :
    (s.registry.terminalReceipts.set (executionName k) receipt).entries.map Prod.fst =
      (List.range (k + 1)).map executionName := by
  rw [InsertionMap.entries_set_of_get?_eq_none _ _ (executionName_fresh h.keys), List.map_append,
    h.keys, List.range_succ, List.map_append]
  rfl

private theorem Stage.idle {s : Server} {k : ℕ} (h : Stage s k (some (nthTask k)))
    (hk : k < 10000) :
    Stage (s.receive (s.completion k)) (k + 1) none := by
  obtain ⟨hconnections, hbindings, happrovals, receipt, howner, hexpires, hreceipts⟩ := h.completed
  obtain ⟨c, hc, hopen, -, -⟩ := h.seated k
  have hsize : (s.registry.terminalReceipts.set (executionName k) receipt).size ≤ 10000 := by
    have hlength := congrArg List.length (h.recorded receipt)
    simp only [List.length_map, List.length_range] at hlength
    simp only [InsertionMap.size, hlength]
    omega
  rw [Registry.receiptsAfter, h.pruned, InsertionMap.trimOldest_of_size_le hsize] at hreceipts
  refine ⟨h.reachable.step (a := .message 0 (turn k).2 (.ok (.task (s.completionFrame k))))
    ⟨⟨c, hc, hopen⟩, rfl⟩, fun j => ?_, fun t => by simp [hbindings t], happrovals, ?_,
    fun e r hr => ?_, fun _ => ?_⟩
  · unfold SeatedAt
    rw [hconnections]
    exact h.seated j
  · rw [hreceipts]
    exact h.recorded receipt
  · rw [hreceipts, InsertionMap.get?_set] at hr
    split at hr
    · rwa [← Option.some.inj hr]
    · exact h.alive e r hr
  · rw [hreceipts]
    rcases Nat.eq_zero_or_pos k with rfl | hpos
    · exact ⟨receipt, howner, InsertionMap.get?_set_self _ _ _⟩
    · obtain ⟨first, hfirst, hget⟩ := h.first hpos
      refine ⟨first, hfirst, ?_⟩
      rw [InsertionMap.get?_set_of_ne _ _ fun heq => ?_]
      · exact hget
      · exact absurd (executionName_inj heq) (by omega)

/-- The receipt that overflows the table pushes the oldest out. -/
private theorem Stage.overflow {s : Server} (h : Stage s 10000 (some (nthTask 10000))) :
    (s.receive (s.completion 10000)).registry.terminalReceipts.get? (executionName 0) = none := by
  obtain ⟨-, -, -, receipt, -, -, hreceipts⟩ := h.completed
  have hrecorded := h.recorded receipt
  rw [hreceipts, Registry.receiptsAfter, h.pruned, InsertionMap.get?_eq_none]
  have hlength := congrArg List.length hrecorded
  simp only [List.length_map, List.length_range] at hlength
  simp only [InsertionMap.trimOldest, hlength, List.map_drop, hrecorded]
  rw [← List.map_drop, List.mem_map]
  rintro ⟨j, hj, heq⟩
  obtain rfl := executionName_inj heq
  rw [List.range_succ_eq_map] at hj
  simp at hj

private def pairHello (agentId : String) : HelloFrame where
  agentId := agentId
  version := protocolVersion
  token := "token"

private def join (s : Server) (ws : WsId) (agentId : String) : Server :=
  ((s.apply (.connect ws)).apply (.message 0 ws (.ok (.hello (pairHello agentId))))).apply
    (.authenticated 0 ws (some { id := agentId, clientId := agentId }) (.ok ()))

private def paired : Server :=
  (join { registry := { disconnectGraceMs := 30000 } } 0 "owner").join 1 "other"

private theorem seatedAt_of_any {s : Server} {ws : WsId} {agentId : String}
    (h : (s.connections ws).any fun c => decide (c.observedCloseCode = none ∧ c.authed = true ∧
      c.agentId = some agentId)) : s.SeatedAt ws agentId := by
  obtain ⟨c, hc, hdecide⟩ := (Option.any_eq_true _ _).mp h
  exact ⟨c, hc, of_decide_eq_true hdecide⟩

private theorem join_reachable {s : Server} (h : serverSystem.Reachable s) (ws : WsId)
    (agentId : String) (hfree : s.connections ws = none)
    (hauth : ((s.apply (.connect ws)).apply (.message 0 ws (.ok (.hello (pairHello
      agentId))))).enabled (.authenticated 0 ws (some { id := agentId, clientId := agentId })
        (.ok ()))) : serverSystem.Reachable (s.join ws agentId) := by
  have hconnect : serverSystem.Reachable (s.apply (.connect ws)) :=
    h.step (a := .connect ws) ⟨hfree, rfl⟩
  have hopen : (s.apply (.connect ws)).enabled (.message 0 ws (.ok (.hello (pairHello agentId)))) :=
    ⟨{}, setConnection_self s ws {}, rfl⟩
  exact (hconnect.step ⟨hopen, rfl⟩).step ⟨hauth, rfl⟩

private theorem authenticating_of_any {s : Server} {ws : WsId}
    (h : (s.connections ws).any fun c => c.authenticating.isSome) :
    ∃ c, s.connections ws = some c ∧ c.authenticating.isSome := by
  simpa using (Option.any_eq_true _ _).mp h

private theorem paired_idle : Stage paired 0 none where
  reachable := by
    have hstarted : serverSystem.Reachable { registry := { disconnectGraceMs := 30000 } } :=
      .of_init ⟨30000, rfl⟩
    have howner := join_reachable hstarted 0 "owner" rfl
      (authenticating_of_any (by decide +kernel))
    exact join_reachable howner 1 "other" (Option.isNone_iff_eq_none.mp (by decide +kernel))
      (authenticating_of_any (by decide +kernel))
  seated k := by
    unfold turn
    split
    · exact seatedAt_of_any (by decide +kernel)
    · exact seatedAt_of_any (by decide +kernel)
  bindings k := by
    have hempty : paired.registry.bindings.entries = [] := by decide +kernel
    simp [InsertionMap.get?_eq_none, hempty]
  approvals id := by
    have hempty : paired.registry.approvals.entries.entries = [] := by decide +kernel
    simp [InsertionMap.get?_eq_none, hempty]
  keys := by decide +kernel
  alive e receipt h := by
    have hempty : paired.registry.terminalReceipts.entries = [] := by decide +kernel
    rw [← InsertionMap.mem_entries_iff, hempty] at h
    exact absurd h (by simp)
  first h := absurd h (by simp)

private theorem idle_reached (k : ℕ) (hk : k ≤ 10000) : ∃ s, Stage s k none := by
  induction k with
  | zero => exact ⟨paired, paired_idle⟩
  | succ k ih =>
      obtain ⟨s, h⟩ := ih (by omega)
      exact ⟨_, h.assigned.idle (by omega)⟩

private theorem fromOther_of_seated {s : Server} {A agentId : String} {m : Incoming}
    (h : s.SeatedAt m.ws agentId) (hne : agentId ≠ A) : s.FromOther A m := by
  obtain ⟨c, hc, hopen, hauthed, hagent⟩ := h
  exact ⟨c, agentId, hc, hopen, hauthed, hagent, hne⟩

end Overflow

end Server

end VicoopBridge
