import VicoopBridge.Verification.Bridge.System

/-! # Relations across what a daemon does

What the writes of a daemon keep is kept by everything it does, but for the runs it begins. -/

namespace VicoopBridge

open Library

namespace Client

/-- Only flags, timers and what is inflight may be different. -/
structure SameWork (c c' : Client) : Prop where
  runs : c'.runs = c.runs
  nextRun : c'.nextRun = c.nextRun
  pending : c'.pendingFrames = c.pendingFrames
  bytes : c'.pendingBytes = c.pendingBytes
  sockets : c'.sockets = c.sockets
  limit : ∀ limit ∈ c'.negotiatedMaxFrameBytes, limit ∈ c.negotiatedMaxFrameBytes
  approvals : c'.approvals = c.approvals
  resolved : c'.resolved = c.resolved

/-- The run is over, and what is retained of it is forgotten. -/
def retire (opts : ClientOptions) (c : Client) (r : RunRef) : Client :=
  match (c.runs r).executionId with
  | some executionId => (c.suppressRun r).removePendingExecution opts executionId
  | none => c.suppressRun r

/-- The run that an assignment of the task replaces is over. -/
def replaced (opts : ClientOptions) (c : Client) (taskId : String) : Client :=
  match c.inflight.get? taskId with
  | none => c
  | some previous =>
      let c := c.suppressRun previous
      match (c.runs previous).executionId with
      | some executionId => c.removePendingExecution opts executionId
      | none => c

theorem runs_modifyRun (c : Client) (r : RunRef) (f : ClientRun → ClientRun) (r' : RunRef) :
    (c.modifyRun r f).runs r' = if r' = r then f (c.runs r) else c.runs r' := by
  by_cases heq : r' = r <;> simp [modifyRun, heq]

/-- The relation is kept by what ends runs and forgets frames. -/
structure RespectsDrops (opts : ClientOptions) (R : Client → Client → Prop) : Prop where
  refl : ∀ c, R c c
  trans : ∀ {c c' c''}, R c c' → R c' c'' → R c c''
  flags : ∀ {c c' : Client}, c.SameWork c' → R c c'
  /-- No task frame is written. -/
  socket : ∀ (c : Client) ws (f : ClientSocket → ClientSocket),
    (∀ s frame, .task frame ∈ (f s).sent → .task frame ∈ s.sent) → R c (c.modifySocket ws f)
  run : ∀ (c : Client) r (aborted ended : ClientRun → Bool), R c
    (c.modifyRun r fun run => { run with aborted := aborted run, ended := ended run })
  retire : ∀ c r, R c (c.retire opts r)
  remove : ∀ c executionId, R c (c.removePendingExecution opts executionId)
  drop : ∀ c rs, R c (c.suppressAll rs).dropPendingFrames

/-- The relation is kept by whatever is written. -/
structure RespectsWrites (opts : ClientOptions) (R : Client → Client → Prop) : Prop extends
    RespectsDrops opts R where
  write : ∀ (c : Client) ws (f : ClientSocket → ClientSocket), R c (c.modifySocket ws f)

/-- The relation is kept by the frames of a run, a flush and the denial of a tool. -/
structure RespectsDenials (opts : ClientOptions) (R : Client → Client → Prop) : Prop extends
    RespectsDrops opts R where
  frame : ∀ (c : Client) now r (frame : TaskUpFrame), frame.seq = none →
    R c (c.sendTaskFrame opts now r frame)
  flush : ∀ c now ws, R c (c.flushPendingFrames opts now ws)
  deny : ∀ c now requestId, R c (c.finishApproval opts now requestId .deny)

/-- The relation takes no notice of tools. -/
structure RespectsFrames (opts : ClientOptions) (R : Client → Client → Prop) : Prop extends
    RespectsDrops opts R where
  frame : ∀ (c : Client) now r (frame : TaskUpFrame), frame.seq = none →
    R c (c.sendTaskFrame opts now r frame)
  tools : ∀ (c : Client) approvals resolved, R c { c with approvals, resolved }
  flush : ∀ c now ws, R c (c.flushPendingFrames opts now ws)

section Respects

variable {opts : ClientOptions} {R : Client → Client → Prop} (c : Client) (now : ℕ) (ws : WsId)

theorem retire_eq (r : RunRef) : c.retire opts r =
    match ((c.suppressRun r).runs r).executionId with
    | some executionId => (c.suppressRun r).removePendingExecution opts executionId
    | none => c.suppressRun r := by
  simp [retire, suppressRun, denyApprovals, modifyRun]

namespace RespectsDrops

variable (h : RespectsDrops opts R)

include h

theorem lift {R' : Client → Client → Prop} (himp : ∀ {c c'}, R c c' → R' c c')
    (htrans : ∀ {c c' c''}, R' c c' → R' c' c'' → R' c c'') : RespectsDrops opts R' where
  refl c := himp (h.refl c)
  trans := htrans
  flags hflags := himp (h.flags hflags)
  socket c ws f hf := himp (h.socket c ws f hf)
  run c r aborted ended := himp (h.run c r aborted ended)
  retire c r := himp (h.retire c r)
  remove c executionId := himp (h.remove c executionId)
  drop c rs := himp (h.drop c rs)

theorem terminate : R c (c.modifySocket ws ClientSocket.terminate) := by
  refine h.socket c ws _ fun s frame hsent => ?_
  unfold ClientSocket.terminate at hsent
  split at hsent <;> exact hsent

theorem terminateOpen : R c c.terminateOpen := by
  unfold Client.terminateOpen
  split
  · exact h.terminate c _
  · exact h.refl c

theorem write {frame : UpFrame} (hframe : ∀ task, frame ≠ .task task) :
    R c (c.modifySocket ws (ClientSocket.send · frame)) := by
  refine h.socket c ws _ fun s task hsent => ?_
  unfold ClientSocket.send at hsent
  split at hsent
  · rcases List.mem_append.mp hsent with hsent | hsent
    · exact hsent
    · exact absurd (List.mem_singleton.mp hsent).symm (hframe task)
  · exact hsent

theorem send {frame : UpFrame} (hframe : ∀ task, frame ≠ .task task) : R c (c.send frame) := by
  unfold Client.send
  split
  · exact h.write c _ hframe
  · exact h.refl c

theorem failReliableRun (r : RunRef) (disconnect : Bool) :
    R c (c.failReliableRun opts r disconnect) := by
  have hretired := h.retire c r
  rw [retire_eq] at hretired
  unfold Client.failReliableRun
  split
  · exact h.refl c
  simp only
  split
  · exact h.trans hretired (h.terminateOpen _)
  · exact hretired

theorem expireExecution (executionId : String) : R c (c.expireExecution opts executionId) := by
  unfold Client.expireExecution
  split
  · exact h.failReliableRun c _ true
  · exact h.trans (h.remove c executionId) (h.terminateOpen _)

theorem expirePendingFrames : R c (c.expirePendingFrames opts now) := by
  have hexpired (executionIds : List String) : R c
      (executionIds.foldl (fun c executionId => c.expireExecution opts executionId) c) :=
    List.foldlRecOn (motive := R c) _ _ (h.refl c)
      fun c₁ hc executionId _ => h.trans hc (h.expireExecution c₁ executionId)
  unfold Client.expirePendingFrames
  split
  · exact h.refl c
  · exact h.trans (hexpired _) (h.flags ⟨rfl, rfl, rfl, rfl, rfl, fun _ => id, rfl, rfl⟩)

theorem replaced (taskId : String) : R c (c.replaced opts taskId) := by
  unfold Client.replaced
  split
  · exact h.refl c
  · rename_i previous _
    have hretired := h.retire c previous
    rw [retire_eq] at hretired
    exact hretired

theorem stopped : R c
    ({ c with stopped := true }.suppressAll c.inflight.values).dropPendingFrames := by
  refine h.trans (h.flags ?_) (h.drop _ _)
  exact ⟨rfl, rfl, rfl, rfl, rfl, fun _ => id, rfl, rfl⟩

theorem stop : R c c.stop := by
  unfold Client.stop
  simp only
  split
  · exact h.trans (h.stopped c) (h.terminate _ _)
  · exact h.stopped c

theorem giveUp : R c c.giveUp :=
  h.trans (h.stop c) (h.flags ⟨rfl, rfl, rfl, rfl, rfl, fun _ => id, rfl, rfl⟩)

/-- The runs that are lost with the socket may be suppressed. -/
theorem onClose (code : ℕ) (hlost : ∀ c₁ : Client, c₁.runs = c.runs →
      c₁.pendingFrames = c.pendingFrames → R c₁ (c₁.suppressAll (c₁.inflight.values.filter fun r =>
        ¬ ((c₁.runs r).executionId.isSome ∧ pendingRetentionEnabled opts)))) :
    R c (c.onClose opts ws code) := by
  have hclosed : R c (c.modifySocket ws fun s => { s with readyState := .closed }) :=
    h.socket c ws _ fun _ _ => id
  have hleft : R c { c.modifySocket ws (fun s => { s with readyState := .closed }) with
      ws := none, approvalsReady := false } :=
    h.trans hclosed (h.flags ⟨rfl, rfl, rfl, rfl, rfl, fun _ => id, rfl, rfl⟩)
  have hsuppressed := h.trans hleft (hlost _ rfl rfl)
  unfold Client.onClose
  simp only
  split
  · exact hclosed
  split
  · exact h.trans (h.trans hsuppressed (h.stopped _))
      (h.flags ⟨rfl, rfl, rfl, rfl, rfl, fun _ => id, rfl, rfl⟩)
  · exact hsuppressed

end RespectsDrops

namespace RespectsWrites

variable (h : RespectsWrites opts R)

include h

theorem send (frame : UpFrame) : R c (c.send frame) := by
  unfold Client.send
  split
  · exact h.write c _ _
  · exact h.refl c

theorem sendReliableFailureAndDisconnect (frame : TaskUpFrame) :
    R c (c.sendReliableFailureAndDisconnect opts frame) := by
  unfold Client.sendReliableFailureAndDisconnect
  split
  · exact h.refl c
  · split_ifs <;> exact h.write c _ _

theorem replay (limit : Option ℕ) (entries : List PendingFrame) :
    R c (replay opts ws limit c entries) := by
  induction entries generalizing c with
  | nil => exact h.refl c
  | cons entry rest ih =>
      unfold Client.replay
      split
      · refine h.trans ?_ (h.sendReliableFailureAndDisconnect _ _)
        split
        · exact h.failReliableRun c _ false
        · exact h.remove c _
      · exact h.trans (h.write c ws _) (ih _)

theorem flushPendingFrames : R c (c.flushPendingFrames opts now ws) := by
  have hexpired := h.expirePendingFrames c now
  unfold Client.flushPendingFrames
  split
  · exact h.refl c
  · simp only
    split
    · exact hexpired
    · exact h.trans hexpired (h.replay _ ws _ _)

end RespectsWrites

namespace RespectsDenials

variable (h : RespectsDenials opts R)

include h

theorem denyRun (r : RunRef) : R c (c.denyRun opts now r) :=
  List.foldlRecOn (motive := R c) _ _ (h.refl c)
    fun c₁ hc requestId _ => h.trans hc (h.deny c₁ now requestId)

theorem abortRun (r : RunRef) : R c (c.abortRun opts now r) :=
  h.trans (h.run c r _ _) (h.denyRun _ now r)

theorem endRun (r : RunRef) : R c (c.endRun opts now r) := by
  have hdenied := h.trans (h.run c r ClientRun.aborted fun _ => true) (h.denyRun _ now r)
  unfold Client.endRun
  simp only
  split
  · exact h.trans hdenied (h.flags ⟨rfl, rfl, rfl, rfl, rfl, fun _ => id, rfl, rfl⟩)
  · exact hdenied

theorem cancelTask (taskId : String) (executionId : Option String) :
    R c (c.cancelTask opts now taskId executionId) := by
  unfold Client.cancelTask
  split
  · exact h.refl c
  rename_i r _
  split
  · exact h.abortRun c now _
  split
  · exact h.refl c
  · rename_i hexec
    have hretired := h.retire c r
    rw [Client.retire, not_not.mp hexec] at hretired
    exact hretired

theorem onHelloAck (capabilities : List String) {maxFrameBytes : ℕ}
    (hlimit : ∀ c₁ : Client, R c₁
      { c₁ with replayReady := true, negotiatedMaxFrameBytes := some maxFrameBytes }) :
    R c (c.onHelloAck opts now ws capabilities maxFrameBytes) := by
  have hset : R c { c with
      approvalsReady := capabilities.contains remoteApprovalCapability
      federatedScopeReady := capabilities.contains federatedExecutionScopeV1Capability
      callerScopeReady := [taskReplayCapability, callerContextV2Capability,
        executionScopeV1Capability, callerRuntimeV1Capability].all capabilities.contains } :=
    h.flags ⟨rfl, rfl, rfl, rfl, rfl, fun _ => id, rfl, rfl⟩
  unfold Client.onHelloAck
  simp only
  split
  · exact h.trans hset (h.giveUp _)
  split
  · exact hset
  · exact h.trans (h.trans hset (hlimit _)) (h.flush _ now ws)

theorem onTaskAssign {taskId : String} {executionId : Option String}
    (executionScope : Option JsonObject) (hrun : ∀ c₁ : Client, c₁.runs = c.runs →
      R c₁ (c₁.runTask opts taskId executionId)) :
    R c (c.onTaskAssign opts taskId executionId executionScope) := by
  unfold Client.onTaskAssign
  simp only
  split
  · exact h.giveUp c
  split
  · refine h.trans (h.flags ?_) (hrun _ rfl)
    exact ⟨rfl, rfl, rfl, rfl, rfl, fun _ => id, rfl, rfl⟩
  · exact hrun c rfl

theorem apply (a : ClientAction) (hask : ∀ now run inputBytes request,
      a = .askTool now run inputBytes request → R c (c.apply opts a))
    (hclosed : ∀ ws code, R c (c.onClose opts ws code)) : R c (c.apply opts a) := by
  cases a with
  | connect ws =>
      simp only [Client.apply, connect]
      split
      · exact h.refl c
      · exact h.flags ⟨rfl, rfl, rfl, rfl, rfl, by simp, rfl, rfl⟩
  | opened ws =>
      simp only [Client.apply, onOpen]
      refine h.socket c ws _ fun s frame hsent => ?_
      split at hsent <;> exact hsent
  | sendHello ws => exact h.write c ws (by simp)
  | emit now run body => exact h.frame c now run _ rfl
  | askTool now run inputBytes request => exact hask _ _ _ _ rfl
  | denyTool now requestId => exact h.deny c now requestId
  | endRun now run => exact h.endRun c now run
  | answerUsage frame => exact h.send c (by simp)
  | expirePending now => exact h.expirePendingFrames c now
  | sent ws =>
      simp only [Client.apply, onSent]
      split
      · exact h.terminate c ws
      · exact h.refl c
  | socketFailure ws => exact h.terminate c ws
  | closed ws code => exact hclosed ws code
  | stop => exact h.stop c

end RespectsDenials

namespace RespectsFrames

variable (h : RespectsFrames opts R)

include h

theorem finishApproval (requestId : String) (decision : ApprovalDecision) :
    R c (c.finishApproval opts now requestId decision) := by
  unfold Client.finishApproval
  split
  · exact h.refl c
  · exact h.trans (h.trans (h.tools c _ _) (h.frame _ now _ _ rfl)) (h.tools _ _ _)

theorem denials : RespectsDenials opts R where
  toRespectsDrops := h.toRespectsDrops
  frame := h.frame
  flush := h.flush
  deny c now requestId := h.finishApproval c now requestId .deny

theorem requestApproval (r : RunRef) (inputBytes : ℕ) (request : ApprovalRequest) :
    R c (c.requestApproval opts now r inputBytes request) := by
  unfold Client.requestApproval
  split
  · exact h.tools c _ _
  · exact h.trans (h.tools c _ _) (h.frame _ now r _ rfl)

theorem resolveApproval (taskId executionId requestId : String) (decision : ApprovalDecision) :
    R c (c.resolveApproval opts now taskId executionId requestId decision) := by
  unfold Client.resolveApproval
  split
  · exact h.refl c
  split
  · exact h.refl c
  · exact h.finishApproval c now requestId _

end RespectsFrames

end Respects

end Client

end VicoopBridge
