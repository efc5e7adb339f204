import VicoopBridge.Verification.Registry.Consistency

/-! # One agent's share of the registry

What belongs to an agent, as a value of its own, and the operations on other agents'
bindings that leave this value as it is. -/

namespace VicoopBridge

open Library

/-- The connection of an agent and whether the server has given it up, its tasks with
everything their callers can see, its grace holds and timers, and the approvals its tasks
wait for. -/
@[ext]
structure AgentView where
  connection : Option ClientConnection
  socket : Option Socket
  condemned : Option Bool
  bindings : String → Option TaskBinding
  cells : TaskBinding → Option BindingCell
  graceHolds : String → Option GraceHold
  timers : List GraceTimer
  approvals : String → Option (ToolApproval × Option ℕ × Option ApprovalOrigin)

namespace ToolApprovals

/-- The approval kept under an id with its timer and origin, if it is the agent's. -/
def ofAgent (t : ToolApprovals) (agentId id : String) :
    Option (ToolApproval × Option ℕ × Option ApprovalOrigin) :=
  match t.entries.get? id with
  | some a => if a.agentId = agentId then some (a, t.timers.get? id, t.origins.get? id) else none
  | none => none

variable (t : ToolApprovals) {A : String} (b : TaskBinding)

theorem ofAgent_invalidate
    (h : ∀ id a, t.entries.get? id = some a → a.raisedBy b = true → a.agentId ≠ A) (id : String) :
    (t.invalidate b).ofAgent A id = t.ofAgent A id := by
  cases hk : t.entries.get? id with
  | none =>
      have hinv : (t.invalidate b).entries.get? id = none := by
        simp [get?_invalidate_entries, hk]
      simp [ofAgent, hk, hinv]
  | some a =>
      by_cases hraised : a.raisedBy b = true
      · have hother := h id a hk hraised
        have hinv : (t.invalidate b).entries.get? id = none := by
          simp [get?_invalidate_entries, hk, invalidated, hraised]
        simp [ofAgent, hk, hinv, hother]
      · have hkeep := invalidated_eq_false t b hk (by simpa using hraised)
        have hentry : (t.invalidate b).entries.get? id = some a := by
          simp [get?_invalidate_entries, hk, hkeep]
        have htimer : (t.invalidate b).timers.get? id = t.timers.get? id := by
          simp only [invalidate, InsertionMap.get?_filter, hkeep]
          cases t.timers.get? id <;> rfl
        have horigin : (t.invalidate b).origins.get? id = t.origins.get? id := by
          simp only [invalidate, InsertionMap.get?_filter, hkeep]
          cases t.origins.get? id <;> rfl
        simp [ofAgent, hk, hentry, htimer, horigin]

/-- Writing below an id that was not the agent's, for another agent. -/
theorem ofAgent_write {t' : ToolApprovals} (id : String) (hold : t.ofAgent A id = none)
    (hnew : t'.ofAgent A id = none)
    (hentries : ∀ id', id' ≠ id → t'.entries.get? id' = t.entries.get? id')
    (htimers : ∀ id', id' ≠ id → t'.timers.get? id' = t.timers.get? id')
    (horigins : ∀ id', id' ≠ id → t'.origins.get? id' = t.origins.get? id') (id' : String) :
    t'.ofAgent A id' = t.ofAgent A id' := by
  by_cases h : id' = id
  · subst h
    rw [hold, hnew]
  · simp [ofAgent, hentries id' h, htimers id' h, horigins id' h]

theorem ofAgent_request {b : TaskBinding} (hb : b.agentId ≠ A) {now : ℕ}
    {request : ApprovalRequest} {a : ToolApproval} {t' : ToolApprovals}
    (h : t.request now b request = .ok (a, t')) (id : String) :
    t'.ofAgent A id = t.ofAgent A id := by
  obtain ⟨hfree, -, hagent, -, origin, rfl⟩ := request_cases t b h
  have hother : a.agentId ≠ A := hagent ▸ hb
  exact ofAgent_write t request.requestId (by simp [ofAgent, hfree]) (by simp [ofAgent, hother])
    (fun _ hne => InsertionMap.get?_set_of_ne _ _ (Ne.symm hne))
    (fun _ hne => InsertionMap.get?_set_of_ne _ _ (Ne.symm hne))
    (fun _ hne => InsertionMap.get?_set_of_ne _ _ (Ne.symm hne)) id

theorem ofAgent_received {b : TaskBinding} (hb : b.agentId ≠ A) {id : String}
    {decision : ApprovalDecision} {a : ToolApproval} {t' : ToolApprovals}
    (h : t.received b id decision = some (a, t')) (id' : String) :
    t'.ofAgent A id' = t.ofAgent A id' := by
  obtain ⟨a₀, hentry, -, hagent, ha, ht'⟩ := received_cases t b h
  have hother : a₀.agentId ≠ A := hagent ▸ hb
  subst ht'
  revert id'
  apply ofAgent_write t id
  · simp [ofAgent, hentry, hother]
  · simp [ofAgent, ha, hother]
  · intro _ hne
    exact InsertionMap.get?_set_of_ne _ _ (Ne.symm hne)
  · intro _ hne
    exact InsertionMap.get?_erase_of_ne _ (Ne.symm hne)
  · intro _ _
    rfl

end ToolApprovals

namespace Registry

def view (r : Registry) (agentId : String) : AgentView where
  connection := r.getAgent agentId
  socket := (r.getAgent agentId).map fun conn => r.sockets conn.ws
  condemned := (r.getAgent agentId).map fun conn => r.serverClosed conn.ws
  bindings k := (r.bindings.get? k).filter fun b => b.agentId = agentId
  cells b := if b.agentId = agentId then some (r.cells b) else none
  graceHolds k := (r.graceHolds.get? k).filter fun hold => hold.binding.agentId = agentId
  timers := r.timers.filter fun timer => timer.binding.agentId = agentId
  approvals := r.approvals.ofAgent agentId

variable {r : Registry} {A : String}

theorem view_modifyCell {b : TaskBinding} (hb : b.agentId ≠ A) (f : BindingCell → BindingCell) :
    (r.modifyCell b f).view A = r.view A := by
  refine AgentView.ext rfl rfl rfl rfl ?_ rfl rfl rfl
  funext b'
  simp only [view]
  split
  · rename_i hA
    have hne : b' ≠ b := fun heq => hb (heq ▸ hA)
    rw [modifyCell_cells_of_ne r f hne]
  · rfl

/-- The socket is not the one the agent is connected through. -/
def NotSocketOf (r : Registry) (ws : WsId) (agentId : String) : Prop :=
  ∀ conn, r.agents.get? agentId = some conn → conn.ws ≠ ws

theorem view_modifySocket {ws : WsId} (hws : r.NotSocketOf ws A) (f : Socket → Socket) :
    (r.modifySocket ws f).view A = r.view A := by
  refine AgentView.ext rfl ?_ rfl rfl rfl rfl rfl rfl
  simp only [view, getAgent, modifySocket]
  cases hconn : r.agents.get? A with
  | none => rfl
  | some conn =>
      have hne : conn.ws ≠ ws := hws conn hconn
      simp [hne]

theorem view_noteServerClose {ws : WsId} (hws : r.NotSocketOf ws A) :
    (r.noteServerClose ws).view A = r.view A := by
  refine AgentView.ext rfl rfl ?_ rfl rfl rfl rfl rfl
  simp only [view, getAgent, noteServerClose]
  cases hconn : r.agents.get? A with
  | none => rfl
  | some conn =>
      have hne : conn.ws ≠ ws := hws conn hconn
      simp [hne]

theorem view_sendToAgent (hr : r.Consistent) {B : String} (hB : B ≠ A) (frame : DownFrame) :
    (r.sendToAgent B frame).2.view A = r.view A := by
  unfold sendToAgent
  cases hB' : r.agents.get? B with
  | none => rfl
  | some conn =>
      refine view_modifySocket (fun conn' hconn' hws => hB ?_) _
      exact (hr.agent_ws _ _ _ _ hconn' hB' hws).symm

/-- Removing the hold of another agent's binding, with its timer. -/
theorem view_removeHold (inv : r.GraceInvariant) {k : String} {hold : GraceHold}
    (hk : r.graceHolds.get? k = some hold) (hagent : hold.binding.agentId ≠ A) :
    { r.clearTimeout hold.timer with graceHolds := r.graceHolds.erase k }.view A = r.view A := by
  refine AgentView.ext rfl rfl rfl rfl rfl ?_ ?_ rfl
  · funext k'
    simp only [view]
    rw [InsertionMap.get?_erase]
    split
    · rename_i heq
      subst heq
      rw [hk]
      simp [Option.filter, hagent]
    · rfl
  · simp only [view, clearTimeout, List.filter_filter]
    apply List.filter_congr
    intro timer htimer
    by_cases hA : timer.binding.agentId = A
    · have hid : timer.id ≠ hold.timer := by
        intro heq
        obtain ⟨timer₀, hmem₀, hid₀, hbinding₀⟩ := inv.hold_armed k hold hk
        have htimer₀ : timer = timer₀ := inv.timer_eq_of_id htimer hmem₀ (heq.trans hid₀.symm)
        apply hagent
        rw [← hbinding₀, ← htimer₀, hA]
      simp [hA, hid]
    · simp [hA]

theorem view_clearGraceHold (inv : r.GraceInvariant) {b : TaskBinding} (hb : b.agentId ≠ A)
    (k : String) : (r.clearGraceHold k (some b)).view A = r.view A := by
  rcases clearGraceHold_cases r k (some b) with h | ⟨hold, hk, hsame, h⟩
  · rw [h]
  · rw [h]
    refine view_removeHold inv hk ?_
    rcases hsame with hnone | hsome
    · simp at hnone
    · rwa [← Option.some.inj hsome]

theorem view_invalidate {b : TaskBinding}
    (h : ∀ id a, r.approvals.entries.get? id = some a → a.raisedBy b = true → a.agentId ≠ A) :
    { r with approvals := r.approvals.invalidate b }.view A = r.view A :=
  AgentView.ext rfl rfl rfl rfl rfl rfl rfl (funext (r.approvals.ofAgent_invalidate b h))

theorem view_approvals {approvals : ToolApprovals}
    (h : ∀ id, approvals.ofAgent A id = r.approvals.ofAgent A id) :
    { r with approvals := approvals }.view A = r.view A :=
  AgentView.ext rfl rfl rfl rfl rfl rfl rfl (funext h)

theorem view_eraseBinding {k : String} {b : TaskBinding} (hk : r.bindings.get? k = some b)
    (hb : b.agentId ≠ A) : { r with bindings := r.bindings.erase k }.view A = r.view A := by
  refine AgentView.ext rfl rfl rfl ?_ rfl rfl rfl rfl
  funext k'
  simp only [view]
  rw [InsertionMap.get?_erase]
  split
  · rename_i heq
    subst heq
    rw [hk]
    simp [Option.filter, hb]
  · rfl

theorem Consistent.raised_not_agent (hr : r.Consistent) {k : String} {b : TaskBinding}
    (hk : r.bindings.get? k = some b) (hb : b.agentId ≠ A) (id : String) (a : ToolApproval)
    (ha : r.approvals.entries.get? id = some a) (hraised : a.raisedBy b = true) :
    a.agentId ≠ A := by
  simp only [ToolApproval.raisedBy, decide_eq_true_eq] at hraised
  rw [hr.approval_agent id a k b ha hk hraised.1.symm]
  exact hb

theorem view_failBoundTask (hr : r.Consistent) {b : TaskBinding} (error : TerminalError)
    (hk : r.bindings.get? b.taskId = some b) (hb : b.agentId ≠ A) :
    (r.failBoundTask error b).view A = r.view A := by
  have hcleared := view_clearGraceHold hr.toGraceInvariant hb b.taskId
  set r₁ := r.clearGraceHold b.taskId (some b) with hr₁
  have hr₁c : r₁.Consistent := hr.below (below_respects.clearGraceHold r _ _)
    (hr.toGraceInvariant.clearGraceHold _ _)
  have hk₁ : r₁.bindings.get? b.taskId = some b := by
    rw [hr₁, clearGraceHold_bindings]
    exact hk
  have hfailed : (r₁.failBinding b error).view A = r₁.view A := by
    have hinv := view_invalidate (hr₁c.raised_not_agent hk₁ hb)
    exact (view_modifyCell hb _).trans ((view_modifyCell hb _).trans hinv)
  have hdelete : (r₁.failBinding b error).deleteBinding b =
      { r₁.failBinding b error with bindings := r₁.bindings.erase b.taskId } := if_pos hk₁
  have herased : { r₁.failBinding b error with bindings := r₁.bindings.erase b.taskId }.view A =
      (r₁.failBinding b error).view A :=
    view_eraseBinding (r := r₁.failBinding b error) hk₁ hb
  calc (r.failBoundTask error b).view A
      = ((r₁.failBinding b error).deleteBinding b).view A := rfl
    _ = (r₁.failBinding b error).view A := by rw [hdelete, herased]
    _ = r₁.view A := hfailed
    _ = r.view A := hcleared

theorem view_failTaskBinding (hr : r.Consistent) {b : TaskBinding} (code message : String)
    (hb : b.agentId ≠ A) : (r.failTaskBinding b code message).view A = r.view A := by
  rw [failTaskBinding_eq]
  split
  · rename_i hk
    exact view_failBoundTask hr _ hk hb
  · rfl

theorem view_unbindTask (hr : r.Consistent) {taskId : String} {b : TaskBinding}
    (hk : r.bindings.get? taskId = some b) (hb : b.agentId ≠ A) :
    (r.unbindTask taskId b).view A = r.view A := by
  have hinv := view_invalidate (hr.raised_not_agent hk hb)
  unfold unbindTask
  simp only
  rw [if_neg (not_not.mpr hk)]
  set r₁ : Registry := { r with approvals := r.approvals.invalidate b }
  have inv₁ : r₁.GraceInvariant := hr.toGraceInvariant.congr rfl rfl rfl rfl
  have hcleared : (r₁.clearGraceHold taskId (some b)).view A = r₁.view A :=
    view_clearGraceHold inv₁ hb taskId
  have hk₁ : (r₁.clearGraceHold taskId (some b)).bindings.get? taskId = some b := by
    rw [clearGraceHold_bindings]
    exact hk
  exact (view_eraseBinding hk₁ hb).trans (hcleared.trans hinv)

theorem view_resumeBinding (inv : r.GraceInvariant) {B : String} (hB : B ≠ A) (taskId : String) :
    (r.resumeBinding taskId B).view A = r.view A := by
  unfold resumeBinding
  cases hk : r.graceHolds.get? taskId with
  | none => rfl
  | some hold =>
      simp only
      split
      · rfl
      split
      · rfl
      · rename_i howner _
        exact view_removeHold inv hk (by rw [not_not.mp howner]; exact hB)

end Registry

end VicoopBridge
