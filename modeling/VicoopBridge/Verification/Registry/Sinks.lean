import VicoopBridge.Verification.EventQueue
import VicoopBridge.Verification.Registry.Frame

/-! # What the registry does to the sinks

A sink hears nothing, a passing event, or one final event with its end. -/

namespace VicoopBridge

open Library

def StreamEvent.isFinal : StreamEvent → Bool
  | .status event => event.final
  | .artifact _ => false

namespace AsyncEventQueue

/-- A final event and the end behind it, in one go. -/
def strike (q : SinkQueue) (event : TaskStatusUpdateEvent) : SinkQueue :=
  (q.push (.status event)).end

/-- What a producer may do to a sink. -/
inductive Produced (q : SinkQueue) : SinkQueue → Prop where
  | same : Produced q q
  | relayed (event : StreamEvent) (hopen : event.isFinal = false) : Produced q (q.push event)
  | struck (event : TaskStatusUpdateEvent) (hfinal : event.final = true) :
      Produced q (q.strike event)

variable {q q' : SinkQueue}

@[simp] theorem strike_closed (event : TaskStatusUpdateEvent) : (q.strike event).closed = true :=
  end_closed

/-- A sink that has ended takes no notice of its producers. -/
theorem Produced.eq_of_closed (h : q.Produced q') (hclosed : q.closed = true) : q' = q := by
  cases h with
  | same => rfl
  | relayed event hopen => exact push_of_closed hclosed event
  | struck event hfinal => exact push_end_of_closed hclosed (.status event)

/-- Only a final event closes it. -/
theorem Produced.closes (h : q.Produced q') (hopen : q.closed = false) (hclosed : q'.closed = true) :
    ∃ event, event.final = true ∧ q' = q.strike event := by
  cases h with
  | same => exact absurd (hopen.symm.trans hclosed) (by simp)
  | relayed event _ =>
      rw [push_closed] at hclosed
      exact absurd (hopen.symm.trans hclosed) (by simp)
  | struck event hfinal => exact ⟨event, hfinal, rfl⟩

end AsyncEventQueue

namespace Registry

def sink (r : Registry) (b : TaskBinding) : SinkQueue := (r.cells b).queue

/-- Every sink is left alone or struck. -/
def Strikes (r r' : Registry) : Prop :=
  ∀ b, r'.sink b = r.sink b ∨ ∃ event, event.final = true ∧ r'.sink b = (r.sink b).strike event

/-- Every sink hears at most one event. -/
def Produces (r r' : Registry) : Prop := ∀ b, (r.sink b).Produced (r'.sink b)

variable {r r' r'' : Registry}

theorem Strikes.refl (r : Registry) : r.Strikes r := fun _ => .inl rfl

/-- Of two strikes only the first is felt. -/
theorem Strikes.trans (h : r.Strikes r') (h' : r'.Strikes r'') : r.Strikes r'' := by
  intro b
  rcases h' b with hsame | ⟨event', hfinal', hstruck'⟩
  · rw [hsame]
    exact h b
  · rcases h b with hsame | ⟨event, hfinal, hstruck⟩
    · exact .inr ⟨event', hfinal', hsame ▸ hstruck'⟩
    · refine .inr ⟨event, hfinal, ?_⟩
      rw [hstruck', hstruck]
      exact AsyncEventQueue.push_end_of_closed (AsyncEventQueue.strike_closed event) _

theorem strikes_of_sink (h : ∀ b, r'.sink b = r.sink b) : r.Strikes r' := fun b => .inl (h b)

theorem strikes_of_cells (h : r'.cells = r.cells) : r.Strikes r' :=
  strikes_of_sink fun b => by rw [sink, sink, h]

theorem Strikes.produces (h : r.Strikes r') : r.Produces r' := by
  intro b
  rcases h b with hsame | ⟨event, hfinal, hstruck⟩
  · rw [hsame]
    exact .same
  · rw [hstruck]
    exact .struck event hfinal

theorem Produces.of_same (h : r'.Produces r'') (hsame : ∀ b, r'.sink b = r.sink b) :
    r.Produces r'' := fun b => hsame b ▸ h b

theorem Produces.then_same (h : r.Produces r') (hsame : ∀ b, r''.sink b = r'.sink b) :
    r.Produces r'' := fun b => (hsame b).symm ▸ h b

variable (r)

/-! ## Failures -/

@[simp] theorem sendToAgent_sink (agentId : String) (frame : DownFrame) (b : TaskBinding) :
    (r.sendToAgent agentId frame).2.sink b = r.sink b := by
  simp [sink]

@[simp] theorem clearGraceHold_sink (k : String) (binding : Option TaskBinding) (b : TaskBinding) :
    (r.clearGraceHold k binding).sink b = r.sink b := by
  simp [sink]

theorem pushFinish_sink (b b' : TaskBinding) (event : TaskStatusUpdateEvent) :
    ((r.pushStatus b event).finish b).sink b' =
      if b' = b then (r.sink b').strike event else r.sink b' := by
  by_cases heq : b' = b
  · subst heq
    simp [sink, finish, pushStatus, AsyncEventQueue.strike]
  · simp only [sink, finish, pushStatus, if_neg heq]
    rw [modifyCell_cells_of_ne _ _ heq, modifyCell_cells_of_ne _ _ heq]

theorem strikes_pushFinish (b : TaskBinding) {event : TaskStatusUpdateEvent}
    (hfinal : event.final = true) : r.Strikes ((r.pushStatus b event).finish b) := by
  intro b'
  rw [pushFinish_sink]
  split
  · exact .inr ⟨event, hfinal, rfl⟩
  · exact .inl rfl

theorem strikes_respects : RespectsApprovals Strikes where
  refl := .refl
  trans h h' := h.trans h'
  hold _ _ _ _ := strikes_of_cells rfl
  invalidate _ _ := strikes_of_cells rfl
  fail r b _ := strikes_pushFinish { r with approvals := r.approvals.invalidate b } b rfl
  erase _ _ := strikes_of_cells rfl
  close _ _ _ _ := strikes_of_cells rfl
  note _ _ := strikes_of_cells rfl
  approvals _ _ := strikes_of_cells rfl
  resolve _ _ _ _ _ _ := strikes_of_cells rfl
  cancel _ _ _ _ := strikes_of_cells rfl

theorem strikes_bindTask (b : TaskBinding) : r.Strikes (r.bindTask b).2 := by
  unfold bindTask
  split
  · exact strikes_of_cells rfl
  · rename_i existing _
    simp only
    split
    · exact .refl r
    split
    · exact strikes_of_cells rfl
    · have hcleared : r.Strikes (r.clearGraceHold b.taskId (some existing)) :=
        strikes_of_sink fun b' => clearGraceHold_sink r _ _ b'
      exact hcleared.trans (strikes_respects.fail _ existing taskSupersededError)

/-! ## Connections -/

theorem strikes_unregisterAgent (now : ℕ) (agentId : String) (ws : WsId)
    (closeCode : Option ℕ) : r.Strikes (r.unregisterAgent now agentId ws closeCode) :=
  strikes_respects.unregisterAgent r (fun _ _ => strikes_of_cells rfl) now agentId ws closeCode

@[simp] theorem disconnectClient_sink (clientId : String) (b : TaskBinding) :
    (r.disconnectClient clientId).2.sink b = r.sink b :=
  List.foldlRecOn (motive := fun r' : Registry => r'.sink b = r.sink b) _ _ rfl fun _ h _ _ => h

/-! ## Approvals -/

theorem deliver_sink (a : ToolApproval) (b : TaskBinding) : (r.deliver a).sink b = r.sink b := by
  unfold deliver
  split
  · exact sendToAgent_sink r _ _ b
  · rfl

theorem decide_sink (now : ℕ) (id : String) (decision : ApprovalDecision) (principal : String)
    (via : ApprovalAuthority) (b : TaskBinding) :
    (r.decide now id decision principal via).2.sink b = r.sink b := by
  unfold decide
  repeat' split
  all_goals first | rfl | exact deliver_sink _ _ b

end Registry

end VicoopBridge
