import VicoopBridge.Verification.Registry.GraceHolds

/-! # Grace holds over whole runs of the registry -/

namespace VicoopBridge

open Library

namespace Registry

/-! ## Runs -/

/-- A call into the registry, or an armed timer that fires. -/
inductive GraceAction where
  | registerAgent (now : ℕ) (conn : ClientConnection)
  | unregisterAgent (now : ℕ) (agentId : String) (ws : WsId) (closeCode : Option ℕ)
  | noteServerClose (ws : WsId)
  | disconnectClient (clientId : String)
  | holdBindingsForAgent (now : ℕ) (agentId : String) (error : TerminalError)
  | resumeBinding (taskId agentId : String)
  | bindTask (binding : TaskBinding)
  | unbindTask (taskId : String) (binding : TaskBinding)
  | failTaskBinding (binding : TaskBinding) (code message : String)
  | failBindingsForAgent (agentId : String) (error : TerminalError)
  | expire (timer : GraceTimer)

def GraceAction.apply (r : Registry) : GraceAction → Registry
  | registerAgent now conn =>
      match r.registerAgent now conn with
      | .ok r' => r'
      | .error _ => r
  | unregisterAgent now agentId ws closeCode => r.unregisterAgent now agentId ws closeCode
  | noteServerClose ws => r.noteServerClose ws
  | disconnectClient clientId => (r.disconnectClient clientId).2
  | holdBindingsForAgent now agentId error => r.holdBindingsForAgent now agentId error
  | resumeBinding taskId agentId => r.resumeBinding taskId agentId
  | bindTask binding => (r.bindTask binding).2
  | unbindTask taskId binding => r.unbindTask taskId binding
  | failTaskBinding binding code message => r.failTaskBinding binding code message
  | failBindingsForAgent agentId error => r.failBindingsForAgent agentId error
  | expire timer => r.expireGraceTimer timer

def GraceAction.enabled (r : Registry) : GraceAction → Prop
  | expire timer => timer ∈ r.timers
  | _ => True

/-- A new registry, and any operation in any state. -/
def graceSystem : System Registry GraceAction where
  init r := ∃ graceMs, r = { disconnectGraceMs := graceMs }
  step r a r' := a.enabled r ∧ r' = a.apply r

theorem graceInvariant_init (graceMs : ℕ) :
    ({ disconnectGraceMs := graceMs } : Registry).GraceInvariant where
  binding_key k b h := by simp at h
  hold_stored k hold h := by simp at h
  hold_armed k hold h := by simp at h
  timer_held timer h := by simp at h
  timer_fresh timer h := by simp at h
  timer_nodup := List.nodup_nil

theorem sameTasks_disconnectClient (r : Registry) (clientId : String) :
    r.SameTasks (r.disconnectClient clientId).2 := by
  refine List.foldlRecOn (motive := r.SameTasks) _ _ (.refl r) ?_
  intro r' h conn _
  exact ⟨h.bindings, h.graceHolds, h.timers, h.nextTimer, h.cells⟩

theorem graceSystem_step {r r' : Registry} {a : GraceAction} (inv : r.GraceInvariant)
    (h : graceSystem.step r a r') : r.GraceStep r' := by
  obtain ⟨henabled, rfl⟩ := h
  cases a with
  | registerAgent now conn =>
      simp only [GraceAction.apply]
      cases hreg : r.registerAgent now conn with
      | ok r' => exact inv.graceStep_registerAgent now conn hreg
      | error reason => exact inv.graceStep_refl
  | unregisterAgent now agentId ws closeCode =>
      exact inv.graceStep_unregisterAgent now agentId ws closeCode
  | noteServerClose ws =>
      exact inv.graceStep_refl.congr (.refl r) ⟨rfl, rfl, rfl, rfl, rfl⟩
  | disconnectClient clientId =>
      exact inv.graceStep_refl.congr (.refl r) (sameTasks_disconnectClient r clientId)
  | holdBindingsForAgent now agentId error =>
      exact inv.graceStep_holdBindingsForAgent now agentId error
  | resumeBinding taskId agentId => exact inv.graceStep_resumeBinding taskId agentId
  | bindTask binding => exact inv.graceStep_bindTask binding
  | unbindTask taskId binding => exact inv.graceStep_unbindTask taskId binding
  | failTaskBinding binding code message => exact inv.graceStep_failTaskBinding binding code message
  | failBindingsForAgent agentId error => exact inv.graceStep_failBindingsForAgent agentId error
  | expire timer => exact inv.graceStep_expireGraceTimer henabled

theorem graceInvariant_of_reachable {r : Registry} (h : graceSystem.Reachable r) :
    r.GraceInvariant := by
  refine h.invariant ?_ ?_
  · rintro r ⟨graceMs, rfl⟩
    exact graceInvariant_init graceMs
  · intro r a r' inv hstep
    exact (graceSystem_step inv hstep).invariant

/-! ## The contract -/

/-- What an expiring timer does: the binding it was armed for is failed and removed, and
no other binding notices. -/
structure ExpirySpec (r : Registry) (timer : GraceTimer) : Prop where
  stored : r.bindings.get? timer.binding.taskId = some timer.binding
  failed : ((r.expireGraceTimer timer).cells timer.binding).queue =
    ((r.cells timer.binding).queue.push
      (.status (failureEvent timer.binding timer.terminalError))).end
  removed : (r.expireGraceTimer timer).bindings.get? timer.binding.taskId = none
  others : ∀ k, k ≠ timer.binding.taskId →
    (r.expireGraceTimer timer).bindings.get? k = r.bindings.get? k
  cells : ∀ b, b ≠ timer.binding → (r.expireGraceTimer timer).cells b = r.cells b

/-- The promises about holds and timers in one state and about its next step. -/
structure GraceHoldSpec (r : Registry) : Prop where
  /-- A hold is about the binding object stored under its own task. -/
  hold_stored : ∀ k hold, r.graceHolds.get? k = some hold →
    hold.binding.taskId = k ∧ r.bindings.get? k = some hold.binding
  one_hold : ∀ k k' hold hold', r.graceHolds.get? k = some hold →
    r.graceHolds.get? k' = some hold' → hold.binding.taskId = hold'.binding.taskId →
    k = k' ∧ hold = hold'
  one_timer : r.timers.Nodup ∧ ∀ t ∈ r.timers, ∀ t' ∈ r.timers,
    t.binding.taskId = t'.binding.taskId → t = t'
  expiry : ∀ timer ∈ r.timers, r.ExpirySpec timer
  /-- Whatever step ended a binding, no timer for it is armed afterwards. -/
  ended : ∀ a r', graceSystem.step r a r' → ∀ b,
    r'.bindings.get? b.taskId ≠ some b ∨ r'.cells b ≠ r.cells b →
      ∀ timer ∈ r'.timers, timer.binding ≠ b
  failed : ∀ b code message, ∀ timer ∈ (r.failTaskBinding b code message).timers,
    timer.binding ≠ b
  failedForAgent : ∀ agentId error, ∀ timer ∈ (r.failBindingsForAgent agentId error).timers,
    timer.binding.agentId ≠ agentId
  unbound : ∀ b, ∀ timer ∈ (r.unbindTask b.taskId b).timers, timer.binding ≠ b
  displaced : ∀ b existing, r.bindings.get? b.taskId = some existing →
    existing.agentId = b.agentId → existing ≠ b →
      ∀ timer ∈ (r.bindTask b).2.timers, timer.binding ≠ existing
  resumed : ∀ taskId hold, r.graceHolds.get? taskId = some hold →
    ∀ timer ∈ (r.resumeBinding taskId hold.binding.agentId).timers, timer.binding ≠ hold.binding
  /-- A binding held before and after a step keeps its deadline. -/
  deadline : ∀ a r', graceSystem.step r a r' → ∀ t ∈ r.timers, ∀ t' ∈ r'.timers,
    t.binding = t'.binding → t'.deadline ≤ t.deadline

theorem GraceInvariant.expirySpec {r : Registry} (inv : r.GraceInvariant) {timer : GraceTimer}
    (h : timer ∈ r.timers) : r.ExpirySpec timer := by
  have heq := inv.expireGraceTimer_eq h
  have hstored := inv.timer_stored h
  refine ⟨hstored, ?_, ?_, ?_, ?_⟩
  · rw [heq, failBoundTask_cells_self]
  · rw [heq]
    cases hk : (r.failBoundTask timer.terminalError timer.binding).bindings.get?
        timer.binding.taskId with
    | none => rfl
    | some b =>
        have hb : some timer.binding = some b :=
          hstored.symm.trans ((ends_failBoundTask r _ _).binding _ _ hk)
        exact absurd (hk.trans hb.symm) (failBoundTask_not_stored r _ _)
  · intro k hk
    rw [heq, failBoundTask_bindings_of_ne _ _ _ hk]
  · intro b hb
    rw [heq, failBoundTask_cells_of_ne _ _ hb]

/-- A resumed binding has no hold left, hence no timer. -/
theorem GraceInvariant.resume_clears {r : Registry} (inv : r.GraceInvariant) {taskId : String}
    {hold : GraceHold} (h : r.graceHolds.get? taskId = some hold) :
    (r.resumeBinding taskId hold.binding.agentId).graceHolds.get? taskId = none := by
  have hstored := inv.hold_stored taskId hold h
  simp [resumeBinding, h, hstored]

theorem GraceInvariant.failTaskBinding_clears {r : Registry} (inv : r.GraceInvariant)
    (b : TaskBinding) (code message : String) :
    ∀ timer ∈ (r.failTaskBinding b code message).timers, timer.binding ≠ b := by
  apply (inv.graceStep_failTaskBinding b code message).invariant.no_timer_of_not_stored
  rw [failTaskBinding_eq]
  split
  · exact failBoundTask_not_stored r b _
  · assumption

theorem failLoop_not_stored (error : TerminalError) (b : TaskBinding) :
    ∀ (bs : List TaskBinding) (r : Registry), b ∈ bs →
      (bs.foldl (fun r b => r.failBoundTask error b) r).bindings.get? b.taskId ≠ some b := by
  intro bs
  induction bs with
  | nil =>
      intro r h
      simp at h
  | cons b' rest ih =>
      intro r h
      rcases List.mem_cons.mp h with rfl | hrest
      · intro hstored
        have hends : (r.failBoundTask error b).Ends
            (rest.foldl (fun r b => r.failBoundTask error b) (r.failBoundTask error b)) :=
          List.foldlRecOn (motive := (r.failBoundTask error b).Ends) _ _ (.refl _)
            fun _ h b _ => h.trans (ends_failBoundTask _ error b)
        exact failBoundTask_not_stored r b error (hends.binding _ _ hstored)
      · exact ih _ hrest

theorem GraceInvariant.failBindingsForAgent_clears {r : Registry} (inv : r.GraceInvariant)
    (agentId : String) (error : TerminalError) :
    ∀ timer ∈ (r.failBindingsForAgent agentId error).timers, timer.binding.agentId ≠ agentId := by
  intro timer htimer hagent
  have hstored := (inv.failBindingsForAgent agentId error).timer_stored htimer
  have hbefore := (ends_failBindingsForAgent r agentId error).binding _ _ hstored
  refine failLoop_not_stored error timer.binding _ r ?_ hstored
  rw [List.mem_filter, InsertionMap.mem_values_iff]
  exact ⟨⟨_, hbefore⟩, by simpa using hagent⟩

theorem GraceInvariant.unbindTask_clears {r : Registry} (inv : r.GraceInvariant)
    (b : TaskBinding) : ∀ timer ∈ (r.unbindTask b.taskId b).timers, timer.binding ≠ b := by
  apply (inv.graceStep_unbindTask b.taskId b).invariant.no_timer_of_not_stored
  unfold unbindTask
  simp only
  split
  · assumption
  · simp

theorem GraceInvariant.bindTask_clears {r : Registry} (inv : r.GraceInvariant)
    {b existing : TaskBinding} (hstored : r.bindings.get? b.taskId = some existing)
    (hagent : existing.agentId = b.agentId) (hne : existing ≠ b) :
    ∀ timer ∈ (r.bindTask b).2.timers, timer.binding ≠ existing := by
  apply (inv.graceStep_bindTask b).invariant.no_timer_of_not_stored
  rw [inv.binding_key _ _ hstored]
  simpa [bindTask, hstored, hagent, hne] using Ne.symm hne

theorem StepEffect.same_timer {r r' : Registry} (inv : r.GraceInvariant)
    (inv' : r'.GraceInvariant) (h : r.StepEffect r') {t t' : GraceTimer} (ht : t ∈ r.timers)
    (ht' : t' ∈ r'.timers) (hbinding : t.binding = t'.binding) : t' = t := by
  have hold := inv.timer_held t ht
  have hold' := inv'.timer_held t' ht'
  rw [← hbinding] at hold'
  rcases h.hold _ _ hold' with hsame | hnone
  · have hid : t'.id = t.id :=
      congrArg GraceHold.timer (Option.some.inj (hsame.symm.trans hold))
    rcases h.timer t' ht' with hmem | hnew
    · exact inv.timer_eq_of_id hmem ht hid
    · have hfresh : t.id < r.nextTimer := inv.timer_fresh t ht
      rw [hid] at hnew
      exact absurd hfresh (not_lt_of_ge hnew)
  · exact absurd (hold.symm.trans hnone) (by simp)

/-- In every state a registry can reach, its holds and timers keep the contract. -/
theorem graceHolds_sound {r : Registry} (h : graceSystem.Reachable r) : r.GraceHoldSpec := by
  have inv := graceInvariant_of_reachable h
  refine ⟨?_, ?_, ⟨?_, ?_⟩, ?_, ?_, inv.failTaskBinding_clears, inv.failBindingsForAgent_clears,
    inv.unbindTask_clears, fun _ _ => inv.bindTask_clears, ?_, ?_⟩
  · intro k hold hk
    exact ⟨inv.hold_key hk, inv.hold_stored k hold hk⟩
  · intro k k' hold hold' hk hk' htask
    rw [inv.hold_key hk, inv.hold_key hk'] at htask
    subst htask
    exact ⟨rfl, Option.some.inj (hk.symm.trans hk')⟩
  · exact List.Nodup.of_map _ inv.timer_nodup
  · intro t ht t' ht' htask
    exact inv.timer_eq_of_task ht ht' htask
  · intro timer htimer
    exact inv.expirySpec htimer
  · intro a r' hstep b hended
    have hs := graceSystem_step inv hstep
    apply hs.invariant.no_timer_of_not_stored
    rcases hended with hgone | hcell
    · exact hgone
    · exact hs.effect.cell b hcell
  · intro taskId hold hk
    have inv' := (inv.graceStep_resumeBinding taskId hold.binding.agentId).invariant
    apply inv'.no_timer_of_no_hold
    rw [inv.hold_key hk]
    exact inv.resume_clears hk
  · intro a r' hstep t ht t' ht' hbinding
    have hs := graceSystem_step inv hstep
    rw [hs.effect.same_timer inv hs.invariant ht ht' hbinding]

section Witness

private def droppedBinding : TaskBinding where
  ref := 0
  agentId := "agent"
  taskId := "task"
  executionId := some "execution"
  contextId := "context"

private def droppedClient : ClientConnection where
  agentId := "agent"
  clientId := "client"
  protocolCapabilities := some [taskReplayCapability]
  ws := 0

/-- A bound task whose agent dropped abnormally. -/
private def droppedRegistry : Registry :=
  let r : Registry := { disconnectGraceMs := 30000 }
  let r := GraceAction.apply r (.registerAgent 0 droppedClient)
  let r := GraceAction.apply r (.bindTask droppedBinding)
  GraceAction.apply r (.unregisterAgent 5 "agent" 0 (some 1006))

private theorem droppedRegistry_reachable : graceSystem.Reachable droppedRegistry := by
  refine System.Reachable.step (System.Reachable.step (System.Reachable.step
    (System.Reachable.of_init ⟨30000, rfl⟩) (a := .registerAgent 0 droppedClient) ⟨trivial, rfl⟩)
    (a := .bindTask droppedBinding) ⟨trivial, rfl⟩)
    (a := .unregisterAgent 5 "agent" 0 (some 1006)) ⟨trivial, rfl⟩

theorem graceHolds_sound_dropped :
    droppedRegistry.timers = [⟨0, 30005, droppedBinding, disconnectedError⟩] ∧
      droppedRegistry.GraceHoldSpec :=
  ⟨by decide, graceHolds_sound droppedRegistry_reachable⟩

end Witness

end Registry

end VicoopBridge
