import VicoopBridge.Verification.Executor.Runs
import VicoopBridge.Verification.Registry.Frame

/-! # What a run leaves behind

A run installs its binding and its controller in one synchronous step and takes both out
again on every way out of the loop, as long as nothing can throw between the two and the
assignment. -/

namespace VicoopBridge

open Library

/-- The places a run reaches with its binding installed; it has yet to clean up. -/
def Phase.holds : Phase → Bool
  | .resuming .sent | .resuming .unsent | .exitSettling .unreachable _ | .parked | .delivered _
  | .authorizing _ | .saving _ | .settling .. | .yielded | .lastYielded | .drained
  | .persisting => true
  | _ => false

theorem Phase.holds_resuming (sent : Bool) :
    (Phase.resuming (if sent then .sent else .unsent)).holds = true := by
  cases sent <;> rfl

namespace RunState

variable {x x' : RunState}

/-! ## The specification -/

/-- Nothing of this run is in the registry or among the controllers. -/
def Released (x : RunState) : Prop :=
  (∀ k b, x.registry.bindings.get? k = some b → b.ref ≠ x.bindingRef) ∧
    ∀ k, x.abortControllers.get? k ≠ some x.controller

structure CleanupSpec (x : RunState) : Prop where
  released : ∀ how, x.phase = .finished how → x.Released
  /-- Another execution's binding gives way only to an assignment that is sent. -/
  displaced : x.displaced.isSome = true → x.sent = true

/-- When the task is bound, the message can be encoded, and the agent is there or no other
execution of the task is. -/
def BindsCleanly (x : RunState) : RunAction → Prop
  | .marked true => x.phase = .marking → (x.registry.bindTask x.binding).1 = true →
      (partsToWire x.request.message.parts).isOk = true ∧
        ((x.registry.getBinding x.request.taskId).filter (· ≠ x.binding) = none ∨
          (x.registry.getAgent x.request.agentId).isSome = true)
  | _ => True

/-! ## The invariant -/

/-- What the run has installed is its own binding and its controller, under its task. -/
structure Own (x : RunState) : Prop where
  binding : ∀ k b, x.registry.bindings.get? k = some b → b.ref = x.bindingRef →
    k = x.request.taskId ∧ b = x.binding
  controller : ∀ k, x.abortControllers.get? k = some x.controller → k = x.request.taskId

structure Accounted (x : RunState) : Prop extends Own x where
  released : x.phase.holds = false → x.Released
  displaced : x.displaced.isSome = true → x.sent = true
  /-- What this exit settles is a failure, and no charge follows it. -/
  unreachable : ∀ event, x.phase = .exitSettling .unreachable event →
    event.status.state ≠ .completed

theorem Released.own (h : x.Released) : x.Own :=
  ⟨fun k b hb href => absurd href (h.1 k b hb), fun k hk => absurd hk (h.2 k)⟩

/-- The part of a run its cleanup depends on. -/
def affairs (x : RunState) : InsertionMap String TaskBinding × InsertionMap String ControllerId ×
    ℕ × ControllerId × Option TaskBinding × Bool :=
  (x.registry.bindings, x.abortControllers, x.bindingRef, x.controller, x.displaced, x.sent)

theorem Released.frame (h : x.Released) (hsame : x'.affairs = x.affairs) : x'.Released := by
  simp only [affairs, Prod.mk.injEq] at hsame
  obtain ⟨hbindings, hcontrollers, href, hcontroller, -, -⟩ := hsame
  simpa only [Released, hbindings, hcontrollers, href, hcontroller] using h

theorem Accounted.displaced_frame (h : x.Accounted) (hsame : x'.affairs = x.affairs) :
    x'.displaced.isSome = true → x'.sent = true := by
  simp only [affairs, Prod.mk.injEq] at hsame
  obtain ⟨-, -, -, -, hdisplaced, hsent⟩ := hsame
  simpa only [hdisplaced, hsent] using h.displaced

/-- A step that installs nothing, from a place where nothing is installed. -/
theorem Accounted.outside (h : x.Accounted) (hphase : x.phase.holds = false)
    (hsame : x'.affairs = x.affairs)
    (hexit : ∀ event, x'.phase ≠ .exitSettling .unreachable event) : x'.Accounted :=
  have hreleased := (h.released hphase).frame hsame
  ⟨hreleased.own, fun _ => hreleased, h.displaced_frame hsame,
    fun event hp => absurd hp (hexit event)⟩

/-- The step leaves everything installed and goes to a place that still cleans up. -/
structure Stays (x x' : RunState) : Prop where
  affairs : x'.affairs = x.affairs
  request : x'.request = x.request
  binding : x'.binding = x.binding
  phase : x'.phase.holds = true
  exit : ∀ event, x'.phase = .exitSettling .unreachable event → event.status.state ≠ .completed

theorem Accounted.inside (h : x.Accounted) (hstays : x.Stays x') : x'.Accounted := by
  have hdisplaced := h.displaced_frame hstays.affairs
  have hsame := hstays.affairs
  simp only [RunState.affairs, Prod.mk.injEq] at hsame
  obtain ⟨hbindings, hcontrollers, href, hcontroller, -, -⟩ := hsame
  refine ⟨⟨fun k b hb hbref => ?_, fun k hk => ?_⟩, fun hout => ?_, hdisplaced, hstays.exit⟩
  · rw [hstays.request, hstays.binding]
    exact h.binding k b (hbindings ▸ hb) (href ▸ hbref)
  · rw [hstays.request]
    exact h.controller k (by rw [← hcontrollers, ← hcontroller]; exact hk)
  · simp [hstays.phase] at hout

/-! ## Cleaning up -/

theorem unbindTask_get? {r : Registry} {k k' : String} {b b' : TaskBinding}
    (h : (r.unbindTask k b).bindings.get? k' = some b') :
    r.bindings.get? k' = some b' ∧ (k' = k → b' ≠ b) := by
  unfold Registry.unbindTask at h
  simp only at h
  split at h
  · rename_i hother
    refine ⟨h, ?_⟩
    rintro rfl rfl
    exact hother h
  · rw [Registry.clearGraceHold_bindings] at h
    by_cases hk : k = k'
    · subst hk
      simp at h
    · rw [InsertionMap.get?_erase_of_ne _ hk] at h
      exact ⟨h, fun heq => absurd heq.symm hk⟩

theorem deleteController_frame (x : RunState) :
    ∃ controllers, x.deleteController = { x with abortControllers := controllers } ∧
      ∀ k, controllers.get? k = some x.controller →
        x.abortControllers.get? k = some x.controller ∧ k ≠ x.request.taskId := by
  unfold deleteController
  split
  · refine ⟨_, rfl, fun k hk => ?_⟩
    by_cases heq : x.request.taskId = k
    · subst heq
      simp at hk
    · rw [InsertionMap.get?_erase_of_ne _ heq] at hk
      exact ⟨hk, fun h => heq h.symm⟩
  · rename_i hother
    refine ⟨x.abortControllers, rfl, fun k hk => ⟨hk, ?_⟩⟩
    rintro rfl
    exact hother hk

/-- Unbinding and deleting the controller takes out all there was. -/
theorem Own.clear (h : x.Own) : x.unbind.deleteController.Released := by
  obtain ⟨controllers, hframe, hdeleted⟩ := deleteController_frame x.unbind
  rw [hframe]
  refine ⟨fun k b hb href => ?_, fun k hk => ?_⟩
  · obtain ⟨hstored, hnot⟩ := unbindTask_get? hb
    obtain ⟨hkey, hown⟩ := h.binding k b hstored href
    exact hnot hkey hown
  · obtain ⟨hstored, hnot⟩ := hdeleted k hk
    exact hnot (h.controller k hstored)

theorem Accounted.cleanup (h : x.Accounted) (how : Finish) : (x.cleanup how).Accounted := by
  let y : RunState := { x with watchdog := false, phase := .finished how }
  have hown : y.Own := ⟨h.binding, h.controller⟩
  obtain ⟨controllers, hframe, -⟩ := deleteController_frame y.unbind
  have hreleased : (x.cleanup how).Released := hown.clear
  have hphase : (x.cleanup how).phase = .finished how := by
    rw [RunState.cleanup, hframe]
    rfl
  refine ⟨hreleased.own, fun _ => hreleased, ?_, fun event hp => ?_⟩
  · rw [RunState.cleanup, hframe]
    exact h.displaced
  · simp [hphase] at hp

/-! ## Inside the loop -/

theorem yieldTerminal_stays (event : TaskStatusUpdateEvent) (replaced : Option StreamEvent)
    (terminal : TaskStatusUpdateEvent) : x.Stays (x.yieldTerminal event replaced terminal) :=
  ⟨rfl, rfl, rfl, rfl, fun _ hp => by simp [yieldTerminal] at hp⟩

theorem yieldStatus_stays (event : TaskStatusUpdateEvent) : x.Stays (x.yieldStatus event) :=
  ⟨rfl, rfl, rfl, rfl, fun _ hp => by simp [yieldStatus] at hp⟩

theorem conclude_stays (event : TaskStatusUpdateEvent) (replaced : Option StreamEvent) :
    x.Stays (x.conclude event replaced) := by
  unfold conclude
  split
  · exact ⟨rfl, rfl, rfl, rfl, by simp⟩
  · exact yieldTerminal_stays event replaced event

theorem relay_stays (event : StreamEvent) : x.Stays (x.relay event) := by
  cases event with
  | artifact chunk => exact ⟨rfl, rfl, rfl, rfl, fun _ hp => by simp [relay] at hp⟩
  | status status =>
      unfold relay
      simp only
      split
      · exact conclude_stays status none
      · split
        · exact ⟨rfl, rfl, rfl, rfl, fun _ hp => by simp [yieldStatus] at hp⟩
        · exact ⟨rfl, rfl, rfl, rfl, by simp⟩

theorem process_stays (event : StreamEvent) : x.Stays (x.process event) := by
  unfold process
  simp only
  split
  · exact ⟨rfl, rfl, rfl, rfl, by simp⟩
  · have h := relay_stays (x := x.armWatchdog) event
    exact ⟨h.affairs, h.request, h.binding, h.phase, h.exit⟩

theorem finishLoop_stays : x.Stays x.finishLoop := by
  unfold finishLoop
  simp only
  split <;> exact ⟨rfl, rfl, rfl, rfl, by simp⟩

theorem Accounted.onIterate (h : x.Accounted) (q : SinkQueue)
    (result : IterateResult StreamEvent String) : ((x.setQueue q).onIterate result).Accounted := by
  cases result with
  | yielded event => exact h.inside ⟨rfl, rfl, rfl, rfl, fun _ hp => by simp [RunState.onIterate] at hp⟩
  | parked => exact h.inside ⟨rfl, rfl, rfl, rfl, fun _ hp => by simp [RunState.onIterate] at hp⟩
  | returned => exact h.inside ⟨rfl, rfl, rfl, rfl, fun _ hp => by simp [RunState.onIterate] at hp⟩
  | thrown error =>
      have hqueue : (x.setQueue q).Accounted :=
        ⟨⟨h.binding, h.controller⟩, h.released, h.displaced, h.unreachable⟩
      exact hqueue.cleanup .threw

theorem Accounted.onAuthorized (h : x.Accounted) (event : StreamEvent)
    (result : Except Unit (Option JsonObject)) : (x.onAuthorized event result).Accounted := by
  unfold RunState.onAuthorized
  split
  · exact h.cleanup .threw
  · have hrelay := relay_stays (x := { x with deliveryAuthorized := true }) event
    exact h.inside ⟨hrelay.affairs, hrelay.request, hrelay.binding, hrelay.phase, hrelay.exit⟩
  · rename_i metadata
    simp only
    have hconclude := conclude_stays
      (x := { x with registry := (x.registry.sendToAgent x.request.agentId
        (.taskCancel x.request.taskId x.executionId)).2 })
      (deliveryRefusedEvent x.request.taskId x.request.contextId metadata) (some event)
    refine h.inside ⟨hconclude.affairs.trans ?_, hconclude.request, hconclude.binding,
      hconclude.phase, hconclude.exit⟩
    simp only [affairs, Registry.sendToAgent_bindings]

/-! ## Before the loop -/

theorem Accounted.prepare (h : x.Accounted) (hphase : x.phase.holds = false) :
    x.prepare.Accounted :=
  h.outside hphase rfl fun _ hp => by simp [RunState.prepare] at hp

theorem Accounted.start (h : x.Accounted) (hphase : x.phase.holds = false) :
    x.start.Accounted := by
  unfold RunState.start
  split
  · exact h.outside hphase rfl (by simp)
  · split
    · exact h.outside hphase rfl (by simp)
    · exact h.prepare hphase

theorem Accounted.onOpened (h : x.Accounted) (hphase : x.phase.holds = false)
    (outcome : Except Unit X402GateOutcome) : (x.onOpened outcome).Accounted := by
  unfold RunState.onOpened
  split
  · exact h.outside hphase rfl (by simp)
  · exact h.outside hphase rfl (by simp)
  · exact h.outside hphase rfl fun _ hp => by simp [RunState.prepare] at hp

theorem Accounted.onRead (h : x.Accounted) (hphase : x.phase.holds = false)
    (result : Except Unit (Option Task)) : (x.onRead result).Accounted := by
  unfold RunState.onRead
  split
  · exact h.outside hphase rfl (by simp)
  · split
    · exact h.outside hphase rfl (by simp)
    · split <;> exact h.outside hphase rfl (by simp)

/-- What the synchronous part of the dispatch comes to. -/
inductive Dispatched (x : RunState) : RunState → Prop where
  | refused : Dispatched x { x with phase := .resuming (.rejected ownerMismatch) }
  | garbled (registry : Registry) (task : Task)
      (hbound : (x.registry.bindTask x.binding).1 = true)
      (hparts : (partsToWire x.request.message.parts).isOk = false) :
      Dispatched x { x with
        registry := registry
        displaced := (x.registry.getBinding x.request.taskId).filter (· ≠ x.binding)
        abortControllers := x.abortControllers.set x.request.taskId x.controller
        task := task, phase := .resuming (.rejected persistFailed) }
  | assigned (registry : Registry) (task : Task) (sent : Bool)
      (hbound : (x.registry.bindTask x.binding).1 = true)
      (hstored : registry.bindings.get? x.request.taskId = some x.binding)
      (hcell : registry.cells x.binding = x.registry.cells x.binding)
      (hold : ∀ k b, registry.bindings.get? k = some b →
        b = x.binding ∧ k = x.request.taskId ∨ x.registry.bindings.get? k = some b)
      (hsent : sent = (x.registry.getAgent x.request.agentId).isSome) :
      Dispatched x { x with
        registry := registry
        displaced := (x.registry.getBinding x.request.taskId).filter (· ≠ x.binding)
        abortControllers := x.abortControllers.set x.request.taskId x.controller
        task := task, sent := sent, phase := .resuming (if sent then .sent else .unsent) }

theorem dispatch_cases (x : RunState) : x.Dispatched x.dispatch := by
  have hbindings := @Registry.bindTask_bindings x.registry x.binding
  have hagents := Registry.bindTask_agents x.registry x.binding
  unfold dispatch
  rcases hbind : x.registry.bindTask x.binding with ⟨bound, registry⟩
  rw [hbind] at hbindings hagents
  cases bound with
  | false =>
      obtain rfl := Registry.bindTask_refused _ _ hbind
      exact .refused
  | true =>
      obtain ⟨hstored, hcell⟩ := Registry.bindTask_bound _ _ hbind
      have hbound : (x.registry.bindTask x.binding).1 = true := by rw [hbind]
      simp only
      split
      · rename_i error hparts
        exact .garbled registry _ hbound (by rw [hparts]; rfl)
      · refine .assigned _ _ _ hbound ?_ ?_ (fun k b hb => ?_) ?_
        · rw [Registry.sendToAgent_bindings]
          exact hstored
        · rw [Registry.sendToAgent_cells, hcell]
        · rw [Registry.sendToAgent_bindings] at hb
          exact (hbindings hb).imp_left fun ⟨heq, hkey, _⟩ => ⟨heq, hkey⟩
        · rw [Registry.sendToAgent_sent, Registry.getAgent, hagents]
          rfl

/-- The installing step. Whatever it installs, it also reaches a place that cleans up. -/
theorem Accounted.dispatch (h : x.Accounted) (hphase : x.phase.holds = false)
    (hclean : (x.registry.bindTask x.binding).1 = true →
      (partsToWire x.request.message.parts).isOk = true ∧
        ((x.registry.getBinding x.request.taskId).filter (· ≠ x.binding) = none ∨
          (x.registry.getAgent x.request.agentId).isSome = true)) : x.dispatch.Accounted := by
  have hreleased := h.released hphase
  have hcases := x.dispatch_cases
  generalize x.dispatch = x' at hcases ⊢
  cases hcases with
  | refused => exact h.outside hphase rfl (by simp)
  | garbled registry task hbound hparts => simp [(hclean hbound).1] at hparts
  | assigned registry task sent hbound hstored hcell hold hsent =>
      refine ⟨⟨fun k b hb href => ?_, fun k hk => ?_⟩, fun hout => ?_, fun hsome => ?_, by simp⟩
      · rcases hold k b hb with ⟨rfl, hkey⟩ | hold
        · exact ⟨hkey, rfl⟩
        · exact absurd href (hreleased.1 k b hold)
      · by_contra hkey
        have hset : (x.abortControllers.set x.request.taskId x.controller).get? k =
          some x.controller := hk
        rw [InsertionMap.get?_set_of_ne _ _ (Ne.symm hkey)] at hset
        exact hreleased.2 k hset
      · simp [Phase.holds_resuming] at hout
      · rcases (hclean hbound).2 with hnone | hagent
        · rw [hnone] at hsome
          simp at hsome
        · exact hsent.trans hagent

theorem Accounted.onMarked (h : x.Accounted) (hphase : x.phase = .marking) (ok : Bool)
    (hclean : x.BindsCleanly (.marked ok)) : (x.onMarked ok).Accounted := by
  have hout : x.phase.holds = false := by rw [hphase]; rfl
  cases ok with
  | false => exact h.outside hout rfl fun _ hp => by simp [RunState.onMarked] at hp
  | true => exact h.dispatch hout (hclean hphase)

/-! ## The exits -/

/-- The gate is asked to charge only for a completed task, and nothing else of it throws. -/
theorem settle_error {event : TaskStatusUpdateEvent} {result : Except Unit X402SettleResult}
    {error : Unit} (h : (x.settle event result).1 = .error error) :
    event.status.state = .completed := by
  unfold settle at h
  split at h
  · unfold settleTerminal at h
    split at h
    · simp at h
    · split at h
      · simp at h
      · rename_i hcompleted
        simpa using hcompleted
  · simp at h

theorem Accounted.exitYield_unreachable (h : x.Accounted) (terminal : TaskStatusUpdateEvent) :
    (x.exitYield .unreachable terminal).Accounted := by
  let history := appendHistoryMessage x.history terminal.status.message
  let y : RunState :=
    { ({ x.emit (.direct (.status terminal)) with phase := .exitYielded .unreachable } : RunState)
      with
      history := history
      task := { x.task with status := terminal.status, history := some history } }
  have hown : y.Own := ⟨h.binding, h.controller⟩
  obtain ⟨controllers, hframe, -⟩ := deleteController_frame y.unbind
  have hreleased : (x.exitYield .unreachable terminal).Released := hown.clear
  have heq : x.exitYield .unreachable terminal = y.unbind.deleteController := rfl
  refine ⟨hreleased.own, fun _ => hreleased, ?_, fun event hp => ?_⟩
  · rw [heq, hframe]
    exact h.displaced
  · rw [heq, hframe] at hp
    simp [y, unbind] at hp

theorem Accounted.exitYield (h : x.Accounted) (kind : ExitKind)
    (hkind : kind ≠ .unreachable → x.phase.holds = false) (terminal : TaskStatusUpdateEvent) :
    (x.exitYield kind terminal).Accounted := by
  cases kind with
  | unreachable => exact h.exitYield_unreachable terminal
  | rejected =>
      exact h.outside (hkind (by simp)) rfl fun _ hp => by simp [RunState.exitYield] at hp
  | interrupted stored =>
      exact h.outside (hkind (by simp)) rfl fun _ hp => by simp [RunState.exitYield] at hp

theorem Accounted.exitWith (h : x.Accounted) (kind : ExitKind) (event : TaskStatusUpdateEvent)
    (hkind : kind ≠ .unreachable → x.phase.holds = false)
    (hfailed : kind = .unreachable → event.status.state ≠ .completed) :
    (x.exitWith kind event).Accounted := by
  unfold RunState.exitWith
  split
  · cases kind with
    | unreachable =>
        refine h.inside ⟨rfl, rfl, rfl, rfl, fun event' hp => ?_⟩
        simp only [Phase.exitSettling.injEq, true_and] at hp
        exact hp ▸ hfailed rfl
    | rejected => exact h.outside (hkind (by simp)) rfl (by simp)
    | interrupted stored => exact h.outside (hkind (by simp)) rfl (by simp)
  · exact h.exitYield kind hkind event

theorem Accounted.onExitSettled (h : x.Accounted) {kind : ExitKind}
    {event : TaskStatusUpdateEvent} (hphase : x.phase = .exitSettling kind event)
    (result : Except Unit X402SettleResult) : (x.onExitSettled kind event result).Accounted := by
  have hkind : kind ≠ .unreachable → x.phase.holds = false := by
    intro hne
    rw [hphase]
    cases kind <;> first | rfl | exact absurd rfl hne
  unfold RunState.onExitSettled
  rcases hsettle : x.settle event result with ⟨terminal, calls⟩
  cases terminal with
  | error error =>
      have hcompleted : event.status.state = .completed := settle_error (by rw [hsettle])
      have hout : x.phase.holds = false := by
        refine hkind ?_
        rintro rfl
        exact h.unreachable event hphase hcompleted
      exact h.outside hout rfl (by simp)
  | ok terminal =>
      have hcalls : Accounted { x with gateCalls := x.gateCalls ++ calls } :=
        ⟨⟨h.binding, h.controller⟩, h.released, h.displaced, h.unreachable⟩
      exact hcalls.exitYield kind hkind terminal

theorem Accounted.onSettled (h : x.Accounted) (event : TaskStatusUpdateEvent)
    (replaced : Option StreamEvent) (result : Except Unit X402SettleResult) :
    (x.onSettled event replaced result).Accounted := by
  unfold RunState.onSettled
  rcases x.settle event result with ⟨terminal, calls⟩
  have hcalls : Accounted { x with gateCalls := x.gateCalls ++ calls } :=
    ⟨⟨h.binding, h.controller⟩, h.released, h.displaced, h.unreachable⟩
  cases terminal with
  | error error => exact hcalls.cleanup .threw
  | ok terminal => exact hcalls.inside (yieldTerminal_stays event replaced terminal)

theorem Accounted.onDispatched (h : x.Accounted) {outcome : DispatchOutcome}
    (hphase : x.phase = .resuming outcome) : (x.onDispatched outcome).Accounted := by
  cases outcome with
  | sent =>
      have harmed : x.armWatchdog.Accounted :=
        ⟨⟨h.binding, h.controller⟩, h.released, h.displaced, h.unreachable⟩
      exact harmed.onIterate _ _
  | unsent =>
      refine h.exitWith .unreachable _ (fun hne => absurd rfl hne) fun _ => ?_
      simp [RunState.failure, failedEvent]
  | rejected rejection =>
      have hqueue : (x.setQueue x.queue.end).Accounted :=
        ⟨⟨h.binding, h.controller⟩, h.released, h.displaced, h.unreachable⟩
      exact hqueue.exitWith .rejected _
        (fun _ => by rw [show (x.setQueue x.queue.end).phase = x.phase from rfl, hphase]; rfl)
        (by simp)
  | interrupted stored =>
      have hqueue : (x.setQueue x.queue.end).Accounted :=
        ⟨⟨h.binding, h.controller⟩, h.released, h.displaced, h.unreachable⟩
      exact hqueue.exitWith (.interrupted stored) _
        (fun _ => by rw [show (x.setQueue x.queue.end).phase = x.phase from rfl, hphase]; rfl)
        (by simp)

/-! ## All steps -/

theorem cancelCurrent_bindings {r r' : Registry} {agentId taskId contextId : String}
    (h : r.cancelCurrent agentId taskId contextId = .ok r') : r'.bindings = r.bindings := by
  unfold Registry.cancelCurrent at h
  split at h
  · obtain rfl := Except.ok.inj h
    exact Registry.sendToAgent_bindings _ _ _
  · split at h
    · simp at h
    · obtain rfl := Except.ok.inj h
      exact Registry.sendToAgent_bindings _ _ _

/-- A step of something else, or one that only touches the queue. -/
theorem Accounted.around (h : x.Accounted) {registry : Registry}
    {abortControllers : InsertionMap String ControllerId} {aborted watchdog : Bool}
    (hbindings : ∀ k b, registry.bindings.get? k = some b → b.ref = x.bindingRef →
      x.registry.bindings.get? k = some b)
    (hcontrollers : ∀ k, abortControllers.get? k = some x.controller →
      x.abortControllers.get? k = some x.controller) :
    Accounted { x with
      registry := registry, abortControllers := abortControllers, aborted := aborted
      watchdog := watchdog } where
  binding k b hb href := h.binding k b (hbindings k b hb href) href
  controller k hk := h.controller k (hcontrollers k hk)
  released hout :=
    ⟨fun k b hb href => (h.released hout).1 k b (hbindings k b hb href) href,
      fun k hk => (h.released hout).2 k (hcontrollers k hk)⟩
  displaced := h.displaced
  unreachable := h.unreachable

theorem Accounted.step {a : RunAction} (h : x.Accounted) (hclean : x.BindsCleanly a)
    (hstep : runSystem.step x a x') : x'.Accounted := by
  obtain ⟨hrely, hperform⟩ := hstep
  cases perform_cases hperform with
  | started hp => exact h.start (by rw [hp]; rfl)
  | scopeDone hp => exact h.outside (by rw [hp]; rfl) rfl (by simp)
  | haltStoring hp => exact h.outside (by rw [hp]; rfl) rfl (by simp)
  | exitDone stored hp => exact h.outside (by rw [hp]; rfl) rfl (by simp)
  | exitStoring kind hp => exact h.outside (by rw [hp]; rfl) rfl (by simp)
  | pulled hp => exact h.onIterate _ _
  | ended hp => exact h.inside finishLoop_stays
  | closedOutside hp =>
      refine h.outside ?_ rfl (by simp)
      rcases hp with hp | hp | hp | ⟨kind, hp⟩ <;> rw [hp] <;> rfl
  | closedInside hp => exact h.cleanup .closed
  | dispatched outcome hp => exact h.onDispatched hp
  | processed event hp => exact h.inside (process_stays event)
  | drained hp => exact h.inside finishLoop_stays
  | woken result q hp hq => exact h.onIterate q result
  | opened outcome hp => exact h.onOpened (by rw [hp]; rfl) outcome
  | read result hp => exact h.onRead (by rw [hp]; rfl) result
  | marked ok hp => exact h.onMarked hp ok hclean
  | scopeStored event ok hp =>
      exact h.outside (by rw [hp]; rfl) rfl (by simp)
  | exitStored ok hp =>
      refine h.outside ?_ rfl (by simp)
      rcases hp with hp | hp <;> rw [hp] <;> rfl
  | saved event hp => exact h.inside (yieldStatus_stays event)
  | unsaved event hp => exact h.cleanup .threw
  | stored ok hp => exact h.cleanup .returned
  | authorized event result hp => exact h.onAuthorized event result
  | settled event replaced result hp => exact h.onSettled event replaced result
  | exitSettled kind event result hp => exact h.onExitSettled hp result
  | rearmed => exact h.around (fun _ _ hb _ => hb) fun _ hk => hk
  | timedOut hw event => exact h.around (fun _ _ hb _ => hb) fun _ hk => hk
  | aborted contextId registry hcancel hown hfirst =>
      refine h.around (fun k b hb _ => ?_) fun _ hk => hk
      exact cancelCurrent_bindings hcancel ▸ hb
  | canceled contextId registry hcancel hother =>
      refine h.around (fun k b hb _ => ?_) fun _ hk => hk
      exact cancelCurrent_bindings hcancel ▸ hb
  | environment registry abortControllers =>
      exact h.around hrely.installed hrely.controllers

theorem accounted_of_fresh (h : x.Fresh) : x.Accounted :=
  have hreleased : x.Released := ⟨h.binding, h.controller⟩
  ⟨hreleased.own, fun _ => hreleased, by simp [h.displaced], by simp [h.phase]⟩

/-- A run that binds cleanly leaves nothing behind, however it ends. -/
theorem cleanup_sound (h : (runSystem.restrict BindsCleanly).Reachable x) : x.CleanupSpec := by
  have haccounted : x.Accounted :=
    h.invariant (I := fun x => x.Accounted) (fun _ hinit => accounted_of_fresh hinit)
      fun _ _ _ hs ⟨hclean, hstep⟩ => hs.step hclean hstep
  refine ⟨fun how hphase => haccounted.released ?_, haccounted.displaced⟩
  rw [hphase]
  rfl

section Witness

/-- Up to the marker's commit, with nothing stored for the task. -/
private def markingRun (registry : Registry) (parts : List JsonObject) : RunState :=
  ((messageRun registry parts false).after .next).after (.read (.ok none))

/-- The agent is away, and another execution of the task waits for it to come back. -/
private def held : Registry :=
  { disconnectGraceMs := 0
    bindings := InsertionMap.empty.set "task"
      { ref := 1, agentId := "agent", taskId := "task", contextId := "context" } }

private def canceledRun : RunState :=
  ((((((markingRun connectedRegistry [textPart "hello"]).after (.marked true)).after .resume).after
    (.cancel "context")).after .resume).after .resume).after .close

theorem cleanup_sound_closed : canceledRun.phase = .finished .closed ∧ canceledRun.CleanupSpec := by
  refine ⟨by decide +kernel, cleanup_sound ?_⟩
  have h₀ : (runSystem.restrict BindsCleanly).Reachable
      (messageRun connectedRegistry [textPart "hello"] false) :=
    .of_init (connectedRegistry_fresh _ _)
  have h₁ := after_reachable h₀ .next trivial trivial (by decide +kernel)
  have h₂ := after_reachable h₁ (.read (.ok none)) trivial trivial (by decide +kernel)
  have h₃ := after_reachable h₂ (.marked true) (fun _ _ => ⟨by decide +kernel, .inl (by decide +kernel)⟩) trivial (by decide +kernel)
  have h₄ := after_reachable h₃ .resume trivial trivial (by decide +kernel)
  have h₅ := after_reachable h₄ (.cancel "context") trivial trivial (by decide +kernel)
  have h₆ := after_reachable h₅ .resume trivial trivial (by decide +kernel)
  have h₇ := after_reachable h₆ .resume trivial trivial (by decide +kernel)
  exact after_reachable h₇ .close trivial trivial (by decide +kernel)

/-- The part has no `kind`, and its data is no object. -/
private def malformed : List JsonObject := [[("data", .str "text")]]

private def leakingRun : RunState :=
  ((((markingRun connectedRegistry malformed).after (.marked true)).after .resume).after .next).after
    (.persisted true)

private def displacingRun : RunState := (markingRun held [textPart "hello"]).after (.marked true)

/-- A message whose encoding throws leaves the binding behind; an assignment that cannot be
sent has already displaced the execution that was waiting for its agent. -/
theorem cleanup_leaks :
    (¬ ∀ x, runSystem.Reachable x → ∀ how, x.phase = .finished how → x.Released) ∧
      ¬ ∀ x, runSystem.Reachable x → x.displaced.isSome = true → x.sent = true := by
  have hany : ∀ {x : RunState}, (runSystem.restrict fun _ _ => True).Reachable x →
      runSystem.Reachable x := fun h => h.of_restrict
  refine ⟨fun hclaim => ?_, fun hclaim => ?_⟩
  · have h₀ : (runSystem.restrict fun _ _ => True).Reachable
        (messageRun connectedRegistry malformed false) :=
      .of_init (connectedRegistry_fresh _ _)
    have h₁ := after_reachable h₀ .next trivial trivial (by decide +kernel)
    have h₂ := after_reachable h₁ (.read (.ok none)) trivial trivial (by decide +kernel)
    have h₃ := after_reachable h₂ (.marked true) trivial trivial (by decide +kernel)
    have h₄ := after_reachable h₃ .resume trivial trivial (by decide +kernel)
    have h₅ := after_reachable h₄ .next trivial trivial (by decide +kernel)
    have h₆ := after_reachable h₅ (.persisted true) trivial trivial (by decide +kernel)
    have hreleased := hclaim leakingRun (hany h₆) .returned (by decide +kernel)
    exact hreleased.1 "task" leakingRun.binding (by decide +kernel) rfl
  · have h₀ : (runSystem.restrict fun _ _ => True).Reachable
        (messageRun held [textPart "hello"] false) := by
      refine .of_init (messageRun_fresh _ _ fun k b hb => ?_)
      have hother : (InsertionMap.empty.set "task" (⟨1, "agent", "task", none, "context", none, none,
        none, none, none⟩ : TaskBinding)).get? k = some b := hb
      rw [InsertionMap.get?_set] at hother
      split at hother
      · exact Option.some.inj hother ▸ by simp
      · simp at hother
    have h₁ := after_reachable h₀ .next trivial trivial (by decide +kernel)
    have h₂ := after_reachable h₁ (.read (.ok none)) trivial trivial (by decide +kernel)
    have h₃ := after_reachable h₂ (.marked true) trivial trivial (by decide +kernel)
    exact absurd (hclaim displacingRun (hany h₃) (by decide +kernel)) (by decide +kernel)

end Witness

end RunState

end VicoopBridge
