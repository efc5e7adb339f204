import VicoopBridge.Library.Transition
import VicoopBridge.Model.Executor
import VicoopBridge.Verification.EventQueue

/-! # Runs of the executor

A run shares the registry and the table of controllers with everything else the server
does. What it may rely on is that nobody else installs its binding or its controller, that
its queue is only fed, and that a binding is taken from the registry with its queue
closed. -/

namespace VicoopBridge

open Library

inductive RunAction where
  | next
  | close
  | resume
  | opened (outcome : Except Unit X402GateOutcome)
  | read (result : Except Unit (Option Task))
  | marked (ok : Bool)
  | persisted (ok : Bool)
  | authorized (result : Except Unit (Option JsonObject))
  | settled (result : Except Unit X402SettleResult)
  | watchdog
  | cancel (contextId : String)
  | environment (registry : Registry) (abortControllers : InsertionMap String ControllerId)

namespace RunState

def perform (x : RunState) : RunAction → Option RunState
  | .next => x.onNext
  | .close => x.onClose
  | .resume => x.onResume
  | .opened outcome =>
      match x.phase with
      | .opening => some (x.onOpened outcome)
      | _ => none
  | .read result =>
      match x.phase with
      | .reading => some (x.onRead result)
      | _ => none
  | .marked ok =>
      match x.phase with
      | .marking => some (x.onMarked ok)
      | _ => none
  | .persisted ok => x.onPersisted ok
  | .authorized result =>
      match x.phase with
      | .authorizing event => some (x.onAuthorized event result)
      | _ => none
  | .settled result =>
      match x.phase with
      | .settling event replaced => some (x.onSettled event replaced result)
      | .exitSettling kind event => some (x.onExitSettled kind event result)
      | _ => none
  | .watchdog => x.onWatchdog
  | .cancel contextId => x.onCancel contextId
  | .environment registry abortControllers =>
      some { x with registry := registry, abortControllers := abortControllers }

/-- What a step of anything else leaves of this run's affairs. -/
structure Rely (x : RunState) (registry : Registry)
    (abortControllers : InsertionMap String ControllerId) : Prop where
  installed : ∀ k b, registry.bindings.get? k = some b → b.ref = x.bindingRef →
    x.registry.bindings.get? k = some b
  controllers : ∀ k, abortControllers.get? k = some x.controller →
    x.abortControllers.get? k = some x.controller
  fed : x.queue.Fed (registry.cells x.binding).queue
  removed : x.registry.bindings.get? x.request.taskId = some x.binding →
    registry.bindings.get? x.request.taskId ≠ some x.binding →
    (registry.cells x.binding).queue.closed = true

def Allows (x : RunState) : RunAction → Prop
  | .environment registry abortControllers => x.Rely registry abortControllers
  | _ => True

/-- A run before its first step. Its binding, its controller and its ids are new. -/
structure Fresh (x : RunState) : Prop where
  phase : x.phase = .idle
  settlement : x.settlement = none
  notAborted : x.aborted = false
  displaced : x.displaced = none
  consumed : x.consumed = []
  yields : x.yields = []
  settled : x.settled = []
  gateCalls : x.gateCalls = []
  binding : ∀ k b, x.registry.bindings.get? k = some b → b.ref ≠ x.bindingRef
  controller : ∀ k, x.abortControllers.get? k ≠ some x.controller

end RunState

def runSystem : System RunState RunAction where
  init := RunState.Fresh
  step x a x' := x.Allows a ∧ x.perform a = some x'

namespace RunState

variable {x x' : RunState}

/-! ## What a step can do -/

/-- One step of a run, by the place the run was at. -/
inductive Turn (x : RunState) : RunAction → RunState → Prop where
  | started (hp : x.phase = .idle) : Turn x .next x.start
  | scopeDone (hp : x.phase = .scopeYielded) :
      Turn x .next { x with phase := .finished .returned }
  | haltStoring (hp : x.phase = .haltYielded) : Turn x .next { x with phase := .haltPersisting }
  | exitDone (stored : Task) (hp : x.phase = .exitYielded (.interrupted stored)) :
      Turn x .next { x with phase := .finished .returned }
  | exitStoring (kind : ExitKind) (hp : x.phase = .exitYielded kind) :
      Turn x .next { x with phase := .exitPersisting }
  | pulled (hp : x.phase = .yielded) : Turn x .next x.pull
  | ended (hp : x.phase = .lastYielded) : Turn x .next x.finishLoop
  | closedOutside (hp : x.phase = .idle ∨ x.phase = .scopeYielded ∨ x.phase = .haltYielded ∨
      ∃ kind, x.phase = .exitYielded kind) : Turn x .close { x with phase := .finished .closed }
  | closedInside (hp : x.phase = .yielded ∨ x.phase = .lastYielded) :
      Turn x .close (x.cleanup .closed)
  | dispatched (outcome : DispatchOutcome) (hp : x.phase = .resuming outcome) :
      Turn x .resume (x.onDispatched outcome)
  | processed (event : StreamEvent) (hp : x.phase = .delivered event) :
      Turn x .resume (x.process event)
  | drained (hp : x.phase = .drained) : Turn x .resume x.finishLoop
  | woken (result : IterateResult StreamEvent String) (q : SinkQueue) (hp : x.phase = .parked)
      (hq : x.queue.resume = some (result, q)) : Turn x .resume ((x.setQueue q).onIterate result)
  | opened (outcome : Except Unit X402GateOutcome) (hp : x.phase = .opening) :
      Turn x (.opened outcome) (x.onOpened outcome)
  | read (result : Except Unit (Option Task)) (hp : x.phase = .reading) :
      Turn x (.read result) (x.onRead result)
  | marked (ok : Bool) (hp : x.phase = .marking) : Turn x (.marked ok) (x.onMarked ok)
  | scopeStored (event : TaskStatusUpdateEvent) (ok : Bool) (hp : x.phase = .scopePersisting event) :
      Turn x (.persisted ok) { x.emit (.direct (.status event)) with phase := .scopeYielded }
  | exitStored (ok : Bool) (hp : x.phase = .haltPersisting ∨ x.phase = .exitPersisting) :
      Turn x (.persisted ok) { x with phase := .finished .returned }
  | saved (event : TaskStatusUpdateEvent) (hp : x.phase = .saving event) :
      Turn x (.persisted true) (x.yieldStatus event)
  | unsaved (event : TaskStatusUpdateEvent) (hp : x.phase = .saving event) :
      Turn x (.persisted false) (x.cleanup .threw)
  | stored (ok : Bool) (hp : x.phase = .persisting) : Turn x (.persisted ok) (x.cleanup .returned)
  | authorized (event : StreamEvent) (result : Except Unit (Option JsonObject))
      (hp : x.phase = .authorizing event) : Turn x (.authorized result) (x.onAuthorized event result)
  | settled (event : TaskStatusUpdateEvent) (replaced : Option StreamEvent)
      (result : Except Unit X402SettleResult) (hp : x.phase = .settling event replaced) :
      Turn x (.settled result) (x.onSettled event replaced result)
  | exitSettled (kind : ExitKind) (event : TaskStatusUpdateEvent)
      (result : Except Unit X402SettleResult) (hp : x.phase = .exitSettling kind event) :
      Turn x (.settled result) (x.onExitSettled kind event result)
  | rearmed : Turn x .watchdog x.armWatchdog
  | timedOut (hw : x.watchdog = true) (event : TaskStatusUpdateEvent)
      (hterminal : event.status.state.isTerminal = true) : Turn x .watchdog { x with
        watchdog := false
        registry := (x.registry.pushStatus x.binding event).finish x.binding }
  | aborted (contextId : String) (registry : Registry)
      (hcancel : x.registry.cancelCurrent x.request.agentId x.request.taskId contextId = .ok registry)
      (hown : x.abortControllers.get? x.request.taskId = some x.controller)
      (hfirst : x.aborted = false) : Turn x (.cancel contextId)
        { ({ x with registry := registry } : RunState).setQueue
            (RunState.queue { x with registry := registry }).onAbort with aborted := true }
  | canceled (contextId : String) (registry : Registry)
      (hcancel : x.registry.cancelCurrent x.request.agentId x.request.taskId contextId = .ok registry)
      (hother : x.abortControllers.get? x.request.taskId ≠ some x.controller ∨ x.aborted = true) :
      Turn x (.cancel contextId) { x with registry := registry }
  | environment (registry : Registry) (abortControllers : InsertionMap String ControllerId) :
      Turn x (.environment registry abortControllers)
        { x with registry := registry, abortControllers := abortControllers }

theorem onNext_cases (h : x.onNext = some x') : Turn x .next x' := by
  unfold onNext at h
  split at h <;> simp only [Option.some.injEq, reduceCtorEq] at h <;> subst h
  case h_1 hp => exact .started hp
  case h_2 hp => exact .scopeDone hp
  case h_3 hp => exact .haltStoring hp
  case h_4 stored hp => exact .exitDone stored hp
  case h_5 kind _ hp => exact .exitStoring kind hp
  case h_6 hp => exact .pulled hp
  case h_7 hp => exact .ended hp

theorem onClose_cases (h : x.onClose = some x') : Turn x .close x' := by
  unfold onClose at h
  split at h <;> simp only [Option.some.injEq, reduceCtorEq] at h <;> subst h
  case h_1 hp => exact .closedOutside (.inl hp)
  case h_2 hp => exact .closedOutside (.inr (.inl hp))
  case h_3 hp => exact .closedOutside (.inr (.inr (.inl hp)))
  case h_4 kind hp => exact .closedOutside (.inr (.inr (.inr ⟨kind, hp⟩)))
  case h_5 hp => exact .closedInside (.inl hp)
  case h_6 hp => exact .closedInside (.inr hp)

theorem onResume_cases (h : x.onResume = some x') : Turn x .resume x' := by
  unfold onResume at h
  split at h
  case h_1 outcome hp =>
    obtain rfl := Option.some.inj h
    exact .dispatched outcome hp
  case h_2 event hp =>
    obtain rfl := Option.some.inj h
    exact .processed event hp
  case h_3 hp =>
    obtain rfl := Option.some.inj h
    exact .drained hp
  case h_4 hp =>
    obtain ⟨⟨result, q⟩, hq, rfl⟩ := Option.map_eq_some_iff.mp h
    exact .woken result q hp hq
  case h_5 => simp at h

theorem onPersisted_cases {ok : Bool} (h : x.onPersisted ok = some x') :
    Turn x (.persisted ok) x' := by
  unfold onPersisted at h
  split at h <;> simp only [Option.some.injEq, reduceCtorEq] at h <;> subst h
  case h_1 event hp => exact .scopeStored event ok hp
  case h_2 hp => exact .exitStored ok (.inl hp)
  case h_3 hp => exact .exitStored ok (.inr hp)
  case h_4 event hp =>
    cases ok with
    | true => exact .saved event hp
    | false => exact .unsaved event hp
  case h_5 hp => exact .stored ok hp

theorem onWatchdog_cases (h : x.onWatchdog = some x') : Turn x .watchdog x' := by
  unfold onWatchdog at h
  split at h
  · simp at h
  · rename_i hw
    split at h
    · obtain rfl := Option.some.inj h
      exact .rearmed
    · obtain rfl := Option.some.inj h
      exact .timedOut (by simpa using hw) _ rfl

theorem onCancel_cases {contextId : String} (h : x.onCancel contextId = some x') :
    Turn x (.cancel contextId) x' := by
  unfold onCancel at h
  split at h
  · simp at h
  · rename_i registry hcancel
    simp only at h
    split at h
    · rename_i hboth
      obtain rfl := Option.some.inj h
      exact .aborted contextId registry hcancel hboth.1 (by simpa using hboth.2)
    · rename_i hnot
      obtain rfl := Option.some.inj h
      refine .canceled contextId registry hcancel ?_
      simpa [← imp_iff_not_or] using hnot

theorem perform_cases {a : RunAction} (h : x.perform a = some x') : Turn x a x' := by
  cases a with
  | next => exact onNext_cases h
  | close => exact onClose_cases h
  | resume => exact onResume_cases h
  | opened outcome =>
      simp only [perform] at h
      split at h <;> simp only [Option.some.injEq, reduceCtorEq] at h
      rename_i hp
      exact h ▸ .opened outcome hp
  | read result =>
      simp only [perform] at h
      split at h <;> simp only [Option.some.injEq, reduceCtorEq] at h
      rename_i hp
      exact h ▸ .read result hp
  | marked ok =>
      simp only [perform] at h
      split at h <;> simp only [Option.some.injEq, reduceCtorEq] at h
      rename_i hp
      exact h ▸ .marked ok hp
  | persisted ok => exact onPersisted_cases h
  | authorized result =>
      simp only [perform] at h
      split at h <;> simp only [Option.some.injEq, reduceCtorEq] at h
      rename_i event hp
      exact h ▸ .authorized event result hp
  | settled result =>
      simp only [perform] at h
      split at h <;> simp only [Option.some.injEq, reduceCtorEq] at h <;> subst h
      case h_1 event replaced hp => exact .settled event replaced result hp
      case h_2 kind event hp => exact .exitSettled kind event result hp
  | watchdog => exact onWatchdog_cases h
  | cancel contextId => exact onCancel_cases h
  | environment registry abortControllers =>
      obtain rfl := Option.some.inj h
      exact .environment registry abortControllers

/-! ## Following a run -/

/-- The state after a step that can happen. -/
def after (x : RunState) (a : RunAction) : RunState := (x.perform a).getD x

theorem after_reachable {allowed : RunState → RunAction → Prop}
    (h : (runSystem.restrict allowed).Reachable x) (a : RunAction) (hallowed : allowed x a)
    (hrely : x.Allows a) (hcan : (x.perform a).isSome = true) :
    (runSystem.restrict allowed).Reachable (x.after a) := by
  obtain ⟨x', hx'⟩ := Option.isSome_iff_exists.mp hcan
  refine h.step (a := a) ⟨hallowed, hrely, ?_⟩
  rw [after, hx', Option.getD_some]

/-- The run of a message for the agent `agent`. -/
def messageRun (registry : Registry) (parts : List JsonObject) (gate : Bool) : RunState where
  registry := registry
  request :=
    { agentId := "agent", taskId := "task", contextId := "context"
      message := { messageId := "message", role := .user, parts := parts } }
  bindingRef := 0
  controller := 0
  freshExecutionId := "execution"
  freshMessageId := "fresh"
  gate := gate
  task := { id := "task", status := { state := .submitted } }

theorem messageRun_fresh {registry : Registry} (parts : List JsonObject) (gate : Bool)
    (h : ∀ k b, registry.bindings.get? k = some b → b.ref ≠ 0) :
    (messageRun registry parts gate).Fresh :=
  ⟨rfl, rfl, rfl, rfl, rfl, rfl, rfl, rfl, h, fun k => by simp [messageRun]⟩

/-- The agent is connected and nothing is bound. -/
def connectedRegistry : Registry where
  disconnectGraceMs := 0
  agents := InsertionMap.empty.set "agent" { agentId := "agent", clientId := "client", ws := 0 }

theorem connectedRegistry_fresh (parts : List JsonObject) (gate : Bool) :
    (messageRun connectedRegistry parts gate).Fresh :=
  messageRun_fresh parts gate fun k b hb => by simp [connectedRegistry] at hb

end RunState

end VicoopBridge
