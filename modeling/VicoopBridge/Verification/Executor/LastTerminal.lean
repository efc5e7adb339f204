import VicoopBridge.Verification.Executor.Loop

/-! # The terminal event of a stream

A run yields at most one terminal status, and nothing after it. -/

namespace VicoopBridge

open Library

/-- The places from which the run yields nothing any more. -/
def Phase.over : Phase → Bool
  | .scopeYielded | .haltYielded | .haltPersisting | .exitYielded _ | .exitPersisting
  | .lastYielded | .drained | .persisting | .finished _ => true
  | _ => false

namespace RunState

variable {x x' : RunState}

/-- Nothing follows a terminal event of the stream. -/
def TerminalLast (x : RunState) : Prop :=
  ∀ before e after, x.outputs = before ++ e :: after → e.isTerminal = true → after = []

theorem deliver_isTerminal (x : RunState) (event : StreamEvent) :
    (x.deliver event).isTerminal = event.isTerminal := by
  cases event with
  | artifact event => rfl
  | status event =>
      simp only [deliver, withOrigin]
      split <;> rfl

/-! ## The invariant -/

/-- As long as the run may yield more, it has not yielded a terminal. -/
structure Unfinished (x : RunState) : Prop where
  silent : x.phase.over = false → ∀ e ∈ x.outputs, e.isTerminal = false
  last : x.TerminalLast

theorem terminalLast_of_open (h : ∀ e ∈ x.outputs, e.isTerminal = false) : x.TerminalLast := by
  intro before e after heq hterminal
  have hopen := h e (heq ▸ by simp)
  exact absurd (hterminal.symm.trans hopen) (by simp)

/-- The last event may be of any kind. -/
theorem terminalLast_snoc (h : ∀ e ∈ x.outputs, e.isTerminal = false) {last : StreamEvent}
    (hlast : x'.outputs = x.outputs ++ [last]) : x'.TerminalLast := by
  intro before e after heq hterminal
  rw [hlast] at heq
  rcases List.append_eq_append_iff.mp heq with ⟨more, hbefore, hrest⟩ | ⟨more, hbefore, hrest⟩
  · cases more with
    | nil => simpa using congrArg List.tail hrest.symm
    | cons e' more => simp at hrest
  · cases more with
    | nil => simpa using congrArg List.tail hrest
    | cons e' more =>
        obtain rfl : e = e' := (List.cons.inj hrest).1
        have hopen := h e (hbefore ▸ by simp)
        exact absurd (hterminal.symm.trans hopen) (by simp)

theorem Unfinished.same (h : x.Unfinished) (houtputs : x'.outputs = x.outputs)
    (hphase : x'.phase.over = false → x.phase.over = false) : x'.Unfinished where
  silent hover := by rw [houtputs]; exact h.silent (hphase hover)
  last := by
    unfold TerminalLast
    rw [houtputs]
    exact h.last

/-- The event that ends the stream, terminal or not. -/
theorem Unfinished.final (h : x.Unfinished) (hmore : x.phase.over = false) {e : StreamEvent}
    (houtputs : x'.outputs = x.outputs ++ [e]) (hover : x'.phase.over = true) :
    x'.Unfinished where
  silent hnot := absurd (hover.symm.trans hnot) (by simp)
  last := terminalLast_snoc (h.silent hmore) houtputs

theorem Unfinished.relayed (h : x.Unfinished) (hmore : x.phase.over = false) {event : StreamEvent}
    (hrelayed : x.Relayed event x') : x'.Unfinished := by
  cases hrelayed with
  | yielded event task history accumulated hopen =>
      have houtputs : ({ x with
          yields := x.yields ++ [.relayed event (x.deliver event)], task := task
          history := history, accumulatedArtifacts := accumulated
          phase := .yielded } : RunState).outputs = x.outputs ++ [x.deliver event] := by
        simp [outputs, Yield.output]
      have hdeliver : (x.deliver event).isTerminal = false :=
        (deliver_isTerminal x event).trans hopen
      refine ⟨fun _ e he => ?_, terminalLast_snoc (h.silent hmore) houtputs⟩
      rw [houtputs] at he
      rcases List.mem_append.mp he with hold | hnew
      · exact h.silent hmore e hold
      · rw [List.mem_singleton.mp hnew]
        exact hdeliver
  | saving event task history hopen => exact h.same rfl fun _ => hmore
  | settling event hterminal hpaid => exact h.same rfl fun _ => hmore
  | concluded event task history hterminal hfree =>
      exact h.final (e := x.deliver (.status event)) hmore (by simp [outputs, Yield.output]) rfl

theorem Unfinished.cleanup (h : x.Unfinished) (how : Finish) : (x.cleanup how).Unfinished := by
  obtain ⟨registry, controllers, hframe⟩ := x.cleanup_frame how
  rw [hframe]
  exact h.same rfl fun hover => absurd hover (by simp [Phase.over])

theorem Unfinished.exitYield (h : x.Unfinished) (hmore : x.phase.over = false) (kind : ExitKind)
    (terminal : TaskStatusUpdateEvent) : (x.exitYield kind terminal).Unfinished := by
  obtain ⟨task, history, registry, controllers, hframe⟩ := x.exitYield_frame kind terminal
  rw [hframe]
  exact h.final (e := .status terminal) hmore (by simp [outputs, Yield.output]) rfl

theorem Unfinished.exitWith (h : x.Unfinished) (hmore : x.phase.over = false) (kind : ExitKind)
    (event : TaskStatusUpdateEvent) : (x.exitWith kind event).Unfinished := by
  unfold RunState.exitWith
  split
  · exact h.same rfl fun _ => hmore
  · exact h.exitYield hmore kind event

theorem Unfinished.yieldTerminal (h : x.Unfinished) (hmore : x.phase.over = false)
    (event : TaskStatusUpdateEvent) (replaced : Option StreamEvent)
    (terminal : TaskStatusUpdateEvent) : (x.yieldTerminal event replaced terminal).Unfinished := by
  have houtputs : (x.yieldTerminal event replaced terminal).outputs =
      x.outputs ++ [.status (x.withOrigin terminal)] := by
    cases replaced <;> simp [RunState.yieldTerminal, RunState.emit, outputs, Yield.output]
  exact h.final hmore houtputs rfl

theorem Unfinished.conclude (h : x.Unfinished) (hmore : x.phase.over = false)
    (event : TaskStatusUpdateEvent) (replaced : Option StreamEvent) :
    (x.conclude event replaced).Unfinished := by
  unfold RunState.conclude
  split
  · exact h.same rfl fun _ => hmore
  · exact h.yieldTerminal hmore event replaced event

theorem Unfinished.onIterate (h : x.Unfinished) (hmore : x.phase.over = false) (q : SinkQueue)
    (result : IterateResult StreamEvent String) :
    ((x.setQueue q).onIterate result).Unfinished := by
  have hqueue : (x.setQueue q).Unfinished := h.same rfl fun _ => hmore
  cases result with
  | thrown error => exact hqueue.cleanup .threw
  | _ => exact h.same rfl fun _ => hmore

theorem Unfinished.onDispatched (h : x.Unfinished) (hmore : x.phase.over = false)
    (outcome : DispatchOutcome) : (x.onDispatched outcome).Unfinished := by
  have hqueue : (x.setQueue x.queue.end).Unfinished := h.same rfl fun _ => hmore
  have harmed : x.armWatchdog.Unfinished := h.same rfl fun _ => hmore
  cases outcome with
  | sent => exact harmed.onIterate hmore _ _
  | unsent => exact h.exitWith hmore _ _
  | rejected rejection => exact hqueue.exitWith hmore _ _
  | interrupted stored => exact hqueue.exitWith hmore _ _

theorem Unfinished.finishLoop (h : x.Unfinished) : x.finishLoop.Unfinished := by
  obtain ⟨task, hframe⟩ := x.finishLoop_frame
  rw [hframe]
  exact h.same rfl fun hover => absurd hover (by simp [Phase.over])

/-! ## Every step keeps it -/

theorem Unfinished.step {a : RunAction} (h : x.Unfinished) (hreading : x.Reading)
    (hstep : runSystem.step x a x') : x'.Unfinished := by
  obtain ⟨-, hperform⟩ := hstep
  have hmore : ∀ {p : Phase}, x.phase = p → p.over = false → x.phase.over = false :=
    fun hp hover => hp ▸ hover
  cases perform_cases hperform with
  | started hp =>
      unfold start
      split
      · exact h.same rfl fun _ => hmore hp rfl
      · split
        · exact h.same rfl fun _ => hmore hp rfl
        · exact h.same rfl fun _ => hmore hp rfl
  | scopeDone hp => exact h.same rfl fun hover => absurd hover (by simp [Phase.over])
  | haltStoring hp => exact h.same rfl fun hover => absurd hover (by simp [Phase.over])
  | exitDone stored hp => exact h.same rfl fun hover => absurd hover (by simp [Phase.over])
  | exitStoring kind hp => exact h.same rfl fun hover => absurd hover (by simp [Phase.over])
  | pulled hp => exact h.onIterate (hmore hp rfl) _ _
  | ended hp => exact h.finishLoop
  | closedOutside hp => exact h.same rfl fun hover => absurd hover (by simp [Phase.over])
  | closedInside hp => exact h.cleanup .closed
  | dispatched outcome hp => exact h.onDispatched (hmore hp rfl) outcome
  | processed event hp =>
      have harmed : x.armWatchdog.Unfinished := h.same rfl fun hover => hover
      rcases process_cases (x := x) event with ⟨heq, -⟩ | ⟨hrelayed, -⟩
      · exact heq ▸ harmed.same rfl fun _ => hmore hp rfl
      · exact harmed.relayed (hmore hp rfl) hrelayed
  | drained hp => exact h.finishLoop
  | woken result q hp hq => exact h.onIterate (hmore hp rfl) q result
  | opened outcome hp =>
      unfold onOpened
      split
      · exact h.same rfl fun hover => absurd hover (by simp [Phase.over])
      · rename_i event
        exact h.final (e := .status event) (hmore hp rfl)
          (by simp [outputs, Yield.output, RunState.emit, recordStatus]) rfl
      · exact h.same rfl fun _ => hmore hp rfl
  | read result hp =>
      unfold onRead
      split
      · exact h.same rfl fun _ => hmore hp rfl
      · split
        · exact h.same rfl fun _ => hmore hp rfl
        · split <;> exact h.same rfl fun _ => hmore hp rfl
  | marked ok hp =>
      cases ok with
      | false => exact h.same rfl fun _ => hmore hp rfl
      | true =>
          have hcases := x.dispatch_cases
          simp only [onMarked, if_true]
          generalize x.dispatch = x' at hcases ⊢
          cases hcases <;> exact h.same rfl fun _ => hmore hp rfl
  | scopeStored event ok hp =>
      exact h.final (e := .status event) (hmore hp rfl)
        (by simp [outputs, Yield.output, RunState.emit]) rfl
  | exitStored ok hp => exact h.same rfl fun hover => absurd hover (by simp [Phase.over])
  | saved event hp =>
      exact h.relayed (hmore hp rfl) (.yielded (.status event) x.task x.history
        x.accumulatedArtifacts (hreading.saving event hp))
  | unsaved event hp => exact h.cleanup .threw
  | stored ok hp => exact h.cleanup .returned
  | authorized event result hp =>
      unfold onAuthorized
      split
      · exact h.cleanup .threw
      · exact Unfinished.relayed (x := { x with deliveryAuthorized := true })
          (h.same rfl fun hover => hover) (hmore hp rfl) (relay_cases event)
      · have hsent : Unfinished { x with registry := (x.registry.sendToAgent x.request.agentId
            (.taskCancel x.request.taskId x.executionId)).2 } := h.same rfl fun hover => hover
        exact hsent.conclude (hmore hp rfl) _ _
  | settled event replaced result hp =>
      unfold onSettled
      rcases x.settle event result with ⟨terminal, calls⟩
      have hcalls : Unfinished { x with gateCalls := x.gateCalls ++ calls } :=
        h.same rfl fun hover => hover
      cases terminal with
      | error error => exact hcalls.cleanup .threw
      | ok terminal => exact hcalls.yieldTerminal (hmore hp rfl) event replaced terminal
  | exitSettled kind event result hp =>
      unfold onExitSettled
      rcases x.settle event result with ⟨terminal, calls⟩
      have hcalls : Unfinished { x with gateCalls := x.gateCalls ++ calls } :=
        h.same rfl fun hover => hover
      cases terminal with
      | error error => exact hcalls.same rfl fun hover => absurd hover (by simp [Phase.over])
      | ok terminal => exact hcalls.exitYield (hmore hp rfl) kind terminal
  | rearmed => exact h.same rfl fun hover => hover
  | timedOut hw event hterminal => exact h.same rfl fun hover => hover
  | aborted contextId registry hcancel hown hfirst => exact h.same rfl fun hover => hover
  | canceled contextId registry hcancel hother => exact h.same rfl fun hover => hover
  | environment registry abortControllers => exact h.same rfl fun hover => hover

theorem terminalLast_of_reachable (h : runSystem.Reachable x) : x.TerminalLast := by
  have hboth : x.Reading ∧ x.Unfinished := by
    refine h.invariant (I := fun x => x.Reading ∧ x.Unfinished) ?_ ?_
    · intro x hinit
      have hnone : ∀ e ∈ x.outputs, e.isTerminal = false := by simp [outputs, hinit.yields]
      exact ⟨reading_of_fresh hinit, fun _ => hnone, terminalLast_of_open hnone⟩
    · exact fun x a x' ⟨hreading, hunfinished⟩ hstep =>
        ⟨hreading.step hstep, hunfinished.step hreading hstep⟩
  exact hboth.2.last

end RunState

end VicoopBridge
