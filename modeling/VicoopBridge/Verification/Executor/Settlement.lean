import VicoopBridge.Verification.Executor.CancelDelivery

/-! # What becomes of a payment

A run that was given a settlement owes it until one terminal event has gone through
`settleTerminal`. The exits before the loop and a terminal from the queue pay it; a loop that
ends without a terminal does not. -/

namespace VicoopBridge

open Library

namespace RunState

variable {x x' : RunState}

/-! ## The specification -/

/-- One terminal event was settled: the offering was cleared, after the charge of a completed
task where one was due. -/
def Discharged (x : RunState) : Prop :=
  ∃ event, x.settled = [event] ∧ event.status.state.isTerminal = true ∧
    (x.gateCalls = [.clear] ∨ event.status.state = .completed ∧
      (∃ obligation, x.settlement = some (.deferred obligation)) ∧
      x.gateCalls = [.settle event, .clear])

/-- For a run that was given a settlement. -/
structure SettlementSpec (x : RunState) : Prop where
  released : ∀ how, x.phase = .finished how → x.Discharged
  once : x.settled.length ≤ 1
  /-- Only the terminal of a completed run is charged. -/
  charged : ∀ event, .settle event ∈ x.gateCalls →
    event.status.state = .completed ∧ x.settled = [event]
  authorized : ∀ event output, .relayed event output ∈ x.yields → hasOutput event = true →
    x.deliveryAuthorized = true

/-- What keeps a run with a settlement on the way to a terminal event: cancellations find it
parked, the consumer stays, the queue is closed only after a terminal event, and neither the
gate nor the saving of a suspension throws. -/
def SettlesCleanly (x : RunState) : RunAction → Prop
  | .cancel _ => x.settlement.isSome = true → x.phase.reads = true → x.Live → x.Awaits
  | .close => x.settlement.isSome = true → x.phase ≠ .yielded
  | .persisted ok => x.settlement.isSome = true → (∃ event, x.phase = .saving event) → ok = true
  | .authorized result => result.isOk = true
  | .settled result => result.isOk = true
  | .environment registry _ => x.settlement.isSome = true → x.phase.reads = true →
      x.queue.closed = false → (registry.cells x.binding).queue.closed = true →
      ∃ event ∈ x.consumed ++ (registry.cells x.binding).queue.pending, event.isTerminal = true
  | _ => True

/-! ## Delivery -/

/-- Output is relayed or about to be only after the gate has agreed. -/
structure Authorized (x : RunState) : Prop where
  relayed : x.settlement.isSome = true → ∀ event output, .relayed event output ∈ x.yields →
    hasOutput event = true → x.deliveryAuthorized = true
  saving : x.settlement.isSome = true → ∀ event, x.phase = .saving event →
    hasOutput (.status event) = true → x.deliveryAuthorized = true
  settling : x.settlement.isSome = true → ∀ event, x.phase = .settling event none →
    hasOutput (.status event) = true → x.deliveryAuthorized = true

theorem authorized_of_yields (h : x.Authorized) (hsettlement : x'.settlement = x.settlement)
    (hyields : ∀ event output, .relayed event output ∈ x'.yields →
      .relayed event output ∈ x.yields)
    (hdelivery : x'.deliveryAuthorized = x.deliveryAuthorized)
    (hsaving : ∀ event, x'.phase ≠ .saving event)
    (hsettling : ∀ event, x'.phase ≠ .settling event none) : x'.Authorized where
  relayed hpaid event output hmem houtput := by
    rw [hdelivery]
    exact h.relayed (hsettlement ▸ hpaid) event output (hyields event output hmem) houtput
  saving _ event hp := absurd hp (hsaving event)
  settling _ event hp := absurd hp (hsettling event)

theorem Authorized.relay (h : x.Authorized) {event : StreamEvent}
    (hauthorized : x.settlement.isSome = true → hasOutput event = true →
      x.deliveryAuthorized = true)
    (hrelayed : x.Relayed event x') : x'.Authorized := by
  have hyields : x.settlement.isSome = true → ∀ e output,
      .relayed e output ∈ x.yields ++ [.relayed event (x.deliver event)] → hasOutput e = true →
      x.deliveryAuthorized = true := by
    intro hpaid e output hmem houtput
    rcases List.mem_append.mp hmem with hold | hnew
    · exact h.relayed hpaid e output hold houtput
    · obtain ⟨rfl, -⟩ := Yield.relayed.inj (List.mem_singleton.mp hnew)
      exact hauthorized hpaid houtput
  cases hrelayed with
  | yielded event task history accumulated hopen => exact ⟨hyields, by simp, by simp⟩
  | saving event task history hopen =>
      refine ⟨h.relayed, fun hpaid event' hp houtput => ?_, by simp⟩
      obtain rfl := Phase.saving.inj hp
      exact hauthorized hpaid houtput
  | settling event hterminal hpaid =>
      refine ⟨h.relayed, by simp, fun hpaid event' hp houtput => ?_⟩
      obtain ⟨rfl, -⟩ := Phase.settling.inj hp
      exact hauthorized hpaid houtput
  | concluded event task history hterminal hfree => exact ⟨hyields, by simp, by simp⟩

/-- A step that changes at most the place, to one that holds no status, and adds only events
of its own. -/
theorem Authorized.elsewhere (h : x.Authorized) (ys : List Yield)
    (hys : ∀ event output, .relayed event output ∉ ys) (hyields : x'.yields = x.yields ++ ys)
    (hsettlement : x'.settlement = x.settlement)
    (hdelivery : x'.deliveryAuthorized = x.deliveryAuthorized)
    (hsaving : ∀ event, x'.phase ≠ .saving event)
    (hsettling : ∀ event, x'.phase ≠ .settling event none) : x'.Authorized :=
  authorized_of_yields h hsettlement
    (fun event output hmem => (List.mem_append.mp (hyields ▸ hmem)).resolve_right (hys event output))
    hdelivery hsaving hsettling

theorem Authorized.away (h : x.Authorized) (hyields : x'.yields = x.yields)
    (hsettlement : x'.settlement = x.settlement)
    (hdelivery : x'.deliveryAuthorized = x.deliveryAuthorized)
    (hsaving : ∀ event, x'.phase ≠ .saving event)
    (hsettling : ∀ event, x'.phase ≠ .settling event none) : x'.Authorized :=
  h.elsewhere [] (by simp) (by rw [hyields, List.append_nil]) hsettlement hdelivery hsaving
    hsettling

theorem authorized_of_silent (hyields : x.yields = []) (hsaving : ∀ event, x.phase ≠ .saving event)
    (hsettling : ∀ event, x.phase ≠ .settling event none) : x.Authorized :=
  ⟨by simp [hyields], fun _ event hp => absurd hp (hsaving event),
    fun _ event hp => absurd hp (hsettling event)⟩

theorem Authorized.cleanup (h : x.Authorized) (how : Finish) : (x.cleanup how).Authorized := by
  obtain ⟨registry, controllers, hframe⟩ := x.cleanup_frame how
  rw [hframe]
  exact h.away rfl rfl rfl (by simp) (by simp)

theorem Authorized.exitYield (h : x.Authorized) (kind : ExitKind)
    (terminal : TaskStatusUpdateEvent) : (x.exitYield kind terminal).Authorized := by
  obtain ⟨task, history, registry, controllers, hframe⟩ := x.exitYield_frame kind terminal
  rw [hframe]
  exact h.elsewhere [.direct (.status terminal)] (by simp) rfl rfl rfl (by simp) (by simp)

theorem Authorized.exitWith (h : x.Authorized) (kind : ExitKind) (event : TaskStatusUpdateEvent) :
    (x.exitWith kind event).Authorized := by
  unfold RunState.exitWith
  split
  · exact h.away rfl rfl rfl (by simp) (by simp)
  · exact h.exitYield kind event

theorem Authorized.onIterate (h : x.Authorized) (q : SinkQueue)
    (result : IterateResult StreamEvent String) : ((x.setQueue q).onIterate result).Authorized := by
  have hqueue : (x.setQueue q).Authorized := ⟨h.relayed, h.saving, h.settling⟩
  cases result with
  | thrown error => exact hqueue.cleanup .threw
  | yielded event =>
      exact h.away rfl rfl rfl (by simp [RunState.onIterate]) (by simp [RunState.onIterate])
  | parked =>
      exact h.away rfl rfl rfl (by simp [RunState.onIterate]) (by simp [RunState.onIterate])
  | returned =>
      exact h.away rfl rfl rfl (by simp [RunState.onIterate]) (by simp [RunState.onIterate])

theorem Authorized.onDispatched (h : x.Authorized) (outcome : DispatchOutcome) :
    (x.onDispatched outcome).Authorized := by
  have hqueue : (x.setQueue x.queue.end).Authorized := ⟨h.relayed, h.saving, h.settling⟩
  have harmed : x.armWatchdog.Authorized := ⟨h.relayed, h.saving, h.settling⟩
  cases outcome with
  | sent => exact harmed.onIterate _ _
  | unsent => exact h.exitWith _ _
  | rejected rejection => exact hqueue.exitWith _ _
  | interrupted stored => exact hqueue.exitWith _ _

theorem Authorized.onAuthorized (h : x.Authorized) (hreading : x.Reading) {event : StreamEvent}
    (hphase : x.phase = .authorizing event) (result : Except Unit (Option JsonObject)) :
    (x.onAuthorized event result).Authorized := by
  unfold RunState.onAuthorized
  split
  · exact h.cleanup .threw
  · have hgranted : Authorized { x with deliveryAuthorized := true } :=
      ⟨fun _ _ _ _ _ => rfl, fun _ _ _ _ => rfl, fun _ _ _ _ => rfl⟩
    exact hgranted.relay (fun _ _ => rfl) (relay_cases event)
  · simp only [conclude, hreading.authorizing event hphase, if_true]
    exact h.away rfl rfl rfl (by simp) (by simp)

theorem Authorized.onSettled (h : x.Authorized) {event : TaskStatusUpdateEvent}
    {replaced : Option StreamEvent} (hphase : x.phase = .settling event replaced)
    (result : Except Unit X402SettleResult) : (x.onSettled event replaced result).Authorized := by
  unfold RunState.onSettled
  rcases x.settle event result with ⟨terminal, calls⟩
  have hcalls : Authorized { x with gateCalls := x.gateCalls ++ calls } :=
    ⟨h.relayed, h.saving, h.settling⟩
  cases terminal with
  | error error => exact hcalls.cleanup .threw
  | ok terminal =>
      refine ⟨fun hpaid e output hmem houtput => ?_, by simp [yieldTerminal],
        by simp [yieldTerminal]⟩
      rcases List.mem_append.mp hmem with hold | hnew
      · exact h.relayed hpaid e output hold houtput
      · cases replaced with
        | none =>
            obtain ⟨rfl, -⟩ := Yield.relayed.inj (List.mem_singleton.mp hnew)
            exact h.settling hpaid event hphase houtput
        | some source => simp at hnew

theorem Authorized.step {a : RunAction} (h : x.Authorized) (hreading : x.Reading)
    (hstep : runSystem.step x a x') : x'.Authorized := by
  obtain ⟨-, hperform⟩ := hstep
  cases perform_cases hperform with
  | started hp =>
      have hyields := (hreading.early (by rw [hp]; rfl)).2.1
      unfold start
      split
      · exact h.away rfl rfl rfl (by simp) (by simp)
      · split
        · exact h.away rfl rfl rfl (by simp) (by simp)
        · exact authorized_of_silent hyields (by simp [prepare]) (by simp [prepare])
  | scopeDone hp => exact h.away rfl rfl rfl (by simp) (by simp)
  | haltStoring hp => exact h.away rfl rfl rfl (by simp) (by simp)
  | exitDone stored hp => exact h.away rfl rfl rfl (by simp) (by simp)
  | exitStoring kind hp => exact h.away rfl rfl rfl (by simp) (by simp)
  | pulled hp => exact h.onIterate _ _
  | ended hp =>
      obtain ⟨task, hframe⟩ := x.finishLoop_frame
      exact hframe ▸ h.away rfl rfl rfl (by simp) (by simp)
  | closedOutside hp => exact h.away rfl rfl rfl (by simp) (by simp)
  | closedInside hp => exact h.cleanup .closed
  | dispatched outcome hp => exact h.onDispatched outcome
  | processed event hp =>
      have harmed : x.armWatchdog.Authorized := ⟨h.relayed, h.saving, h.settling⟩
      rcases process_cases (x := x) event with ⟨heq, -⟩ | ⟨hrelayed, hauthorized⟩
      · exact heq ▸ harmed.away rfl rfl rfl (by simp) (by simp)
      · exact harmed.relay hauthorized hrelayed
  | drained hp =>
      obtain ⟨task, hframe⟩ := x.finishLoop_frame
      exact hframe ▸ h.away rfl rfl rfl (by simp) (by simp)
  | woken result q hp hq => exact h.onIterate q result
  | opened outcome hp =>
      have hyields := (hreading.early (by rw [hp]; rfl)).2.1
      unfold onOpened
      split
      · exact h.away rfl rfl rfl (by simp) (by simp)
      · rename_i event
        exact h.elsewhere [.direct (.status event)] (by simp) rfl rfl rfl (by simp) (by simp)
      · exact authorized_of_silent hyields (by simp [prepare]) (by simp [prepare])
  | read result hp =>
      unfold onRead
      split
      · exact h.away rfl rfl rfl (by simp) (by simp)
      · split
        · exact h.away rfl rfl rfl (by simp) (by simp)
        · split <;> exact h.away rfl rfl rfl (by simp) (by simp)
  | marked ok hp =>
      cases ok with
      | false => exact h.away rfl rfl rfl (by simp [onMarked]) (by simp [onMarked])
      | true =>
          have hcases := x.dispatch_cases
          simp only [onMarked, if_true]
          generalize x.dispatch = x' at hcases ⊢
          cases hcases <;> exact h.away rfl rfl rfl (by simp) (by simp)
  | scopeStored event ok hp =>
      exact h.elsewhere [.direct (.status event)] (by simp) rfl rfl rfl (by simp) (by simp)
  | exitStored ok hp => exact h.away rfl rfl rfl (by simp) (by simp)
  | saved event hp =>
      exact h.relay (fun hpaid => h.saving hpaid event hp)
        (.yielded (.status event) x.task x.history x.accumulatedArtifacts
          (hreading.saving event hp))
  | unsaved event hp => exact h.cleanup .threw
  | stored ok hp => exact h.cleanup .returned
  | authorized event result hp => exact h.onAuthorized hreading hp result
  | settled event replaced result hp => exact h.onSettled hp result
  | exitSettled kind event result hp =>
      unfold onExitSettled
      rcases x.settle event result with ⟨terminal, calls⟩
      have hcalls : Authorized { x with gateCalls := x.gateCalls ++ calls } :=
        ⟨h.relayed, h.saving, h.settling⟩
      cases terminal with
      | error error => exact hcalls.away rfl rfl rfl (by simp) (by simp)
      | ok terminal => exact hcalls.exitYield kind terminal
  | rearmed => exact ⟨h.relayed, h.saving, h.settling⟩
  | timedOut hw event hterminal => exact ⟨h.relayed, h.saving, h.settling⟩
  | aborted contextId registry hcancel hown hfirst => exact ⟨h.relayed, h.saving, h.settling⟩
  | canceled contextId registry hcancel hother => exact ⟨h.relayed, h.saving, h.settling⟩
  | environment registry abortControllers => exact ⟨h.relayed, h.saving, h.settling⟩

/-! ## The debt -/

/-- What has been settled at each place of a run that was given a settlement. -/
def Owed (x : RunState) : Prop :=
  match x.phase with
  | .reading | .marking | .resuming .sent | .resuming .unsent | .resuming (.rejected _) | .parked
  | .delivered _ | .authorizing _ | .saving _ | .yielded => x.settled = [] ∧ x.gateCalls = []
  | .resuming (.interrupted stored) =>
      (x.settled = [] ∧ x.gateCalls = []) ∧ stored.status.state.isTerminal = true
  | .exitSettling _ event | .settling event _ =>
      x.settled = [event] ∧ x.gateCalls = [] ∧ event.status.state.isTerminal = true
  | .exitYielded _ | .exitPersisting | .lastYielded | .persisting | .finished _ => x.Discharged
  | _ => False

/-- The terminal that an aborted run will still see. -/
def Woken (x : RunState) : Prop :=
  match x.phase with
  | .parked => ∃ event, event.isTerminal = true ∧ x.queue.waiter = .resolved (.value event)
  | .delivered event | .authorizing event => event.isTerminal = true
  | _ => False

structure Owes (x : RunState) : Prop where
  owed : x.Owed
  /-- A closed queue has a terminal in it, or the run has taken it. -/
  ended : x.phase.reads = true → x.queue.closed = true →
    ∃ event ∈ x.consumed ++ x.queue.pending, event.isTerminal = true
  woken : x.phase.reads = true → x.aborted = true → x.Woken
  parked : x.phase = .parked → x.queue.waiter ≠ .resolved .done
  refused : ∀ y ∈ x.yields, y.isRefused = true → x.settled ≠ []

theorem Owes.unpaid (h : x.Owes) (hreads : x.phase.reads = true) :
    x.settled = [] ∧ x.gateCalls = [] := by
  have howed := h.owed
  unfold Owed at howed
  cases hp : x.phase with
  | resuming outcome =>
      cases outcome with
      | sent => simpa only [hp] using howed
      | _ => simp [hp, Phase.reads] at hreads
  | reading => simpa only [hp] using howed
  | marking => simpa only [hp] using howed
  | parked => simpa only [hp] using howed
  | delivered event => simpa only [hp] using howed
  | authorizing event => simpa only [hp] using howed
  | saving event => simpa only [hp] using howed
  | yielded => simpa only [hp] using howed
  | _ => simp [hp, Phase.reads] at hreads

theorem owes_of_outside (hreads : x.phase.reads = false) (howed : x.Owed)
    (hrefused : ∀ y ∈ x.yields, y.isRefused = true → x.settled ≠ []) : x.Owes where
  owed := howed
  ended h := by simp [hreads] at h
  woken h := by simp [hreads] at h
  parked h := by simp [h, Phase.reads] at hreads
  refused := hrefused

/-- An event taken by an aborted run is a terminal. -/
theorem Woken.terminal (h : x.Woken) {event : StreamEvent} (hhand : x.inHand = [event])
    (hparked : x.phase ≠ .parked) : event.isTerminal = true := by
  unfold Woken at h
  unfold inHand at hhand
  cases hp : x.phase with
  | parked => exact absurd hp hparked
  | delivered event' =>
      simp only [hp, List.cons.injEq, and_true] at h hhand
      exact hhand ▸ h
  | authorizing event' =>
      simp only [hp, List.cons.injEq, and_true] at h hhand
      exact hhand ▸ h
  | _ => simp [hp] at h

theorem Owes.relay (h : x.Owes) {event : StreamEvent} (hpaid : x.settlement.isSome = true)
    (hhand : x.inHand = [event]) (hreads : x.phase.reads = true) (hparked : x.phase ≠ .parked)
    (hrelayed : x.Relayed event x') : x'.Owes := by
  obtain ⟨hsettled, hcalls⟩ := h.unpaid hreads
  have hnotRefused : ∀ y ∈ x.yields ++ [.relayed event (x.deliver event)], y.isRefused = true →
      x.settled ≠ [] := by
    intro y hy hrefused
    rcases List.mem_append.mp hy with hold | hnew
    · exact h.refused y hold hrefused
    · simp [List.mem_singleton.mp hnew, Yield.isRefused] at hrefused
  have hterminal := fun haborted => (h.woken hreads haborted).terminal hhand hparked
  cases hrelayed with
  | yielded event task history accumulated hopen =>
      exact ⟨⟨hsettled, hcalls⟩, fun _ => h.ended hreads,
        fun _ haborted => by simp [hopen] at hterminal; simp [hterminal] at haborted, by simp,
        hnotRefused⟩
  | saving event task history hopen =>
      exact ⟨⟨hsettled, hcalls⟩, fun _ => h.ended hreads,
        fun _ haborted => by
          simp [StreamEvent.isTerminal, hopen] at hterminal; simp [hterminal] at haborted,
        by simp, h.refused⟩
  | settling event hterminal' _ =>
      refine owes_of_outside rfl ⟨by rw [hsettled]; rfl, hcalls, hterminal'⟩ fun y hy _ => by simp
  | concluded event task history _ hfree => simp [hfree] at hpaid

/-! ### Asking the queue -/

/-- The answers of the queue to a run whose queue ends with a terminal, if it ends. -/
theorem Owes.pull (h : x.Owes) (hreading : x.Reading)
    (hphase : x.phase = .yielded ∨ x.phase = .resuming .sent) : x.pull.Owes := by
  have hholds : x.phase.holds = true := by rcases hphase with hp | hp <;> rw [hp] <;> rfl
  have hreads : x.phase.reads = true := by rcases hphase with hp | hp <;> rw [hp] <;> rfl
  have hhand : x.inHand = [] := by rcases hphase with hp | hp <;> simp [inHand, hp]
  have hparked : x.phase ≠ .parked := by rcases hphase with hp | hp <;> simp [hp]
  have hunpaid := h.unpaid hreads
  obtain ⟨hsound, hidle⟩ := hreading.sound (.inl hholds)
  have hidle := hidle hparked
  have hpending : x.queue.pending = x.queue.buffer := by
    simp [AsyncEventQueue.pending, hidle]
  have haborted : x.aborted = false := by
    by_contra haborted
    have hwoken := h.woken hreads (by simpa using haborted)
    rcases hphase with hp | hp <;> simp [Woken, hp] at hwoken
  have hopen := hreading.consumed_open hholds hreads hhand
  unfold RunState.pull
  rw [haborted]
  rcases hsound.next_cases with ⟨item, rest, hbuffer, heq⟩ | ⟨hbuffer, hclosed, heq⟩ | ⟨-, hopen', heq⟩
  · rw [heq]
    have hqueue := x.queue_setQueue { x.queue with buffer := rest }
    refine ⟨hunpaid, fun _ hclosed => ?_, fun _ habort => ?_, by simp [RunState.onIterate],
      h.refused⟩
    · have hclosed : (x.setQueue { x.queue with buffer := rest }).queue.closed = true := hclosed
      rw [hqueue] at hclosed
      obtain ⟨event, hmem, hterminal⟩ := h.ended hreads hclosed
      have hrest : (x.setQueue { x.queue with buffer := rest }).queue.pending = rest := by
        rw [hqueue]
        simp [AsyncEventQueue.pending, hidle]
      refine ⟨event, ?_, hterminal⟩
      have hmoved : event ∈ (x.consumed ++ [item]) ++
          (x.setQueue { x.queue with buffer := rest }).queue.pending := by
        rw [hpending, hbuffer] at hmem
        rw [hrest]
        simpa using hmem
      exact hmoved
    · have habort : x.aborted = true := habort
      simp [haborted] at habort
  · -- An end without a terminal in front of it does not happen.
    obtain ⟨event, hmem, hterminal⟩ := h.ended hreads hclosed
    rw [hpending, hbuffer, List.append_nil] at hmem
    simp [hopen event hmem] at hterminal
  · rw [heq]
    have hqueue := x.queue_setQueue { x.queue with waiter := .waiting }
    refine ⟨hunpaid, fun _ hclosed => ?_, fun _ habort => ?_, fun _ => ?_, h.refused⟩
    · have hclosed : (x.setQueue { x.queue with waiter := .waiting }).queue.closed = true := hclosed
      rw [hqueue] at hclosed
      simp [hopen'] at hclosed
    · have habort : x.aborted = true := habort
      simp [haborted] at habort
    · have hwaiting : (x.setQueue { x.queue with waiter := .waiting }).queue.waiter ≠
          .resolved .done := by
        rw [hqueue]
        simp
      exact hwaiting

theorem Owes.wake (h : x.Owes) (hreading : x.Reading) (hphase : x.phase = .parked)
    {result : IterateResult StreamEvent String} {q : SinkQueue}
    (hq : x.queue.resume = some (result, q)) : ((x.setQueue q).onIterate result).Owes := by
  have hreads : x.phase.reads = true := by rw [hphase]; rfl
  have hunpaid := h.unpaid hreads
  have hsound := (hreading.sound (.inl (by rw [hphase]; rfl))).1
  have hqueue := x.queue_setQueue q
  cases hwaiter : x.queue.waiter with
  | idle => exact absurd hwaiter (hreading.parked hphase)
  | waiting => simp [AsyncEventQueue.resume, hwaiter] at hq
  | resolved w =>
      cases w with
      | done => exact absurd hwaiter (h.parked hphase)
      | error error => exact absurd hwaiter (hsound.calm error)
      | value event =>
          rw [AsyncEventQueue.resume_value hwaiter] at hq
          obtain ⟨rfl, rfl⟩ := Prod.mk.inj (Option.some.inj hq)
          refine ⟨hunpaid, fun _ hclosed => ?_, fun _ habort => ?_, by simp [RunState.onIterate],
            h.refused⟩
          · have hclosed : (x.setQueue { x.queue with waiter := .idle }).queue.closed = true :=
              hclosed
            rw [hqueue] at hclosed
            obtain ⟨last, hmem, hterminal⟩ := h.ended hreads hclosed
            have hmoved : last ∈ (x.consumed ++ [event]) ++
                (x.setQueue { x.queue with waiter := .idle }).queue.pending := by
              rw [hqueue]
              simpa [AsyncEventQueue.pending, hwaiter] using hmem
            exact ⟨last, hmoved, hterminal⟩
          · have hwoken := h.woken hreads habort
            simp only [Woken, hphase, hwaiter] at hwoken
            obtain ⟨event', hterminal, heq⟩ := hwoken
            obtain rfl : event = event' := by simpa using heq
            exact hterminal

/-! ### Around the run -/

theorem Owes.around (h : x.Owes) (hreading : x.Reading) {registry : Registry}
    {abortControllers : InsertionMap String ControllerId} {watchdog : Bool}
    (hfed : x.queue.Fed (registry.cells x.binding).queue)
    (hended : x.phase.reads = true → x.queue.closed = false →
      (registry.cells x.binding).queue.closed = true →
      ∃ event ∈ x.consumed ++ (registry.cells x.binding).queue.pending, event.isTerminal = true) :
    Owes { x with
      registry := registry, abortControllers := abortControllers, watchdog := watchdog } := by
  have hended' : x.phase.reads = true → (registry.cells x.binding).queue.closed = true →
      ∃ event ∈ x.consumed ++ (registry.cells x.binding).queue.pending,
        event.isTerminal = true := by
    intro hreads hclosed
    cases hbefore : x.queue.closed with
    | false => exact hended hreads hbefore hclosed
    | true =>
        rw [hfed.closed hbefore]
        exact h.ended hreads hbefore
  refine ⟨h.owed, hended', fun hreads habort => ?_, fun hphase => ?_, h.refused⟩
  · have hwoken := h.woken hreads habort
    unfold Woken at hwoken ⊢
    cases hp : x.phase with
    | parked =>
        simp only [hp] at hwoken ⊢
        obtain ⟨event, hterminal, hresolved⟩ := hwoken
        exact ⟨event, hterminal, hfed.resolved hresolved⟩
    | _ =>
        rw [hp] at hwoken
        exact hwoken
  · have hphase : x.phase = .parked := hphase
    have hreads : x.phase.reads = true := by rw [hphase]; rfl
    have hholds : x.phase.holds = true := by rw [hphase]; rfl
    have hsound := (hreading.sound (.inl hholds)).1
    have hdone : (registry.cells x.binding).queue.waiter ≠ .resolved .done := by
      cases hwaiter : x.queue.waiter with
      | idle => exact absurd hwaiter (hreading.parked hphase)
      | resolved w =>
          rw [hfed.resolved hwaiter, ← hwaiter]
          exact h.parked hphase
      | waiting =>
          rcases hfed.waiting hwaiter with heq | ⟨item, heq⟩ | heq
          · simp [heq, hwaiter]
          · simp [heq]
          · -- The queue cannot have been closed on an empty buffer.
            obtain ⟨event, hmem, hterminal⟩ := hended' hreads (by rw [heq])
            have hopen := hreading.consumed_open hholds hreads (by simp [inHand, hphase])
            have hmem : event ∈ x.consumed := by
              simpa [heq, AsyncEventQueue.pending, (hsound.waiting hwaiter).1] using hmem
            simp [hopen event hmem] at hterminal
    exact hdone

theorem ended_of_push {q q' : SinkQueue} {consumed : List StreamEvent} {event : StreamEvent}
    (hsound : q.Sound) (hopen : q.closed = false) (hterminal : event.isTerminal = true)
    (hq : q' = q ∨ q' = (q.push event).end) (hclosed : q'.closed = true) :
    ∃ event ∈ consumed ++ q'.pending, event.isTerminal = true := by
  rcases hq with rfl | rfl
  · simp [hopen] at hclosed
  · exact ⟨event, by simp [hsound.pending_push hopen], hterminal⟩

/-- A cancellation pushes its terminal and closes the queue, if the run is the bound one. -/
theorem cancelCurrent_queue {r registry : Registry} {agentId taskId contextId : String}
    (h : r.cancelCurrent agentId taskId contextId = .ok registry) (b : TaskBinding) :
    (registry.cells b).queue = (r.cells b).queue ∨ (registry.cells b).queue =
      ((r.cells b).queue.push (.status (canceledEvent taskId contextId))).end := by
  unfold Registry.cancelCurrent at h
  split at h
  · obtain rfl := Except.ok.inj h
    exact .inl (by rw [Registry.sendToAgent_cells])
  · rename_i bound hbound
    split at h
    · simp at h
    · obtain rfl := Except.ok.inj h
      simp only [Registry.finish, Registry.pushStatus]
      by_cases heq : b = bound
      · subst heq
        refine .inr ?_
        rw [Registry.modifyCell_cells_self, Registry.modifyCell_cells_self,
          Registry.sendToAgent_cells]
      · refine .inl ?_
        rw [Registry.modifyCell_cells_of_ne _ _ heq, Registry.modifyCell_cells_of_ne _ _ heq,
          Registry.sendToAgent_cells]

theorem Owes.canceled (h : x.Owes) (hreading : x.Reading) {registry : Registry}
    {contextId : String}
    (hcancel : x.registry.cancelCurrent x.request.agentId x.request.taskId contextId =
      .ok registry) : Owes { x with registry := registry } :=
  h.around hreading (cancelCurrent_fed hcancel x.binding) fun hreads hopen =>
    have hsound := (hreading.sound (Phase.started_of_reads hreads)).1
    ended_of_push hsound hopen rfl (cancelCurrent_queue hcancel x.binding)

/-- The listener of a run that will see a terminal has nothing to do. -/
theorem Owes.abort (h : x.Owes) (hreading : x.Reading) (hwoken : x.phase.reads = true → x.Woken) :
    Owes { x.setQueue x.queue.onAbort with aborted := true } := by
  cases hreads : x.phase.reads with
  | false => exact owes_of_outside hreads h.owed h.refused
  | true =>
      have hwoken := hwoken hreads
      have hwaiter : x.queue.waiter ≠ .waiting := by
        by_cases hparked : x.phase = .parked
        · simp only [Woken, hparked] at hwoken
          obtain ⟨event, -, hresolved⟩ := hwoken
          simp [hresolved]
        · simp [(hreading.sound (Phase.started_of_reads hreads)).2 hparked]
      have hqueue := (x.queue_setQueue x.queue.onAbort).trans
        (AsyncEventQueue.onAbort_of_ne hwaiter)
      refine ⟨h.owed, fun _ hclosed => ?_, fun _ _ => ?_, fun hphase => ?_, h.refused⟩
      · have hclosed : (x.setQueue x.queue.onAbort).queue.closed = true := hclosed
        rw [hqueue] at hclosed
        obtain ⟨event, hmem, hterminal⟩ := h.ended hreads hclosed
        have hmem : event ∈ x.consumed ++ (x.setQueue x.queue.onAbort).queue.pending := by
          rwa [hqueue]
        exact ⟨event, hmem, hterminal⟩
      · unfold Woken at hwoken ⊢
        cases hp : x.phase with
        | parked =>
            simp only [hp] at hwoken
            obtain ⟨event, hterminal, hresolved⟩ := hwoken
            have hafter : (x.setQueue x.queue.onAbort).queue.waiter = .resolved (.value event) := by
              rwa [hqueue]
            simp only [setQueue, hp]
            exact ⟨event, hterminal, hafter⟩
        | _ =>
            rw [hp] at hwoken
            simp only [setQueue, hp]
            exact hwoken
      · have hafter : (x.setQueue x.queue.onAbort).queue.waiter ≠ .resolved .done := by
          rw [hqueue]
          exact h.parked hphase
        exact hafter

/-- An abort under the condition finds the run with a terminal in its hand or wakes it with
one. -/
theorem Owes.woken_of_cancel (h : x.Owes) (hreading : x.Reading) {registry : Registry}
    {contextId : String}
    (hcancel : x.registry.cancelCurrent x.request.agentId x.request.taskId contextId =
      .ok registry)
    (hown : x.abortControllers.get? x.request.taskId = some x.controller)
    (hprompt : x.Live → x.Awaits) (hreads : x.phase.reads = true) :
    Woken { x with registry := registry } := by
  by_cases hlive : x.Live
  · have hphase := (hprompt hlive).1
    have hconcluding := concluding_of_cancel hreading (hprompt hlive) hcancel
    simp only [Concluding, hphase] at hconcluding
    obtain ⟨event, hterminal, hresolved, -⟩ := hconcluding
    simp only [Woken, hphase]
    exact ⟨event, hterminal, hresolved⟩
  · have hdecided : x.decided = true := by
      by_contra hnot
      exact hlive ⟨hown, by simpa using hnot⟩
    have hconsumed : ∃ e ∈ x.consumed, e.isTerminal = true := by
      simp only [decided, Bool.or_eq_true, List.any_eq_true] at hdecided
      rcases hdecided with (hconsumed | ⟨y, hy, hrefused⟩) | hsettling
      · exact hconsumed
      · exact absurd (h.unpaid hreads).1 (h.refused y hy hrefused)
      · split at hsettling
        · rename_i hp
          simp [hp, Phase.reads] at hreads
        · simp at hsettling
    obtain ⟨e, hmem, hterminal⟩ := hconsumed
    rcases Phase.early_or_holds hreads with hearly | hholds
    · simp [(hreading.early hearly).1] at hmem
    · have hmem : some e ∈ x.sources ++ x.inHand.map some :=
        hreading.taken hholds ▸ List.mem_map_of_mem hmem
      have hhand : e ∈ x.inHand := by
        rcases List.mem_append.mp hmem with hold | hhand
        · simp [hreading.undecided hreads e hold] at hterminal
        · simpa using hhand
      unfold inHand at hhand
      unfold Woken
      cases hp : x.phase with
      | delivered event =>
          simp only [hp, List.mem_singleton] at hhand ⊢
          exact hhand ▸ hterminal
      | authorizing event =>
          simp only [hp, List.mem_singleton] at hhand ⊢
          exact hhand ▸ hterminal
      | saving event =>
          simp only [hp, List.mem_singleton] at hhand
          rw [hhand, StreamEvent.isTerminal, hreading.saving event hp] at hterminal
          simp at hterminal
      | settling event replaced => simp [hp, Phase.reads] at hreads
      | _ => simp [hp] at hhand

/-! ### Settling -/

theorem settle_ok {event terminal : TaskStatusUpdateEvent} {calls : List GateCall}
    {result : Except Unit X402SettleResult} (hpaid : x.settlement.isSome = true)
    (h : x.settle event result = (.ok terminal, calls)) :
    calls = [.clear] ∨ event.status.state = .completed ∧
      (∃ obligation, x.settlement = some (.deferred obligation)) ∧
      calls = [.settle event, .clear] := by
  obtain ⟨settlement, hsettlement⟩ := Option.isSome_iff_exists.mp hpaid
  simp only [settle, hsettlement] at h
  cases settlement with
  | settled metadata => exact .inl (Prod.mk.inj h).2.symm
  | deferred obligation =>
      unfold settleTerminal at h
      simp only at h
      split at h
      · exact .inl (Prod.mk.inj h).2.symm
      · rename_i hcompleted
        have hcompleted : event.status.state = .completed := by simpa using hcompleted
        split at h
        · simp at h
        · exact .inr ⟨hcompleted, ⟨obligation, hsettlement⟩, (Prod.mk.inj h).2.symm⟩
        · exact .inr ⟨hcompleted, ⟨obligation, hsettlement⟩, (Prod.mk.inj h).2.symm⟩

theorem discharged_of_settle {event terminal : TaskStatusUpdateEvent} {calls : List GateCall}
    {result : Except Unit X402SettleResult} (hpaid : x.settlement.isSome = true)
    (howed : x.settled = [event] ∧ x.gateCalls = [] ∧ event.status.state.isTerminal = true)
    (h : x.settle event result = (.ok terminal, calls)) :
    Discharged { x with gateCalls := x.gateCalls ++ calls } := by
  obtain ⟨hsettled, hcalls, hterminal⟩ := howed
  refine ⟨event, hsettled, hterminal, ?_⟩
  simp only [hcalls, List.nil_append]
  exact settle_ok hpaid h

/-- A result that is no error of the gate leaves none. -/
theorem settle_isOk (event : TaskStatusUpdateEvent) {result : Except Unit X402SettleResult}
    (h : result.isOk = true) : ∃ terminal calls, x.settle event result = (.ok terminal, calls) := by
  cases result with
  | error error => simp [Except.isOk, Except.toBool] at h
  | ok result =>
      unfold settle
      split
      · unfold settleTerminal
        split
        · exact ⟨_, _, rfl⟩
        · split
          · exact ⟨_, _, rfl⟩
          · cases result <;> exact ⟨_, _, rfl⟩
      · exact ⟨_, _, rfl⟩

theorem owes_of_discharged (h : x.Discharged) (howed : x.Discharged → x'.Owed)
    (hreads : x'.phase.reads = false) (hsettled : x'.settled = x.settled) : x'.Owes := by
  refine owes_of_outside hreads (howed h) fun _ _ _ => ?_
  obtain ⟨event, heq, -⟩ := h
  simp [hsettled, heq]

theorem owes_exitWith (hpaid : x.settlement.isSome = true) (kind : ExitKind)
    {event : TaskStatusUpdateEvent} (hunpaid : x.settled = [] ∧ x.gateCalls = [])
    (hterminal : event.status.state.isTerminal = true) : (x.exitWith kind event).Owes := by
  rw [RunState.exitWith, if_pos hpaid]
  exact owes_of_outside rfl ⟨by rw [hunpaid.1]; rfl, hunpaid.2, hterminal⟩ fun _ _ _ => by simp

theorem Owes.onDispatched (h : x.Owes) (hreading : x.Reading) (hpaid : x.settlement.isSome = true)
    {outcome : DispatchOutcome} (hphase : x.phase = .resuming outcome) :
    (x.onDispatched outcome).Owes := by
  have howed := h.owed
  unfold Owed at howed
  cases outcome with
  | sent =>
      have harmed : x.armWatchdog.Owes := ⟨h.owed, h.ended, h.woken, h.parked, h.refused⟩
      exact harmed.pull hreading.armWatchdog (.inr hphase)
  | unsent =>
      simp only [hphase] at howed
      exact owes_exitWith hpaid .unreachable howed rfl
  | rejected rejection =>
      simp only [hphase] at howed
      exact owes_exitWith (x := x.setQueue x.queue.end) hpaid .rejected howed rfl
  | interrupted stored =>
      simp only [hphase] at howed
      exact owes_exitWith (x := x.setQueue x.queue.end) hpaid (.interrupted stored) howed.1 howed.2

theorem Owes.onRead (h : x.Owes) (hphase : x.phase = .reading)
    (result : Except Unit (Option Task)) : (x.onRead result).Owes := by
  have hunpaid := h.unpaid (by rw [hphase]; rfl)
  unfold RunState.onRead
  split
  · exact owes_of_outside rfl hunpaid h.refused
  · rename_i current
    cases hstored : current.filter (·.status.state.isTerminal) with
    | some stored =>
        have hterminal := (Option.filter_eq_some_iff.mp hstored).2
        exact owes_of_outside rfl ⟨hunpaid, hterminal⟩ h.refused
    | none =>
        simp only
        split
        · exact owes_of_outside rfl hunpaid h.refused
        · refine ⟨hunpaid, fun _ => h.ended (by rw [hphase]; rfl), fun _ habort => ?_, by simp,
            h.refused⟩
          have hwoken := h.woken (by rw [hphase]; rfl) habort
          simp [Woken, hphase] at hwoken

theorem Owes.dispatch (h : x.Owes) (hphase : x.phase = .marking) : x.dispatch.Owes := by
  have hreads : x.phase.reads = true := by rw [hphase]; rfl
  have hunpaid := h.unpaid hreads
  have hcases := x.dispatch_cases
  generalize x.dispatch = x' at hcases ⊢
  cases hcases with
  | refused => exact owes_of_outside rfl hunpaid h.refused
  | garbled => exact owes_of_outside rfl hunpaid h.refused
  | assigned registry task sent _ hstored hcell =>
      cases sent with
      | false => exact owes_of_outside rfl hunpaid h.refused
      | true =>
          refine ⟨hunpaid, fun _ hclosed => ?_, fun _ habort => ?_, by simp, h.refused⟩
          · have hclosed : (registry.cells x.binding).queue.closed = true := hclosed
            rw [hcell] at hclosed
            obtain ⟨event, hmem, hterminal⟩ := h.ended hreads hclosed
            have hmem : event ∈ x.consumed ++ (registry.cells x.binding).queue.pending := by
              rwa [hcell]
            exact ⟨event, hmem, hterminal⟩
          · have hwoken := h.woken hreads habort
            simp [Woken, hphase] at hwoken

theorem Owes.process (h : x.Owes) (hpaid : x.settlement.isSome = true) {event : StreamEvent}
    (hphase : x.phase = .delivered event) : (x.process event).Owes := by
  have hreads : x.phase.reads = true := by rw [hphase]; rfl
  have hunpaid := h.unpaid hreads
  rcases process_cases (x := x) event with ⟨heq, -⟩ | ⟨hrelayed, -⟩
  · rw [heq]
    refine ⟨hunpaid, fun _ => h.ended hreads, fun _ habort => ?_, by simp, h.refused⟩
    have hwoken := h.woken hreads habort
    simpa only [Woken, hphase] using hwoken
  · have harmed : x.armWatchdog.Owes := ⟨h.owed, h.ended, h.woken, h.parked, h.refused⟩
    exact harmed.relay hpaid (by simp [inHand, armWatchdog, hphase]) hreads
      (by simp [armWatchdog, hphase]) hrelayed

theorem Owes.onAuthorized (h : x.Owes) (hpaid : x.settlement.isSome = true) {event : StreamEvent}
    (hphase : x.phase = .authorizing event) {result : Except Unit (Option JsonObject)}
    (hok : result.isOk = true) : (x.onAuthorized event result).Owes := by
  have hreads : x.phase.reads = true := by rw [hphase]; rfl
  have hunpaid := h.unpaid hreads
  unfold RunState.onAuthorized
  split
  · simp [Except.isOk, Except.toBool] at hok
  · have hgranted : Owes { x with deliveryAuthorized := true } :=
      ⟨h.owed, h.ended, h.woken, h.parked, h.refused⟩
    exact hgranted.relay hpaid (by simp [inHand, hphase]) hreads (by simp [hphase])
      (relay_cases event)
  · simp only [conclude, hpaid, if_true]
    exact owes_of_outside rfl ⟨by rw [hunpaid.1]; rfl, hunpaid.2, rfl⟩ fun _ _ _ => by simp

theorem Owes.onSettled (h : x.Owes) (hpaid : x.settlement.isSome = true)
    {event : TaskStatusUpdateEvent} {replaced : Option StreamEvent}
    (hphase : x.phase = .settling event replaced) {result : Except Unit X402SettleResult}
    (hok : result.isOk = true) : (x.onSettled event replaced result).Owes := by
  have howed := h.owed
  simp only [Owed, hphase] at howed
  obtain ⟨terminal, calls, heq⟩ := settle_isOk (x := x) event hok
  simp only [RunState.onSettled, heq]
  exact owes_of_discharged (discharged_of_settle hpaid howed heq) (fun h => h) rfl rfl

theorem Owes.onExitSettled (h : x.Owes) (hpaid : x.settlement.isSome = true) {kind : ExitKind}
    {event : TaskStatusUpdateEvent} (hphase : x.phase = .exitSettling kind event)
    {result : Except Unit X402SettleResult} (hok : result.isOk = true) :
    (x.onExitSettled kind event result).Owes := by
  have howed := h.owed
  simp only [Owed, hphase] at howed
  obtain ⟨terminal, calls, heq⟩ := settle_isOk (x := x) event hok
  simp only [RunState.onExitSettled, heq]
  obtain ⟨task, history, registry, controllers, hframe⟩ :=
    exitYield_frame (x := { x with gateCalls := x.gateCalls ++ calls }) kind terminal
  rw [hframe]
  exact owes_of_discharged (discharged_of_settle hpaid howed heq) (fun h => h) rfl rfl

/-- Nothing but the gate's answer gives a run a settlement. -/
theorem Turn.settlement {a : RunAction} (h : x.Turn a x') (ha : ∀ outcome, a ≠ .opened outcome) :
    x'.settlement = x.settlement := by
  have hcleanup : ∀ y : RunState, ∀ how, (y.cleanup how).settlement = y.settlement := by
    intro y how
    obtain ⟨registry, controllers, hframe⟩ := y.cleanup_frame how
    rw [hframe]
  have hiterate : ∀ (y : RunState) q result,
      ((y.setQueue q).onIterate result).settlement = y.settlement := by
    intro y q result
    cases result with
    | thrown error => exact hcleanup _ _
    | _ => rfl
  have hexit : ∀ (y : RunState) kind event, (y.exitWith kind event).settlement = y.settlement := by
    intro y kind event
    unfold exitWith
    split
    · rfl
    · obtain ⟨task, history, registry, controllers, hframe⟩ := y.exitYield_frame kind event
      rw [hframe]
  have hrelay : ∀ (y y' : RunState) event, y.Relayed event y' → y'.settlement = y.settlement := by
    intro y y' event hrelayed
    cases hrelayed <;> rfl
  have hconclude : ∀ (y : RunState) event replaced,
      (y.conclude event replaced).settlement = y.settlement := by
    intro y event replaced
    unfold conclude
    split <;> rfl
  have hfinish : x.finishLoop.settlement = x.settlement := by
    obtain ⟨task, hframe⟩ := x.finishLoop_frame
    rw [hframe]
  cases h with
  | started hp =>
      unfold start
      split
      · rfl
      · split <;> rfl
  | pulled hp => exact hiterate _ _ _
  | ended hp => exact hfinish
  | closedInside hp => exact hcleanup _ _
  | dispatched outcome hp =>
      cases outcome with
      | sent => exact hiterate x.armWatchdog _ _
      | unsent => exact hexit _ _ _
      | rejected rejection => exact hexit (x.setQueue x.queue.end) _ _
      | interrupted stored => exact hexit (x.setQueue x.queue.end) _ _
  | processed event hp =>
      rcases process_cases (x := x) event with ⟨heq, -⟩ | ⟨hrelayed, -⟩
      · rw [heq]
        rfl
      · exact hrelay x.armWatchdog _ event hrelayed
  | drained hp => exact hfinish
  | woken result q hp hq => exact hiterate _ _ _
  | opened outcome hp => exact absurd rfl (ha outcome)
  | read result hp =>
      unfold onRead
      split
      · rfl
      · split
        · rfl
        · split <;> rfl
  | marked ok hp =>
      cases ok with
      | false => rfl
      | true =>
          have hcases := x.dispatch_cases
          simp only [onMarked, if_true]
          generalize x.dispatch = x' at hcases ⊢
          cases hcases <;> rfl
  | unsaved event hp => exact hcleanup _ _
  | stored ok hp => exact hcleanup _ _
  | authorized event result hp =>
      unfold onAuthorized
      split
      · exact hcleanup _ _
      · exact hrelay { x with deliveryAuthorized := true } _ event (relay_cases event)
      · exact hconclude { x with registry := _ } _ _
  | settled event replaced result hp =>
      unfold onSettled
      rcases x.settle event result with ⟨terminal, calls⟩
      cases terminal with
      | error error => exact hcleanup { x with gateCalls := x.gateCalls ++ calls } _
      | ok terminal => rfl
  | exitSettled kind event result hp =>
      unfold onExitSettled
      rcases x.settle event result with ⟨terminal, calls⟩
      cases terminal with
      | error error => rfl
      | ok terminal =>
          obtain ⟨task, history, registry, controllers, hframe⟩ :=
            exitYield_frame (x := { x with gateCalls := x.gateCalls ++ calls }) kind terminal
          simp only [hframe]
  | _ => rfl

theorem Owes.step {a : RunAction} (h : x.Owes) (hpaid : x.settlement.isSome = true)
    (hreading : x.Reading) (hclean : x.SettlesCleanly a) (hstep : runSystem.step x a x') :
    x'.Owes := by
  obtain ⟨hrely, hperform⟩ := hstep
  have howed := h.owed
  unfold Owed at howed
  have hcleanup : ∀ how, x.Discharged → (x.cleanup how).Owes := by
    intro how hdischarged
    obtain ⟨registry, controllers, hframe⟩ := x.cleanup_frame how
    rw [hframe]
    exact owes_of_discharged hdischarged (fun h => h) rfl rfl
  cases perform_cases hperform with
  | started hp => simp [hp] at howed
  | scopeDone hp => simp [hp] at howed
  | haltStoring hp => simp [hp] at howed
  | exitDone stored hp =>
      simp only [hp] at howed
      exact owes_of_discharged howed (fun h => h) rfl rfl
  | exitStoring kind hp =>
      simp only [hp] at howed
      exact owes_of_discharged howed (fun h => h) rfl rfl
  | pulled hp => exact h.pull hreading (.inl hp)
  | ended hp =>
      simp only [hp] at howed
      obtain ⟨task, hframe⟩ := x.finishLoop_frame
      rw [hframe]
      exact owes_of_discharged howed (fun h => h) rfl rfl
  | closedOutside hp =>
      rcases hp with hp | hp | hp | ⟨kind, hp⟩
      · simp [hp] at howed
      · simp [hp] at howed
      · simp [hp] at howed
      · simp only [hp] at howed
        exact owes_of_discharged howed (fun h => h) rfl rfl
  | closedInside hp =>
      rcases hp with hp | hp
      · exact absurd hp (hclean hpaid)
      · simp only [hp] at howed
        exact hcleanup .closed howed
  | dispatched outcome hp => exact h.onDispatched hreading hpaid hp
  | processed event hp => exact h.process hpaid hp
  | drained hp => simp [hp] at howed
  | woken result q hp hq => exact h.wake hreading hp hq
  | opened outcome hp => simp [hp] at howed
  | read result hp => exact h.onRead hp result
  | marked ok hp =>
      have hunpaid := h.unpaid (by rw [hp]; rfl)
      cases ok with
      | false => exact owes_of_outside rfl hunpaid h.refused
      | true => exact h.dispatch hp
  | scopeStored event ok hp => simp [hp] at howed
  | exitStored ok hp =>
      rcases hp with hp | hp
      · simp [hp] at howed
      · simp only [hp] at howed
        exact owes_of_discharged howed (fun h => h) rfl rfl
  | saved event hp =>
      exact h.relay hpaid (by simp [inHand, hp]) (by rw [hp]; rfl) (by simp [hp])
        (.yielded (.status event) x.task x.history x.accumulatedArtifacts (hreading.saving event hp))
  | unsaved event hp => exact absurd (hclean hpaid ⟨event, hp⟩) (by simp)
  | stored ok hp =>
      simp only [hp] at howed
      exact hcleanup .returned howed
  | authorized event result hp => exact h.onAuthorized hpaid hp hclean
  | settled event replaced result hp => exact h.onSettled hpaid hp hclean
  | exitSettled kind event result hp => exact h.onExitSettled hpaid hp hclean
  | rearmed => exact ⟨h.owed, h.ended, h.woken, h.parked, h.refused⟩
  | timedOut hw event hterminal =>
      refine h.around hreading (pushFinish_fed x.registry x.binding x.binding event)
        fun hreads hopen hclosed => ?_
      have hsound := (hreading.sound (Phase.started_of_reads hreads)).1
      have hlast : (StreamEvent.status event).isTerminal = true := hterminal
      refine ended_of_push hsound hopen hlast (.inr ?_) hclosed
      simp only [Registry.finish, Registry.pushStatus, Registry.modifyCell_cells_self]
      rfl
  | aborted contextId registry hcancel hown hfirst =>
      exact (h.canceled hreading hcancel).abort (hreading.canceled hcancel) fun hreads =>
        h.woken_of_cancel hreading hcancel hown (hclean hpaid hreads) hreads
  | canceled contextId registry hcancel hother => exact h.canceled hreading hcancel
  | environment registry abortControllers =>
      exact h.around hreading hrely.fed (hclean hpaid)

/-! ## Runs -/

/-- The run starts on the debt with a queue of its own. -/
theorem owes_prepare (h : x.Reading) (hphase : x.phase = .opening)
    (settlement : Option X402Settlement) : ({ x with settlement := settlement }.prepare).Owes := by
  obtain ⟨-, hyields, haborted, hunpaid, -⟩ := h.early (by rw [hphase]; rfl)
  refine ⟨hunpaid, fun _ hclosed => ?_, fun _ habort => ?_, by simp [prepare], fun y hy => ?_⟩
  · simp [prepare_queue] at hclosed
  · have habort : x.aborted = true := habort
    simp [haborted] at habort
  · have hy : y ∈ x.yields := hy
    simp [hyields] at hy

structure Indebted (x : RunState) : Prop where
  reading : x.Reading
  authorized : x.Authorized
  owes : x.settlement.isSome = true → x.Owes

theorem Indebted.unsettled (h : x.Indebted) (hphase : x.phase = .opening) :
    x.settlement.isSome = false := by
  by_contra hpaid
  have howed := (h.owes (Bool.of_not_eq_false hpaid)).owed
  simp [Owed, hphase] at howed

theorem Indebted.step {a : RunAction} (h : x.Indebted) (hclean : x.SettlesCleanly a)
    (hstep : runSystem.step x a x') : x'.Indebted := by
  refine ⟨h.reading.step hstep, h.authorized.step h.reading hstep, fun hpaid => ?_⟩
  have hturn := perform_cases hstep.2
  by_cases hopened : ∃ outcome, a = .opened outcome
  · obtain ⟨outcome, rfl⟩ := hopened
    cases hturn with
    | opened _ hphase =>
        have hunsettled := h.unsettled hphase
        cases outcome with
        | error error => exact absurd hpaid (by simpa [onOpened] using hunsettled)
        | ok outcome =>
            cases outcome with
            | halt event =>
                exact absurd hpaid (by simpa [onOpened, emit, recordStatus] using hunsettled)
            | proceed settlement => exact owes_prepare h.reading hphase settlement
  · have hsame := hturn.settlement fun outcome heq => hopened ⟨outcome, heq⟩
    rw [hsame] at hpaid
    exact (h.owes hpaid).step hpaid h.reading hclean hstep

theorem indebted_of_fresh (h : x.Fresh) : x.Indebted where
  reading := reading_of_fresh h
  authorized := authorized_of_silent h.yields (by simp [h.phase]) (by simp [h.phase])
  owes hpaid := by simp [h.settlement] at hpaid

/-- At most one terminal was settled, and charged only if it completed the task. -/
def SettledOnce (x : RunState) : Prop :=
  x.settled.length ≤ 1 ∧ ∀ event, .settle event ∈ x.gateCalls →
    event.status.state = .completed ∧ x.settled = [event]

theorem settledOnce_of_unpaid (h : x.settled = [] ∧ x.gateCalls = []) : x.SettledOnce := by
  simp [SettledOnce, h.1, h.2]

theorem Discharged.once (h : x.Discharged) : x.SettledOnce := by
  obtain ⟨event, hsettled, -, hclear | ⟨hcompleted, -, hboth⟩⟩ := h
  · simp [SettledOnce, hsettled, hclear]
  · simpa [SettledOnce, hsettled, hboth] using hcompleted

theorem Owed.once (h : x.Owed) : x.SettledOnce := by
  unfold Owed at h
  split at h
  case h_11 => exact settledOnce_of_unpaid h.1
  case h_12 | h_13 => simp [SettledOnce, h.1, h.2.1]
  case h_14 | h_15 | h_16 | h_17 | h_18 => exact h.once
  case h_19 => exact h.elim
  all_goals exact settledOnce_of_unpaid h

section Witness

/-- A run on credit, dispatched and parked on its queue. -/
private def creditRun : RunState :=
  ((((((messageRun connectedRegistry [textPart "hello"] true).after .next).after
    (.opened (.ok (.proceed (some (.deferred .null)))))).after (.read (.ok none))).after
      (.marked true)).after .resume)

private theorem creditRun_reachable : (runSystem.restrict SettlesCleanly).Reachable creditRun := by
  have h₀ : (runSystem.restrict SettlesCleanly).Reachable
      (messageRun connectedRegistry [textPart "hello"] true) :=
    .of_init (connectedRegistry_fresh _ _)
  have h₁ := after_reachable h₀ .next trivial trivial (by decide +kernel)
  have h₂ := after_reachable h₁ (.opened (.ok (.proceed (some (.deferred .null))))) trivial
    trivial (by decide +kernel)
  have h₃ := after_reachable h₂ (.read (.ok none)) trivial trivial (by decide +kernel)
  have h₄ := after_reachable h₃ (.marked true) trivial trivial (by decide +kernel)
  exact after_reachable h₄ .resume trivial trivial (by decide +kernel)

private def answer (state : TaskState) : TaskStatusUpdateEvent where
  taskId := "task"
  contextId := "context"
  final := state.isTerminal
  status :=
    { state := state
      message := some { messageId := "answer", role := .agent, parts := [textPart "done"] } }

private def completed : Registry :=
  (creditRun.registry.pushStatus creditRun.binding (answer .completed)).finish creditRun.binding

private def chargedRun : RunState :=
  ((((((creditRun.after (.environment completed creditRun.abortControllers)).after .resume).after
    .resume).after (.authorized (.ok none))).after (.settled (.ok (.settled [])))).after
      .next).after (.persisted true)

/-- The consumer is busy with the agent's first status when the task is canceled. -/
private def working : Registry :=
  creditRun.registry.pushStatus creditRun.binding (answer .working)

private def abandonedRun : RunState :=
  (((((((creditRun.after (.environment working creditRun.abortControllers)).after .resume).after
    .resume).after (.authorized (.ok none))).after (.cancel "context")).after .next).after
      .resume).after (.persisted true)

end Witness

end RunState

end VicoopBridge
