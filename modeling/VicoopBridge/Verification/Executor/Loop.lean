import VicoopBridge.Verification.Executor.Cleanup

/-! # The loop of a run

What a run has taken from its queue is what it has yielded and the event in its hand. Until
its queue is closed its binding stays registered. -/

namespace VicoopBridge

open Library

namespace Yield

/-- The event of the queue it stands for. -/
def source : Yield → Option StreamEvent
  | .relayed event _ | .refused event _ => some event
  | .direct _ => none

def output : Yield → StreamEvent
  | .relayed _ output | .refused _ output | .direct output => output

def isRefused : Yield → Bool
  | .refused .. => true
  | _ => false

end Yield

/-- The run has not yet made a queue, or nobody else has heard of it. -/
def Phase.early : Phase → Bool
  | .idle | .opening | .reading | .marking => true
  | _ => false

/-- The places from which the run goes on to ask its queue for events. -/
def Phase.reads : Phase → Bool
  | .reading | .marking | .resuming .sent | .parked | .delivered _ | .authorizing _ | .saving _
  | .yielded => true
  | _ => false

namespace RunState

variable {x x' : RunState}

def sources (x : RunState) : List (Option StreamEvent) := x.yields.map Yield.source

def outputs (x : RunState) : List StreamEvent := x.yields.map Yield.output

/-- The event as it goes out when there is nothing to settle. -/
def deliver (x : RunState) : StreamEvent → StreamEvent
  | .artifact event => .artifact event
  | .status event => .status (x.withOrigin event)

/-- Taken from the queue and not yet yielded. -/
def inHand (x : RunState) : List StreamEvent :=
  match x.phase with
  | .delivered event | .authorizing event => [event]
  | .saving event => [.status event]
  | .settling event replaced => [replaced.getD (.status event)]
  | _ => []

theorem sources_append (ys : List Yield) {y : Yield} {event : StreamEvent}
    (h : y.source = some event) :
    (ys ++ [y]).map Yield.source = ys.map Yield.source ++ [some event] := by
  simp [h]

/-! ## Relaying one event -/

/-- What becomes of an event the run passes on. -/
inductive Relayed (x : RunState) : StreamEvent → RunState → Prop where
  | yielded (event : StreamEvent) (task : Task) (history : List Message)
      (accumulated : List Artifact) (hopen : event.isTerminal = false) :
      Relayed x event { x with
        yields := x.yields ++ [.relayed event (x.deliver event)], task := task, history := history
        accumulatedArtifacts := accumulated, phase := .yielded }
  | saving (event : TaskStatusUpdateEvent) (task : Task) (history : List Message)
      (hopen : event.status.state.isTerminal = false) :
      Relayed x (.status event)
        { x with task := task, history := history, phase := .saving event }
  | settling (event : TaskStatusUpdateEvent) (hterminal : event.status.state.isTerminal = true)
      (hpaid : x.settlement.isSome = true) :
      Relayed x (.status event)
        { x with settled := x.settled ++ [event], phase := .settling event none }
  | concluded (event : TaskStatusUpdateEvent) (task : Task) (history : List Message)
      (hterminal : event.status.state.isTerminal = true) (hfree : x.settlement = none) :
      Relayed x (.status event) { x with
        yields := x.yields ++ [.relayed (.status event) (x.deliver (.status event))]
        task := task, history := history, phase := .lastYielded }

theorem relay_cases (event : StreamEvent) : x.Relayed event (x.relay event) := by
  cases event with
  | artifact chunk => exact .yielded (.artifact chunk) _ _ _ rfl
  | status event =>
      unfold relay
      simp only
      split
      · rename_i hterminal
        unfold conclude
        split
        · rename_i hpaid
          exact .settling event hterminal hpaid
        · rename_i hfree
          exact .concluded event _ _ hterminal (by simpa using hfree)
      · rename_i hopen
        have hopen : event.status.state.isTerminal = false := by simpa using hopen
        split
        · exact .yielded (.status event) _ _ _ hopen
        · exact .saving event _ _ hopen

/-- An event with output waits for the gate's word once. -/
theorem process_cases (event : StreamEvent) :
    (x.process event = { x.armWatchdog with phase := .authorizing event } ∧
        x.settlement.isSome = true) ∨
      x.armWatchdog.Relayed event (x.process event) ∧
        (x.settlement.isSome = true → hasOutput event = true → x.deliveryAuthorized = true) := by
  unfold process
  simp only
  split
  · rename_i hall
    exact .inl ⟨rfl, hall.1⟩
  · rename_i hnot
    refine .inr ⟨relay_cases event, fun hpaid houtput => ?_⟩
    by_contra hunauthorized
    exact hnot ⟨hpaid, hunauthorized, houtput⟩

theorem cleanup_frame (how : Finish) :
    ∃ registry controllers, x.cleanup how = { x with
      watchdog := false, phase := .finished how, registry := registry
      abortControllers := controllers } := by
  obtain ⟨controllers, hframe, -⟩ := deleteController_frame
    ({ x with watchdog := false, phase := .finished how } : RunState).unbind
  exact ⟨_, controllers, hframe⟩

theorem exitYield_frame (kind : ExitKind) (terminal : TaskStatusUpdateEvent) :
    ∃ task history registry controllers, x.exitYield kind terminal = { x with
      yields := x.yields ++ [.direct (.status terminal)], phase := .exitYielded kind
      task := task, history := history, registry := registry, abortControllers := controllers } := by
  cases kind with
  | rejected => exact ⟨_, x.history, x.registry, x.abortControllers, rfl⟩
  | interrupted stored => exact ⟨_, x.history, x.registry, x.abortControllers, rfl⟩
  | unreachable =>
      unfold exitYield
      simp only [deleteController]
      split
      · exact ⟨_, _, _, _, rfl⟩
      · exact ⟨_, _, _, x.abortControllers, rfl⟩

theorem finishLoop_frame :
    ∃ task, x.finishLoop = { x with watchdog := false, phase := .persisting, task := task } := by
  unfold finishLoop
  simp only
  split
  · exact ⟨_, rfl⟩
  · exact ⟨x.task, rfl⟩

/-! ## The invariant -/

structure Reading (x : RunState) : Prop where
  early : x.phase.early = true → x.consumed = [] ∧ x.yields = [] ∧ x.aborted = false ∧
    (x.settled = [] ∧ x.gateCalls = []) ∧ ∀ k, x.abortControllers.get? k ≠ some x.controller
  taken : x.phase.holds = true → x.consumed.map some = x.sources ++ x.inHand.map some
  undecided : x.phase.reads = true → ∀ e, some e ∈ x.sources → e.isTerminal = false
  saving : ∀ event, x.phase = .saving event → event.status.state.isTerminal = false
  authorizing : ∀ event, x.phase = .authorizing event → x.settlement.isSome = true
  settling : ∀ event replaced, x.phase = .settling event replaced → x.settlement.isSome = true
  sound : x.phase.holds = true ∨ x.phase = .reading ∨ x.phase = .marking → x.queue.Sound ∧
    (x.phase ≠ .parked → x.queue.waiter = .idle)
  parked : x.phase = .parked → x.queue.waiter ≠ .idle
  bound : x.phase.holds = true → x.queue.closed = false →
    x.registry.bindings.get? x.request.taskId = some x.binding

theorem Phase.early_or_holds {p : Phase} (h : p.reads = true) : p.early = true ∨ p.holds = true := by
  cases p with
  | resuming outcome =>
      cases outcome with
      | sent => exact .inr rfl
      | _ => simp [Phase.reads] at h
  | _ => first | exact .inl rfl | exact .inr rfl | simp [Phase.reads] at h

theorem Phase.started_of_reads {p : Phase} (h : p.reads = true) :
    p.holds = true ∨ p = .reading ∨ p = .marking := by
  cases p with
  | resuming outcome =>
      cases outcome with
      | sent => exact .inl rfl
      | _ => simp [Phase.reads] at h
  | reading => exact .inr (.inl rfl)
  | marking => exact .inr (.inr rfl)
  | _ => first | exact .inl rfl | simp [Phase.reads] at h

/-- Before its queue exists and after it was given up nothing is claimed. -/
theorem reading_of_outside (hearly : x.phase.early = false) (hholds : x.phase.holds = false) :
    x.Reading where
  early h := by simp [hearly] at h
  taken h := by simp [hholds] at h
  undecided h := by
    rcases Phase.early_or_holds h with h | h
    · simp [hearly] at h
    · simp [hholds] at h
  saving event h := by simp [h, Phase.holds] at hholds
  authorizing event h := by simp [h, Phase.holds] at hholds
  settling event replaced h := by simp [h, Phase.holds] at hholds
  sound h := by
    rcases h with h | h | h
    · simp [hholds] at h
    · simp [h, Phase.early] at hearly
    · simp [h, Phase.early] at hearly
  parked h := by simp [h, Phase.holds] at hholds
  bound h := by simp [hholds] at h

theorem reading_cleanup (how : Finish) : (x.cleanup how).Reading := by
  obtain ⟨registry, controllers, hframe⟩ := x.cleanup_frame how
  rw [hframe]
  exact reading_of_outside rfl rfl

/-- A run that reads on with empty hands has taken no terminal. -/
theorem Reading.consumed_open (h : x.Reading) (hholds : x.phase.holds = true)
    (hreads : x.phase.reads = true) (hhand : x.inHand = []) :
    ∀ e ∈ x.consumed, e.isTerminal = false := by
  have htaken : x.consumed.map some = x.sources := by simpa [hhand] using h.taken hholds
  exact fun e he => h.undecided hreads e (htaken ▸ List.mem_map_of_mem he)

/-! ### Relaying -/

/-- From the place where the run holds `event` it does with it what it does. -/
theorem Reading.relayed (h : x.Reading) {event : StreamEvent} (hhand : x.inHand = [event])
    (hholds : x.phase.holds = true) (hreads : x.phase.reads = true) (hparked : x.phase ≠ .parked)
    (hrelayed : x.Relayed event x') : x'.Reading := by
  have htaken : x.consumed.map some = x.sources ++ [some event] := by
    simpa [hhand] using h.taken hholds
  have hsound := h.sound (.inl hholds)
  have hqueue : x.queue.Sound ∧ x.queue.waiter = .idle := ⟨hsound.1, hsound.2 hparked⟩
  have hundecided := h.undecided hreads
  have hbound := h.bound hholds
  have hsources : ∀ output, (x.yields ++ [Yield.relayed event output]).map Yield.source =
      x.sources ++ [some event] := fun _ => sources_append _ rfl
  cases hrelayed with
  | yielded event task history accumulated hopen =>
      refine ⟨by simp [Phase.early], fun _ => ?_, fun _ e he => ?_, by simp, by simp, by simp,
        fun _ => ⟨hqueue.1, fun _ => hqueue.2⟩, by simp, fun _ => hbound⟩
      · exact htaken.trans ((hsources _).symm.trans (List.append_nil _).symm)
      · have he : some e ∈ x.sources ++ [some event] := (hsources _).subst (motive := (some e ∈ ·)) he
        rcases List.mem_append.mp he with hold | hnew
        · exact hundecided e hold
        · rw [Option.some.inj (List.mem_singleton.mp hnew)]
          exact hopen
  | saving event task history hopen =>
      exact ⟨by simp [Phase.early], fun _ => htaken, fun _ => hundecided, by simpa using hopen,
        by simp, by simp, fun _ => ⟨hqueue.1, fun _ => hqueue.2⟩, by simp, fun _ => hbound⟩
  | settling event hterminal hpaid =>
      exact ⟨by simp [Phase.early], fun _ => htaken, by simp [Phase.reads], by simp, by simp,
        fun _ _ _ => hpaid, fun _ => ⟨hqueue.1, fun _ => hqueue.2⟩, by simp, fun _ => hbound⟩
  | concluded event task history hterminal hfree =>
      exact ⟨by simp [Phase.early],
        fun _ => htaken.trans ((hsources _).symm.trans (List.append_nil _).symm),
        by simp [Phase.reads], by simp, by simp, by simp, fun _ => ⟨hqueue.1, fun _ => hqueue.2⟩,
        by simp, fun _ => hbound⟩

/-- What producers, other tasks and the timer do around the run. -/
theorem Reading.around (h : x.Reading) {registry : Registry}
    {abortControllers : InsertionMap String ControllerId} {watchdog : Bool}
    (hfed : x.queue.Fed (registry.cells x.binding).queue)
    (hbound : x.registry.bindings.get? x.request.taskId = some x.binding →
      (registry.cells x.binding).queue.closed = false →
      registry.bindings.get? x.request.taskId = some x.binding)
    (hcontrollers : ∀ k, abortControllers.get? k = some x.controller →
      x.abortControllers.get? k = some x.controller) :
    Reading { x with
      registry := registry, abortControllers := abortControllers, watchdog := watchdog } where
  early hearly := by
    obtain ⟨hconsumed, hyields, haborted, hunpaid, hnone⟩ := h.early hearly
    exact ⟨hconsumed, hyields, haborted, hunpaid, fun k hk => hnone k (hcontrollers k hk)⟩
  taken := h.taken
  undecided := h.undecided
  saving := h.saving
  authorizing := h.authorizing
  settling := h.settling
  sound hp := ⟨hfed.sound (h.sound hp).1, fun hne => hfed.idle ((h.sound hp).2 hne)⟩
  parked hp := by
    have hawake : (registry.cells x.binding).queue.waiter ≠ .idle := by
      cases hwaiter : x.queue.waiter with
      | idle => exact absurd hwaiter (h.parked hp)
      | resolved w => simp [hfed.resolved hwaiter]
      | waiting =>
          rcases hfed.waiting hwaiter with heq | ⟨item, heq⟩ | heq
          · simp [heq, hwaiter]
          · simp [heq]
          · simp [heq]
    exact hawake
  bound hholds hopen := by
    refine hbound (h.bound hholds ?_) hopen
    by_contra hclosed
    have hsame := hfed.closed (by simpa using hclosed)
    have hopen : (registry.cells x.binding).queue.closed = false := hopen
    rw [hsame] at hopen
    exact hclosed hopen

theorem Reading.armWatchdog (h : x.Reading) : x.armWatchdog.Reading :=
  ⟨h.early, h.taken, h.undecided, h.saving, h.authorizing, h.settling, h.sound,
    h.parked, h.bound⟩

theorem Reading.process (h : x.Reading) {event : StreamEvent}
    (hphase : x.phase = .delivered event) : (x.process event).Reading := by
  have hhand : x.inHand = [event] := by simp [inHand, hphase]
  have hholds : x.phase.holds = true := by rw [hphase]; rfl
  have hreads : x.phase.reads = true := by rw [hphase]; rfl
  have hparked : x.phase ≠ .parked := by simp [hphase]
  rcases process_cases (x := x) event with ⟨heq, hpaid⟩ | ⟨hrelayed, -⟩
  · have hsound := h.sound (.inl hholds)
    have htaken : x.consumed.map some = x.sources ++ [event].map some := hhand ▸ h.taken hholds
    rw [heq]
    exact ⟨by simp [Phase.early], fun _ => htaken, fun _ => h.undecided hreads, by simp,
      fun _ _ => hpaid, by simp, fun _ => ⟨hsound.1, fun _ => hsound.2 hparked⟩, by simp,
      fun _ => h.bound hholds⟩
  · exact h.armWatchdog.relayed hhand hholds hreads hparked hrelayed

/-- The refusal is settled in the place of the event. -/
theorem Reading.refused (h : x.Reading) {event : StreamEvent}
    (hphase : x.phase = .authorizing event) (refusal : TaskStatusUpdateEvent) :
    (x.conclude refusal (some event)).Reading := by
  have hholds : x.phase.holds = true := by rw [hphase]; rfl
  have htaken : x.consumed.map some = x.sources ++ [event].map some := by
    simpa [inHand, hphase] using h.taken hholds
  have hpaid := h.authorizing event hphase
  have hsound := h.sound (.inl hholds)
  rw [conclude, if_pos hpaid]
  exact ⟨by simp [Phase.early], fun _ => htaken, by simp [Phase.reads], by simp, by simp,
    fun _ _ _ => hpaid,
    fun _ => ⟨hsound.1, fun _ => hsound.2 (by simp [hphase])⟩, by simp, fun _ => h.bound hholds⟩

theorem Reading.onAuthorized (h : x.Reading) {event : StreamEvent}
    (hphase : x.phase = .authorizing event) (result : Except Unit (Option JsonObject)) :
    (x.onAuthorized event result).Reading := by
  unfold RunState.onAuthorized
  split
  · exact reading_cleanup .threw
  · have hauthorized : Reading { x with deliveryAuthorized := true } :=
      ⟨h.early, h.taken, h.undecided, h.saving, h.authorizing, h.settling, h.sound,
        h.parked, h.bound⟩
    exact hauthorized.relayed (by simp [inHand, hphase]) (by simp [hphase, Phase.holds])
      (by simp [hphase, Phase.reads]) (by simp [hphase]) (relay_cases event)
  · have hsent : Reading { x with registry := (x.registry.sendToAgent x.request.agentId
        (.taskCancel x.request.taskId x.executionId)).2 } :=
      h.around (by simpa using .refl) (fun hb _ => by simpa using hb) fun _ hk => hk
    exact hsent.refused hphase _

theorem Reading.yieldStatus (h : x.Reading) {event : TaskStatusUpdateEvent}
    (hphase : x.phase = .saving event) : (x.yieldStatus event).Reading :=
  h.relayed (by simp [inHand, hphase]) (by rw [hphase]; rfl) (by rw [hphase]; rfl)
    (by simp [hphase])
    (.yielded (.status event) x.task x.history x.accumulatedArtifacts (h.saving event hphase))

theorem Reading.onSettled (h : x.Reading) {event : TaskStatusUpdateEvent}
    {replaced : Option StreamEvent} (hphase : x.phase = .settling event replaced)
    (result : Except Unit X402SettleResult) : (x.onSettled event replaced result).Reading := by
  have hholds : x.phase.holds = true := by rw [hphase]; rfl
  have hsound := h.sound (.inl hholds)
  unfold RunState.onSettled
  rcases x.settle event result with ⟨terminal, calls⟩
  cases terminal with
  | error error => exact reading_cleanup .threw
  | ok terminal =>
      have htaken : x.consumed.map some = x.sources ++ [some (replaced.getD (.status event))] := by
        simpa [inHand, hphase] using h.taken hholds
      refine ⟨by simp [yieldTerminal, Phase.early], fun _ => ?_,
        by simp [yieldTerminal, Phase.reads], by simp [yieldTerminal], by simp [yieldTerminal],
        by simp [yieldTerminal], fun _ => ⟨hsound.1, fun _ => hsound.2 (by simp [hphase])⟩,
        by simp [yieldTerminal], fun _ => h.bound hholds⟩
      refine htaken.trans (Eq.trans ?_ (List.append_nil _).symm)
      cases replaced with
      | none => exact (sources_append _ rfl).symm
      | some source => exact (sources_append _ rfl).symm

theorem Reading.finishLoop (h : x.Reading) (hphase : x.phase = .lastYielded ∨ x.phase = .drained) :
    x.finishLoop.Reading := by
  have hholds : x.phase.holds = true := by rcases hphase with hp | hp <;> rw [hp] <;> rfl
  have hhand : x.inHand = [] := by rcases hphase with hp | hp <;> simp [inHand, hp]
  have htaken : x.consumed.map some = x.sources ++ [] := by simpa [hhand] using h.taken hholds
  have hsound := h.sound (.inl hholds)
  have hparked : x.phase ≠ .parked := by rcases hphase with hp | hp <;> simp [hp]
  obtain ⟨task, hframe⟩ := x.finishLoop_frame
  rw [hframe]
  exact ⟨by simp [Phase.early], fun _ => htaken, by simp [Phase.reads], by simp,
    by simp, by simp, fun _ => ⟨hsound.1, fun _ => hsound.2 hparked⟩, by simp,
    fun _ => h.bound hholds⟩

/-! ### Asking the queue -/

theorem queue_setQueue (q : SinkQueue) : (x.setQueue q).queue = q :=
  congrArg BindingCell.queue
    (Registry.modifyCell_cells_self x.registry x.binding fun c => { c with queue := q })

/-- What the run does with the answer of its iterator, which it asked with empty hands. -/
theorem Reading.onIterate (h : x.Reading) (hholds : x.phase.holds = true)
    (hreads : x.phase.reads = true) (hhand : x.inHand = []) {q : SinkQueue}
    {result : IterateResult StreamEvent String} (hsound : q.Sound)
    (hidle : result ≠ .parked → q.waiter = .idle) (hparked : result = .parked → q.waiter ≠ .idle)
    (hclosed : q.closed = x.queue.closed) : ((x.setQueue q).onIterate result).Reading := by
  have htaken : x.consumed.map some = x.sources := by simpa [hhand] using h.taken hholds
  have hqueue := x.queue_setQueue q
  rw [← hqueue] at hsound hidle hparked
  have hbound : (x.setQueue q).queue.closed = false →
      (x.setQueue q).registry.bindings.get? (x.setQueue q).request.taskId =
        some (x.setQueue q).binding := by
    intro hopen
    rw [hqueue, hclosed] at hopen
    exact h.bound hholds hopen
  cases result with
  | yielded event =>
      refine ⟨by simp [RunState.onIterate, Phase.early], fun _ => ?_, fun _ => h.undecided hreads,
        by simp [RunState.onIterate], by simp [RunState.onIterate], by simp [RunState.onIterate],
        fun _ => ⟨hsound, fun _ => hidle (by simp)⟩,
        by simp [RunState.onIterate], fun _ => hbound⟩
      have hadded : (x.consumed ++ [event]).map some = x.sources ++ [event].map some := by
        rw [List.map_append, htaken]
      exact hadded
  | parked =>
      exact ⟨by simp [RunState.onIterate, Phase.early],
        fun _ => htaken.trans (List.append_nil _).symm, fun _ => h.undecided hreads,
        by simp [RunState.onIterate], by simp [RunState.onIterate], by simp [RunState.onIterate],
        fun _ => ⟨hsound, fun hne => absurd rfl hne⟩,
        fun _ => hparked rfl, fun _ => hbound⟩
  | returned =>
      exact ⟨by simp [RunState.onIterate, Phase.early],
        fun _ => htaken.trans (List.append_nil _).symm, by simp [RunState.onIterate, Phase.reads],
        by simp [RunState.onIterate], by simp [RunState.onIterate], by simp [RunState.onIterate],
        fun _ => ⟨hsound, fun _ => hidle (by simp)⟩,
        by simp [RunState.onIterate], fun _ => hbound⟩
  | thrown error => exact reading_cleanup .threw

theorem Reading.pull (h : x.Reading) (hphase : x.phase = .yielded ∨ x.phase = .resuming .sent) :
    x.pull.Reading := by
  have hholds : x.phase.holds = true := by rcases hphase with hp | hp <;> rw [hp] <;> rfl
  have hreads : x.phase.reads = true := by rcases hphase with hp | hp <;> rw [hp] <;> rfl
  have hhand : x.inHand = [] := by rcases hphase with hp | hp <;> simp [inHand, hp]
  have hparked : x.phase ≠ .parked := by rcases hphase with hp | hp <;> simp [hp]
  have hsound := h.sound (.inl hholds)
  have hidle := hsound.2 hparked
  unfold RunState.pull
  cases haborted : x.aborted with
  | true =>
      rw [AsyncEventQueue.next_aborted]
      exact h.onIterate hholds hreads hhand hsound.1 (fun _ => hidle) (by simp) rfl
  | false =>
      rcases hsound.1.next_cases with
        ⟨item, rest, hbuffer, heq⟩ | ⟨-, -, heq⟩ | ⟨hbuffer, hopen, heq⟩
      · rw [heq]
        exact h.onIterate hholds hreads hhand
          ⟨hsound.1.failure, hsound.1.calm, fun hwaiting => absurd hwaiting (by simp [hidle])⟩
          (fun _ => hidle) (by simp) rfl
      · rw [heq]
        exact h.onIterate hholds hreads hhand hsound.1 (fun _ => hidle) (by simp) rfl
      · rw [heq]
        exact h.onIterate hholds hreads hhand
          ⟨hsound.1.failure, by simp, fun _ => ⟨hbuffer, hopen⟩⟩ (fun hne => absurd rfl hne) (by simp) rfl

theorem Reading.woken (h : x.Reading) (hphase : x.phase = .parked)
    {result : IterateResult StreamEvent String} {q : SinkQueue}
    (hq : x.queue.resume = some (result, q)) : ((x.setQueue q).onIterate result).Reading := by
  have hholds : x.phase.holds = true := by rw [hphase]; rfl
  have hsound := h.sound (.inl hholds)
  have hcases : result ≠ .parked ∧ q = { x.queue with waiter := .idle } := by
    unfold AsyncEventQueue.resume at hq
    split at hq <;> simp only [Option.some.injEq, Prod.mk.injEq, reduceCtorEq] at hq <;>
      obtain ⟨rfl, rfl⟩ := hq <;> exact ⟨by simp, rfl⟩
  obtain ⟨hresult, rfl⟩ := hcases
  exact h.onIterate hholds (by rw [hphase]; rfl) (by simp [inHand, hphase])
    ⟨hsound.1.failure, by simp, by simp⟩ (fun _ => rfl) (fun hp => absurd hp hresult) rfl

/-! ### Outside the loop -/

theorem prepare_queue : x.prepare.queue = {} := by
  simp only [RunState.prepare, queue]
  exact congrArg BindingCell.queue (Registry.modifyCell_cells_self _ _ _)

theorem Reading.prepare (h : x.Reading) (hphase : x.phase.early = true) : x.prepare.Reading := by
  have hyields := (h.early hphase).2.1
  refine ⟨fun _ => h.early hphase, by simp [RunState.prepare, Phase.holds],
    fun _ e he => ?_, by simp [RunState.prepare], by simp [RunState.prepare],
    by simp [RunState.prepare], fun _ => ?_, by simp [RunState.prepare],
    by simp [RunState.prepare, Phase.holds]⟩
  · have he : some e ∈ x.yields.map Yield.source := he
    simp [hyields] at he
  · rw [prepare_queue]
    exact ⟨AsyncEventQueue.sound_empty, fun _ => rfl⟩

theorem Reading.start (h : x.Reading) (hphase : x.phase = .idle) : x.start.Reading := by
  have hearly : x.phase.early = true := by rw [hphase]; rfl
  unfold RunState.start
  split
  · exact reading_of_outside rfl rfl
  · split
    · exact ⟨fun _ => h.early hearly, by simp [Phase.holds], by simp [Phase.reads], by simp,
        by simp, by simp, by simp [Phase.holds], by simp, by simp [Phase.holds]⟩
    · exact h.prepare hearly

theorem Reading.onOpened (h : x.Reading) (hphase : x.phase = .opening)
    (outcome : Except Unit X402GateOutcome) : (x.onOpened outcome).Reading := by
  unfold RunState.onOpened
  split
  · exact reading_of_outside rfl rfl
  · exact reading_of_outside rfl rfl
  · rename_i settlement
    have hpaid : Reading { x with settlement := settlement } :=
      ⟨h.early, h.taken, h.undecided, h.saving, by simp [hphase], by simp [hphase], h.sound,
        h.parked, h.bound⟩
    exact hpaid.prepare (by rw [hphase]; rfl)

theorem Reading.onRead (h : x.Reading) (hphase : x.phase = .reading)
    (result : Except Unit (Option Task)) : (x.onRead result).Reading := by
  unfold RunState.onRead
  split
  · exact reading_of_outside rfl rfl
  · split
    · exact reading_of_outside rfl rfl
    · split
      · exact reading_of_outside rfl rfl
      · have hsound := h.sound (.inr (.inl hphase))
        exact ⟨fun _ => h.early (by rw [hphase]; rfl), by simp [Phase.holds],
          fun _ => h.undecided (by rw [hphase]; rfl), by simp, by simp, by simp,
          fun _ => ⟨hsound.1, fun _ => hsound.2 (by simp [hphase])⟩, by simp, by simp [Phase.holds]⟩

theorem Reading.dispatch (h : x.Reading) (hphase : x.phase = .marking) : x.dispatch.Reading := by
  obtain ⟨hconsumed, hyields, -⟩ := h.early (by rw [hphase]; rfl)
  have hsound := h.sound (.inr (.inr hphase))
  have hsources : x.sources = [] := by simp [sources, hyields]
  have hcases := x.dispatch_cases
  generalize x.dispatch = x' at hcases ⊢
  cases hcases with
  | refused => exact reading_of_outside rfl rfl
  | garbled => exact reading_of_outside rfl rfl
  | assigned registry task sent _ hstored hcell =>
      have hqueue : (registry.cells x.binding).queue.Sound ∧
          (registry.cells x.binding).queue.waiter = .idle := by
        rw [hcell]
        exact ⟨hsound.1, hsound.2 (by simp [hphase])⟩
      refine ⟨by simp [Phase.early], fun _ => ?_, fun _ e he => ?_, by simp, by simp, by simp,
        fun _ => ⟨hqueue.1, fun _ => hqueue.2⟩, by simp, fun _ _ => hstored⟩
      · have hnothing : x.consumed.map some = x.sources ++ [] := by rw [hconsumed, hsources]; rfl
        exact hnothing
      · have he : some e ∈ x.sources := he
        simp [hsources] at he

theorem reading_exitYield (kind : ExitKind) (terminal : TaskStatusUpdateEvent) :
    (x.exitYield kind terminal).Reading := by
  obtain ⟨task, history, registry, controllers, hframe⟩ := x.exitYield_frame kind terminal
  rw [hframe]
  exact reading_of_outside rfl rfl

theorem Reading.onDispatched (h : x.Reading) {outcome : DispatchOutcome}
    (hphase : x.phase = .resuming outcome) : (x.onDispatched outcome).Reading := by
  cases outcome with
  | sent => exact h.armWatchdog.pull (.inr hphase)
  | unsent =>
      have hholds : x.phase.holds = true := by rw [hphase]; rfl
      have htaken : x.consumed.map some = x.sources ++ [] := by
        simpa [inHand, hphase] using h.taken hholds
      have hsound := h.sound (.inl hholds)
      simp only [RunState.onDispatched, exitWith]
      split
      · exact ⟨by simp [Phase.early], fun _ => htaken, by simp [Phase.reads], by simp, by simp,
          by simp, fun _ => ⟨hsound.1, fun _ => hsound.2 (by simp [hphase])⟩, by simp,
          fun _ => h.bound hholds⟩
      · exact reading_exitYield _ _
  | rejected rejection =>
      simp only [RunState.onDispatched, exitWith]
      split
      · exact reading_of_outside rfl rfl
      · exact reading_exitYield _ _
  | interrupted stored =>
      simp only [RunState.onDispatched, exitWith]
      split
      · exact reading_of_outside rfl rfl
      · exact reading_exitYield _ _

theorem reading_onExitSettled (kind : ExitKind) (event : TaskStatusUpdateEvent)
    (result : Except Unit X402SettleResult) : (x.onExitSettled kind event result).Reading := by
  unfold onExitSettled
  rcases x.settle event result with ⟨terminal, calls⟩
  cases terminal with
  | error error => exact reading_of_outside rfl rfl
  | ok terminal => exact reading_exitYield kind terminal

/-! ### All steps -/

theorem pushFinish_fed (r : Registry) (b b' : TaskBinding) (event : TaskStatusUpdateEvent) :
    (r.cells b').queue.Fed (((r.pushStatus b event).finish b).cells b').queue := by
  by_cases heq : b' = b
  · subst heq
    simp only [Registry.finish, Registry.pushStatus, Registry.modifyCell_cells_self]
    exact (AsyncEventQueue.Fed.refl.push _).end'
  · simp only [Registry.finish, Registry.pushStatus]
    rw [Registry.modifyCell_cells_of_ne _ _ heq, Registry.modifyCell_cells_of_ne _ _ heq]
    exact .refl

theorem cancelCurrent_fed {r registry : Registry} {agentId taskId contextId : String}
    (h : r.cancelCurrent agentId taskId contextId = .ok registry) (b : TaskBinding) :
    (r.cells b).queue.Fed (registry.cells b).queue := by
  unfold Registry.cancelCurrent at h
  split at h
  · obtain rfl := Except.ok.inj h
    rw [Registry.sendToAgent_cells]
    exact .refl
  · rename_i bound hbound
    split at h
    · simp at h
    · obtain rfl := Except.ok.inj h
      have hfed := pushFinish_fed
        (r.sendToAgent agentId (.taskCancel taskId bound.executionId)).2 bound b
        (canceledEvent taskId contextId)
      rwa [Registry.sendToAgent_cells] at hfed

theorem Reading.canceled (h : x.Reading) {registry : Registry} {contextId : String}
    (hcancel : x.registry.cancelCurrent x.request.agentId x.request.taskId contextId =
      .ok registry) : Reading { x with registry := registry } :=
  h.around (cancelCurrent_fed hcancel x.binding)
    (fun hb _ => by rwa [cancelCurrent_bindings hcancel]) fun _ hk => hk

theorem Reading.abort (h : x.Reading) (hearly : x.phase.early = false) :
    Reading { x.setQueue x.queue.onAbort with aborted := true } := by
  have hqueue := x.queue_setQueue x.queue.onAbort
  refine ⟨fun he => ?_, h.taken, h.undecided, h.saving, h.authorizing, h.settling,
    fun hp => ?_, fun hp => ?_, fun hholds hopen => ?_⟩
  · exact absurd he (by simp [setQueue, hearly])
  · obtain ⟨hsound, hidle⟩ := h.sound hp
    have hafter : (x.setQueue x.queue.onAbort).queue.Sound ∧
        (x.phase ≠ .parked → (x.setQueue x.queue.onAbort).queue.waiter = .idle) := by
      rw [hqueue]
      refine ⟨hsound.onAbort, fun hne => ?_⟩
      rw [AsyncEventQueue.onAbort_of_ne (by simp [hidle hne])]
      exact hidle hne
    exact hafter
  · have hafter : (x.setQueue x.queue.onAbort).queue.waiter ≠ .idle := by
      rw [hqueue]
      unfold AsyncEventQueue.onAbort
      split
      · simp
      · exact h.parked hp
    exact hafter
  · have hopen : (x.setQueue x.queue.onAbort).queue.closed = false := hopen
    rw [hqueue, AsyncEventQueue.onAbort_closed] at hopen
    exact h.bound hholds hopen

theorem Reading.step {a : RunAction} (h : x.Reading) (hstep : runSystem.step x a x') :
    x'.Reading := by
  obtain ⟨hrely, hperform⟩ := hstep
  cases perform_cases hperform with
  | started hp => exact h.start hp
  | scopeDone hp => exact reading_of_outside rfl rfl
  | haltStoring hp => exact reading_of_outside rfl rfl
  | exitDone stored hp => exact reading_of_outside rfl rfl
  | exitStoring kind hp => exact reading_of_outside rfl rfl
  | pulled hp => exact h.pull (.inl hp)
  | ended hp => exact h.finishLoop (.inl hp)
  | closedOutside hp => exact reading_of_outside rfl rfl
  | closedInside hp => exact reading_cleanup .closed
  | dispatched outcome hp => exact h.onDispatched hp
  | processed event hp => exact h.process hp
  | drained hp => exact h.finishLoop (.inr hp)
  | woken result q hp hq => exact h.woken hp hq
  | opened outcome hp => exact h.onOpened hp outcome
  | read result hp => exact h.onRead hp result
  | marked ok hp =>
      cases ok with
      | false => exact reading_of_outside rfl rfl
      | true => exact h.dispatch hp
  | scopeStored event ok hp => exact reading_of_outside rfl rfl
  | exitStored ok hp => exact reading_of_outside rfl rfl
  | saved event hp => exact h.yieldStatus hp
  | unsaved event hp => exact reading_cleanup .threw
  | stored ok hp => exact reading_cleanup .returned
  | authorized event result hp => exact h.onAuthorized hp result
  | settled event replaced result hp => exact h.onSettled hp result
  | exitSettled kind event result hp => exact reading_onExitSettled kind event result
  | rearmed => exact h.armWatchdog
  | timedOut hw event hterminal =>
      exact h.around (pushFinish_fed x.registry x.binding x.binding event) (fun hb _ => hb)
        fun _ hk => hk
  | aborted contextId registry hcancel hown hfirst =>
      refine (h.canceled hcancel).abort ?_
      by_contra hearly
      exact (h.early (by simpa using hearly)).2.2.2.2 _ hown
  | canceled contextId registry hcancel hother => exact h.canceled hcancel
  | environment registry abortControllers =>
      refine h.around hrely.fed (fun hb hopen => ?_) hrely.controllers
      by_contra hgone
      simp [hrely.removed hb hgone] at hopen

theorem reading_of_fresh (h : x.Fresh) : x.Reading := by
  have hphase := h.phase
  exact ⟨fun _ => ⟨h.consumed, h.yields, h.notAborted, ⟨h.settled, h.gateCalls⟩, h.controller⟩,
    by simp [hphase, Phase.holds], by simp [hphase, Phase.reads], by simp [hphase],
    by simp [hphase], by simp [hphase], by simp [hphase, Phase.holds], by simp [hphase],
    by simp [hphase, Phase.holds]⟩

/-! ## What goes out -/

/-- Where no payment is settled, the events of the queue go out as they came, up to their
origin. -/
def Faithful (x : RunState) : Prop :=
  x.settlement = none → ∀ y ∈ x.yields, ∀ event, y.source = some event →
    y.output = x.deliver event

theorem Faithful.direct (h : x.Faithful) (ys : List Yield) (hys : ∀ y ∈ ys, y.source = none)
    (hyields : x'.yields = x.yields ++ ys) (hsettlement : x'.settlement = x.settlement)
    (hexecution : x'.executionId = x.executionId) : x'.Faithful := by
  intro hfree y hy event hsource
  have hdeliver : x'.deliver event = x.deliver event := by
    cases event with
    | artifact event => rfl
    | status event => simp only [deliver, withOrigin, hexecution]
  rw [hdeliver]
  rcases List.mem_append.mp (hyields ▸ hy) with hold | hnew
  · exact h (hsettlement ▸ hfree) y hold event hsource
  · simp [hys y hnew] at hsource

theorem Faithful.frame (h : x.Faithful) (hyields : x'.yields = x.yields)
    (hsettlement : x'.settlement = x.settlement) (hexecution : x'.executionId = x.executionId) :
    x'.Faithful :=
  h.direct [] (by simp) (by rw [hyields, List.append_nil]) hsettlement hexecution

theorem Faithful.relayed (h : x.Faithful) {event : StreamEvent} (hrelayed : x.Relayed event x') :
    x'.Faithful := by
  have hout : x.settlement = none → ∀ y ∈ x.yields ++ [.relayed event (x.deliver event)],
      ∀ e, y.source = some e → y.output = x.deliver e := by
    intro hfree y hy e hsource
    rcases List.mem_append.mp hy with hold | hnew
    · exact h hfree y hold e hsource
    · obtain rfl := List.mem_singleton.mp hnew
      obtain rfl : event = e := Option.some.inj hsource
      rfl
  cases hrelayed with
  | yielded event task history accumulated hopen => exact hout
  | saving event task history hopen => exact h.frame rfl rfl rfl
  | settling event hterminal hpaid => exact h.frame rfl rfl rfl
  | concluded event task history hterminal hfree => exact hout

theorem Faithful.cleanup (h : x.Faithful) (how : Finish) : (x.cleanup how).Faithful := by
  obtain ⟨registry, controllers, hframe⟩ := x.cleanup_frame how
  rw [hframe]
  exact h.frame rfl rfl rfl

theorem Faithful.exitYield (h : x.Faithful) (kind : ExitKind) (terminal : TaskStatusUpdateEvent) :
    (x.exitYield kind terminal).Faithful := by
  obtain ⟨task, history, registry, controllers, hframe⟩ := x.exitYield_frame kind terminal
  rw [hframe]
  exact h.direct [.direct (.status terminal)] (by simp [Yield.source]) rfl rfl rfl

theorem Faithful.exitWith (h : x.Faithful) (kind : ExitKind) (event : TaskStatusUpdateEvent) :
    (x.exitWith kind event).Faithful := by
  unfold RunState.exitWith
  split
  · exact h.frame rfl rfl rfl
  · exact h.exitYield kind event

theorem Faithful.onIterate (h : x.Faithful) (q : SinkQueue)
    (result : IterateResult StreamEvent String) : ((x.setQueue q).onIterate result).Faithful := by
  have hqueue : (x.setQueue q).Faithful := h.frame rfl rfl rfl
  cases result with
  | thrown error => exact hqueue.cleanup .threw
  | _ => exact h.frame rfl rfl rfl

theorem Faithful.onDispatched (h : x.Faithful) (outcome : DispatchOutcome) :
    (x.onDispatched outcome).Faithful := by
  have hqueue : (x.setQueue x.queue.end).Faithful := h.frame rfl rfl rfl
  cases outcome with
  | sent => exact Faithful.onIterate (x := x.armWatchdog) (h.frame rfl rfl rfl) _ _
  | unsent => exact h.exitWith _ _
  | rejected rejection => exact hqueue.exitWith _ _
  | interrupted stored => exact hqueue.exitWith _ _

/-- With no event taken yet, the run may still get its settlement and its execution id. -/
theorem faithful_of_silent (h : x.yields = []) : x.Faithful := by
  intro _ y hy
  simp [h] at hy

theorem Faithful.step {a : RunAction} (h : x.Faithful) (hreading : x.Reading)
    (hstep : runSystem.step x a x') : x'.Faithful := by
  obtain ⟨-, hperform⟩ := hstep
  cases perform_cases hperform with
  | started hp =>
      have hyields := (hreading.early (by rw [hp]; rfl)).2.1
      unfold start
      split
      · exact h.frame rfl rfl rfl
      · split
        · exact h.frame rfl rfl rfl
        · exact faithful_of_silent hyields
  | scopeDone hp => exact h.frame rfl rfl rfl
  | haltStoring hp => exact h.frame rfl rfl rfl
  | exitDone stored hp => exact h.frame rfl rfl rfl
  | exitStoring kind hp => exact h.frame rfl rfl rfl
  | pulled hp => exact h.onIterate _ _
  | ended hp =>
      obtain ⟨task, hframe⟩ := x.finishLoop_frame
      exact hframe ▸ h.frame rfl rfl rfl
  | closedOutside hp => exact h.frame rfl rfl rfl
  | closedInside hp => exact h.cleanup .closed
  | dispatched outcome hp => exact h.onDispatched outcome
  | processed event hp =>
      have harmed : x.armWatchdog.Faithful := h.frame rfl rfl rfl
      rcases process_cases (x := x) event with ⟨heq, -⟩ | ⟨hrelayed, -⟩
      · exact heq ▸ harmed.frame rfl rfl rfl
      · exact harmed.relayed hrelayed
  | drained hp =>
      obtain ⟨task, hframe⟩ := x.finishLoop_frame
      exact hframe ▸ h.frame rfl rfl rfl
  | woken result q hp hq => exact h.onIterate q result
  | opened outcome hp =>
      have hyields := (hreading.early (by rw [hp]; rfl)).2.1
      unfold onOpened
      split
      · exact h.frame rfl rfl rfl
      · rename_i event
        exact h.direct [.direct (.status event)] (by simp [Yield.source]) rfl rfl rfl
      · exact faithful_of_silent hyields
  | read result hp =>
      unfold onRead
      split
      · exact h.frame rfl rfl rfl
      · split
        · exact h.frame rfl rfl rfl
        · split <;> exact h.frame rfl rfl rfl
  | marked ok hp =>
      cases ok with
      | false => exact h.frame rfl rfl rfl
      | true =>
          have hcases := x.dispatch_cases
          simp only [onMarked, if_true]
          generalize x.dispatch = x' at hcases ⊢
          cases hcases <;> exact h.frame rfl rfl rfl
  | scopeStored event ok hp =>
      exact h.direct [.direct (.status event)] (by simp [Yield.source]) rfl rfl rfl
  | exitStored ok hp => exact h.frame rfl rfl rfl
  | saved event hp =>
      exact h.relayed (.yielded (.status event) x.task x.history x.accumulatedArtifacts
        (hreading.saving event hp))
  | unsaved event hp => exact h.cleanup .threw
  | stored ok hp => exact h.cleanup .returned
  | authorized event result hp =>
      unfold onAuthorized
      split
      · exact h.cleanup .threw
      · exact Faithful.relayed (x := { x with deliveryAuthorized := true }) (h.frame rfl rfl rfl)
          (relay_cases event)
      · simp only [conclude, hreading.authorizing event hp, if_true]
        exact h.frame rfl rfl rfl
  | settled event replaced result hp =>
      have hpaid := hreading.settling event replaced hp
      unfold onSettled
      rcases x.settle event result with ⟨terminal, calls⟩
      cases terminal with
      | error error =>
          exact Faithful.cleanup (x := { x with gateCalls := x.gateCalls ++ calls })
            (h.frame rfl rfl rfl) .threw
      | ok terminal =>
          intro hfree
          simp [show x.settlement = none from hfree] at hpaid
  | exitSettled kind event result hp =>
      unfold onExitSettled
      rcases x.settle event result with ⟨terminal, calls⟩
      have hcalls : Faithful { x with gateCalls := x.gateCalls ++ calls } := h.frame rfl rfl rfl
      cases terminal with
      | error error => exact hcalls.frame rfl rfl rfl
      | ok terminal => exact hcalls.exitYield kind terminal
  | rearmed => exact h.frame rfl rfl rfl
  | timedOut hw event hterminal => exact h.frame rfl rfl rfl
  | aborted contextId registry hcancel hown hfirst => exact h.frame rfl rfl rfl
  | canceled contextId registry hcancel hother => exact h.frame rfl rfl rfl
  | environment registry abortControllers => exact h.frame rfl rfl rfl

end RunState

end VicoopBridge
