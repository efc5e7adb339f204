import VicoopBridge.Verification.Executor.Loop

/-! # Cancellation and the stream

A cancellation pushes its terminal before it aborts the run. A run that is parked with
nothing or a terminal to wake up with sees it; one that still has to ask its queue sees the
abort first. -/

namespace VicoopBridge

open Library

/-! ## What a cancellation promises -/

/-- The events up to the first terminal. -/
def uptoTerminal : List StreamEvent → List StreamEvent
  | [] => []
  | event :: rest => if event.isTerminal then [event] else event :: uptoTerminal rest

/-- The stream of a run that has been pushed these events when it is canceled. -/
def promisedEvents (pushed : List StreamEvent) (canceled : StreamEvent) : List StreamEvent :=
  if pushed.any StreamEvent.isTerminal then uptoTerminal pushed else pushed ++ [canceled]

namespace RunState

/-- The run has a terminal event, from its queue or instead of one. -/
def decided (x : RunState) : Bool :=
  x.consumed.any StreamEvent.isTerminal || x.yields.any Yield.isRefused ||
    match x.phase with
    | .settling _ (some _) => true
    | _ => false

/-- The current run of its task, without a terminal so far. -/
def Live (x : RunState) : Prop :=
  x.abortControllers.get? x.request.taskId = some x.controller ∧ x.decided = false

instance (x : RunState) : Decidable x.Live := inferInstanceAs (Decidable (_ ∧ _))

/-- The run is parked, and nothing or a terminal event has come to wake it. -/
def Awaits (x : RunState) : Prop :=
  x.phase = .parked ∧ (x.queue.waiter = .waiting ∨
    ∃ event, x.queue.waiter = .resolved (.value event) ∧ event.isTerminal = true)

end RunState

/-- A run with what the first cancellation of it promised. -/
structure CancelRun extends RunState where
  expected : Option (List StreamEvent) := none

namespace CancelRun

def expect (y : CancelRun) : RunAction → Option (List StreamEvent)
  | .cancel contextId => y.expected.or (if y.Live then
      some (promisedEvents (y.consumed ++ y.queue.pending)
        (.status (canceledEvent y.request.taskId contextId))) else none)
  | _ => y.expected

/-- After a cancellation each event of the stream stands for the next promised one. -/
structure Delivered (y : CancelRun) (promised : List StreamEvent) : Prop where
  sound : y.sources <+: promised.map some
  complete : y.phase = .finished .returned → y.sources = promised.map some
  /-- Where no payment is settled, the promised events go out, up to their origin. -/
  outputs : y.settlement = none → y.outputs <+: promised.map y.deliver
  /-- The run does not wait for the queue. -/
  awake : y.phase = .parked → y.queue.resume.isSome = true

/-- A cancellation of a live run finds it parked, with nothing or a terminal to wake it. -/
def PromptCancel (y : CancelRun) : RunAction → Prop
  | .cancel _ => y.Live → y.Awaits
  | _ => True

end CancelRun

def cancelSystem : System CancelRun RunAction where
  init y := y.toRunState.Fresh ∧ y.expected = none
  step y a y' := runSystem.step y.toRunState a y'.toRunState ∧ y'.expected = y.expect a

namespace RunState

variable {x x' : RunState} {promised : List StreamEvent}

theorem uptoTerminal_append {es rest : List StreamEvent} {event : StreamEvent}
    (hes : ∀ e ∈ es, e.isTerminal = false) (hevent : event.isTerminal = true) :
    uptoTerminal (es ++ event :: rest) = es ++ [event] := by
  induction es with
  | nil => simp [uptoTerminal, hevent]
  | cons e es ih =>
      simp only [List.cons_append, uptoTerminal, hes e (by simp), Bool.false_eq_true, if_false]
      rw [ih fun e he => hes e (by simp [he])]

theorem promisedEvents_of_open {es : List StreamEvent} (hes : ∀ e ∈ es, e.isTerminal = false)
    (canceled : StreamEvent) : promisedEvents es canceled = es ++ [canceled] := by
  have hany : es.any StreamEvent.isTerminal = false := by
    simpa using hes
  simp [promisedEvents, hany]

theorem promisedEvents_of_terminal {es rest : List StreamEvent} {event : StreamEvent}
    (hes : ∀ e ∈ es, e.isTerminal = false) (hevent : event.isTerminal = true)
    (canceled : StreamEvent) : promisedEvents (es ++ event :: rest) canceled = es ++ [event] := by
  simp [promisedEvents, hevent, uptoTerminal_append hes hevent]

/-! ## On the way to the terminal -/

/-- The only event between the yielded ones and the end is the terminal the run has in its
hand or will be woken with. -/
def Concluding (x : RunState) (promised : List StreamEvent) : Prop :=
  match x.phase with
  | .parked => ∃ event, event.isTerminal = true ∧ x.queue.waiter = .resolved (.value event) ∧
      promised.map some = x.sources ++ [some event]
  | .delivered event | .authorizing event =>
      event.isTerminal = true ∧ promised.map some = x.sources ++ [some event]
  | .settling event replaced => promised.map some = x.sources ++ [some (replaced.getD (.status event))]
  | .lastYielded | .persisting | .finished .returned => x.sources = promised.map some
  | .finished _ => x.sources <+: promised.map some
  | _ => False

theorem Concluding.frame (h : x.Concluding promised) (hphase : x'.phase = x.phase)
    (hyields : x'.yields = x.yields)
    (hwaiter : x.phase = .parked → ∀ w, x.queue.waiter = .resolved w →
      x'.queue.waiter = .resolved w) : x'.Concluding promised := by
  have hsources : x'.sources = x.sources := congrArg (List.map Yield.source) hyields
  unfold Concluding at h ⊢
  rw [hphase, hsources]
  cases hp : x.phase with
  | parked =>
      simp only [hp] at h ⊢
      obtain ⟨event, hterminal, hresolved, heq⟩ := h
      exact ⟨event, hterminal, hwaiter hp _ hresolved, heq⟩
  | finished how =>
      rw [hp] at h
      cases how <;> exact h
  | _ =>
      rw [hp] at h
      exact h

theorem Concluding.relayed {event : StreamEvent} (hterminal : event.isTerminal = true)
    (hpromised : promised.map some = x.sources ++ [some event]) (hrelayed : x.Relayed event x') :
    x'.Concluding promised := by
  cases hrelayed with
  | yielded _ task history accumulated hopen => simp [hopen] at hterminal
  | saving event task history hopen => simp [StreamEvent.isTerminal, hopen] at hterminal
  | settling event _ hpaid => exact hpromised
  | concluded event task history _ hfree =>
      exact (sources_append _ rfl).trans hpromised.symm

/-- A run that throws or is closed on the way has not gone astray. -/
theorem Concluding.cleanup (hsofar : x.sources <+: promised.map some) {how : Finish}
    (hreturned : how = .returned → x.sources = promised.map some) :
    (x.cleanup how).Concluding promised := by
  obtain ⟨registry, controllers, hframe⟩ := x.cleanup_frame how
  rw [hframe]
  cases how with
  | returned => exact hreturned rfl
  | threw => exact hsofar
  | closed => exact hsofar

theorem Concluding.abort (h : x.Concluding promised) :
    Concluding { x.setQueue x.queue.onAbort with aborted := true } promised := by
  refine h.frame rfl rfl fun _ w hresolved => ?_
  have hsame : x.queue.onAbort = x.queue :=
    AsyncEventQueue.onAbort_of_ne (by simp [hresolved])
  have hqueue := (x.queue_setQueue x.queue.onAbort).trans hsame
  exact (congrArg AsyncEventQueue.waiter hqueue).trans hresolved

theorem Concluding.step {a : RunAction} (h : x.Concluding promised) (hreading : x.Reading)
    (hstep : runSystem.step x a x') : x'.Concluding promised := by
  obtain ⟨hrely, hperform⟩ := hstep
  unfold Concluding at h
  cases perform_cases hperform with
  | started hp => simp [hp] at h
  | scopeDone hp => simp [hp] at h
  | haltStoring hp => simp [hp] at h
  | exitDone stored hp => simp [hp] at h
  | exitStoring kind hp => simp [hp] at h
  | pulled hp => simp [hp] at h
  | ended hp =>
      obtain ⟨task, hframe⟩ := x.finishLoop_frame
      rw [hframe]
      simp only [hp] at h
      exact h
  | closedOutside hp =>
      rcases hp with hp | hp | hp | ⟨kind, hp⟩ <;> simp [hp] at h
  | closedInside hp =>
      rcases hp with hp | hp
      · simp [hp] at h
      · simp only [hp] at h
        exact Concluding.cleanup (h ▸ List.prefix_rfl) (by simp)
  | dispatched outcome hp => simp [hp] at h
  | processed event hp =>
      simp only [hp] at h
      rcases process_cases (x := x) event with ⟨heq, -⟩ | ⟨hrelayed, -⟩
      · rw [heq]
        exact h
      · exact Concluding.relayed (x := x.armWatchdog) h.1 h.2 hrelayed
  | drained hp => simp [hp] at h
  | woken result q hp hq =>
      simp only [hp] at h
      obtain ⟨event, hterminal, hresolved, hpromised⟩ := h
      rw [AsyncEventQueue.resume_value hresolved] at hq
      obtain ⟨rfl, rfl⟩ := Prod.mk.inj (Option.some.inj hq)
      exact ⟨hterminal, hpromised⟩
  | opened outcome hp => simp [hp] at h
  | read result hp => simp [hp] at h
  | marked ok hp => simp [hp] at h
  | scopeStored event ok hp => simp [hp] at h
  | exitStored ok hp => rcases hp with hp | hp <;> simp [hp] at h
  | saved event hp => simp [hp] at h
  | unsaved event hp => simp [hp] at h
  | stored ok hp =>
      simp only [hp] at h
      exact Concluding.cleanup (h ▸ List.prefix_rfl) fun _ => h
  | authorized event result hp =>
      simp only [hp] at h
      obtain ⟨hterminal, hpromised⟩ := h
      unfold onAuthorized
      split
      · exact Concluding.cleanup ⟨[some event], hpromised.symm⟩ (by simp)
      · exact Concluding.relayed (x := { x with deliveryAuthorized := true }) hterminal hpromised
          (relay_cases event)
      · simp only [conclude, hreading.authorizing event hp, if_true]
        exact hpromised
  | settled event replaced result hp =>
      simp only [hp] at h
      unfold onSettled
      rcases x.settle event result with ⟨terminal, calls⟩
      cases terminal with
      | error error =>
          exact Concluding.cleanup (x := { x with gateCalls := x.gateCalls ++ calls })
            ⟨_, h.symm⟩ (by simp)
      | ok terminal =>
          cases replaced with
          | none => exact (sources_append _ rfl).trans h.symm
          | some source => exact (sources_append _ rfl).trans h.symm
  | exitSettled kind event result hp => simp [hp] at h
  | rearmed => exact h
  | timedOut hw event hterminal =>
      exact Concluding.frame (x := x) h rfl rfl fun _ w hresolved =>
        (pushFinish_fed x.registry x.binding x.binding event).resolved hresolved
  | aborted contextId registry hcancel hown hfirst =>
      have hcanceled : Concluding { x with registry := registry } promised :=
        Concluding.frame (x := x) h rfl rfl fun _ w hresolved =>
          (cancelCurrent_fed hcancel x.binding).resolved hresolved
      exact hcanceled.abort
  | canceled contextId registry hcancel hother =>
      exact Concluding.frame (x := x) h rfl rfl fun _ w hresolved =>
        (cancelCurrent_fed hcancel x.binding).resolved hresolved
  | environment registry abortControllers =>
      exact Concluding.frame (x := x) h rfl rfl fun _ w hresolved => hrely.fed.resolved hresolved

/-! ## The cancellation -/

/-- The registered binding is the run's own, and its queue takes the terminal. -/
theorem cancelCurrent_wakes {registry : Registry} {contextId : String}
    (hbound : x.registry.bindings.get? x.request.taskId = some x.binding)
    (hopen : x.queue.closed = false) (hfailure : x.queue.failure = none)
    (hwaiting : x.queue.waiter = .waiting)
    (hcancel : x.registry.cancelCurrent x.request.agentId x.request.taskId contextId =
      .ok registry) :
    (registry.cells x.binding).queue.waiter =
      .resolved (.value (.status (canceledEvent x.request.taskId contextId))) := by
  have hget : x.registry.getBinding x.request.taskId = some x.binding := hbound
  simp only [Registry.cancelCurrent, hget, binding, ne_eq, not_true_eq_false, if_false] at hcancel
  obtain rfl := Except.ok.inj hcancel
  have hqueue : (((x.registry.sendToAgent x.request.agentId (.taskCancel x.request.taskId
      x.binding.executionId)).2).cells x.binding).queue = x.queue := by
    rw [Registry.sendToAgent_cells]
    rfl
  refine (congrArg AsyncEventQueue.waiter (congrArg BindingCell.queue
    (Registry.modifyCell_cells_self _ _ _))).trans ?_
  have hpushed := congrArg BindingCell.queue (Registry.modifyCell_cells_self
    ((x.registry.sendToAgent x.request.agentId (.taskCancel x.request.taskId
      x.binding.executionId)).2) x.binding fun c =>
      { c with queue := c.queue.push (.status (canceledEvent x.request.taskId contextId)) })
  refine (congrArg (fun q : SinkQueue => q.end.waiter) hpushed).trans ?_
  rw [hqueue]
  simp [AsyncEventQueue.push, AsyncEventQueue.end, hopen, hfailure, hwaiting]

/-- The cancellation of a run that awaits it makes the run's next event its last. -/
theorem concluding_of_cancel (h : x.Reading) (hawaits : x.Awaits) {registry : Registry}
    {contextId : String}
    (hcancel : x.registry.cancelCurrent x.request.agentId x.request.taskId contextId =
      .ok registry) :
    Concluding { x with registry := registry } (promisedEvents (x.consumed ++ x.queue.pending)
      (.status (canceledEvent x.request.taskId contextId))) := by
  obtain ⟨hphase, hwaiter⟩ := hawaits
  have hholds : x.phase.holds = true := by rw [hphase]; rfl
  have htaken : x.consumed.map some = x.sources := by
    simpa [inHand, hphase] using h.taken hholds
  have hopen := h.consumed_open hholds (by rw [hphase]; rfl) (by simp [inHand, hphase])
  have hsound := (h.sound (.inl hholds)).1
  simp only [Concluding, hphase]
  rcases hwaiter with hwaiting | ⟨event, hresolved, hterminal⟩
  · obtain ⟨hbuffer, hclosed⟩ := hsound.waiting hwaiting
    have hpending : x.queue.pending = [] := by
      simp [AsyncEventQueue.pending, hwaiting, hbuffer]
    have hwoken := cancelCurrent_wakes (h.bound hholds hclosed) hclosed hsound.failure hwaiting
      hcancel
    refine ⟨_, rfl, hwoken, ?_⟩
    rw [hpending, List.append_nil, promisedEvents_of_open hopen, List.map_append, htaken]
    rfl
  · have hpending : x.queue.pending = event :: x.queue.buffer := by
      simp [AsyncEventQueue.pending, hresolved]
    refine ⟨event, hterminal, (cancelCurrent_fed hcancel x.binding).resolved hresolved, ?_⟩
    rw [hpending, promisedEvents_of_terminal hopen hterminal, List.map_append, htaken]
    rfl

theorem outputs_of_sources {ys : List Yield} {es : List StreamEvent} {f : StreamEvent → StreamEvent}
    (hsources : ys.map Yield.source <+: es.map some)
    (hout : ∀ y ∈ ys, ∀ event, y.source = some event → y.output = f event) :
    ys.map Yield.output <+: es.map f := by
  induction ys generalizing es with
  | nil => exact List.nil_prefix
  | cons y ys ih =>
      cases es with
      | nil => simp at hsources
      | cons e es =>
          obtain ⟨hhead, htail⟩ := List.cons_prefix_cons.mp hsources
          have hrest := ih htail fun y hy => hout y (List.mem_cons_of_mem _ hy)
          rw [List.map_cons, List.map_cons, hout y List.mem_cons_self e hhead]
          exact List.cons_prefix_cons.mpr ⟨rfl, hrest⟩

end RunState

namespace CancelRun

variable {y y' : CancelRun} {promised : List StreamEvent}

structure CancelInvariant (y : CancelRun) : Prop where
  reading : y.toRunState.Reading
  faithful : y.toRunState.Faithful
  concluding : ∀ promised, y.expected = some promised → y.toRunState.Concluding promised

theorem CancelInvariant.step {a : RunAction} (h : y.CancelInvariant) (hprompt : y.PromptCancel a)
    (hstep : cancelSystem.step y a y') : y'.CancelInvariant := by
  obtain ⟨hrun, hexpect⟩ := hstep
  refine ⟨h.reading.step hrun, h.faithful.step h.reading hrun, fun promised hpromised => ?_⟩
  cases hbefore : y.expected with
  | some before =>
      have hsame : y.expect a = some before := by
        cases a <;> simp [expect, hbefore]
      obtain rfl : before = promised :=
        Option.some.inj (hsame.symm.trans (hexpect.symm.trans hpromised))
      exact (h.concluding before hbefore).step h.reading hrun
  | none =>
      rw [hpromised] at hexpect
      cases a with
      | cancel contextId =>
          simp only [expect, hbefore, Option.none_or] at hexpect
          split at hexpect
          · rename_i hlive
            obtain rfl := Option.some.inj hexpect
            have hawaits := hprompt hlive
            obtain ⟨-, hperform⟩ := hrun
            generalize y'.toRunState = x' at hperform ⊢
            cases RunState.perform_cases hperform with
            | aborted _ registry hcancel hown hfirst =>
                exact (RunState.concluding_of_cancel h.reading hawaits hcancel).abort
            | canceled _ registry hcancel hother =>
                exact RunState.concluding_of_cancel h.reading hawaits hcancel
          · simp at hexpect
      | _ => simp [expect, hbefore] at hexpect

theorem Delivered.of_concluding (h : y.toRunState.Concluding promised)
    (hfaithful : y.toRunState.Faithful) : y.Delivered promised := by
  have hsound : y.sources <+: promised.map some := by
    unfold RunState.Concluding at h
    split at h
    · obtain ⟨event, -, -, heq⟩ := h
      exact ⟨[some event], heq.symm⟩
    · exact ⟨_, h.2.symm⟩
    · exact ⟨_, h.2.symm⟩
    · exact ⟨_, h.symm⟩
    · exact h ▸ List.prefix_rfl
    · exact h ▸ List.prefix_rfl
    · exact h ▸ List.prefix_rfl
    · exact h
    · exact h.elim
  refine ⟨hsound, fun hphase => ?_, fun hfree => ?_, fun hphase => ?_⟩
  · simpa only [RunState.Concluding, hphase] using h
  · exact RunState.outputs_of_sources hsound (hfaithful hfree)
  · simp only [RunState.Concluding, hphase] at h
    obtain ⟨event, -, hresolved, -⟩ := h
    simp [AsyncEventQueue.resume_value hresolved]

/-- If every cancellation of a live run finds it parked with nothing or a terminal to wake up
with, the stream is what was pushed before, up to the first terminal or the cancellation's. -/
theorem cancel_delivers (h : (cancelSystem.restrict PromptCancel).Reachable y) :
    ∀ promised, y.expected = some promised → y.Delivered promised := by
  have hinv : y.CancelInvariant := by
    refine h.invariant (I := fun y => y.CancelInvariant) ?_ ?_
    · rintro y ⟨hfresh, hnone⟩
      exact ⟨RunState.reading_of_fresh hfresh, RunState.faithful_of_silent hfresh.yields,
        by simp [hnone]⟩
    · exact fun _ _ _ hs ⟨hprompt, hstep⟩ => hs.step hprompt hstep
  exact fun promised hpromised =>
    .of_concluding (hinv.concluding promised hpromised) hinv.faithful

section Witness

private def step (y : CancelRun) (a : RunAction) : CancelRun where
  toRunState := y.toRunState.after a
  expected := y.expect a

private theorem step_reachable {allowed : CancelRun → RunAction → Prop}
    (h : (cancelSystem.restrict allowed).Reachable y) (a : RunAction) (hallowed : allowed y a)
    (hrely : y.toRunState.Allows a) (hcan : (y.toRunState.perform a).isSome = true) :
    (cancelSystem.restrict allowed).Reachable (y.step a) := by
  obtain ⟨x', hx'⟩ := Option.isSome_iff_exists.mp hcan
  refine h.step (a := a) ⟨hallowed, ⟨hrely, ?_⟩, rfl⟩
  rw [CancelRun.step, RunState.after, hx', Option.getD_some]

/-- Dispatched, and parked on its queue. -/
private def parkedRun : CancelRun :=
  (((({ RunState.messageRun RunState.connectedRegistry [textPart "hello"] false with } :
    CancelRun).step .next).step (.read (.ok none))).step (.marked true)).step .resume

private theorem parkedRun_reachable {allowed : CancelRun → RunAction → Prop}
    (hallowed : ∀ y a, (∀ contextId, a ≠ .cancel contextId) → allowed y a) :
    (cancelSystem.restrict allowed).Reachable parkedRun := by
  have h₀ : (cancelSystem.restrict allowed).Reachable
      ({ RunState.messageRun RunState.connectedRegistry [textPart "hello"] false with } :
        CancelRun) :=
    .of_init ⟨RunState.connectedRegistry_fresh _ _, rfl⟩
  have h₁ := step_reachable h₀ .next (hallowed _ _ (by simp)) trivial (by decide +kernel)
  have h₂ := step_reachable h₁ (.read (.ok none)) (hallowed _ _ (by simp)) trivial
    (by decide +kernel)
  have h₃ := step_reachable h₂ (.marked true) (hallowed _ _ (by simp)) trivial (by decide +kernel)
  exact step_reachable h₃ .resume (hallowed _ _ (by simp)) trivial (by decide +kernel)

private theorem promptCancel_of_ne (y : CancelRun) (a : RunAction)
    (h : ∀ contextId, a ≠ .cancel contextId) : y.PromptCancel a := by
  cases a <;> first | trivial | exact absurd rfl (h _)

private def canceledStatus : StreamEvent := .status (canceledEvent "task" "context")

private def canceledRun : CancelRun :=
  (((((parkedRun.step (.cancel "context")).step .resume).step .resume).step .next).step
    (.persisted true))

theorem cancel_delivers_parked :
    canceledRun.phase = .finished .returned ∧ canceledRun.expected = some [canceledStatus] ∧
      canceledRun.Delivered [canceledStatus] := by
  have hexpected : canceledRun.expected = some [canceledStatus] := by decide +kernel
  refine ⟨by decide +kernel, hexpected, cancel_delivers ?_ _ hexpected⟩
  have h₁ := step_reachable (parkedRun_reachable promptCancel_of_ne) (.cancel "context")
    (fun _ => ⟨by decide +kernel, .inl (by decide +kernel)⟩) trivial (by decide +kernel)
  have h₂ := step_reachable h₁ .resume trivial trivial (by decide +kernel)
  have h₃ := step_reachable h₂ .resume trivial trivial (by decide +kernel)
  have h₄ := step_reachable h₃ .next trivial trivial (by decide +kernel)
  exact step_reachable h₄ (.persisted true) trivial trivial (by decide +kernel)

private def workingStatus : StreamEvent :=
  .status { taskId := "task", contextId := "context", final := false, status := { state := .working } }

private def pushed : Registry :=
  parkedRun.registry.modifyCell parkedRun.binding fun c =>
    { c with queue := c.queue.push workingStatus }

private theorem pushed_rely : parkedRun.Rely pushed parkedRun.abortControllers where
  installed k b hb _ := hb
  controllers k hk := hk
  fed := by
    have hcell : (pushed.cells parkedRun.binding).queue = parkedRun.queue.push workingStatus :=
      congrArg BindingCell.queue (Registry.modifyCell_cells_self _ _ _)
    rw [hcell]
    exact .push .refl workingStatus
  removed hb hgone := absurd hb hgone

/-- The consumer is busy with the first event when the task is canceled. -/
private def busyRun : CancelRun :=
  ((parkedRun.step (.environment pushed parkedRun.abortControllers)).step .resume).step .resume

private def lostRun : CancelRun :=
  (((busyRun.step (.cancel "context")).step .next).step .resume).step (.persisted true)

/-- The abort is seen before the terminal that was pushed with it, which is lost. -/
theorem cancel_loses :
    ¬ ∀ y, cancelSystem.Reachable y → ∀ promised, y.expected = some promised →
      y.Delivered promised := by
  intro hclaim
  have h₀ := parkedRun_reachable fun (_ : CancelRun) (_ : RunAction) _ => (trivial : True)
  have h₁ := step_reachable h₀ (.environment pushed parkedRun.abortControllers) trivial pushed_rely
    (by decide +kernel)
  have h₂ := step_reachable h₁ .resume trivial trivial (by decide +kernel)
  have h₃ := step_reachable h₂ .resume trivial trivial (by decide +kernel)
  have h₄ := step_reachable h₃ (.cancel "context") trivial trivial (by decide +kernel)
  have h₅ := step_reachable h₄ .next trivial trivial (by decide +kernel)
  have h₆ := step_reachable h₅ .resume trivial trivial (by decide +kernel)
  have h₇ := step_reachable h₆ (.persisted true) trivial trivial (by decide +kernel)
  have hdelivered := hclaim lostRun h₇.of_restrict [workingStatus, canceledStatus]
    (by decide +kernel)
  exact absurd (hdelivered.complete (by decide +kernel)) (by decide +kernel)

end Witness

end CancelRun

end VicoopBridge
