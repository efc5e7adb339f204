import VicoopBridge.Library.Transition
import VicoopBridge.Model.DetachableStream

/-! # One step at a time, until the iterator ends

Pulling and draining hand the iterator over to each other in the middle of a step. Where the stream
stands is one of a few phases, and the phase tells who waits for what. -/

namespace VicoopBridge

open Library

universe u v

/-- What a run looks at of an iterator: every result once and in order, and none after its end. -/
structure StepPrefix {α : Type u} {ε : Type v} (upstream : ℕ → IteratorStep α ε) (done : Bool)
    (consumed : List (IteratorStep α ε)) : Prop where
  order : consumed = (List.range consumed.length).map upstream
  unended : done = false → ∀ result ∈ consumed, result.isEnd = false
  ended : done = true → ∃ before result, consumed = before ++ [result] ∧ result.isEnd = true ∧
    ∀ earlier ∈ before, earlier.isEnd = false

/-- What the client gets to see of the results. -/
def deliveredEvents {α : Type u} {ε : Type v} (opts : SseOptions α ε)
    (consumed : List (IteratorStep α ε)) : List String :=
  consumed.flatMap fun
    | .event value => [opts.data value]
    | .done => []
    | .failed err => (opts.errorEvent.map fun errorEvent => opts.data (errorEvent err)).toList

/-- Where a stream stands. `step` to `reacted` are in `pull`, the rest in `drain`. -/
inductive StreamPhase where
  | idle
  | step
  | settled
  | reacted
  | resuming
  | draining
  | drained
  | ended
  deriving DecidableEq

namespace StreamPhase

def awaiting : StreamPhase → List StepAwaiter
  | .step => [.pull]
  | .draining => [.drain]
  | _ => []

def pulling : StreamPhase → Bool
  | .step | .settled | .reacted => true
  | _ => false

def inflight : StreamPhase → Bool
  | .step | .settled => false
  | _ => true

/-- The calls of `next` whose result has not been looked at. -/
def ahead : StreamPhase → ℕ
  | .step | .settled | .reacted | .draining | .drained => 1
  | _ => 0

/-- The jobs and settlements before the next result is looked at. -/
def weight : StreamPhase → ℕ
  | .idle => 5
  | .step => 4
  | .settled | .resuming => 3
  | .reacted | .draining => 2
  | .drained => 1
  | .ended => 0

def drains : StreamPhase → Bool
  | .resuming | .draining | .drained | .ended => true
  | _ => false

def drain (detached : Bool) : StreamPhase → DrainWait
  | .idle => .off
  | .step | .settled => if detached then .inflight else .off
  | .reacted => if detached then .resumed else .off
  | .resuming => .resumed
  | .draining | .drained => .step
  | .ended => .over

def jobs {α : Type u} {ε : Type v} (detached : Bool) (result : IteratorStep α ε) :
    StreamPhase → List (StreamJob α ε)
  | .settled => [.inflight, .pull result]
  | .reacted => .pull result :: if detached then [.resume] else []
  | .resuming => [.resume]
  | .drained => [.drain result]
  | _ => []

end StreamPhase

namespace DetachableStream

variable {α : Type u} {ε : Type v} {upstream : ℕ → IteratorStep α ε} {opts : SseOptions α ε}
variable {s t : DetachableStream α ε} {phase : StreamPhase}

structure At (upstream : ℕ → IteratorStep α ε) (phase : StreamPhase) (s : DetachableStream α ε) :
    Prop where
  awaiting : s.awaiting = phase.awaiting
  jobs : s.jobs = phase.jobs s.detached (upstream s.consumed.length)
  inflight : s.inflight = phase.inflight
  pulling : s.pulling = phase.pulling
  drain : s.drain = phase.drain s.detached
  calls : s.calls = List.replicate (s.consumed.length + phase.ahead) .next
  detached : phase.drains = true → s.detached = true
  undone : phase.ahead = 1 → s.done = false
  idle : phase = .idle → s.detached = true → s.done = true
  ended : phase = .ended → s.done = true

/-- What the client sees is what has been looked at before it went away. -/
structure Delivers (opts : SseOptions α ε) (s : DetachableStream α ε) : Prop where
  cancelled : s.cancelled = s.detached
  attached : s.cancelled = false → s.closeRequested = s.done ∧
    s.received ++ s.queue = deliveredEvents opts s.consumed
  away : s.cancelled = true → s.queue = [] ∧ s.received <+: deliveredEvents opts s.consumed
  used : s.misused = false

structure Invariant (upstream : ℕ → IteratorStep α ε) (opts : SseOptions α ε)
    (s : DetachableStream α ε) : Prop where
  phase : ∃ phase, s.At upstream phase
  consumed : StepPrefix upstream s.done s.consumed
  delivers : s.Delivers opts

def streamSystem (upstream : ℕ → IteratorStep α ε) (opts : SseOptions α ε) :
    System (DetachableStream α ε) StreamAction :=
  .ofApply (fun s => s = {}) enabled (apply upstream opts)

/-! ## Looking at a result -/

theorem StepPrefix.snoc {done : Bool} {consumed : List (IteratorStep α ε)}
    (h : StepPrefix upstream false consumed)
    (hdone : done = (upstream consumed.length).isEnd) :
    StepPrefix upstream done (consumed ++ [upstream consumed.length]) where
  order := by
    rw [List.length_append, List.length_singleton, List.range_succ, List.map_append, ← h.order]
    rfl
  unended hopen result hin := by
    obtain hin | hin := List.mem_append.mp hin
    · exact h.unended rfl result hin
    · rw [List.mem_singleton.mp hin, ← hdone, hopen]
  ended hclosed := ⟨consumed, _, rfl, hdone.symm.trans hclosed, h.unended rfl⟩

theorem deliveredEvents_snoc (opts : SseOptions α ε) (consumed : List (IteratorStep α ε))
    (result : IteratorStep α ε) : deliveredEvents opts (consumed ++ [result]) =
      deliveredEvents opts consumed ++ deliveredEvents opts [result] := by
  simp [deliveredEvents]

theorem enqueue_of_open (h : s.cancelled = false) (hclose : s.closeRequested = false)
    (text : String) : s.enqueue text = { s with queue := s.queue ++ [text] } := by
  simp [enqueue, h, hclose]

theorem close_of_open (h : s.cancelled = false) (hclose : s.closeRequested = false) :
    s.close = { s with closeRequested := true } := by
  simp [close, h, hclose]

/-- An attached stream shows the client what it has looked at. -/
theorem pulled_of_attached (hdetached : s.detached = false) (h : s.cancelled = false)
    (hclose : s.closeRequested = false) (result : IteratorStep α ε) (hdone : s.done = false) :
    s.pulled opts result = { s with
      done := result.isEnd, closeRequested := result.isEnd
      queue := s.queue ++ deliveredEvents opts [result] } := by
  cases result with
  | event value =>
      simp only [pulled, hdetached, Bool.false_eq_true, if_false, enqueue_of_open h hclose]
      cases s
      simp_all [IteratorStep.isEnd, deliveredEvents]
  | done =>
      simp only [pulled, hdetached, Bool.false_eq_true, if_false]
      rw [close_of_open (by exact h) (by exact hclose)]
      simp [IteratorStep.isEnd, deliveredEvents]
  | failed err =>
      simp only [pulled, hdetached, Bool.false_eq_true, if_false, reportError]
      cases herror : opts.errorEvent with
      | none =>
          dsimp only
          rw [close_of_open (by exact h) (by exact hclose)]
          simp [IteratorStep.isEnd, deliveredEvents, herror]
      | some errorEvent =>
          dsimp only
          rw [enqueue_of_open (by exact h) (by exact hclose),
            close_of_open (by exact h) (by exact hclose)]
          simp [IteratorStep.isEnd, deliveredEvents, herror]

theorem pulled_of_detached (hdetached : s.detached = true) (hdone : s.done = false)
    (result : IteratorStep α ε) : s.pulled opts result = { s with done := result.isEnd } := by
  cases result with
  | event value =>
      cases s
      simp_all [pulled, IteratorStep.isEnd]
  | done => simp [pulled, hdetached, IteratorStep.isEnd]
  | failed err => simp [pulled, hdetached, IteratorStep.isEnd]

/-! ## Steps -/

theorem Invariant.init : Invariant upstream opts {} where
  phase := ⟨.idle, by constructor <;> simp [StreamPhase.awaiting, StreamPhase.jobs,
    StreamPhase.inflight, StreamPhase.pulling, StreamPhase.drain, StreamPhase.ahead,
    StreamPhase.drains]⟩
  consumed := ⟨rfl, by simp, nofun⟩
  delivers := ⟨rfl, fun _ => ⟨rfl, rfl⟩, nofun, rfl⟩

theorem next_call (h : s.calls = List.replicate s.consumed.length IteratorCall.next) :
    s.calls ++ [.next] = List.replicate (s.consumed.length + 1) IteratorCall.next := by
  rw [h, ← List.replicate_succ']

theorem At.pull (h : s.At upstream .idle) (hundone : s.done = false) (hdetached : s.detached = false) :
    s.pull.At upstream .step where
  awaiting := congrArg (· ++ [StepAwaiter.pull]) h.awaiting
  jobs := h.jobs
  inflight := rfl
  pulling := rfl
  drain := by
    change s.drain = if s.detached then .inflight else .off
    rw [hdetached]
    exact h.drain
  calls := next_call h.calls
  detached := nofun
  undone _ := hundone
  idle := nofun
  ended := nofun

theorem Invariant.pull (inv : Invariant upstream opts s) (hpulling : s.pulling = false)
    (hcancelled : s.cancelled = false) (hopen : s.closeRequested = false) :
    Invariant upstream opts s.pull := by
  obtain ⟨phase, h⟩ := inv.phase
  have hdetached : s.detached = false := inv.delivers.cancelled ▸ hcancelled
  obtain ⟨hclosed, -⟩ := inv.delivers.attached hcancelled
  have hidle : phase = .idle := by
    have hnot : phase.pulling = false := h.pulling ▸ hpulling
    have hnone : phase.drains = false := by
      by_contra hdrains
      rw [h.detached (by simpa using hdrains)] at hdetached
      cases hdetached
    cases phase <;> simp_all [StreamPhase.pulling, StreamPhase.drains]
  subst hidle
  exact ⟨⟨.step, h.pull (hclosed.symm.trans hopen) hdetached⟩, inv.consumed,
    ⟨inv.delivers.cancelled, inv.delivers.attached, inv.delivers.away, inv.delivers.used⟩⟩

theorem Invariant.read (inv : Invariant upstream opts s) (hqueue : s.queue ≠ []) :
    Invariant upstream opts
      { s with queue := s.queue.tail, received := s.received ++ s.queue.head?.toList } := by
  obtain ⟨phase, h⟩ := inv.phase
  refine ⟨⟨phase, h.awaiting, h.jobs, h.inflight, h.pulling, h.drain, h.calls, h.detached, h.undone,
    h.idle, h.ended⟩, inv.consumed, ⟨inv.delivers.cancelled, fun hattached => ?_, fun haway => ?_,
      inv.delivers.used⟩⟩
  · obtain ⟨hclosed, hevents⟩ := inv.delivers.attached hattached
    refine ⟨hclosed, ?_⟩
    rw [List.append_assoc]
    convert hevents using 2
    obtain ⟨text, queue, heq⟩ := List.exists_cons_of_ne_nil hqueue
    simp [heq]
  · exact absurd (inv.delivers.away haway).1 hqueue

theorem Invariant.cancel (inv : Invariant upstream opts s) (hcancelled : s.cancelled = false) :
    Invariant upstream opts s.cancel := by
  obtain ⟨phase, h⟩ := inv.phase
  have hdetached : s.detached = false := inv.delivers.cancelled ▸ hcancelled
  obtain ⟨-, hevents⟩ := inv.delivers.attached hcancelled
  have hprefix : s.received <+: deliveredEvents opts s.consumed := ⟨s.queue, hevents⟩
  have hdrains : phase.drains = false := by
    by_contra hdrains
    rw [h.detached (by simpa using hdrains)] at hdetached
    cases hdetached
  have hjobs := h.jobs
  have hdrain := h.drain
  rw [hdetached] at hjobs hdrain
  have hdelivers {t : DetachableStream α ε} (hdetached : t.detached = true)
      (hcancelled : t.cancelled = true) (hqueue : t.queue = []) (hreceived : t.received = s.received)
      (hconsumed : t.consumed = s.consumed) (hmisused : t.misused = s.misused) : t.Delivers opts :=
    ⟨hcancelled.trans hdetached.symm, fun h => absurd hcancelled (by simp [h]),
      fun _ => ⟨hqueue, by rw [hreceived, hconsumed]; exact hprefix⟩,
      hmisused.trans inv.delivers.used⟩
  unfold DetachableStream.cancel startDrain
  dsimp only
  split
  · rename_i hdone
    refine ⟨⟨.idle, ?_⟩, inv.consumed, hdelivers rfl rfl rfl rfl rfl rfl⟩
    have hidle : phase = .idle := by
      have hahead : phase.ahead ≠ 1 := fun hone => by simp [h.undone hone] at hdone
      cases phase <;> simp_all [StreamPhase.ahead, StreamPhase.drains]
    subst hidle
    exact ⟨h.awaiting, hjobs, h.inflight, h.pulling, hdrain, h.calls, nofun, nofun, fun _ _ => hdone,
      nofun⟩
  · rename_i hopen
    have hopen : s.done = false := by simpa using hopen
    split
    · rename_i hinflight
      have hphase : phase = .idle ∨ phase = .reacted := by
        have hsettled : phase.inflight = true := h.inflight ▸ hinflight
        cases phase <;> simp_all [StreamPhase.inflight, StreamPhase.drains]
      obtain rfl | rfl := hphase
      · refine ⟨⟨.resuming, ?_⟩, inv.consumed, hdelivers rfl rfl rfl rfl rfl rfl⟩
        refine ⟨h.awaiting, ?_, h.inflight, h.pulling, rfl, h.calls, fun _ => rfl, nofun, nofun,
          nofun⟩
        simp [hjobs, StreamPhase.jobs]
      · refine ⟨⟨.reacted, ?_⟩, inv.consumed, hdelivers rfl rfl rfl rfl rfl rfl⟩
        refine ⟨h.awaiting, ?_, h.inflight, h.pulling, rfl, h.calls, nofun, fun _ => hopen, nofun,
          nofun⟩
        simp [hjobs, StreamPhase.jobs]
    · rename_i hinflight
      have hphase : phase = .step ∨ phase = .settled := by
        have hpending : phase.inflight = false := by
          rw [← h.inflight]
          simpa using hinflight
        cases phase <;> simp_all [StreamPhase.inflight]
      obtain rfl | rfl := hphase
      · exact ⟨⟨.step, h.awaiting, hjobs, h.inflight, h.pulling, rfl, h.calls, nofun, fun _ => hopen,
          nofun, nofun⟩, inv.consumed, hdelivers rfl rfl rfl rfl rfl rfl⟩
      · exact ⟨⟨.settled, h.awaiting, hjobs, h.inflight, h.pulling, rfl, h.calls, nofun,
          fun _ => hopen, nofun, nofun⟩, inv.consumed, hdelivers rfl rfl rfl rfl rfl rfl⟩

theorem At.settle_step (h : s.At upstream .step) : s.settle upstream = { s with
      awaiting := [], jobs := [.inflight, .pull (upstream s.consumed.length)] } ∧
    (s.settle upstream).At upstream .settled := by
  have heq : s.settle upstream = { s with
      awaiting := [], jobs := [.inflight, .pull (upstream s.consumed.length)] } := by
    unfold DetachableStream.settle
    rw [h.awaiting, h.jobs, h.calls]
    simp [StreamPhase.awaiting, StreamPhase.jobs, StreamPhase.ahead]
  refine ⟨heq, ?_⟩
  rw [heq]
  exact ⟨rfl, rfl, h.inflight, h.pulling, h.drain, h.calls, nofun, fun _ => h.undone rfl, nofun, nofun⟩

theorem At.settle_draining (h : s.At upstream .draining) : s.settle upstream = { s with
      awaiting := [], jobs := [.drain (upstream s.consumed.length)] } ∧
    (s.settle upstream).At upstream .drained := by
  have heq : s.settle upstream = { s with
      awaiting := [], jobs := [.drain (upstream s.consumed.length)] } := by
    unfold DetachableStream.settle
    rw [h.awaiting, h.jobs, h.calls]
    simp [StreamPhase.awaiting, StreamPhase.jobs, StreamPhase.ahead]
  refine ⟨heq, ?_⟩
  rw [heq]
  exact ⟨rfl, rfl, h.inflight, h.pulling, h.drain, h.calls, fun _ => h.detached rfl,
    fun _ => h.undone rfl, nofun, nofun⟩

theorem Invariant.settle (inv : Invariant upstream opts s) (hawaiting : s.awaiting ≠ []) :
    Invariant upstream opts (s.settle upstream) := by
  obtain ⟨phase, h⟩ := inv.phase
  have hphase : phase = .step ∨ phase = .draining := by
    rw [h.awaiting] at hawaiting
    cases phase <;> simp_all [StreamPhase.awaiting]
  obtain rfl | rfl := hphase
  · obtain ⟨heq, hsettled⟩ := h.settle_step
    rw [heq] at hsettled ⊢
    exact ⟨⟨.settled, hsettled⟩, inv.consumed,
      ⟨inv.delivers.cancelled, inv.delivers.attached, inv.delivers.away, inv.delivers.used⟩⟩
  · obtain ⟨heq, hdrained⟩ := h.settle_draining
    rw [heq] at hdrained ⊢
    exact ⟨⟨.drained, hdrained⟩, inv.consumed,
      ⟨inv.delivers.cancelled, inv.delivers.attached, inv.delivers.away, inv.delivers.used⟩⟩

/-- The loop of `drain` takes another step, or it is over. -/
theorem Invariant.drainLoop (hawaiting : s.awaiting = []) (hjobs : s.jobs = [])
    (hinflight : s.inflight = true) (hpulling : s.pulling = false) (hdetached : s.detached = true)
    (hcalls : s.calls = List.replicate s.consumed.length IteratorCall.next)
    (hconsumed : StepPrefix upstream s.done s.consumed) (hdelivers : s.Delivers opts) :
    Invariant upstream opts s.drainLoop := by
  unfold DetachableStream.drainLoop
  split
  · rename_i hdone
    exact ⟨⟨.ended, hawaiting, hjobs, hinflight, hpulling, rfl, hcalls, fun _ => hdetached, nofun,
      nofun, fun _ => hdone⟩, hconsumed,
      ⟨hdelivers.cancelled, hdelivers.attached, hdelivers.away, hdelivers.used⟩⟩
  · rename_i hopen
    have hopen : s.done = false := by simpa using hopen
    exact ⟨⟨.draining, congrArg (· ++ [StepAwaiter.drain]) hawaiting, hjobs, hinflight, hpulling, rfl,
      next_call hcalls, fun _ => hdetached, fun _ => hopen, nofun, nofun⟩, hconsumed,
      ⟨hdelivers.cancelled, hdelivers.attached, hdelivers.away, hdelivers.used⟩⟩

/-- Whatever is looked at after the client has gone away is not shown to it. -/
theorem Delivers.away_snoc (h : s.Delivers opts) (hdetached : s.detached = true)
    (result : IteratorStep α ε) :
    s.queue = [] ∧ s.received <+: deliveredEvents opts (s.consumed ++ [result]) := by
  obtain ⟨hqueue, hprefix⟩ := h.away (h.cancelled.trans hdetached)
  exact ⟨hqueue, hprefix.trans (deliveredEvents_snoc opts _ _ ▸ List.prefix_append _ _)⟩

theorem Invariant.runPull (inv : Invariant upstream opts s) (h : s.At upstream .reacted)
    {jobs : List (StreamJob α ε)} (hjobs : jobs = if s.detached then [.resume] else []) :
    Invariant upstream opts
      ({ s with jobs }.runJob opts (.pull (upstream s.consumed.length))) := by
  have hundone := h.undone rfl
  have hsnoc : StepPrefix upstream (upstream s.consumed.length).isEnd
      (s.consumed ++ [upstream s.consumed.length]) :=
    StepPrefix.snoc (hundone ▸ inv.consumed) rfl
  have hcalls : s.calls =
      List.replicate (s.consumed ++ [upstream s.consumed.length]).length IteratorCall.next := by
    rw [List.length_append]
    exact h.calls
  unfold runJob consume
  dsimp only
  obtain hdetached | hdetached := Bool.eq_false_or_eq_true s.detached
  swap
  · have hcancelled : s.cancelled = false := inv.delivers.cancelled.trans hdetached
    obtain ⟨hclosed, hevents⟩ := inv.delivers.attached hcancelled
    rw [hdetached] at hjobs
    rw [pulled_of_attached (by exact hdetached) (by exact hcancelled)
      (by exact hclosed.trans hundone) _ (by exact hundone)]
    refine ⟨⟨.idle, h.awaiting, hjobs, h.inflight, rfl, ?_, hcalls, nofun, nofun, fun _ haway => ?_,
      nofun⟩, hsnoc, ⟨inv.delivers.cancelled, fun _ => ⟨rfl, ?_⟩, fun haway => ?_,
        inv.delivers.used⟩⟩
    · have hdrain := h.drain
      rwa [hdetached] at hdrain
    · exact absurd haway (by simp [hdetached])
    · dsimp only
      rw [deliveredEvents_snoc, ← hevents, List.append_assoc]
    · exact absurd haway (by simp [hcancelled])
  · rw [hdetached] at hjobs
    rw [pulled_of_detached (by exact hdetached) (by exact hundone)]
    refine ⟨⟨.resuming, h.awaiting, hjobs, h.inflight, rfl, ?_, hcalls, fun _ => hdetached, nofun,
      nofun, nofun⟩, hsnoc, ⟨inv.delivers.cancelled, fun hattached => ?_,
        fun _ => inv.delivers.away_snoc hdetached _, inv.delivers.used⟩⟩
    · have hdrain := h.drain
      rwa [hdetached] at hdrain
    · exact absurd hattached (by simp [inv.delivers.cancelled, hdetached])

theorem Invariant.runDrain (inv : Invariant upstream opts s) (h : s.At upstream .drained) :
    Invariant upstream opts
      ({ s with jobs := [] }.runJob opts (.drain (upstream s.consumed.length))) := by
  have hundone := h.undone rfl
  have hdetached := h.detached rfl
  have hsnoc : StepPrefix upstream (upstream s.consumed.length).isEnd
      (s.consumed ++ [upstream s.consumed.length]) :=
    StepPrefix.snoc (hundone ▸ inv.consumed) rfl
  have hcalls : s.calls =
      List.replicate (s.consumed ++ [upstream s.consumed.length]).length IteratorCall.next := by
    rw [List.length_append]
    exact h.calls
  have hdelivers {t : DetachableStream α ε} (hcancelled : t.cancelled = s.cancelled)
      (haway : t.detached = true) (hqueue : t.queue = s.queue) (hreceived : t.received = s.received)
      (hconsumed : t.consumed = s.consumed ++ [upstream s.consumed.length])
      (hmisused : t.misused = s.misused) : t.Delivers opts := by
    have hcancelled := hcancelled.trans (inv.delivers.cancelled.trans hdetached)
    refine ⟨hcancelled.trans haway.symm, fun hattached => absurd hcancelled (by simp [hattached]),
      fun _ => ?_, hmisused.trans inv.delivers.used⟩
    rw [hqueue, hreceived, hconsumed]
    exact inv.delivers.away_snoc hdetached _
  unfold runJob consume
  dsimp only
  generalize upstream s.consumed.length = result at hsnoc hcalls hdelivers ⊢
  cases result with
  | event value =>
      refine Invariant.drainLoop h.awaiting rfl h.inflight h.pulling hdetached hcalls ?_
        (hdelivers rfl hdetached rfl rfl rfl rfl)
      exact (show s.done = false from hundone) ▸ hsnoc
  | done =>
      exact Invariant.drainLoop h.awaiting rfl h.inflight h.pulling hdetached hcalls hsnoc
        (hdelivers rfl hdetached rfl rfl rfl rfl)
  | failed err =>
      exact ⟨⟨.ended, h.awaiting, rfl, h.inflight, h.pulling, rfl, hcalls, fun _ => hdetached, nofun,
        nofun, fun _ => rfl⟩, hsnoc, hdelivers rfl hdetached rfl rfl rfl rfl⟩

/-- When the step has settled, a drain that waits for it goes on after `pull`. -/
theorem At.react (opts : SseOptions α ε) (h : s.At upstream .settled) : s.apply upstream opts .job = { s with
      inflight := true, drain := StreamPhase.reacted.drain s.detached
      jobs := StreamPhase.reacted.jobs s.detached (upstream s.consumed.length) } ∧
    (s.apply upstream opts .job).At upstream .reacted := by
  have hjobs : s.jobs = [.inflight, .pull (upstream s.consumed.length)] := h.jobs
  have hdrain : s.drain = if s.detached then .inflight else .off := h.drain
  have heq : s.apply upstream opts .job = { s with
      inflight := true, drain := StreamPhase.reacted.drain s.detached
      jobs := StreamPhase.reacted.jobs s.detached (upstream s.consumed.length) } := by
    simp only [DetachableStream.apply, hjobs, runJob]
    obtain hdetached | hdetached := Bool.eq_false_or_eq_true s.detached
    · simp [hdetached, hdrain, startDrain, StreamPhase.drain, StreamPhase.jobs]
    · simp [hdetached, hdrain, StreamPhase.drain, StreamPhase.jobs]
  refine ⟨heq, ?_⟩
  rw [heq]
  exact ⟨h.awaiting, rfl, rfl, h.pulling, rfl, h.calls, (by rintro ⟨⟩), fun _ => h.undone rfl, (by simp), (by simp)⟩

theorem Invariant.job (inv : Invariant upstream opts s) (hjobs : s.jobs ≠ []) :
    Invariant upstream opts (s.apply upstream opts .job) := by
  obtain ⟨phase, h⟩ := inv.phase
  have heq := h.jobs
  cases phase with
  | settled =>
      obtain ⟨heq, hreacted⟩ := h.react opts
      rw [heq] at hreacted ⊢
      exact ⟨⟨.reacted, hreacted⟩, inv.consumed,
        ⟨inv.delivers.cancelled, inv.delivers.attached, inv.delivers.away, inv.delivers.used⟩⟩
  | reacted =>
      simp only [DetachableStream.apply]
      rw [show s.jobs = .pull (upstream s.consumed.length) ::
        if s.detached then [.resume] else [] from heq]
      exact inv.runPull h rfl
  | resuming =>
      simp only [DetachableStream.apply]
      rw [show s.jobs = [.resume] from heq]
      exact Invariant.drainLoop h.awaiting rfl h.inflight h.pulling (h.detached rfl) h.calls
        inv.consumed ⟨inv.delivers.cancelled, inv.delivers.attached, inv.delivers.away,
          inv.delivers.used⟩
  | drained =>
      simp only [DetachableStream.apply]
      rw [show s.jobs = [.drain (upstream s.consumed.length)] from heq]
      exact inv.runDrain h
  | idle => exact absurd heq hjobs
  | step => exact absurd heq hjobs
  | draining => exact absurd heq hjobs
  | ended => exact absurd heq hjobs

theorem Invariant.apply (inv : Invariant upstream opts s) {a : StreamAction} (h : s.enabled a) :
    Invariant upstream opts (s.apply upstream opts a) := by
  cases a with
  | pull => exact inv.pull h.1 h.2.1 h.2.2
  | read => exact inv.read h
  | cancel => exact inv.cancel h.1
  | settle => exact inv.settle h
  | job => exact inv.job h

theorem invariant_of_reachable (h : (streamSystem upstream opts).Reachable s) :
    Invariant upstream opts s := by
  refine h.invariant ?_ ?_
  · rintro s rfl
    exact .init
  · rintro s a t hs ⟨henabled, rfl⟩
    exact hs.apply henabled

/-! ## Runs come to the end of the iterator -/

@[simp] theorem enqueue_frame (s : DetachableStream α ε) (text : String) :
    (s.enqueue text).consumed = s.consumed ∧ (s.enqueue text).cancelled = s.cancelled := by
  unfold enqueue
  split <;> exact ⟨rfl, rfl⟩

@[simp] theorem close_frame (s : DetachableStream α ε) :
    s.close.consumed = s.consumed ∧ s.close.cancelled = s.cancelled := by
  unfold close
  split <;> exact ⟨rfl, rfl⟩

theorem pulled_frame (opts : SseOptions α ε) (s : DetachableStream α ε) (result : IteratorStep α ε) :
    (s.pulled opts result).consumed = s.consumed ∧
      (s.pulled opts result).cancelled = s.cancelled := by
  cases result <;> simp only [pulled, reportError] <;> repeat' split
  all_goals simp

theorem drainLoop_frame (s : DetachableStream α ε) :
    s.drainLoop.consumed = s.consumed ∧ s.drainLoop.cancelled = s.cancelled := by
  unfold DetachableStream.drainLoop
  split <;> exact ⟨rfl, rfl⟩

theorem drained_frame (s : DetachableStream α ε) (result : IteratorStep α ε) :
    (s.drained result).consumed = s.consumed ∧ (s.drained result).cancelled = s.cancelled := by
  cases result with
  | event value => exact drainLoop_frame s
  | done => exact drainLoop_frame { s with done := true }
  | failed err => exact ⟨rfl, rfl⟩

theorem At.resume (opts : SseOptions α ε) (h : s.At upstream .resuming) (hundone : s.done = false) :
    s.apply upstream opts .job = { s with
      jobs := [], calls := s.calls ++ [.next], awaiting := [.drain], drain := .step } ∧
    (s.apply upstream opts .job).At upstream .draining := by
  have hjobs : s.jobs = [.resume] := h.jobs
  have heq : s.apply upstream opts .job = { s with
      jobs := [], calls := s.calls ++ [.next], awaiting := [.drain], drain := .step } := by
    have hawaiting : s.awaiting = [] := h.awaiting
    simp [DetachableStream.apply, hjobs, runJob, DetachableStream.drainLoop, hundone, next, hawaiting]
  refine ⟨heq, ?_⟩
  rw [heq]
  exact ⟨rfl, rfl, h.inflight, h.pulling, rfl, next_call h.calls, fun _ => h.detached rfl,
    fun _ => hundone, (by simp), (by simp)⟩

/-- A step that takes the stream nearer to the end of the iterator. -/
structure Nearer (upstream : ℕ → IteratorStep α ε) (phase : StreamPhase)
    (s t : DetachableStream α ε) : Prop where
  cancelled : t.cancelled = s.cancelled
  nearer : t.consumed.length = s.consumed.length + 1 ∨
    t.consumed.length = s.consumed.length ∧ ∃ phase', t.At upstream phase' ∧
      phase'.weight < phase.weight

theorem exists_nearer (inv : Invariant upstream opts s) (h : s.At upstream phase)
    (hundone : s.done = false) :
    ∃ a, a ≠ .cancel ∧ a ≠ .read ∧ s.enabled a ∧ Nearer upstream phase s (s.apply upstream opts a) := by
  cases phase with
  | idle =>
      have hdetached : s.detached = false := by
        by_contra haway
        simp [h.idle rfl (by simpa using haway)] at hundone
      have hcancelled : s.cancelled = false := inv.delivers.cancelled.trans hdetached
      refine ⟨.pull, nofun, nofun, ⟨h.pulling, hcancelled, ?_⟩, rfl, .inr ⟨rfl, .step, ?_, by decide⟩⟩
      · exact (inv.delivers.attached hcancelled).1.trans hundone
      · exact h.pull hundone hdetached
  | step =>
      obtain ⟨heq, hsettled⟩ := h.settle_step
      refine ⟨.settle, nofun, nofun, by simp [enabled, h.awaiting, StreamPhase.awaiting], ?_⟩
      change Nearer upstream .step s (s.settle upstream)
      rw [heq] at hsettled ⊢
      exact ⟨rfl, .inr ⟨rfl, .settled, hsettled, by decide⟩⟩
  | settled =>
      obtain ⟨heq, hreacted⟩ := h.react opts
      refine ⟨.job, nofun, nofun, by simp [enabled, h.jobs, StreamPhase.jobs], ?_⟩
      rw [heq] at hreacted ⊢
      exact ⟨rfl, .inr ⟨rfl, .reacted, hreacted, by decide⟩⟩
  | reacted =>
      have hjobs : s.jobs = .pull (upstream s.consumed.length) ::
        if s.detached then [.resume] else [] := h.jobs
      refine ⟨.job, nofun, nofun, by simp [enabled, hjobs], ?_⟩
      simp only [DetachableStream.apply, hjobs, runJob]
      obtain ⟨hconsumed, hcancelled⟩ := pulled_frame opts
        (consume { s with
          pulling := false, jobs := if s.detached then [.resume] else [] }
          (upstream s.consumed.length)) (upstream s.consumed.length)
      exact ⟨hcancelled, .inl (by rw [hconsumed]; simp [consume])⟩
  | resuming =>
      obtain ⟨heq, hdraining⟩ := h.resume opts hundone
      refine ⟨.job, nofun, nofun, by simp [enabled, h.jobs, StreamPhase.jobs], ?_⟩
      rw [heq] at hdraining ⊢
      exact ⟨rfl, .inr ⟨rfl, .draining, hdraining, by decide⟩⟩
  | draining =>
      obtain ⟨heq, hdrained⟩ := h.settle_draining
      refine ⟨.settle, nofun, nofun, by simp [enabled, h.awaiting, StreamPhase.awaiting], ?_⟩
      change Nearer upstream .draining s (s.settle upstream)
      rw [heq] at hdrained ⊢
      exact ⟨rfl, .inr ⟨rfl, .drained, hdrained, by decide⟩⟩
  | drained =>
      have hjobs : s.jobs = [.drain (upstream s.consumed.length)] := h.jobs
      refine ⟨.job, nofun, nofun, by simp [enabled, hjobs], ?_⟩
      simp only [DetachableStream.apply, hjobs, runJob]
      obtain ⟨hconsumed, hcancelled⟩ := drained_frame
        (consume { s with jobs := [] } (upstream s.consumed.length)) (upstream s.consumed.length)
      exact ⟨hcancelled, .inl (by rw [hconsumed]; simp [consume])⟩
  | ended => simp [h.ended rfl] at hundone

/-- The client neither goes away nor reads, and the iterator comes to its end. -/
def Finishes (upstream : ℕ → IteratorStep α ε) (opts : SseOptions α ε) (s : DetachableStream α ε) :
    Prop :=
  ∃ labels t, .cancel ∉ labels ∧ .read ∉ labels ∧ (streamSystem upstream opts).Run s labels t ∧
    t.cancelled = s.cancelled ∧ t.done = true

theorem finishes_of_isEnd {N : ℕ} (hend : (upstream N).isEnd = true)
    (inv : Invariant upstream opts s) : Finishes upstream opts s := by
  obtain ⟨phase, h⟩ := inv.phase
  induction hn : 6 * (N + 1 - s.consumed.length) + phase.weight using Nat.strongRecOn
    generalizing s phase with
  | ind n ih =>
      subst hn
      by_cases hdone : s.done = true
      · exact ⟨[], s, by simp, by simp, .nil s, rfl, hdone⟩
      have hundone : s.done = false := by simpa using hdone
      -- The end of the iterator is still ahead.
      have hahead : s.consumed.length ≤ N := by
        by_contra hbehind
        have hin : upstream N ∈ s.consumed := by
          rw [inv.consumed.order]
          exact List.mem_map_of_mem (List.mem_range.mpr (by omega))
        rw [inv.consumed.unended hundone _ hin] at hend
        cases hend
      obtain ⟨a, hcancel, hread, henabled, hnearer⟩ := exists_nearer inv h hundone
      have hnext := inv.apply henabled
      obtain ⟨phase', h', hlt⟩ : ∃ phase', (s.apply upstream opts a).At upstream phase' ∧
          6 * (N + 1 - (s.apply upstream opts a).consumed.length) + phase'.weight <
            6 * (N + 1 - s.consumed.length) + phase.weight := by
        obtain hmore | ⟨hsame, phase', h', hlt⟩ := hnearer.nearer
        · obtain ⟨phase', h'⟩ := hnext.phase
          have hweight : phase'.weight < 6 := by cases phase' <;> decide
          exact ⟨phase', h', by omega⟩
        · exact ⟨phase', h', by omega⟩
      obtain ⟨labels, t, hcancels, hreads, hrun, hsame, hfinal⟩ := ih _ hlt hnext phase' h' rfl
      refine ⟨a :: labels, t, ?_, ?_, hrun.cons ⟨henabled, rfl⟩, hsame.trans hnearer.cancelled, hfinal⟩
      · simp [hcancels, Ne.symm hcancel]
      · simp [hreads, Ne.symm hread]

/-! ## The contract -/

structure StreamSpec (upstream : ℕ → IteratorStep α ε) (opts : SseOptions α ε)
    (s : DetachableStream α ε) : Prop where
  /-- Calls of `next` do not overlap, and they are the only ones. -/
  single : s.awaiting.length ≤ 1
  calls : ∀ call ∈ s.calls, call = .next
  counted : s.calls.length ≤ s.consumed.length + 1
  consumed : StepPrefix upstream s.done s.consumed
  attached : s.cancelled = false → s.closeRequested = s.done ∧
    s.received ++ s.queue = deliveredEvents opts s.consumed
  away : s.cancelled = true → s.queue = [] ∧ s.received <+: deliveredEvents opts s.consumed
  lawful : s.misused = false
  finishes : ∀ N, (upstream N).isEnd = true → Finishes upstream opts s

theorem streamSpec_of_reachable (h : (streamSystem upstream opts).Reachable s) :
    StreamSpec upstream opts s := by
  have inv := invariant_of_reachable h
  obtain ⟨phase, hphase⟩ := inv.phase
  exact {
    single := by
      rw [hphase.awaiting]
      cases phase <;> decide
    calls := by
      rw [hphase.calls]
      exact fun call hin => (List.mem_replicate.mp hin).2
    counted := by
      rw [hphase.calls, List.length_replicate]
      cases phase <;> simp [StreamPhase.ahead]
    consumed := inv.consumed
    attached := inv.delivers.attached
    away := inv.delivers.away
    lawful := inv.delivers.used
    finishes := fun N hend => finishes_of_isEnd hend inv }

section Witness

def exampleUpstream : ℕ → IteratorStep String String
  | 0 => .event "a"
  | 1 => .event "b"
  | _ => .done

def exampleSse : SseOptions String String where
  stringify value := "\"" ++ value ++ "\""

/-- The client goes away while its second pull is in flight. -/
def cancelledInFlight : List StreamAction :=
  [.pull, .settle, .job, .job, .read, .pull, .cancel, .settle, .job, .job, .job, .settle, .job]

def cancelledStream : DetachableStream String String :=
  cancelledInFlight.foldl (apply exampleUpstream exampleSse) {}

theorem streamSpec_of_reachable_cancelled :
    cancelledStream.received = ["data: \"a\"\n\n"] ∧ cancelledStream.done = true ∧
      cancelledStream.consumed.length = 3 ∧
      StreamSpec exampleUpstream exampleSse cancelledStream :=
  ⟨by decide +kernel, by decide +kernel, by decide +kernel,
    streamSpec_of_reachable (System.Legal.reachable (by decide +kernel) (.of_init rfl))⟩

end Witness

end DetachableStream

end VicoopBridge
