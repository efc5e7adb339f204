import Mathlib.Data.List.Basic

/-! # Streams that outlive their reader

The body of a `message/stream` response. While a client reads it, every pull takes one step of the
upstream iterator; after a cancel the remaining steps are drained. A promise that settles leaves its
reactions in the queue of jobs, in the order in which they were registered. -/

namespace VicoopBridge

universe u v

/-- What a call of `next` comes to. -/
inductive IteratorStep (α : Type u) (ε : Type v) where
  | event (value : α)
  | done
  | failed (err : ε)

def IteratorStep.isEnd {α : Type u} {ε : Type v} : IteratorStep α ε → Bool
  | .event _ => false
  | .done | .failed _ => true

/-- The methods of the iterator. -/
inductive IteratorCall where
  | next
  | returned
  deriving DecidableEq

/-- `stringify` is `JSON.stringify`. -/
structure SseOptions (α : Type u) (ε : Type v) where
  stringify : α → String
  errorEvent : Option (ε → α) := none

def SseOptions.data {α : Type u} {ε : Type v} (opts : SseOptions α ε) (value : α) : String :=
  "data: " ++ opts.stringify value ++ "\n\n"

/-- Who awaits the promise of a call of `next`. -/
inductive StepAwaiter where
  | pull
  | drain
  deriving DecidableEq

/-- Where `drain` stands: it awaits `inflight`, its continuation is queued, or it awaits a step of its
own. -/
inductive DrainWait where
  | off
  | inflight
  | resumed
  | step
  | over
  deriving DecidableEq

inductive StreamJob (α : Type u) (ε : Type v) where
  | inflight
  | pull (result : IteratorStep α ε)
  | resume
  | drain (result : IteratorStep α ε)

/-- `inflight` says that the promise has settled. `awaiting` are the calls of `next` that have not,
and `consumed` the results that have been looked at. The rest is the stream: `misused` says that
`enqueue` or `close` has thrown. -/
structure DetachableStream (α : Type u) (ε : Type v) where
  inflight : Bool := true
  done : Bool := false
  detached : Bool := false
  pulling : Bool := false
  drain : DrainWait := .off
  jobs : List (StreamJob α ε) := []
  calls : List IteratorCall := []
  awaiting : List StepAwaiter := []
  consumed : List (IteratorStep α ε) := []
  queue : List String := []
  received : List String := []
  closeRequested : Bool := false
  cancelled : Bool := false
  misused : Bool := false

/-- What the Streams standard, the iterator and the engine do next. -/
inductive StreamAction where
  | pull
  | read
  | cancel
  | settle
  | job
  deriving DecidableEq

namespace DetachableStream

variable {α : Type u} {ε : Type v}
variable (upstream : ℕ → IteratorStep α ε) (opts : SseOptions α ε) (s : DetachableStream α ε)

/-! ## The controller -/

def enqueue (text : String) : DetachableStream α ε :=
  if s.closeRequested || s.cancelled then { s with misused := true }
  else { s with queue := s.queue ++ [text] }

def close : DetachableStream α ε :=
  if s.closeRequested || s.cancelled then { s with misused := true }
  else { s with closeRequested := true }

/-! ## `detachableSseStream` -/

def next (awaiter : StepAwaiter) : DetachableStream α ε :=
  { s with calls := s.calls ++ [.next], awaiting := s.awaiting ++ [awaiter] }

/-- Up to `await step`. -/
def pull : DetachableStream α ε := { s.next .pull with inflight := false, pulling := true }

def reportError (err : ε) : DetachableStream α ε :=
  match opts.errorEvent with
  | some errorEvent => (s.enqueue (opts.data (errorEvent err))).close
  | none => s.close

/-- The rest of `pull`. -/
def pulled : IteratorStep α ε → DetachableStream α ε
  | .failed err =>
      let s := { s with done := true }
      if s.detached then s else s.reportError opts err
  | .done =>
      let s := { s with done := true }
      if s.detached then s else s.close
  | .event value => if s.detached then s else s.enqueue (opts.data value)

/-- `while (!done)` -/
def drainLoop : DetachableStream α ε :=
  if s.done then { s with drain := .over } else { s.next .drain with drain := .step }

def drained : IteratorStep α ε → DetachableStream α ε
  | .event _ => s.drainLoop
  | .done => { s with done := true }.drainLoop
  | .failed _ => { s with done := true, drain := .over }

/-- An `await` of a settled promise queues its continuation at once. -/
def startDrain : DetachableStream α ε :=
  if s.inflight then { s with drain := .resumed, jobs := s.jobs ++ [.resume] }
  else { s with drain := .inflight }

def cancel : DetachableStream α ε :=
  let s := { s with cancelled := true, queue := [], detached := true }
  if s.done then s else s.startDrain

/-! ## Promises -/

/-- The calls settle in their order. `step.catch` is registered before the `await`. -/
def settle : DetachableStream α ε :=
  match s.awaiting with
  | [] => s
  | awaiter :: rest =>
      let result := upstream (s.calls.length - s.awaiting.length)
      { s with
        awaiting := rest
        jobs := s.jobs ++ match awaiter with
          | .pull => [.inflight, .pull result]
          | .drain => [.drain result] }

def consume (result : IteratorStep α ε) : DetachableStream α ε :=
  { s with consumed := s.consumed ++ [result] }

def runJob : StreamJob α ε → DetachableStream α ε
  | .inflight =>
      let s := { s with inflight := true }
      if s.drain = .inflight then s.startDrain else s
  | .pull result => ({ s with pulling := false }.consume result).pulled opts result
  | .resume => s.drainLoop
  | .drain result => (s.consume result).drained result

def apply : StreamAction → DetachableStream α ε
  | .pull => s.pull
  | .read => { s with queue := s.queue.tail, received := s.received ++ s.queue.head?.toList }
  | .cancel => s.cancel
  | .settle => s.settle upstream
  | .job =>
      match s.jobs with
      | [] => s
      | job :: jobs => { s with jobs }.runJob opts job

/-- The standard calls `pull` again only after the last pull, and `cancel` once. -/
def enabled : StreamAction → Prop
  | .pull => s.pulling = false ∧ s.cancelled = false ∧ s.closeRequested = false
  | .read => s.queue ≠ []
  | .cancel => s.cancelled = false ∧ (s.closeRequested = true → s.queue ≠ [])
  | .settle => s.awaiting ≠ []
  | .job => s.jobs ≠ []

instance decidableStreamEnabled : ∀ a, Decidable (s.enabled a)
  | .pull => inferInstanceAs (Decidable (_ ∧ _ ∧ _))
  | .read => inferInstanceAs (Decidable (s.queue ≠ []))
  | .cancel => inferInstanceAs (Decidable (_ ∧ (_ → s.queue ≠ [])))
  | .settle => inferInstanceAs (Decidable (s.awaiting ≠ []))
  | .job => decidable_of_iff (s.jobs.isEmpty = false) (by simp [enabled])

end DetachableStream

end VicoopBridge
