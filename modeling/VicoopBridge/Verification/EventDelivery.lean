import VicoopBridge.Verification.EventQueue
import VicoopBridge.Library.Transition

/-! # A reader of the event queue

The consumer runs the `iterate` loop of an `AsyncEventQueue` under a signal that never
fires. Producers may act between any two turns of the loop, and between the settling of the
promise the consumer is parked on and the moment it sees that. -/

namespace VicoopBridge.EventDelivery

open Library

universe u v

variable {α : Type u} {ε : Type v}

/-- Where the consumer's loop stands. -/
inductive Consumer (ε : Type v) where
  | ready
  | parked
  | finished (failure : Option ε)
  deriving DecidableEq

inductive Action (α : Type u) (ε : Type v) where
  | push (item : α)
  | end'
  | fail (error : ε)
  | read
  | wake
  deriving DecidableEq

structure State (α : Type u) (ε : Type v) where
  queue : AsyncEventQueue α ε := {}
  consumer : Consumer ε := .ready
  received : List α := []
  deriving DecidableEq

def Action.isConsumer : Action α ε → Bool
  | .read | .wake => true
  | _ => false

/-- The consumer gets what a turn of its loop has come to. -/
def State.receive (s : State α ε) (turn : IterateResult α ε × AsyncEventQueue α ε) : State α ε :=
  match turn.1 with
  | .yielded item => ⟨turn.2, .ready, s.received ++ [item]⟩
  | .thrown error => ⟨turn.2, .finished (some error), s.received⟩
  | .returned => ⟨turn.2, .finished none, s.received⟩
  | .parked => ⟨turn.2, .parked, s.received⟩

def Enabled (s : State α ε) : Action α ε → Prop
  | .read => s.consumer = .ready
  | .wake => s.consumer = .parked ∧ s.queue.resume.isSome
  | _ => True

instance [DecidableEq ε] (s : State α ε) (a : Action α ε) : Decidable (Enabled s a) :=
  match a with
  | .read => inferInstanceAs (Decidable (s.consumer = .ready))
  | .wake => inferInstanceAs (Decidable (s.consumer = .parked ∧ s.queue.resume.isSome))
  | .push _ | .end' | .fail _ => isTrue trivial

def apply (s : State α ε) : Action α ε → State α ε
  | .push item => { s with queue := s.queue.push item }
  | .end' => { s with queue := s.queue.end }
  | .fail error => { s with queue := s.queue.fail error }
  | .read => s.receive (s.queue.next false)
  | .wake =>
      match s.queue.resume with
      | some turn => s.receive turn
      | none => s

def system : System (State α ε) (Action α ε) := .ofApply (· = {}) Enabled apply

/-! ## What the producers have done -/

/-- How the queue was closed first, if it was: ended, or failed with an error. -/
def ending : List (Action α ε) → Option (Option ε)
  | [] => none
  | .end' :: _ => some none
  | .fail error :: _ => some (some error)
  | _ :: rest => ending rest

/-- The items pushed before that. -/
def accepted : List (Action α ε) → List α
  | [] => []
  | .push item :: rest => item :: accepted rest
  | .end' :: _ | .fail _ :: _ => []
  | _ :: rest => accepted rest

theorem ending_append (labels more : List (Action α ε)) :
    ending (labels ++ more) = (ending labels).or (ending more) := by
  induction labels with
  | nil => rfl
  | cons a labels ih => cases a <;> simp [ending, ih]

theorem accepted_append_of_open {labels : List (Action α ε)} (h : ending labels = none)
    (more : List (Action α ε)) : accepted (labels ++ more) = accepted labels ++ accepted more := by
  induction labels with
  | nil => rfl
  | cons a labels ih =>
      cases a with
      | push item => simpa [accepted] using ih h
      | end' => simp [ending] at h
      | fail error => simp [ending] at h
      | read => exact ih h
      | wake => exact ih h

theorem accepted_append_of_ended {labels : List (Action α ε)} {outcome : Option ε}
    (h : ending labels = some outcome) (more : List (Action α ε)) :
    accepted (labels ++ more) = accepted labels := by
  induction labels with
  | nil => simp [ending] at h
  | cons a labels ih =>
      cases a with
      | push item => simpa [accepted] using ih h
      | end' => rfl
      | fail error => rfl
      | read => exact ih h
      | wake => exact ih h

/-! ## One step of a producer -/

section Queue

variable {q : AsyncEventQueue α ε}

/-- How the queue itself will end its reader. -/
def closing (q : AsyncEventQueue α ε) : Option (Option ε) :=
  match q.failure with
  | some error => some (some error)
  | none => if q.closed then some none else none

theorem closing_eq_none :
    closing q = none ↔ q.closed = false ∧ q.failure = none := by
  unfold closing
  cases q.failure <;> simp

theorem push_of_closing {outcome : Option ε} (h : closing q = some outcome) (item : α) :
    q.push item = q := by
  have hclosed : (q.closed || q.failure.isSome) = true := by
    by_contra hopen
    have hnone : closing q = none := closing_eq_none.mpr (by simpa using hopen)
    simp [hnone] at h
  simp [AsyncEventQueue.push, hclosed]

theorem fail_of_closing {outcome : Option ε} (h : closing q = some outcome) (error : ε) :
    q.fail error = q := by
  have hclosed : (q.closed || q.failure.isSome) = true := by
    by_contra hopen
    have hnone : closing q = none := closing_eq_none.mpr (by simpa using hopen)
    simp [hnone] at h
  simp [AsyncEventQueue.fail, hclosed]

theorem push_waiting (h : closing q = none) (hw : q.waiter = .waiting) (item : α) :
    q.push item = { q with waiter := .resolved (.value item) } := by
  simp [AsyncEventQueue.push, closing_eq_none.mp h, hw]

theorem push_busy (h : closing q = none) (hw : q.waiter ≠ .waiting) (item : α) :
    q.push item = { q with buffer := q.buffer ++ [item] } := by
  unfold AsyncEventQueue.push
  rw [(closing_eq_none.mp h).1, (closing_eq_none.mp h).2]
  cases hwaiter : q.waiter with
  | waiting => exact absurd hwaiter hw
  | idle => rfl
  | resolved w => rfl

/-- What a parked consumer is woken with when the queue is closed. -/
def wakeup : Option ε → Wakeup α ε
  | none => .done
  | some error => .error error

/-- How the reader stands to the queue it reads, before and after its end. -/
inductive Turn : Option (Option ε) → Consumer ε → AsyncEventQueue α ε → Prop where
  | ready {ended : Option (Option ε)} {q : AsyncEventQueue α ε} (waiter : q.waiter = .idle) :
      Turn ended .ready q
  | waiting {q : AsyncEventQueue α ε} (waiter : q.waiter = .waiting) (buffer : q.buffer = []) :
      Turn none .parked q
  | given {ended : Option (Option ε)} {q : AsyncEventQueue α ε} (item : α)
      (waiter : q.waiter = .resolved (.value item)) : Turn ended .parked q
  | released {outcome : Option ε} {q : AsyncEventQueue α ε}
      (waiter : q.waiter = .resolved (wakeup outcome)) (buffer : q.buffer = []) :
      Turn (some outcome) .parked q
  | finished {outcome : Option ε} {q : AsyncEventQueue α ε} (waiter : q.waiter = .idle)
      (buffer : q.buffer = []) : Turn (some outcome) (.finished outcome) q

theorem pending_eq_buffer (h : ∀ item, q.waiter ≠ .resolved (.value item)) :
    q.pending = q.buffer := by
  unfold AsyncEventQueue.pending
  split
  · rename_i item hw
    exact absurd hw (h item)
  · rfl

theorem pending_given {item : α} (h : q.waiter = .resolved (.value item)) :
    q.pending = item :: q.buffer := by
  unfold AsyncEventQueue.pending
  rw [h]

theorem pending_idle (h : q.waiter = .idle) : q.pending = q.buffer :=
  pending_eq_buffer (by simp [h])

theorem pending_released {outcome : Option ε} (h : q.waiter = .resolved (wakeup outcome)) :
    q.pending = q.buffer :=
  pending_eq_buffer (by cases outcome <;> simp [h, wakeup])

/-- A push that is taken leaves the reader where it is, or hands it the item. -/
theorem Turn.push {consumer : Consumer ε} (h : Turn none consumer q) (hopen : closing q = none)
    (item : α) :
    Turn none consumer (q.push item) ∧ closing (q.push item) = none ∧
      (q.push item).pending = q.pending ++ [item] := by
  cases h with
  | ready hw =>
      have hpush := push_busy hopen (by simp [hw]) item
      refine ⟨.ready (by rw [hpush]; exact hw), by rw [hpush]; exact hopen, ?_⟩
      rw [pending_idle (by rw [hpush]; exact hw), pending_idle hw, hpush]
  | waiting hw hb =>
      have hpush := push_waiting hopen hw item
      refine ⟨.given item (by rw [hpush]), by rw [hpush]; exact hopen, ?_⟩
      rw [pending_given (by rw [hpush]), pending_eq_buffer (by simp [hw]), hpush, hb]
      rfl
  | given first hw =>
      have hpush := push_busy hopen (by simp [hw]) item
      refine ⟨.given first (by rw [hpush]; exact hw), by rw [hpush]; exact hopen, ?_⟩
      rw [pending_given (by rw [hpush]; exact hw), pending_given hw, hpush]
      rfl

/-- Closing changes neither the buffer nor what a woken reader holds. -/
theorem Turn.closed {consumer : Consumer ε} (q' : AsyncEventQueue α ε) (outcome : Option ε)
    (h : Turn none consumer q) (hbuffer : q'.buffer = q.buffer)
    (hwaiting : q.waiter = .waiting → q'.waiter = .resolved (wakeup outcome))
    (hkept : q.waiter ≠ .waiting → q'.waiter = q.waiter) :
    Turn (some outcome) consumer q' ∧ q'.pending = q.pending := by
  cases h with
  | ready hw =>
      have hw' : q'.waiter = .idle := by rw [hkept (by simp [hw]), hw]
      exact ⟨.ready hw', by rw [pending_idle hw', pending_idle hw, hbuffer]⟩
  | waiting hw hb =>
      refine ⟨.released (hwaiting hw) (by rw [hbuffer, hb]), ?_⟩
      rw [pending_released (hwaiting hw), pending_eq_buffer (by simp [hw]), hbuffer]
  | given item hw =>
      have hw' : q'.waiter = .resolved (.value item) := by rw [hkept (by simp [hw]), hw]
      exact ⟨.given item hw', by rw [pending_given hw', pending_given hw, hbuffer]⟩

theorem Turn.end {consumer : Consumer ε} (h : Turn none consumer q) (hopen : closing q = none) :
    Turn (some none) consumer q.end ∧ closing q.end = some none ∧ q.end.pending = q.pending := by
  obtain ⟨hclosed, hfailure⟩ := closing_eq_none.mp hopen
  rcases AsyncEventQueue.end_cases (q := q) with heq | ⟨-, ⟨hw, heq⟩ | ⟨hw, heq⟩⟩
  · have hend : q.end.closed = true := AsyncEventQueue.end_closed
    rw [heq, hclosed] at hend
    exact absurd hend Bool.false_ne_true
  · obtain ⟨hturn, hpending⟩ := h.closed q.end none (by rw [heq])
      (fun _ => by rw [heq]; rfl) (fun hne => absurd hw hne)
    exact ⟨hturn, by rw [heq]; simp [closing, hfailure], hpending⟩
  · obtain ⟨hturn, hpending⟩ := h.closed q.end none (by rw [heq])
      (fun hwaiting => absurd hwaiting hw) (fun _ => by rw [heq])
    exact ⟨hturn, by rw [heq]; simp [closing, hfailure], hpending⟩

theorem fail_waiting (h : closing q = none) (hw : q.waiter = .waiting) (error : ε) :
    q.fail error =
      { q with failure := some error, waiter := .resolved (.error error) } := by
  simp [AsyncEventQueue.fail, closing_eq_none.mp h, hw]

theorem fail_busy (h : closing q = none) (hw : q.waiter ≠ .waiting) (error : ε) :
    q.fail error = { q with failure := some error } := by
  unfold AsyncEventQueue.fail
  rw [(closing_eq_none.mp h).1, (closing_eq_none.mp h).2]
  cases hwaiter : q.waiter with
  | waiting => exact absurd hwaiter hw
  | idle => rfl
  | resolved w => rfl

theorem Turn.fail {consumer : Consumer ε} (h : Turn none consumer q) (hopen : closing q = none)
    (error : ε) :
    Turn (some (some error)) consumer (q.fail error) ∧
      closing (q.fail error) = some (some error) ∧ (q.fail error).pending = q.pending := by
  by_cases hw : q.waiter = .waiting
  · have hfail := fail_waiting hopen hw error
    obtain ⟨hturn, hpending⟩ := h.closed (q.fail error) (some error)
      (by rw [hfail]) (fun _ => by rw [hfail]; rfl) (fun hne => absurd hw hne)
    exact ⟨hturn, by rw [hfail]; rfl, hpending⟩
  · have hfail := fail_busy hopen hw error
    obtain ⟨hturn, hpending⟩ := h.closed (q.fail error) (some error)
      (by rw [hfail]) (fun hwaiting => absurd hwaiting hw) (fun _ => by rw [hfail])
    exact ⟨hturn, by rw [hfail]; rfl, hpending⟩

/-- Ending a queue that is closed already, perhaps by a failure, tells its reader nothing new. -/
theorem Turn.end_again {consumer : Consumer ε} {outcome : Option ε}
    (h : Turn (some outcome) consumer q) (hclosing : closing q = some outcome) :
    Turn (some outcome) consumer q.end ∧ closing q.end = some outcome := by
  have hwaiter : q.waiter ≠ .waiting := by
    cases h with
    | ready hw => simp [hw]
    | given item hw => simp [hw]
    | released hw hb => simp [hw]
    | finished hw hb => simp [hw]
  rcases AsyncEventQueue.end_cases (q := q) with heq | ⟨hclosed, ⟨hw, -⟩ | ⟨-, heq⟩⟩
  · rw [heq]
    exact ⟨h, hclosing⟩
  · exact absurd hw hwaiter
  · rw [heq]
    constructor
    · cases h with
      | ready hw => exact .ready hw
      | given item hw => exact .given item hw
      | released hw hb => exact .released hw hb
      | finished hw hb => exact .finished hw hb
    · unfold closing at hclosing ⊢
      cases hf : q.failure with
      | some error => simpa [hf] using hclosing
      | none => simp [hf, hclosed] at hclosing

end Queue

/-! ## One turn of the consumer -/

/-- What the reader of an ended queue still has to do. -/
def State.remaining (s : State α ε) : ℕ :=
  match s.consumer with
  | .finished _ => 0
  | _ => s.queue.pending.length + 1

/-- A state the reader can be in, given how its queue was closed. -/
structure Standing (ended : Option (Option ε)) (s : State α ε) : Prop where
  closing : closing s.queue = ended
  turn : Turn ended s.consumer s.queue

/-- A turn of the loop loses no item, and after the end it is one of finitely many. -/
structure Consumed (ended : Option (Option ε)) (s s' : State α ε) : Prop where
  standing : Standing ended s'
  items : s'.received ++ s'.queue.pending = s.received ++ s.queue.pending
  remaining : ended.isSome → s'.remaining + 1 = s.remaining

theorem Standing.read {ended : Option (Option ε)} {s : State α ε} (h : Standing ended s)
    (hready : s.consumer = .ready) : Consumed ended s (apply s .read) := by
  obtain ⟨hclosing, hturn⟩ := h
  obtain ⟨q, consumer, received⟩ := s
  subst hready
  cases hturn with
  | ready hw =>
      change Consumed ended _ (State.receive _ (q.next false))
      have hpending := pending_idle hw
      cases hbuffer : q.buffer with
      | cons item rest =>
          have hnext : q.next false = (.yielded item, { q with buffer := rest }) := by
            simp [AsyncEventQueue.next, hbuffer]
          have hrest : ({ q with buffer := rest } : AsyncEventQueue α ε).pending = rest :=
            pending_idle hw
          rw [hnext]
          refine ⟨⟨hclosing, .ready hw⟩, ?_, fun _ => ?_⟩
          · simp [State.receive, hpending, hbuffer, hrest]
          · simp [State.receive, State.remaining, hpending, hbuffer, hrest]
      | nil =>
          cases hf : q.failure with
          | some error =>
              have hnext : q.next false = (.thrown error, q) := by
                simp [AsyncEventQueue.next, hbuffer, hf]
              have hended : ended = some (some error) := by
                rw [← hclosing, EventDelivery.closing, hf]
              subst hended
              rw [hnext]
              refine ⟨⟨hclosing, .finished hw hbuffer⟩, rfl, fun _ => ?_⟩
              simp [State.receive, State.remaining, hpending, hbuffer]
          | none =>
              cases hc : q.closed with
              | true =>
                  have hnext : q.next false = (.returned, q) := by
                    simp [AsyncEventQueue.next, hbuffer, hf, hc]
                  have hended : ended = some none := by
                    rw [← hclosing]
                    simp [EventDelivery.closing, hf, hc]
                  subst hended
                  rw [hnext]
                  refine ⟨⟨hclosing, .finished hw hbuffer⟩, rfl, fun _ => ?_⟩
                  simp [State.receive, State.remaining, hpending, hbuffer]
              | false =>
                  have hnext : q.next false = (.parked, { q with waiter := .waiting }) := by
                    simp [AsyncEventQueue.next, hbuffer, hf, hc]
                  have hended : ended = none := by
                    rw [← hclosing]
                    exact closing_eq_none.mpr ⟨hc, hf⟩
                  subst hended
                  rw [hnext]
                  refine ⟨⟨hclosing, .waiting rfl hbuffer⟩, ?_, by simp⟩
                  simp only [State.receive, hpending]
                  rfl

theorem Standing.wake {ended : Option (Option ε)} {s : State α ε} (h : Standing ended s)
    (hparked : s.consumer = .parked) (hwoken : s.queue.resume.isSome) :
    Consumed ended s (apply s .wake) := by
  obtain ⟨hclosing, hturn⟩ := h
  obtain ⟨q, consumer, received⟩ := s
  subst hparked
  cases hturn with
  | waiting hw hb =>
      rw [AsyncEventQueue.resume_waiting hw] at hwoken
      exact absurd hwoken Bool.false_ne_true
  | given item hw =>
      have happly : apply ⟨q, .parked, received⟩ .wake =
          ⟨{ q with waiter := .idle }, .ready, received ++ [item]⟩ := by
        simp only [apply, AsyncEventQueue.resume_value hw, State.receive]
      have hrest : ({ q with waiter := .idle } : AsyncEventQueue α ε).pending = q.buffer :=
        pending_idle rfl
      rw [happly]
      refine ⟨⟨hclosing, .ready rfl⟩, ?_, fun _ => ?_⟩
      · simp [pending_given hw, hrest]
      · simp [State.remaining, pending_given hw, hrest]
  | @released outcome _ hw hb =>
      have happly : apply ⟨q, .parked, received⟩ .wake =
          ⟨{ q with waiter := .idle }, .finished outcome, received⟩ := by
        cases outcome with
        | none => simp only [apply, AsyncEventQueue.resume_done hw, State.receive]
        | some error => simp only [apply, AsyncEventQueue.resume_error hw, State.receive]
      rw [happly]
      refine ⟨⟨hclosing, .finished rfl hb⟩, ?_, fun _ => ?_⟩
      · rw [pending_released hw, pending_idle rfl]
      · have hnone : q.buffer = [] := hb
        simp [State.remaining, pending_released hw, hnone]

theorem Standing.consume {ended : Option (Option ε)} {s : State α ε} (h : Standing ended s)
    {a : Action α ε} (ha : a.isConsumer = true) (henabled : Enabled s a) :
    Consumed ended s (apply s a) := by
  cases a with
  | read => exact h.read henabled
  | wake => exact h.wake henabled.1 henabled.2
  | push item => exact absurd ha Bool.false_ne_true
  | end' => exact absurd ha Bool.false_ne_true
  | fail error => exact absurd ha Bool.false_ne_true

/-- After the end producers change nothing of what the reader still has to do. -/
theorem Standing.produce {outcome : Option ε} {s : State α ε} (h : Standing (some outcome) s)
    {a : Action α ε} (ha : a.isConsumer = false) :
    Standing (some outcome) (apply s a) ∧ (apply s a).received = s.received ∧
      (apply s a).queue.pending = s.queue.pending ∧ (apply s a).consumer = s.consumer := by
  cases a with
  | read => exact absurd ha.symm Bool.false_ne_true
  | wake => exact absurd ha.symm Bool.false_ne_true
  | push item =>
      have happly : apply s (.push item) = s := by
        simp only [apply, push_of_closing h.closing]
      rw [happly]
      exact ⟨h, rfl, rfl, rfl⟩
  | fail error =>
      have happly : apply s (.fail error) = s := by
        simp only [apply, fail_of_closing h.closing]
      rw [happly]
      exact ⟨h, rfl, rfl, rfl⟩
  | end' =>
      obtain ⟨hturn, hclosing⟩ := h.turn.end_again h.closing
      exact ⟨⟨hclosing, hturn⟩, rfl, AsyncEventQueue.pending_end, rfl⟩

/-! ## Runs -/

/-- The history of a state: what the reader has and what it has yet to get is what was accepted. -/
structure Tracks (labels : List (Action α ε)) (s : State α ε) : Prop where
  standing : Standing (ending labels) s
  items : s.received ++ s.queue.pending = accepted labels

theorem Tracks.initial : Tracks [] ({} : State α ε) :=
  ⟨⟨rfl, .ready rfl⟩, rfl⟩

theorem Tracks.produce {labels : List (Action α ε)} {s : State α ε} (h : Tracks labels s)
    {a : Action α ε} (ha : a.isConsumer = false) : Tracks (labels ++ [a]) (apply s a) := by
  obtain ⟨hstanding, hitems⟩ := h
  cases hended : ending labels with
  | some outcome =>
      rw [hended] at hstanding
      obtain ⟨hnext, hreceived, hpending, -⟩ := hstanding.produce ha
      refine ⟨?_, ?_⟩
      · rw [ending_append, hended]
        exact hnext
      · rw [accepted_append_of_ended hended, hreceived, hpending, hitems]
  | none =>
      rw [hended] at hstanding
      obtain ⟨hopen, hturn⟩ := hstanding
      have happend : ending (labels ++ [a]) = ending [a] := by rw [ending_append, hended]; rfl
      have haccepted := accepted_append_of_open hended [a]
      cases a with
      | read => exact absurd ha.symm Bool.false_ne_true
      | wake => exact absurd ha.symm Bool.false_ne_true
      | push item =>
          obtain ⟨hturn', hopen', hpending⟩ := hturn.push hopen item
          refine ⟨by rw [happend]; exact ⟨hopen', hturn'⟩, ?_⟩
          rw [haccepted, ← hitems]
          simp [apply, hpending, accepted]
      | end' =>
          obtain ⟨hturn', hclosing, hpending⟩ := hturn.end hopen
          refine ⟨by rw [happend]; exact ⟨hclosing, hturn'⟩, ?_⟩
          rw [haccepted, ← hitems]
          simp [apply, hpending, accepted]
      | fail error =>
          obtain ⟨hturn', hclosing, hpending⟩ := hturn.fail hopen error
          refine ⟨by rw [happend]; exact ⟨hclosing, hturn'⟩, ?_⟩
          rw [haccepted, ← hitems]
          simp [apply, hpending, accepted]

theorem ending_consume (labels : List (Action α ε)) {a : Action α ε} (ha : a.isConsumer = true) :
    ending (labels ++ [a]) = ending labels ∧ accepted (labels ++ [a]) = accepted labels := by
  have hnone : ending [a] = none ∧ accepted [a] = [] := by
    cases a with
    | read => exact ⟨rfl, rfl⟩
    | wake => exact ⟨rfl, rfl⟩
    | push item => exact absurd ha Bool.false_ne_true
    | end' => exact absurd ha Bool.false_ne_true
    | fail error => exact absurd ha Bool.false_ne_true
  refine ⟨by rw [ending_append, hnone.1, Option.or_none], ?_⟩
  cases hended : ending labels with
  | none => rw [accepted_append_of_open hended, hnone.2, List.append_nil]
  | some outcome => exact accepted_append_of_ended hended _

theorem Tracks.step {labels : List (Action α ε)} {s s' : State α ε} {a : Action α ε}
    (h : Tracks labels s) (hstep : system.step s a s') : Tracks (labels ++ [a]) s' := by
  obtain ⟨henabled, rfl⟩ := hstep
  cases ha : a.isConsumer with
  | false => exact h.produce ha
  | true =>
      have hconsumed := h.standing.consume ha henabled
      obtain ⟨hended, haccepted⟩ := ending_consume labels ha
      exact ⟨by rw [hended]; exact hconsumed.standing, by rw [haccepted, hconsumed.items, h.items]⟩

theorem tracks_of_run {labels : List (Action α ε)} {s : State α ε}
    (h : system.Run {} labels s) : Tracks labels s := by
  generalize hs : ({} : State α ε) = start at h
  induction h with
  | nil => exact hs ▸ .initial
  | snoc _ hstep ih => exact ih.step hstep

/-- Once the queue is closed every turn of the reader is counted. -/
theorem Standing.count {outcome : Option ε} {s t : State α ε} {more : List (Action α ε)}
    (h : Standing (some outcome) s) (hrun : system.Run s more t) :
    Standing (some outcome) t ∧ t.remaining + more.countP Action.isConsumer = s.remaining := by
  induction hrun with
  | nil => exact ⟨h, rfl⟩
  | @snoc labels t a _ _ hstep ih =>
      obtain ⟨henabled, rfl⟩ := hstep
      obtain ⟨hstanding, hcount⟩ := ih
      rw [List.countP_append, List.countP_singleton]
      cases ha : a.isConsumer with
      | true =>
          have hconsumed := hstanding.consume ha henabled
          have hremaining := hconsumed.remaining rfl
          exact ⟨hconsumed.standing, by simp only [if_true]; omega⟩
      | false =>
          obtain ⟨hnext, -, hpending, hconsumer⟩ := hstanding.produce ha
          refine ⟨hnext, ?_⟩
          have hremaining : (apply t a).remaining = t.remaining := by
            simp only [State.remaining, hconsumer, hpending]
          simp only [Bool.false_eq_true, if_false]
          omega

/-- What the reader of a queue has, wherever the run stands, and what it will have. -/
structure Delivered (labels : List (Action α ε)) (s : State α ε) : Prop where
  /-- Each accepted item at most once, in the order of the pushes. -/
  inOrder : s.received <+: accepted labels
  /-- A reader that has come to its end has all of them, and learns how the queue was closed. -/
  complete : ∀ outcome, s.consumer = .finished outcome →
    s.received = accepted labels ∧ ending labels = some outcome
  /-- A reader that can take no step has all there is, and the queue is still open. -/
  awake : (∀ outcome, s.consumer ≠ .finished outcome) →
    (∀ a : Action α ε, a.isConsumer = true → ¬ Enabled s a) →
    s.received = accepted labels ∧ ending labels = none
  /-- After the end the reader is parked on nothing. -/
  released : ending labels ≠ none → s.queue.waiter ≠ .waiting
  /-- After the end it finishes with so many turns, however they are interleaved with others. -/
  finishes : ending labels ≠ none → ∀ more t, system.Run s more t →
    more.countP Action.isConsumer ≤ s.remaining ∧
      (more.countP Action.isConsumer = s.remaining →
        ∃ outcome, t.consumer = .finished outcome)

theorem finished_of_remaining {s : State α ε} (h : s.remaining = 0) :
    ∃ outcome, s.consumer = .finished outcome := by
  unfold State.remaining at h
  cases hconsumer : s.consumer with
  | finished outcome => exact ⟨outcome, rfl⟩
  | ready => simp [hconsumer] at h
  | parked => simp [hconsumer] at h

theorem Tracks.waiting {labels : List (Action α ε)} {s : State α ε} (h : Tracks labels s)
    (hparked : s.consumer = .parked) (hwoken : ¬ s.queue.resume.isSome) :
    s.received = accepted labels ∧ ending labels = none := by
  have hturn := h.standing.turn
  have hitems := h.items
  rw [hparked] at hturn
  generalize ending labels = ended at hturn ⊢
  cases hturn with
  | waiting hw hb =>
      rw [pending_eq_buffer (by simp [hw]), hb, List.append_nil] at hitems
      exact ⟨hitems, rfl⟩
  | given item hw => simp [AsyncEventQueue.resume_value hw] at hwoken
  | @released outcome _ hw hb =>
      cases outcome with
      | none => simp [AsyncEventQueue.resume_done hw] at hwoken
      | some error => simp [AsyncEventQueue.resume_error hw] at hwoken

/-- Whatever the producers push, end or fail, and whenever, the reader gets what was pushed
before the end in that order, then the end itself, and never waits after it. -/
theorem delivered_of_run {labels : List (Action α ε)} {s : State α ε}
    (h : system.Run {} labels s) : Delivered labels s := by
  have htracks := tracks_of_run h
  have hturn := htracks.standing.turn
  refine ⟨⟨_, htracks.items⟩, ?_, ?_, ?_, ?_⟩
  · intro outcome hfinished
    have hitems := htracks.items
    rw [hfinished] at hturn
    generalize ending labels = ended at hturn ⊢
    cases hturn with
    | finished hw hb =>
        rw [pending_idle hw, hb, List.append_nil] at hitems
        exact ⟨hitems, rfl⟩
  · intro hunfinished hstuck
    cases hconsumer : s.consumer with
    | finished outcome => exact absurd hconsumer (hunfinished outcome)
    | ready => exact absurd hconsumer (hstuck .read rfl)
    | parked => exact htracks.waiting hconsumer fun hwoken => hstuck .wake rfl ⟨hconsumer, hwoken⟩
  · intro hended hwaiting
    generalize ending labels = ended at hturn hended
    generalize s.consumer = consumer at hturn
    cases hturn with
    | ready hw => simp [hw] at hwaiting
    | waiting hw hb => exact hended rfl
    | given item hw => simp [hw] at hwaiting
    | released hw hb => simp [hw] at hwaiting
    | finished hw hb => simp [hw] at hwaiting
  · intro hended more t hrun
    obtain ⟨outcome, houtcome⟩ := Option.ne_none_iff_exists'.mp hended
    have hstanding := htracks.standing
    rw [houtcome] at hstanding
    obtain ⟨-, hcount⟩ := hstanding.count hrun
    exact ⟨by omega, fun hall => finished_of_remaining (by omega)⟩

/-- A push that wakes the reader, two that do not, a failure and a late end. -/
theorem delivered_example :
    Delivered
      [.read, .push 1, .push 2, .wake, .read, .push 3, .fail "lost", .end', .push 4, .read, .read]
      (⟨⟨[], .idle, true, some "lost"⟩, .finished (some "lost"), [1, 2, 3]⟩ : State ℕ String) :=
  delivered_of_run (System.Legal.run (by decide))

end VicoopBridge.EventDelivery
