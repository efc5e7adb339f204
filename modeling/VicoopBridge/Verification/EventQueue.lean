import VicoopBridge.Model.EventQueue

/-! # What a queue's producers can do to it

A queue loses nothing while it is read: what has been accepted and not yet handed out is
pending, and producers only add at its end. -/

namespace VicoopBridge.AsyncEventQueue

universe u v

variable {α : Type u} {ε : Type v} {q q' : AsyncEventQueue α ε}

/-- Accepted and not yet seen by the consumer. -/
def pending (q : AsyncEventQueue α ε) : List α :=
  match q.waiter with
  | .resolved (.value item) => item :: q.buffer
  | _ => q.buffer

/-- The queue of a sink: it never fails, and its consumer parks only on an open, empty queue. -/
structure Sound (q : AsyncEventQueue α ε) : Prop where
  failure : q.failure = none
  calm : ∀ error, q.waiter ≠ .resolved (.error error)
  waiting : q.waiter = .waiting → q.buffer = [] ∧ q.closed = false

theorem sound_empty : Sound ({} : AsyncEventQueue α ε) := ⟨rfl, by simp, by simp⟩

/-! ## Pushing -/

theorem push_of_closed (h : q.closed = true) (item : α) : q.push item = q := by
  simp [push, h]

/-- An open queue takes the item, directly into the hands of a waiting consumer. -/
theorem push_cases (item : α) :
    q.push item = q ∨ q.closed = false ∧
      (q.waiter = .waiting ∧ q.push item = { q with waiter := .resolved (.value item) } ∨
        q.waiter ≠ .waiting ∧ q.push item = { q with buffer := q.buffer ++ [item] }) := by
  unfold push
  split
  · exact .inl rfl
  · rename_i hopen
    have hclosed : q.closed = false := by simp_all
    cases hwaiter : q.waiter with
    | waiting => exact .inr ⟨hclosed, .inl ⟨rfl, rfl⟩⟩
    | idle => exact .inr ⟨hclosed, .inr ⟨by simp, rfl⟩⟩
    | resolved w => exact .inr ⟨hclosed, .inr ⟨by simp, rfl⟩⟩

theorem Sound.push (h : q.Sound) (item : α) : (q.push item).Sound := by
  rcases push_cases (q := q) item with heq | ⟨-, ⟨-, heq⟩ | ⟨hne, heq⟩⟩
  · rwa [heq]
  · rw [heq]
    exact ⟨h.failure, by simp, by simp⟩
  · rw [heq]
    exact ⟨h.failure, h.calm, fun hwaiting => absurd hwaiting hne⟩

@[simp] theorem push_closed (item : α) : (q.push item).closed = q.closed := by
  rcases push_cases (q := q) item with heq | ⟨-, ⟨-, heq⟩ | ⟨-, heq⟩⟩ <;> rw [heq]

theorem Sound.pending_push (h : q.Sound) (hopen : q.closed = false) (item : α) :
    (q.push item).pending = q.pending ++ [item] := by
  simp only [AsyncEventQueue.push, hopen, h.failure, Option.isSome_none, Bool.or_self, Bool.false_eq_true, if_false]
  cases hwaiter : q.waiter with
  | idle => simp [pending, hwaiter]
  | waiting => simp [pending, hwaiter, (h.waiting hwaiter).1]
  | resolved w => cases w <;> simp [pending, hwaiter]

/-! ## Closing -/

theorem end_cases :
    q.end = q ∨ q.closed = false ∧
      (q.waiter = .waiting ∧ q.end = { q with closed := true, waiter := .resolved .done } ∨
        q.waiter ≠ .waiting ∧ q.end = { q with closed := true }) := by
  unfold «end»
  split
  · exact .inl rfl
  · rename_i hopen
    have hclosed : q.closed = false := by simpa using hopen
    cases hwaiter : q.waiter with
    | waiting => exact .inr ⟨hclosed, .inl ⟨rfl, rfl⟩⟩
    | idle => exact .inr ⟨hclosed, .inr ⟨by simp, rfl⟩⟩
    | resolved w => exact .inr ⟨hclosed, .inr ⟨by simp, rfl⟩⟩

theorem end_of_closed (h : q.closed = true) : q.end = q := by
  simp [«end», h]

@[simp] theorem end_closed : q.end.closed = true := by
  unfold «end»
  split
  · assumption
  · split <;> rfl

theorem Sound.end (h : q.Sound) : q.end.Sound := by
  rcases end_cases (q := q) with heq | ⟨-, ⟨-, heq⟩ | ⟨hne, heq⟩⟩
  · rwa [heq]
  · rw [heq]
    exact ⟨h.failure, by simp, by simp⟩
  · rw [heq]
    exact ⟨h.failure, h.calm, fun hwaiting => absurd hwaiting hne⟩

@[simp] theorem pending_end : q.end.pending = q.pending := by
  rcases end_cases (q := q) with heq | ⟨-, ⟨hwaiting, heq⟩ | ⟨-, heq⟩⟩
  · rw [heq]
  · simp [heq, pending, hwaiting]
  · simp [heq, pending]

theorem push_end_of_closed (h : q.closed = true) (item : α) : (q.push item).end = q := by
  rw [push_of_closed h, end_of_closed h]

/-! ## Aborting -/

theorem Sound.onAbort (h : q.Sound) : q.onAbort.Sound := by
  unfold AsyncEventQueue.onAbort
  split
  · exact ⟨h.failure, by simp, by simp⟩
  · exact h

theorem onAbort_of_ne (h : q.waiter ≠ .waiting) : q.onAbort = q := by
  unfold onAbort
  split
  · contradiction
  · rfl

@[simp] theorem onAbort_closed : q.onAbort.closed = q.closed := by
  unfold onAbort
  split <;> rfl

/-! ## Reading -/

@[simp] theorem next_closed (aborted : Bool) : (q.next aborted).2.closed = q.closed := by
  unfold next
  repeat' split
  all_goals rfl

theorem resume_closed {woken : IterateResult α ε × AsyncEventQueue α ε}
    (h : q.resume = some woken) : woken.2.closed = q.closed := by
  unfold resume at h
  split at h <;> simp only [Option.some.injEq, reduceCtorEq] at h <;> subst h <;> rfl

/-! ## Producers -/

/-- The queue after any number of pushes, possibly with its end among them. -/
inductive Fed (q : AsyncEventQueue α ε) : AsyncEventQueue α ε → Prop where
  | refl : Fed q q
  | push {p : AsyncEventQueue α ε} (h : Fed q p) (item : α) : Fed q (p.push item)
  | end' {p : AsyncEventQueue α ε} (h : Fed q p) : Fed q p.end

theorem Fed.sound (h : Fed q q') (hq : q.Sound) : q'.Sound := by
  induction h with
  | refl => exact hq
  | push _ item ih => exact ih.push item
  | end' _ ih => exact ih.end

theorem Fed.closed (h : Fed q q') (hq : q.closed = true) : q' = q := by
  induction h with
  | refl => rfl
  | push _ item ih => rw [push_of_closed (by rw [ih]; exact hq), ih]
  | end' _ ih => rw [end_of_closed (by rw [ih]; exact hq), ih]

/-- Only a consumer that waits is woken. -/
theorem Fed.waiter (h : Fed q q') (hq : q.waiter ≠ .waiting) : q'.waiter = q.waiter := by
  induction h with
  | refl => rfl
  | @push p' _ item ih =>
      rcases push_cases (q := p') item with heq | ⟨-, ⟨hwaiting, -⟩ | ⟨-, heq⟩⟩
      · rw [heq, ih]
      · exact absurd (ih.symm.trans hwaiting) hq
      · rw [heq, ih]
  | @end' p' _ ih =>
      rcases end_cases (q := p') with heq | ⟨-, ⟨hwaiting, -⟩ | ⟨-, heq⟩⟩
      · rw [heq, ih]
      · exact absurd (ih.symm.trans hwaiting) hq
      · rw [heq, ih]

theorem Fed.idle (h : Fed q q') (hq : q.waiter = .idle) : q'.waiter = .idle :=
  (h.waiter (by simp [hq])).trans hq

/-- What the consumer will be woken with is settled once. -/
theorem Fed.resolved (h : Fed q q') {w : Wakeup α ε} (hq : q.waiter = .resolved w) :
    q'.waiter = .resolved w :=
  (h.waiter (by simp [hq])).trans hq

/-- A waiting consumer keeps waiting, gets an event, or learns of the end. -/
theorem Fed.waiting (h : Fed q q') (hq : q.waiter = .waiting) :
    q' = q ∨ (∃ item, q'.waiter = .resolved (.value item)) ∨
      q' = { q with closed := true, waiter := .resolved .done } := by
  induction h with
  | refl => exact .inl rfl
  | @push p' _ item ih =>
      rcases ih with heq | ⟨item', hresolved⟩ | hdone
      · subst heq
        rcases push_cases (q := p') item with heq | ⟨-, ⟨-, heq⟩ | ⟨hne, -⟩⟩
        · exact .inl heq
        · exact .inr (.inl ⟨item, by rw [heq]⟩)
        · exact absurd hq hne
      · exact .inr (.inl ⟨item', (Fed.refl.push item).resolved hresolved⟩)
      · rw [push_of_closed (by rw [hdone]), hdone]
        exact .inr (.inr rfl)
  | @end' p' _ ih =>
      rcases ih with heq | ⟨item', hresolved⟩ | hdone
      · subst heq
        rcases end_cases (q := p') with heq | ⟨-, ⟨-, heq⟩ | ⟨hne, -⟩⟩
        · exact .inl heq
        · exact .inr (.inr heq)
        · exact absurd hq hne
      · exact .inr (.inl ⟨item', Fed.refl.end'.resolved hresolved⟩)
      · rw [end_of_closed (by rw [hdone]), hdone]
        exact .inr (.inr rfl)

/-! ## The consumer -/

/-- What one turn of the consumer's loop on a sound queue comes to. -/
theorem Sound.next_cases (h : q.Sound) :
    (∃ item rest, q.buffer = item :: rest ∧
      q.next false = (.yielded item, { q with buffer := rest })) ∨
    (q.buffer = [] ∧ q.closed = true ∧ q.next false = (.returned, q)) ∨
    q.buffer = [] ∧ q.closed = false ∧ q.next false = (.parked, { q with waiter := .waiting }) := by
  unfold next
  cases hbuffer : q.buffer with
  | cons item rest => exact .inl ⟨item, rest, rfl, by simp⟩
  | nil =>
      cases hclosed : q.closed with
      | true => exact .inr (.inl ⟨rfl, rfl, by simp [h.failure]⟩)
      | false => exact .inr (.inr ⟨rfl, rfl, by simp [h.failure]⟩)

theorem next_aborted : q.next true = (.returned, q) := rfl

theorem resume_value {item : α} (h : q.waiter = .resolved (.value item)) :
    q.resume = some (.yielded item, { q with waiter := .idle }) := by
  simp [resume, h]

theorem resume_done (h : q.waiter = .resolved .done) :
    q.resume = some (.returned, { q with waiter := .idle }) := by
  simp [resume, h]

theorem resume_error {error : ε} (h : q.waiter = .resolved (.error error)) :
    q.resume = some (.thrown error, { q with waiter := .idle }) := by
  simp [resume, h]

theorem resume_waiting (h : q.waiter = .waiting) : q.resume = none := by
  simp [resume, h]

end VicoopBridge.AsyncEventQueue
