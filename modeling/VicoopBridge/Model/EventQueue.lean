import Mathlib.Data.List.Basic

/-! # The single-consumer event queue

`waiter` follows the promise the consumer parks on: registered (`waiting`), settled but
not yet seen by the consumer (`resolved`), or absent. Settling clears the queue's own
waiter field, so what is pushed after that goes to the buffer. -/

namespace VicoopBridge

universe u v

/-- What a parked consumer is woken with. -/
inductive Wakeup (α : Type u) (ε : Type v) where
  | value (item : α)
  | done
  | error (error : ε)
  deriving DecidableEq

inductive Waiter (α : Type u) (ε : Type v) where
  | idle
  | waiting
  | resolved (result : Wakeup α ε)
  deriving DecidableEq

structure AsyncEventQueue (α : Type u) (ε : Type v) where
  buffer : List α := []
  waiter : Waiter α ε := .idle
  closed : Bool := false
  failure : Option ε := none
  deriving DecidableEq

/-- What one turn of the `iterate` loop does. -/
inductive IterateResult (α : Type u) (ε : Type v) where
  | yielded (item : α)
  | thrown (error : ε)
  | returned
  | parked
  deriving DecidableEq

namespace AsyncEventQueue

variable {α : Type u} {ε : Type v}

def push (q : AsyncEventQueue α ε) (item : α) : AsyncEventQueue α ε :=
  if q.closed || q.failure.isSome then q
  else
    match q.waiter with
    | .waiting => { q with waiter := .resolved (.value item) }
    | _ => { q with buffer := q.buffer ++ [item] }

def «end» (q : AsyncEventQueue α ε) : AsyncEventQueue α ε :=
  if q.closed then q
  else
    match q.waiter with
    | .waiting => { q with closed := true, waiter := .resolved .done }
    | _ => { q with closed := true }

def fail (q : AsyncEventQueue α ε) (error : ε) : AsyncEventQueue α ε :=
  if q.closed || q.failure.isSome then q
  else
    match q.waiter with
    | .waiting => { q with failure := some error, waiter := .resolved (.error error) }
    | _ => { q with failure := some error }

/-- The abort listener a parked consumer has on its signal. -/
def onAbort (q : AsyncEventQueue α ε) : AsyncEventQueue α ε :=
  match q.waiter with
  | .waiting => { q with waiter := .resolved .done }
  | _ => q

/-- From the head of the loop to the next point where the consumer gets control. -/
def next (q : AsyncEventQueue α ε) (aborted : Bool) :
    IterateResult α ε × AsyncEventQueue α ε :=
  if aborted then (.returned, q)
  else
    match q.buffer with
    | item :: rest => (.yielded item, { q with buffer := rest })
    | [] =>
        match q.failure with
        | some error => (.thrown error, q)
        | none => if q.closed then (.returned, q) else (.parked, { q with waiter := .waiting })

/-- The parked consumer sees how its promise settled; `none` while it has not. -/
def resume (q : AsyncEventQueue α ε) : Option (IterateResult α ε × AsyncEventQueue α ε) :=
  match q.waiter with
  | .resolved (.value item) => some (.yielded item, { q with waiter := .idle })
  | .resolved .done => some (.returned, { q with waiter := .idle })
  | .resolved (.error error) => some (.thrown error, { q with waiter := .idle })
  | _ => none

end AsyncEventQueue

end VicoopBridge
