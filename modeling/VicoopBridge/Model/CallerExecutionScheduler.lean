import VicoopBridge.Library.InsertionMap
import Mathlib.Data.Int.Basic
import Mathlib.Logic.Function.Basic

/-! # Bounded round-robin admission across callers

Waiters queue up by caller scope and are first in, first out within a context. A lease keeps
its context busy until it is released. -/

namespace VicoopBridge

open Library

structure SchedulerLimits where
  perCaller : ℕ
  global : ℕ
  queuePerCaller : ℕ
  queueLimit : ℕ

/-- `ref` tells the waiters apart, in the order they arrive in. -/
structure SchedulerWaiter where
  ref : ℕ
  context : String
  deriving DecidableEq

/-- The release function of an admitted waiter. `busy` is the set it was admitted into. -/
structure Lease where
  ref : ℕ
  scope : String
  context : String
  busy : ℕ
  deriving DecidableEq

inductive SchedulerRejection where
  | executionAborted
  | callerQueueFull
  deriving DecidableEq

/-- `busy` maps a scope to its set of contexts, and `sets` has what is in the sets. `active`
are the leases that are not released; `admitted` and `rejected` record how waiters were
settled. -/
structure CallerExecutionScheduler where
  queues : InsertionMap String (List SchedulerWaiter) := .empty
  busy : InsertionMap String ℕ := .empty
  sets : ℕ → List String := fun _ => []
  nextSet : ℕ := 0
  running : ℤ := 0
  queued : ℤ := 0
  nextRef : ℕ := 0
  active : List Lease := []
  admitted : List Lease := []
  rejected : List (ℕ × SchedulerRejection) := []

namespace CallerExecutionScheduler

variable (limits : SchedulerLimits) (s : CallerExecutionScheduler)

/-- `this.busy.get(scope) ?? new Set()` -/
def busyOf (scope : String) : List String :=
  match s.busy.get? scope with
  | some set => s.sets set
  | none => []

def removeWaiter (scope : String) (ref : ℕ) (queue : List SchedulerWaiter) :
    CallerExecutionScheduler :=
  let rest := queue.filter fun item => item.ref ≠ ref
  { s with
    queues := if rest = [] then s.queues.erase scope else s.queues.set scope rest
    queued := s.queued - 1 }

/-- Whether the waiter was still queued, and the state without it. -/
def remove (scope : String) (ref : ℕ) : Bool × CallerExecutionScheduler :=
  match s.queues.get? scope with
  | none => (false, s)
  | some queue =>
      if queue.any fun item => item.ref = ref then (true, s.removeWaiter scope ref queue)
      else (false, s)

/-- The waiter of the scope that may run next. -/
def eligible (scope : String) (queue : List SchedulerWaiter) : Option SchedulerWaiter :=
  if limits.perCaller ≤ (s.busyOf scope).length then none
  else queue.find? fun item => item.context ∉ s.busyOf scope

def next : Option (String × SchedulerWaiter) :=
  s.queues.entries.findSome? fun entry =>
    (s.eligible limits entry.1 entry.2).map fun waiter => (entry.1, waiter)

def admitWaiter (scope : String) (waiter : SchedulerWaiter) : CallerExecutionScheduler :=
  let s := (s.remove scope waiter.ref).2
  -- The scope goes to the end of the line.
  let queues := match s.queues.get? scope with
    | some queue => (s.queues.erase scope).set scope queue
    | none => s.queues
  let set := (s.busy.get? scope).getD s.nextSet
  let lease : Lease := {
    ref := waiter.ref, scope := scope, context := waiter.context, busy := set }
  { s with
    queues := queues
    busy := s.busy.set scope set
    sets := Function.update s.sets set (s.busyOf scope ++ [waiter.context])
    nextSet := if (s.busy.get? scope).isSome then s.nextSet else s.nextSet + 1
    running := s.running + 1
    active := s.active ++ [lease]
    admitted := s.admitted ++ [lease] }

/-- Every round of the loop takes a waiter out of its queue. -/
def drainLoop : ℕ → CallerExecutionScheduler → CallerExecutionScheduler
  | 0, s => s
  | rounds + 1, s =>
      if s.running < limits.global then
        match s.next limits with
        | some (scope, waiter) => drainLoop rounds (s.admitWaiter scope waiter)
        | none => s
      else s

def drain : CallerExecutionScheduler :=
  drainLoop limits (s.queues.values.map List.length).sum s

def reject (ref : ℕ) (rejection : SchedulerRejection) : CallerExecutionScheduler :=
  { s with rejected := s.rejected ++ [(ref, rejection)] }

def push (scope context : String) : CallerExecutionScheduler :=
  { s with
    queues := s.queues.set scope ((s.queues.get? scope).getD [] ++ [⟨s.nextRef, context⟩])
    queued := s.queued + 1
    nextRef := s.nextRef + 1 }

/-- `aborted` is `signal.aborted`. -/
def acquire (scope context : String) (aborted : Bool) : CallerExecutionScheduler :=
  let ref := s.nextRef
  if aborted then { s with nextRef := ref + 1 }.reject ref .executionAborted
  else
    let s := (s.push scope context).drain limits
    match s.queues.get? scope with
    | none => s
    | some queue =>
        if queue.any (fun item => item.ref = ref) ∧
            ((limits.queueLimit : ℤ) < s.queued ∨ limits.queuePerCaller < queue.length) then
          (s.removeWaiter scope ref queue).reject ref .callerQueueFull
        else s

/-- The signal of a waiter fires. -/
def abort (scope : String) (ref : ℕ) : CallerExecutionScheduler :=
  match s.remove scope ref with
  | (true, s) => (s.reject ref .executionAborted).drain limits
  | (false, s) => s

/-- Releasing a lease again does nothing. -/
def release (ref : ℕ) : CallerExecutionScheduler :=
  match s.active.find? fun lease => lease.ref = ref with
  | none => s
  | some lease =>
      let contexts := (s.sets lease.busy).filter (· ≠ lease.context)
      let s : CallerExecutionScheduler := { s with
        sets := Function.update s.sets lease.busy contexts
        busy := if contexts = [] then s.busy.erase lease.scope else s.busy
        running := s.running - 1
        active := s.active.filter fun other => other.ref ≠ ref }
      s.drain limits

end CallerExecutionScheduler

end VicoopBridge
