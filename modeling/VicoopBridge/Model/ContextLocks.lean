import VicoopBridge.Library.Promise
import VicoopBridge.Library.Transition

/-! # Context locks

The turns of one context are chained on promises. The `call`-th `acquireContextLock` makes
`next`, which its release resolves, and the new tail `prev.then(() => next)`, which is
another promise. -/

namespace VicoopBridge

open Library

universe u

inductive LockPromise where
  /-- `Promise.resolve()` -/
  | resolved (call : ℕ)
  | next (call : ℕ)
  /-- `prev.then(() => next)` -/
  | tail (call : ℕ)
  deriving DecidableEq

structure LockCall (κ : Type u) where
  contextId : κ
  prev : LockPromise
  deriving DecidableEq

/-- `admitted` lists the calls that got past `await prev`; only they have a release. -/
structure ContextLocks (κ : Type u) where
  promises : Promises LockPromise Unit Empty := fun _ => .pending
  contextLocks : κ → Option LockPromise := fun _ => none
  calls : List (LockCall κ) := []
  admitted : List ℕ := []

namespace ContextLocks

variable {κ : Type u} [DecidableEq κ]

/-- Up to the `await`. -/
def acquireContextLock (d : ContextLocks κ) (contextId : κ) : ContextLocks κ :=
  let call := d.calls.length
  let (prev, promises) := match d.contextLocks contextId with
    | some prev => (prev, d.promises)
    | none => (.resolved call, d.promises.settle (.resolved call) (.fulfilled ()))
  { d with
    promises
    contextLocks := Function.update d.contextLocks contextId (some (.tail call))
    calls := d.calls ++ [⟨contextId, prev⟩] }

/-- The reaction of `prev` behind the tail. -/
def chain (d : ContextLocks κ) (call : ℕ) : ContextLocks κ :=
  { d with promises := d.promises.follow (.tail call) (.next call) }

def adopt (d : ContextLocks κ) (call : ℕ) : ContextLocks κ :=
  { d with promises := d.promises.adopt (.tail call) }

/-- The end of the `await`: the caller gets its release. -/
def enter (d : ContextLocks κ) (call : ℕ) : ContextLocks κ :=
  { d with admitted := d.admitted ++ [call] }

/-- The function the caller was given. -/
def release (d : ContextLocks κ) (call : ℕ) (contextId : κ) : ContextLocks κ :=
  { d with
    promises := d.promises.settle (.next call) (.fulfilled ())
    contextLocks :=
      if d.contextLocks contextId = some (.next call) then
        Function.update d.contextLocks contextId none
      else d.contextLocks }

/-! ## Runs -/

/-- The last three are jobs of the event loop, in whatever order it takes them. -/
inductive Action (κ : Type u) where
  | acquireContextLock (contextId : κ)
  | release (call : ℕ)
  | chain (call : ℕ)
  | adopt (call : ℕ)
  | enter (call : ℕ)
  deriving DecidableEq

def contextIdOf (d : ContextLocks κ) (call : ℕ) : Option κ := d.calls[call]?.map (·.contextId)

/-- The call whose job the action is. -/
def Action.job : Action κ → Option ℕ
  | .acquireContextLock _ | .release _ => none
  | .chain call | .adopt call | .enter call => some call

/-- What the call waits for has settled. -/
def prevSettled (d : ContextLocks κ) (call : ℕ) : Bool :=
  match d.calls[call]? with
  | some entry => (d.promises entry.prev).isSettled
  | none => false

def enabled (d : ContextLocks κ) : Action κ → Bool
  | .acquireContextLock _ => true
  | .release call => decide (call ∈ d.admitted)
  | .chain call => d.prevSettled call && (d.promises (.tail call)).isPending
  | .adopt call => d.promises.adopts (.tail call)
  | .enter call => d.prevSettled call && !decide (call ∈ d.admitted)

def apply (d : ContextLocks κ) : Action κ → ContextLocks κ
  | .acquireContextLock contextId => d.acquireContextLock contextId
  | .release call =>
      match d.contextIdOf call with
      | some contextId => d.release call contextId
      | none => d
  | .chain call => d.chain call
  | .adopt call => d.adopt call
  | .enter call => d.enter call

def system : System (ContextLocks κ) (Action κ) :=
  .ofApply (· = {}) (fun d a => d.enabled a = true) apply

end ContextLocks

end VicoopBridge
