import VicoopBridge.Library.Promise
import VicoopBridge.Library.Transition

/-! # Serialised dispatches

`serializeDispatch` chains the functions of one task on promises. The `call`-th call makes
`run`, `settled`, the promise of the removal of its entry, and the promise it returns;
`previous` is one of an earlier call, or made from nothing. -/

namespace VicoopBridge

open Library

universe u v w

inductive DispatchPromise where
  /-- `Promise.resolve()` -/
  | resolved (call : ℕ)
  /-- What the function itself returned. -/
  | own (call : ℕ)
  | run (call : ℕ)
  | settled (call : ℕ)
  | removal (call : ℕ)
  | returned (call : ℕ)
  deriving DecidableEq

structure DispatchCall (τ : Type u) where
  taskId : τ
  previous : DispatchPromise
  deriving DecidableEq

/-- What a function shows of itself: when it is called and how it ends. -/
inductive DispatchEvent (ω : Type v) (ε : Type w) where
  | started (call : ℕ)
  | finished (call : ℕ) (outcome : Settlement (Option ω) ε)
  deriving DecidableEq

/-- `none` among the values of the promises is `undefined`. -/
structure DispatchChains (τ : Type u) (ω : Type v) (ε : Type w) where
  promises : Promises DispatchPromise (Option ω) ε := fun _ => .pending
  dispatchChains : τ → Option DispatchPromise := fun _ => none
  calls : List (DispatchCall τ) := []
  log : List (DispatchEvent ω ε) := []

namespace DispatchChains

variable {τ : Type u} {ω : Type v} {ε : Type w} [DecidableEq τ]

def serializeDispatch (d : DispatchChains τ ω ε) (taskId : τ) : DispatchChains τ ω ε :=
  let call := d.calls.length
  let (previous, promises) := match d.dispatchChains taskId with
    | some previous => (previous, d.promises)
    | none => (.resolved call, d.promises.settle (.resolved call) (.fulfilled none))
  { d with
    promises := promises.follow (.returned call) (.run call)
    dispatchChains := Function.update d.dispatchChains taskId (some (.settled call))
    calls := d.calls ++ [⟨taskId, previous⟩] }

/-- The reaction of `previous`: the function is called. It may throw before it returns. -/
def invoke (d : DispatchChains τ ω ε) (call : ℕ) : Option ε → DispatchChains τ ω ε
  | none =>
      { d with
        promises := d.promises.follow (.run call) (.own call)
        log := d.log ++ [.started call] }
  | some error =>
      { d with
        promises := d.promises.settle (.run call) (.rejected error)
        log := d.log ++ [.started call, .finished call (.rejected error)] }

/-- The promise of the function settles. -/
def finish (d : DispatchChains τ ω ε) (call : ℕ) (outcome : Settlement (Option ω) ε) :
    DispatchChains τ ω ε :=
  { d with
    promises := d.promises.settle (.own call) outcome
    log := d.log ++ [.finished call outcome] }

def adopt (d : DispatchChains τ ω ε) (promise : DispatchPromise) : DispatchChains τ ω ε :=
  { d with promises := d.promises.adopt promise }

/-- Both reactions of `run` give `undefined`. -/
def settle (d : DispatchChains τ ω ε) (call : ℕ) : DispatchChains τ ω ε :=
  { d with promises := d.promises.settle (.settled call) (.fulfilled none) }

/-- The reaction of `settled`. -/
def remove (d : DispatchChains τ ω ε) (call : ℕ) (taskId : τ) : DispatchChains τ ω ε :=
  { d with
    promises := d.promises.settle (.removal call) (.fulfilled none)
    dispatchChains :=
      if d.dispatchChains taskId = some (.settled call) then
        Function.update d.dispatchChains taskId none
      else d.dispatchChains }

/-! ## Runs -/

/-- The last five are jobs of the event loop, in whatever order it takes them. -/
inductive Action (τ : Type u) (ω : Type v) (ε : Type w) where
  | serializeDispatch (taskId : τ)
  | finish (call : ℕ) (outcome : Settlement (Option ω) ε)
  | invoke (call : ℕ) (thrown : Option ε)
  | adoptRun (call : ℕ)
  | settle (call : ℕ)
  | adoptReturned (call : ℕ)
  | remove (call : ℕ)
  deriving DecidableEq

def taskIdOf (d : DispatchChains τ ω ε) (call : ℕ) : Option τ := d.calls[call]?.map (·.taskId)

/-- The call whose job the action is. -/
def Action.job : Action τ ω ε → Option ℕ
  | .serializeDispatch _ | .finish _ _ => none
  | .invoke call _ | .adoptRun call | .settle call | .adoptReturned call | .remove call =>
      some call

def enabled (d : DispatchChains τ ω ε) : Action τ ω ε → Bool
  | .serializeDispatch _ => true
  | .finish call _ =>
      (d.promises (.run call)).isFollowing && (d.promises (.own call)).isPending
  | .invoke call _ =>
      match d.calls[call]? with
      | some entry => (d.promises entry.previous).isSettled && (d.promises (.run call)).isPending
      | none => false
  | .adoptRun call => d.promises.adopts (.run call)
  | .settle call =>
      (d.promises (.run call)).isSettled && (d.promises (.settled call)).isPending
  | .adoptReturned call => d.promises.adopts (.returned call)
  | .remove call =>
      (d.promises (.settled call)).isSettled && (d.promises (.removal call)).isPending

def apply (d : DispatchChains τ ω ε) : Action τ ω ε → DispatchChains τ ω ε
  | .serializeDispatch taskId => d.serializeDispatch taskId
  | .finish call outcome => d.finish call outcome
  | .invoke call thrown => d.invoke call thrown
  | .adoptRun call => d.adopt (.run call)
  | .settle call => d.settle call
  | .adoptReturned call => d.adopt (.returned call)
  | .remove call =>
      match d.taskIdOf call with
      | some taskId => d.remove call taskId
      | none => d

def system : System (DispatchChains τ ω ε) (Action τ ω ε) :=
  .ofApply (· = {}) (fun d a => d.enabled a = true) apply

end DispatchChains

end VicoopBridge
