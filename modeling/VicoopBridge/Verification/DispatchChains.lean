import VicoopBridge.Model.DispatchChains
import Mathlib.Algebra.BigOperators.Group.Finset.Basic
import Mathlib.Algebra.Order.BigOperators.Group.Finset

/-! # One task, one dispatch at a time

Each call goes through six stages, and its promises are a function of the stage. A stage is
entered by a job of the call itself, except that its function is called only when the call
before it has settled. -/

namespace VicoopBridge

open Library

universe u v w

variable {τ : Type u} {ω : Type v} {ε : Type w}

/-- The call that made the promise. -/
def DispatchPromise.call : DispatchPromise → ℕ
  | .resolved call | .own call | .run call | .settled call | .removal call | .returned call => call

def DispatchEvent.call : DispatchEvent ω ε → ℕ
  | .started call | .finished call _ => call

/-- Calls in their order, and the end of a function after its start. -/
def DispatchEvent.rank : DispatchEvent ω ε → ℕ
  | .started call => 2 * call
  | .finished call _ => 2 * call + 1

namespace DispatchChains

/-! ## The stages of a call -/

inductive Stage (ω : Type v) (ε : Type w) where
  | queued
  | running
  | finished (outcome : Settlement (Option ω) ε)
  | ran (outcome : Settlement (Option ω) ε)
  | settled (outcome : Settlement (Option ω) ε)
  | removed (outcome : Settlement (Option ω) ε)

namespace Stage

/-- How the function ended, if it has. -/
def outcome : Stage ω ε → Option (Settlement (Option ω) ε)
  | queued | running => none
  | finished outcome | ran outcome | settled outcome | removed outcome => some outcome

def run (call : ℕ) : Stage ω ε → PromiseState DispatchPromise (Option ω) ε
  | queued => .pending
  | running | finished _ => .following (.own call)
  | ran outcome | settled outcome | removed outcome => .settled outcome

/-- The promise of the function itself; a function that throws makes none. -/
def OwnIs (s : PromiseState DispatchPromise (Option ω) ε) : Stage ω ε → Prop
  | queued | running => s = .pending
  | finished outcome => s = .settled outcome
  | _ => True

def afterSettled : Stage ω ε → PromiseState DispatchPromise (Option ω) ε
  | settled _ | removed _ => .settled (.fulfilled none)
  | _ => .pending

def afterRemoval : Stage ω ε → PromiseState DispatchPromise (Option ω) ε
  | removed _ => .settled (.fulfilled none)
  | _ => .pending

def ReturnedIs (call : ℕ) (s : PromiseState DispatchPromise (Option ω) ε) (stage : Stage ω ε) :
    Prop :=
  s = .following (.run call) ∨ ∃ o, stage.run call = .settled o ∧ s = .settled o

end Stage

/-- The promises and the log show the call at a stage. -/
structure At (d : DispatchChains τ ω ε) (call : ℕ) (stage : Stage ω ε) : Prop where
  run : d.promises (.run call) = stage.run call
  own : stage.OwnIs (d.promises (.own call))
  settled : d.promises (.settled call) = stage.afterSettled
  removal : d.promises (.removal call) = stage.afterRemoval
  returned : stage.ReturnedIs call (d.promises (.returned call))
  started : .started call ∈ d.log ↔ (stage.run call).isPending = false
  finished : ∀ o, .finished call o ∈ d.log ↔ stage.outcome = some o

variable {d d' : DispatchChains τ ω ε} {call : ℕ} {stage : Stage ω ε}

theorem At.frame (h : At d call stage)
    (hpromises : ∀ p : DispatchPromise, p.call = call → d'.promises p = d.promises p)
    (hlog : ∀ e : DispatchEvent ω ε, e.call = call → (e ∈ d'.log ↔ e ∈ d.log)) :
    At d' call stage where
  run := by rw [hpromises _ rfl, h.run]
  own := by rw [hpromises _ rfl]; exact h.own
  settled := by rw [hpromises _ rfl, h.settled]
  removal := by rw [hpromises _ rfl, h.removal]
  returned := by rw [hpromises _ rfl]; exact h.returned
  started := by rw [hlog _ rfl, h.started]
  finished o := by rw [hlog _ rfl, h.finished]

/-! ## The jobs of a call -/

theorem At.queued_of_pending (h : At d call stage)
    (hrun : (d.promises (.run call)).isPending = true) : stage = .queued := by
  rw [h.run] at hrun
  cases stage with
  | queued => rfl
  | _ => simp [Stage.run] at hrun

theorem At.returned_of (h : At d call stage) (hrun : ∀ o, stage.run call ≠ .settled o) :
    d.promises (.returned call) = .following (.run call) := by
  rcases h.returned with hfollowing | ⟨o, ho, -⟩
  · exact hfollowing
  · exact absurd ho (hrun o)

theorem At.invoke (h : At d call .queued) (thrown : Option ε) :
    At (d.invoke call thrown) call
      (match thrown with
        | none => .running
        | some error => .ran (.rejected error)) := by
  have hrun : d.promises (.run call) = .pending := h.run
  have hown : d.promises (.own call) = .pending := h.own
  have hsettled : d.promises (.settled call) = .pending := h.settled
  have hremoval : d.promises (.removal call) = .pending := h.removal
  have hreturned := h.returned_of fun o => by simp [Stage.run]
  have hfinished : ∀ o, .finished call o ∉ d.log := fun o ho => by
    simpa [Stage.outcome] using (h.finished o).mp ho
  cases thrown with
  | none =>
      refine ⟨?_, ?_, ?_, ?_, ?_, ?_, ?_⟩
      · simp [DispatchChains.invoke, Promises.follow_self hrun, Stage.run]
      · simp [DispatchChains.invoke, hown, Stage.OwnIs]
      · simp [DispatchChains.invoke, hsettled, Stage.afterSettled]
      · simp [DispatchChains.invoke, hremoval, Stage.afterRemoval]
      · exact .inl (by simp [DispatchChains.invoke, hreturned])
      · simp [DispatchChains.invoke, Stage.run]
      · simp [DispatchChains.invoke, Stage.outcome, hfinished]
  | some error =>
      refine ⟨?_, ?_, ?_, ?_, ?_, ?_, ?_⟩
      · simp [DispatchChains.invoke, Promises.settle_self hrun, Stage.run]
      · trivial
      · simp [DispatchChains.invoke, hsettled, Stage.afterSettled]
      · simp [DispatchChains.invoke, hremoval, Stage.afterRemoval]
      · exact .inl (by simp [DispatchChains.invoke, hreturned])
      · simp [DispatchChains.invoke, Stage.run]
      · simp [DispatchChains.invoke, Stage.outcome, hfinished, eq_comm]

theorem At.running_of_enabled (h : At d call stage)
    (hrun : (d.promises (.run call)).isFollowing = true)
    (hown : (d.promises (.own call)).isPending = true) : stage = .running := by
  have hstage := h.own
  rw [h.run] at hrun
  cases stage with
  | running => rfl
  | finished o =>
      rw [show d.promises (.own call) = .settled o from hstage] at hown
      simp at hown
  | _ => simp [Stage.run, PromiseState.isFollowing] at hrun

theorem At.finish (h : At d call .running) (o : Settlement (Option ω) ε) :
    At (d.finish call o) call (.finished o) := by
  have hrun : d.promises (.run call) = .following (.own call) := h.run
  have hown : d.promises (.own call) = .pending := h.own
  have hsettled : d.promises (.settled call) = .pending := h.settled
  have hremoval : d.promises (.removal call) = .pending := h.removal
  have hreturned := h.returned_of fun o => by simp [Stage.run]
  have hstarted : .started call ∈ d.log := h.started.mpr rfl
  have hfinished : ∀ o, .finished call o ∉ d.log := fun o ho => by
    simpa [Stage.outcome] using (h.finished o).mp ho
  refine ⟨?_, ?_, ?_, ?_, ?_, ?_, ?_⟩
  · simp [DispatchChains.finish, hrun, Stage.run]
  · simp [DispatchChains.finish, Promises.settle_self hown, Stage.OwnIs]
  · simp [DispatchChains.finish, hsettled, Stage.afterSettled]
  · simp [DispatchChains.finish, hremoval, Stage.afterRemoval]
  · exact .inl (by simp [DispatchChains.finish, hreturned])
  · simp [DispatchChains.finish, hstarted, Stage.run]
  · simp [DispatchChains.finish, Stage.outcome, hfinished, eq_comm]

theorem At.finished_of_adopts (h : At d call stage)
    (hadopts : d.promises.adopts (.run call) = true) : ∃ o, stage = .finished o := by
  obtain ⟨p, o, hrun, ho⟩ := Promises.adopts_iff.mp hadopts
  have hown := h.own
  rw [h.run] at hrun
  cases stage with
  | finished o => exact ⟨o, rfl⟩
  | running =>
      obtain rfl : .own call = p := by simpa [Stage.run] using hrun
      simp [show d.promises (.own call) = .pending from hown] at ho
  | _ => simp [Stage.run] at hrun

theorem At.adoptRun {o : Settlement (Option ω) ε} (h : At d call (.finished o)) :
    At (d.adopt (.run call)) call (.ran o) := by
  have hrun : d.promises (.run call) = .following (.own call) := h.run
  have hown : d.promises (.own call) = .settled o := h.own
  have hsettled : d.promises (.settled call) = .pending := h.settled
  have hremoval : d.promises (.removal call) = .pending := h.removal
  have hreturned := h.returned_of fun o => by simp [Stage.run]
  refine ⟨?_, ?_, ?_, ?_, ?_, ?_, ?_⟩
  · simp [adopt, Promises.adopt_self hrun hown, Stage.run]
  · trivial
  · simp [adopt, hsettled, Stage.afterSettled]
  · simp [adopt, hremoval, Stage.afterRemoval]
  · exact .inl (by simp [adopt, hreturned])
  · exact h.started
  · exact h.finished

theorem At.ran_of_enabled (h : At d call stage)
    (hrun : (d.promises (.run call)).isSettled = true)
    (hsettled : (d.promises (.settled call)).isPending = true) : ∃ o, stage = .ran o := by
  rw [h.run] at hrun
  rw [h.settled] at hsettled
  cases stage with
  | ran o => exact ⟨o, rfl⟩
  | queued => simp [Stage.run] at hrun
  | running => simp [Stage.run] at hrun
  | finished o => simp [Stage.run] at hrun
  | settled o => simp [Stage.afterSettled] at hsettled
  | removed o => simp [Stage.afterSettled] at hsettled

theorem At.settle {o : Settlement (Option ω) ε} (h : At d call (.ran o)) :
    At (d.settle call) call (.settled o) := by
  have hrun : d.promises (.run call) = .settled o := h.run
  have hsettled : d.promises (.settled call) = .pending := h.settled
  have hremoval : d.promises (.removal call) = .pending := h.removal
  refine ⟨?_, ?_, ?_, ?_, ?_, ?_, ?_⟩
  · simp [DispatchChains.settle, hrun, Stage.run]
  · trivial
  · simp [DispatchChains.settle, Promises.settle_self hsettled, Stage.afterSettled]
  · simp [DispatchChains.settle, hremoval, Stage.afterRemoval]
  · simpa [DispatchChains.settle, Stage.ReturnedIs, Stage.run] using h.returned
  · exact h.started
  · exact h.finished

theorem At.settled_of_enabled (h : At d call stage)
    (hsettled : (d.promises (.settled call)).isSettled = true)
    (hremoval : (d.promises (.removal call)).isPending = true) : ∃ o, stage = .settled o := by
  rw [h.settled] at hsettled
  rw [h.removal] at hremoval
  cases stage with
  | settled o => exact ⟨o, rfl⟩
  | removed o => simp [Stage.afterRemoval] at hremoval
  | _ => simp [Stage.afterSettled] at hsettled

theorem At.remove [DecidableEq τ] {o : Settlement (Option ω) ε} (h : At d call (.settled o))
    (taskId : τ) : At (d.remove call taskId) call (.removed o) := by
  have hrun : d.promises (.run call) = .settled o := h.run
  have hsettled : d.promises (.settled call) = .settled (.fulfilled none) := h.settled
  have hremoval : d.promises (.removal call) = .pending := h.removal
  refine ⟨?_, ?_, ?_, ?_, ?_, ?_, ?_⟩
  · simp [DispatchChains.remove, hrun, Stage.run]
  · trivial
  · simp [DispatchChains.remove, hsettled, Stage.afterSettled]
  · simp [DispatchChains.remove, Promises.settle_self hremoval, Stage.afterRemoval]
  · simpa [DispatchChains.remove, Stage.ReturnedIs, Stage.run] using h.returned
  · exact h.started
  · exact h.finished

theorem At.adoptReturned (h : At d call stage)
    (hadopts : d.promises.adopts (.returned call) = true) :
    At (d.adopt (.returned call)) call stage := by
  obtain ⟨p, o, hreturned, ho⟩ := Promises.adopts_iff.mp hadopts
  obtain rfl : p = .run call := by
    rcases h.returned with hfollowing | ⟨o', -, hsettled⟩
    · simpa [hreturned] using hfollowing
    · simp [hreturned] at hsettled
  refine ⟨?_, ?_, ?_, ?_, ?_, h.started, h.finished⟩
  · simpa [adopt] using h.run
  · simpa [adopt] using h.own
  · simpa [adopt] using h.settled
  · simpa [adopt] using h.removal
  · exact .inr ⟨o, by rw [← h.run, ho], by simp [adopt, Promises.adopt_self hreturned ho]⟩

/-! ## The calls of a task -/

/-- No later call has the task id. -/
structure Last (d : DispatchChains τ ω ε) (taskId : τ) (call : ℕ) : Prop where
  of : d.taskIdOf call = some taskId
  none_after : ∀ later, call < later → d.taskIdOf later ≠ some taskId

/-- What `previous` of a call is: the tail the call before left, or nothing to wait for. -/
def Follows (d : DispatchChains τ ω ε) (call : ℕ) (entry : DispatchCall τ) : Prop :=
  (∃ before, entry.previous = .settled before ∧ before < call ∧
    d.taskIdOf before = some entry.taskId ∧
    ∀ between, before < between → between < call →
      d.taskIdOf between ≠ some entry.taskId) ∨
  entry.previous = .resolved call ∧ (d.promises (.resolved call)).isSettled = true ∧
    ∀ before < call, d.taskIdOf before = some entry.taskId →
      (d.promises (.settled before)).isSettled = true

structure Chained (d : DispatchChains τ ω ε) : Prop where
  staged : ∀ call < d.calls.length, ∃ stage, At d call stage
  fresh : ∀ p : DispatchPromise, d.calls.length ≤ p.call → d.promises p = .pending
  logged : ∀ e ∈ d.log, e.call < d.calls.length
  follows : ∀ call entry, d.calls[call]? = some entry → Follows d call entry
  /-- A function is called only when the earlier ones of its task have settled. -/
  order : ∀ call < d.calls.length, (d.promises (.run call)).isPending = false →
    ∀ before < call, d.taskIdOf before = d.taskIdOf call →
      (d.promises (.settled before)).isSettled = true
  entry : ∀ taskId p, d.dispatchChains taskId = some p →
    ∃ call, p = .settled call ∧ Last d taskId call ∧
      (d.promises (.removal call)).isPending = true
  noEntry : ∀ taskId call, d.dispatchChains taskId = none → d.taskIdOf call = some taskId →
    (d.promises (.settled call)).isSettled = true
  inOrder : d.log.Pairwise fun a b => d.taskIdOf a.call = d.taskIdOf b.call → a.rank < b.rank

theorem taskIdOf_eq_some {taskId : τ} :
    d.taskIdOf call = some taskId ↔ ∃ entry, d.calls[call]? = some entry ∧ entry.taskId = taskId := by
  simp [taskIdOf]

theorem lt_of_taskIdOf {taskId : τ} (h : d.taskIdOf call = some taskId) :
    call < d.calls.length := by
  obtain ⟨entry, hentry, -⟩ := taskIdOf_eq_some.mp h
  exact (List.getElem?_eq_some_iff.mp hentry).1

theorem taskIdOf_congr (h : d'.calls = d.calls) (call : ℕ) :
    d'.taskIdOf call = d.taskIdOf call := by
  rw [taskIdOf, taskIdOf, h]

theorem At.of_logged {e : DispatchEvent ω ε} (h : At d e.call stage) (he : e ∈ d.log) :
    (d.promises (.run e.call)).isPending = false := by
  cases e with
  | started call =>
      rw [h.run]
      exact h.started.mp he
  | finished call o =>
      have houtcome : stage.outcome = some o := (h.finished o).mp he
      rw [h.run]
      cases stage with
      | queued => simp [Stage.outcome] at houtcome
      | _ => rfl

/-- While a call has not settled, no later function of its task has been called. -/
theorem Chained.call_le (h : Chained d) {e : DispatchEvent ω ε} (he : e ∈ d.log)
    (htask : d.taskIdOf e.call = d.taskIdOf call)
    (hsettled : (d.promises (.settled call)).isSettled = false) : e.call ≤ call := by
  by_contra hlater
  have hlt := h.logged e he
  obtain ⟨stage, hstage⟩ := h.staged e.call hlt
  have := h.order e.call hlt (hstage.of_logged he) call (by omega) htask.symm
  rw [hsettled] at this
  exact Bool.noConfusion this

/-- A job of one call that leaves the table of tails to be accounted for. -/
structure Job (d d' : DispatchChains τ ω ε) (call : ℕ) (more : List (DispatchEvent ω ε)) :
    Prop where
  calls : d'.calls = d.calls
  later : Promises.Later d.promises d'.promises
  promises : ∀ p : DispatchPromise, p.call ≠ call → d'.promises p = d.promises p
  log : d'.log = d.log ++ more
  about : ∀ e ∈ more, e.call = call

theorem Follows.job {more : List (DispatchEvent ω ε)} {entry : DispatchCall τ} {other : ℕ}
    (h : Follows d other entry) (hjob : Job d d' call more) : Follows d' other entry := by
  rcases h with ⟨before, hprevious, hlt, htask, hbetween⟩ | ⟨hprevious, hresolved, hall⟩
  · refine .inl ⟨before, hprevious, hlt, by rwa [taskIdOf_congr hjob.calls], ?_⟩
    intro between h₁ h₂
    rw [taskIdOf_congr hjob.calls]
    exact hbetween between h₁ h₂
  · refine .inr ⟨hprevious, hjob.later.isSettled hresolved, fun before hlt htask => ?_⟩
    rw [taskIdOf_congr hjob.calls] at htask
    exact hjob.later.isSettled (hall before hlt htask)

theorem Chained.job {more : List (DispatchEvent ω ε)} {stage' : Stage ω ε} (h : Chained d)
    (hlt : call < d.calls.length) (hjob : Job d d' call more) (hstage : At d' call stage')
    (hstart : (d.promises (.run call)).isPending = true →
      ∀ before < call, d.taskIdOf before = d.taskIdOf call →
        (d.promises (.settled before)).isSettled = true)
    (hfirst : ∀ a ∈ d.log, d.taskIdOf a.call = d.taskIdOf call → ∀ b ∈ more, a.rank < b.rank)
    (hmore : more.Pairwise fun a b => a.rank < b.rank)
    (hentry : ∀ taskId p, d'.dispatchChains taskId = some p →
      ∃ call, p = .settled call ∧ Last d taskId call ∧
        (d'.promises (.removal call)).isPending = true)
    (hnone : ∀ taskId call, d'.dispatchChains taskId = none → d.taskIdOf call = some taskId →
      (d'.promises (.settled call)).isSettled = true) : Chained d' where
  staged other hother := by
    rw [hjob.calls] at hother
    by_cases heq : other = call
    · exact ⟨stage', heq ▸ hstage⟩
    · obtain ⟨stage, hother⟩ := h.staged other hother
      refine ⟨stage, hother.frame (fun p hp => hjob.promises p (hp ▸ heq)) fun e he => ?_⟩
      have hnot : e ∉ more := fun hmem => heq (by rw [← he, hjob.about e hmem])
      simp [hjob.log, hnot]
  fresh p hp := by
    rw [hjob.calls] at hp
    rw [hjob.promises p (by omega), h.fresh p hp]
  logged e he := by
    rw [hjob.log, List.mem_append] at he
    rw [hjob.calls]
    rcases he with he | he
    · exact h.logged e he
    · rwa [hjob.about e he]
  follows other entry hother := (h.follows other entry (by rwa [hjob.calls] at hother)).job hjob
  order other hother hrun before hbefore htask := by
    rw [hjob.calls] at hother
    rw [taskIdOf_congr hjob.calls, taskIdOf_congr hjob.calls] at htask
    refine hjob.later.isSettled ?_
    by_cases heq : other = call
    · subst heq
      cases hpending : (d.promises (.run other)).isPending with
      | true => exact hstart hpending before hbefore htask
      | false => exact h.order other hother hpending before hbefore htask
    · rw [hjob.promises (.run other) heq] at hrun
      exact h.order other hother hrun before hbefore htask
  entry taskId p hp := by
    obtain ⟨last, heq, hlast, hremoval⟩ := hentry taskId p hp
    refine ⟨last, heq, ⟨?_, fun later hlater => ?_⟩, hremoval⟩
    · rw [taskIdOf_congr hjob.calls]
      exact hlast.of
    · rw [taskIdOf_congr hjob.calls]
      exact hlast.none_after later hlater
  noEntry taskId other hchains htask :=
    hnone taskId other hchains (by rwa [taskIdOf_congr hjob.calls] at htask)
  inOrder := by
    rw [hjob.log, List.pairwise_append]
    simp only [taskIdOf_congr hjob.calls]
    refine ⟨h.inOrder, hmore.imp (by intro a b hrank _; exact hrank), fun a ha b hb htask => ?_⟩
    exact hfirst a ha (by rw [htask, hjob.about b hb]) b hb

/-- Most jobs leave the table of tails alone. -/
theorem Chained.job_of_chains {stage' : Stage ω ε} (h : Chained d)
    (more : List (DispatchEvent ω ε)) (hlt : call < d.calls.length) (hjob : Job d d' call more)
    (hstage : At d' call stage')
    (hstart : (d.promises (.run call)).isPending = true →
      ∀ before < call, d.taskIdOf before = d.taskIdOf call →
        (d.promises (.settled before)).isSettled = true)
    (hfirst : ∀ a ∈ d.log, d.taskIdOf a.call = d.taskIdOf call → ∀ b ∈ more, a.rank < b.rank)
    (hmore : more.Pairwise fun a b => a.rank < b.rank)
    (hchains : d'.dispatchChains = d.dispatchChains)
    (hremoval : ∀ other, d'.promises (.removal other) = d.promises (.removal other)) :
    Chained d' := by
  refine h.job hlt hjob hstage hstart hfirst hmore (fun taskId p hp => ?_) ?_
  · rw [hchains] at hp
    obtain ⟨last, heq, hlast, hpending⟩ := h.entry taskId p hp
    exact ⟨last, heq, hlast, by rwa [hremoval]⟩
  · intro taskId other hnone htask
    rw [hchains] at hnone
    exact hjob.later.isSettled (h.noEntry taskId other hnone htask)

/-! ## One step -/

theorem Chained.lt_of_not_pending (h : Chained d) {p : DispatchPromise}
    (hp : (d.promises p).isPending = false) : p.call < d.calls.length := by
  by_contra hge
  rw [h.fresh p (by omega)] at hp
  exact Bool.noConfusion hp

/-- What a call waits for settles only after everything called before it for the task. -/
theorem Chained.settled_before (h : Chained d) {entry : DispatchCall τ}
    (hentry : d.calls[call]? = some entry)
    (hprevious : (d.promises entry.previous).isSettled = true) :
    ∀ before < call, d.taskIdOf before = d.taskIdOf call →
      (d.promises (.settled before)).isSettled = true := by
  intro before hbefore htask
  have hcall : d.taskIdOf call = some entry.taskId := taskIdOf_eq_some.mpr ⟨entry, hentry, rfl⟩
  rw [hcall] at htask
  rcases h.follows call entry hentry with ⟨last, heq, hlast, hlastTask, hbetween⟩ | ⟨-, -, hall⟩
  · rw [heq] at hprevious
    rcases Nat.lt_trichotomy before last with hlt | heq | hgt
    · have hlen := lt_of_taskIdOf hlastTask
      obtain ⟨stage, hstage⟩ := h.staged last hlen
      have hrun : (d.promises (.run last)).isPending = false := by
        rw [hstage.settled] at hprevious
        rw [hstage.run]
        cases stage with
        | settled o => rfl
        | removed o => rfl
        | _ => simp [Stage.afterSettled] at hprevious
      exact h.order last hlen hrun before hlt (by rw [htask, hlastTask])
    · rwa [heq]
    · exact absurd htask (hbetween before hgt hbefore)
  · exact hall before hbefore htask

theorem not_settled_of_pending (h : Chained d) (hlt : call < d.calls.length)
    (hrun : (d.promises (.run call)).isPending = true) :
    (d.promises (.settled call)).isSettled = false := by
  obtain ⟨stage, hstage⟩ := h.staged call hlt
  obtain rfl := hstage.queued_of_pending hrun
  rw [hstage.settled]
  rfl

theorem Chained.invoke (h : Chained d) {entry : DispatchCall τ}
    (hentry : d.calls[call]? = some entry)
    (hprevious : (d.promises entry.previous).isSettled = true)
    (hrun : (d.promises (.run call)).isPending = true) (thrown : Option ε) :
    Chained (d.invoke call thrown) := by
  have hlt : call < d.calls.length := (List.getElem?_eq_some_iff.mp hentry).1
  obtain ⟨stage, hstage⟩ := h.staged call hlt
  obtain rfl := hstage.queued_of_pending hrun
  have hfirst : ∀ a ∈ d.log, d.taskIdOf a.call = d.taskIdOf call → a.rank < 2 * call := by
    intro a ha htask
    have hle := h.call_le ha htask (not_settled_of_pending h hlt hrun)
    have hne : a.call ≠ call := by
      intro heq
      have hnot := At.of_logged (heq ▸ hstage) ha
      rw [heq, hrun] at hnot
      exact Bool.noConfusion hnot
    cases a <;> simp only [DispatchEvent.rank, DispatchEvent.call] at hle hne ⊢ <;> omega
  cases thrown with
  | none =>
      refine h.job_of_chains [.started call] hlt ⟨rfl, Promises.later_follow _ _ _, ?_,
        rfl, by simp [DispatchEvent.call]⟩ (hstage.invoke none)
        (fun _ => h.settled_before hentry hprevious) ?_ (by simp) rfl ?_
      · intro p hp
        exact Promises.follow_ne (by rintro rfl; exact hp rfl)
      · intro a ha htask b hb
        obtain rfl := List.mem_singleton.mp hb
        exact hfirst a ha htask
      · intro other
        exact Promises.follow_ne (by simp)
  | some error =>
      refine h.job_of_chains [.started call, .finished call (.rejected error)] hlt
        ⟨rfl, Promises.later_settle _ _ _, ?_, rfl, by simp [DispatchEvent.call]⟩
        (hstage.invoke (some error)) (fun _ => h.settled_before hentry hprevious) ?_
        (by simp [DispatchEvent.rank]) rfl ?_
      · intro p hp
        exact Promises.settle_ne (by rintro rfl; exact hp rfl) _
      · intro a ha htask b hb
        have hrank := hfirst a ha htask
        simp only [List.mem_cons, List.not_mem_nil, or_false] at hb
        rcases hb with rfl | rfl
        · exact hrank
        · change a.rank < 2 * call + 1
          omega
      · intro other
        exact Promises.settle_ne (by simp) _

theorem Chained.finish (h : Chained d) (hrun : (d.promises (.run call)).isFollowing = true)
    (hown : (d.promises (.own call)).isPending = true) (o : Settlement (Option ω) ε) :
    Chained (d.finish call o) := by
  have hpending : (d.promises (.run call)).isPending = false := by
    cases hstate : d.promises (.run call) with
    | pending => simp [hstate, PromiseState.isFollowing] at hrun
    | _ => rfl
  have hlt : call < d.calls.length := h.lt_of_not_pending hpending
  obtain ⟨stage, hstage⟩ := h.staged call hlt
  obtain rfl := hstage.running_of_enabled hrun hown
  refine h.job_of_chains [.finished call o] hlt ⟨rfl, Promises.later_settle _ _ _, ?_,
    rfl, by simp [DispatchEvent.call]⟩ (hstage.finish o) ?_ ?_ (by simp) rfl ?_
  · intro p hp
    exact Promises.settle_ne (by rintro rfl; exact hp rfl) _
  · intro hnot
    rw [hpending] at hnot
    exact absurd hnot Bool.false_ne_true
  · intro a ha htask b hb
    obtain rfl := List.mem_singleton.mp hb
    have hle := h.call_le ha htask (by rw [hstage.settled]; rfl)
    cases a with
    | started other =>
        simp only [DispatchEvent.rank, DispatchEvent.call] at hle ⊢
        omega
    | finished other o' =>
        have hne : other ≠ call := by
          rintro rfl
          simpa [Stage.outcome] using (hstage.finished o').mp ha
        simp only [DispatchEvent.rank, DispatchEvent.call] at hle ⊢
        omega
  · intro other
    exact Promises.settle_ne (by simp) _

theorem Chained.adopt (h : Chained d) {p : DispatchPromise}
    (hp : p = .run call ∨ p = .returned call) (hadopts : d.promises.adopts p = true) :
    Chained (d.adopt p) := by
  obtain ⟨q, o, hfollowing, ho⟩ := Promises.adopts_iff.mp hadopts
  have hcall : p.call = call := by rcases hp with rfl | rfl <;> rfl
  have hlt : call < d.calls.length := by
    rw [← hcall]
    exact h.lt_of_not_pending (by rw [hfollowing]; rfl)
  obtain ⟨stage, hstage⟩ := h.staged call hlt
  have hjob : Job d (d.adopt p) call [] := by
    refine ⟨rfl, Promises.later_adopt _ _, fun r hr => ?_, by simp [DispatchChains.adopt], by simp⟩
    exact Promises.adopt_ne (by rintro rfl; exact hr hcall)
  have hremoval : ∀ other, (d.adopt p).promises (.removal other) = d.promises (.removal other) := by
    intro other
    exact Promises.adopt_ne (by rcases hp with rfl | rfl <;> simp)
  rcases hp with rfl | rfl
  · obtain ⟨o', rfl⟩ := hstage.finished_of_adopts hadopts
    refine h.job_of_chains [] hlt hjob hstage.adoptRun ?_ (by simp) .nil rfl hremoval
    intro hpending
    simp [hstage.run, Stage.run] at hpending
  · refine h.job_of_chains [] hlt hjob (hstage.adoptReturned hadopts) ?_ (by simp) .nil rfl hremoval
    intro hpending
    obtain rfl := hstage.queued_of_pending hpending
    rcases hstage.returned with hreturned | ⟨o', hran, -⟩
    · obtain rfl : .run call = q := by simpa [hreturned] using hfollowing
      simp [ho] at hpending
    · simp [Stage.run] at hran

theorem Chained.settle (h : Chained d) (hrun : (d.promises (.run call)).isSettled = true)
    (hsettled : (d.promises (.settled call)).isPending = true) : Chained (d.settle call) := by
  have hnot := PromiseState.not_isPending_of_isSettled hrun
  have hlt : call < d.calls.length := h.lt_of_not_pending hnot
  obtain ⟨stage, hstage⟩ := h.staged call hlt
  obtain ⟨o, rfl⟩ := hstage.ran_of_enabled hrun hsettled
  refine h.job_of_chains [] hlt ⟨rfl, Promises.later_settle _ _ _, ?_,
    by simp [DispatchChains.settle], by simp⟩ hstage.settle ?_ (by simp) .nil rfl ?_
  · intro p hp
    exact Promises.settle_ne (by rintro rfl; exact hp rfl) _
  · intro hpending
    rw [hnot] at hpending
    exact absurd hpending Bool.false_ne_true
  · intro other
    exact Promises.settle_ne (by simp) _

section Tails

variable [DecidableEq τ]

/-- The removal job of a call takes the entry away only if the call is the task's last. -/
theorem Chained.remove (h : Chained d) (hsettled : (d.promises (.settled call)).isSettled = true)
    (hremoval : (d.promises (.removal call)).isPending = true) {taskId : τ}
    (htaskId : d.taskIdOf call = some taskId) : Chained (d.remove call taskId) := by
  have hlt : call < d.calls.length := lt_of_taskIdOf htaskId
  obtain ⟨stage, hstage⟩ := h.staged call hlt
  obtain ⟨o, rfl⟩ := hstage.settled_of_enabled hsettled hremoval
  have hnot : (d.promises (.run call)).isPending = false := by rw [hstage.run]; rfl
  have hkept : ∀ other, (d.remove call taskId).promises (.settled other) =
      d.promises (.settled other) := fun other => Promises.settle_ne (by simp) _
  have hjob : Job d (d.remove call taskId) call [] := by
    refine ⟨rfl, Promises.later_settle _ _ _, fun p hp => ?_, by simp [DispatchChains.remove],
      by simp⟩
    exact Promises.settle_ne (by rintro rfl; exact hp rfl) _
  have hstart : (d.promises (.run call)).isPending = true →
      ∀ before < call, d.taskIdOf before = d.taskIdOf call →
        (d.promises (.settled before)).isSettled = true := by
    intro hpending
    rw [hnot] at hpending
    exact absurd hpending Bool.false_ne_true
  refine h.job hlt hjob (hstage.remove taskId) hstart (by simp) .nil ?_ ?_
  · intro taskId' p hp
    have hold : d.dispatchChains taskId' = some p ∧ p ≠ .settled call := by
      simp only [DispatchChains.remove] at hp
      by_cases hentry : d.dispatchChains taskId = some (.settled call)
      · rw [if_pos hentry] at hp
        by_cases heq : taskId' = taskId
        · simp [heq] at hp
        · rw [Function.update_of_ne heq] at hp
          refine ⟨hp, fun hcall => heq ?_⟩
          obtain ⟨last, hlast, hof, -⟩ := h.entry taskId' p hp
          obtain rfl : call = last := by simpa [hcall] using hlast
          simpa [htaskId] using hof.of.symm
      · rw [if_neg hentry] at hp
        refine ⟨hp, fun hcall => hentry ?_⟩
        obtain ⟨last, hlast, hof, -⟩ := h.entry taskId' p hp
        obtain rfl : call = last := by simpa [hcall] using hlast
        obtain rfl : taskId = taskId' := by simpa [htaskId] using hof.of
        rw [hp, hcall]
    obtain ⟨last, heq, hlast, hpending⟩ := h.entry taskId' p hold.1
    refine ⟨last, heq, hlast, ?_⟩
    have hne : last ≠ call := fun hcall => hold.2 (by rw [heq, hcall])
    rwa [hjob.promises (.removal last) hne]
  · intro taskId' other hnone htask
    rw [hkept]
    cases hold : d.dispatchChains taskId' with
    | none => exact h.noEntry taskId' other hold htask
    | some p =>
        simp only [DispatchChains.remove] at hnone
        by_cases hentry : d.dispatchChains taskId = some (.settled call)
        · rw [if_pos hentry] at hnone
          by_cases heq : taskId' = taskId
          · subst heq
            obtain ⟨last, hlast, hof, -⟩ := h.entry taskId' _ hentry
            obtain rfl : call = last := by simpa using hlast
            rcases Nat.lt_trichotomy other call with hbefore | rfl | hafter
            · exact h.order call hlt hnot other hbefore (by rw [htask, htaskId])
            · exact hsettled
            · exact absurd htask (hof.none_after other hafter)
          · rw [Function.update_of_ne heq, hold] at hnone
            exact absurd hnone (by simp)
        · rw [if_neg hentry, hold] at hnone
          exact absurd hnone (by simp)

theorem calls_serializeDispatch (d : DispatchChains τ ω ε) (taskId : τ) :
    ∃ previous, (d.serializeDispatch taskId).calls = d.calls ++ [⟨taskId, previous⟩] ∧
      (d.dispatchChains taskId = some previous ∧
          (d.serializeDispatch taskId).promises =
            d.promises.follow (.returned d.calls.length) (.run d.calls.length) ∨
        d.dispatchChains taskId = none ∧ previous = .resolved d.calls.length ∧
          (d.serializeDispatch taskId).promises =
            (d.promises.settle (.resolved d.calls.length) (.fulfilled none)).follow
              (.returned d.calls.length) (.run d.calls.length)) := by
  cases h : d.dispatchChains taskId with
  | none => exact ⟨_, by simp only [serializeDispatch, h], .inr ⟨rfl, rfl, by
      simp only [serializeDispatch, h]⟩⟩
  | some previous => exact ⟨previous, by simp only [serializeDispatch, h], .inl ⟨rfl, by
      simp only [serializeDispatch, h]⟩⟩

/-- What a call makes: its own promises, and nothing else. -/
theorem Chained.promises_serializeDispatch (h : Chained d) (taskId : τ) :
    Promises.Later d.promises (d.serializeDispatch taskId).promises ∧
      (∀ p : DispatchPromise, p ≠ .resolved d.calls.length → p ≠ .returned d.calls.length →
        (d.serializeDispatch taskId).promises p = d.promises p) ∧
      (d.serializeDispatch taskId).promises (.returned d.calls.length) =
        .following (.run d.calls.length) := by
  have hreturned := h.fresh (.returned d.calls.length) le_rfl
  obtain ⟨previous, -, ⟨-, hpromises⟩ | ⟨-, -, hpromises⟩⟩ := calls_serializeDispatch d taskId
  · rw [hpromises]
    refine ⟨Promises.later_follow _ _ _, fun p _ hp => Promises.follow_ne hp, ?_⟩
    exact Promises.follow_self hreturned
  · rw [hpromises]
    refine ⟨(Promises.later_settle _ _ _).trans (Promises.later_follow _ _ _), fun p hp hp' => ?_, ?_⟩
    · rw [Promises.follow_ne hp', Promises.settle_ne hp]
    · exact Promises.follow_self (by rw [Promises.settle_ne (by simp), hreturned])

theorem taskIdOf_serializeDispatch (d : DispatchChains τ ω ε) (taskId : τ) (call : ℕ) :
    (d.serializeDispatch taskId).taskIdOf call =
      if call = d.calls.length then some taskId else d.taskIdOf call := by
  obtain ⟨previous, hcalls, -⟩ := calls_serializeDispatch d taskId
  rw [taskIdOf, taskIdOf, hcalls, getElem?_append_singleton]
  split <;> rfl

theorem taskIdOf_of_lt (taskId : τ) {call : ℕ} (hlt : call < d.calls.length) :
    (d.serializeDispatch taskId).taskIdOf call = d.taskIdOf call := by
  rw [taskIdOf_serializeDispatch, if_neg (by omega)]

theorem Chained.serializeDispatch (h : Chained d) (taskId : τ) :
    Chained (d.serializeDispatch taskId) := by
  obtain ⟨hlater, hothers, hreturned⟩ := h.promises_serializeDispatch taskId
  have hlength : (d.serializeDispatch taskId).calls.length = d.calls.length + 1 := by
    obtain ⟨previous, hcalls, -⟩ := calls_serializeDispatch d taskId
    simp [hcalls]
  have hlog : (d.serializeDispatch taskId).log = d.log := by simp [DispatchChains.serializeDispatch]
  have hchains : (d.serializeDispatch taskId).dispatchChains =
      Function.update d.dispatchChains taskId (some (.settled d.calls.length)) := by
    simp [DispatchChains.serializeDispatch]
  have hold : ∀ p : DispatchPromise, p.call ≠ d.calls.length →
      (d.serializeDispatch taskId).promises p = d.promises p := fun p hp =>
    hothers p (by rintro rfl; exact hp rfl) (by rintro rfl; exact hp rfl)
  have htask : ∀ other < d.calls.length,
      (d.serializeDispatch taskId).taskIdOf other = d.taskIdOf other := fun other hother =>
    taskIdOf_of_lt taskId hother
  have hnew : (d.serializeDispatch taskId).taskIdOf d.calls.length = some taskId := by
    rw [taskIdOf_serializeDispatch, if_pos rfl]
  refine ⟨?_, ?_, ?_, ?_, ?_, ?_, ?_, ?_⟩
  · intro other hother
    rcases Nat.lt_succ_iff_lt_or_eq.mp (hlength ▸ hother) with hlt | rfl
    · obtain ⟨stage, hstage⟩ := h.staged other hlt
      exact ⟨stage, hstage.frame (fun p hp => hold p (by omega)) fun e _ => by rw [hlog]⟩
    · refine ⟨.queued, ?_, ?_, ?_, ?_, .inl hreturned, ?_, ?_⟩
      · rw [hothers _ (by simp) (by simp), h.fresh _ le_rfl]
        rfl
      · rw [hothers _ (by simp) (by simp)]
        exact h.fresh (.own _) le_rfl
      · rw [hothers _ (by simp) (by simp), h.fresh _ le_rfl]
        rfl
      · rw [hothers _ (by simp) (by simp), h.fresh _ le_rfl]
        rfl
      · rw [hlog]
        exact iff_of_false (fun he => absurd (h.logged _ he) (lt_irrefl _)) (by simp [Stage.run])
      · intro o
        rw [hlog]
        exact iff_of_false (fun he => absurd (h.logged _ he) (lt_irrefl _)) (by simp [Stage.outcome])
  · intro p hp
    rw [hlength] at hp
    rw [hold p (by omega), h.fresh p (by omega)]
  · intro e he
    rw [hlog] at he
    have := h.logged e he
    omega
  · intro other entry hentry
    have hfollows : ∀ {before}, before < other → other ≤ d.calls.length →
        (d.serializeDispatch taskId).taskIdOf before = d.taskIdOf before := fun hb hle =>
      htask _ (by omega)
    obtain ⟨previous, hcalls, hprevious⟩ := calls_serializeDispatch d taskId
    rw [hcalls, getElem?_append_singleton] at hentry
    split at hentry
    · subst other
      obtain rfl := Option.some.inj hentry
      rcases hprevious with ⟨hsome, -⟩ | ⟨hnone, hresolved, hpromises⟩
      · obtain ⟨last, heq, hlast, -⟩ := h.entry taskId previous hsome
        have hlt := lt_of_taskIdOf hlast.of
        refine .inl ⟨last, heq, hlt, by rw [hfollows hlt le_rfl, hlast.of], fun b h₁ h₂ => ?_⟩
        rw [hfollows h₂ le_rfl]
        exact hlast.none_after b h₁
      · refine .inr ⟨hresolved, ?_, fun before hbefore hof => ?_⟩
        · rw [hpromises, Promises.follow_ne (by simp),
            Promises.settle_self (h.fresh (.resolved _) le_rfl)]
          rfl
        · rw [hfollows hbefore le_rfl] at hof
          exact hlater.isSettled (h.noEntry taskId before hnone hof)
    · have hlt := (List.getElem?_eq_some_iff.mp hentry).1
      rcases h.follows other entry hentry with ⟨before, heq, hbefore, hof, hbetween⟩ | ⟨heq, hres, hall⟩
      · refine .inl ⟨before, heq, hbefore, by rwa [hfollows hbefore hlt.le], fun b h₁ h₂ => ?_⟩
        rw [hfollows h₂ hlt.le]
        exact hbetween b h₁ h₂
      · refine .inr ⟨heq, hlater.isSettled hres, fun before hbefore hof => ?_⟩
        rw [hfollows hbefore hlt.le] at hof
        exact hlater.isSettled (hall before hbefore hof)
  · intro other hother hrun before hbefore heq
    rcases Nat.lt_succ_iff_lt_or_eq.mp (hlength ▸ hother) with hlt | rfl
    · rw [hold (.run other) (by simp only [DispatchPromise.call]; omega)] at hrun
      rw [htask before (by omega), htask other hlt] at heq
      exact hlater.isSettled (h.order other hlt hrun before hbefore heq)
    · rw [hothers _ (by simp) (by simp), h.fresh (.run _) le_rfl] at hrun
      exact Bool.noConfusion hrun
  · intro taskId' p hp
    rw [hchains] at hp
    by_cases heq : taskId' = taskId
    · subst heq
      obtain rfl : .settled d.calls.length = p := by simpa using hp
      refine ⟨d.calls.length, rfl, ⟨hnew, fun later hlater hof => ?_⟩, ?_⟩
      · have := lt_of_taskIdOf hof
        omega
      · rw [hothers _ (by simp) (by simp), h.fresh (.removal _) le_rfl]
        rfl
    · rw [Function.update_of_ne heq] at hp
      obtain ⟨last, rfl, hlast, hpending⟩ := h.entry taskId' p hp
      have hlt := lt_of_taskIdOf hlast.of
      refine ⟨last, rfl, ⟨by rw [htask last hlt, hlast.of], fun later hlater hof => ?_⟩, ?_⟩
      · rw [taskIdOf_serializeDispatch] at hof
        split at hof
        · exact heq (Option.some.inj hof).symm
        · exact hlast.none_after later hlater hof
      · rwa [hold (.removal last) (by simp only [DispatchPromise.call]; omega)]
  · intro taskId' other hnone hof
    rw [hchains] at hnone
    by_cases heq : taskId' = taskId
    · simp [heq] at hnone
    · rw [Function.update_of_ne heq] at hnone
      rw [taskIdOf_serializeDispatch] at hof
      split at hof
      · exact absurd (Option.some.inj hof).symm heq
      · exact hlater.isSettled (h.noEntry taskId' other hnone hof)
  · rw [hlog]
    refine h.inOrder.imp_of_mem fun ha hb himp heq => ?_
    rw [htask _ (h.logged _ ha), htask _ (h.logged _ hb)] at heq
    exact himp heq

/-! ## Runs -/

omit [DecidableEq τ] in
theorem chained_empty : Chained ({} : DispatchChains τ ω ε) where
  staged := by simp
  fresh _ _ := rfl
  logged := by simp
  follows := by simp
  order := by simp
  entry := by simp
  noEntry _ _ _ h := by simp [taskIdOf] at h
  inOrder := .nil

theorem Chained.apply_remove (h : Chained d)
    (hsettled : (d.promises (.settled call)).isSettled = true) :
    ∃ taskId, d.taskIdOf call = some taskId ∧ d.apply (.remove call) = d.remove call taskId := by
  have hlt : call < d.calls.length :=
    h.lt_of_not_pending (PromiseState.not_isPending_of_isSettled hsettled)
  have htask : d.taskIdOf call = some d.calls[call].taskId :=
    taskIdOf_eq_some.mpr ⟨_, List.getElem?_eq_getElem hlt, rfl⟩
  exact ⟨_, htask, by simp only [apply, htask]⟩

theorem Chained.step (h : Chained d) {a : Action τ ω ε} (hstep : system.step d a d') :
    Chained d' := by
  obtain ⟨henabled, rfl⟩ := hstep
  cases a with
  | serializeDispatch taskId => exact h.serializeDispatch taskId
  | finish call o =>
      obtain ⟨hrun, hown⟩ := Bool.and_eq_true_iff.mp henabled
      exact h.finish hrun hown o
  | invoke call thrown =>
      simp only [enabled] at henabled
      cases hentry : d.calls[call]? with
      | none => simp [hentry] at henabled
      | some entry =>
          rw [hentry] at henabled
          obtain ⟨hprevious, hrun⟩ := Bool.and_eq_true_iff.mp henabled
          exact h.invoke hentry hprevious hrun thrown
  | adoptRun call => exact h.adopt (.inl rfl) henabled
  | settle call =>
      obtain ⟨hrun, hsettled⟩ := Bool.and_eq_true_iff.mp henabled
      exact h.settle hrun hsettled
  | adoptReturned call => exact h.adopt (.inr rfl) henabled
  | remove call =>
      obtain ⟨hsettled, hremoval⟩ := Bool.and_eq_true_iff.mp henabled
      obtain ⟨taskId, htask, happly⟩ := h.apply_remove hsettled
      rw [happly]
      exact h.remove hsettled hremoval htask

theorem chained_of_reachable (h : system.Reachable d) : Chained d :=
  h.invariant (by rintro _ rfl; exact chained_empty) fun _ _ _ hs hstep => hs.step hstep

/-! ## Jobs come to an end -/

/-- The promises of a call that jobs settle. -/
def work (d : DispatchChains τ ω ε) (call : ℕ) : ℕ :=
  (d.promises (.run call)).toGo + (d.promises (.settled call)).toGo +
    (d.promises (.removal call)).toGo + (d.promises (.returned call)).toGo

def jobsLeft (d : DispatchChains τ ω ε) : ℕ := ∑ call ∈ Finset.range d.calls.length, d.work call

def Action.isCall : Action τ ω ε → Bool
  | .serializeDispatch _ => true
  | _ => false

omit [DecidableEq τ] in
theorem work_le (h : Promises.Later d.promises d'.promises) (call : ℕ) :
    d'.work call ≤ d.work call := by
  have := h.toGo_le (.run call)
  have := h.toGo_le (.settled call)
  have := h.toGo_le (.removal call)
  have := h.toGo_le (.returned call)
  simp only [work]
  omega

omit [DecidableEq τ] in
theorem jobsLeft_lt (hcalls : d'.calls = d.calls) (h : Promises.Later d.promises d'.promises)
    (hlt : call < d.calls.length) (hwork : d'.work call < d.work call) :
    d'.jobsLeft < d.jobsLeft := by
  rw [jobsLeft, jobsLeft, hcalls]
  exact Finset.sum_lt_sum (fun other _ => work_le h other)
    ⟨call, Finset.mem_range.mpr hlt, hwork⟩

omit [DecidableEq τ] in
theorem jobsLeft_le (hcalls : d'.calls = d.calls) (h : Promises.Later d.promises d'.promises) :
    d'.jobsLeft ≤ d.jobsLeft := by
  rw [jobsLeft, jobsLeft, hcalls]
  exact Finset.sum_le_sum fun other _ => work_le h other

omit [DecidableEq τ] in
/-- What a job does to the promises: one of its call goes on. -/
theorem work_lt {p : DispatchPromise} (h : Promises.Later d.promises d'.promises)
    (hp : p = .run call ∨ p = .settled call ∨ p = .removal call ∨ p = .returned call)
    (htoGo : (d'.promises p).toGo < (d.promises p).toGo) : d'.work call < d.work call := by
  have := h.toGo_le (.run call)
  have := h.toGo_le (.settled call)
  have := h.toGo_le (.removal call)
  have := h.toGo_le (.returned call)
  simp only [work]
  rcases hp with rfl | rfl | rfl | rfl <;> omega

theorem toGo_settle {ps : Promises DispatchPromise (Option ω) ε} {p : DispatchPromise}
    (h : (ps p).isPending = true) (o : Settlement (Option ω) ε) :
    (ps.settle p o p).toGo < (ps p).toGo := by
  have hp := PromiseState.isPending_iff.mp h
  rw [Promises.settle_self hp, hp]
  exact Nat.zero_lt_two

theorem toGo_adopt {ps : Promises DispatchPromise (Option ω) ε} {p : DispatchPromise}
    (h : ps.adopts p = true) : (ps.adopt p p).toGo < (ps p).toGo := by
  obtain ⟨q, o, hp, hq⟩ := Promises.adopts_iff.mp h
  rw [Promises.adopt_self hp hq, hp]
  exact Nat.zero_lt_one

theorem Chained.jobsLeft_job (h : Chained d) {a : Action τ ω ε} (hjob : a.job = some call)
    (henabled : d.enabled a = true) : (d.apply a).jobsLeft < d.jobsLeft := by
  have hlt {p : DispatchPromise} (hp : (d.promises p).isPending = false) :
      p.call < d.calls.length := h.lt_of_not_pending hp
  cases a with
  | serializeDispatch taskId => exact absurd hjob (by simp [Action.job])
  | finish _ o => exact absurd hjob (by simp [Action.job])
  | invoke call' thrown =>
      obtain rfl : call' = call := by simpa [Action.job] using hjob
      simp only [enabled] at henabled
      cases hentry : d.calls[call']? with
      | none => simp [hentry] at henabled
      | some entry =>
          rw [hentry] at henabled
          have hrun := (Bool.and_eq_true_iff.mp henabled).2
          have hlen : call' < d.calls.length := (List.getElem?_eq_some_iff.mp hentry).1
          cases thrown with
          | none =>
              have hlater := Promises.later_follow d.promises (.run call') (.own call')
              refine jobsLeft_lt rfl hlater hlen (work_lt hlater (.inl rfl) ?_)
              have hp := PromiseState.isPending_iff.mp hrun
              change (d.promises.follow _ _ _).toGo < _
              rw [Promises.follow_self hp, hp]
              exact Nat.one_lt_two
          | some error =>
              have hlater := Promises.later_settle d.promises (.run call') (.rejected error)
              exact jobsLeft_lt rfl hlater hlen (work_lt hlater (.inl rfl) (toGo_settle hrun _))
  | adoptRun call' =>
      obtain rfl : call' = call := by simpa [Action.job] using hjob
      obtain ⟨q, o, hp, -⟩ := Promises.adopts_iff.mp henabled
      have hlater := Promises.later_adopt d.promises (.run call')
      exact jobsLeft_lt rfl hlater (hlt (p := .run call') (by rw [hp]; rfl))
        (work_lt hlater (.inl rfl) (toGo_adopt henabled))
  | settle call' =>
      obtain rfl : call' = call := by simpa [Action.job] using hjob
      obtain ⟨hrun, hsettled⟩ := Bool.and_eq_true_iff.mp henabled
      have hlater := Promises.later_settle d.promises (.settled call') (.fulfilled none)
      exact jobsLeft_lt rfl hlater
        (hlt (p := .run call') (PromiseState.not_isPending_of_isSettled hrun))
        (work_lt hlater (.inr (.inl rfl)) (toGo_settle hsettled _))
  | adoptReturned call' =>
      obtain rfl : call' = call := by simpa [Action.job] using hjob
      obtain ⟨q, o, hp, -⟩ := Promises.adopts_iff.mp henabled
      have hlater := Promises.later_adopt d.promises (.returned call')
      exact jobsLeft_lt rfl hlater (hlt (p := .returned call') (by rw [hp]; rfl))
        (work_lt hlater (.inr (.inr (.inr rfl))) (toGo_adopt henabled))
  | remove call' =>
      obtain rfl : call' = call := by simpa [Action.job] using hjob
      obtain ⟨hsettled, hremoval⟩ := Bool.and_eq_true_iff.mp henabled
      obtain ⟨taskId, -, happly⟩ := h.apply_remove hsettled
      have hlater := Promises.later_settle d.promises (.removal call') (.fulfilled none)
      rw [happly]
      exact jobsLeft_lt rfl hlater
        (hlt (p := .settled call') (PromiseState.not_isPending_of_isSettled hsettled))
        (work_lt hlater (.inr (.inr (.inl rfl))) (toGo_settle hremoval _))

theorem Chained.jobsLeft_serializeDispatch (h : Chained d) (taskId : τ) :
    (d.serializeDispatch taskId).jobsLeft ≤ d.jobsLeft + 8 := by
  obtain ⟨hlater, -, -⟩ := h.promises_serializeDispatch taskId
  obtain ⟨previous, hcalls, -⟩ := calls_serializeDispatch d taskId
  have hle : ∀ s : PromiseState DispatchPromise (Option ω) ε, s.toGo ≤ 2 := by
    intro s
    cases s <;> simp [PromiseState.toGo]
  have hnew : (d.serializeDispatch taskId).work d.calls.length ≤ 8 := by
    have := hle ((d.serializeDispatch taskId).promises (.run d.calls.length))
    have := hle ((d.serializeDispatch taskId).promises (.settled d.calls.length))
    have := hle ((d.serializeDispatch taskId).promises (.removal d.calls.length))
    have := hle ((d.serializeDispatch taskId).promises (.returned d.calls.length))
    simp only [work]
    omega
  have hold : ∑ call ∈ Finset.range d.calls.length, (d.serializeDispatch taskId).work call ≤
      d.jobsLeft := Finset.sum_le_sum fun other _ => work_le hlater other
  rw [jobsLeft, hcalls, List.length_append, List.length_singleton, Finset.sum_range_succ]
  exact Nat.add_le_add hold hnew

theorem Chained.jobs (h : Chained d) {more : List (Action τ ω ε)} (hrun : system.Run d more d') :
    Chained d' ∧ more.countP (·.job.isSome) + d'.jobsLeft ≤
      d.jobsLeft + 8 * more.countP Action.isCall := by
  induction hrun with
  | nil => exact ⟨h, by simp⟩
  | @snoc labels t a u _ hstep ih =>
      obtain ⟨ht, hcount⟩ := ih
      refine ⟨ht.step hstep, ?_⟩
      obtain ⟨henabled, rfl⟩ := hstep
      rw [List.countP_append, List.countP_append, List.countP_singleton, List.countP_singleton]
      cases hjob : a.job with
      | some call =>
          have hless := ht.jobsLeft_job hjob henabled
          simp only [Option.isSome_some, if_true]
          omega
      | none =>
          cases a with
          | serializeDispatch taskId =>
              have hmore := ht.jobsLeft_serializeDispatch taskId
              simp only [Option.isSome_none, Bool.false_eq_true, if_false, Action.isCall, if_true]
              change _ + (t.serializeDispatch taskId).jobsLeft ≤ _
              omega
          | finish call o =>
              have hless : (t.finish call o).jobsLeft ≤ t.jobsLeft :=
                jobsLeft_le rfl (Promises.later_settle _ _ _)
              simp only [Option.isSome_none, Bool.false_eq_true, if_false, Action.isCall]
              change _ + (t.finish call o).jobsLeft ≤ _
              omega
          | _ => simp [Action.job] at hjob

/-! ## When the jobs of a task are done -/

/-- The event loop has run every job of the task's calls. -/
def Quiet (d : DispatchChains τ ω ε) (taskId : τ) : Prop :=
  ∀ (a : Action τ ω ε) (call : ℕ), a.job = some call → d.taskIdOf call = some taskId →
    d.enabled a = false

omit [DecidableEq τ] in
theorem Quiet.not_enabled {taskId : τ} {P : Prop} (h : Quiet d taskId) (a : Action τ ω ε)
    (hjob : a.job = some call) (htask : d.taskIdOf call = some taskId)
    (henabled : d.enabled a = true) : P := by
  rw [h a call hjob htask] at henabled
  exact absurd henabled Bool.false_ne_true

/-- A call with no job to run waits for its turn or for its function, or is done with. -/
theorem At.quiet {taskId : τ} (h : At d call stage) (hquiet : Quiet d taskId)
    (htask : d.taskIdOf call = some taskId) :
    stage = .queued ∨ stage = .running ∨
      ∃ o, stage = .removed o ∧ d.promises (.returned call) = .settled o := by
  have hrun := h.run
  cases stage with
  | queued => exact .inl rfl
  | running => exact .inr (.inl rfl)
  | finished o =>
      have hown : d.promises (.own call) = .settled o := h.own
      exact hquiet.not_enabled (.adoptRun call) rfl htask
        (Promises.adopts_iff.mpr ⟨_, o, hrun, hown⟩)
  | ran o =>
      have hsettled : d.promises (.settled call) = .pending := h.settled
      exact hquiet.not_enabled (.settle call) rfl htask
        (by simp [enabled, hrun, hsettled, Stage.run])
  | settled o =>
      have hsettled : d.promises (.settled call) = .settled (.fulfilled none) := h.settled
      have hremoval : d.promises (.removal call) = .pending := h.removal
      exact hquiet.not_enabled (.remove call) rfl htask
        (by simp [enabled, hsettled, hremoval])
  | removed o =>
      refine .inr (.inr ⟨o, rfl, ?_⟩)
      rcases h.returned with hfollowing | ⟨o', ho', hreturned⟩
      · exact hquiet.not_enabled (.adoptReturned call) rfl htask
          (Promises.adopts_iff.mpr ⟨_, o, hfollowing, hrun⟩)
      · obtain rfl : o = o' := by simpa [Stage.run] using ho'
        exact hreturned

/-- A function that has not been called waits for one of its task that is running. -/
theorem Chained.waits (h : Chained d) {taskId : τ} (hquiet : Quiet d taskId)
    (htask : d.taskIdOf call = some taskId) (hrun : (d.promises (.run call)).isPending = true) :
    ∃ before < call, d.taskIdOf before = some taskId ∧ At d before .running := by
  induction call using Nat.strongRecOn with
  | ind call ih =>
      obtain ⟨entry, hentry, rfl⟩ := taskIdOf_eq_some.mp htask
      have hprevious : (d.promises entry.previous).isSettled = false := by
        cases hsettled : (d.promises entry.previous).isSettled with
        | false => rfl
        | true =>
            exact hquiet.not_enabled (.invoke call none) rfl htask
              (by simp [enabled, hentry, hsettled, hrun])
      rcases h.follows call entry hentry with ⟨before, heq, hlt, hof, -⟩ | ⟨heq, hresolved, -⟩
      · obtain ⟨stage, hstage⟩ := h.staged before (lt_of_taskIdOf hof)
        rcases hstage.quiet hquiet hof with rfl | rfl | ⟨o, rfl, -⟩
        · obtain ⟨first, hfirst, hfirstOf, hrunning⟩ :=
            ih before hlt hof (by rw [hstage.run]; rfl)
          exact ⟨first, hfirst.trans hlt, hfirstOf, hrunning⟩
        · exact ⟨before, hlt, hof, hstage⟩
        · rw [heq, hstage.settled] at hprevious
          exact absurd hprevious.symm Bool.false_ne_true
      · rw [heq, hresolved] at hprevious
        exact absurd hprevious.symm Bool.false_ne_true

/-- The function of the call has ended. -/
def Ended (d : DispatchChains τ ω ε) (call : ℕ) : Prop := ∃ o, .finished call o ∈ d.log

omit [DecidableEq τ] in
theorem Chained.ended_of_settled (h : Chained d)
    (hsettled : (d.promises (.settled call)).isSettled = true) : Ended d call := by
  obtain ⟨stage, hstage⟩ :=
    h.staged call (h.lt_of_not_pending (PromiseState.not_isPending_of_isSettled hsettled))
  rw [hstage.settled] at hsettled
  cases stage with
  | settled o => exact ⟨o, (hstage.finished o).mpr rfl⟩
  | removed o => exact ⟨o, (hstage.finished o).mpr rfl⟩
  | _ => simp [Stage.afterSettled] at hsettled

/-- What the chains promise of the functions of every task. -/
structure Serialised (d : DispatchChains τ ω ε) : Prop where
  /-- In the order of the calls, each begun and ended at most once. -/
  inOrder : d.log.Pairwise fun a b => d.taskIdOf a.call = d.taskIdOf b.call → a.rank < b.rank
  /-- None begins before those called earlier for the task have ended. -/
  alone : ∀ call, .started call ∈ d.log →
    ∀ before < call, d.taskIdOf before = d.taskIdOf call → Ended d before
  begun : ∀ call, Ended d call → .started call ∈ d.log
  /-- A call settles with the outcome of its own function. -/
  outcome : ∀ call o, d.promises (.returned call) = .settled o → .finished call o ∈ d.log
  /-- A task without an entry has no function that has not ended. -/
  entry : ∀ taskId call, d.dispatchChains taskId = none → d.taskIdOf call = some taskId →
    Ended d call
  /-- Only the removal job of its last call takes an entry away. -/
  removal : ∀ a d', system.step d a d' → ∀ taskId, d.dispatchChains taskId ≠ none →
    d'.dispatchChains taskId = none → ∃ call, a = .remove call ∧ Last d taskId call
  /-- With its jobs done a task has a call waiting only for a running function, however the
  earlier ones ended. -/
  next : ∀ taskId, Quiet d taskId → ∀ call, d.taskIdOf call = some taskId →
    .started call ∈ d.log ∨ ∃ before < call, d.taskIdOf before = some taskId ∧
      .started before ∈ d.log ∧ ¬ Ended d before
  answered : ∀ taskId, Quiet d taskId → ∀ call o, d.taskIdOf call = some taskId →
    .finished call o ∈ d.log → d.promises (.returned call) = .settled o
  removed : ∀ taskId, Quiet d taskId →
    (d.dispatchChains taskId = none ↔ ∀ call, d.taskIdOf call = some taskId → Ended d call)
  /-- The jobs do come to an end. -/
  jobs : ∀ more d', system.Run d more d' →
    more.countP (·.job.isSome) ≤ d.jobsLeft + 8 * more.countP Action.isCall

theorem Chained.removal (h : Chained d) {a : Action τ ω ε} (hstep : system.step d a d')
    {taskId : τ} (hsome : d.dispatchChains taskId ≠ none)
    (hnone : d'.dispatchChains taskId = none) : ∃ call, a = .remove call ∧ Last d taskId call := by
  obtain ⟨henabled, rfl⟩ := hstep
  cases a with
  | serializeDispatch taskId' =>
      have hchains : (d.serializeDispatch taskId').dispatchChains taskId = none := hnone
      simp only [DispatchChains.serializeDispatch] at hchains
      by_cases heq : taskId = taskId'
      · simp [heq] at hchains
      · rw [Function.update_of_ne heq] at hchains
        exact absurd hchains hsome
  | finish call o => exact absurd hnone hsome
  | invoke call thrown => cases thrown <;> exact absurd hnone hsome
  | adoptRun call => exact absurd hnone hsome
  | settle call => exact absurd hnone hsome
  | adoptReturned call => exact absurd hnone hsome
  | remove call =>
      obtain ⟨taskId', htask, happly⟩ := h.apply_remove (Bool.and_eq_true_iff.mp henabled).1
      rw [happly] at hnone
      simp only [DispatchChains.remove] at hnone
      split at hnone
      · rename_i hentry
        by_cases heq : taskId = taskId'
        · subst heq
          obtain ⟨last, hlast, hof, -⟩ := h.entry taskId _ hentry
          obtain rfl : call = last := by simpa using hlast
          exact ⟨call, rfl, hof⟩
        · rw [Function.update_of_ne heq] at hnone
          exact absurd hnone hsome
      · exact absurd hnone hsome

omit [DecidableEq τ] in
theorem Chained.stage_of_logged (h : Chained d) {e : DispatchEvent ω ε} (he : e ∈ d.log) :
    ∃ stage, At d e.call stage := h.staged e.call (h.logged e he)

/-- Whatever tasks are dispatched, and however their functions end. -/
theorem serialised_of_reachable (h : system.Reachable d) : Serialised d := by
  have hd := chained_of_reachable h
  refine ⟨hd.inOrder, ?_, ?_, ?_, ?_, ?_, ?_, ?_, ?_, ?_⟩
  · intro call hstarted before hbefore htask
    obtain ⟨stage, hstage⟩ := hd.stage_of_logged hstarted
    have hlt := hd.logged _ hstarted
    exact hd.ended_of_settled (hd.order call hlt (hstage.of_logged hstarted) before hbefore htask)
  · rintro call ⟨o, ho⟩
    obtain ⟨stage, hstage⟩ := hd.stage_of_logged ho
    have hnot := hstage.of_logged ho
    rw [hstage.run] at hnot
    exact hstage.started.mpr hnot
  · intro call o ho
    obtain ⟨stage, hstage⟩ :=
      hd.staged call (hd.lt_of_not_pending (p := .returned call) (by rw [ho]; rfl))
    rcases hstage.returned with hfollowing | ⟨o', hran, hreturned⟩
    · simp [hfollowing] at ho
    · obtain rfl : o' = o := by simpa [hreturned] using ho
      refine (hstage.finished o').mpr ?_
      cases stage <;> simp_all [Stage.run, Stage.outcome]
  · intro taskId call hnone htask
    exact hd.ended_of_settled (hd.noEntry taskId call hnone htask)
  · intro a d' hstep taskId hsome hnone
    exact hd.removal hstep hsome hnone
  · intro taskId hquiet call htask
    obtain ⟨stage, hstage⟩ := hd.staged call (lt_of_taskIdOf htask)
    cases hrun : (d.promises (.run call)).isPending with
    | false =>
        rw [hstage.run] at hrun
        exact .inl (hstage.started.mpr hrun)
    | true =>
        obtain ⟨before, hbefore, hof, hrunning⟩ := hd.waits hquiet htask hrun
        refine .inr ⟨before, hbefore, hof, hrunning.started.mpr rfl, ?_⟩
        rintro ⟨o, ho⟩
        simpa [Stage.outcome] using (hrunning.finished o).mp ho
  · intro taskId hquiet call o htask ho
    obtain ⟨stage, hstage⟩ := hd.stage_of_logged ho
    have houtcome := (hstage.finished o).mp ho
    rcases hstage.quiet hquiet htask with rfl | rfl | ⟨o', rfl, hreturned⟩
    · simp [Stage.outcome] at houtcome
    · simp [Stage.outcome] at houtcome
    · obtain rfl : o' = o := by simpa [Stage.outcome] using houtcome
      exact hreturned
  · intro taskId hquiet
    refine ⟨fun hnone call htask => hd.ended_of_settled (hd.noEntry taskId call hnone htask), ?_⟩
    intro hended
    cases hentry : d.dispatchChains taskId with
    | none => rfl
    | some p =>
        obtain ⟨last, rfl, hlast, hremoval⟩ := hd.entry taskId p hentry
        obtain ⟨o, ho⟩ := hended last hlast.of
        obtain ⟨stage, hstage⟩ := hd.staged last (lt_of_taskIdOf hlast.of)
        have houtcome := (hstage.finished o).mp ho
        rcases hstage.quiet hquiet hlast.of with rfl | rfl | ⟨o', rfl, -⟩
        · simp [Stage.outcome] at houtcome
        · simp [Stage.outcome] at houtcome
        · rw [hstage.removal] at hremoval
          exact absurd hremoval Bool.false_ne_true
  · intro more d' hrun
    have hcount := (hd.jobs hrun).2
    omega

/-- Two dispatches of one task, the first rejected, and one of another in between. -/
theorem serialised_example :
    Serialised (List.foldl apply ({} : DispatchChains ℕ ℕ String)
      [.serializeDispatch 1, .serializeDispatch 2, .serializeDispatch 1, .invoke 0 none,
        .invoke 1 none, .finish 0 (.rejected "lost"), .adoptRun 0, .settle 0, .remove 0,
        .invoke 2 (some "thrown"), .settle 2, .adoptReturned 2, .remove 2]) :=
  serialised_of_reachable (System.Legal.reachable (by decide +kernel) (.of_init rfl))

end Tails

end DispatchChains

end VicoopBridge
