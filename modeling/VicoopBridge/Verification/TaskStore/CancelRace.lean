import VicoopBridge.Model.Executor
import VicoopBridge.Verification.TaskStore.WriteGuard

/-! # Cancellation and the terminal state

`cancelCurrent` decides on what it has read and writes in a transaction of its own. The
writers of the executions run in between. -/

namespace VicoopBridge

open Library

inductive CancelPhase where
  | idle
  /-- The task was read in a state that can be canceled. -/
  | decided
  | over
  deriving DecidableEq

/-- One row with its requests and any number of cancellations. -/
structure CancelRace extends StoreState where
  cancels : ℕ → CancelPhase := fun _ => .idle

inductive RaceAction where
  | create (id freshContext : String) (contextId : Option String) (metadata : Option JsonObject)
  | messageRequest (request : ℕ)
  /-- A write of an execution. -/
  | save (request : ℕ) (update : TaskUpdate)
  | mark (request : ℕ) (freshId : String) (executionId : Option String) (acknowledged : Bool)
  | produce (request : ℕ) (artifacts : List Artifact)
  /-- A cancellation reads the row; `task` is the one it was called with. -/
  | cancelRead (cancel : ℕ) (task : Task) (foreignBinding : Bool)
  | cancelWrite (cancel : ℕ)

namespace CancelRace

def applyStore (s : CancelRace) (a : StoreAction) : CancelRace :=
  { s with toStoreState := s.toStoreState.apply a }

def setCancel (s : CancelRace) (cancel : ℕ) (phase : CancelPhase) : CancelRace :=
  { s with cancels := Function.update s.cancels cancel phase }

/-- A cancellation stops at a terminal task and at a binding of another agent. -/
def cancelRead (s : CancelRace) (cancel : ℕ) (task : Task) (foreignBinding : Bool) : CancelRace :=
  match cancelTarget task (s.store.getTask s.row) with
  | .error _ => s.setCancel cancel .over
  | .ok _ => s.setCancel cancel (if foreignBinding then .over else .decided)

/-- A failing write is only logged. -/
def cancelWrite (s : CancelRace) (cancel : ℕ) : CancelRace :=
  let s := s.setCancel cancel .over
  match s.store.updateTask s.row none s.taskId cancelUpdate with
  | .error _ => s
  | .ok result => { s with row := result.row }

def apply (s : CancelRace) : RaceAction → CancelRace
  | .create id freshContext contextId metadata =>
      s.applyStore (.create id freshContext contextId metadata)
  | .messageRequest request => s.applyStore (.messageRequest request)
  | .save request update => s.applyStore (.update request update)
  | .mark request freshId executionId acknowledged =>
      s.applyStore (.mark request freshId executionId acknowledged)
  | .produce request artifacts => s.applyStore (.produce request artifacts)
  | .cancelRead cancel task foreignBinding => s.cancelRead cancel task foreignBinding
  | .cancelWrite cancel => s.cancelWrite cancel

def enabled (s : CancelRace) : RaceAction → Prop
  | .create .. => s.row = none ∧ s.marks = []
  | .mark _ freshId executionId _ => ∀ m ∈ s.marks, m.dispatchId ≠ executionId.getD freshId
  | .save request _ => s.Guarded request
  | .cancelRead cancel _ _ => s.cancels cancel = .idle
  | .cancelWrite cancel => s.cancels cancel = .decided
  | _ => True

end CancelRace

def raceSystem : System CancelRace RaceAction where
  init s := storeSystem.init s.toStoreState ∧ s.cancels = fun _ => .idle
  step s a t := s.enabled a ∧ t = s.apply a

namespace CancelRace

/-- The state the row's task is in. -/
def committed (s : CancelRace) : Option TaskState := s.row.map (·.task.status.state)

/-- The write of a cancellation leaves a terminal state as it is. -/
def Absorbing (S : System CancelRace RaceAction) (s : CancelRace) : Prop :=
  ∀ cancel t, S.step s (.cancelWrite cancel) t → ∀ state, s.committed = some state →
    state.isTerminal = true → t.committed = some state

/-- The guard lets the write through, and it ends the task otherwise than by canceling it. -/
def CommitsOutcome (s : CancelRace) (request : ℕ) (update : TaskUpdate) : Prop :=
  (∃ result, s.store.updateTask s.row (s.writers request) s.taskId update = .ok result ∧
    result.skipped = none) ∧
  ∃ status, update.status = some status ∧ status.state.isTerminal = true ∧
    status.state ≠ .canceled

/-- No execution commits an outcome between the read and the write of a cancellation. -/
def NoOutcomeInside (s : CancelRace) : RaceAction → Prop
  | .save request update => (∃ cancel, s.cancels cancel = .decided) →
      ¬ s.CommitsOutcome request update
  | _ => True

/-! ## The invariant -/

/-- While a cancellation is between its read and its write, the task has no outcome. -/
structure RaceInvariant (s : CancelRace) : Prop where
  owned : ∀ r, s.row = some r → s.store.owns r = true
  open' : ∀ cancel, s.cancels cancel = .decided → ∀ state, s.committed = some state →
    state.isTerminal = true → state = .canceled

variable {s t : CancelRace}

theorem cancelTarget_ok {task target : Task} {latest : Option Task}
    (h : cancelTarget task latest = .ok target) :
    ∀ stored, latest = some stored → stored.status.state.isTerminal = false := by
  rintro stored rfl
  simp only [cancelTarget, Option.getD_some] at h
  split at h
  · simp at h
  · rename_i hopen
    simpa using hopen

theorem setCancel_decided {cancel cancel' : ℕ} {phase : CancelPhase}
    (h : (s.setCancel cancel phase).cancels cancel' = .decided) :
    phase = .decided ∨ s.cancels cancel' = .decided := by
  by_cases heq : cancel' = cancel
  · subst heq
    exact .inl (by simpa [setCancel] using h)
  · exact .inr (by simpa [setCancel, heq] using h)

/-- A write either leaves the row or puts its own state in place, past the guard. -/
theorem committed_update {w : Option ExecutionWriter} {update : TaskUpdate}
    {result : TaskUpdateResult} (inv : s.RaceInvariant)
    (h : s.store.updateTask s.row w s.taskId update = .ok result) :
    result.row = s.row ∨ result.skipped = none ∧ ∃ old written, s.committed = some old ∧
      result.row = some written ∧ s.store.owns written = true ∧
      written.task.status.state = (update.status.map (·.state)).getD old := by
  rcases TaskStore.updateTask_cases h with ⟨hrow, -⟩ | ⟨r, written, hr, hrow, hskip, hp⟩
  · exact .inl hrow
  · refine .inr ⟨hskip, r.task.status.state, written, by simp [committed, hr], hrow, ?_, ?_⟩
    · simpa [TaskStore.owns, hp.owner] using inv.owned r hr
    · rw [hp.state]
      cases update.status <;> rfl

/-- A step of the store after which the state is the old one or not an outcome. -/
theorem RaceInvariant.replaceRow {row : Option TaskRow} (inv : s.RaceInvariant)
    (hrow : row = s.row ∨ ∃ written, row = some written ∧ s.store.owns written = true ∧
      ((∃ cancel, s.cancels cancel = .decided) → s.committed = some written.task.status.state ∨
        written.task.status.state.isTerminal = false ∨
        written.task.status.state = .canceled)) :
    RaceInvariant { s with row := row } := by
  rcases hrow with rfl | ⟨written, rfl, howned, hstate⟩
  · exact inv
  refine ⟨fun r hr => Option.some.inj hr ▸ howned, ?_⟩
  intro cancel hcancel state hnew hterminal
  obtain rfl : written.task.status.state = state := Option.some.inj hnew
  rcases hstate ⟨cancel, hcancel⟩ with hold | hopen | hcanceled
  · exact inv.open' cancel hcancel _ hold hterminal
  · simp [hopen] at hterminal
  · exact hcanceled

theorem RaceInvariant.over (inv : s.RaceInvariant) (cancel : ℕ) :
    (s.setCancel cancel .over).RaceInvariant where
  owned := inv.owned
  open' cancel' h' := inv.open' cancel' ((setCancel_decided h').resolve_left (by simp))

theorem RaceInvariant.cancelRead (inv : s.RaceInvariant) (cancel : ℕ) (task : Task)
    (foreignBinding : Bool) : (s.cancelRead cancel task foreignBinding).RaceInvariant := by
  unfold CancelRace.cancelRead
  cases htarget : cancelTarget task (s.store.getTask s.row) with
  | error e => exact inv.over cancel
  | ok target =>
      refine ⟨inv.owned, fun cancel' h' state hstate hterminal => ?_⟩
      obtain ⟨r, hr, rfl⟩ := Option.map_eq_some_iff.mp
        (show s.row.map (·.task.status.state) = some state from hstate)
      have hread : s.store.getTask s.row = some (normalizeTaskParts r.task) := by
        simp [TaskStore.getTask, hr, inv.owned r hr]
      have hopen : (normalizeTaskParts r.task).status.state.isTerminal = false :=
        cancelTarget_ok htarget _ hread
      rw [show (normalizeTaskParts r.task).status.state = r.task.status.state from rfl] at hopen
      simp [hopen] at hterminal

/-- The write of a cancellation finds no outcome, or changes nothing. -/
theorem RaceInvariant.cancelWrite (inv : s.RaceInvariant) (cancel : ℕ) :
    (s.cancelWrite cancel).RaceInvariant := by
  unfold CancelRace.cancelWrite
  simp only
  split
  · exact inv.over cancel
  · rename_i result hresult
    refine (inv.over cancel).replaceRow ?_
    rcases committed_update (inv.over cancel) hresult with hrow | ⟨-, old, written, -, hrow, howned, hstate⟩
    · exact .inl hrow
    · exact .inr ⟨written, hrow, howned, fun _ => .inr (.inr hstate)⟩

theorem RaceInvariant.step {a : RaceAction} (inv : s.RaceInvariant)
    (hallowed : s.NoOutcomeInside a) (hstep : raceSystem.step s a t) : t.RaceInvariant := by
  obtain ⟨henabled, rfl⟩ := hstep
  cases a with
  | create id freshContext contextId metadata =>
      refine inv.replaceRow (.inr ⟨_, rfl, ?_, fun _ => .inr (.inl ?_)⟩)
      · simp [TaskStore.owns]
      · simp only [stripSensitiveMetadata_state]
        rfl
  | messageRequest request => exact ⟨inv.owned, inv.open'⟩
  | save request update =>
      simp only [apply, applyStore, StoreState.apply]
      split
      · exact inv
      · rename_i result hresult
        refine inv.replaceRow ?_
        rcases committed_update inv hresult with
          hrow | ⟨hskip, old, written, hold, hrow, howned, hstate⟩
        · exact .inl hrow
        refine .inr ⟨written, hrow, howned, fun hinside => ?_⟩
        cases hstatus : update.status with
        | none => exact .inl (by simp [hstate, hstatus, hold])
        | some status =>
            rw [hstatus, Option.map_some, Option.getD_some] at hstate
            rw [hstate]
            by_contra hother
            refine hallowed hinside ⟨⟨result, hresult, hskip⟩, status, hstatus, ?_, ?_⟩
            · by_contra hopen
              exact hother (.inr (.inl (by simpa using hopen)))
            · exact fun hcanceled => hother (.inr (.inr hcanceled))
  | mark request freshId executionId acknowledged =>
      simp only [apply, applyStore, StoreState.apply, StoreState.commitMark]
      split
      · exact inv
      · rename_i dispatchId row hmark
        obtain ⟨-, r, written, hr, howns, rfl, -, howner, hstate, -⟩ :=
          TaskStore.markExecution_cases hmark
        have hafter : RaceInvariant { s with row := some written } :=
          inv.replaceRow (.inr ⟨written, rfl, by simpa [TaskStore.owns, howner] using howns,
            fun _ => .inr (.inl (by rw [hstate]; rfl))⟩)
        split <;> exact ⟨hafter.owned, hafter.open'⟩
  | produce request artifacts =>
      have hsame : (s.toStoreState.produce request artifacts).row = s.row ∧
          (s.toStoreState.produce request artifacts).store = s.store := by
        unfold StoreState.produce
        repeat' split
        all_goals exact ⟨rfl, rfl⟩
      refine ⟨fun r hr => ?_, fun cancel hcancel state hstate => ?_⟩
      · exact hsame.2 ▸ inv.owned r (hsame.1 ▸ hr)
      · exact inv.open' cancel hcancel state ((congrArg _ hsame.1.symm).trans hstate)
  | cancelRead cancel task foreignBinding => exact inv.cancelRead cancel task foreignBinding
  | cancelWrite cancel => exact inv.cancelWrite cancel

theorem raceInvariant_of_reachable (h : (raceSystem.restrict NoOutcomeInside).Reachable s) :
    s.RaceInvariant := by
  refine h.invariant ?_ ?_
  · rintro s ⟨⟨taskId, store, writers, hs, -⟩, hcancels⟩
    refine ⟨fun r hr => ?_, fun cancel hcancel => ?_⟩
    · rw [hs] at hr
      exact absurd hr (by simp)
    · simp [hcancels] at hcancel
  · rintro s a t inv ⟨hallowed, hstep⟩
    exact inv.step hallowed hstep

/-- If every outcome is committed before the read or after the write, it stays. -/
theorem cancel_absorbing (h : (raceSystem.restrict NoOutcomeInside).Reachable s) :
    s.Absorbing (raceSystem.restrict NoOutcomeInside) := by
  rintro cancel t ⟨-, hdecided, rfl⟩ state hstate hterminal
  have inv := raceInvariant_of_reachable h
  obtain rfl := inv.open' cancel hdecided state hstate hterminal
  simp only [apply, CancelRace.cancelWrite]
  split
  · exact hstate
  · rename_i result hresult
    rcases committed_update (inv.over cancel) hresult with
      hrow | ⟨-, old, written, -, hrow, -, hnew⟩
    · simp only [committed, hrow]
      exact hstate
    · simp only [committed, hrow, Option.map_some, hnew]
      rfl

section Witness

private def opened : CancelRace where
  taskId := "task"
  store := {}
  writers := fun _ => some {}

/-- Request 0 is executing when cancellation 1 reads the row. -/
private def decided : CancelRace :=
  (((opened.apply (.create "task" "context" none none)).apply (.messageRequest 0)).apply
    (.mark 0 "fresh" (some "execution") true)).apply (.cancelRead 1 { id := "task", status := {
      state := .working } } false)

private def completion : TaskUpdate := { status := some { state := .completed } }

private def cancellation : TaskUpdate := { status := some { state := .canceled } }

private def overtaken : CancelRace := decided.apply (.save 0 completion)

/-- The execution has taken the CANCELED frame from its queue and saved it first. -/
private def acknowledged : CancelRace := decided.apply (.save 0 cancellation)

private theorem apply_reachable {C : CancelRace → RaceAction → Prop}
    (h : (raceSystem.restrict C).Reachable s) (a : RaceAction)
    (hallowed : C s a) (henabled : s.enabled a) : (raceSystem.restrict C).Reachable (s.apply a) :=
  h.step ⟨hallowed, henabled, rfl⟩

private theorem decided_reachable :
    (raceSystem.restrict NoOutcomeInside).Reachable decided := by
  have h₀ : (raceSystem.restrict NoOutcomeInside).Reachable opened :=
    .of_init ⟨⟨"task", {}, fun _ => some {}, rfl, fun _ => .inr rfl⟩, rfl⟩
  have h₁ := apply_reachable h₀ (.create "task" "context" none none) trivial ⟨rfl, rfl⟩
  have h₂ := apply_reachable h₁ (.messageRequest 0) trivial trivial
  have h₃ := apply_reachable h₂ (.mark 0 "fresh" (some "execution") true) trivial
    fun m hm => absurd hm (by
      simp [apply, applyStore, StoreState.apply, StoreState.setWriter, opened])
  exact apply_reachable h₃ (.cancelRead 1 { id := "task", status := { state := .working } } false)
    trivial rfl

private theorem decided_guarded : decided.Guarded 0 := by
  obtain ⟨w, hw⟩ := Option.isSome_iff_exists.mp
    (show (decided.writers 0).isSome = true by decide +kernel)
  have hmessage : (decided.writers 0).map (·.message) = some true := by decide +kernel
  exact ⟨w, hw, by simpa [hw] using hmessage⟩

theorem cancel_absorbing_acknowledged :
    acknowledged.committed = some .canceled ∧
      acknowledged.Absorbing (raceSystem.restrict NoOutcomeInside) := by
  refine ⟨by decide +kernel, cancel_absorbing ?_⟩
  refine apply_reachable decided_reachable (.save 0 cancellation) ?_ decided_guarded
  rintro - ⟨-, status, hstatus, -, hne⟩
  exact hne (Option.some.inj hstatus ▸ rfl)

/-- The row is COMPLETED when the write of the cancellation comes. -/
theorem cancel_overwrites :
    ¬ ∀ s : CancelRace, raceSystem.Reachable s → s.Absorbing raceSystem := by
  intro hclaim
  have hreach : raceSystem.Reachable overtaken :=
    decided_reachable.of_restrict.step (a := .save 0 completion) ⟨decided_guarded, rfl⟩
  have hdecided : overtaken.cancels 1 = .decided := by decide +kernel
  have hnew := hclaim overtaken hreach 1 (overtaken.apply (.cancelWrite 1))
    ⟨hdecided, rfl⟩ .completed (by decide +kernel) rfl
  exact absurd hnew (by decide +kernel)

end Witness

end CancelRace

end VicoopBridge
