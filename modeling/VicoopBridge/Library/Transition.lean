import Mathlib.Logic.Relation
import Mathlib.Data.List.Basic

/-! # Labelled transition systems

A system is a set of initial states and a labelled step relation. Safety results are
stated over its finite runs; a run whose steps all meet a condition is a run of the
system restricted to that condition. -/

namespace VicoopBridge.Library

universe u v w

structure System (σ : Type u) (α : Type v) where
  init : σ → Prop
  step : σ → α → σ → Prop

namespace System

variable {σ : Type u} {α : Type v} (S : System σ α)

/-- A finite run, growing at its end. -/
inductive Run : σ → List α → σ → Prop where
  | nil (s) : Run s [] s
  | snoc {s labels t a u} : Run s labels t → S.step t a u → Run s (labels ++ [a]) u

def Reachable (t : σ) : Prop := ∃ s labels, S.init s ∧ S.Run s labels t

/-- The same system, allowed only the steps whose label is permitted in the state before. -/
def restrict (allowed : σ → α → Prop) : System σ α where
  init := S.init
  step s a t := allowed s a ∧ S.step s a t

/-- The system of a step function, with the states each step may be taken in. -/
def ofApply (init : σ → Prop) (enabled : σ → α → Prop) (apply : σ → α → σ) : System σ α where
  init := init
  step s a t := enabled s a ∧ t = apply s a

variable {S}

theorem Run.single {s t : σ} {a : α} (h : S.step s a t) : S.Run s [a] t :=
  .snoc (.nil s) h

theorem Run.append {s t u : σ} {as bs : List α} (h : S.Run s as t) (h' : S.Run t bs u) :
    S.Run s (as ++ bs) u := by
  induction h' with
  | nil => simpa using h
  | snoc _ hstep ih => simpa [List.append_assoc] using ih.snoc hstep

theorem Run.cons {s t u : σ} {a : α} {as : List α} (h : S.step s a t) (h' : S.Run t as u) :
    S.Run s (a :: as) u :=
  (Run.single h).append h'

/-- What holds at the start and is kept by every step holds at the end. -/
theorem Run.invariant {I : σ → Prop} (hstep : ∀ s a t, I s → S.step s a t → I t)
    {s t : σ} {labels : List α} (h : S.Run s labels t) (hs : I s) : I t := by
  induction h with
  | nil => exact hs
  | snoc _ hlast ih => exact hstep _ _ _ ih hlast

theorem Reachable.invariant {I : σ → Prop} (hinit : ∀ s, S.init s → I s)
    (hstep : ∀ s a t, I s → S.step s a t → I t) {t : σ} (h : S.Reachable t) : I t := by
  obtain ⟨s, labels, hs, hrun⟩ := h
  exact hrun.invariant hstep (hinit s hs)

theorem Reachable.of_init {s : σ} (h : S.init s) : S.Reachable s := ⟨s, [], h, .nil s⟩

theorem Reachable.step {s t : σ} {a : α} (h : S.Reachable s) (hstep : S.step s a t) :
    S.Reachable t := by
  obtain ⟨s₀, labels, hinit, hrun⟩ := h
  exact ⟨s₀, labels ++ [a], hinit, hrun.snoc hstep⟩

/-- Restricting the steps forgets no state that the allowed steps reach. -/
theorem Run.of_restrict {allowed : σ → α → Prop} {s t : σ} {labels : List α}
    (h : (S.restrict allowed).Run s labels t) : S.Run s labels t := by
  induction h with
  | nil => exact .nil _
  | snoc _ hstep ih => exact ih.snoc hstep.2

theorem Reachable.of_restrict {allowed : σ → α → Prop} {t : σ}
    (h : (S.restrict allowed).Reachable t) : S.Reachable t := by
  obtain ⟨s, labels, hinit, hrun⟩ := h
  exact ⟨s, labels, hinit, hrun.of_restrict⟩

/-- A weaker condition on the steps allows the same runs. -/
theorem Reachable.mono {allowed allowed' : σ → α → Prop}
    (hallowed : ∀ s a, allowed s a → allowed' s a) {t : σ}
    (h : (S.restrict allowed).Reachable t) : (S.restrict allowed').Reachable t := by
  obtain ⟨s, labels, hinit, hrun⟩ := h
  refine ⟨s, labels, hinit, ?_⟩
  induction hrun with
  | nil => exact .nil _
  | snoc _ hlast ih => exact ih.snoc ⟨hallowed _ _ hlast.1, hlast.2⟩

/-- The step is one of those of the run. -/
def Took (S : System σ α) (s : σ) (labels : List α) (u : σ) (a : α) : Prop :=
  ∃ before after, labels = before ++ a :: after ∧ S.Run s before u

/-- An invariant may speak of the steps that the run has taken. -/
theorem Run.took {s t : σ} {labels : List α} (h : S.Run s labels t) :
    (S.restrict (S.Took s labels)).Run s labels t := by
  suffices hmore : ∀ more, (S.restrict (S.Took s (labels ++ more))).Run s labels t by
    simpa using hmore []
  induction h with
  | nil => exact fun more => .nil _
  | snoc hrun hlast ih =>
      intro more
      rw [List.append_assoc]
      exact (ih _).snoc ⟨⟨_, more, rfl, hrun⟩, hlast⟩

/-! ## Scripts -/

section Script

variable {init : σ → Prop} {enabled allowed : σ → α → Prop} {apply : σ → α → σ}

/-- The steps of the list can be taken one after the other. -/
def Legal (enabled : σ → α → Prop) (apply : σ → α → σ) : σ → List α → Prop
  | _, [] => True
  | s, a :: script => enabled s a ∧ Legal enabled apply (apply s a) script

instance Legal.decidable [∀ s a, Decidable (enabled s a)] :
    ∀ (s : σ) (script : List α), Decidable (Legal enabled apply s script)
  | _, [] => isTrue trivial
  | s, a :: script =>
      have := Legal.decidable (apply s a) script
      inferInstanceAs (Decidable (enabled s a ∧ Legal enabled apply (apply s a) script))

theorem Legal.run {s : σ} {script : List α} (h : Legal enabled apply s script) :
    (ofApply init enabled apply).Run s script (script.foldl apply s) := by
  induction script generalizing s with
  | nil => exact .nil s
  | cons a script ih => exact .cons ⟨h.1, rfl⟩ (ih h.2)

theorem Legal.reachable {s : σ} {script : List α} (h : Legal enabled apply s script)
    (hs : (ofApply init enabled apply).Reachable s) :
    (ofApply init enabled apply).Reachable (script.foldl apply s) := by
  induction script generalizing s with
  | nil => exact hs
  | cons a script ih => exact ih h.2 (hs.step ⟨h.1, rfl⟩)

theorem Legal.reachable_restrict {s : σ} {script : List α}
    (h : Legal (fun s a => allowed s a ∧ enabled s a) apply s script)
    (hs : ((ofApply init enabled apply).restrict allowed).Reachable s) :
    ((ofApply init enabled apply).restrict allowed).Reachable (script.foldl apply s) := by
  induction script generalizing s with
  | nil => exact hs
  | cons a script ih => exact ih h.2 (hs.step ⟨h.1.1, h.1.2, rfl⟩)

/-- A script of partial steps, taken to its end. -/
theorem Run.of_foldlM {step : σ → α → Option σ} (hstep : ∀ s a t, step s a = some t → S.step s a t)
    {script : List α} {s t : σ} (h : script.foldlM step s = some t) : S.Run s script t := by
  induction script generalizing s with
  | nil =>
      obtain rfl := Option.some.inj h
      exact .nil s
  | cons a script ih =>
      rw [List.foldlM_cons] at h
      obtain ⟨u, hfirst, hrest⟩ := Option.bind_eq_some_iff.mp h
      exact .cons (hstep s a u hfirst) (ih hrest)

end Script

end System

end VicoopBridge.Library
