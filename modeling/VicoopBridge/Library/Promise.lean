import Mathlib.Logic.Function.Basic
import Mathlib.Data.Nat.Basic

/-! # Promises

A promise is named by whoever makes it, and two names are two promises: comparing promises
is comparing names. A promise that has been resolved with another one follows it, and takes
over its outcome in a job of its own. When a job runs is not fixed here: a program says
which of its jobs may run in a state, and any of them may be next. -/

namespace VicoopBridge.Library

universe u v w

/-- What is numbered in turn keeps its number. -/
theorem getElem?_append_singleton {α : Type u} (l : List α) (a : α) (i : ℕ) :
    (l ++ [a])[i]? = if i = l.length then some a else l[i]? := by
  rcases Nat.lt_trichotomy i l.length with hlt | rfl | hgt
  · rw [List.getElem?_append_left hlt, if_neg (by omega)]
  · simp
  · rw [if_neg (by omega), List.getElem?_eq_none (by simp; omega),
      List.getElem?_eq_none (by omega)]

inductive Settlement (ω : Type v) (ε : Type w) where
  | fulfilled (value : ω)
  | rejected (error : ε)
  deriving DecidableEq

inductive PromiseState (π : Type u) (ω : Type v) (ε : Type w) where
  | pending
  | following (target : π)
  | settled (outcome : Settlement ω ε)
  deriving DecidableEq

variable {π : Type u} {ω : Type v} {ε : Type w}

namespace PromiseState

/-- Nothing has resolved the promise yet. -/
def isPending : PromiseState π ω ε → Bool
  | pending => true
  | _ => false

def outcome : PromiseState π ω ε → Option (Settlement ω ε)
  | settled outcome => some outcome
  | _ => none

/-- It has been resolved with another promise, which it waits for. -/
def isFollowing : PromiseState π ω ε → Bool
  | following _ => true
  | _ => false

/-- The reactions to the promise may run. -/
def isSettled (s : PromiseState π ω ε) : Bool := s.outcome.isSome

theorem isSettled_iff {s : PromiseState π ω ε} : s.isSettled = true ↔ ∃ o, s = settled o := by
  cases s <;> simp [isSettled, outcome]

theorem isPending_iff {s : PromiseState π ω ε} : s.isPending = true ↔ s = pending := by
  cases s <;> simp [isPending]

theorem not_isPending_of_isSettled {s : PromiseState π ω ε} (h : s.isSettled = true) :
    s.isPending = false := by
  obtain ⟨o, rfl⟩ := isSettled_iff.mp h
  rfl

@[simp] theorem isSettled_settled (o : Settlement ω ε) :
    (settled o : PromiseState π ω ε).isSettled = true := rfl

@[simp] theorem isSettled_pending : (pending : PromiseState π ω ε).isSettled = false := rfl

@[simp] theorem isSettled_following (p : π) :
    (following p : PromiseState π ω ε).isSettled = false := rfl

@[simp] theorem isPending_settled (o : Settlement ω ε) :
    (settled o : PromiseState π ω ε).isPending = false := rfl

@[simp] theorem isPending_pending : (pending : PromiseState π ω ε).isPending = true := rfl

@[simp] theorem isPending_following (p : π) :
    (following p : PromiseState π ω ε).isPending = false := rfl

end PromiseState

namespace PromiseState

/-- How often the state can still change. -/
def toGo : PromiseState π ω ε → ℕ
  | pending => 2
  | following _ => 1
  | settled _ => 0

end PromiseState

abbrev Promises (π : Type u) (ω : Type v) (ε : Type w) := π → PromiseState π ω ε

namespace Promises

variable {ps ps' ps'' : Promises π ω ε} {p q : π}

/-- The promise has been resolved with one that has settled by now. -/
def adopts (ps : Promises π ω ε) (p : π) : Bool :=
  match ps p with
  | .following target => (ps target).isSettled
  | _ => false

theorem adopts_iff :
    ps.adopts p = true ↔ ∃ q o, ps p = .following q ∧ ps q = .settled o := by
  unfold adopts
  cases h : ps p with
  | following target => simp [PromiseState.isSettled_iff]
  | pending => simp
  | settled o => simp

/-- A later state of the promises: what was resolved is still resolved, what has settled has
not changed. -/
structure Later (ps ps' : Promises π ω ε) : Prop where
  settled : ∀ p o, ps p = .settled o → ps' p = .settled o
  resolved : ∀ p, (ps' p).isPending = true → (ps p).isPending = true

theorem Later.refl (ps : Promises π ω ε) : Later ps ps := ⟨fun _ _ h => h, fun _ h => h⟩

theorem Later.trans (h : Later ps ps') (h' : Later ps' ps'') : Later ps ps'' :=
  ⟨fun p o hp => h'.settled p o (h.settled p o hp), fun p hp => h.resolved p (h'.resolved p hp)⟩

theorem Later.isSettled (h : Later ps ps') (hp : (ps p).isSettled = true) :
    (ps' p).isSettled = true := by
  obtain ⟨o, ho⟩ := PromiseState.isSettled_iff.mp hp
  exact PromiseState.isSettled_iff.mpr ⟨o, h.settled p o ho⟩

theorem Later.not_pending (h : Later ps ps') (hp : (ps p).isPending = false) :
    (ps' p).isPending = false := by
  by_contra hpending
  rw [h.resolved p (by simpa using hpending)] at hp
  exact Bool.noConfusion hp

theorem Later.toGo_le (h : Later ps ps') (p : π) : (ps' p).toGo ≤ (ps p).toGo := by
  cases hp : ps p with
  | settled o => rw [h.settled p o hp]
  | following q =>
      have hresolved : (ps' p).isPending = false := h.not_pending (by rw [hp]; rfl)
      cases hp' : ps' p with
      | pending => simp [hp'] at hresolved
      | following _ => exact le_rfl
      | settled _ => exact Nat.zero_le _
  | pending => cases ps' p <;> simp [PromiseState.toGo]

/-! ## Operations -/

variable [DecidableEq π]

/-- Resolving with a value that is no promise, or rejecting. Only the first time counts. -/
def settle (ps : Promises π ω ε) (p : π) (outcome : Settlement ω ε) : Promises π ω ε :=
  match ps p with
  | .pending => Function.update ps p (.settled outcome)
  | _ => ps

/-- Resolving with another promise. -/
def follow (ps : Promises π ω ε) (p target : π) : Promises π ω ε :=
  match ps p with
  | .pending => Function.update ps p (.following target)
  | _ => ps

/-- The job by which a promise takes over the outcome of the one it follows. -/
def adopt (ps : Promises π ω ε) (p : π) : Promises π ω ε :=
  match ps p with
  | .following target =>
      match ps target with
      | .settled outcome => Function.update ps p (.settled outcome)
      | _ => ps
  | _ => ps

theorem settle_self (h : ps p = .pending) (o : Settlement ω ε) :
    ps.settle p o p = .settled o := by
  simp [settle, h]

@[simp] theorem settle_ne (h : q ≠ p) (o : Settlement ω ε) : ps.settle p o q = ps q := by
  cases hp : ps p <;> simp [settle, hp, h]

theorem follow_self (h : ps p = .pending) : ps.follow p q p = .following q := by
  simp [follow, h]

@[simp] theorem follow_ne {target : π} (h : q ≠ p) : ps.follow p target q = ps q := by
  cases hp : ps p <;> simp [follow, hp, h]

theorem adopt_self {o : Settlement ω ε} (h : ps p = .following q) (hq : ps q = .settled o) :
    ps.adopt p p = .settled o := by
  simp [adopt, h, hq]

@[simp] theorem adopt_ne (h : q ≠ p) : ps.adopt p q = ps q := by
  cases hp : ps p with
  | following target => cases htarget : ps target <;> simp [adopt, hp, htarget, h]
  | pending => simp [adopt, hp]
  | settled o => simp [adopt, hp]

theorem later_settle (ps : Promises π ω ε) (p : π) (o : Settlement ω ε) :
    Later ps (ps.settle p o) := by
  cases h : ps p with
  | pending =>
      constructor
      · intro q o' hq
        by_cases hne : q = p
        · subst hne
          simp [h] at hq
        · rw [settle_ne hne, hq]
      · intro q hq
        by_cases hne : q = p
        · rw [hne, h, PromiseState.isPending_pending]
        · rwa [settle_ne hne] at hq
  | following target => simpa [settle, h] using Later.refl ps
  | settled o' => simpa [settle, h] using Later.refl ps

theorem later_follow (ps : Promises π ω ε) (p target : π) : Later ps (ps.follow p target) := by
  cases h : ps p with
  | pending =>
      constructor
      · intro q o' hq
        by_cases hne : q = p
        · subst hne
          simp [h] at hq
        · rw [follow_ne hne, hq]
      · intro q hq
        by_cases hne : q = p
        · rw [hne, h, PromiseState.isPending_pending]
        · rwa [follow_ne hne] at hq
  | following target => simpa [follow, h] using Later.refl ps
  | settled o' => simpa [follow, h] using Later.refl ps

theorem later_adopt (ps : Promises π ω ε) (p : π) : Later ps (ps.adopt p) := by
  by_cases h : ps.adopts p = true
  · obtain ⟨q, o, hp, hq⟩ := adopts_iff.mp h
    constructor
    · intro r o' hr
      by_cases hne : r = p
      · subst hne
        simp [hp] at hr
      · rw [adopt_ne hne, hr]
    · intro r hr
      by_cases hne : r = p
      · subst hne
        simp [adopt_self hp hq] at hr
      · rwa [adopt_ne hne] at hr
  · have hsame : ps.adopt p = ps := by
      unfold adopt
      unfold adopts at h
      cases hp : ps p with
      | following target =>
          cases htarget : ps target with
          | settled o => simp [hp, htarget] at h
          | pending => simp [htarget]
          | following q => simp [htarget]
      | pending => rfl
      | settled o => rfl
    rw [hsame]
    exact .refl ps

end Promises

end VicoopBridge.Library
