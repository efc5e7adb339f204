import Mathlib.Data.List.Induction

/-! # Events kept apart by others

A log in which two events of one kind always have an event of another kind between them. A
log that is also closed, with such an event after the last of the first kind, may grow by
any event. -/

namespace VicoopBridge.Library

variable {ε : Type*}

/-- After each event of the first kind comes one of the second. -/
def Closed (p q : ε → Prop) (log : List ε) : Prop :=
  ∀ before e after, log = before ++ e :: after → p e → ∃ z ∈ after, q z

/-- Between two events of the first kind is one of the second. -/
def Spaced (p q : ε → Prop) (log : List ε) : Prop :=
  ∀ before x between y after, log = before ++ x :: (between ++ y :: after) → p x → p y →
    ∃ z ∈ between, q z

variable {p q : ε → Prop} {log : List ε} {e : ε}

@[simp] theorem Closed.nil : Closed p q [] := fun before _ _ h => by simp at h

@[simp] theorem Spaced.nil : Spaced p q [] := fun before _ _ _ _ h => by simp at h

/-- An event of a log that has grown is the last one, or has the last one after it. -/
theorem snoc_split {before after : List ε} {x : ε} (h : log ++ [e] = before ++ x :: after) :
    (e = x ∧ before = log ∧ after = []) ∨
      ∃ after', after = after' ++ [e] ∧ log = before ++ x :: after' := by
  induction after using List.reverseRecOn with
  | nil =>
      obtain ⟨hlog, hlast⟩ := List.append_inj' h rfl
      exact .inl ⟨by simpa using hlast, hlog.symm, rfl⟩
  | append_singleton after y =>
      have h' : log ++ [e] = (before ++ x :: after) ++ [y] := by simpa using h
      obtain ⟨hlog, hlast⟩ := List.append_inj' h' rfl
      have hy : e = y := by simpa using hlast
      exact .inr ⟨after, by rw [hy], hlog⟩

theorem Closed.of_forall (h : ∀ x ∈ log, ¬ p x) : Closed p q log := by
  rintro before x after rfl hx
  exact absurd hx (h x (by simp))

/-- Events of other kinds keep a log closed, and one of the second kind closes it. -/
theorem Closed.append {events : List ε} (h : (∃ z ∈ events, q z) ∨ Closed p q log)
    (hp : ∀ x ∈ events, ¬ p x) : Closed p q (log ++ events) := by
  intro before x after heq hx
  obtain ⟨between, -, hevents⟩ | ⟨rest, hlog, hrest⟩ := List.append_eq_append_iff.mp heq
  · exact absurd hx (hp x (by simp [hevents]))
  · cases rest with
    | nil =>
        have hevents : events = x :: after := hrest.symm
        exact absurd hx (hp x (by simp [hevents]))
    | cons y rest =>
        obtain ⟨rfl, rfl⟩ := List.cons.inj hrest
        obtain ⟨z, hz, hq⟩ | hclosed := h
        · exact ⟨z, by simp [hz], hq⟩
        · obtain ⟨z, hz, hq⟩ := hclosed before x rest hlog hx
          exact ⟨z, by simp [hz], hq⟩

theorem Spaced.snoc (h : Spaced p q log) (hclosed : p e → Closed p q log) :
    Spaced p q (log ++ [e]) := by
  intro before x between y after heq hx hy
  have heq' : log ++ [e] = (before ++ x :: between) ++ y :: after := by simpa using heq
  obtain ⟨rfl, hlog, -⟩ | ⟨after, rfl, hlog⟩ := snoc_split heq'
  · exact hclosed hy before x between hlog.symm hx
  · exact h before x between y after (by simpa using hlog) hx hy

theorem Spaced.append {events : List ε} (h : Spaced p q log) (hp : ∀ x ∈ events, ¬ p x) :
    Spaced p q (log ++ events) := by
  induction events using List.reverseRecOn with
  | nil => simpa using h
  | append_singleton events e ih =>
      have hinit := ih fun x hx => hp x (by simp [hx])
      have hlast := hinit.snoc (e := e) fun he => absurd he (hp e (by simp))
      simpa using hlast

end VicoopBridge.Library
