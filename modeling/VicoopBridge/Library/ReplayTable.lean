import Mathlib.Order.Lattice
import Mathlib.Order.Defs.LinearOrder
import VicoopBridge.Library.InsertionMap

/-! # Tables of consumed keys

A row for each key that was consumed, kept until it expires. The log of everything that was
ever consumed is compared with the rows that are left. -/

namespace VicoopBridge.Library

universe u v

/-- The expiry of each row by its key. -/
abbrev ReplayTable (κ : Type u) (τ : Type v) [DecidableEq κ] := InsertionMap κ τ

namespace ReplayTable

variable {κ : Type u} {τ : Type v} [DecidableEq κ] [LinearOrder τ]

/-- Insert the row, unless there is one. -/
def consume (table : ReplayTable κ τ) (k : κ) (expiresAt : τ) : Option (ReplayTable κ τ) :=
  if table.has k then none else some (table.set k expiresAt)

/-- Insert all rows or none; the error is the position of the first conflict. -/
def consumeAll (table : ReplayTable κ τ) : List (κ × τ) → Except ℕ (ReplayTable κ τ)
  | [] => .ok table
  | row :: rows =>
      match table.consume row.1 row.2 with
      | none => .error 0
      | some table =>
          match consumeAll table rows with
          | .ok table => .ok table
          | .error position => .error (position + 1)

/-- Delete the rows that have expired. -/
def sweep (table : ReplayTable κ τ) (now : τ) : ReplayTable κ τ :=
  table.filter fun _ expiresAt => now < expiresAt

/-- Of each key that was consumed the row is there, or it has expired. -/
def Remembers (table : ReplayTable κ τ) (now : τ) (log : List (κ × τ)) : Prop :=
  ∀ row ∈ log, table.get? row.1 = some row.2 ∨ row.2 ≤ now

variable {table table' : ReplayTable κ τ} {now now' : τ} {log rows : List (κ × τ)}

theorem Remembers.nil (table : ReplayTable κ τ) (now : τ) : table.Remembers now [] := by
  simp [Remembers]

theorem Remembers.later (h : table.Remembers now log) (hle : now ≤ now') :
    table.Remembers now' log :=
  fun row hrow => (h row hrow).imp_right fun hexpired => le_trans hexpired hle

theorem Remembers.sweep (h : table.Remembers now log) : (table.sweep now).Remembers now log := by
  intro row hrow
  rcases h row hrow with hstored | hexpired
  · by_cases hlive : now < row.2
    · exact .inl (by simp [ReplayTable.sweep, InsertionMap.get?_filter, hstored, hlive])
    · exact .inr (not_lt.mp hlive)
  · exact .inr hexpired

/-- A key is consumed only when every earlier row of it has expired. -/
theorem Remembers.consume (h : table.Remembers now log) {k : κ} {expiresAt : τ}
    (hconsume : table.consume k expiresAt = some table') :
    table'.Remembers now (log ++ [(k, expiresAt)]) ∧
      ∀ row ∈ log, row.1 = k → row.2 ≤ now := by
  unfold ReplayTable.consume at hconsume
  split at hconsume
  · simp at hconsume
  rename_i hfree
  have hnone : table.get? k = none := by simpa [InsertionMap.has] using hfree
  obtain rfl := Option.some.inj hconsume
  have hold : ∀ row ∈ log, row.1 = k → row.2 ≤ now := by
    rintro row hrow rfl
    exact (h row hrow).resolve_left (by simp [hnone])
  refine ⟨fun row hrow => ?_, hold⟩
  rcases List.mem_append.mp hrow with hbefore | hnew
  · by_cases hk : row.1 = k
    · exact .inr (hold row hbefore hk)
    · exact (h row hbefore).imp_left fun hstored =>
        (InsertionMap.get?_set_of_ne _ _ (Ne.symm hk)).trans hstored
  · obtain rfl := List.mem_singleton.mp hnew
    exact .inl (InsertionMap.get?_set_self _ _ _)

/-- All rows are consumed, each at a time when the earlier ones of its key have expired. -/
theorem Remembers.consumeAll (h : table.Remembers now log)
    (hconsume : table.consumeAll rows = .ok table') :
    table'.Remembers now (log ++ rows) ∧
      ∀ row ∈ rows, ∀ earlier ∈ log, earlier.1 = row.1 → earlier.2 ≤ now := by
  induction rows generalizing table log with
  | nil =>
      obtain rfl : table = table' := by simpa [ReplayTable.consumeAll] using hconsume
      simpa using h
  | cons row rows ih =>
      rw [ReplayTable.consumeAll] at hconsume
      split at hconsume
      · simp at hconsume
      rename_i next hnext
      split at hconsume
      · rename_i last hlast
        obtain rfl : last = table' := by simpa using hconsume
        obtain ⟨hremembers, hfirst⟩ := h.consume hnext
        obtain ⟨hall, hrest⟩ := ih hremembers hlast
        refine ⟨by simpa using hall, fun row' hrow' earlier hearlier heq => ?_⟩
        rcases List.mem_cons.mp hrow' with rfl | hmem
        · exact hfirst earlier hearlier heq
        · exact hrest row' hmem earlier (List.mem_append_left _ hearlier) heq
      · simp at hconsume

omit [LinearOrder τ] in
/-- A row is an old one or was consumed. -/
theorem get?_consumeAll {k : κ} {expiresAt : τ} (hconsume : table.consumeAll rows = .ok table')
    (h : table'.get? k = some expiresAt) :
    table.get? k = some expiresAt ∨ (k, expiresAt) ∈ rows := by
  induction rows generalizing table with
  | nil =>
      obtain rfl : table = table' := by simpa [ReplayTable.consumeAll] using hconsume
      exact .inl h
  | cons row rows ih =>
      rw [ReplayTable.consumeAll] at hconsume
      split at hconsume
      · simp at hconsume
      rename_i next hnext
      split at hconsume
      · rename_i last hlast
        obtain rfl : last = table' := by simpa using hconsume
        rcases ih hlast with hrow | hmem
        · unfold ReplayTable.consume at hnext
          split at hnext
          · simp at hnext
          obtain rfl := Option.some.inj hnext
          rw [InsertionMap.get?_set] at hrow
          split at hrow
          · rename_i hk
            obtain rfl := Option.some.inj hrow
            exact .inr (by simp [← hk])
          · exact .inl hrow
        · exact .inr (List.mem_cons_of_mem _ hmem)
      · simp at hconsume

end ReplayTable

end VicoopBridge.Library
