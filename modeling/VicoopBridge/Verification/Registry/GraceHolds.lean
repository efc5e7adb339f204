import VicoopBridge.Library.Transition
import VicoopBridge.Verification.Registry.Frame

/-! # Grace holds and their timers

A hold, its timer and the binding it protects come and go together, whatever sequence of
operations the registry goes through. -/

namespace VicoopBridge

open Library

namespace Registry

/-! ## The invariant -/

/-- Holds and armed timers correspond one to one, and a hold is about the binding stored
under its task. -/
structure GraceInvariant (r : Registry) : Prop where
  binding_key : ∀ k b, r.bindings.get? k = some b → b.taskId = k
  hold_stored : ∀ k hold, r.graceHolds.get? k = some hold → r.bindings.get? k = some hold.binding
  hold_armed : ∀ k hold, r.graceHolds.get? k = some hold →
    ∃ timer ∈ r.timers, timer.id = hold.timer ∧ timer.binding = hold.binding
  timer_held : ∀ timer ∈ r.timers,
    r.graceHolds.get? timer.binding.taskId = some ⟨timer.id, timer.binding⟩
  timer_fresh : ∀ timer ∈ r.timers, timer.id < r.nextTimer
  timer_nodup : (r.timers.map GraceTimer.id).Nodup

namespace GraceInvariant

variable {r : Registry} (inv : r.GraceInvariant)

include inv

theorem hold_key {k : String} {hold : GraceHold} (h : r.graceHolds.get? k = some hold) :
    hold.binding.taskId = k :=
  inv.binding_key k _ (inv.hold_stored k hold h)

theorem timer_stored {timer : GraceTimer} (h : timer ∈ r.timers) :
    r.bindings.get? timer.binding.taskId = some timer.binding :=
  inv.hold_stored _ _ (inv.timer_held timer h)

theorem timer_eq_of_id {t t' : GraceTimer} (ht : t ∈ r.timers) (ht' : t' ∈ r.timers)
    (hid : t.id = t'.id) : t = t' :=
  List.inj_on_of_nodup_map inv.timer_nodup ht ht' hid

/-- A task has at most one armed timer. -/
theorem timer_eq_of_task {t t' : GraceTimer} (ht : t ∈ r.timers) (ht' : t' ∈ r.timers)
    (htask : t.binding.taskId = t'.binding.taskId) : t = t' := by
  have hheld := inv.timer_held t ht
  rw [htask, inv.timer_held t' ht'] at hheld
  have hid : t'.id = t.id := congrArg GraceHold.timer (Option.some.inj hheld)
  exact inv.timer_eq_of_id ht ht' hid.symm

/-- No timer is armed for a binding that is not the stored one. -/
theorem no_timer_of_not_stored {b : TaskBinding} (h : r.bindings.get? b.taskId ≠ some b) :
    ∀ timer ∈ r.timers, timer.binding ≠ b := by
  intro timer htimer hb
  subst hb
  exact h (inv.timer_stored htimer)

theorem no_timer_of_no_hold {b : TaskBinding} (h : r.graceHolds.get? b.taskId = none) :
    ∀ timer ∈ r.timers, timer.binding ≠ b := by
  intro timer htimer hb
  subst hb
  rw [inv.timer_held timer htimer] at h
  exact Option.some_ne_none _ h

end GraceInvariant

/-! ## What each primitive operation does to it -/

/-- The invariant reads only four of the registry's fields. -/
theorem GraceInvariant.congr {r r' : Registry} (inv : r.GraceInvariant)
    (hb : r'.bindings = r.bindings) (hh : r'.graceHolds = r.graceHolds)
    (ht : r'.timers = r.timers) (hn : r'.nextTimer = r.nextTimer) : r'.GraceInvariant where
  binding_key := by rw [hb]; exact inv.binding_key
  hold_stored := by rw [hb, hh]; exact inv.hold_stored
  hold_armed := by rw [hh, ht]; exact inv.hold_armed
  timer_held := by rw [hh, ht]; exact inv.timer_held
  timer_fresh := by rw [ht, hn]; exact inv.timer_fresh
  timer_nodup := by rw [ht]; exact inv.timer_nodup

theorem GraceInvariant.failBinding {r : Registry} (inv : r.GraceInvariant) (b : TaskBinding)
    (error : TerminalError) : (r.failBinding b error).GraceInvariant :=
  inv.congr rfl rfl rfl rfl

/-- Removing a hold together with its timer. -/
theorem GraceInvariant.removeHold {r : Registry} (inv : r.GraceInvariant) {k : String}
    {hold : GraceHold} (hk : r.graceHolds.get? k = some hold) :
    { r.clearTimeout hold.timer with graceHolds := r.graceHolds.erase k }.GraceInvariant where
  binding_key := inv.binding_key
  hold_stored k' hold' h := by
    rw [InsertionMap.get?_erase] at h
    split at h
    · simp at h
    · exact inv.hold_stored k' hold' h
  hold_armed k' hold' h := by
    rw [InsertionMap.get?_erase] at h
    split at h
    · simp at h
    · rename_i hne
      obtain ⟨timer, hmem, hid, hbinding⟩ := inv.hold_armed k' hold' h
      refine ⟨timer, ?_, hid, hbinding⟩
      have hdiff : timer.id ≠ hold.timer := by
        intro heq
        obtain ⟨timer₀, hmem₀, hid₀, hbinding₀⟩ := inv.hold_armed k hold hk
        have htimer : timer = timer₀ := inv.timer_eq_of_id hmem hmem₀ (heq.trans hid₀.symm)
        apply hne
        rw [← inv.hold_key hk, ← inv.hold_key h, ← hbinding₀, ← hbinding, htimer]
      simpa [clearTimeout] using ⟨hmem, hdiff⟩
  timer_held timer h := by
    simp only [clearTimeout, List.mem_filter, ne_eq, decide_eq_true_eq] at h
    have hheld := inv.timer_held timer h.1
    have hne : k ≠ timer.binding.taskId := by
      intro heq
      rw [← heq, hk] at hheld
      exact h.2 (congrArg GraceHold.timer (Option.some.inj hheld)).symm
    rw [InsertionMap.get?_erase_of_ne _ hne]
    exact hheld
  timer_fresh timer h := inv.timer_fresh timer (List.mem_of_mem_filter h)
  timer_nodup := inv.timer_nodup.sublist (List.filter_sublist.map _)

theorem GraceInvariant.clearGraceHold {r : Registry} (inv : r.GraceInvariant) (k : String)
    (binding : Option TaskBinding) : (r.clearGraceHold k binding).GraceInvariant := by
  rcases clearGraceHold_cases r k binding with h | ⟨hold, hk, -, h⟩
  · rwa [h]
  · rw [h]
    exact inv.removeHold hk

/-- The stored binding's own hold, if any, is gone afterwards. -/
theorem GraceInvariant.clearGraceHold_stored {r : Registry} (inv : r.GraceInvariant)
    {b : TaskBinding} {k : String} (hstored : r.bindings.get? k = some b) :
    (r.clearGraceHold k (some b)).graceHolds.get? k = none := by
  unfold Registry.clearGraceHold
  cases hk : r.graceHolds.get? k with
  | none => exact hk
  | some hold =>
      have hb : b = hold.binding :=
        Option.some.inj (hstored.symm.trans (inv.hold_stored k hold hk))
      simp [hb]

theorem GraceInvariant.eraseBinding {r : Registry} (inv : r.GraceInvariant) {k : String}
    (hfree : r.graceHolds.get? k = none) :
    { r with bindings := r.bindings.erase k }.GraceInvariant where
  binding_key k' b h := by
    rw [InsertionMap.get?_erase] at h
    split at h
    · simp at h
    · exact inv.binding_key k' b h
  hold_stored k' hold h := by
    have hne : k ≠ k' := by
      rintro rfl
      exact Option.some_ne_none _ (h.symm.trans hfree)
    rw [InsertionMap.get?_erase_of_ne _ hne]
    exact inv.hold_stored k' hold h
  hold_armed := inv.hold_armed
  timer_held := inv.timer_held
  timer_fresh := inv.timer_fresh
  timer_nodup := inv.timer_nodup

theorem GraceInvariant.setBinding {r : Registry} (inv : r.GraceInvariant) {b : TaskBinding}
    (hfree : ∀ hold, r.graceHolds.get? b.taskId = some hold → hold.binding = b) :
    { r with bindings := r.bindings.set b.taskId b }.GraceInvariant where
  binding_key k' b' h := by
    rw [InsertionMap.get?_set] at h
    split at h
    · rename_i hk
      obtain rfl := Option.some.inj h
      exact hk
    · exact inv.binding_key k' b' h
  hold_stored k' hold h := by
    rw [InsertionMap.get?_set]
    split
    · rename_i hk
      subst hk
      rw [hfree hold h]
    · exact inv.hold_stored k' hold h
  hold_armed := inv.hold_armed
  timer_held := inv.timer_held
  timer_fresh := inv.timer_fresh
  timer_nodup := inv.timer_nodup

theorem GraceInvariant.holdBinding {r : Registry} (inv : r.GraceInvariant) (now : ℕ)
    (error : TerminalError) {b : TaskBinding} (hstored : r.bindings.get? b.taskId = some b) :
    (r.holdBinding now error b).GraceInvariant := by
  unfold Registry.holdBinding
  by_cases hhas : r.graceHolds.has b.taskId
  · rwa [if_pos hhas]
  · rw [if_neg hhas]
    have hfree : r.graceHolds.get? b.taskId = none := by
      simpa [InsertionMap.has] using hhas
    refine ⟨inv.binding_key, ?_, ?_, ?_, ?_, ?_⟩
    · intro k hold h
      rw [InsertionMap.get?_set] at h
      split at h
      · rename_i hk
        subst hk
        obtain rfl := Option.some.inj h
        exact hstored
      · exact inv.hold_stored k hold h
    · intro k hold h
      rw [InsertionMap.get?_set] at h
      split at h
      · obtain rfl := Option.some.inj h
        exact ⟨_, List.mem_append_right _ (List.mem_singleton.mpr rfl), rfl, rfl⟩
      · obtain ⟨timer, hmem, hrest⟩ := inv.hold_armed k hold h
        exact ⟨timer, List.mem_append_left _ hmem, hrest⟩
    · intro timer h
      rcases List.mem_append.mp h with hold | hnew
      · have hheld := inv.timer_held timer hold
        have hne : b.taskId ≠ timer.binding.taskId := by
          intro heq
          rw [← heq, hfree] at hheld
          exact Option.some_ne_none _ hheld.symm
        rw [InsertionMap.get?_set_of_ne _ _ hne]
        exact hheld
      · rw [List.mem_singleton.mp hnew]
        exact InsertionMap.get?_set_self _ _ _
    · intro timer h
      rcases List.mem_append.mp h with hold | hnew
      · exact Nat.lt_succ_of_lt (inv.timer_fresh timer hold)
      · rw [List.mem_singleton.mp hnew]
        exact Nat.lt_succ_self _
    · rw [List.map_append, List.nodup_append]
      refine ⟨inv.timer_nodup, List.nodup_singleton _, ?_⟩
      intro id hid id' hid' heq
      obtain ⟨timer, hmem, rfl⟩ := List.mem_map.mp hid
      have hlt : timer.id < r.nextTimer := inv.timer_fresh timer hmem
      have hnext : id' = r.nextTimer := List.mem_singleton.mp hid'
      rw [heq, hnext] at hlt
      exact lt_irrefl _ hlt

theorem GraceInvariant.failBoundTask {r : Registry} (inv : r.GraceInvariant)
    (error : TerminalError) (b : TaskBinding) : (r.failBoundTask error b).GraceInvariant := by
  have hfailed := (inv.clearGraceHold b.taskId (some b)).failBinding b error
  rcases deleteBinding_cases ((r.clearGraceHold b.taskId (some b)).failBinding b error) b with
    ⟨-, h⟩ | ⟨hstored, h⟩
  · rwa [Registry.failBoundTask, h]
  · rw [Registry.failBoundTask, h]
    refine hfailed.eraseBinding ?_
    rw [failBinding_bindings, clearGraceHold_bindings] at hstored
    exact inv.clearGraceHold_stored hstored

/-- Under the invariant the timer callback fails its own binding like any other failure. -/
theorem GraceInvariant.expireGraceTimer_eq {r : Registry} (inv : r.GraceInvariant)
    {timer : GraceTimer} (h : timer ∈ r.timers) :
    r.expireGraceTimer timer = r.failBoundTask timer.terminalError timer.binding := by
  have hstored := inv.timer_stored h
  have hclear : r.clearGraceHold timer.binding.taskId (some timer.binding) =
      { r.clearTimeout timer.id with graceHolds := r.graceHolds.erase timer.binding.taskId } := by
    simp [Registry.clearGraceHold, inv.timer_held timer h]
  rw [Registry.failBoundTask, hclear]
  exact (if_neg (not_not.mpr hstored)).trans (if_pos hstored).symm

/-! ## What an operation may change -/

/-- Bindings, holds and timers only go away, and a binding whose own state changed is
not stored any more. -/
structure Ends (r r' : Registry) : Prop where
  binding : ∀ k b, r'.bindings.get? k = some b → r.bindings.get? k = some b
  hold : ∀ k hold, r'.graceHolds.get? k = some hold → r.graceHolds.get? k = some hold
  timer : ∀ timer ∈ r'.timers, timer ∈ r.timers
  cell : ∀ b, r'.cells b ≠ r.cells b → r'.bindings.get? b.taskId ≠ some b

theorem Ends.refl (r : Registry) : r.Ends r :=
  ⟨fun _ _ h => h, fun _ _ h => h, fun _ h => h, fun _ h => absurd rfl h⟩

theorem Ends.trans {r r' r'' : Registry} (h : r.Ends r') (h' : r'.Ends r'') : r.Ends r'' where
  binding k b hb := h.binding k b (h'.binding k b hb)
  hold k hold hh := h.hold k hold (h'.hold k hold hh)
  timer t ht := h.timer t (h'.timer t ht)
  cell b hb := by
    by_cases hlast : r''.cells b = r'.cells b
    · exact fun hstored => h.cell b (hlast ▸ hb) (h'.binding _ _ hstored)
    · exact h'.cell b hlast

theorem ends_clearGraceHold (r : Registry) (k : String) (binding : Option TaskBinding) :
    r.Ends (r.clearGraceHold k binding) := by
  rcases clearGraceHold_cases r k binding with h | ⟨hold, -, -, h⟩
  · rw [h]
    exact .refl r
  · rw [h]
    refine ⟨fun _ _ h => h, ?_, fun _ h => List.mem_of_mem_filter h, fun _ h => absurd rfl h⟩
    intro k' hold' hk'
    rw [InsertionMap.get?_erase] at hk'
    split at hk'
    · simp at hk'
    · exact hk'

theorem ends_failBoundTask (r : Registry) (error : TerminalError) (b : TaskBinding) :
    r.Ends (r.failBoundTask error b) where
  binding k b' h := by
    by_cases hk : k = b.taskId
    · subst hk
      rcases deleteBinding_cases ((r.clearGraceHold b.taskId (some b)).failBinding b error) b with
        ⟨-, hd⟩ | ⟨-, hd⟩
      · simpa [Registry.failBoundTask, hd] using h
      · simp [Registry.failBoundTask, hd] at h
    · rwa [failBoundTask_bindings_of_ne r b error hk] at h
  hold k hold h := by
    simp only [Registry.failBoundTask, deleteBinding_graceHolds, failBinding_graceHolds] at h
    exact (ends_clearGraceHold r _ _).hold k hold h
  timer t h := by
    simp only [Registry.failBoundTask, deleteBinding_timers, failBinding_timers] at h
    exact (ends_clearGraceHold r _ _).timer t h
  cell b' h := by
    by_cases hb : b' = b
    · subst hb
      exact failBoundTask_not_stored r b' error
    · exact absurd (failBoundTask_cells_of_ne r error hb) h

theorem ends_failBindingsForAgent (r : Registry) (agentId : String) (error : TerminalError) :
    r.Ends (r.failBindingsForAgent agentId error) := by
  unfold failBindingsForAgent
  exact List.foldlRecOn (motive := r.Ends) _ _ (.refl r)
    fun _ h b _ => h.trans (ends_failBoundTask _ error b)

theorem GraceInvariant.failBindingsForAgent {r : Registry} (inv : r.GraceInvariant)
    (agentId : String) (error : TerminalError) :
    (r.failBindingsForAgent agentId error).GraceInvariant := by
  unfold Registry.failBindingsForAgent
  exact List.foldlRecOn (motive := GraceInvariant) _ _ inv fun _ h b _ => h.failBoundTask error b

/-- The bindings stay as they are; a task that had no hold may get one, with a new timer. -/
structure Holds (r r' : Registry) : Prop where
  bindings : r'.bindings = r.bindings
  cells : r'.cells = r.cells
  hold : ∀ k hold, r'.graceHolds.get? k = some hold →
    r.graceHolds.get? k = some hold ∨ r.graceHolds.get? k = none
  kept : ∀ k hold, r.graceHolds.get? k = some hold → r'.graceHolds.get? k = some hold
  timer : ∀ timer ∈ r'.timers, timer ∈ r.timers ∨ r.nextTimer ≤ timer.id
  nextTimer : r.nextTimer ≤ r'.nextTimer

theorem Holds.refl (r : Registry) : r.Holds r :=
  ⟨rfl, rfl, fun _ _ h => .inl h, fun _ _ h => h, fun _ h => .inl h, le_rfl⟩

theorem Holds.trans {r r' r'' : Registry} (h : r.Holds r') (h' : r'.Holds r'') : r.Holds r'' where
  bindings := h'.bindings.trans h.bindings
  cells := h'.cells.trans h.cells
  hold k hold hk := by
    rcases h'.hold k hold hk with hold' | hnone
    · exact h.hold k hold hold'
    · refine .inr ?_
      cases hr : r.graceHolds.get? k with
      | none => rfl
      | some old => exact absurd (h.kept k old hr) (by simp [hnone])
  kept k hold hk := h'.kept k hold (h.kept k hold hk)
  timer t ht := by
    rcases h'.timer t ht with hold | hnew
    · exact h.timer t hold
    · exact .inr (h.nextTimer.trans hnew)
  nextTimer := h.nextTimer.trans h'.nextTimer

theorem holds_holdBinding (r : Registry) (now : ℕ) (error : TerminalError) (b : TaskBinding) :
    r.Holds (r.holdBinding now error b) := by
  unfold holdBinding
  by_cases hhas : r.graceHolds.has b.taskId
  · rw [if_pos hhas]
    exact .refl r
  · rw [if_neg hhas]
    have hfree : r.graceHolds.get? b.taskId = none := by
      simpa [InsertionMap.has] using hhas
    refine ⟨rfl, rfl, ?_, ?_, ?_, Nat.le_succ _⟩
    · intro k hold h
      rw [InsertionMap.get?_set] at h
      split at h
      · rename_i hk
        subst hk
        exact .inr hfree
      · exact .inl h
    · intro k hold h
      have hne : b.taskId ≠ k := by
        rintro rfl
        exact Option.some_ne_none _ (h.symm.trans hfree)
      rwa [InsertionMap.get?_set_of_ne _ _ hne]
    · intro timer h
      rcases List.mem_append.mp h with hold | hnew
      · exact .inl hold
      · rw [List.mem_singleton.mp hnew]
        exact .inr le_rfl

/-- The loop of `holdBindingsForAgent`, for a grace that is switched on. -/
theorem GraceInvariant.holdLoop {r : Registry} (inv : r.GraceInvariant) (now : ℕ)
    (agentId : String) (error : TerminalError) :
    let r' := (r.bindings.values.filter fun b => b.agentId = agentId).foldl
      (fun r b => r.holdBinding now error b) r
    r'.GraceInvariant ∧ r.Holds r' := by
  refine List.foldlRecOn (motive := fun r' => r'.GraceInvariant ∧ r.Holds r') _ _
    ⟨inv, .refl r⟩ ?_
  rintro r' ⟨hinv, hholds⟩ b hb
  obtain ⟨k, hk⟩ := (InsertionMap.mem_values_iff _ _).mp (List.mem_of_mem_filter hb)
  have hstored : r'.bindings.get? b.taskId = some b := by
    rw [hholds.bindings, inv.binding_key k b hk]
    exact hk
  exact ⟨hinv.holdBinding now error hstored, hholds.trans (holds_holdBinding r' now error b)⟩

/-! ## What one step may change -/

/-- What every operation guarantees: an existing hold is not replaced by another one, a
timer that was not armed before is a new one, and a binding whose own state changed has
left the registry. -/
structure StepEffect (r r' : Registry) : Prop where
  hold : ∀ k hold, r'.graceHolds.get? k = some hold →
    r.graceHolds.get? k = some hold ∨ r.graceHolds.get? k = none
  timer : ∀ timer ∈ r'.timers, timer ∈ r.timers ∨ r.nextTimer ≤ timer.id
  cell : ∀ b, r'.cells b ≠ r.cells b → r'.bindings.get? b.taskId ≠ some b

theorem Ends.stepEffect {r r' : Registry} (h : r.Ends r') : r.StepEffect r' :=
  ⟨fun k hold hk => .inl (h.hold k hold hk), fun t ht => .inl (h.timer t ht), h.cell⟩

theorem Holds.stepEffect {r r' : Registry} (h : r.Holds r') : r.StepEffect r' :=
  ⟨h.hold, h.timer, fun b hb => absurd (congrFun h.cells b) hb⟩

/-- Two registries that agree on everything about tasks. -/
structure SameTasks (r r' : Registry) : Prop where
  bindings : r'.bindings = r.bindings
  graceHolds : r'.graceHolds = r.graceHolds
  timers : r'.timers = r.timers
  nextTimer : r'.nextTimer = r.nextTimer
  cells : r'.cells = r.cells

/-- The two facts every operation is shown to have. -/
structure GraceStep (r r' : Registry) : Prop where
  invariant : r'.GraceInvariant
  effect : r.StepEffect r'

theorem GraceStep.congr {r r₁ r₂ r' : Registry} (h : r₁.GraceStep r₂) (hs : r.SameTasks r₁)
    (hs' : r₂.SameTasks r') : r.GraceStep r' where
  invariant := h.invariant.congr hs'.bindings hs'.graceHolds hs'.timers hs'.nextTimer
  effect :=
    { hold := by rw [hs'.graceHolds, ← hs.graceHolds]; exact h.effect.hold
      timer := by rw [hs'.timers, ← hs.timers, ← hs.nextTimer]; exact h.effect.timer
      cell := by rw [hs'.bindings, hs'.cells, ← hs.cells]; exact h.effect.cell }

theorem SameTasks.refl (r : Registry) : r.SameTasks r := ⟨rfl, rfl, rfl, rfl, rfl⟩

namespace GraceInvariant

variable {r : Registry} (inv : r.GraceInvariant)

include inv

theorem graceStep_refl : r.GraceStep r := ⟨inv, (Ends.refl r).stepEffect⟩

theorem graceStep_failBoundTask (error : TerminalError) (b : TaskBinding) :
    r.GraceStep (r.failBoundTask error b) :=
  ⟨inv.failBoundTask error b, (ends_failBoundTask r error b).stepEffect⟩

theorem graceStep_failBindingsForAgent (agentId : String) (error : TerminalError) :
    r.GraceStep (r.failBindingsForAgent agentId error) :=
  ⟨inv.failBindingsForAgent agentId error, (ends_failBindingsForAgent r agentId error).stepEffect⟩

theorem graceStep_failTaskBinding (b : TaskBinding) (code message : String) :
    r.GraceStep (r.failTaskBinding b code message) := by
  rw [failTaskBinding_eq]
  split
  · exact inv.graceStep_failBoundTask _ b
  · exact inv.graceStep_refl

theorem graceStep_holdBindingsForAgent (now : ℕ) (agentId : String) (error : TerminalError) :
    r.GraceStep (r.holdBindingsForAgent now agentId error) := by
  unfold holdBindingsForAgent
  split
  · exact inv.graceStep_failBindingsForAgent agentId error
  · obtain ⟨hinv, hholds⟩ := inv.holdLoop now agentId error
    exact ⟨hinv, hholds.stepEffect⟩

theorem graceStep_resumeBinding (taskId agentId : String) :
    r.GraceStep (r.resumeBinding taskId agentId) := by
  unfold resumeBinding
  cases hk : r.graceHolds.get? taskId with
  | none => exact inv.graceStep_refl
  | some hold =>
      simp only
      split
      · exact inv.graceStep_refl
      split
      · exact inv.graceStep_refl
      · have hclear : r.clearGraceHold taskId none =
            { r.clearTimeout hold.timer with graceHolds := r.graceHolds.erase taskId } := by
          simp [Registry.clearGraceHold, hk]
        rw [← hclear]
        exact ⟨inv.clearGraceHold taskId none, (ends_clearGraceHold r taskId none).stepEffect⟩

theorem graceStep_unbindTask (taskId : String) (b : TaskBinding) :
    r.GraceStep (r.unbindTask taskId b) := by
  unfold unbindTask
  have hsame : r.SameTasks { r with approvals := r.approvals.invalidate b } :=
    ⟨rfl, rfl, rfl, rfl, rfl⟩
  have inv' : { r with approvals := r.approvals.invalidate b }.GraceInvariant :=
    inv.congr rfl rfl rfl rfl
  generalize { r with approvals := r.approvals.invalidate b } = r₁ at hsame inv'
  simp only
  by_cases hstored : r₁.bindings.get? taskId = some b
  · rw [if_neg (not_not.mpr hstored)]
    have hcleared := inv'.clearGraceHold taskId (some b)
    have hfree := inv'.clearGraceHold_stored hstored
    have hends := ends_clearGraceHold r₁ taskId (some b)
    refine GraceStep.congr ⟨hcleared.eraseBinding hfree, ?_⟩ hsame (.refl _)
    refine ⟨fun k hold h => .inl (hends.hold k hold h), fun t h => .inl (hends.timer t h), ?_⟩
    intro b' hb'
    exact absurd (congrFun (clearGraceHold_cells r₁ taskId (some b)) b') hb'
  · rw [if_pos hstored]
    exact inv'.graceStep_refl.congr hsame (.refl _)

theorem graceStep_bindTask (b : TaskBinding) : r.GraceStep (r.bindTask b).2 := by
  unfold bindTask
  cases hk : r.bindings.get? b.taskId with
  | none =>
      have hfree : r.graceHolds.get? b.taskId = none := by
        cases hh : r.graceHolds.get? b.taskId with
        | none => rfl
        | some hold => exact absurd (inv.hold_stored _ _ hh) (by simp [hk])
      exact ⟨inv.setBinding (by simp [hfree]), fun _ _ h => .inl h, fun _ h => .inl h,
        fun _ h => absurd rfl h⟩
  | some existing =>
      simp only
      split
      · exact inv.graceStep_refl
      split
      · rename_i hsame
        subst hsame
        refine ⟨inv.setBinding ?_, fun _ _ h => .inl h, fun _ h => .inl h,
          fun _ h => absurd rfl h⟩
        intro hold hh
        exact Option.some.inj ((inv.hold_stored _ _ hh).symm.trans hk)
      · rename_i hne
        have hcleared := (inv.clearGraceHold b.taskId (some existing)).failBinding existing
          taskSupersededError
        have hfree := inv.clearGraceHold_stored hk
        have hends := ends_clearGraceHold r b.taskId (some existing)
        refine ⟨hcleared.setBinding ?_, fun k hold h => .inl (hends.hold k hold h),
          fun t h => .inl (hends.timer t h), ?_⟩
        · intro hold hh
          rw [failBinding_graceHolds, hfree] at hh
          exact absurd hh (by simp)
        · intro b' hb'
          have hb : b' = existing := by
            by_contra hother
            apply hb'
            exact (failBinding_cells_of_ne _ _ hother).trans (by rw [clearGraceHold_cells])
          subst hb
          rw [inv.binding_key _ _ hk, InsertionMap.get?_set_self]
          exact fun heq => hne (Option.some.inj heq).symm

theorem graceStep_expireGraceTimer {timer : GraceTimer} (h : timer ∈ r.timers) :
    r.GraceStep (r.expireGraceTimer timer) := by
  rw [inv.expireGraceTimer_eq h]
  exact inv.graceStep_failBoundTask _ _

theorem graceStep_displaceConnection (now : ℕ) (agentId : String) (existing : ClientConnection) :
    r.GraceStep (r.displaceConnection now agentId existing) := by
  unfold displaceConnection
  have hsame : r.SameTasks (r.modifySocket existing.ws
      (Socket.close · 4009 "another client with the same token connected")) :=
    ⟨rfl, rfl, rfl, rfl, rfl⟩
  have inv' := inv.congr hsame.bindings hsame.graceHolds hsame.timers hsame.nextTimer
  simp only
  split
  · exact (inv'.graceStep_failBindingsForAgent _ _).congr hsame (.refl _)
  split
  · exact (inv'.graceStep_holdBindingsForAgent _ _ _).congr hsame (.refl _)
  · exact (inv'.graceStep_failBindingsForAgent _ _).congr hsame (.refl _)

theorem graceStep_registerAgent (now : ℕ) (conn : ClientConnection) {r' : Registry}
    (h : r.registerAgent now conn = .ok r') : r.GraceStep r' := by
  unfold registerAgent at h
  cases hk : r.agents.get? conn.agentId with
  | none =>
      rw [hk] at h
      obtain rfl := Except.ok.inj h
      exact inv.graceStep_refl.congr (.refl _) ⟨rfl, rfl, rfl, rfl, rfl⟩
  | some existing =>
      rw [hk] at h
      simp only at h
      split at h
      · obtain rfl := Except.ok.inj h
        exact (inv.graceStep_displaceConnection now _ existing).congr (.refl _)
          ⟨rfl, rfl, rfl, rfl, rfl⟩
      · simp at h

theorem graceStep_unregisterAgent (now : ℕ) (agentId : String) (ws : WsId)
    (closeCode : Option ℕ) : r.GraceStep (r.unregisterAgent now agentId ws closeCode) := by
  unfold unregisterAgent
  cases r.agents.get? agentId with
  | none => exact inv.graceStep_refl
  | some existing =>
      simp only
      have hsame : r.SameTasks { r with agents := r.agents.erase agentId } :=
        ⟨rfl, rfl, rfl, rfl, rfl⟩
      have inv' := inv.congr hsame.bindings hsame.graceHolds hsame.timers hsame.nextTimer
      split
      · exact inv.graceStep_refl
      split
      · exact (inv'.graceStep_holdBindingsForAgent _ _ _).congr hsame (.refl _)
      · exact (inv'.graceStep_failBindingsForAgent _ _).congr hsame (.refl _)

end GraceInvariant

end Registry

end VicoopBridge
