import VicoopBridge.Model.CallerExecutionScheduler
import Mathlib.Data.List.Perm.Basic

/-! # The leases of the scheduler

The busy set of a scope holds exactly the contexts of the leases that are not released. -/

namespace VicoopBridge

open Library

namespace CallerExecutionScheduler

/-- An item is told apart by its key. -/
theorem perm_cons_filter {α : Type*} (key : α → ℕ) {items : List α} (hkeys : (items.map key).Nodup)
    {item : α} (hitem : item ∈ items) :
    items.Perm (item :: items.filter fun other => key other ≠ key item) := by
  induction items with
  | nil => simp at hitem
  | cons first rest ih =>
      simp only [List.map_cons, List.nodup_cons] at hkeys
      rcases List.mem_cons.mp hitem with rfl | hrest
      · have hkeep : rest.filter (fun other => decide (key other ≠ key item)) = rest := by
          refine List.filter_eq_self.mpr fun other hother => ?_
          have hne : key other ≠ key item := by
            intro heq
            exact hkeys.1 (heq ▸ List.mem_map_of_mem hother)
          simpa using hne
        rw [List.filter_cons_of_neg (by simp), hkeep]
      · have hne : key first ≠ key item := by
          intro heq
          exact hkeys.1 (heq ▸ List.mem_map_of_mem hrest)
        rw [List.filter_cons_of_pos (by simpa using hne)]
        exact ((ih hkeys.2 hrest).cons first).trans (List.Perm.swap _ _ _)

/-- The contexts of the scope's leases. -/
def contextsOf (s : CallerExecutionScheduler) (scope : String) : List String :=
  (s.active.filter fun lease => lease.scope = scope).map Lease.context

structure LeaseInvariant (limits : SchedulerLimits) (s : CallerExecutionScheduler) : Prop where
  running : s.running = s.active.length
  global : s.running ≤ limits.global
  busy : ∀ lease ∈ s.active, s.busy.get? lease.scope = some lease.busy
  used : ∀ scope set, s.busy.get? scope = some set → set < s.nextSet ∧ s.sets set ≠ []
  own : ∀ scope scope' set, s.busy.get? scope = some set → s.busy.get? scope' = some set →
    scope = scope'
  contexts : ∀ scope, (s.busyOf scope).Perm (s.contextsOf scope)
  single : ∀ scope, (s.busyOf scope).Nodup
  perCaller : ∀ scope, (s.busyOf scope).length ≤ limits.perCaller
  refs : (s.active.map Lease.ref).Nodup

variable {limits : SchedulerLimits} {s t : CallerExecutionScheduler}

theorem LeaseInvariant.congr (inv : s.LeaseInvariant limits) (hbusy : t.busy = s.busy)
    (hsets : t.sets = s.sets) (hnext : t.nextSet = s.nextSet) (hrunning : t.running = s.running)
    (hactive : t.active = s.active) : t.LeaseInvariant limits := by
  have hbusyOf (scope : String) : t.busyOf scope = s.busyOf scope := by
    simp only [busyOf, hbusy, hsets]
  have hcontexts (scope : String) : t.contextsOf scope = s.contextsOf scope := by
    simp only [contextsOf, hactive]
  constructor
  case running => rw [hrunning, hactive, inv.running]
  case global => exact hrunning ▸ inv.global
  case busy => rw [hactive, hbusy]; exact inv.busy
  case used => rw [hbusy, hsets, hnext]; exact inv.used
  case own => rw [hbusy]; exact inv.own
  case contexts => exact fun scope => by rw [hbusyOf, hcontexts]; exact inv.contexts scope
  case single => exact fun scope => hbusyOf scope ▸ inv.single scope
  case perCaller => exact fun scope => hbusyOf scope ▸ inv.perCaller scope
  case refs => exact hactive ▸ inv.refs

/-! ## Admission -/

/-- The set a scope's next lease goes to. -/
def setFor (s : CallerExecutionScheduler) (scope : String) : ℕ :=
  (s.busy.get? scope).getD s.nextSet

theorem LeaseInvariant.setFor_ne (inv : s.LeaseInvariant limits) {scope scope' : String} {set : ℕ}
    (h : s.busy.get? scope' = some set) (hne : scope' ≠ scope) : set ≠ s.setFor scope := by
  unfold setFor
  cases hs : s.busy.get? scope with
  | none => exact ne_of_lt (inv.used scope' set h).1
  | some own =>
      rintro rfl
      exact hne (inv.own scope' scope _ h hs)

/-- What admission leaves of the state the leases depend on. -/
structure Admits (s : CallerExecutionScheduler) (scope : String) (waiter : SchedulerWaiter)
    (t : CallerExecutionScheduler) : Prop where
  busy : t.busy = s.busy.set scope (s.setFor scope)
  sets : t.sets = Function.update s.sets (s.setFor scope) (s.busyOf scope ++ [waiter.context])
  nextSet : t.nextSet = if (s.busy.get? scope).isSome then s.nextSet else s.nextSet + 1
  running : t.running = s.running + 1
  active : t.active = s.active ++ [⟨waiter.ref, scope, waiter.context, s.setFor scope⟩]

theorem remove_leases (s : CallerExecutionScheduler) (scope : String) (ref : ℕ) :
    (s.remove scope ref).2.busy = s.busy ∧ (s.remove scope ref).2.sets = s.sets ∧
      (s.remove scope ref).2.nextSet = s.nextSet ∧ (s.remove scope ref).2.running = s.running ∧
      (s.remove scope ref).2.active = s.active := by
  unfold remove
  split
  · exact ⟨rfl, rfl, rfl, rfl, rfl⟩
  · split <;> exact ⟨rfl, rfl, rfl, rfl, rfl⟩

theorem admitWaiter_admits (s : CallerExecutionScheduler) (scope : String) (waiter : SchedulerWaiter) :
    Admits s scope waiter (s.admitWaiter scope waiter) := by
  obtain ⟨hbusy, hsets, hnext, hrunning, hactive⟩ := remove_leases s scope waiter.ref
  constructor <;> simp [admitWaiter, setFor, busyOf, hbusy, hsets, hnext, hrunning, hactive]

theorem Admits.busyOf (inv : s.LeaseInvariant limits) {scope : String} {waiter : SchedulerWaiter}
    (h : Admits s scope waiter t) (scope' : String) :
    t.busyOf scope' =
      if scope' = scope then s.busyOf scope ++ [waiter.context] else s.busyOf scope' := by
  by_cases hscope : scope' = scope
  · subst hscope
    rw [CallerExecutionScheduler.busyOf, h.busy, h.sets]
    simp
  · rw [if_neg hscope, CallerExecutionScheduler.busyOf, CallerExecutionScheduler.busyOf, h.busy,
      h.sets, InsertionMap.get?_set_of_ne _ _ (Ne.symm hscope)]
    cases hs : s.busy.get? scope' with
    | none => rfl
    | some set => exact Function.update_of_ne (inv.setFor_ne hs hscope) _ _

theorem Admits.contextsOf {scope : String} {waiter : SchedulerWaiter} (h : Admits s scope waiter t)
    (scope' : String) : t.contextsOf scope' =
      if scope' = scope then s.contextsOf scope ++ [waiter.context] else s.contextsOf scope' := by
  unfold CallerExecutionScheduler.contextsOf
  rw [h.active, List.filter_append, List.map_append]
  split
  · rename_i heq
    subst heq
    simp
  · rename_i hne
    simp [Ne.symm hne]

theorem LeaseInvariant.admitWaiter (inv : s.LeaseInvariant limits) {scope : String}
    {waiter : SchedulerWaiter}
    (h : Admits s scope waiter t) (hglobal : s.running < limits.global)
    (hroom : (s.busyOf scope).length < limits.perCaller)
    (hfree : waiter.context ∉ s.busyOf scope) (hnew : waiter.ref ∉ s.active.map Lease.ref) :
    t.LeaseInvariant limits := by
  have hget (scope' : String) : t.busy.get? scope' =
      if scope = scope' then some (s.setFor scope) else s.busy.get? scope' := by
    rw [h.busy, InsertionMap.get?_set]
  have hother {scope' : String} {set : ℕ} (hs : t.busy.get? scope' = some set)
      (hne : scope' ≠ scope) : s.busy.get? scope' = some set ∧ set ≠ s.setFor scope := by
    rw [hget, if_neg (Ne.symm hne)] at hs
    exact ⟨hs, inv.setFor_ne hs hne⟩
  constructor
  case running =>
      rw [h.running, h.active, inv.running, List.length_append]
      simp
  case global => rw [h.running]; omega
  case busy =>
      intro lease hlease
      rw [h.active] at hlease
      rw [hget]
      rcases List.mem_append.mp hlease with hold | hnew
      · split
        · rename_i heq
          rw [← inv.busy lease hold, ← heq, setFor, heq, inv.busy lease hold]
          rfl
        · exact inv.busy lease hold
      · obtain rfl := List.mem_singleton.mp hnew
        simp
  case used =>
      intro scope' set hs
      rw [h.sets, h.nextSet]
      by_cases hne : scope' = scope
      · rw [hget, if_pos hne.symm] at hs
        obtain rfl := Option.some.inj hs
        refine ⟨?_, by simp⟩
        unfold setFor
        cases hb : s.busy.get? scope with
        | none => simp
        | some own => simpa using (inv.used scope own hb).1
      · obtain ⟨hs, hset⟩ := hother hs hne
        obtain ⟨hlt, hused⟩ := inv.used scope' set hs
        rw [Function.update_of_ne hset]
        refine ⟨?_, hused⟩
        split <;> omega
  case own =>
      intro scope₁ scope₂ set h₁ h₂
      by_cases hne₁ : scope₁ = scope <;> by_cases hne₂ : scope₂ = scope
      · exact hne₁.trans hne₂.symm
      · rw [hget, if_pos hne₁.symm] at h₁
        exact absurd (Option.some.inj h₁).symm (hother h₂ hne₂).2
      · rw [hget, if_pos hne₂.symm] at h₂
        exact absurd (Option.some.inj h₂).symm (hother h₁ hne₁).2
      · exact inv.own scope₁ scope₂ set (hother h₁ hne₁).1 (hother h₂ hne₂).1
  case contexts =>
      intro scope'
      rw [h.busyOf inv, h.contextsOf]
      split
      · exact (inv.contexts scope).append_right _
      · exact inv.contexts scope'
  case single =>
      intro scope'
      rw [h.busyOf inv]
      split
      · exact (inv.single scope).append (List.nodup_singleton _) (by simpa using hfree)
      · exact inv.single scope'
  case perCaller =>
      intro scope'
      rw [h.busyOf inv]
      split
      · rw [List.length_append, List.length_singleton]
        exact hroom
      · exact inv.perCaller scope'
  case refs =>
      rw [h.active, List.map_append]
      exact inv.refs.append (List.nodup_singleton _) (by simpa using hnew)

/-! ## Release -/

/-- The state right after a lease is released, before the queues are looked at. -/
def releaseLease (s : CallerExecutionScheduler) (lease : Lease) : CallerExecutionScheduler :=
  let contexts := (s.sets lease.busy).filter (· ≠ lease.context)
  { s with
    sets := Function.update s.sets lease.busy contexts
    busy := if contexts = [] then s.busy.erase lease.scope else s.busy
    running := s.running - 1
    active := s.active.filter fun other => other.ref ≠ lease.ref }

theorem release_eq (limits : SchedulerLimits) (s : CallerExecutionScheduler) (ref : ℕ) :
    s.release limits ref = s ∨
      ∃ lease ∈ s.active, lease.ref = ref ∧
        s.release limits ref = (s.releaseLease lease).drain limits := by
  unfold release
  split
  · exact .inl rfl
  · rename_i lease hfind
    obtain rfl : lease.ref = ref := by simpa using List.find?_some hfind
    exact .inr ⟨lease, List.mem_of_find?_eq_some hfind, rfl, rfl⟩

theorem LeaseInvariant.releaseLease_busyOf (inv : s.LeaseInvariant limits) {lease : Lease}
    (hlease : lease ∈ s.active) (scope : String) : (s.releaseLease lease).busyOf scope =
      if scope = lease.scope then (s.busyOf scope).filter (· ≠ lease.context)
      else s.busyOf scope := by
  have hbusy := inv.busy lease hlease
  by_cases hscope : scope = lease.scope
  · subst hscope
    rw [if_pos rfl, busyOf, busyOf, hbusy, releaseLease]
    simp only
    by_cases hempty : (s.sets lease.busy).filter (fun context => decide (context ≠ lease.context)) = []
    · rw [if_pos hempty, InsertionMap.get?_erase_self]
      exact hempty.symm
    · rw [if_neg hempty]
      simp [hbusy]
  · have hget : (s.releaseLease lease).busy.get? scope = s.busy.get? scope := by
      unfold releaseLease
      simp only
      split
      · exact InsertionMap.get?_erase_of_ne _ (Ne.symm hscope)
      · rfl
    rw [if_neg hscope, busyOf, busyOf, hget]
    cases hs : s.busy.get? scope with
    | none => rfl
    | some set =>
        have hne : set ≠ lease.busy := by
          rintro rfl
          exact hscope (inv.own scope lease.scope _ hs hbusy)
        exact Function.update_of_ne hne _ _

theorem contextsOf_releaseLease (s : CallerExecutionScheduler) {lease : Lease} {scope : String}
    (h : scope ≠ lease.scope) (hperm : s.active.Perm (lease :: (s.releaseLease lease).active)) :
    (s.contextsOf scope).Perm ((s.releaseLease lease).contextsOf scope) := by
  have hfiltered := (hperm.filter fun other => decide (other.scope = scope)).map Lease.context
  rwa [List.filter_cons_of_neg (by simpa using h.symm)] at hfiltered

theorem contextsOf_releaseLease_self (s : CallerExecutionScheduler) {lease : Lease}
    (hperm : s.active.Perm (lease :: (s.releaseLease lease).active)) :
    (s.contextsOf lease.scope).Perm
      (lease.context :: (s.releaseLease lease).contextsOf lease.scope) := by
  have hfiltered := (hperm.filter fun other => decide (other.scope = lease.scope)).map Lease.context
  rwa [List.filter_cons_of_pos (by simp)] at hfiltered

theorem LeaseInvariant.releaseLease (inv : s.LeaseInvariant limits) {lease : Lease}
    (hlease : lease ∈ s.active) : (s.releaseLease lease).LeaseInvariant limits := by
  have hperm : s.active.Perm (lease :: (s.releaseLease lease).active) :=
    perm_cons_filter Lease.ref inv.refs hlease
  have hbusyOf := inv.releaseLease_busyOf hlease
  have hcontexts (scope : String) : ((s.releaseLease lease).busyOf scope).Perm
      ((s.releaseLease lease).contextsOf scope) := by
    rw [hbusyOf]
    split
    · rename_i heq
      subst heq
      have hall := (inv.contexts lease.scope).trans (contextsOf_releaseLease_self s hperm)
      have hnodup := hall.nodup_iff.mp (inv.single lease.scope)
      refine (hall.filter _).trans ?_
      rw [List.filter_cons_of_neg (by simp), List.filter_eq_self.mpr]
      intro context hcontext
      have hne : context ≠ lease.context := by
        rintro rfl
        exact (List.nodup_cons.mp hnodup).1 hcontext
      simpa using hne
    · rename_i hne
      exact (inv.contexts scope).trans (contextsOf_releaseLease s hne hperm)
  have hmem {other : Lease} (hother : other ∈ (s.releaseLease lease).active) : other ∈ s.active :=
    List.mem_of_mem_filter hother
  have hget {scope : String} {set : ℕ} (hs : (s.releaseLease lease).busy.get? scope = some set) :
      s.busy.get? scope = some set := by
    unfold CallerExecutionScheduler.releaseLease at hs
    simp only at hs
    split at hs
    · rw [InsertionMap.get?_erase] at hs
      split at hs
      · simp at hs
      · exact hs
    · exact hs
  constructor
  case running =>
      have hlength := hperm.length_eq
      rw [List.length_cons] at hlength
      change s.running - 1 = _
      rw [inv.running, hlength]
      simp
  case global =>
      have hglobal := inv.global
      change s.running - 1 ≤ _
      omega
  case busy =>
      intro other hother
      have hbusy := inv.busy other (hmem hother)
      have hown := inv.busy lease hlease
      unfold CallerExecutionScheduler.releaseLease
      simp only
      split
      · rename_i hempty
        rw [InsertionMap.get?_erase_of_ne]
        · exact hbusy
        · -- The scope's set would still hold the context of the other lease.
          intro heq
          have hnone := hcontexts lease.scope
          rw [hbusyOf, if_pos rfl, busyOf, hown] at hnone
          rw [hempty] at hnone
          have hin : other.context ∈ (s.releaseLease lease).contextsOf lease.scope :=
            List.mem_map_of_mem (List.mem_filter.mpr ⟨hother, by simpa using heq.symm⟩)
          simpa using hnone.mem_iff.mpr hin
      · exact hbusy
  case used =>
      intro scope set hs
      obtain ⟨hlt, hused⟩ := inv.used scope set (hget hs)
      refine ⟨hlt, ?_⟩
      by_cases hset : set = lease.busy
      · subst hset
        obtain rfl := inv.own scope lease.scope _ (hget hs) (inv.busy lease hlease)
        intro hempty
        simp only [CallerExecutionScheduler.releaseLease, Function.update_self] at hempty
        simp only [CallerExecutionScheduler.releaseLease, hempty, if_true,
          InsertionMap.get?_erase_self, reduceCtorEq] at hs
      · simpa [CallerExecutionScheduler.releaseLease, Function.update_of_ne hset] using hused
  case own => exact fun scope scope' set h h' => inv.own scope scope' set (hget h) (hget h')
  case contexts => exact hcontexts
  case single =>
      intro scope
      rw [hbusyOf]
      split
      · exact (inv.single scope).filter _
      · exact inv.single scope
  case perCaller =>
      intro scope
      rw [hbusyOf]
      split
      · exact le_trans (List.length_filter_le _ _) (inv.perCaller scope)
      · exact inv.perCaller scope
  case refs => exact inv.refs.sublist (List.filter_sublist.map _)

end CallerExecutionScheduler

end VicoopBridge
