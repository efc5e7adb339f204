import VicoopBridge.Verification.CallerScopedBackend.Steps

/-! # One run at a time

Without a scheduler the runs of a scope wait for each other in its `tail`. Only the first link uses the
container, so that what a failed run leaves behind is never used again. -/

namespace VicoopBridge

open Library

def TailLink.isExecution : TailLink → Bool
  | .execution _ => true
  | .reclaim _ => false

/-- The reclaim has asked the pool to stop the container, and something in it has failed. -/
def IdleReclaim.Spoils (work : IdleReclaim) : Prop :=
  work.failed = true ∧ (work.wait = .record ∨ work.wait = .done)

namespace CallerScopedBackend

open CallerExecution

variable {b : CallerBackendOptions} {s t : CallerScopedBackend} {id : String} {i k : ℕ}

/-! ## Who holds, and who uses, a scope -/

def Holds (s : CallerScopedBackend) (i : ℕ) (id : String) : Prop :=
  ∃ run, s.executions[i]? = some run ∧ run.scope = id ∧ run.wait ≠ .done

def Uses (s : CallerScopedBackend) (i : ℕ) (id : String) : Prop :=
  ∃ run, s.executions[i]? = some run ∧ run.scope = id ∧ run.inUse

def Works (s : CallerScopedBackend) (k : ℕ) (id : String) : Prop :=
  ∃ work, s.reclaims[k]? = some work ∧ work.scope = id ∧ work.wait ≠ .done

/-- The reclaim has begun. -/
def Cleans (s : CallerScopedBackend) (k : ℕ) (id : String) : Prop :=
  ∃ work, s.reclaims[k]? = some work ∧ work.scope = id ∧ work.wait ≠ .tail ∧ work.wait ≠ .done

/-- A container of the scope may still be running. -/
def Spoiled (b : CallerBackendOptions) (s : CallerScopedBackend) (id : String) : Prop :=
  (∃ run ∈ s.executions, run.scope = id ∧ (run.CleanUpFailed ∨ run.ScopeCleanUpFailed b)) ∨
    ∃ work ∈ s.reclaims, work.scope = id ∧ work.Spoils

structure ScopeInvariant (b : CallerBackendOptions) (s : CallerScopedBackend) (id : String) :
    Prop where
  links : ∀ entry, s.entries.get? id = some entry → ∀ i, .execution i ∈ entry.tail ↔ s.Holds i id
  works : ∀ k, s.Works k id ↔ ∃ entry, s.entries.get? id = some entry ∧ .reclaim k ∈ entry.tail
  nodup : ∀ entry, s.entries.get? id = some entry → entry.tail.Nodup
  order : ∀ entry, s.entries.get? id = some entry →
    entry.tail.Pairwise fun a b => a.isExecution = true → b.isExecution = true
  uses : ∀ i, s.Uses i id →
    ∃ entry, s.entries.get? id = some entry ∧ entry.tail.head? = some (.execution i)
  cleans : ∀ k, s.Cleans k id →
    ∃ entry, s.entries.get? id = some entry ∧ entry.tail.head? = some (.reclaim k)
  whole : ∀ work ∈ s.reclaims, work.scope = id → work.wait = .settle ∨ work.wait = .stop →
    ∀ entry, s.entries.get? id = some entry → entry.quarantined = false
  fresh : ∀ work ∈ s.reclaims, work.scope = id → work.wait = .tail → work.failed = false
  barred : Spoiled b s id → ∃ entry, s.entries.get? id = some entry ∧
    entry.quarantined = true ∧ ∀ i, ¬ s.Uses i id

def SerialInvariant (b : CallerBackendOptions) (s : CallerScopedBackend) : Prop :=
  ∀ id, ScopeInvariant b s id

/-! ## Runs in a list -/

theorem holds_set {run run' : CallerExecution} (hrun : s.executions[i]? = some run)
    (hscope : run'.scope = run.scope) (hwait : run'.wait = .done ↔ run.wait = .done)
    (ht : t.executions = s.executions.set i run') (j : ℕ) (id : String) :
    t.Holds j id ↔ s.Holds j id := by
  unfold Holds
  rw [ht, getElem?_set_of_some hrun]
  split
  · rename_i heq
    subst heq
    simp only [hrun, Option.some.injEq, exists_eq_left', hscope, ne_eq, hwait]
  · rfl

theorem uses_set {run run' : CallerExecution} (hrun : s.executions[i]? = some run)
    (ht : t.executions = s.executions.set i run') (j : ℕ) (id : String) :
    t.Uses j id ↔ if i = j then run'.scope = id ∧ run'.inUse else s.Uses j id := by
  unfold Uses
  rw [ht, getElem?_set_of_some hrun]
  split
  · simp only [Option.some.injEq, exists_eq_left']
  · rfl

theorem uses_iff_of_getElem? {run : CallerExecution} (hrun : s.executions[i]? = some run) :
    s.Uses i id ↔ run.scope = id ∧ run.inUse := by
  unfold Uses
  simp only [hrun, Option.some.injEq, exists_eq_left']

theorem inUse_congr {run run' : CallerExecution} (hwait : run'.wait = run.wait)
    (hphase : run'.phase = run.phase) : run'.inUse ↔ run.inUse := by
  simp only [inUse, isOver, hwait, hphase]

/-- Whether a run has failed for good does not depend on the rest of it. -/
theorem spoils_congr {run run' : CallerExecution} (hwait : run'.wait = run.wait)
    (htrace : run.isOver = true → run'.trace = run.trace) :
    run'.CleanUpFailed ∨ run'.ScopeCleanUpFailed b ↔
      run.CleanUpFailed ∨ run.ScopeCleanUpFailed b := by
  have hover : run'.isOver = run.isOver := by simp only [isOver, hwait]
  unfold CleanUpFailed ScopeCleanUpFailed
  rw [hover]
  by_cases h : run.isOver = true
  · rw [htrace h]
  · simp [h]

theorem getElem?_append_new {α : Type*} {runs : List α} {new run : α} {j : ℕ} :
    (runs ++ [new])[j]? = some run ↔ runs[j]? = some run ∨ j = runs.length ∧ run = new := by
  rw [List.getElem?_append]
  split
  · rename_i hlt
    exact ⟨.inl, fun h => h.elim id fun heq => absurd heq.1 (Nat.ne_of_lt hlt)⟩
  · rename_i hle
    rw [List.getElem?_eq_none (Nat.le_of_not_lt hle)]
    by_cases heq : j = runs.length
    · subst heq
      simp [eq_comm]
    · have hpos : j - runs.length ≠ 0 := by omega
      obtain ⟨m, hm⟩ := Nat.exists_eq_succ_of_ne_zero hpos
      simp [hm, heq]

/-! ## Steps that leave the queue alone -/

/-- The invariant reads of a scope its runs, its reclaims, its tail and its quarantine. -/
theorem ScopeInvariant.congr (inv : ScopeInvariant b s id)
    (hholds : ∀ i, t.Holds i id ↔ s.Holds i id) (huses : ∀ i, t.Uses i id ↔ s.Uses i id)
    (hreclaims : ∀ (k : ℕ) (work : IdleReclaim), work.scope = id →
      (t.reclaims[k]? = some work ↔ s.reclaims[k]? = some work))
    (hspoiled : Spoiled b t id → Spoiled b s id)
    (hentry : (t.entries.get? id).map (fun entry => (entry.tail, entry.quarantined)) =
      (s.entries.get? id).map fun entry => (entry.tail, entry.quarantined)) :
    ScopeInvariant b t id := by
  have hback {entry : ScopeEntry} (h : t.entries.get? id = some entry) :
      ∃ before, s.entries.get? id = some before ∧ before.tail = entry.tail ∧
        before.quarantined = entry.quarantined := by
    rw [h, Option.map_some, eq_comm, Option.map_eq_some_iff] at hentry
    obtain ⟨before, hbefore, heq⟩ := hentry
    exact ⟨before, hbefore, Prod.mk.inj heq⟩
  have hforth {entry : ScopeEntry} (h : s.entries.get? id = some entry) :
      ∃ after, t.entries.get? id = some after ∧ after.tail = entry.tail ∧
        after.quarantined = entry.quarantined := by
    rw [h, Option.map_some, Option.map_eq_some_iff] at hentry
    obtain ⟨after, hafter, heq⟩ := hentry
    exact ⟨after, hafter, Prod.mk.inj heq⟩
  have hmem {work : IdleReclaim} (hin : work ∈ t.reclaims) (hscope : work.scope = id) :
      work ∈ s.reclaims := by
    obtain ⟨k, hk⟩ := List.mem_iff_getElem?.mp hin
    exact List.mem_of_getElem? ((hreclaims k work hscope).mp hk)
  constructor
  case links =>
    intro entry hentry i
    obtain ⟨before, hbefore, htail, -⟩ := hback hentry
    rw [← htail, hholds]
    exact inv.links before hbefore i
  case works =>
    intro k
    have hsame : t.Works k id ↔ s.Works k id := by
      constructor <;> rintro ⟨work, hk, hscope, hlive⟩
      · exact ⟨work, (hreclaims k work hscope).mp hk, hscope, hlive⟩
      · exact ⟨work, (hreclaims k work hscope).mpr hk, hscope, hlive⟩
    rw [hsame, inv.works]
    constructor
    · rintro ⟨entry, hentry, hin⟩
      obtain ⟨after, hafter, htail, -⟩ := hforth hentry
      exact ⟨after, hafter, htail ▸ hin⟩
    · rintro ⟨entry, hentry, hin⟩
      obtain ⟨before, hbefore, htail, -⟩ := hback hentry
      exact ⟨before, hbefore, htail ▸ hin⟩
  case nodup =>
    intro entry hentry
    obtain ⟨before, hbefore, htail, -⟩ := hback hentry
    exact htail ▸ inv.nodup before hbefore
  case order =>
    intro entry hentry
    obtain ⟨before, hbefore, htail, -⟩ := hback hentry
    exact htail ▸ inv.order before hbefore
  case uses =>
    intro i hin
    obtain ⟨entry, hentry, hhead⟩ := inv.uses i ((huses i).mp hin)
    obtain ⟨after, hafter, htail, -⟩ := hforth hentry
    exact ⟨after, hafter, htail ▸ hhead⟩
  case cleans =>
    rintro k ⟨work, hk, hscope, hlive⟩
    obtain ⟨entry, hentry, hhead⟩ := inv.cleans k ⟨work, (hreclaims k work hscope).mp hk, hscope, hlive⟩
    obtain ⟨after, hafter, htail, -⟩ := hforth hentry
    exact ⟨after, hafter, htail ▸ hhead⟩
  case whole =>
    intro work hin hscope hwait entry hentry
    obtain ⟨before, hbefore, -, hquarantined⟩ := hback hentry
    exact hquarantined ▸ inv.whole work (hmem hin hscope) hscope hwait before hbefore
  case fresh => exact fun work hin hscope => inv.fresh work (hmem hin hscope) hscope
  case barred =>
    intro hspoils
    obtain ⟨entry, hentry, hquarantined, hnone⟩ := inv.barred (hspoiled hspoils)
    obtain ⟨after, hafter, -, hsame⟩ := hforth hentry
    exact ⟨after, hafter, hsame ▸ hquarantined, fun i hin => hnone i ((huses i).mp hin)⟩

theorem SerialInvariant.refuse (inv : SerialInvariant b s) (code message : String) :
    SerialInvariant b (s.refuse code message) := by
  intro id
  let new : CallerExecution := ({
    scope := "", context := "", forwarding := false, wait := .done } : CallerExecution).fail code
      message
  have hruns : (s.refuse code message).executions = s.executions ++ [new] := rfl
  refine (inv id).congr (fun i => ?_) (fun i => ?_) (fun _ _ _ => Iff.rfl) ?_ rfl
  · simp only [Holds, hruns, getElem?_append_new, or_and_right, exists_or]
    refine or_iff_left ?_
    rintro ⟨_, ⟨-, rfl⟩, -, hwait⟩
    exact hwait rfl
  · simp only [Uses, hruns, getElem?_append_new, or_and_right, exists_or]
    refine or_iff_left ?_
    rintro ⟨_, ⟨-, rfl⟩, -, -, hlive⟩
    cases hlive
  · rintro (⟨run, hin, hscope, hspoils⟩ | hspoils)
    · rcases List.mem_append.mp hin with hin | hin
      · exact .inl ⟨run, hin, hscope, hspoils⟩
      · rw [List.mem_singleton.mp hin] at hspoils
        simp [CleanUpFailed, ScopeCleanUpFailed, CallerExecution.fail, CallerExecution.emit,
          CallerExecution.log] at hspoils
    · exact .inr hspoils

theorem SerialInvariant.quiet (inv : SerialInvariant b s) {run run' : CallerExecution}
    (hrun : s.executions[i]? = some run) (h : run.Quiet run') (scheduler : CallerExecutionScheduler) :
    SerialInvariant b { s with executions := s.executions.set i run', scheduler } := by
  intro id
  refine (inv id).congr (fun j => holds_set hrun h.scope (by rw [h.wait]) rfl j id) (fun j => ?_)
    (fun _ _ _ => Iff.rfl) ?_ rfl
  · rw [uses_set hrun rfl]
    split
    · rename_i heq
      rw [← heq, uses_iff_of_getElem? hrun, h.scope, inUse_congr h.wait h.phase]
    · rfl
  · rintro (⟨other, hin, hscope, hspoils⟩ | hspoils)
    · obtain hin | rfl := List.mem_or_eq_of_mem_set hin
      · exact .inl ⟨other, hin, hscope, hspoils⟩
      · exact .inl ⟨run, List.mem_of_getElem? hrun, h.scope ▸ hscope,
          (spoils_congr h.wait h.trace).mp hspoils⟩
    · exact .inr hspoils

theorem SerialInvariant.stop (inv : SerialInvariant b s) : SerialInvariant b (s.stop b) := by
  intro id
  let f (run : CallerExecution) : CallerExecution :=
    if run.isOver then run else { run with aborted := true }
  have hscope (run : CallerExecution) : (f run).scope = run.scope := by unfold f; split <;> rfl
  have hwait (run : CallerExecution) : (f run).wait = run.wait := by unfold f; split <;> rfl
  have hphase (run : CallerExecution) : (f run).phase = run.phase := by unfold f; split <;> rfl
  have htrace (run : CallerExecution) : (f run).trace = run.trace := by unfold f; split <;> rfl
  have hruns : (s.stop b).executions = s.executions.map f := rfl
  refine (inv id).congr (fun i => ?_) (fun i => ?_) (fun _ _ _ => Iff.rfl) ?_ ?_
  · simp only [Holds, hruns, List.getElem?_map, Option.map_eq_some_iff]
    constructor
    · rintro ⟨_, ⟨run, hrun, rfl⟩, hid, hlive⟩
      exact ⟨run, hrun, hscope run ▸ hid, hwait run ▸ hlive⟩
    · rintro ⟨run, hrun, hid, hlive⟩
      exact ⟨f run, ⟨run, hrun, rfl⟩, (hscope run).trans hid, by rwa [hwait]⟩
  · simp only [Uses, hruns, List.getElem?_map, Option.map_eq_some_iff]
    constructor
    · rintro ⟨_, ⟨run, hrun, rfl⟩, hid, huse⟩
      exact ⟨run, hrun, hscope run ▸ hid, (inUse_congr (hwait run) (hphase run)).mp huse⟩
    · rintro ⟨run, hrun, hid, huse⟩
      exact ⟨f run, ⟨run, hrun, rfl⟩, (hscope run).trans hid,
        (inUse_congr (hwait run) (hphase run)).mpr huse⟩
  · rintro (⟨other, hin, hid, hspoils⟩ | hspoils)
    · obtain ⟨run, hmem, rfl⟩ := List.mem_map.mp (hruns ▸ hin)
      exact .inl ⟨run, hmem, hscope run ▸ hid,
        (spoils_congr (hwait run) fun _ => htrace run).mp hspoils⟩
    · exact .inr hspoils
  · rw [show (s.stop b).entries = s.entries.map ScopeEntry.cancelIdle from rfl,
      InsertionMap.get?_map, Option.map_map]
    rfl

/-! ## Admission -/

theorem head?_append_of_mem {α : Type*} {l : List α} {a x : α} (h : l.head? = some a) :
    (l ++ [x]).head? = some a := by
  rw [List.head?_append, h]
  rfl

theorem not_holds_of_none (common : s.Common b) (h : s.entries.get? id = none) (i : ℕ) :
    ¬ s.Holds i id := by
  rintro ⟨run, hrun, rfl, hwait⟩
  obtain ⟨entry, hentry⟩ := common.present hrun hwait
  simp [h] at hentry

theorem ScopeInvariant.not_works_of_none (inv : ScopeInvariant b s id)
    (h : s.entries.get? id = none) (k : ℕ) : ¬ s.Works k id := by
  rw [inv.works]
  rintro ⟨entry, hentry, -⟩
  simp [h] at hentry

theorem SerialInvariant.admitRun (inv : SerialInvariant b s) (common : s.Common b)
    (hb : b.concurrency = none) {context : String} {entry : ScopeEntry}
    (hentry : s.entries.get? id = some entry ∨ s.entries.get? id = none ∧ entry = {})
    (hopen : entry.quarantined = false) : SerialInvariant b (s.admitRun b id context entry) := by
  let new : CallerExecution := { scope := id, context }
  let link : TailLink := .execution s.executions.length
  let after : ScopeEntry := { entry.cancelIdle with
    users := entry.users + 1, tail := entry.tail ++ [link] }
  let t : CallerScopedBackend := { s with
    pending := s.pending + 1, entries := s.entries.set id after, executions := s.executions ++ [new] }
  have ht : s.admitRun b id context entry = t := by
    unfold CallerScopedBackend.admitRun
    rw [hb]
    rfl
  rw [ht]
  have hholds (i : ℕ) (id' : String) :
      t.Holds i id' ↔ s.Holds i id' ∨ i = s.executions.length ∧ id = id' := by
    simp only [Holds, t, getElem?_append_new, or_and_right, exists_or]
    refine or_congr_right ⟨?_, ?_⟩
    · rintro ⟨_, ⟨hi, rfl⟩, hid, -⟩
      exact ⟨hi, hid⟩
    · rintro ⟨hi, hid⟩
      exact ⟨new, ⟨hi, rfl⟩, hid, nofun⟩
  have huses (i : ℕ) (id' : String) : t.Uses i id' ↔ s.Uses i id' := by
    simp only [Uses, t, getElem?_append_new, or_and_right, exists_or]
    refine or_iff_left ?_
    rintro ⟨_, ⟨-, rfl⟩, -, hphase, -⟩
    exact hphase rfl
  have hspoiled (id' : String) (h : Spoiled b t id') : Spoiled b s id' := by
    obtain ⟨run, hin, hscope, hrun⟩ | hspoils := h
    · rcases List.mem_append.mp hin with hin | hin
      · exact .inl ⟨run, hin, hscope, hrun⟩
      · rw [List.mem_singleton.mp hin] at hrun
        obtain ⟨hover, -⟩ | ⟨hover, -⟩ := hrun <;> cases hover
    · exact .inr hspoils
  intro id'
  by_cases hid : id = id'
  swap
  · refine (inv id').congr (fun i => ?_) (fun i => huses i id') (fun _ _ _ => Iff.rfl) (hspoiled id') ?_
    · rw [hholds]
      exact or_iff_left fun h => hid h.2
    · rw [show t.entries.get? id' = s.entries.get? id' from InsertionMap.get?_set_of_ne _ _ hid]
  subst hid
  have hget : t.entries.get? id = some after := InsertionMap.get?_set_self _ _ _
  -- What the entry had before, or nothing for a new one.
  have hlinks (i : ℕ) : .execution i ∈ entry.tail ↔ s.Holds i id := by
    obtain hold | ⟨hnone, rfl⟩ := hentry
    · exact (inv id).links entry hold i
    · exact iff_of_false nofun (not_holds_of_none common hnone i)
  have hworks (k : ℕ) : s.Works k id ↔ .reclaim k ∈ entry.tail := by
    obtain hold | ⟨hnone, rfl⟩ := hentry
    · rw [(inv id).works, hold]
      simp
    · exact iff_of_false ((inv id).not_works_of_none hnone k) nofun
  have hnodup : entry.tail.Nodup := by
    obtain hold | ⟨-, rfl⟩ := hentry
    · exact (inv id).nodup entry hold
    · exact List.nodup_nil
  have horder : entry.tail.Pairwise fun a b => a.isExecution = true → b.isExecution = true := by
    obtain hold | ⟨-, rfl⟩ := hentry
    · exact (inv id).order entry hold
    · exact List.Pairwise.nil
  have hnew : link ∉ entry.tail := by
    rw [hlinks]
    rintro ⟨run, hrun, -⟩
    simp at hrun
  have hhead {link : TailLink}
      (h : ∃ entry, s.entries.get? id = some entry ∧ entry.tail.head? = some link) :
      ∃ entry, t.entries.get? id = some entry ∧ entry.tail.head? = some link := by
    obtain ⟨before, hbefore, hhead⟩ := h
    obtain hold | ⟨hnone, -⟩ := hentry
    · rw [hbefore] at hold
      obtain rfl := Option.some.inj hold
      exact ⟨after, hget, head?_append_of_mem hhead⟩
    · simp [hbefore] at hnone
  constructor
  case links =>
    intro entry' hentry' i
    obtain rfl := Option.some.inj (hget.symm.trans hentry')
    simp only [hholds, after, link, List.mem_append, List.mem_singleton, hlinks,
      TailLink.execution.injEq, and_true]
  case works =>
    intro k
    change s.Works k id ↔ _
    simp [hworks, hget, after, link]
  case nodup =>
    intro entry' hentry'
    obtain rfl := Option.some.inj (hget.symm.trans hentry')
    exact List.nodup_append.mpr ⟨hnodup, List.nodup_singleton link, fun a hin b hb => by
      rw [List.mem_singleton.mp hb]
      exact fun heq => hnew (heq ▸ hin)⟩
  case order =>
    intro entry' hentry'
    obtain rfl := Option.some.inj (hget.symm.trans hentry')
    refine List.pairwise_append.mpr ⟨horder, List.pairwise_singleton _ _, fun a _ b hb _ => ?_⟩
    rw [List.mem_singleton.mp hb]
    rfl
  case uses => exact fun i hin => hhead ((inv id).uses i ((huses i id).mp hin))
  case cleans => exact fun k hin => hhead ((inv id).cleans k hin)
  case whole =>
    intro work _ _ _ entry' hentry'
    obtain rfl := Option.some.inj (hget.symm.trans hentry')
    exact hopen
  case fresh => exact (inv id).fresh
  case barred =>
    intro hspoils
    obtain ⟨old, hold, hquarantined, -⟩ := (inv id).barred (hspoiled id hspoils)
    obtain hentry | ⟨hentry, -⟩ := hentry
    · rw [hold] at hentry
      obtain rfl := Option.some.inj hentry
      simp [hopen] at hquarantined
    · simp [hold] at hentry

/-! ## Turns and releases -/

theorem mem_executions_set {run : CallerExecution} {j : ℕ} {executions : List CallerExecution}
    {run' : CallerExecution} (h : run ∈ executions.set j run') :
    run ∈ executions ∨ run = run' := List.mem_or_eq_of_mem_set h

/-- A run that fails for good has been at the head of the queue. -/
theorem phase_of_spoils {run : CallerExecution} (hsound : run.Sound) (hqueued : run.Queued)
    (h : run.CleanUpFailed ∨ run.ScopeCleanUpFailed b) : run.phase ≠ .queue := by
  intro hphase
  have hplain := hqueued.error hphase
  obtain ⟨-, -, hacquired, -⟩ | ⟨-, hfailed | ⟨-, hfailed⟩⟩ := h
  · exact hqueued.clean hphase hacquired
  · rw [← hsound.caught _ hfailed] at hplain
    simp at hplain
  · rw [← hsound.caught _ hfailed] at hplain
    simp at hplain

theorem SerialInvariant.turned (inv : SerialInvariant b s) (hb : b.concurrency = none) {run : CallerExecution} {entry : ScopeEntry}
    {event : ExecutionEvent} {after : Turn} (hrun : s.executions[i]? = some run)
    (hentry : s.entries.get? run.scope = some entry) (hwait : run.wait = event.wait)
    (hadmissible : s.admissible b i run event) (h : Turn.Spec b event ⟨run, entry⟩ after) :
    SerialInvariant b { s with
      executions := s.executions.set i after.run, entries := s.entries.set run.scope after.entry } := by
  let t : CallerScopedBackend := { s with
    executions := s.executions.set i after.run, entries := s.entries.set run.scope after.entry }
  change SerialInvariant b t
  have hscope : after.run.scope = run.scope := h.keeps.scope
  have hlive : run.isOver = false := by
    rw [isOver_eq_false, hwait]
    cases event <;> exact ⟨ExecutionWait.noConfusion, ExecutionWait.noConfusion⟩
  have hholds (j : ℕ) (id : String) : t.Holds j id ↔ s.Holds j id :=
    holds_set hrun hscope (by simp [h.undone, (isOver_eq_false.mp hlive).2]) rfl j id
  have huses (j : ℕ) (id : String) :
      t.Uses j id ↔ if i = j then after.run.scope = id ∧ after.run.inUse else s.Uses j id :=
    uses_set hrun rfl j id
  have hspoiled (id : String) (hspoils : Spoiled b t id) : Spoiled b s id ∨ id = run.scope ∧
      (after.run.CleanUpFailed ∨ after.run.ScopeCleanUpFailed b) := by
    obtain ⟨other, hin, hid, hspoils⟩ | hspoils := hspoils
    · obtain hin | rfl := mem_executions_set hin
      · exact .inl (.inl ⟨other, hin, hid, hspoils⟩)
      · exact .inr ⟨hid.symm.trans hscope, hspoils⟩
    · exact .inl (.inr hspoils)
  -- Only the head of the queue leaves it, and only the head goes on.
  have hhead (hphase : after.run.phase ≠ .queue) :
      entry.tail.head? = some (.execution i) := by
    by_cases hbefore : run.phase = .queue
    · obtain ⟨rfl, -⟩ := h.enters hbefore hphase
      simp only [admissible, hb, Option.isNone_none, if_true] at hadmissible
      obtain ⟨entry', hentry', hhead⟩ := hadmissible
      rw [hentry] at hentry'
      obtain rfl := Option.some.inj hentry'
      exact hhead
    · obtain ⟨entry', hentry', hhead⟩ :=
        (inv run.scope).uses i ((uses_iff_of_getElem? hrun).mpr ⟨rfl, hbefore, hlive⟩)
      rw [hentry] at hentry'
      obtain rfl := Option.some.inj hentry'
      exact hhead
  intro id
  by_cases hid : run.scope = id
  swap
  · refine (inv id).congr (fun j => hholds j id) (fun j => ?_) (fun _ _ _ => Iff.rfl) ?_ ?_
    · rw [huses]
      split
      · rename_i heq
        rw [← heq, uses_iff_of_getElem? hrun, hscope]
        exact iff_of_false (fun hin => hid hin.1) fun hin => hid hin.1
      · rfl
    · exact fun hspoils => (hspoiled id hspoils).resolve_right fun hin => hid hin.1.symm
    · rw [show t.entries.get? id = s.entries.get? id from InsertionMap.get?_set_of_ne _ _ hid]
  subst hid
  have hget : t.entries.get? run.scope = some after.entry := InsertionMap.get?_set_self _ _ _
  have htail : after.entry.tail = entry.tail := h.keeps.tail
  have hkept {link : TailLink} (hin : ∃ entry, s.entries.get? run.scope = some entry ∧
      entry.tail.head? = some link) :
      ∃ entry, t.entries.get? run.scope = some entry ∧ entry.tail.head? = some link := by
    obtain ⟨entry', hentry', hhead⟩ := hin
    rw [hentry] at hentry'
    obtain rfl := Option.some.inj hentry'
    exact ⟨after.entry, hget, htail.symm ▸ hhead⟩
  constructor
  case links =>
    intro entry' hentry' j
    obtain rfl := Option.some.inj (hget.symm.trans hentry')
    rw [htail, hholds]
    exact (inv run.scope).links entry hentry j
  case works =>
    intro k
    rw [show t.Works k run.scope ↔ s.Works k run.scope from Iff.rfl, (inv run.scope).works, hget,
      hentry]
    simp [htail]
  case nodup =>
    intro entry' hentry'
    obtain rfl := Option.some.inj (hget.symm.trans hentry')
    exact htail.symm ▸ (inv run.scope).nodup entry hentry
  case order =>
    intro entry' hentry'
    obtain rfl := Option.some.inj (hget.symm.trans hentry')
    exact htail.symm ▸ (inv run.scope).order entry hentry
  case uses =>
    intro j hin
    rw [huses] at hin
    split at hin
    · rename_i heq
      subst heq
      exact hkept ⟨entry, hentry, hhead hin.2.1⟩
    · exact hkept ((inv run.scope).uses j hin)
  case cleans => exact fun k hin => hkept ((inv run.scope).cleans k hin)
  case whole =>
    intro work hin hwork hstate entry' hentry'
    obtain rfl := Option.some.inj (hget.symm.trans hentry')
    obtain ⟨k, hk⟩ := List.mem_iff_getElem?.mp hin
    have hcleans : s.Cleans k run.scope := by
      refine ⟨work, hk, hwork, ?_⟩
      obtain hstate | hstate := hstate <;> rw [hstate] <;> exact ⟨(by simp), (by simp)⟩
    have hqueue : after.run.phase = .queue := by
      by_contra hphase
      obtain ⟨entry', hentry', hhead'⟩ := (inv run.scope).cleans k hcleans
      rw [hentry] at hentry'
      obtain rfl := Option.some.inj hentry'
      rw [hhead hphase] at hhead'
      cases hhead'
    have hbefore : run.phase = .queue := by
      by_contra hphase
      exact h.used hphase hqueue
    rw [h.untouched hbefore hqueue]
    exact (inv run.scope).whole work hin hwork hstate entry hentry
  case fresh => exact (inv run.scope).fresh
  case barred =>
    intro hspoils
    obtain hold | ⟨-, hnew⟩ := hspoiled run.scope hspoils
    · obtain ⟨entry', hentry', hquarantined, hnone⟩ := (inv run.scope).barred hold
      rw [hentry] at hentry'
      obtain rfl := Option.some.inj hentry'
      refine ⟨after.entry, hget, h.keeps.quarantined hquarantined, fun j hin => ?_⟩
      rw [huses] at hin
      split at hin
      · by_cases hbefore : run.phase = .queue
        · have hopen := (h.enters hbefore hin.2.1).2.1
          simp [hquarantined] at hopen
        · exact hnone i ((uses_iff_of_getElem? hrun).mpr ⟨rfl, hbefore, hlive⟩)
      · exact hnone j hin
    · have hphase := phase_of_spoils h.sound h.queued hnew
      have hover : after.run.isOver = true := by
        obtain ⟨hover, -⟩ | ⟨hover, -⟩ := hnew <;> exact hover
      refine ⟨after.entry, hget, ?_, fun j hin => ?_⟩
      · obtain hfailed | hfailed := hnew
        · simpa [hb] using h.contained.container hfailed
        · exact (h.contained.scope hfailed).1
      · rw [huses] at hin
        split at hin
        · simp [hin.2.2] at hover
        · rename_i hne
          obtain ⟨entry', hentry', hhead'⟩ := (inv run.scope).uses j hin
          rw [hentry] at hentry'
          obtain rfl := Option.some.inj hentry'
          rw [hhead hphase, Option.some.injEq, TailLink.execution.injEq] at hhead'
          exact hne hhead'

theorem get?_leaveEntry_of_ne (s : CallerScopedBackend) {id id' : String} (entry : ScopeEntry)
    (h : id ≠ id') : (s.leaveEntry b id entry).get? id' = s.entries.get? id' := by
  unfold leaveEntry
  split
  · exact InsertionMap.get?_erase_of_ne _ h
  · split <;> exact InsertionMap.get?_set_of_ne _ _ h

/-- Only an entry that is not quarantined goes. -/
theorem get?_leaveEntry (s : CallerScopedBackend) (id : String) (entry : ScopeEntry) :
    (s.leaveEntry b id entry).get? id = none ∧ entry.quarantined = false ∨
      ∃ after, (s.leaveEntry b id entry).get? id = some after ∧ after.tail = entry.tail ∧
        after.quarantined = entry.quarantined ∧ after.failedContexts = entry.failedContexts := by
  unfold leaveEntry
  split
  · rename_i hgone
    simp only [Bool.and_eq_true, Bool.not_eq_true'] at hgone
    exact .inl ⟨InsertionMap.get?_erase_self _ _, hgone.1.2⟩
  · split
    · refine .inr ⟨_, InsertionMap.get?_set_self _ _ _, ?_⟩
      unfold ScopeEntry.armIdle
      dsimp only
      split <;> exact ⟨rfl, rfl, rfl⟩
    · exact .inr ⟨_, InsertionMap.get?_set_self _ _ _, rfl, rfl, rfl⟩

theorem eq_cons_of_head? {α : Type*} {l : List α} {a : α} (h : l.head? = some a) :
    l = a :: l.tail :=
  (List.cons_head?_tail h).symm

theorem SerialInvariant.release (inv : SerialInvariant b s) {run : CallerExecution}
    {entry : ScopeEntry} (hrun : s.executions[i]? = some run)
    (hentry : s.entries.get? run.scope = some entry) (hwait : run.wait = .slot)
    (hhead : entry.tail.head? = some (.execution i)) : SerialInvariant b (s.release b i) := by
  let done : CallerExecution := { run with wait := .done }
  let left : ScopeEntry := { entry with users := entry.users - 1, tail := entry.tail.tail }
  have hover : run.isOver = true := by simp [isOver, hwait]
  have hruns : (s.release b i).executions = s.executions.set i done := by
    rw [release_eq hrun hentry]
  have hentries : (s.release b i).entries = s.leaveEntry b run.scope left := by
    rw [release_eq hrun hentry]
  have hreclaims : (s.release b i).reclaims = s.reclaims := by rw [release_eq hrun hentry]
  have hholds (j : ℕ) (id : String) : (s.release b i).Holds j id ↔ s.Holds j id ∧ j ≠ i := by
    unfold Holds
    rw [hruns, getElem?_set_of_some hrun]
    split
    · rename_i heq
      refine iff_of_false ?_ fun h => h.2 heq.symm
      rintro ⟨_, ⟨⟩, -, hlive⟩
      exact hlive rfl
    · rename_i hne
      exact (and_iff_left (Ne.symm hne)).symm
  have hidle : ¬ s.Uses i run.scope := by
    rw [uses_iff_of_getElem? hrun]
    rintro ⟨-, -, hlive⟩
    simp [hlive] at hover
  have huses (j : ℕ) (id : String) (h : (s.release b i).Uses j id) : s.Uses j id := by
    rw [uses_set hrun hruns] at h
    split at h
    · cases h.2.2
    · exact h
  have hspoiled (id : String) (h : Spoiled b (s.release b i) id) : Spoiled b s id := by
    obtain ⟨other, hin, hid, hspoils⟩ | hspoils := h
    · rw [hruns] at hin
      obtain hin | rfl := mem_executions_set hin
      · exact .inl ⟨other, hin, hid, hspoils⟩
      · exact .inl ⟨run, List.mem_of_getElem? hrun, hid,
          hspoils.imp (fun h => ⟨hover, h.2⟩) fun h => ⟨hover, h.2⟩⟩
    · rw [hreclaims] at hspoils
      exact .inr hspoils
  have hnone (j : ℕ) : ¬ s.Uses j run.scope := by
    intro hin
    obtain ⟨entry', hentry', hhead'⟩ := (inv run.scope).uses j hin
    rw [hentry] at hentry'
    obtain rfl := Option.some.inj hentry'
    rw [hhead, Option.some.injEq, TailLink.execution.injEq] at hhead'
    exact hidle (hhead' ▸ hin)
  have hnotCleans (k : ℕ) : ¬ s.Cleans k run.scope := by
    intro hin
    obtain ⟨entry', hentry', hhead'⟩ := (inv run.scope).cleans k hin
    rw [hentry] at hentry'
    obtain rfl := Option.some.inj hentry'
    rw [hhead] at hhead'
    cases hhead'
  have htail := eq_cons_of_head? hhead
  have hnodup := (inv run.scope).nodup entry hentry
  have horder := (inv run.scope).order entry hentry
  rw [htail] at hnodup horder
  have hworks (k : ℕ) : ¬ s.Works k run.scope := by
    rw [(inv run.scope).works, hentry]
    rintro ⟨_, ⟨⟩, hin⟩
    rw [htail] at hin
    rcases List.mem_cons.mp hin with heq | hin
    · cases heq
    · exact absurd ((List.pairwise_cons.mp horder).1 _ hin rfl) (by rintro ⟨⟩)
  intro id
  by_cases hid : run.scope = id
  swap
  · refine (inv id).congr (fun j => ?_) (fun j => ?_) (fun _ _ _ => by rw [hreclaims]) (hspoiled id) ?_
    · rw [hholds]
      refine and_iff_left_of_imp ?_
      rintro ⟨other, hother, rfl, -⟩ rfl
      rw [hrun] at hother
      exact hid (congrArg CallerExecution.scope (Option.some.inj hother))
    · refine ⟨huses j id, fun hin => ?_⟩
      rw [uses_set hrun hruns, if_neg]
      · exact hin
      · rintro rfl
        exact hid ((uses_iff_of_getElem? hrun).mp hin).1
    · rw [hentries, get?_leaveEntry_of_ne s left hid]
  subst hid
  have hquarantine (h : Spoiled b (s.release b i) run.scope) : entry.quarantined = true := by
    obtain ⟨entry', hentry', hquarantined, -⟩ := (inv run.scope).barred (hspoiled _ h)
    rw [hentry] at hentry'
    obtain rfl := Option.some.inj hentry'
    exact hquarantined
  have hworks' (k : ℕ) : ¬ (s.release b i).Works k run.scope := by
    unfold Works
    rw [hreclaims]
    exact hworks k
  have hcleans' (k : ℕ) : ¬ (s.release b i).Cleans k run.scope := by
    unfold Cleans
    rw [hreclaims]
    exact hnotCleans k
  have hfresh := (inv run.scope).fresh
  have hwhole : ∀ work ∈ (s.release b i).reclaims, work.scope = run.scope →
      ¬ (work.wait = .settle ∨ work.wait = .stop) := by
    rintro work hin hscope hstate
    rw [hreclaims] at hin
    obtain ⟨k, hk⟩ := List.mem_iff_getElem?.mp hin
    refine hnotCleans k ⟨work, hk, hscope, ?_⟩
    obtain hstate | hstate := hstate <;> rw [hstate] <;> exact ⟨(by simp), (by simp)⟩
  obtain ⟨hgone, hopen⟩ | ⟨after, hafter, hafterTail, hafterQuarantined, -⟩ :=
    s.get?_leaveEntry (b := b) run.scope left
  · rw [← hentries] at hgone
    exact {
      links := fun entry' hentry' => by simp [hgone] at hentry'
      works := fun k => iff_of_false (hworks' k) (by simp [hgone])
      nodup := fun entry' hentry' => by simp [hgone] at hentry'
      order := fun entry' hentry' => by simp [hgone] at hentry'
      uses := fun j hin => absurd (huses j _ hin) (hnone j)
      cleans := fun k hin => absurd hin (hcleans' k)
      whole := fun work hin hscope hstate => absurd hstate (hwhole work hin hscope)
      fresh := hreclaims ▸ hfresh
      barred := fun h => by simp [left, hquarantine h] at hopen }
  · rw [← hentries] at hafter
    have hget {entry' : ScopeEntry} (h : (s.release b i).entries.get? run.scope = some entry') :
        entry'.tail = entry.tail.tail := by
      obtain rfl := Option.some.inj (hafter.symm.trans h)
      exact hafterTail
    constructor
    case links =>
      intro entry' hentry' j
      rw [hget hentry', hholds, ← (inv run.scope).links entry hentry, htail, List.tail_cons]
      constructor
      · intro hin
        refine ⟨List.mem_cons_of_mem _ hin, ?_⟩
        rintro rfl
        exact (List.nodup_cons.mp hnodup).1 hin
      · rintro ⟨hin, hne⟩
        rcases List.mem_cons.mp hin with heq | hin
        · exact absurd (TailLink.execution.inj heq) hne
        · exact hin
    case works =>
      refine fun k => iff_of_false (hworks' k) ?_
      rintro ⟨entry', hentry', hin⟩
      rw [hget hentry'] at hin
      exact hworks k (((inv run.scope).works k).mpr ⟨entry, hentry, List.mem_of_mem_tail hin⟩)
    case nodup => exact fun entry' hentry' => hget hentry' ▸ (List.nodup_cons.mp hnodup).2
    case order => exact fun entry' hentry' => hget hentry' ▸ (List.pairwise_cons.mp horder).2
    case uses => exact fun j hin => absurd (huses j _ hin) (hnone j)
    case cleans => exact fun k hin => absurd hin (hcleans' k)
    case whole => exact fun work hin hscope hstate => absurd hstate (hwhole work hin hscope)
    case fresh => exact hreclaims ▸ hfresh
    case barred =>
      intro h
      exact ⟨after, hafter, hafterQuarantined.trans (hquarantine h),
        fun j hin => hnone j (huses j _ hin)⟩

/-! ## Idle scopes -/

theorem SerialInvariant.idle (inv : SerialInvariant b s) (common : s.Common b) {entry : ScopeEntry}
    {generation : ℕ} (hentry : s.entries.get? id = some entry)
    (heligible : s.eligible generation entry = true) : SerialInvariant b { s with
      entries := s.entries.set id { entry with
        idleTimer := none, tail := entry.tail ++ [.reclaim s.reclaims.length] }
      reclaims := s.reclaims ++ [{ scope := id, generation }] } := by
  let link : TailLink := .reclaim s.reclaims.length
  let new : IdleReclaim := { scope := id, generation }
  let after : ScopeEntry := { entry with idleTimer := none, tail := entry.tail ++ [link] }
  let t : CallerScopedBackend := { s with
    entries := s.entries.set id after, reclaims := s.reclaims ++ [new] }
  change SerialInvariant b t
  simp only [eligible, Bool.and_eq_true, decide_eq_true_eq, Bool.not_eq_true'] at heligible
  obtain ⟨⟨⟨-, husers⟩, hopen⟩, -⟩ := heligible
  have hnone (i : ℕ) : ¬ s.Holds i id := by
    rintro ⟨run, hrun, hscope, hlive⟩
    have hpos : 0 < holders s.executions id :=
      List.countP_pos_iff.mpr ⟨run, List.mem_of_getElem? hrun, by simp [hscope, hlive]⟩
    have hcount := common.users id
    simp only [usersOf, hentry, Option.map_some, Option.getD_some, husers] at hcount
    omega
  have hspoiled (id' : String) (h : Spoiled b t id') : Spoiled b s id' := by
    obtain hspoils | ⟨work, hin, hscope, hspoils⟩ := h
    · exact .inl hspoils
    · rcases List.mem_append.mp hin with hin | hin
      · exact .inr ⟨work, hin, hscope, hspoils⟩
      · rw [List.mem_singleton.mp hin] at hspoils
        cases hspoils.1
  have hmem {work : IdleReclaim} (hin : work ∈ t.reclaims) : work ∈ s.reclaims ∨ work = new :=
    (List.mem_append.mp hin).imp_right List.mem_singleton.mp
  intro id'
  by_cases hid : id = id'
  swap
  · refine (inv id').congr (fun _ => Iff.rfl) (fun _ => Iff.rfl) (fun k work hscope => ?_)
      (hspoiled id') ?_
    · simp only [t, getElem?_append_new]
      refine or_iff_left ?_
      rintro ⟨-, rfl⟩
      exact hid hscope
    · rw [show t.entries.get? id' = s.entries.get? id' from InsertionMap.get?_set_of_ne _ _ hid]
  subst hid
  have hget : t.entries.get? id = some after := InsertionMap.get?_set_self _ _ _
  have hkept {link : TailLink}
      (h : ∃ entry, s.entries.get? id = some entry ∧ entry.tail.head? = some link) :
      ∃ entry, t.entries.get? id = some entry ∧ entry.tail.head? = some link := by
    obtain ⟨before, hbefore, hhead⟩ := h
    rw [hentry] at hbefore
    obtain rfl := Option.some.inj hbefore
    exact ⟨after, hget, head?_append_of_mem hhead⟩
  have hworks (k : ℕ) : t.Works k id ↔ s.Works k id ∨ k = s.reclaims.length := by
    simp only [Works, t, getElem?_append_new, or_and_right, exists_or]
    refine or_congr_right ⟨?_, ?_⟩
    · rintro ⟨_, ⟨hk, rfl⟩, -⟩
      exact hk
    · exact fun hk => ⟨new, ⟨hk, rfl⟩, rfl, (by simp)⟩
  have hold (k : ℕ) : s.Works k id ↔ .reclaim k ∈ entry.tail := by
    rw [(inv id).works, hentry]
    simp
  constructor
  case links =>
    intro entry' hentry' i
    obtain rfl := Option.some.inj (hget.symm.trans hentry')
    rw [show t.Holds i id ↔ s.Holds i id from Iff.rfl, ← (inv id).links entry hentry i]
    simp [after, link]
  case works =>
    intro k
    rw [hworks, hold, hget]
    simp [after, link]
  case nodup =>
    intro entry' hentry'
    obtain rfl := Option.some.inj (hget.symm.trans hentry')
    refine List.nodup_append.mpr ⟨(inv id).nodup entry hentry, List.nodup_singleton link, ?_⟩
    intro a hin b hb heq
    rw [List.mem_singleton.mp hb] at heq
    rw [heq, ← hold] at hin
    obtain ⟨work, hwork, -⟩ := hin
    simp at hwork
  case order =>
    intro entry' hentry'
    obtain rfl := Option.some.inj (hget.symm.trans hentry')
    refine List.pairwise_append.mpr
      ⟨(inv id).order entry hentry, List.pairwise_singleton _ _, fun a hin b _ ha => ?_⟩
    cases a with
    | execution i => exact absurd (((inv id).links entry hentry i).mp hin) (hnone i)
    | reclaim k => cases ha
  case uses => exact fun i hin => hkept ((inv id).uses i hin)
  case cleans =>
    rintro k ⟨work, hwork, hscope, htail, hlive⟩
    rcases getElem?_append_new.mp hwork with hwork | ⟨-, rfl⟩
    · exact hkept ((inv id).cleans k ⟨work, hwork, hscope, htail, hlive⟩)
    · exact absurd rfl htail
  case whole =>
    intro work _ _ _ entry' hentry'
    obtain rfl := Option.some.inj (hget.symm.trans hentry')
    exact hopen
  case fresh =>
    intro work hin hscope hwait
    obtain hin | rfl := hmem hin
    · exact (inv id).fresh work hin hscope hwait
    · rfl
  case barred =>
    intro hspoils
    obtain ⟨entry', hentry', hquarantined, -⟩ := (inv id).barred (hspoiled id hspoils)
    rw [hentry] at hentry'
    obtain rfl := Option.some.inj hentry'
    simp [hopen] at hquarantined

section Reclaim

variable {work new : IdleReclaim} {entry after : ScopeEntry}

theorem works_set (hwork : s.reclaims[k]? = some work) (hscope : new.scope = work.scope)
    (ht : t.reclaims = s.reclaims.set k new) (k' : ℕ) (id : String) :
    t.Works k' id ↔ if k = k' then work.scope = id ∧ new.wait ≠ .done else s.Works k' id := by
  unfold Works
  rw [ht, getElem?_set_of_some hwork]
  split
  · simp only [Option.some.injEq, exists_eq_left', hscope]
  · rfl

theorem ScopeInvariant.reclaim_elsewhere (inv : ScopeInvariant b s id)
    (hwork : s.reclaims[k]? = some work) (hscope : new.scope = work.scope)
    (hid : work.scope ≠ id) : ScopeInvariant b { s with
      reclaims := s.reclaims.set k new, entries := s.entries.set work.scope after } id := by
  refine inv.congr (fun _ => Iff.rfl) (fun _ => Iff.rfl) (fun k' other hother => ?_) ?_ ?_
  · rw [getElem?_set_of_some hwork]
    split
    · rename_i heq
      rw [← heq, hwork]
      refine iff_of_false ?_ ?_ <;> rintro ⟨⟩
      · exact hid (hscope.symm.trans hother)
      · exact hid hother
    · rfl
  · rintro (hspoils | ⟨other, hin, hother, hspoils⟩)
    · exact .inl hspoils
    · obtain hin | rfl := List.mem_or_eq_of_mem_set hin
      · exact .inr ⟨other, hin, hother, hspoils⟩
      · exact absurd (hscope.symm.trans hother) hid
  · rw [show ({ s with
      reclaims := s.reclaims.set k new, entries := s.entries.set work.scope after } :
        CallerScopedBackend).entries.get? id = s.entries.get? id
      from InsertionMap.get?_set_of_ne _ _ hid]

/-- While a reclaim is at the head, no run uses the scope, and no other reclaim has begun. -/
theorem ScopeInvariant.alone (inv : ScopeInvariant b s id)
    (hentry : s.entries.get? id = some entry) (hhead : entry.tail.head? = some (.reclaim k)) :
    (∀ i, ¬ s.Uses i id) ∧ ∀ k', s.Cleans k' id → k' = k := by
  constructor
  · intro i hin
    obtain ⟨entry', hentry', hhead'⟩ := inv.uses i hin
    rw [hentry] at hentry'
    obtain rfl := Option.some.inj hentry'
    rw [hhead] at hhead'
    cases hhead'
  · intro k' hin
    obtain ⟨entry', hentry', hhead'⟩ := inv.cleans k' hin
    rw [hentry] at hentry'
    obtain rfl := Option.some.inj hentry'
    rw [hhead, Option.some.injEq, TailLink.reclaim.injEq] at hhead'
    exact hhead'.symm

/-- A step of a reclaim that stays at the head of the queue. -/
theorem SerialInvariant.reclaim_stays (inv : SerialInvariant b s)
    (hwork : s.reclaims[k]? = some work) (hentry : s.entries.get? work.scope = some entry)
    (hhead : entry.tail.head? = some (.reclaim k)) (hscope : new.scope = work.scope)
    (hlive : work.wait ≠ .done) (hwait : new.wait ≠ .tail ∧ new.wait ≠ .done)
    (htail : after.tail = entry.tail)
    (hopen : entry.quarantined = false) (hwhole : new.wait = .settle ∨ new.wait = .stop →
      after.quarantined = false) (hspoils : new.Spoils → after.quarantined = true) :
    SerialInvariant b { s with
      reclaims := s.reclaims.set k new, entries := s.entries.set work.scope after } := by
  let t : CallerScopedBackend := { s with
    reclaims := s.reclaims.set k new, entries := s.entries.set work.scope after }
  change SerialInvariant b t
  intro id
  by_cases hid : work.scope = id
  swap
  · exact (inv id).reclaim_elsewhere hwork hscope hid
  subst hid
  have hget : t.entries.get? work.scope = some after := InsertionMap.get?_set_self _ _ _
  obtain ⟨hnone, halone⟩ := (inv work.scope).alone hentry hhead
  have hworks (k' : ℕ) : t.Works k' work.scope ↔ s.Works k' work.scope := by
    rw [works_set hwork hscope rfl]
    split
    · rename_i heq
      subst heq
      exact iff_of_true ⟨rfl, hwait.2⟩ ⟨work, hwork, rfl, hlive⟩
    · rfl
  constructor
  case links =>
    intro entry' hentry' i
    obtain rfl := Option.some.inj (hget.symm.trans hentry')
    rw [htail]
    exact (inv work.scope).links entry hentry i
  case works =>
    intro k'
    rw [hworks, (inv work.scope).works, hget, hentry]
    simp [htail]
  case nodup =>
    intro entry' hentry'
    obtain rfl := Option.some.inj (hget.symm.trans hentry')
    exact htail.symm ▸ (inv work.scope).nodup entry hentry
  case order =>
    intro entry' hentry'
    obtain rfl := Option.some.inj (hget.symm.trans hentry')
    exact htail.symm ▸ (inv work.scope).order entry hentry
  case uses => exact fun i hin => absurd hin (hnone i)
  case cleans =>
    rintro k' ⟨other, hother, hotherScope, hotherLive⟩
    rw [show t.reclaims[k']? = (s.reclaims.set k new)[k']? from rfl, getElem?_set_of_some hwork] at hother
    have heq : k' = k := by
      split at hother
      · rename_i heq
        exact heq.symm
      · exact halone k' ⟨other, hother, hotherScope, hotherLive⟩
    rw [heq]
    exact ⟨after, hget, htail.symm ▸ hhead⟩
  case whole =>
    intro other hin hotherScope hstate entry' hentry'
    obtain rfl := Option.some.inj (hget.symm.trans hentry')
    obtain ⟨k', hother⟩ := List.mem_iff_getElem?.mp hin
    rw [show t.reclaims[k']? = (s.reclaims.set k new)[k']? from rfl, getElem?_set_of_some hwork] at hother
    split at hother
    · obtain rfl := Option.some.inj hother
      exact hwhole hstate
    · rename_i hne
      refine absurd (halone k' ⟨other, hother, hotherScope, ?_⟩).symm hne
      obtain hstate | hstate := hstate <;> rw [hstate] <;> exact ⟨nofun, nofun⟩
  case fresh =>
    intro other hin hotherScope hstate
    obtain hin | rfl := List.mem_or_eq_of_mem_set hin
    · exact (inv work.scope).fresh other hin hotherScope hstate
    · exact absurd hstate hwait.1
  case barred =>
    intro h
    have hold (h : Spoiled b s work.scope) : after.quarantined = true := by
      obtain ⟨entry', hentry', hquarantined, -⟩ := (inv work.scope).barred h
      rw [hentry] at hentry'
      obtain rfl := Option.some.inj hentry'
      simp [hopen] at hquarantined
    refine ⟨after, hget, ?_, hnone⟩
    obtain hrun | ⟨other, hin, hotherScope, hother⟩ := h
    · exact hold (.inl hrun)
    · obtain hin | rfl := List.mem_or_eq_of_mem_set hin
      · exact hold (.inr ⟨other, hin, hotherScope, hother⟩)
      · exact hspoils hother

/-- The last step of a reclaim. -/
theorem SerialInvariant.reclaim_ends (inv : SerialInvariant b s)
    (hwork : s.reclaims[k]? = some work) (hentry : s.entries.get? work.scope = some entry)
    (hhead : entry.tail.head? = some (.reclaim k)) (hscope : new.scope = work.scope)
    (hdone : new.wait = .done) (htail : after.tail = entry.tail.tail)
    (hquarantined : entry.quarantined = true → after.quarantined = true)
    (hspoils : new.Spoils → work.Spoils) : SerialInvariant b { s with
      reclaims := s.reclaims.set k new, entries := s.entries.set work.scope after } := by
  let t : CallerScopedBackend := { s with
    reclaims := s.reclaims.set k new, entries := s.entries.set work.scope after }
  change SerialInvariant b t
  intro id
  by_cases hid : work.scope = id
  swap
  · exact (inv id).reclaim_elsewhere hwork hscope hid
  subst hid
  have hget : t.entries.get? work.scope = some after := InsertionMap.get?_set_self _ _ _
  obtain ⟨hnone, halone⟩ := (inv work.scope).alone hentry hhead
  have hcons := eq_cons_of_head? hhead
  have hnodup := (inv work.scope).nodup entry hentry
  have horder := (inv work.scope).order entry hentry
  rw [hcons] at hnodup horder
  have hworks (k' : ℕ) : t.Works k' work.scope ↔ s.Works k' work.scope ∧ k' ≠ k := by
    rw [works_set hwork hscope rfl]
    split
    · rename_i heq
      exact iff_of_false (fun h => h.2 hdone) fun h => h.2 heq.symm
    · rename_i hne
      exact (and_iff_left (Ne.symm hne)).symm
  have hnotCleans (k' : ℕ) : ¬ t.Cleans k' work.scope := by
    rintro ⟨other, hother, hotherScope, hotherLive⟩
    rw [show t.reclaims[k']? = (s.reclaims.set k new)[k']? from rfl, getElem?_set_of_some hwork] at hother
    split at hother
    · obtain rfl := Option.some.inj hother
      exact hotherLive.2 hdone
    · rename_i hne
      exact hne (halone k' ⟨other, hother, hotherScope, hotherLive⟩).symm
  constructor
  case links =>
    intro entry' hentry' i
    obtain rfl := Option.some.inj (hget.symm.trans hentry')
    rw [htail, show t.Holds i work.scope ↔ s.Holds i work.scope from Iff.rfl,
      ← (inv work.scope).links entry hentry, hcons]
    simp
  case works =>
    intro k'
    rw [hworks, (inv work.scope).works, hget, hentry]
    simp only [Option.some.injEq, exists_eq_left', htail]
    rw [hcons, List.tail_cons]
    constructor
    · rintro ⟨hin, hne⟩
      rcases List.mem_cons.mp hin with heq | hin
      · exact absurd (TailLink.reclaim.inj heq) hne
      · exact hin
    · intro hin
      refine ⟨List.mem_cons_of_mem _ hin, ?_⟩
      rintro rfl
      exact (List.nodup_cons.mp hnodup).1 hin
  case nodup =>
    intro entry' hentry'
    obtain rfl := Option.some.inj (hget.symm.trans hentry')
    exact htail.symm ▸ (List.nodup_cons.mp hnodup).2
  case order =>
    intro entry' hentry'
    obtain rfl := Option.some.inj (hget.symm.trans hentry')
    exact htail.symm ▸ (List.pairwise_cons.mp horder).2
  case uses => exact fun i hin => absurd hin (hnone i)
  case cleans => exact fun k' hin => absurd hin (hnotCleans k')
  case whole =>
    intro other hin hotherScope hstate
    obtain ⟨k', hother⟩ := List.mem_iff_getElem?.mp hin
    refine absurd ⟨other, hother, hotherScope, ?_⟩ (hnotCleans k')
    obtain hstate | hstate := hstate <;> rw [hstate] <;> exact ⟨nofun, nofun⟩
  case fresh =>
    intro other hin hotherScope hstate
    obtain hin | rfl := List.mem_or_eq_of_mem_set hin
    · exact (inv work.scope).fresh other hin hotherScope hstate
    · rw [hdone] at hstate
      cases hstate
  case barred =>
    intro h
    have hbefore : Spoiled b s work.scope := by
      obtain hrun | ⟨other, hin, hotherScope, hother⟩ := h
      · exact .inl hrun
      · obtain hin | rfl := List.mem_or_eq_of_mem_set hin
        · exact .inr ⟨other, hin, hotherScope, hother⟩
        · exact .inr ⟨work, List.mem_of_getElem? hwork, rfl, hspoils hother⟩
    obtain ⟨entry', hentry', hbefore, -⟩ := (inv work.scope).barred hbefore
    rw [hentry] at hentry'
    obtain rfl := Option.some.inj hentry'
    exact ⟨after, hget, hquarantined hbefore, hnone⟩

theorem SerialInvariant.reclaim (inv : SerialInvariant b s) {event : ReclaimEvent}
    (hwork : s.reclaims[k]? = some work) (hentry : s.entries.get? work.scope = some entry)
    (hwait : work.wait = event.wait)
    (htail : work.wait = .tail → entry.tail.head? = some (.reclaim k)) :
    SerialInvariant b { s with
      reclaims := s.reclaims.set k (s.reclaimStep work entry event).1
      entries := s.entries.set work.scope (s.reclaimStep work entry event).2 } := by
  have hin := List.mem_of_getElem? hwork
  have hhead : entry.tail.head? = some (.reclaim k) := by
    by_cases hqueue : work.wait = .tail
    · exact htail hqueue
    · have hcleans : s.Cleans k work.scope :=
        ⟨work, hwork, rfl, hqueue, by rw [hwait]; cases event <;> nofun⟩
      obtain ⟨entry', hentry', hhead⟩ := (inv work.scope).cleans k hcleans
      rw [hentry] at hentry'
      obtain rfl := Option.some.inj hentry'
      exact hhead
  have hlive : work.wait ≠ .done := by
    rw [hwait]
    cases event <;> nofun
  cases event with
  | start healthy stop close =>
      unfold reclaimStep
      dsimp only
      split
      · rename_i heligible
        simp only [eligible, Bool.and_eq_true, Bool.not_eq_true'] at heligible
        refine inv.reclaim_stays hwork hentry hhead rfl hlive ⟨nofun, nofun⟩ rfl heligible.1.2
          (fun _ => heligible.1.2) ?_
        rintro ⟨-, hstate | hstate⟩ <;> cases hstate
      · refine inv.reclaim_ends hwork hentry hhead rfl rfl rfl id ?_
        rintro ⟨hfailed, -⟩
        have hfresh := (inv work.scope).fresh work hin rfl hwait
        rw [show work.failed = true from hfailed] at hfresh
        cases hfresh
  | settled failed =>
      have hopen := (inv work.scope).whole work hin rfl (.inl hwait) entry hentry
      refine inv.reclaim_stays hwork hentry hhead rfl hlive ⟨nofun, nofun⟩ rfl hopen
        (fun _ => hopen) ?_
      rintro ⟨-, hstate | hstate⟩ <;> cases hstate
  | stopped failed =>
      have hopen := (inv work.scope).whole work hin rfl (.inr hwait) entry hentry
      exact inv.reclaim_stays hwork hentry hhead rfl hlive ⟨nofun, nofun⟩ rfl hopen
        (Or.elim · nofun nofun) fun hspoils => hspoils.1
  | recorded failed =>
      refine inv.reclaim_ends hwork hentry hhead rfl rfl rfl (fun h => by simp [reclaimStep, h]) ?_
      exact fun hspoils => ⟨hspoils.1, .inl hwait⟩

end Reclaim

theorem SerialInvariant.changes (inv : SerialInvariant b s) (common : s.Common b)
    (hb : b.concurrency = none) (h : Changes b s t) : SerialInvariant b t := by
  cases h with
  | same => exact inv
  | refused code message => exact inv.refuse code message
  | admitted id context entry hentry hopen => exact inv.admitRun common hb hentry hopen
  | quiet i run run' hrun h scheduler _ => exact inv.quiet hrun h scheduler
  | turned i run entry event after hrun hentry hwait hadmissible h =>
      exact inv.turned hb hrun hentry hwait hadmissible h
  | released i run entry hrun hentry hwait hhead =>
      exact inv.release hrun hentry hwait (hhead (by simp [hb]))
  | idled id entry generation _ hentry heligible => exact inv.idle common hentry heligible
  | reclaimed k work entry event hwork hentry hwait hhead =>
      exact inv.reclaim hwork hentry hwait hhead
  | stopped => exact inv.stop

theorem serialInvariant_initializeScopes (b : CallerBackendOptions) (ids : List String) :
    SerialInvariant b (initializeScopes ids) := by
  intro id
  have htail {entry : ScopeEntry} (h : (initializeScopes ids).entries.get? id = some entry) :
      entry.tail = [] := by
    rw [get?_initializeScopes] at h
    split at h
    · obtain rfl := Option.some.inj h
      rfl
    · cases h
  constructor
  case links =>
    intro entry hentry i
    rw [htail hentry]
    exact iff_of_false nofun (by simp [Holds, initializeScopes])
  case works =>
    refine fun k => iff_of_false (by simp [Works, initializeScopes]) ?_
    rintro ⟨entry, hentry, hin⟩
    simp [htail hentry] at hin
  case nodup => exact fun entry hentry => htail hentry ▸ List.nodup_nil
  case order => exact fun entry hentry => htail hentry ▸ List.Pairwise.nil
  all_goals simp [Uses, Cleans, Spoiled, initializeScopes]

end CallerScopedBackend

end VicoopBridge
