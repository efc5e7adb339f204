import VicoopBridge.Library.Transition
import VicoopBridge.Model.OpenclawRouting

/-! # The routing tables

As long as no task is registered twice and the gateway gives every run an id of its own, the
tables hold what the registered runs need, and nothing else. -/

namespace VicoopBridge

open Library

namespace OpenclawGateway

variable {s t : OpenclawGateway}

/-- The run is registered. -/
def Active (s : OpenclawGateway) (k : ℕ) (run : GatewayRun) : Prop :=
  s.runs[k]? = some run ∧ run.phase ≠ .returned

/-- No other run has the id. -/
def Fresh (s : OpenclawGateway) (runId : String) : Prop :=
  ∀ run ∈ s.runs, run.gatewayRunId ≠ some runId

theorem Fresh.of_getElem {runId : String} (h : s.Fresh runId) {k : ℕ} {run : GatewayRun}
    (hk : s.runs[k]? = some run) : run.gatewayRunId ≠ some runId :=
  h run (List.mem_of_getElem? hk)

structure Ids (s : OpenclawGateway) : Prop where
  distinct : ∀ (j k : ℕ) (run run' : GatewayRun) (r : String), s.runs[j]? = some run →
    s.runs[k]? = some run' → run.gatewayRunId = some r → run'.gatewayRunId = some r → j = k
  known : ∀ (k : ℕ) (run : GatewayRun) (r : String), s.runs[k]? = some run → run.runId = some r →
    run.gatewayRunId = some r ∧ r ≠ ""
  active : ∀ k run, s.Active k run → run.gatewayRunId = run.runId
  sending : ∀ (k : ℕ) (run : GatewayRun), s.runs[k]? = some run → run.phase = .sending →
    run.runId = none

structure Tables (s : OpenclawGateway) : Prop where
  finalizers : ∀ taskId k, s.taskFinalizers.get? taskId = some k ↔
    ∃ run, s.Active k run ∧ run.taskId = taskId
  bindings : ∀ r b, s.runToTask.get? r = some b ↔ ∃ k run, s.Active k run ∧ run.runId = some r ∧
    b = { taskId := run.taskId, sessionKey := run.sessionKey }
  owners : ∀ key o, s.sessionMessageOwners.get? key = some o ↔ ∃ run, s.Active o.run run ∧
    run.ownedSession = true ∧ run.sessionKey = key ∧ run.taskId = o.taskId ∧
    run.connection = s.connection ∧ s.ready = true

/-- A task has one registered run. -/
theorem Tables.unique (tables : s.Tables) {j k : ℕ} {run run' : GatewayRun} (hj : s.Active j run)
    (hk : s.Active k run') (h : run.taskId = run'.taskId) : j = k := by
  have hj' := (tables.finalizers run.taskId j).mpr ⟨run, hj, rfl⟩
  have hk' := (tables.finalizers run.taskId k).mpr ⟨run', hk, h.symm⟩
  exact Option.some.inj (hj'.symm.trans hk')

/-! ## Changing one run -/

theorem getElem?_modify_run {runs : List GatewayRun} {f : GatewayRun → GatewayRun} {j k : ℕ}
    {run : GatewayRun} : (runs.modify k f)[j]? = some run ↔
      ∃ before, runs[j]? = some before ∧ run = if k = j then f before else before := by
  rw [List.getElem?_modify]
  exact Option.map_eq_some_iff.trans
    (exists_congr fun before => and_congr_right fun _ => eq_comm)

theorem getElem?_append_run {runs : List GatewayRun} {new run : GatewayRun} {j : ℕ} :
    (runs ++ [new])[j]? = some run ↔
      runs[j]? = some run ∨ j = runs.length ∧ run = new := by
  by_cases h : j < runs.length
  · simp [List.getElem?_append_left h, h.ne]
  · obtain hlt | rfl := Nat.lt_or_eq_of_le (Nat.le_of_not_lt h)
    · have hnone : (runs ++ [new])[j]? = none := by
        rw [List.getElem?_eq_none_iff, List.length_append]
        exact hlt
      have hnone' : runs[j]? = none := List.getElem?_eq_none_iff.mpr hlt.le
      simp [hnone, hnone', hlt.ne']
    · simp [eq_comm]

theorem lt_length_of_getElem {k : ℕ} {run : GatewayRun} (h : s.runs[k]? = some run) :
    k < s.runs.length :=
  (List.getElem?_eq_some_iff.mp h).1

/-! ## Ids -/

/-- The runs are as before, or have changed in what the ids do not depend on. -/
theorem Ids.congr (ids : s.Ids) (hruns : t.runs = s.runs) : t.Ids := by
  constructor
  · rw [hruns]
    exact ids.distinct
  · rw [hruns]
    exact ids.known
  · intro k run h
    rw [Active, hruns] at h
    exact ids.active k run h
  · rw [hruns]
    exact ids.sending

theorem Ids.addRun (ids : s.Ids) {run : GatewayRun} (hrunId : run.runId = none)
    (hgateway : run.gatewayRunId = none) : (s.addRun run).Ids := by
  constructor
  · intro j k run₁ run₂ r hj hk hr hr'
    obtain hj | ⟨-, rfl⟩ := getElem?_append_run.mp hj
    · obtain hk | ⟨-, rfl⟩ := getElem?_append_run.mp hk
      · exact ids.distinct j k run₁ run₂ r hj hk hr hr'
      · simp [hgateway] at hr'
    · simp [hgateway] at hr
  · intro k run' r hk hr
    obtain hk | ⟨-, rfl⟩ := getElem?_append_run.mp hk
    · exact ids.known k run' r hk hr
    · simp [hrunId] at hr
  · rintro k run' ⟨hk, hphase⟩
    obtain hk | ⟨-, rfl⟩ := getElem?_append_run.mp hk
    · exact ids.active k run' ⟨hk, hphase⟩
    · rw [hrunId, hgateway]
  · intro k run' hk hphase
    obtain hk | ⟨-, rfl⟩ := getElem?_append_run.mp hk
    · exact ids.sending k run' hk hphase
    · exact hrunId

/-- One run has changed, keeps its id or has one of its own, and is as the tables expect it. -/
theorem Ids.modify (ids : s.Ids) {k : ℕ} {f : GatewayRun → GatewayRun}
    (hruns : t.runs = s.runs.modify k f)
    (hid : (∀ run, (f run).gatewayRunId = run.gatewayRunId) ∨
      ∃ id, (∀ run, (f run).gatewayRunId = id) ∧ ∀ r ∈ id, s.Fresh r)
    (hf : ∀ run, s.runs[k]? = some run →
      (∀ r, (f run).runId = some r → (f run).gatewayRunId = some r ∧ r ≠ "") ∧
        ((f run).phase ≠ .returned → (f run).gatewayRunId = (f run).runId) ∧
          ((f run).phase = .sending → (f run).runId = none)) : t.Ids := by
  have hcases {j : ℕ} {run : GatewayRun} (hj : t.runs[j]? = some run) :
      (k = j ∧ ∃ before, s.runs[k]? = some before ∧ run = f before) ∨
        k ≠ j ∧ s.runs[j]? = some run := by
    obtain ⟨before, hj', rfl⟩ := getElem?_modify_run.mp (hruns ▸ hj)
    by_cases heq : k = j
    · exact .inl ⟨heq, before, heq ▸ hj', if_pos heq⟩
    · exact .inr ⟨heq, by rwa [if_neg heq]⟩
  constructor
  · intro i j run run' r hi hj hr hr'
    obtain ⟨rfl, before, hi', rfl⟩ | ⟨-, hi'⟩ := hcases hi
    · obtain ⟨rfl, -⟩ | ⟨-, hj'⟩ := hcases hj
      · rfl
      obtain hsame | ⟨id, hnew, hfresh⟩ := hid
      · exact ids.distinct k j before run' r hi' hj' (hsame before ▸ hr) hr'
      · exact absurd hr' ((hfresh r (hnew before ▸ hr)).of_getElem hj')
    · obtain ⟨rfl, before, hj', rfl⟩ | ⟨-, hj'⟩ := hcases hj
      · obtain hsame | ⟨id, hnew, hfresh⟩ := hid
        · exact ids.distinct i k run before r hi' hj' hr (hsame before ▸ hr')
        · exact absurd hr ((hfresh r (hnew before ▸ hr')).of_getElem hi')
      · exact ids.distinct i j run run' r hi' hj' hr hr'
  · intro j run r hj hr
    obtain ⟨-, before, hk, rfl⟩ | ⟨-, hj'⟩ := hcases hj
    · exact (hf before hk).1 r hr
    · exact ids.known j run r hj' hr
  · rintro j run ⟨hj, hphase⟩
    obtain ⟨-, before, hk, rfl⟩ | ⟨-, hj'⟩ := hcases hj
    · exact (hf before hk).2.1 hphase
    · exact ids.active j run ⟨hj', hphase⟩
  · intro j run hj hphase
    obtain ⟨-, before, hk, rfl⟩ | ⟨-, hj'⟩ := hcases hj
    · exact (hf before hk).2.2 hphase
    · exact ids.sending j run hj' hphase

theorem Ids.cleanup (ids : s.Ids) (k : ℕ) (run : GatewayRun) : (s.cleanup k run).Ids :=
  ids.modify rfl (.inl fun _ => rfl) fun before hk =>
    ⟨fun r => ids.known k before r hk, by simp, by simp⟩

theorem Ids.acked (ids : s.Ids) (k : ℕ) (run : GatewayRun) {runId : String} (hne : runId ≠ "")
    (hfresh : s.Fresh runId) : (s.acked k run runId).Ids := by
  refine ids.modify rfl (.inr ⟨some runId, fun _ => rfl, ?_⟩) fun before _ => ⟨?_, by simp, by simp⟩
  · exact fun r hr => Option.some.inj hr ▸ hfresh
  · exact fun r hr => ⟨hr, Option.some.inj hr ▸ hne⟩

theorem Ids.sendFailed (ids : s.Ids) {k : ℕ} {run : GatewayRun} (hk : s.runs[k]? = some run)
    (hrunId : run.runId = none) {started : Option String} (hfresh : ∀ r ∈ started, s.Fresh r) :
    (s.sendFailed k run started).Ids := by
  refine (ids.cleanup k run).modify rfl (.inr ⟨started, fun _ => rfl, fun r hr => ?_⟩)
    fun before hbefore => ?_
  · intro run' hmem
    obtain ⟨j, hj⟩ := List.mem_iff_getElem?.mp hmem
    obtain ⟨before, hj', rfl⟩ := getElem?_modify_run.mp hj
    simpa [apply_ite GatewayRun.gatewayRunId] using (hfresh r hr).of_getElem hj'
  · -- The run has returned before its id was known.
    obtain ⟨before', hj', rfl⟩ := getElem?_modify_run.mp hbefore
    obtain rfl := Option.some.inj (hk.symm.trans hj')
    simp [hrunId]

/-! ## Registered runs -/

theorem active_addRun {run : GatewayRun} (hrun : run.phase ≠ .returned) {j : ℕ} {run' : GatewayRun} :
    (s.addRun run).Active j run' ↔ s.Active j run' ∨ j = s.runs.length ∧ run' = run := by
  constructor
  · rintro ⟨hj, hphase⟩
    exact (getElem?_append_run.mp hj).imp (⟨·, hphase⟩) id
  · rintro (⟨hj, hphase⟩ | ⟨rfl, rfl⟩)
    · exact ⟨getElem?_append_run.mpr (.inl hj), hphase⟩
    · exact ⟨getElem?_append_run.mpr (.inr ⟨rfl, rfl⟩), hrun⟩

theorem active_cleanup {k : ℕ} {run : GatewayRun} {j : ℕ} {run' : GatewayRun} :
    (s.cleanup k run).Active j run' ↔ s.Active j run' ∧ j ≠ k := by
  constructor
  · rintro ⟨hj, hphase⟩
    obtain ⟨before, hj', rfl⟩ := getElem?_modify_run.mp hj
    by_cases heq : k = j
    · simp [heq] at hphase
    · rw [if_neg heq] at hphase ⊢
      exact ⟨⟨hj', hphase⟩, Ne.symm heq⟩
  · rintro ⟨⟨hj, hphase⟩, hne⟩
    exact ⟨getElem?_modify_run.mpr ⟨run', hj, by rw [if_neg hne.symm]⟩, hphase⟩

theorem active_sendFailed {k : ℕ} {run : GatewayRun} {started : Option String} {j : ℕ}
    {run' : GatewayRun} :
    (s.sendFailed k run started).Active j run' ↔ (s.cleanup k run).Active j run' := by
  constructor
  · rintro ⟨hj, hphase⟩
    obtain ⟨before, hj', rfl⟩ := getElem?_modify_run.mp hj
    by_cases heq : k = j
    · rw [if_pos heq] at hphase
      exact absurd heq.symm (active_cleanup.mp ⟨hj', hphase⟩).2
    · rw [if_neg heq] at hphase ⊢
      exact ⟨hj', hphase⟩
  · intro h
    have hne := (active_cleanup.mp h).2
    exact ⟨getElem?_modify_run.mpr ⟨run', h.1, by rw [if_neg hne.symm]⟩, h.2⟩

theorem active_acked {k : ℕ} {run : GatewayRun} (hk : s.Active k run) {runId : String} {j : ℕ}
    {run' : GatewayRun} :
    (s.acked k run runId).Active j run' ↔ ∃ before, s.Active j before ∧ run' = if k = j then
      { before with phase := .settling, runId := some runId, gatewayRunId := some runId }
      else before := by
  constructor
  · rintro ⟨hj, hphase⟩
    obtain ⟨before, hj', rfl⟩ := getElem?_modify_run.mp hj
    refine ⟨before, ⟨hj', ?_⟩, rfl⟩
    by_cases heq : k = j
    · obtain rfl := Option.some.inj ((heq ▸ hk.1).symm.trans hj')
      exact hk.2
    · rwa [if_neg heq] at hphase
  · rintro ⟨before, ⟨hj, hphase⟩, rfl⟩
    refine ⟨getElem?_modify_run.mpr ⟨before, hj, rfl⟩, ?_⟩
    split
    · simp
    · exact hphase

/-! ## The tables -/

theorem Tables.congr (tables : s.Tables) (hactive : ∀ k run, t.Active k run ↔ s.Active k run)
    (hfinalizers : ∀ taskId, t.taskFinalizers.get? taskId = s.taskFinalizers.get? taskId)
    (hbindings : ∀ r, t.runToTask.get? r = s.runToTask.get? r)
    (howners : ∀ key, t.sessionMessageOwners.get? key = s.sessionMessageOwners.get? key)
    (hconnection : t.connection = s.connection) (hready : t.ready = s.ready) : t.Tables := by
  constructor
  · intro taskId k
    rw [hfinalizers, tables.finalizers]
    simp only [hactive]
  · intro r b
    rw [hbindings, tables.bindings]
    simp only [hactive]
  · intro key o
    rw [howners, tables.owners, hconnection, hready]
    simp only [hactive]

theorem cleanup_runToTask {k : ℕ} {run : GatewayRun} (hne : ∀ r, run.runId = some r → r ≠ "")
    (r : String) : (s.cleanup k run).runToTask.get? r =
      if run.runId = some r then none else s.runToTask.get? r := by
  cases hrunId : run.runId with
  | none => simp [OpenclawGateway.cleanup, hrunId]
  | some runId =>
      simp [OpenclawGateway.cleanup, hrunId, Option.filter, hne runId hrunId,
        InsertionMap.get?_erase]

theorem cleanup_pendingRunEvents {k : ℕ} {run : GatewayRun}
    (hne : ∀ r, run.runId = some r → r ≠ "") (r : String) :
    (s.cleanup k run).pendingRunEvents.get? r =
      if run.runId = some r then none else s.pendingRunEvents.get? r := by
  cases hrunId : run.runId with
  | none => simp [OpenclawGateway.cleanup, hrunId]
  | some runId =>
      simp [OpenclawGateway.cleanup, hrunId, Option.filter, hne runId hrunId,
        InsertionMap.get?_erase]

/-- The owner is released by the run that it is. -/
theorem Tables.releases (tables : s.Tables) {k : ℕ} {run : GatewayRun} (hk : s.Active k run)
    (key : String) (o : SessionMessageOwner) :
    (s.cleanup k run).sessionMessageOwners.get? key = some o ↔
      s.sessionMessageOwners.get? key = some o ∧ o.run ≠ k := by
  by_cases hrelease : run.ownedSession ∧
      (s.sessionMessageOwners.get? run.sessionKey).map SessionMessageOwner.taskId =
        some run.taskId
  · have hget : (s.cleanup k run).sessionMessageOwners.get? key =
        if run.sessionKey = key then none else s.sessionMessageOwners.get? key := by
      have howners : (s.cleanup k run).sessionMessageOwners =
          s.sessionMessageOwners.erase run.sessionKey := if_pos hrelease
      rw [howners, InsertionMap.get?_erase]
    obtain ⟨owner, howner, htask⟩ := Option.map_eq_some_iff.mp hrelease.2
    obtain ⟨run', hactive, -, -, htask', -, -⟩ := (tables.owners run.sessionKey owner).mp howner
    have hrun := tables.unique hactive hk (htask'.trans htask)
    rw [hget]
    by_cases hkey : run.sessionKey = key
    · subst hkey
      rw [if_pos rfl, howner]
      constructor
      · exact fun h => absurd h (by simp)
      · rintro ⟨h, hne⟩
        exact absurd hrun (Option.some.inj h ▸ hne)
    · rw [if_neg hkey]
      refine ⟨fun h => ⟨h, fun heq => ?_⟩, And.left⟩
      obtain ⟨run₁, hactive₁, -, hkey₁, -, -, -⟩ := (tables.owners key o).mp h
      rw [heq] at hactive₁
      obtain rfl := Option.some.inj (hactive₁.1.symm.trans hk.1)
      exact hkey hkey₁
  · have howners : (s.cleanup k run).sessionMessageOwners = s.sessionMessageOwners :=
      if_neg hrelease
    rw [howners]
    refine ⟨fun h => ⟨h, fun heq => ?_⟩, And.left⟩
    obtain ⟨run₁, hactive₁, howned, hkey₁, htask, -, -⟩ := (tables.owners key o).mp h
    rw [heq] at hactive₁
    obtain rfl := Option.some.inj (hactive₁.1.symm.trans hk.1)
    exact hrelease ⟨howned, by rw [hkey₁, h, Option.map_some, htask]⟩

/-- The end of a run takes out what the run has put in. -/
theorem Tables.cleanup (tables : s.Tables) (ids : s.Ids) {k : ℕ} {run : GatewayRun}
    (hk : s.Active k run) : (s.cleanup k run).Tables := by
  have hne (r : String) (hr : run.runId = some r) : r ≠ "" := (ids.known k run r hk.1 hr).2
  constructor
  · intro taskId j
    have hget : (s.cleanup k run).taskFinalizers.get? taskId =
        if run.taskId = taskId then none else s.taskFinalizers.get? taskId :=
      InsertionMap.get?_erase ..
    simp only [active_cleanup]
    rw [hget]
    by_cases htask : run.taskId = taskId
    · rw [if_pos htask]
      refine ⟨fun h => absurd h (by simp), ?_⟩
      rintro ⟨run', ⟨hactive, hj⟩, htask'⟩
      exact absurd (tables.unique hactive hk (htask'.trans htask.symm)) hj
    · rw [if_neg htask, tables.finalizers]
      refine exists_congr fun run' => ⟨fun h => ⟨⟨h.1, ?_⟩, h.2⟩, fun h => ⟨h.1.1, h.2⟩⟩
      rintro rfl
      obtain rfl := Option.some.inj (h.1.1.symm.trans hk.1)
      exact htask h.2
  · intro r b
    simp only [active_cleanup]
    rw [cleanup_runToTask hne]
    by_cases hr : run.runId = some r
    · rw [if_pos hr]
      refine ⟨fun h => absurd h (by simp), ?_⟩
      rintro ⟨j, run', ⟨hactive, hj⟩, hr', -⟩
      exact absurd (ids.distinct j k run' run r hactive.1 hk.1 (ids.known j run' r hactive.1 hr').1
        (ids.known k run r hk.1 hr).1) hj
    · rw [if_neg hr, tables.bindings]
      refine exists_congr fun j => exists_congr fun run' =>
        ⟨fun h => ⟨⟨h.1, ?_⟩, h.2⟩, fun h => ⟨h.1.1, h.2⟩⟩
      rintro rfl
      obtain rfl := Option.some.inj (h.1.1.symm.trans hk.1)
      exact hr h.2.1
  · intro key o
    simp only [active_cleanup]
    rw [tables.releases hk, tables.owners]
    constructor
    · rintro ⟨⟨run', hactive, hrest⟩, hne⟩
      exact ⟨run', ⟨hactive, hne⟩, hrest⟩
    · rintro ⟨run', ⟨hactive, hne⟩, hrest⟩
      exact ⟨⟨run', hactive, hrest⟩, hne⟩

theorem Tables.sendFailed (tables : s.Tables) (ids : s.Ids) {k : ℕ} {run : GatewayRun}
    (hk : s.Active k run) (started : Option String) : (s.sendFailed k run started).Tables :=
  (tables.cleanup ids hk).congr (fun _ _ => active_sendFailed) (fun _ => rfl) (fun _ => rfl)
    (fun _ => rfl) rfl rfl

/-- No other run of the task is registered. -/
theorem Tables.addRun (tables : s.Tables) {run : GatewayRun} (hphase : run.phase ≠ .returned)
    (hrunId : run.runId = none) (htask : ∀ k run', s.Active k run' → run'.taskId ≠ run.taskId)
    (howned : run.ownedSession = true → s.sessionMessageOwners.get? run.sessionKey = none)
    (hconnection : run.connection = s.connection) (hready : s.ready = true) :
    (s.addRun run).Tables := by
  constructor
  · intro taskId j
    have hget : (s.addRun run).taskFinalizers.get? taskId =
        if run.taskId = taskId then some s.runs.length else s.taskFinalizers.get? taskId :=
      InsertionMap.get?_set ..
    simp only [active_addRun hphase]
    rw [hget]
    by_cases heq : run.taskId = taskId
    · rw [if_pos heq]
      constructor
      · intro h
        exact ⟨run, .inr ⟨(Option.some.inj h).symm, rfl⟩, heq⟩
      · rintro ⟨run', hactive | ⟨rfl, -⟩, htask'⟩
        · exact absurd (htask'.trans heq.symm) (htask j run' hactive)
        · rfl
    · rw [if_neg heq, tables.finalizers]
      refine exists_congr fun run' => ⟨fun h => ⟨.inl h.1, h.2⟩, ?_⟩
      rintro ⟨hactive | ⟨rfl, rfl⟩, htask'⟩
      · exact ⟨hactive, htask'⟩
      · exact absurd htask' heq
  · intro r b
    simp only [active_addRun hphase]
    refine (tables.bindings r b).trans ?_
    refine exists_congr fun j => exists_congr fun run' => ⟨fun h => ⟨.inl h.1, h.2⟩, ?_⟩
    rintro ⟨hactive | ⟨rfl, rfl⟩, hr, hb⟩
    · exact ⟨hactive, hr, hb⟩
    · simp [hrunId] at hr
  · intro key o
    have hbefore : (∃ run', s.Active o.run run' ∧ run'.ownedSession = true ∧ run'.sessionKey = key ∧
        run'.taskId = o.taskId ∧ run'.connection = s.connection ∧ s.ready = true) →
        o.run ≠ s.runs.length := by
      rintro ⟨run', hactive, -⟩
      exact (lt_length_of_getElem hactive.1).ne
    simp only [active_addRun hphase]
    by_cases hown : run.ownedSession = true
    · have hget : (s.addRun run).sessionMessageOwners.get? key =
          if run.sessionKey = key then some { taskId := run.taskId, run := s.runs.length }
          else s.sessionMessageOwners.get? key := by
        have howners : (s.addRun run).sessionMessageOwners = s.sessionMessageOwners.set
            run.sessionKey { taskId := run.taskId, run := s.runs.length } := if_pos hown
        rw [howners, InsertionMap.get?_set]
      rw [hget]
      by_cases hkey : run.sessionKey = key
      · rw [if_pos hkey]
        constructor
        · intro h
          obtain rfl := Option.some.inj h
          exact ⟨run, .inr ⟨rfl, rfl⟩, hown, hkey, rfl, hconnection, hready⟩
        · rintro ⟨run', hactive | ⟨hlength, rfl⟩, hown', hkey', htask', hrest⟩
          · have hnone := howned hown
            rw [hkey, (tables.owners key o).mpr ⟨run', hactive, hown', hkey', htask', hrest⟩] at hnone
            cases hnone
          · cases o
            simp only at hlength htask'
            rw [hlength, htask']
      · rw [if_neg hkey, tables.owners]
        refine exists_congr fun run' => ⟨fun h => ⟨.inl h.1, h.2⟩, ?_⟩
        rintro ⟨hactive | ⟨-, rfl⟩, hrest⟩
        · exact ⟨hactive, hrest⟩
        · exact absurd hrest.2.1 hkey
    · have howners : (s.addRun run).sessionMessageOwners = s.sessionMessageOwners := if_neg hown
      rw [howners, tables.owners]
      refine exists_congr fun run' => ⟨fun h => ⟨.inl h.1, h.2⟩, ?_⟩
      rintro ⟨hactive | ⟨-, rfl⟩, hrest⟩
      · exact ⟨hactive, hrest⟩
      · exact absurd hrest.1 hown

/-- A run that finds its connection closed leaves nothing. -/
theorem Tables.addRun_cleanup (tables : s.Tables) {run : GatewayRun} (hphase : run.phase ≠ .returned)
    (hrunId : run.runId = none) (htask : ∀ k run', s.Active k run' → run'.taskId ≠ run.taskId)
    (howned : run.ownedSession = true → s.sessionMessageOwners.get? run.sessionKey = none) :
    ((s.addRun run).cleanup s.runs.length run).Tables := by
  refine tables.congr (fun k run' => ?_) (fun taskId => ?_) (fun r => ?_) (fun key => ?_) rfl rfl
  · rw [active_cleanup, active_addRun hphase]
    constructor
    · rintro ⟨hactive | ⟨hk, -⟩, hne⟩
      · exact hactive
      · exact absurd hk hne
    · exact fun hactive => ⟨.inl hactive, (lt_length_of_getElem hactive.1).ne⟩
  · have hget : ((s.addRun run).cleanup s.runs.length run).taskFinalizers.get? taskId =
        if run.taskId = taskId then none else (s.addRun run).taskFinalizers.get? taskId :=
      InsertionMap.get?_erase ..
    rw [hget]
    by_cases heq : run.taskId = taskId
    · rw [if_pos heq, eq_comm, Option.eq_none_iff_forall_ne_some]
      intro k hk
      obtain ⟨run', hactive, htask'⟩ := (tables.finalizers taskId k).mp hk
      exact htask k run' hactive (htask'.trans heq.symm)
    · rw [if_neg heq]
      exact InsertionMap.get?_set_of_ne _ _ heq
  · rw [cleanup_runToTask (by simp [hrunId]), if_neg (by simp [hrunId])]
    rfl
  · by_cases hown : run.ownedSession = true
    · have hadded : (s.addRun run).sessionMessageOwners = s.sessionMessageOwners.set
          run.sessionKey { taskId := run.taskId, run := s.runs.length } := if_pos hown
      have hreleased : ((s.addRun run).cleanup s.runs.length run).sessionMessageOwners =
          (s.addRun run).sessionMessageOwners.erase run.sessionKey :=
        if_pos ⟨hown, by rw [hadded, InsertionMap.get?_set_self, Option.map_some]⟩
      rw [hreleased, InsertionMap.get?_erase, hadded]
      by_cases hkey : run.sessionKey = key
      · rw [if_pos hkey, ← hkey, howned hown]
      · rw [if_neg hkey, InsertionMap.get?_set_of_ne _ _ hkey]
    · have hadded : (s.addRun run).sessionMessageOwners = s.sessionMessageOwners := if_neg hown
      have hreleased : ((s.addRun run).cleanup s.runs.length run).sessionMessageOwners =
          (s.addRun run).sessionMessageOwners := if_neg fun h => hown h.1
      rw [hreleased, hadded]

theorem Tables.acked (tables : s.Tables) (ids : s.Ids) {k : ℕ} {run : GatewayRun}
    (hk : s.Active k run) (hrunId : run.runId = none) {runId : String} (hfresh : s.Fresh runId) :
    (s.acked k run runId).Tables := by
  -- What the tables read of a run is as before, its id aside.
  have hkeeps {P : GatewayRun → Prop} (hP : ∀ before : GatewayRun,
      P { before with phase := .settling, runId := some runId, gatewayRunId := some runId } ↔
        P before) (j : ℕ) :
      (∃ run', (s.acked k run runId).Active j run' ∧ P run') ↔
        ∃ run', s.Active j run' ∧ P run' := by
    simp only [active_acked hk]
    constructor
    · rintro ⟨-, ⟨before, hactive, rfl⟩, h⟩
      refine ⟨before, hactive, ?_⟩
      split at h
      · exact (hP before).mp h
      · exact h
    · rintro ⟨before, hactive, h⟩
      refine ⟨_, ⟨before, hactive, rfl⟩, ?_⟩
      split
      · exact (hP before).mpr h
      · exact h
  constructor
  · intro taskId j
    exact (tables.finalizers taskId j).trans
      (hkeeps (P := fun run' => run'.taskId = taskId) (fun _ => Iff.rfl) j).symm
  · intro r b
    have hget : (s.acked k run runId).runToTask.get? r = if runId = r then
        some { taskId := run.taskId, sessionKey := run.sessionKey } else s.runToTask.get? r :=
      InsertionMap.get?_set ..
    simp only [active_acked hk]
    rw [hget]
    by_cases heq : runId = r
    · subst heq
      rw [if_pos rfl]
      constructor
      · intro h
        refine ⟨k, _, ⟨run, hk, rfl⟩, ?_⟩
        rw [if_pos rfl]
        exact ⟨rfl, (Option.some.inj h).symm⟩
      · rintro ⟨j, -, ⟨before, hactive, rfl⟩, hr, rfl⟩
        by_cases hj : k = j
        · subst hj
          obtain rfl := Option.some.inj (hk.1.symm.trans hactive.1)
          simp
        · rw [if_neg hj] at hr
          exact absurd ((ids.active j before hactive).trans hr) (hfresh.of_getElem hactive.1)
    · rw [if_neg heq, tables.bindings]
      constructor
      · rintro ⟨j, before, hactive, hr, hb⟩
        have hj : k ≠ j := by
          rintro rfl
          obtain rfl := Option.some.inj (hk.1.symm.trans hactive.1)
          simp [hrunId] at hr
        exact ⟨j, before, ⟨before, hactive, by rw [if_neg hj]⟩, hr, hb⟩
      · rintro ⟨j, -, ⟨before, hactive, rfl⟩, hr, hb⟩
        by_cases hj : k = j
        · rw [if_pos hj] at hr
          exact absurd (Option.some.inj hr) heq
        · rw [if_neg hj] at hr hb
          exact ⟨j, before, hactive, hr, hb⟩
  · intro key o
    exact (tables.owners key o).trans
      (hkeeps (P := fun run' => run'.ownedSession = true ∧ run'.sessionKey = key ∧
        run'.taskId = o.taskId ∧ run'.connection = s.connection ∧ s.ready = true)
          (fun _ => Iff.rfl) o.run).symm

theorem Tables.close (tables : s.Tables) (message : String) :
    (s.handleGatewayClose message).Tables where
  finalizers := tables.finalizers
  bindings := tables.bindings
  owners key o := by simp [handleGatewayClose]

theorem Tables.connect (tables : s.Tables)
    (hconnection : ∀ k run, s.Active k run → run.connection ≤ s.connection)
    (hready : s.ready = false) :
    { s with connection := s.connection + 1, ready := true }.Tables where
  finalizers := tables.finalizers
  bindings := tables.bindings
  owners key o := by
    refine (tables.owners key o).trans ?_
    constructor
    · rintro ⟨run, -, -, -, -, -, h⟩
      simp [hready] at h
    · rintro ⟨run, hactive, -, -, -, h, -⟩
      have hle := hconnection o.run run hactive
      simp only at h
      omega

end OpenclawGateway

end VicoopBridge
