import VicoopBridge.Verification.OpenclawRouting.Tables

/-! # The buffer for early events

An event of a run that is not known yet waits in the buffer, and the buffer has all of them, in the
order in which they came. -/

namespace VicoopBridge

open Library

namespace OpenclawGateway

variable {s t : OpenclawGateway}

/-- The buffer has the events of the runs that are not known, and the ids of the runs that have
returned on the connection are marked. -/
structure Buffers (s : OpenclawGateway) : Prop where
  unknown : s.ready = true → ∀ r, s.Fresh r → (s.pendingRunEvents.get? r).getD [] =
    (s.received s.connection).filter fun e => e.runId = r
  known : ∀ r, ¬ s.Fresh r → s.pendingRunEvents.get? r = none
  closed : s.ready = false → ∀ r, s.pendingRunEvents.get? r = none
  later : ∀ c, s.connection < c → s.received c = []
  finalized : ∀ r ∈ s.recentlyFinalizedRuns, ¬ s.Fresh r
  marked : ∀ (k : ℕ) (run : GatewayRun) (r : String), s.runs[k]? = some run →
    run.phase = .returned → run.runId = some r → run.connection = s.connection →
    s.ready = true → r ∈ s.recentlyFinalizedRuns

theorem not_fresh {k : ℕ} {run : GatewayRun} {r : String} (hk : s.runs[k]? = some run)
    (hr : run.gatewayRunId = some r) : ¬ s.Fresh r :=
  fun h => h.of_getElem hk hr

/-! ## Which ids are fresh -/

theorem fresh_addRun {run : GatewayRun} (hrun : run.gatewayRunId = none) (r : String) :
    (s.addRun run).Fresh r ↔ s.Fresh r := by
  simp [Fresh, OpenclawGateway.addRun, or_imp, forall_and, hrun]

theorem fresh_modify {k : ℕ} {run : GatewayRun} (hk : s.runs[k]? = some run)
    (hrun : run.gatewayRunId = none) {f : GatewayRun → GatewayRun} {id : Option String}
    (hf : ∀ run, (f run).gatewayRunId = id) (ht : t.runs = s.runs.modify k f) (r : String) :
    t.Fresh r ↔ s.Fresh r ∧ id ≠ some r := by
  have hmem (run' : GatewayRun) : run' ∈ t.runs ↔
      ∃ (j : ℕ) (before : GatewayRun), s.runs[j]? = some before ∧
        run' = if k = j then f before else before := by
    rw [List.mem_iff_getElem?, ht]
    exact exists_congr fun j => getElem?_modify_run
  constructor
  · intro h
    refine ⟨fun run' hrun' => ?_, ?_⟩
    · obtain ⟨j, hj⟩ := List.mem_iff_getElem?.mp hrun'
      by_cases heq : k = j
      · subst heq
        obtain rfl := Option.some.inj (hk.symm.trans hj)
        simp [hrun]
      · exact h run' ((hmem run').mpr ⟨j, run', hj, by rw [if_neg heq]⟩)
    · exact hf run ▸ h (f run) ((hmem _).mpr ⟨k, run, hk, by rw [if_pos rfl]⟩)
  · rintro ⟨h, hid⟩ run' hrun'
    obtain ⟨j, before, hj, rfl⟩ := (hmem run').mp hrun'
    split
    · rwa [hf]
    · exact h.of_getElem hj

theorem fresh_cleanup (k : ℕ) (run : GatewayRun) (r : String) :
    (s.cleanup k run).Fresh r ↔ s.Fresh r := by
  simp only [Fresh, List.mem_iff_getElem?]
  constructor
  · rintro h run' ⟨j, hj⟩
    have hmodified : (s.cleanup k run).runs[j]? = some
        (if k = j then { run' with phase := .returned } else run') :=
      getElem?_modify_run.mpr ⟨run', hj, rfl⟩
    have hne := h _ ⟨j, hmodified⟩
    simpa [apply_ite GatewayRun.gatewayRunId] using hne
  · rintro h run' ⟨j, hj⟩
    obtain ⟨before, hj', rfl⟩ := getElem?_modify_run.mp hj
    simpa [apply_ite GatewayRun.gatewayRunId] using h before ⟨j, hj'⟩

/-! ## Marks -/

theorem mem_markRunFinalized {runs : List String} {r runId : String}
    (h : r ∈ markRunFinalized runs runId) : r ∈ runs ∨ r = runId := by
  unfold markRunFinalized at h
  split at h
  · exact .inl h
  · have hmem : r ∈ runs ++ [runId] := by
      dsimp only at h
      split at h
      · exact List.mem_of_mem_drop h
      · exact h
    simpa using hmem

theorem markRunFinalized_of_lt {runs : List String} (hlt : runs.length < maxFinalizedRuns)
    (r runId : String) : r ∈ markRunFinalized runs runId ↔ r ∈ runs ∨ r = runId := by
  refine ⟨mem_markRunFinalized, fun h => ?_⟩
  unfold markRunFinalized
  split
  · rename_i hmem
    obtain h | rfl := h
    · exact h
    · exact hmem
  · have hlength : ¬ maxFinalizedRuns < (runs ++ [runId]).length := by
      rw [List.length_append, List.length_singleton]
      omega
    dsimp only
    rw [if_neg hlength]
    simpa using h

theorem bufferEvent_get? (pending : InsertionMap String (List ChatEvent)) {p : ChatEvent}
    (hbuffer : ∀ buf, pending.get? p.runId = some buf → buf.length < maxBufferedEventsPerRun)
    (hkeys : pending.get? p.runId = none → pending.size < maxPendingRunKeys) (r : String) :
    (bufferEvent pending p).get? r =
      if p.runId = r then some ((pending.get? r).getD [] ++ [p]) else pending.get? r := by
  unfold bufferEvent
  split
  · rename_i buf hbuf
    rw [if_neg (Nat.not_le.mpr (hbuffer buf hbuf)), InsertionMap.get?_set]
    split
    · rename_i heq
      rw [← heq, hbuf]
      rfl
    · rfl
  · rename_i hnone
    rw [if_neg (Nat.not_le.mpr (hkeys hnone)), InsertionMap.get?_set]
    split
    · rename_i heq
      rw [← heq, hnone]
      rfl
    · rfl

/-! ## Steps of one run -/

theorem Buffers.addRun (buffers : s.Buffers) {run : GatewayRun} (hrunId : run.runId = none)
    (hgateway : run.gatewayRunId = none) : (s.addRun run).Buffers := by
  have hfresh := fresh_addRun (s := s) hgateway
  constructor
  · exact fun hready r hr => buffers.unknown hready r ((hfresh r).mp hr)
  · exact fun r hr => buffers.known r fun h => hr ((hfresh r).mpr h)
  · exact buffers.closed
  · exact buffers.later
  · exact fun r hr h => buffers.finalized r hr ((hfresh r).mp h)
  · intro k run' r hk hphase hr
    obtain hk | ⟨-, rfl⟩ := getElem?_append_run.mp hk
    · exact buffers.marked k run' r hk hphase hr
    · simp [hrunId] at hr

theorem Buffers.cleanup (buffers : s.Buffers) (ids : s.Ids) {k : ℕ} {run : GatewayRun}
    (hk : s.runs[k]? = some run)
    (hcap : run.runId.isSome → s.recentlyFinalizedRuns.length < maxFinalizedRuns) :
    (s.cleanup k run).Buffers := by
  have hfresh := fresh_cleanup (s := s) k run
  have hne (r : String) (hr : run.runId = some r) : r ≠ "" := (ids.known k run r hk hr).2
  have hown (r : String) (hr : run.runId = some r) : ¬ s.Fresh r :=
    not_fresh hk (ids.known k run r hk hr).1
  have hmem (r : String) : r ∈ (s.cleanup k run).recentlyFinalizedRuns ↔
      r ∈ s.recentlyFinalizedRuns ∨ run.runId = some r := by
    cases hrunId : run.runId with
    | none => simp [OpenclawGateway.cleanup, hrunId]
    | some runId =>
        have hruns : (s.cleanup k run).recentlyFinalizedRuns =
            markRunFinalized s.recentlyFinalizedRuns runId := by
          simp [OpenclawGateway.cleanup, hrunId, Option.filter, hne runId hrunId]
        rw [hruns, markRunFinalized_of_lt (hcap (by simp [hrunId])), Option.some.injEq]
        exact or_congr_right eq_comm
  constructor
  · intro hready r hr
    rw [hfresh] at hr
    rw [cleanup_pendingRunEvents hne, if_neg fun h => hown r h hr]
    exact buffers.unknown hready r hr
  · intro r hr
    rw [cleanup_pendingRunEvents hne]
    split
    · rfl
    · exact buffers.known r fun h => hr ((hfresh r).mpr h)
  · intro hready r
    rw [cleanup_pendingRunEvents hne, buffers.closed hready r, ite_self]
  · exact buffers.later
  · intro r hr
    rw [hfresh]
    exact ((hmem r).mp hr).elim (buffers.finalized r) (hown r)
  · intro j run' r hj hphase hr hconnection hready
    obtain ⟨before, hj', rfl⟩ := getElem?_modify_run.mp hj
    refine (hmem r).mpr ?_
    by_cases heq : k = j
    · subst heq
      obtain rfl := Option.some.inj (hk.symm.trans hj')
      rw [if_pos rfl] at hr
      exact .inr hr
    · rw [if_neg heq] at hphase hr hconnection
      exact .inl (buffers.marked j before r hj' hphase hr hconnection hready)

/-- Nothing is kept for a run whose `chat.send` has failed. -/
theorem Buffers.sendFailed (buffers : s.Buffers) (ids : s.Ids) {k : ℕ} {run : GatewayRun}
    (hk : s.Active k run) (hrunId : run.runId = none) {started : Option String}
    (hnone : ∀ r ∈ started, s.pendingRunEvents.get? r = none) :
    (s.sendFailed k run started).Buffers := by
  have buffers' := buffers.cleanup ids hk.1 (by simp [hrunId])
  have hpending (r : String) : (s.cleanup k run).pendingRunEvents.get? r =
      s.pendingRunEvents.get? r := by
    rw [cleanup_pendingRunEvents (by simp [hrunId]), if_neg (by simp [hrunId])]
  have hreturned : (s.cleanup k run).runs[k]? = some { run with phase := .returned } :=
    getElem?_modify_run.mpr ⟨run, hk.1, by rw [if_pos rfl]⟩
  have hgateway : run.gatewayRunId = none := (ids.active k run hk).trans hrunId
  have hfresh := fresh_modify (t := s.sendFailed k run started) hreturned hgateway
    (f := fun run => { run with gatewayRunId := started }) (fun _ => rfl) rfl
  constructor
  · exact fun hready r hr => buffers'.unknown hready r ((hfresh r).mp hr).1
  · intro r hr
    by_cases hstarted : started = some r
    · exact (hpending r).trans (hnone r hstarted)
    · exact buffers'.known r fun h => hr ((hfresh r).mpr ⟨h, hstarted⟩)
  · exact buffers'.closed
  · exact buffers'.later
  · exact fun r hr h => buffers'.finalized r hr ((hfresh r).mp h).1
  · intro j run' r hj hphase hr hconnection
    obtain ⟨before, hj', rfl⟩ := getElem?_modify_run.mp hj
    simp only [apply_ite GatewayRun.phase, apply_ite GatewayRun.runId,
      apply_ite GatewayRun.connection, ite_self] at hphase hr hconnection
    exact buffers'.marked j before r hj' hphase hr hconnection

/-- The events of the run are taken out of the buffer. -/
theorem Buffers.acked (buffers : s.Buffers) {k : ℕ} {run : GatewayRun} (hk : s.runs[k]? = some run)
    (hgateway : run.gatewayRunId = none) (runId : String) : (s.acked k run runId).Buffers := by
  have hpending (r : String) : (s.acked k run runId).pendingRunEvents.get? r =
      if runId = r then none else s.pendingRunEvents.get? r := InsertionMap.get?_erase ..
  have hfresh := fresh_modify (t := s.acked k run runId) hk hgateway
    (f := fun run => { run with
      phase := .settling, runId := some runId, gatewayRunId := some runId }) (fun _ => rfl) rfl
  constructor
  · intro hready r hr
    obtain ⟨hr, hne⟩ := (hfresh r).mp hr
    rw [hpending, if_neg fun h => hne (congrArg some h)]
    exact buffers.unknown hready r hr
  · intro r hr
    rw [hpending]
    split
    · rfl
    · rename_i hne
      exact buffers.known r fun h => hr ((hfresh r).mpr ⟨h, fun h => hne (Option.some.inj h)⟩)
  · intro hready r
    rw [hpending, buffers.closed hready, ite_self]
  · exact buffers.later
  · exact fun r hr h => buffers.finalized r hr ((hfresh r).mp h).1
  · intro j run' r hj hphase hr hconnection
    obtain ⟨before, hj', rfl⟩ := getElem?_modify_run.mp hj
    by_cases heq : k = j
    · simp [heq] at hphase
    · rw [if_neg heq] at hphase hr hconnection
      exact buffers.marked j before r hj' hphase hr hconnection

/-! ## Steps of the connection -/

theorem filter_received (p : ChatEvent) (r : String) :
    ((s.received s.connection ++ [p]).filter fun e => e.runId = r) =
      ((s.received s.connection).filter fun e => e.runId = r) ++ if p.runId = r then [p] else [] := by
  rw [List.filter_append]
  by_cases h : p.runId = r <;> simp [h]

/-- The event goes to its run, or into the buffer. -/
theorem onChatEvent_cases {p : ChatEvent} (hne : p.runId ≠ "") :
    (∃ binding, s.runToTask.get? p.runId = some binding ∧ s.onChatEvent p = { s with
      received := Function.update s.received s.connection (s.received s.connection ++ [p])
      settled :=
        match s.taskFinalizers.get? binding.taskId with
        | some run => finalizer s.settled run { p with }
        | none => s.settled }) ∨
    (s.runToTask.get? p.runId = none ∧ p.runId ∈ s.recentlyFinalizedRuns ∧
      s.onChatEvent p = { s with
        received := Function.update s.received s.connection (s.received s.connection ++ [p]) }) ∨
    (s.runToTask.get? p.runId = none ∧ p.runId ∉ s.recentlyFinalizedRuns ∧
      s.onChatEvent p = { s with
        received := Function.update s.received s.connection (s.received s.connection ++ [p])
        pendingRunEvents := bufferEvent s.pendingRunEvents p }) := by
  unfold OpenclawGateway.onChatEvent
  rw [if_neg hne]
  dsimp only
  cases hbinding : s.runToTask.get? p.runId with
  | some binding => exact .inl ⟨binding, rfl, rfl⟩
  | none =>
      by_cases hmem : p.runId ∈ s.recentlyFinalizedRuns
      · exact .inr (.inl ⟨rfl, hmem, if_pos hmem⟩)
      · exact .inr (.inr ⟨rfl, hmem, if_neg hmem⟩)

/-- A late event comes on the connection of its run, or the run is marked all the same. -/
def Expected (s : OpenclawGateway) (p : ChatEvent) : Prop :=
  p.runId ∈ s.recentlyFinalizedRuns ∨ ∀ run ∈ s.runs, run.gatewayRunId = some p.runId →
    run.phase = .returned → run.runId = some p.runId ∧ run.connection = s.connection

/-- The buffer has room for the event. -/
def HasRoom (s : OpenclawGateway) (p : ChatEvent) : Prop :=
  match s.pendingRunEvents.get? p.runId with
  | some buf => buf.length < maxBufferedEventsPerRun
  | none => s.pendingRunEvents.size < maxPendingRunKeys

/-- An event that is not routed and not dropped is the event of a run that is not known. -/
theorem fresh_of_unrouted (tables : s.Tables) (ids : s.Ids) (buffers : s.Buffers)
    (hready : s.ready = true) {p : ChatEvent} (hexpected : s.Expected p)
    (hbinding : s.runToTask.get? p.runId = none) (hmem : p.runId ∉ s.recentlyFinalizedRuns) :
    s.Fresh p.runId := by
  intro run hrun hr
  obtain ⟨k, hk⟩ := List.mem_iff_getElem?.mp hrun
  by_cases hphase : run.phase = .returned
  · obtain ⟨hrunId, hconnection⟩ := hexpected.resolve_left hmem run hrun hr hphase
    exact hmem (buffers.marked k run p.runId hk hphase hrunId hconnection hready)
  · have hrunId := (ids.active k run ⟨hk, hphase⟩).symm.trans hr
    have hsome := (tables.bindings p.runId _).mpr ⟨k, run, ⟨hk, hphase⟩, hrunId, rfl⟩
    simp [hbinding] at hsome

theorem Buffers.received (buffers : s.Buffers) {p : ChatEvent} (hfresh : ¬ s.Fresh p.runId)
    (hruns : t.runs = s.runs) (hpending : t.pendingRunEvents = s.pendingRunEvents)
    (hfinalized : t.recentlyFinalizedRuns = s.recentlyFinalizedRuns)
    (hconnection : t.connection = s.connection) (hready : t.ready = s.ready)
    (hreceived : t.received =
      Function.update s.received s.connection (s.received s.connection ++ [p])) : t.Buffers := by
  have hfresh' (r : String) : t.Fresh r ↔ s.Fresh r := by rw [Fresh, Fresh, hruns]
  constructor
  · intro h r hr
    rw [hfresh'] at hr
    have hne : p.runId ≠ r := by
      rintro rfl
      exact hfresh hr
    rw [hpending, hconnection, hreceived, Function.update_self, filter_received, if_neg hne,
      List.append_nil]
    exact buffers.unknown (hready ▸ h) r hr
  · intro r hr
    rw [hpending]
    exact buffers.known r fun h => hr ((hfresh' r).mpr h)
  · rw [hready, hpending]
    exact buffers.closed
  · intro c hc
    rw [hconnection] at hc
    rw [hreceived, Function.update_of_ne hc.ne']
    exact buffers.later c hc
  · rw [hfinalized]
    exact fun r hr h => buffers.finalized r hr ((hfresh' r).mp h)
  · rw [hruns, hfinalized, hconnection, hready]
    exact buffers.marked

theorem Buffers.onChatEvent (buffers : s.Buffers) (tables : s.Tables) (ids : s.Ids)
    (hready : s.ready = true) {p : ChatEvent} (hexpected : s.Expected p)
    (hroom : s.runToTask.get? p.runId = none → p.runId ∉ s.recentlyFinalizedRuns → s.HasRoom p) :
    (s.onChatEvent p).Buffers := by
  by_cases hne : p.runId = ""
  · rw [OpenclawGateway.onChatEvent, if_pos hne]
    exact buffers
  obtain ⟨binding, hbinding, heq⟩ | ⟨-, hmem, heq⟩ | ⟨hbinding, hmem, heq⟩ := onChatEvent_cases hne
  · obtain ⟨k, run, hactive, hr, -⟩ := (tables.bindings p.runId binding).mp hbinding
    have hfresh := not_fresh hactive.1 (ids.known k run _ hactive.1 hr).1
    rw [heq]
    exact buffers.received hfresh rfl rfl rfl rfl rfl rfl
  · rw [heq]
    exact buffers.received (buffers.finalized _ hmem) rfl rfl rfl rfl rfl rfl
  · have hfresh := fresh_of_unrouted tables ids buffers hready hexpected hbinding hmem
    have hroom' := hroom hbinding hmem
    have hpending := bufferEvent_get? (p := p) s.pendingRunEvents
      (fun buf hbuf => by simpa [HasRoom, hbuf] using hroom')
      (fun hnone => by simpa [HasRoom, hnone] using hroom')
    rw [heq]
    constructor
    · intro _ r hr
      dsimp only
      rw [hpending, Function.update_self, filter_received]
      by_cases hpr : p.runId = r
      · rw [if_pos hpr, if_pos hpr, ← hpr, Option.getD_some, buffers.unknown hready _ hfresh]
      · rw [if_neg hpr, if_neg hpr, List.append_nil]
        exact buffers.unknown hready r hr
    · intro r hr
      have hpr : p.runId ≠ r := by
        rintro rfl
        exact hr hfresh
      dsimp only
      rw [hpending, if_neg hpr]
      exact buffers.known r hr
    · intro h
      simp [hready] at h
    · intro c hc
      dsimp only at hc ⊢
      rw [Function.update_of_ne hc.ne']
      exact buffers.later c hc
    · exact buffers.finalized
    · exact buffers.marked

theorem Buffers.close (buffers : s.Buffers) (message : String) :
    (s.handleGatewayClose message).Buffers where
  unknown h := by simp [handleGatewayClose] at h
  known _ _ := rfl
  closed _ _ := rfl
  later := buffers.later
  finalized r h := by simp [handleGatewayClose] at h
  marked _ _ _ _ _ _ _ h := by simp [handleGatewayClose] at h

theorem Buffers.connect (buffers : s.Buffers) (hready : s.ready = false)
    (hconnection : ∀ (k : ℕ) (run : GatewayRun), s.runs[k]? = some run →
      run.connection ≤ s.connection) :
    { s with connection := s.connection + 1, ready := true }.Buffers where
  unknown _ r _ := by
    dsimp only
    rw [buffers.closed hready r, buffers.later _ (Nat.lt_succ_self _)]
    rfl
  known := buffers.known
  closed h := by simp at h
  later c hc := buffers.later c (Nat.lt_of_succ_lt hc)
  finalized := buffers.finalized
  marked k run r hk _ _ h _ := by
    have hle := hconnection k run hk
    dsimp only at h
    omega

end OpenclawGateway

end VicoopBridge
