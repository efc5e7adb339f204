import VicoopBridge.Verification.OpenclawRouting.Settlement

/-! # Routing over whole runs

The contract of the routing tables in every state that is reached while no task is registered
twice. -/

namespace VicoopBridge

open Library

def gatewaySystem : System OpenclawGateway GatewayAction :=
  .ofApply (fun s => s = {}) OpenclawGateway.enabled OpenclawGateway.apply

namespace OpenclawGateway

variable {s t : OpenclawGateway}

/-- Every run is settled by what is its own, the tables have what the registered runs need, and
nothing is left of the others. -/
structure RoutingSpec (s : OpenclawGateway) : Prop where
  settled : ∀ (k : ℕ) (run : GatewayRun) (event : FinalizerEvent), s.runs[k]? = some run →
    s.settled k = some event → s.Cause k run event
  heard : ∀ (k : ℕ) (run : GatewayRun) (r : String), s.runs[k]? = some run → run.runId = some r →
    (s.firstTerminal run.connection r).isSome → (s.settled k).isSome
  closed : ∀ k run, s.Active k run → run.connection < s.connection ∨ s.ready = false →
    (s.settled k).isSome
  registered : ∀ k run, s.Active k run → s.taskFinalizers.get? run.taskId = some k
  bound : ∀ k run r, s.Active k run → run.runId = some r →
    s.runToTask.get? r = some { taskId := run.taskId, sessionKey := run.sessionKey }
  owned : ∀ k run, s.Active k run → run.ownedSession = true → run.connection = s.connection →
    s.ready = true → s.sessionMessageOwners.get? run.sessionKey =
      some { taskId := run.taskId, run := k }
  waiting : s.ready = true → ∀ r, s.Fresh r → (s.pendingRunEvents.get? r).getD [] =
    (s.received s.connection).filter fun e => e.runId = r
  forgotten : ∀ run ∈ s.runs, run.phase = .returned → ∀ r, run.gatewayRunId = some r →
    s.runToTask.get? r = none ∧ s.pendingRunEvents.get? r = none
  idle : (∀ run ∈ s.runs, run.phase = .returned) → (∀ r, s.runToTask.get? r = none) ∧
    (∀ taskId, s.taskFinalizers.get? taskId = none) ∧
      ∀ key, s.sessionMessageOwners.get? key = none

/-- No buffer is full when something is added. -/
def WithinCaps (s : OpenclawGateway) : GatewayAction → Prop
  | .chatEvent p => s.runToTask.get? p.runId = none → p.runId ∉ s.recentlyFinalizedRuns →
      s.HasRoom p
  | .finish _ => s.recentlyFinalizedRuns.length < maxFinalizedRuns
  | _ => True

/-- No task is registered twice, a run has an id of its own, and an event is not one of a run that
is over on an earlier connection or has never been sent. -/
def Separate (s : OpenclawGateway) : GatewayAction → Prop
  | .register taskId _ _ => ∀ run ∈ s.runs, run.phase ≠ .returned → run.taskId ≠ taskId
  | .acked _ runId => runId ≠ "" ∧ s.Fresh runId
  | .sendFailed _ started => ∀ r ∈ started, s.Fresh r ∧ s.pendingRunEvents.get? r = none
  | .chatEvent p => s.Expected p
  | _ => True

instance decidableFresh (runId : String) : Decidable (s.Fresh runId) :=
  inferInstanceAs (Decidable (∀ run ∈ s.runs, run.gatewayRunId ≠ some runId))

instance decidableHasRoom (p : ChatEvent) : Decidable (s.HasRoom p) := by
  unfold HasRoom
  cases s.pendingRunEvents.get? p.runId <;> infer_instance

instance decidableExpected (p : ChatEvent) : Decidable (s.Expected p) :=
  inferInstanceAs (Decidable (p.runId ∈ s.recentlyFinalizedRuns ∨ ∀ run ∈ s.runs, _ → _ → _))

instance decidableWithinCaps : ∀ a, Decidable (s.WithinCaps a)
  | .chatEvent p => inferInstanceAs (Decidable (s.runToTask.get? p.runId = none →
      p.runId ∉ s.recentlyFinalizedRuns → s.HasRoom p))
  | .finish _ => inferInstanceAs (Decidable (s.recentlyFinalizedRuns.length < maxFinalizedRuns))
  | .connect | .subscribe _ | .register .. | .acked .. | .sendFailed .. | .timeout .. | .abortFailed ..
  | .close _ => isTrue trivial

instance decidableSeparate : ∀ a, Decidable (s.Separate a)
  | .register taskId _ _ => inferInstanceAs
      (Decidable (∀ run ∈ s.runs, run.phase ≠ .returned → run.taskId ≠ taskId))
  | .acked _ runId => inferInstanceAs (Decidable (runId ≠ "" ∧ s.Fresh runId))
  | .sendFailed _ started => inferInstanceAs
      (Decidable (∀ r ∈ started, s.Fresh r ∧ s.pendingRunEvents.get? r = none))
  | .chatEvent p => inferInstanceAs (Decidable (s.Expected p))
  | .connect | .subscribe _ | .timeout .. | .abortFailed .. | .finish _ | .close _ => isTrue trivial

/-! ## Steps -/

structure Invariant (s : OpenclawGateway) : Prop where
  ids : s.Ids
  tables : s.Tables
  buffers : s.Buffers
  settles : s.Settles

theorem Invariant.register (inv : s.Invariant) {taskId sessionKey : String} {connection : ℕ}
    (hconnection : connection ≤ s.connection)
    (htask : ∀ run ∈ s.runs, run.phase ≠ .returned → run.taskId ≠ taskId) :
    (s.register taskId sessionKey connection).Invariant := by
  set run := s.newRun taskId sessionKey connection with hrun
  have hphase : run.phase ≠ .returned := by simp [hrun, newRun]
  have htask' (k : ℕ) (run' : GatewayRun) (h : s.Active k run') : run'.taskId ≠ run.taskId :=
    htask run' (List.mem_of_getElem? h.1) h.2
  have howned (h : run.ownedSession = true) :
      s.sessionMessageOwners.get? run.sessionKey = none := by
    have hboth : sessionKey ∈ s.subscribedSessionKeys ∧
        s.sessionMessageOwners.get? sessionKey = none := by simpa [hrun, newRun] using h
    exact hboth.2
  have ids : (s.addRun run).Ids := inv.ids.addRun rfl rfl
  have buffers : (s.addRun run).Buffers := inv.buffers.addRun rfl rfl
  have hadded : (s.addRun run).runs[s.runs.length]? = some run :=
    getElem?_append_run.mpr (.inr ⟨rfl, rfl⟩)
  unfold OpenclawGateway.register
  dsimp only
  split
  · rename_i hopen
    exact ⟨ids, inv.tables.addRun hphase rfl htask' howned hopen.1 hopen.2, buffers,
      inv.settles.addRun rfl hconnection hopen⟩
  · exact ⟨ids.cleanup _ _, inv.tables.addRun_cleanup hphase rfl htask' howned,
      buffers.cleanup ids hadded (fun h => by simp [newRun] at h),
      inv.settles.addRun_cleanup rfl hconnection⟩

theorem Invariant.finish (inv : s.Invariant) {k : ℕ} {run : GatewayRun} (hk : s.Active k run)
    (hsettled : (s.settled k).isSome)
    (hcap : s.recentlyFinalizedRuns.length < maxFinalizedRuns) : (s.cleanup k run).Invariant where
  ids := inv.ids.cleanup k run
  tables := inv.tables.cleanup inv.ids hk
  buffers := inv.buffers.cleanup inv.ids hk.1 fun _ => hcap
  settles := inv.settles.returned rfl rfl rfl rfl rfl rfl rfl (fun _ => ⟨rfl, rfl, rfl⟩)
    fun _ _ _ _ => hsettled

theorem Invariant.sendFailed (inv : s.Invariant) {k : ℕ} {run : GatewayRun} (hk : s.Active k run)
    (hrunId : run.runId = none) {started : Option String}
    (hstarted : ∀ r ∈ started, s.Fresh r ∧ s.pendingRunEvents.get? r = none) :
    (s.sendFailed k run started).Invariant where
  ids := inv.ids.sendFailed hk.1 hrunId fun r hr => (hstarted r hr).1
  tables := inv.tables.sendFailed inv.ids hk started
  buffers := inv.buffers.sendFailed inv.ids hk hrunId fun r hr => (hstarted r hr).2
  settles := by
    refine inv.settles.returned (k := k) (f := fun run => { run with
      phase := .returned, gatewayRunId := started }) ?_ rfl rfl rfl rfl rfl rfl
      (fun _ => ⟨rfl, rfl, rfl⟩) fun run' r hk' hr => ?_
    · exact List.modify_modify_eq ..
    · obtain rfl := Option.some.inj (hk.1.symm.trans hk')
      simp [hrunId] at hr

theorem Invariant.acked (inv : s.Invariant) {k : ℕ} {run : GatewayRun} (hk : s.Active k run)
    (hrunId : run.runId = none) (hconnection : run.connection = s.connection) {runId : String}
    (hne : runId ≠ "") (hfresh : s.Fresh runId) : (s.acked k run runId).Invariant where
  ids := inv.ids.acked k run hne hfresh
  tables := inv.tables.acked inv.ids hk hrunId hfresh
  buffers := inv.buffers.acked hk.1 ((inv.ids.active k run hk).trans hrunId) runId
  settles := inv.settles.acked inv.buffers hk hrunId hconnection hfresh

/-- A promise is resolved by what is the run's own. -/
theorem Invariant.resolve (inv : s.Invariant) {k : ℕ} (hk : k < s.runs.length)
    {event : FinalizerEvent} {timedOut abortFailed : List ℕ}
    (htimedOut : ∀ j ∈ s.timedOut, j ∈ timedOut)
    (habortFailed : ∀ j ∈ s.abortFailed, j ∈ abortFailed)
    (hcause : ∀ run, { s with
      settled := resolveSettled s.settled k event, timedOut := timedOut
      abortFailed := abortFailed }.Cause k run event) :
    { s with
      settled := resolveSettled s.settled k event, timedOut := timedOut
      abortFailed := abortFailed }.Invariant where
  ids := inv.ids.congr rfl
  tables := inv.tables.congr (fun _ _ => Iff.rfl) (fun _ => rfl) (fun _ => rfl) (fun _ => rfl) rfl rfl
  buffers := ⟨inv.buffers.unknown, inv.buffers.known, inv.buffers.closed, inv.buffers.later,
    inv.buffers.finalized, inv.buffers.marked⟩
  settles := inv.settles.resolve rfl rfl rfl rfl hk rfl htimedOut habortFailed hcause

/-- An event does not change who is registered for what. -/
theorem onChatEvent_eq (p : ChatEvent) : ∃ received settled pending,
    s.onChatEvent p = { s with
      received := received, settled := settled, pendingRunEvents := pending } := by
  by_cases hne : p.runId = ""
  · exact ⟨_, _, _, if_pos hne⟩
  · obtain ⟨_, -, heq⟩ | ⟨-, -, heq⟩ | ⟨-, -, heq⟩ := onChatEvent_cases hne <;>
      exact ⟨_, _, _, heq⟩

theorem Invariant.onChatEvent (inv : s.Invariant) (hready : s.ready = true) {p : ChatEvent}
    (hexpected : s.Expected p)
    (hroom : s.runToTask.get? p.runId = none → p.runId ∉ s.recentlyFinalizedRuns → s.HasRoom p) :
    (s.onChatEvent p).Invariant where
  ids := by
    obtain ⟨received, settled, pending, heq⟩ := onChatEvent_eq (s := s) p
    rw [heq]
    exact inv.ids.congr rfl
  tables := by
    obtain ⟨received, settled, pending, heq⟩ := onChatEvent_eq (s := s) p
    rw [heq]
    exact inv.tables.congr (fun _ _ => Iff.rfl) (fun _ => rfl) (fun _ => rfl) (fun _ => rfl) rfl rfl
  buffers := inv.buffers.onChatEvent inv.tables inv.ids hready hexpected hroom
  settles := inv.settles.onChatEvent inv.tables inv.ids p

theorem Invariant.step (inv : s.Invariant) {a : GatewayAction} (henabled : s.enabled a)
    (hseparate : s.Separate a) (hcaps : s.WithinCaps a) : (s.apply a).Invariant := by
  cases a with
  | connect =>
      have hready : s.ready = false := henabled
      exact ⟨inv.ids.congr rfl,
        inv.tables.connect (fun k run h => inv.settles.connection k run h.1) hready,
        inv.buffers.connect hready inv.settles.connection, inv.settles.connect hready⟩
  | subscribe sessionKey =>
      exact ⟨inv.ids.congr rfl,
        inv.tables.congr (fun _ _ => Iff.rfl) (fun _ => rfl) (fun _ => rfl) (fun _ => rfl) rfl rfl,
        ⟨inv.buffers.unknown, inv.buffers.known, inv.buffers.closed, inv.buffers.later,
          inv.buffers.finalized, inv.buffers.marked⟩,
        ⟨inv.settles.connection, inv.settles.live, inv.settles.later, inv.settles.cause,
          inv.settles.heard, inv.settles.finished⟩⟩
  | register taskId sessionKey connection => exact inv.register henabled.2 hseparate
  | acked k runId =>
      obtain ⟨run, hk, hphase, hconnection⟩ := henabled
      simp only [apply, Option.mem_def.mp hk, Option.map_some, Option.getD_some]
      exact inv.acked ⟨hk, by simp [hphase]⟩ (inv.ids.sending k run hk hphase) hconnection
        hseparate.1 hseparate.2
  | sendFailed k started =>
      obtain ⟨run, hk, hphase⟩ := henabled
      simp only [apply, Option.mem_def.mp hk, Option.map_some, Option.getD_some]
      exact inv.sendFailed ⟨hk, by simp [hphase]⟩ (inv.ids.sending k run hk hphase) hseparate
  | chatEvent event => exact inv.onChatEvent henabled hseparate hcaps
  | timeout k message =>
      obtain ⟨run, hk, -⟩ := henabled
      exact inv.resolve (lt_length_of_getElem hk) (fun _ => List.mem_append_left _) (fun _ => id)
        fun _ => List.mem_append_right _ (List.mem_singleton_self k)
  | abortFailed k message =>
      obtain ⟨run, hk, -⟩ := henabled
      exact inv.resolve (lt_length_of_getElem hk) (fun _ => id) (fun _ => List.mem_append_left _)
        fun _ => List.mem_append_right _ (List.mem_singleton_self k)
  | finish k =>
      obtain ⟨run, hk, hphase, hsettled⟩ := henabled
      simp only [apply, Option.mem_def.mp hk, Option.map_some, Option.getD_some]
      exact inv.finish ⟨hk, by simp [hphase]⟩ hsettled hcaps
  | close message =>
      exact ⟨inv.ids.congr rfl, inv.tables.close message, inv.buffers.close message,
        inv.settles.close inv.tables message⟩

theorem invariant_init : ({} : OpenclawGateway).Invariant where
  ids := by constructor <;> simp [Active]
  tables := by constructor <;> simp [Active]
  buffers := by constructor <;> simp
  settles := by constructor <;> simp [Active]

theorem invariant_of_reachable
    (h : (gatewaySystem.restrict fun s a => s.Separate a ∧ s.WithinCaps a).Reachable s) :
    s.Invariant := by
  refine h.invariant (fun s hs => ?_) fun s a t inv hstep => ?_
  · obtain rfl := hs
    exact invariant_init
  · obtain ⟨⟨hseparate, hcaps⟩, henabled, rfl⟩ := hstep
    exact inv.step henabled hseparate hcaps

/-! ## The contract -/

theorem Invariant.spec (inv : s.Invariant) : s.RoutingSpec where
  settled := inv.settles.cause
  heard := inv.settles.heard
  closed k run hactive h := by
    refine (inv.settles.live k run hactive).resolve_left fun hlive => ?_
    obtain hlt | hready := h
    · exact hlt.ne hlive.1
    · simp [hlive.2] at hready
  registered k run hactive := (inv.tables.finalizers run.taskId k).mpr ⟨run, hactive, rfl⟩
  bound k run r hactive hr := (inv.tables.bindings r _).mpr ⟨k, run, hactive, hr, rfl⟩
  owned k run hactive howned hconnection hready :=
    (inv.tables.owners run.sessionKey _).mpr
      ⟨run, hactive, howned, rfl, rfl, hconnection, hready⟩
  waiting := inv.buffers.unknown
  forgotten run hrun hphase r hr := by
    obtain ⟨k, hk⟩ := List.mem_iff_getElem?.mp hrun
    refine ⟨?_, inv.buffers.known r (not_fresh hk hr)⟩
    rw [Option.eq_none_iff_forall_ne_some]
    intro b hb
    obtain ⟨j, run', hactive, hr', -⟩ := (inv.tables.bindings r b).mp hb
    have hjk := inv.ids.distinct j k run' run r hactive.1 hk (inv.ids.known j run' r hactive.1 hr').1 hr
    subst hjk
    obtain rfl := Option.some.inj (hactive.1.symm.trans hk)
    exact hactive.2 hphase
  idle hidle := by
    have hnone (k : ℕ) (run : GatewayRun) (h : s.Active k run) : False :=
      h.2 (hidle run (List.mem_of_getElem? h.1))
    refine ⟨fun r => ?_, fun taskId => ?_, fun key => ?_⟩ <;>
      rw [Option.eq_none_iff_forall_ne_some]
    · intro b hb
      obtain ⟨k, run, hactive, -⟩ := (inv.tables.bindings r b).mp hb
      exact hnone k run hactive
    · intro k hk
      obtain ⟨run, hactive, -⟩ := (inv.tables.finalizers taskId k).mp hk
      exact hnone k run hactive
    · intro o ho
      obtain ⟨run, hactive, -⟩ := (inv.tables.owners key o).mp ho
      exact hnone o.run run hactive

/-- A second registration of a task takes the finalizer of the first one out of the table. -/
theorem not_routingSpec_of_register {taskId sessionKey : String} {connection : ℕ}
    (h : ¬ s.Separate (.register taskId sessionKey connection)) :
    ¬ (s.register taskId sessionKey connection).RoutingSpec := by
  intro hspec
  set run := s.newRun taskId sessionKey connection
  obtain ⟨old, hold, hphase, htask⟩ : ∃ old ∈ s.runs, old.phase ≠ .returned ∧
      old.taskId = taskId := by simpa [Separate] using h
  obtain ⟨k, hk⟩ := List.mem_iff_getElem?.mp hold
  have hlt := lt_length_of_getElem hk
  have hadded : (s.addRun run).Active k old :=
    ⟨getElem?_append_run.mpr (.inl hk), hphase⟩
  unfold OpenclawGateway.register at hspec
  dsimp only at hspec
  split at hspec
  · have hget := hspec.registered k old hadded
    have hnew : (s.addRun run).taskFinalizers.get? taskId = some s.runs.length :=
      InsertionMap.get?_set_self ..
    rw [htask, hnew] at hget
    exact hlt.ne' (Option.some.inj hget)
  · have hget := hspec.registered k old (active_cleanup.mpr ⟨hadded, hlt.ne⟩)
    have hnew : ((s.addRun run).cleanup s.runs.length run).taskFinalizers.get? taskId = none :=
      InsertionMap.get?_erase_self ..
    rw [htask, hnew] at hget
    cases hget

/-- Where no task is registered while an earlier run of it is, routing meets its contract; a
registration that is one too many breaks it. -/
theorem routingSpec_of_separate
    (h : (gatewaySystem.restrict fun s a => s.Separate a ∧ s.WithinCaps a).Reachable s) :
    s.RoutingSpec ∧ ∀ taskId sessionKey connection,
      ¬ s.Separate (.register taskId sessionKey connection) →
        ¬ (s.apply (.register taskId sessionKey connection)).RoutingSpec :=
  ⟨(invariant_of_reachable h).spec, fun _ _ _ => not_routingSpec_of_register⟩

section Witness

/-- The task is dispatched again while the gateway is still ending its first run. -/
private def redispatched : List GatewayAction :=
  [.connect, .register "task" "agent:main:context" 1, .acked 0 "run-1",
    .register "task" "agent:main:context" 1, .acked 1 "run-2",
    .chatEvent { runId := "run-1", state := .aborted }]

private def oneAfterAnother : List GatewayAction :=
  [.connect, .register "task" "agent:main:context" 1,
    .chatEvent { runId := "run-1", state := .aborted }, .acked 0 "run-1", .finish 0,
    .register "task" "agent:main:context" 1, .acked 1 "run-2",
    .chatEvent { runId := "run-1", state := .aborted },
    .chatEvent { runId := "run-2", state := .final, text := "Done." }]

private def afterEvents (actions : List GatewayAction) : OpenclawGateway :=
  actions.foldl OpenclawGateway.apply {}

/-- The end of the first run settles the second one. -/
theorem routingSpec_of_separate_redispatched :
    gatewaySystem.Reachable (afterEvents redispatched) ∧
      ((afterEvents redispatched).runs.map GatewayRun.runId = [some "run-1", some "run-2"]) ∧
      (afterEvents redispatched).settled 0 = none ∧
      (afterEvents redispatched).settled 1 = some { runId := "run-1", state := .aborted } ∧
      ¬ (afterEvents redispatched).RoutingSpec := by
  have hsettled : (afterEvents redispatched).settled 1 =
      some { runId := "run-1", state := .aborted } := by decide +kernel
  refine ⟨System.Legal.reachable (by decide +kernel) (.of_init rfl), by decide +kernel,
    by decide +kernel, hsettled, fun hspec => ?_⟩
  have hheard := hspec.heard 0 { taskId := "task", sessionKey := "agent:main:context", connection := 1
                                 ownedSession := false, phase := .settling, runId := some "run-1"
                                 gatewayRunId := some "run-1" } "run-1" (by decide +kernel) rfl
    (by decide +kernel)
  revert hheard
  decide +kernel

theorem routingSpec_of_separate_oneAfterAnother :
    (afterEvents oneAfterAnother).settled 0 = some { runId := "run-1", state := .aborted } ∧
      (afterEvents oneAfterAnother).settled 1 =
        some { runId := "run-2", state := .final, text := "Done." } ∧
      (afterEvents oneAfterAnother).RoutingSpec := by
  refine ⟨by decide +kernel, by decide +kernel, (routingSpec_of_separate ?_).1⟩
  exact System.Legal.reachable_restrict (by decide +kernel) (.of_init rfl)

end Witness

end OpenclawGateway

end VicoopBridge
