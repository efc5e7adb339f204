import VicoopBridge.Library.Changes
import VicoopBridge.Verification.Executor.Loop
import VicoopBridge.Verification.TaskStore.Transactions

/-! # What becomes of the artifacts of a run

The events of an artifact are folded: a chunk extends the artifact, anything else replaces it. The run
keeps a copy for every replacement, extends the first and shows the last; the store of a run with an
execution of its own gets all of them. -/

namespace VicoopBridge

open Library

/-! ## The fold -/

/-- The parts of an artifact after one event. -/
def foldParts (current : Option (List JsonObject)) (event : TaskArtifactUpdateEvent) :
    Option (List JsonObject) :=
  match event.append, current with
  | some true, some parts => some (mergeArtifactParts parts event.artifact.parts)
  | _, _ => some event.artifact.parts

def eventsOf (events : List TaskArtifactUpdateEvent) (id : String) : List TaskArtifactUpdateEvent :=
  events.filter (·.artifact.artifactId = id)

def artifactFold (events : List TaskArtifactUpdateEvent) (id : String) : Option (List JsonObject) :=
  (eventsOf events id).foldl foldParts none

/-- No artifact is there twice, and the parts of each that had events are their fold. -/
structure ArtifactFoldSpec (events : List TaskArtifactUpdateEvent) (artifacts : List Artifact) :
    Prop where
  once : (artifacts.map (·.artifactId)).Nodup
  parts : ∀ id parts, artifactFold events id = some parts →
    ∃ a ∈ artifacts, a.artifactId = id ∧ a.parts = parts

/-! ## The accumulated artifacts -/

namespace TaskArtifactUpdateEvent

def toChange (event : TaskArtifactUpdateEvent) : Change Artifact where
  extends? := event.append = some true
  value := event.artifact

end TaskArtifactUpdateEvent

def extendArtifact (a chunk : Artifact) : Artifact :=
  { a with
    parts := mergeArtifactParts a.parts chunk.parts
    name := chunk.name.or a.name
    metadata := chunk.metadata.or a.metadata
    extensions := chunk.extensions.or a.extensions }

theorem artifactId_extendArtifact (a chunk : Artifact) :
    (extendArtifact a chunk).artifactId = a.artifactId := rfl

theorem appendArtifactChunk_eq (accumulated : List Artifact) (event : TaskArtifactUpdateEvent) :
    appendArtifactChunk accumulated event =
      Change.accumulate (·.artifactId) extendArtifact accumulated event.toChange := by
  unfold appendArtifactChunk Change.accumulate TaskArtifactUpdateEvent.toChange
  by_cases happend : event.append = some true
  · simp only [happend, ne_eq, not_true_eq_false, if_false, decide_true, if_true]
    cases accumulated.findIdx? (·.artifactId = event.artifact.artifactId) <;> rfl
  · simp [happend]

theorem foldl_appendArtifactChunk (events : List TaskArtifactUpdateEvent)
    (accumulated : List Artifact) :
    events.foldl appendArtifactChunk accumulated =
      (events.map (·.toChange)).foldl (Change.accumulate (·.artifactId) extendArtifact)
        accumulated := by
  induction events generalizing accumulated with
  | nil => rfl
  | cons event events ih =>
      rw [List.foldl_cons, List.map_cons, List.foldl_cons, ih, appendArtifactChunk_eq]

theorem under_toChange (events : List TaskArtifactUpdateEvent) (id : String) :
    Change.under (·.artifactId) id (events.map (·.toChange)) =
      (eventsOf events id).map (·.toChange) := by
  unfold Change.under eventsOf
  rw [List.filter_map]
  rfl

/-- The copies of one artifact. -/
theorem filter_accumulated (events : List TaskArtifactUpdateEvent) (id : String) :
    (events.foldl appendArtifactChunk []).filter (·.artifactId = id) =
      ((eventsOf events id).map (·.toChange)).foldl (Change.addCopy extendArtifact) [] := by
  rw [foldl_appendArtifactChunk, Change.filter_foldl_accumulate artifactId_extendArtifact, under_toChange]
  rfl

theorem parts_next (current : Option Artifact) (event : TaskArtifactUpdateEvent) :
    (Change.next extendArtifact current event.toChange).map (·.parts) =
      foldParts (current.map (·.parts)) event := by
  unfold foldParts
  by_cases happend : event.append = some true
  · cases current with
    | none =>
        rw [happend]
        unfold Change.next
        split
        · rename_i hnone
          cases hnone
        · rfl
    | some a =>
        rw [Change.next_of_extends (decide_eq_true happend)]
        simp only [happend]
        rfl
  · rw [Change.next_of_replaces (decide_eq_false happend)]
    split
    · rename_i heq _
      exact absurd heq happend
    · rfl

/-- The fold of the parts is that of the artifacts. -/
theorem artifactFold_eq (events : List TaskArtifactUpdateEvent) (id : String) :
    artifactFold events id =
      (Change.fold extendArtifact ((eventsOf events id).map (·.toChange))).map (·.parts) := by
  unfold artifactFold Change.fold
  suffices hfoldl : ∀ current : Option Artifact,
      (eventsOf events id).foldl foldParts (current.map (·.parts)) =
        (((eventsOf events id).map (·.toChange)).foldl (Change.next extendArtifact) current).map
          (·.parts) from hfoldl none
  induction eventsOf events id with
  | nil => exact fun _ => rfl
  | cons event rest ih =>
      intro current
      rw [List.foldl_cons, List.map_cons, List.foldl_cons, ← ih, parts_next]

/-! ## When they agree with the fold -/

/-- Of each artifact only the first event may replace it. -/
def ReplacedOnlyFirst (events : List TaskArtifactUpdateEvent) : Prop :=
  ∀ id, Change.lastReplacement ((eventsOf events id).tail.map (·.toChange)) = none

/-- The chunks that extend an artifact since it has last been replaced leave the parts it has been
replaced by as they are. The first event of an artifact does not replace it. -/
def ReplacementsStand (events : List TaskArtifactUpdateEvent) : Prop :=
  ∀ id, ∀ r ∈ Change.lastReplacement ((eventsOf events id).tail.map (·.toChange)),
    (r.2.foldl extendArtifact r.1).parts = r.1.parts

theorem ReplacedOnlyFirst.stand {events : List TaskArtifactUpdateEvent}
    (h : ReplacedOnlyFirst events) : ReplacementsStand events := by
  intro id r hr
  rw [h id] at hr
  cases hr

/-- The last copy of an artifact. -/
def lastCopy (artifacts : List Artifact) (id : String) : Option Artifact :=
  (artifacts.filter (·.artifactId = id)).getLast?

theorem lastCopy_parts (events : List TaskArtifactUpdateEvent) (id : String) :
    (lastCopy (events.foldl appendArtifactChunk []) id).map (·.parts) = artifactFold events id ↔
      ∀ r ∈ Change.lastReplacement ((eventsOf events id).tail.map (·.toChange)),
        (r.2.foldl extendArtifact r.1).parts = r.1.parts := by
  unfold lastCopy
  rw [filter_accumulated, artifactFold_eq]
  cases eventsOf events id with
  | nil => exact ⟨fun _ r hr => (nomatch hr), fun _ => rfl⟩
  | cons event rest => exact Change.getLast?_copies event.toChange (rest.map (·.toChange)) (·.parts)

theorem artifactFold_isSome {events : List TaskArtifactUpdateEvent} {id : String}
    {parts : List JsonObject} (h : artifactFold events id = some parts) : eventsOf events id ≠ [] := by
  intro hnil
  rw [artifactFold, hnil] at h
  cases h

/-! ## One artifact for each id -/

/-- An id that stands once in a list of artifacts. -/
theorem nodup_iff_filter (artifacts : List Artifact) :
    (artifacts.map (·.artifactId)).Nodup ↔
      ∀ id, (artifacts.filter (·.artifactId = id)).length ≤ 1 := by
  rw [List.nodup_iff_count_le_one]
  refine forall_congr' fun id => ?_
  rw [List.count, List.countP_map, List.countP_eq_length_filter]
  rfl

theorem foldl_set_get? (artifacts : List Artifact) (m : InsertionMap String Artifact) (id : String) :
    (artifacts.foldl (fun m a => m.set a.artifactId a) m).get? id =
      (lastCopy artifacts id).or (m.get? id) := by
  induction artifacts generalizing m with
  | nil => rfl
  | cons a rest ih =>
      rw [List.foldl_cons, ih, InsertionMap.get?_set]
      unfold lastCopy
      rw [List.filter_cons]
      by_cases hid : a.artifactId = id
      · simp only [hid, decide_true, if_true]
        cases hrest : rest.filter (·.artifactId = id) with
        | nil => rfl
        | cons b bs =>
            rw [List.getLast?_cons_of_ne_nil (List.cons_ne_nil b bs)]
            simp [List.getLast?_eq_some_getLast (List.cons_ne_nil b bs)]
      · simp [hid]

theorem foldl_set_keyed (artifacts : List Artifact) (m : InsertionMap String Artifact)
    (h : ∀ e ∈ m.entries, e.2.artifactId = e.1) :
    ∀ e ∈ (artifacts.foldl (fun m a => m.set a.artifactId a) m).entries, e.2.artifactId = e.1 := by
  induction artifacts generalizing m with
  | nil => exact h
  | cons a rest ih =>
      refine ih _ fun e he => ?_
      have hget := (InsertionMap.mem_entries_iff _ e.1 e.2).mp he
      rw [InsertionMap.get?_set] at hget
      split at hget
      · rename_i hkey
        obtain rfl := Option.some.inj hget
        exact hkey
      · exact h e ((InsertionMap.mem_entries_iff m e.1 e.2).mpr hget)

theorem mem_taskArtifacts {prior current : List Artifact} {a : Artifact} :
    a ∈ taskArtifacts prior current ↔ lastCopy (prior ++ current) a.artifactId = some a := by
  have hkeyed := foldl_set_keyed (prior ++ current) .empty nofun
  have hget := foldl_set_get? (prior ++ current) .empty a.artifactId
  rw [InsertionMap.get?_empty, Option.or_none] at hget
  rw [← hget, ← InsertionMap.mem_entries_iff]
  constructor
  · intro hmem
    obtain ⟨e, he, rfl⟩ := List.mem_map.mp hmem
    rw [hkeyed e he]
    exact he
  · exact fun hmem => List.mem_map.mpr ⟨_, hmem, rfl⟩

theorem nodup_taskArtifacts (prior current : List Artifact) :
    ((taskArtifacts prior current).map (·.artifactId)).Nodup := by
  have hkeyed := foldl_set_keyed (prior ++ current) .empty nofun
  unfold taskArtifacts
  have hids : ((prior ++ current).foldl (fun (m : InsertionMap String Artifact) a =>
      m.set a.artifactId a) .empty).values.map (·.artifactId) = _ :=
    (List.map_map ..).trans (List.map_congr_left hkeyed)
  rw [hids]
  exact InsertionMap.nodup_keys _

theorem lastCopy_append {prior current : List Artifact} {id : String}
    (h : current.filter (·.artifactId = id) ≠ []) :
    lastCopy (prior ++ current) id = lastCopy current id := by
  unfold lastCopy
  rw [List.filter_append, List.getLast?_append_of_ne_nil _ h]

theorem copies_ne_nil {events : List TaskArtifactUpdateEvent} {id : String}
    (h : eventsOf events id ≠ []) :
    (events.foldl appendArtifactChunk []).filter (·.artifactId = id) ≠ [] := by
  rw [filter_accumulated]
  cases hevents : eventsOf events id with
  | nil => exact absurd hevents h
  | cons event rest =>
      rw [List.map_cons, List.foldl_cons, Change.addCopy_nil, Change.foldl_addCopy]
      exact List.cons_ne_nil _ _

/-- What the run shows is the fold, exactly if the replacements stand. -/
theorem shown_iff (prior : List Artifact) (events : List TaskArtifactUpdateEvent) :
    ArtifactFoldSpec events (taskArtifacts prior (events.foldl appendArtifactChunk [])) ↔
      ReplacementsStand events := by
  have hshown : ∀ {id : String}, eventsOf events id ≠ [] → ∀ {a : Artifact}, a.artifactId = id →
      (a ∈ taskArtifacts prior (events.foldl appendArtifactChunk []) ↔
        lastCopy (events.foldl appendArtifactChunk []) id = some a) := by
    intro id hne a hid
    rw [mem_taskArtifacts, hid, lastCopy_append (copies_ne_nil hne)]
  constructor
  · intro h id
    rw [← lastCopy_parts]
    cases hfold : artifactFold events id with
    | none =>
        cases hevents : eventsOf events id with
        | nil => simp [lastCopy, filter_accumulated, hevents]
        | cons event rest =>
            rw [artifactFold_eq, hevents, List.map_cons, Change.fold_cons] at hfold
            split at hfold <;> cases hfold
    | some parts =>
        obtain ⟨a, hmem, hid, hparts⟩ := h.parts id parts hfold
        rw [(hshown (artifactFold_isSome hfold) hid).mp hmem, Option.map_some, hparts]
  · intro h
    refine ⟨nodup_taskArtifacts _ _, fun id parts hfold => ?_⟩
    have hlast := (lastCopy_parts events id).mpr (h id)
    rw [hfold] at hlast
    obtain ⟨a, ha, hparts⟩ := Option.map_eq_some_iff.mp hlast
    have hid : a.artifactId = id := by
      have hmem := List.mem_of_getLast? ha
      exact of_decide_eq_true (List.mem_filter.mp hmem).2
    exact ⟨a, (hshown (artifactFold_isSome hfold) hid).mpr ha, hid, hparts⟩

/-- The copies are the fold, exactly if nothing is replaced but by its first event. -/
theorem copies_iff (events : List TaskArtifactUpdateEvent) :
    ArtifactFoldSpec events (events.foldl appendArtifactChunk []) ↔ ReplacedOnlyFirst events := by
  have hsingle : ∀ {id event rest}, eventsOf events id = event :: rest →
      ((∃ a, (events.foldl appendArtifactChunk []).filter (·.artifactId = id) = [a]) ↔
        Change.lastReplacement ((eventsOf events id).tail.map (·.toChange)) = none) := by
    intro id event rest hevents
    rw [filter_accumulated, hevents]
    exact Change.copies_eq_singleton event.toChange (rest.map (·.toChange))
  constructor
  · intro h id
    cases hevents : eventsOf events id with
    | nil => rfl
    | cons event rest =>
        rw [← hevents, ← hsingle hevents, ← List.length_eq_one_iff]
        have hle := (nodup_iff_filter _).mp h.once id
        have hpos := List.length_pos_iff.mpr (copies_ne_nil (hevents ▸ List.cons_ne_nil event rest))
        omega
  · intro h
    have hcopies : ∀ id, ((events.foldl appendArtifactChunk []).filter
        (·.artifactId = id)).length ≤ 1 := by
      intro id
      cases hevents : eventsOf events id with
      | nil => simp [filter_accumulated, hevents]
      | cons event rest =>
          obtain ⟨a, ha⟩ := (hsingle hevents).mpr (h id)
          rw [ha]
          exact Nat.le_refl 1
    refine ⟨(nodup_iff_filter _).mpr hcopies, fun id parts hfold => ?_⟩
    have hlast := (lastCopy_parts events id).mpr (h.stand id)
    rw [hfold] at hlast
    obtain ⟨a, ha, hparts⟩ := Option.map_eq_some_iff.mp hlast
    obtain ⟨hmem, hid⟩ := List.mem_filter.mp (List.mem_of_getLast? ha)
    exact ⟨a, hmem, of_decide_eq_true hid, hparts⟩

/-! ## The artifacts of a run -/

/-- Where a run stands with its artifacts: nothing chosen yet, those of earlier turns chosen, taking
events, or past the fold. -/
inductive FoldStage where
  | unprepared
  | prepared
  | folding
  | over
  deriving DecidableEq

def Phase.foldStage : Phase → FoldStage
  | .idle | .opening => .unprepared
  | .reading | .marking => .prepared
  | .resuming .sent | .parked | .delivered _ | .authorizing _ | .saving _ | .settling _ _ | .yielded
  | .lastYielded | .drained | .persisting => .folding
  | _ => .over

/-- The artifact event a stream event stands for, if it was not refused. -/
def Yield.artifact? : Yield → Option TaskArtifactUpdateEvent
  | .relayed (.artifact event) _ => some event
  | _ => none

/-- A run that has accumulated nothing. -/
def foldSystem : System RunState RunAction where
  init x := x.Fresh ∧ x.accumulatedArtifacts = []
  step := runSystem.step

namespace RunState

variable {x x' : RunState}

/-- The artifact events the run has passed on. -/
def artifactEvents (x : RunState) : List TaskArtifactUpdateEvent := x.yields.filterMap Yield.artifact?

structure Folding (x : RunState) : Prop where
  accumulated : x.accumulatedArtifacts = x.artifactEvents.foldl appendArtifactChunk []
  silent : x.phase.foldStage = .unprepared ∨ x.phase.foldStage = .prepared → x.artifactEvents = []
  prepared : x.phase.foldStage = .prepared →
    x.priorArtifacts = if x.executionId.isSome then [] else x.task.artifacts.getD []
  replayed : x.phase.foldStage = .folding → x.executionId.isSome = true → x.priorArtifacts = []
  untouched : x.phase.foldStage = .folding → x.accumulatedArtifacts = [] →
    x.task.artifacts.getD [] = x.priorArtifacts
  shown : x.phase.foldStage = .folding → x.accumulatedArtifacts ≠ [] →
    x.task.artifacts = some (taskArtifacts x.priorArtifacts x.accumulatedArtifacts)

/-- A step that does not touch the artifacts. -/
theorem Folding.same (h : x.Folding)
    (hartifacts : (x'.artifactEvents, x'.accumulatedArtifacts, x'.priorArtifacts, x'.task.artifacts) =
      (x.artifactEvents, x.accumulatedArtifacts, x.priorArtifacts, x.task.artifacts))
    (hexecution : x'.executionId = x.executionId)
    (hstage : x'.phase.foldStage = x.phase.foldStage) : x'.Folding := by
  obtain ⟨hevents, haccumulated, hprior, htask⟩ : _ ∧ _ ∧ _ ∧ _ := by
    simpa only [Prod.mk.injEq] using hartifacts
  constructor
  · rw [haccumulated, hevents]
    exact h.accumulated
  · rw [hstage, hevents]
    exact h.silent
  · rw [hstage, hprior, hexecution, htask]
    exact h.prepared
  · rw [hstage, hprior, hexecution]
    exact h.replayed
  · rw [hstage, hprior, htask, haccumulated]
    exact h.untouched
  · rw [hstage, hprior, htask, haccumulated]
    exact h.shown

/-- A run that is past the fold only keeps what it has accumulated. -/
theorem Folding.over (h : x.Folding) (hevents : x'.artifactEvents = x.artifactEvents)
    (haccumulated : x'.accumulatedArtifacts = x.accumulatedArtifacts)
    (hstage : x'.phase.foldStage = .over) : x'.Folding := by
  refine ⟨?_, ?_, ?_, ?_, ?_, ?_⟩
  · rw [haccumulated, hevents]
    exact h.accumulated
  all_goals simp [hstage]

theorem artifactEvents_direct (ys : List Yield) (output : StreamEvent) :
    (ys ++ [Yield.direct output]).filterMap Yield.artifact? = ys.filterMap Yield.artifact? := by
  simp [Yield.artifact?]

/-! ### Outside the loop -/

theorem Folding.cleanup (h : x.Folding) (how : Finish) : (x.cleanup how).Folding := by
  obtain ⟨registry, controllers, hframe⟩ := x.cleanup_frame how
  rw [hframe]
  exact h.over rfl rfl rfl

theorem Folding.exitYield (h : x.Folding) (kind : ExitKind) (terminal : TaskStatusUpdateEvent) :
    (x.exitYield kind terminal).Folding := by
  obtain ⟨task, history, registry, controllers, hframe⟩ := x.exitYield_frame kind terminal
  rw [hframe]
  exact h.over (artifactEvents_direct _ _) rfl rfl

theorem Folding.exitWith (h : x.Folding) (kind : ExitKind) (event : TaskStatusUpdateEvent) :
    (x.exitWith kind event).Folding := by
  unfold RunState.exitWith
  split
  · exact h.over rfl rfl rfl
  · exact h.exitYield kind event

theorem Folding.prepare (h : x.Folding) (hstage : x.phase.foldStage = .unprepared) :
    x.prepare.Folding where
  accumulated := h.accumulated
  silent _ := h.silent (.inl hstage)
  prepared _ := rfl
  replayed hfolding := by simp [RunState.prepare, Phase.foldStage] at hfolding
  untouched hfolding := by simp [RunState.prepare, Phase.foldStage] at hfolding
  shown hfolding := by simp [RunState.prepare, Phase.foldStage] at hfolding

theorem Folding.start (h : x.Folding) (hp : x.phase = .idle) : x.start.Folding := by
  unfold RunState.start
  split
  · exact h.over rfl rfl rfl
  · split
    · exact h.same rfl rfl (by rw [hp]; rfl)
    · exact h.prepare (by rw [hp]; rfl)

theorem Folding.onOpened (h : x.Folding) (hp : x.phase = .opening)
    (outcome : Except Unit X402GateOutcome) : (x.onOpened outcome).Folding := by
  unfold RunState.onOpened
  split
  · exact h.over rfl rfl rfl
  · exact h.over (artifactEvents_direct _ _) rfl rfl
  · rename_i settlement
    have hpaid : Folding { x with settlement := settlement } := h.same rfl rfl rfl
    exact hpaid.prepare (by rw [hp]; rfl)

theorem Folding.onRead (h : x.Folding) (hp : x.phase = .reading)
    (result : Except Unit (Option Task)) : (x.onRead result).Folding := by
  unfold RunState.onRead
  split
  · exact h.over rfl rfl rfl
  · split
    · exact h.over rfl rfl rfl
    · split
      · exact h.over rfl rfl rfl
      · exact h.same rfl rfl (by rw [hp]; rfl)

/-- An execution of its own starts with no artifacts, any other with those the task has. -/
theorem Folding.dispatch (h : x.Folding) (hp : x.phase = .marking) : x.dispatch.Folding := by
  have hprior := h.prepared (by rw [hp]; rfl)
  have hevents := h.silent (.inr (by rw [hp]; rfl))
  have hempty : x.accumulatedArtifacts = [] := by rw [h.accumulated, hevents]; rfl
  unfold RunState.dispatch
  split
  · exact h.over rfl rfl rfl
  · simp only
    split
    · exact h.over rfl rfl rfl
    · rename_i parts hparts
      rcases Registry.sendToAgent _ _ _ with ⟨sent, registry⟩
      cases sent with
      | false => exact h.over rfl rfl rfl
      | true =>
          refine ⟨h.accumulated, fun _ => hevents, fun hprepared => ?_, fun _ hown => ?_,
            fun _ _ => ?_, fun _ hne => absurd hempty hne⟩
          · simp [Phase.foldStage] at hprepared
          · exact hprior.trans (if_pos hown)
          · show (if x.executionId.isSome then none else x.task.artifacts).getD [] = x.priorArtifacts
            rw [hprior]
            split <;> rfl

/-! ### In the loop -/

theorem Folding.onIterate (h : x.Folding) (hstage : x.phase.foldStage = .folding) (q : SinkQueue)
    (result : IterateResult StreamEvent String) : ((x.setQueue q).onIterate result).Folding := by
  have hqueue : (x.setQueue q).Folding := h.same rfl rfl rfl
  cases result with
  | thrown error => exact hqueue.cleanup .threw
  | _ => exact h.same rfl rfl hstage.symm

theorem Folding.onDispatched (h : x.Folding) {outcome : DispatchOutcome}
    (hp : x.phase = .resuming outcome) : (x.onDispatched outcome).Folding := by
  have hqueue : (x.setQueue x.queue.end).Folding := h.same rfl rfl rfl
  have harmed : x.armWatchdog.Folding := h.same rfl rfl rfl
  cases outcome with
  | sent => exact harmed.onIterate (by rw [armWatchdog, hp]; rfl) _ _
  | unsent => exact h.exitWith _ _
  | rejected rejection => exact hqueue.exitWith _ _
  | interrupted stored => exact hqueue.exitWith _ _

theorem Folding.yieldTerminal (h : x.Folding) (hstage : x.phase.foldStage = .folding)
    (event : TaskStatusUpdateEvent) (replaced : Option StreamEvent)
    (terminal : TaskStatusUpdateEvent) : (x.yieldTerminal event replaced terminal).Folding := by
  have hevents : (x.yieldTerminal event replaced terminal).artifactEvents = x.artifactEvents := by
    cases replaced <;>
      simp [RunState.yieldTerminal, RunState.emit, artifactEvents, Yield.artifact?]
  refine ⟨?_, fun hsilent => ?_, fun hprepared => ?_, fun _ => h.replayed hstage,
    fun _ hempty => ?_, fun _ hne => if_neg hne⟩
  · rw [hevents]
    exact h.accumulated
  · simp [RunState.yieldTerminal, Phase.foldStage] at hsilent
  · simp [RunState.yieldTerminal, Phase.foldStage] at hprepared
  · have hkept : (x.yieldTerminal event replaced terminal).task.artifacts = x.task.artifacts :=
      if_pos hempty
    rw [hkept]
    exact h.untouched hstage hempty

theorem Folding.conclude (h : x.Folding) (hstage : x.phase.foldStage = .folding)
    (event : TaskStatusUpdateEvent) (replaced : Option StreamEvent) :
    (x.conclude event replaced).Folding := by
  unfold RunState.conclude
  split
  · exact h.same rfl rfl hstage.symm
  · exact h.yieldTerminal hstage event replaced event

theorem Folding.yieldStatus (h : x.Folding) (hstage : x.phase.foldStage = .folding)
    (event : TaskStatusUpdateEvent) : (x.yieldStatus event).Folding := by
  have hevents : (x.yieldStatus event).artifactEvents = x.artifactEvents := by
    simp [RunState.yieldStatus, RunState.emit, artifactEvents, Yield.artifact?]
  refine h.same ?_ rfl hstage.symm
  rw [hevents]
  rfl

theorem appendArtifactChunk_ne_nil (accumulated : List Artifact) (event : TaskArtifactUpdateEvent) :
    appendArtifactChunk accumulated event ≠ [] := by
  intro hnil
  unfold appendArtifactChunk at hnil
  split at hnil
  · simp at hnil
  · cases hfind : accumulated.findIdx? (·.artifactId = event.artifact.artifactId) with
    | none => simp [hfind] at hnil
    | some i =>
        obtain ⟨hlt, -⟩ := List.findIdx?_eq_some_iff_getElem.mp hfind
        have hlength := congrArg List.length hnil
        simp only [hfind, Option.getD_some, List.length_modify, List.length_nil] at hlength
        omega

/-- An artifact is taken into the fold; a status leaves it alone. -/
theorem Folding.relay (h : x.Folding) (hstage : x.phase.foldStage = .folding) (event : StreamEvent) :
    (x.relay event).Folding := by
  cases event with
  | artifact chunk =>
      have hevents : (x.relay (.artifact chunk)).artifactEvents = x.artifactEvents ++ [chunk] := by
        simp [RunState.relay, RunState.emit, artifactEvents, Yield.artifact?]
      refine ⟨?_, fun hsilent => ?_, fun hprepared => ?_, fun _ => h.replayed hstage,
        fun _ hempty => ?_, fun _ _ => rfl⟩
      · rw [hevents, List.foldl_append, ← h.accumulated]
        rfl
      · simp [RunState.relay, Phase.foldStage] at hsilent
      · simp [RunState.relay, Phase.foldStage] at hprepared
      · exact absurd hempty (appendArtifactChunk_ne_nil x.accumulatedArtifacts chunk)
  | status status =>
      unfold RunState.relay
      simp only
      split
      · exact h.conclude hstage status none
      · split
        · have hrecorded : Folding { x with
              history := appendHistoryMessage x.history status.status.message
              task := { x.task with
                history := some (appendHistoryMessage x.history status.status.message)
                status := status.status } } := h.same rfl rfl rfl
          exact hrecorded.yieldStatus hstage status
        · exact h.same rfl rfl hstage.symm

theorem Folding.finishLoop (h : x.Folding) (hstage : x.phase.foldStage = .folding) :
    x.finishLoop.Folding := by
  unfold RunState.finishLoop
  simp only
  split <;> exact h.same rfl rfl hstage.symm

/-! ### Every step -/

theorem Folding.step {a : RunAction} (h : x.Folding) (hstep : foldSystem.step x a x') :
    x'.Folding := by
  obtain ⟨-, hperform⟩ := hstep
  have hstage : ∀ {p : Phase}, x.phase = p → p.foldStage = .folding →
      x.phase.foldStage = .folding := fun hp hfolding => hp ▸ hfolding
  cases perform_cases hperform with
  | started hp => exact h.start hp
  | scopeDone hp => exact h.over rfl rfl rfl
  | haltStoring hp => exact h.over rfl rfl rfl
  | exitDone stored hp => exact h.over rfl rfl rfl
  | exitStoring kind hp => exact h.over rfl rfl rfl
  | pulled hp => exact h.onIterate (hstage hp rfl) _ _
  | ended hp => exact h.finishLoop (hstage hp rfl)
  | closedOutside hp => exact h.over rfl rfl rfl
  | closedInside hp => exact h.cleanup .closed
  | dispatched outcome hp => exact h.onDispatched hp
  | processed event hp =>
      have harmed : x.armWatchdog.Folding := h.same rfl rfl rfl
      unfold RunState.process
      simp only
      split
      · exact harmed.same rfl rfl (hstage hp rfl).symm
      · exact harmed.relay (hstage hp rfl) event
  | drained hp => exact h.finishLoop (hstage hp rfl)
  | woken result q hp hq => exact h.onIterate (hstage hp rfl) q result
  | opened outcome hp => exact h.onOpened hp outcome
  | read result hp => exact h.onRead hp result
  | marked ok hp =>
      cases ok with
      | false => exact h.over rfl rfl rfl
      | true => exact h.dispatch hp
  | scopeStored event ok hp => exact h.over (artifactEvents_direct _ _) rfl rfl
  | exitStored ok hp => exact h.over rfl rfl rfl
  | saved event hp => exact h.yieldStatus (hstage hp rfl) event
  | unsaved event hp => exact h.cleanup .threw
  | stored ok hp => exact h.cleanup .returned
  | authorized event result hp =>
      unfold RunState.onAuthorized
      split
      · exact h.cleanup .threw
      · exact Folding.relay (x := { x with deliveryAuthorized := true }) (h.same rfl rfl rfl)
          (hstage hp rfl) event
      · have hsent : Folding { x with registry := (x.registry.sendToAgent x.request.agentId
            (.taskCancel x.request.taskId x.executionId)).2 } := h.same rfl rfl rfl
        exact hsent.conclude (hstage hp rfl) _ _
  | settled event replaced result hp =>
      unfold RunState.onSettled
      rcases x.settle event result with ⟨terminal, calls⟩
      have hcalls : Folding { x with gateCalls := x.gateCalls ++ calls } := h.same rfl rfl rfl
      cases terminal with
      | error error => exact hcalls.cleanup .threw
      | ok terminal => exact hcalls.yieldTerminal (hstage hp rfl) event replaced terminal
  | exitSettled kind event result hp =>
      unfold RunState.onExitSettled
      rcases x.settle event result with ⟨terminal, calls⟩
      have hcalls : Folding { x with gateCalls := x.gateCalls ++ calls } := h.same rfl rfl rfl
      cases terminal with
      | error error => exact hcalls.over rfl rfl rfl
      | ok terminal => exact hcalls.exitYield kind terminal
  | rearmed => exact h.same rfl rfl rfl
  | timedOut hw event hterminal => exact h.same rfl rfl rfl
  | aborted contextId registry hcancel hown hfirst => exact h.same rfl rfl rfl
  | canceled contextId registry hcancel hother => exact h.same rfl rfl rfl
  | environment registry abortControllers => exact h.same rfl rfl rfl

theorem folding_of_reachable (h : foldSystem.Reachable x) : x.Folding := by
  refine h.invariant (I := fun x => x.Folding) (fun x ⟨hfresh, hempty⟩ => ?_)
    fun x a x' hfolding hstep => hfolding.step hstep
  have hevents : x.artifactEvents = [] := by simp [artifactEvents, hfresh.yields]
  have hphase := hfresh.phase
  exact ⟨by rw [hempty, hevents]; rfl, fun _ => hevents, by simp [hphase, Phase.foldStage],
    by simp [hphase, Phase.foldStage], by simp [hphase, Phase.foldStage],
    by simp [hphase, Phase.foldStage]⟩

/-! ## What the run and the store end with -/

/-- The events leave no artifact that the copies show otherwise than the fold. A run without events
keeps the artifacts the task had. -/
structure FoldsRight (x : RunState) (stored : Task) : Prop where
  replaced : if x.executionId.isSome then ReplacedOnlyFirst x.artifactEvents
    else ReplacementsStand x.artifactEvents
  kept : x.executionId = none → x.artifactEvents = [] →
    (x.priorArtifacts.map (·.artifactId)).Nodup ∧
      ((stored.artifacts.getD []).map (·.artifactId)).Nodup

theorem artifactFoldSpec_nil (artifacts : List Artifact) :
    ArtifactFoldSpec [] artifacts ↔ (artifacts.map (·.artifactId)).Nodup :=
  ⟨ArtifactFoldSpec.once, fun h => ⟨h, nofun⟩⟩

theorem replacedOnlyFirst_nil : ReplacedOnlyFirst [] := fun _ => rfl

theorem Folding.accumulated_ne_nil (h : x.Folding) {event : TaskArtifactUpdateEvent}
    {events : List TaskArtifactUpdateEvent} (hevents : x.artifactEvents = event :: events) :
    x.accumulatedArtifacts ≠ [] := by
  have hcopies : (x.artifactEvents.foldl appendArtifactChunk []).filter
      (·.artifactId = event.artifact.artifactId) ≠ [] :=
    copies_ne_nil (by simp [hevents, eventsOf])
  intro hempty
  rw [← h.accumulated, hempty] at hcopies
  exact hcopies rfl

/-- The artifacts the run ends with. -/
theorem Folding.memory (h : x.Folding) (hp : x.phase = .persisting) :
    ArtifactFoldSpec x.artifactEvents (x.task.artifacts.getD []) ↔
      ReplacementsStand x.artifactEvents ∧
        (x.artifactEvents = [] → (x.priorArtifacts.map (·.artifactId)).Nodup) := by
  have hstage : x.phase.foldStage = .folding := by rw [hp]; rfl
  cases hevents : x.artifactEvents with
  | nil =>
      have hempty : x.accumulatedArtifacts = [] := by rw [h.accumulated, hevents]; rfl
      rw [h.untouched hstage hempty, artifactFoldSpec_nil]
      exact ⟨fun hnodup => ⟨replacedOnlyFirst_nil.stand, fun _ => hnodup⟩, fun hall => hall.2 rfl⟩
  | cons event events =>
      have hne := h.accumulated_ne_nil hevents
      rw [h.shown hstage hne, Option.getD_some, h.accumulated, hevents, shown_iff]
      exact ⟨fun hstand => ⟨hstand, nofun⟩, And.left⟩

theorem ids_normalizeTaskParts (task : Task) :
    ((normalizeTaskParts task).artifacts.getD []).map (·.artifactId) =
      (task.artifacts.getD []).map (·.artifactId) := by
  unfold normalizeTaskParts
  cases task.artifacts with
  | none => rfl
  | some artifacts => simp [normalizeArtifact, Function.comp_def]

/-- The artifacts the store ends with: the copies themselves, or what the run shows. -/
theorem Folding.stored (h : x.Folding) (hp : x.phase = .persisting) {store : TaskStore}
    {row written : TaskRow} {writer : ExecutionWriter} {dispatchId : String}
    (hstored : store.Persisted
      (writer.assignDispatch dispatchId x.executionId x.accumulatedArtifacts) x.finalUpdate row
      written) :
    ArtifactFoldSpec x.artifactEvents (written.task.artifacts.getD []) ↔
      if x.executionId.isSome then ReplacedOnlyFirst x.artifactEvents
      else ReplacementsStand x.artifactEvents ∧
        (x.artifactEvents = [] → ((row.task.artifacts.getD []).map (·.artifactId)).Nodup) := by
  have hstage : x.phase.foldStage = .folding := by rw [hp]; rfl
  rw [hstored.artifacts]
  cases hexecution : x.executionId with
  | some executionId =>
      have hcopies : (TaskStore.mergeUpdate (normalizeTaskParts row.task)
          (writer.assignDispatch dispatchId (some executionId) x.accumulatedArtifacts)
          x.finalUpdate).artifacts.getD [] = x.accumulatedArtifacts := by
        show (if x.accumulatedArtifacts = [] then none else some x.accumulatedArtifacts).getD [] = _
        split
        · rename_i hempty
          exact hempty.symm
        · rfl
      rw [hcopies, h.accumulated, copies_iff]
      rfl
  | none =>
      have hmerged : (TaskStore.mergeUpdate (normalizeTaskParts row.task)
          (writer.assignDispatch dispatchId none x.accumulatedArtifacts) x.finalUpdate).artifacts =
          (if x.accumulatedArtifacts = [] then none else x.task.artifacts).or
            (normalizeTaskParts row.task).artifacts := rfl
      rw [hmerged]
      simp only [Option.isSome_none, Bool.false_eq_true, if_false]
      cases hevents : x.artifactEvents with
      | nil =>
          have hempty : x.accumulatedArtifacts = [] := by rw [h.accumulated, hevents]; rfl
          rw [if_pos hempty, Option.none_or, artifactFoldSpec_nil, ids_normalizeTaskParts]
          exact ⟨fun hnodup => ⟨replacedOnlyFirst_nil.stand, fun _ => hnodup⟩,
            fun hall => hall.2 rfl⟩
      | cons event events =>
          have hne := h.accumulated_ne_nil hevents
          rw [if_neg hne, h.shown hstage hne, Option.some_or, Option.getD_some, h.accumulated,
            hevents, shown_iff]
          exact ⟨fun hstand => ⟨hstand, nofun⟩, And.left⟩

/-- After the run the artifacts are folded as the events say, in memory and in the row its last write
has reached, exactly if the copies do not get in the way. -/
theorem artifactFold_iff (h : foldSystem.Reachable x) (hp : x.phase = .persisting)
    {store : TaskStore} {row : TaskRow} {writer : ExecutionWriter} {dispatchId : String}
    {result : TaskUpdateResult}
    (hstore : store.updateTask (some row)
      (some (writer.assignDispatch dispatchId x.executionId x.accumulatedArtifacts))
      x.request.taskId x.finalUpdate = .ok result)
    (hkept : result.skipped = none) :
    (ArtifactFoldSpec x.artifactEvents (x.task.artifacts.getD []) ∧
      ∀ written ∈ result.row, ArtifactFoldSpec x.artifactEvents (written.task.artifacts.getD [])) ↔
      x.FoldsRight row.task := by
  have hfolding := folding_of_reachable h
  obtain ⟨-, hskipped⟩ | ⟨r, written, hrow, hresult, -, hstored⟩ :=
    TaskStore.updateTask_cases hstore
  · exact absurd hkept hskipped
  rw [Option.getD_some] at hstored
  obtain rfl := Option.some.inj hrow
  have hwritten : (∀ w ∈ result.row, ArtifactFoldSpec x.artifactEvents (w.task.artifacts.getD [])) ↔
      ArtifactFoldSpec x.artifactEvents (written.task.artifacts.getD []) := by
    simp [hresult]
  rw [hwritten, hfolding.memory hp, hfolding.stored hp hstored]
  cases hexecution : x.executionId with
  | none =>
      constructor
      · rintro ⟨⟨hstand, hprior⟩, -, hrow⟩
        exact ⟨by rw [hexecution]; exact hstand, fun _ hnil => ⟨hprior hnil, hrow hnil⟩⟩
      · rintro ⟨hreplaced, hkept⟩
        rw [hexecution] at hreplaced
        exact ⟨⟨hreplaced, fun hnil => (hkept hexecution hnil).1⟩, hreplaced,
          fun hnil => (hkept hexecution hnil).2⟩
  | some executionId =>
      have hprior := hfolding.replayed (by rw [hp]; rfl) (by rw [hexecution]; rfl)
      constructor
      · rintro ⟨-, honly⟩
        exact ⟨by rw [hexecution]; exact honly, fun hnone => by rw [hexecution] at hnone; cases hnone⟩
      · rintro ⟨honly, -⟩
        rw [hexecution] at honly
        exact ⟨⟨ReplacedOnlyFirst.stand honly, fun _ => by rw [hprior]; exact List.nodup_nil⟩, honly⟩

section Runs

/-- The state after a list of steps that can all happen. -/
private def runAll (x : RunState) (actions : List RunAction) : Option RunState :=
  actions.foldlM perform x

private theorem runAll_reachable {actions : List RunAction} (h : foldSystem.Reachable x)
    (hinside : ∀ a ∈ actions, ∀ x : RunState, x.Allows a) {d : RunState}
    (hd : foldSystem.Reachable d) : foldSystem.Reachable ((runAll x actions).getD d) := by
  induction actions generalizing x with
  | nil => exact h
  | cons a actions ih =>
      unfold runAll
      rw [List.foldlM_cons]
      cases hstep : x.perform a with
      | none => exact hd
      | some y =>
          exact ih (h.step ⟨hinside a List.mem_cons_self x, hstep⟩)
            fun a' hmem => hinside a' (List.mem_cons_of_mem a hmem)

/-- The agent has answered with these events. -/
private def answered (x : RunState) (events : List StreamEvent) : Registry :=
  x.registry.modifyCell x.binding fun c => { c with queue := events.foldl .push c.queue }

private theorem answered_rely (x : RunState) (events : List StreamEvent) :
    x.Rely (answered x events) x.abortControllers where
  installed k b hb _ := hb
  controllers k hk := hk
  fed := by
    have hcell : ((answered x events).cells x.binding).queue = events.foldl .push x.queue :=
      congrArg BindingCell.queue (Registry.modifyCell_cells_self _ _ _)
    rw [hcell]
    suffices hfed : ∀ q : SinkQueue, x.queue.Fed q → x.queue.Fed (events.foldl .push q) from
      hfed x.queue .refl
    clear hcell
    induction events with
    | nil => exact fun q hq => hq
    | cons event events ih => exact fun q hq => ih (q.push event) (hq.push event)
  removed hb hgone := absurd hb hgone

private def artifactEvent (text : String) (append : Bool) : StreamEvent :=
  .artifact
    { taskId := "task", contextId := "context"
      artifact := { artifactId := "a", parts := [textPart text] }, append := some append }

private def completedEvent : StreamEvent :=
  .status { taskId := "task", contextId := "context", final := true, status := { state := .completed } }

private def sentRun : RunState :=
  (runAll (messageRun connectedRegistry [textPart "hello"] false)
    [.next, .read (.ok none), .marked true]).getD (messageRun connectedRegistry [] false)

/-- A run whose agent answers with these events. -/
private def answeredRun (events : List StreamEvent) : RunState :=
  (runAll { sentRun with registry := answered sentRun events }
    (.resume :: events.flatMap fun _ => [.resume, .next])).getD sentRun

private theorem answeredRun_reachable (events : List StreamEvent) :
    foldSystem.Reachable (answeredRun events) := by
  have h₀ : foldSystem.Reachable (messageRun connectedRegistry [textPart "hello"] false) :=
    .of_init ⟨connectedRegistry_fresh _ _, rfl⟩
  have h₁ : foldSystem.Reachable sentRun :=
    runAll_reachable h₀ (by simp [Allows]) (.of_init ⟨connectedRegistry_fresh _ _, rfl⟩)
  have hrely : sentRun.Allows (.environment (answered sentRun events) sentRun.abortControllers) :=
    answered_rely sentRun events
  have h₂ := h₁.step ⟨hrely, rfl⟩
  refine runAll_reachable h₂ (fun a hmem x => ?_) h₁
  have hkind : a = .resume ∨ a = .next := by
    simp only [List.mem_cons, List.mem_flatMap, List.not_mem_nil, or_false] at hmem
    rcases hmem with hresume | ⟨-, -, hkind⟩
    · exact .inl hresume
    · exact hkind
  rcases hkind with rfl | rfl <;> trivial

private def ownRow : TaskRow where
  contextId := "context"
  state := .working
  task := { id := "task", status := { state := .working } }
  dispatchId := some "dispatch"

private def lastWrite (x : RunState) : Except String TaskUpdateResult :=
  TaskStore.updateTask {} (some ownRow)
    (some (ExecutionWriter.assignDispatch {} "dispatch" x.executionId x.accumulatedArtifacts))
    x.request.taskId x.finalUpdate

private def extendedRun : RunState :=
  answeredRun [artifactEvent "hello " false, artifactEvent "world" true, completedEvent]

/-- An artifact that arrives in two chunks. -/
theorem artifactFold_iff_chunks : ∃ result, lastWrite extendedRun = .ok result ∧
    ((ArtifactFoldSpec extendedRun.artifactEvents (extendedRun.task.artifacts.getD []) ∧
      ∀ written ∈ result.row,
        ArtifactFoldSpec extendedRun.artifactEvents (written.task.artifacts.getD [])) ↔
      extendedRun.FoldsRight ownRow.task) := by
  obtain ⟨hkept, hp⟩ : (lastWrite extendedRun).toOption.map (·.skipped) = some none ∧
      extendedRun.phase = .persisting := by decide +kernel
  cases hresult : lastWrite extendedRun with
  | error e =>
      rw [hresult] at hkept
      cases hkept
  | ok result =>
      rw [hresult] at hkept
      have hreachable : foldSystem.Reachable extendedRun :=
        answeredRun_reachable _
      unfold lastWrite at hresult
      exact ⟨result, rfl, artifactFold_iff hreachable hp hresult (Option.some.inj hkept)⟩

private def replacedRun : RunState :=
  answeredRun [artifactEvent "draft" false, artifactEvent "hello " false, artifactEvent "world" true,
    completedEvent]

/-- An artifact that is replaced and then extended: the chunk extends the copy that has been replaced. -/
theorem artifactFold_fails : ¬ ∀ x : RunState, foldSystem.Reachable x → x.phase = .persisting →
    ∀ (store : TaskStore) (row : TaskRow) (writer : ExecutionWriter) (dispatchId : String)
      (result : TaskUpdateResult),
      store.updateTask (some row)
        (some (writer.assignDispatch dispatchId x.executionId x.accumulatedArtifacts))
        x.request.taskId x.finalUpdate = .ok result → result.skipped = none →
      ArtifactFoldSpec x.artifactEvents (x.task.artifacts.getD []) ∧
        ∀ written ∈ result.row, ArtifactFoldSpec x.artifactEvents (written.task.artifacts.getD []) := by
  intro hclaim
  obtain ⟨hkept, hp, hfold, hshown⟩ :
      (lastWrite replacedRun).toOption.map (·.skipped) = some none ∧
        replacedRun.phase = .persisting ∧
          artifactFold replacedRun.artifactEvents "a" = some [textPart "hello world"] ∧
            ∀ a ∈ replacedRun.task.artifacts.getD [], a.parts = [textPart "hello "] := by
    decide +kernel
  cases hresult : lastWrite replacedRun with
  | error e =>
      rw [hresult] at hkept
      cases hkept
  | ok result =>
      rw [hresult] at hkept
      have hreachable : foldSystem.Reachable replacedRun :=
        answeredRun_reachable _
      unfold lastWrite at hresult
      obtain ⟨⟨-, hparts⟩, -⟩ := hclaim replacedRun hreachable hp {} ownRow {} "dispatch" result
        hresult (Option.some.inj hkept)
      obtain ⟨a, hmem, -, heq⟩ := hparts "a" [textPart "hello world"] hfold
      rw [hshown a hmem] at heq
      simp [textPart] at heq

end Runs

end RunState

end VicoopBridge
