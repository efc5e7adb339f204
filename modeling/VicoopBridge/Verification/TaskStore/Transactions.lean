import VicoopBridge.Model.TaskStore

/-! # What one transaction does to the row

The marker survives everything that is stripped from a task on its way into the row, and a
write either leaves the row alone or merges over the stored task. -/

namespace VicoopBridge

/-! ## The marker -/

theorem executionMarker_withExecutionMarker (metadata : Option JsonObject)
    (executionId : Option String) :
    executionMarker (withExecutionMarker metadata executionId) = executionId := by
  have hrest : JsonObject.field ((metadata.getD []).without [executionMarkerKey])
      executionMarkerKey = none := by
    simp [JsonObject.field_without]
  cases executionId with
  | none =>
      simp only [executionMarker, withExecutionMarker, JsonObject.bind_nonEmpty_field, hrest]
  | some id =>
      simp only [executionMarker, withExecutionMarker, Option.bind_some, JsonObject.field_append,
        hrest, JsonObject.field_cons, Option.none_or]
      simp [JsonObject.string?, JsonObject.field_cons]

theorem markerKey_not_internal : executionMarkerKey ∉ internalMetadataKeys := by decide

theorem markerKey_ne_openaiCompat : executionMarkerKey ≠ openaiCompatExtensionUri := by decide

/-- The marker is what the metadata holds under its key. -/
theorem executionMarker_congr {metadata metadata' : Option JsonObject}
    (h : metadata.bind (JsonObject.field · executionMarkerKey) =
      metadata'.bind (JsonObject.field · executionMarkerKey)) :
    executionMarker metadata = executionMarker metadata' := by
  simp only [executionMarker, h]

theorem executionMarker_stripTaskMetadata (metadata : Option JsonObject) :
    executionMarker (stripTaskMetadata metadata) = executionMarker metadata := by
  cases metadata with
  | none => rfl
  | some m =>
      simp only [executionMarker, stripTaskMetadata, Option.bind_some,
        JsonObject.bind_nonEmpty_field, JsonObject.field_without, if_neg markerKey_not_internal]

theorem executionMarker_stripPersistedEnvelope (task : Task) :
    executionMarker (stripPersistedEnvelope task).metadata = executionMarker task.metadata := by
  have hfield : task.metadata.bind (JsonObject.field · executionMarkerKey) =
      (task.metadata.getD []).field executionMarkerKey := by
    cases task.metadata <;> rfl
  unfold stripPersistedEnvelope
  simp only
  split
  · split
    · apply executionMarker_congr
      rw [JsonObject.bind_nonEmpty_field, hfield]
      split
      · exact JsonObject.field_set_of_ne _ _ _ markerKey_ne_openaiCompat
      · rw [JsonObject.field_without, if_neg (by simpa using markerKey_ne_openaiCompat)]
    · rfl
  · rfl

theorem executionMarker_stripSensitiveMetadata (task : Task) (preserveEnvelope : Bool) :
    executionMarker (stripSensitiveMetadata task preserveEnvelope).metadata =
      executionMarker task.metadata := by
  simp only [stripSensitiveMetadata, executionMarker_stripTaskMetadata]
  split
  · rfl
  · exact executionMarker_stripPersistedEnvelope task

theorem stripPersistedEnvelope_frame (task : Task) :
    ∃ metadata, stripPersistedEnvelope task = { task with metadata := metadata } := by
  unfold stripPersistedEnvelope
  simp only
  split
  · split
    · exact ⟨_, rfl⟩
    · exact ⟨task.metadata, rfl⟩
  · exact ⟨task.metadata, rfl⟩

@[simp] theorem stripSensitiveMetadata_artifacts (task : Task) (preserveEnvelope : Bool) :
    (stripSensitiveMetadata task preserveEnvelope).artifacts = task.artifacts := by
  obtain ⟨metadata, h⟩ := stripPersistedEnvelope_frame task
  unfold stripSensitiveMetadata
  split <;> simp [h]

@[simp] theorem stripSensitiveMetadata_state (task : Task) (preserveEnvelope : Bool) :
    (stripSensitiveMetadata task preserveEnvelope).status.state = task.status.state := by
  obtain ⟨metadata, h⟩ := stripPersistedEnvelope_frame task
  unfold stripSensitiveMetadata
  split <;> simp [h]

/-! ## Parts -/

private theorem has_assignText_of_ne {o : JsonObject} {key key' : String} (h : key' ≠ key)
    (text : Option String) : (assignText o key text).has key' = o.has key' := by
  cases text with
  | none => rfl
  | some text => exact o.has_set_of_ne key _ h

/-- The part is one that normalization has to flatten. -/
private def Nested (part : JsonObject) : Prop :=
  (part.has "text" || part.has "data" || part.has "raw" || part.has "url") = false ∧
    ∃ file, part.field "file" = some (.obj file)

private theorem normalizePart_of_not_nested {part : JsonObject} (h : ¬ Nested part) :
    normalizePart part = part.without ["kind"] := by
  unfold normalizePart
  simp only
  split
  · rename_i file hsdk hfile
    exact absurd ⟨hsdk, file, hfile⟩ h
  · rfl

private theorem normalizePart_of_nested {part : JsonObject} (h : Nested part) {key : String}
    (hkey : key = "kind" ∨ key = "file") : (normalizePart part).has key = false := by
  obtain ⟨hsdk, file, hfile⟩ := h
  have hne : key ≠ "raw" ∧ key ≠ "url" ∧ key ≠ "filename" ∧ key ≠ "mediaType" := by
    rcases hkey with rfl | rfl <;> decide
  have hrest : (part.without ["kind", "file"]).has key = false := by
    rcases hkey with rfl | rfl <;> simp [JsonObject.has_without]
  obtain ⟨hraw, hurl, hname, htype⟩ := hne
  unfold normalizePart
  simp only [hsdk, hfile]
  rw [has_assignText_of_ne htype, has_assignText_of_ne hname, has_assignText_of_ne hurl,
    has_assignText_of_ne hraw, hrest]

theorem has_kind_normalizePart (part : JsonObject) : (normalizePart part).has "kind" = false := by
  by_cases hnested : Nested part
  · exact normalizePart_of_nested hnested (.inl rfl)
  · rw [normalizePart_of_not_nested hnested]
    simp [JsonObject.has_without]

theorem normalizePart_idem (part : JsonObject) :
    normalizePart (normalizePart part) = normalizePart part := by
  have hdone : ¬ Nested (normalizePart part) := by
    by_cases hnested : Nested part
    · rintro ⟨-, file, hfile⟩
      have hnone := normalizePart_of_nested hnested (.inr rfl)
      simp [JsonObject.has, hfile] at hnone
    · rw [normalizePart_of_not_nested hnested]
      rintro ⟨hsdk, file, hfile⟩
      refine hnested ⟨by simpa [JsonObject.has_without] using hsdk, file, ?_⟩
      simpa [JsonObject.field_without] using hfile
  rw [normalizePart_of_not_nested hdone]
  exact JsonObject.without_eq_self _ _ (by simpa using has_kind_normalizePart part)

theorem normalizeArtifact_idem (a : Artifact) :
    normalizeArtifact (normalizeArtifact a) = normalizeArtifact a := by
  simp [normalizeArtifact, normalizePart_idem]

/-! ## Writes -/

namespace TaskStore

variable {store : TaskStore} {row : Option TaskRow} {r : TaskRow}

theorem lockTask_eq_some {existing : Task} {dispatchId : Option String}
    (h : store.lockTask row = some (existing, dispatchId)) :
    ∃ r, row = some r ∧ store.owns r = true ∧ existing = normalizeTaskParts r.task ∧
      dispatchId = r.dispatchId := by
  simp only [lockTask, Option.map_eq_some_iff, Prod.mk.injEq, Option.filter_eq_some_iff] at h
  obtain ⟨r, ⟨hrow, howns⟩, rfl, rfl⟩ := h
  exact ⟨r, hrow, howns, rfl, rfl⟩

/-- Replacing a row keeps its dispatch and who owns it. -/
theorem writeTask_some (howns : store.owns r = true) (task : Task) :
    ∃ written, store.writeTask (some r) task = some written ∧
      written.task = stripSensitiveMetadata task store.persistRequestEnvelope ∧
      written.state = task.status.state ∧ written.dispatchId = r.dispatchId ∧
      written.ownerAgent = r.ownerAgent := by
  simp only [writeTask, howns, if_true]
  exact ⟨_, rfl, rfl, rfl, rfl, rfl⟩

/-- What a write that reaches the row leaves there. -/
structure Persisted (store : TaskStore) (writer : ExecutionWriter) (update : TaskUpdate)
    (r written : TaskRow) : Prop where
  owned : store.owns r = true
  allowed : skipReason writer r.dispatchId = none
  notCanceled : ¬ (writer.message ∧ r.task.status.state = .canceled ∧
    (¬ writer.marked ∨ writer.dispatchId = r.dispatchId))
  dispatch : written.dispatchId = r.dispatchId
  owner : written.ownerAgent = r.ownerAgent
  marker : executionMarker written.task.metadata = executionMarker r.task.metadata
  state : written.task.status.state = (update.status.getD r.task.status).state
  artifacts : written.task.artifacts =
    (mergeUpdate (normalizeTaskParts r.task) writer update).artifacts

theorem mergeUpdate_status (existing : Task) (writer : ExecutionWriter) (update : TaskUpdate) :
    (mergeUpdate existing writer update).status = update.status.getD existing.status := by
  unfold mergeUpdate
  simp only
  split <;> rfl

/-- A write is kept from the row, or it is persisted. -/
theorem updateTask_cases {writer : Option ExecutionWriter} {taskId : String} {update : TaskUpdate}
    {result : TaskUpdateResult} (h : store.updateTask row writer taskId update = .ok result) :
    (result.row = row ∧ result.skipped ≠ none) ∨
      ∃ r written, row = some r ∧ result.row = some written ∧ result.skipped = none ∧
        store.Persisted (writer.getD {}) update r written := by
  unfold updateTask at h
  simp only at h
  split at h
  · simp at h
  · rename_i existing dispatchId hlock
    obtain ⟨r, rfl, howns, rfl, rfl⟩ := lockTask_eq_some hlock
    split at h
    · obtain rfl := Except.ok.inj h
      exact .inl ⟨rfl, nofun⟩
    · rename_i hcanceled
      cases hreason : skipReason (writer.getD {}) r.dispatchId with
      | some reason =>
          simp only [hreason] at h
          obtain rfl := Except.ok.inj h
          exact .inl ⟨rfl, nofun⟩
      | none =>
          simp only [hreason] at h
          obtain rfl := Except.ok.inj h
          obtain ⟨written, hwritten, htask, -, hdispatch, howner⟩ := writeTask_some howns
            { mergeUpdate (normalizeTaskParts r.task) (writer.getD {}) update with
              metadata := withExecutionMarker
                (mergeUpdate (normalizeTaskParts r.task) (writer.getD {}) update).metadata
                (executionMarker r.task.metadata) }
          refine .inr ⟨r, written, rfl, hwritten, rfl, howns, hreason, hcanceled, hdispatch,
            howner, ?_, ?_, ?_⟩
          · rw [htask, executionMarker_stripSensitiveMetadata, executionMarker_withExecutionMarker]
          · rw [htask, stripSensitiveMetadata_state, mergeUpdate_status]
            cases update.status <;> rfl
          · rw [htask, stripSensitiveMetadata_artifacts]

theorem markExecution_cases {taskId freshId dispatchId : String} {executionId : Option String}
    {row' : Option TaskRow}
    (h : store.markExecution row taskId freshId executionId = .ok (dispatchId, row')) :
    dispatchId = executionId.getD freshId ∧ ∃ r written, row = some r ∧ store.owns r = true ∧
      row' = some written ∧ written.dispatchId = some dispatchId ∧
      written.ownerAgent = r.ownerAgent ∧ written.task.status.state = .working ∧
      executionMarker written.task.metadata = executionId ∧
      (executionId.isSome → written.task.artifacts = none) := by
  unfold markExecution at h
  simp only at h
  split at h
  · simp at h
  · rename_i locked _ hlock
    obtain ⟨r, rfl, howns, rfl, -⟩ := lockTask_eq_some hlock
    obtain ⟨rfl, rfl⟩ := Prod.mk.inj (Except.ok.inj h)
    obtain ⟨written, hwritten, htask, -, -, hagent⟩ := writeTask_some howns
      { normalizeTaskParts r.task with
        artifacts := if executionId = none then (normalizeTaskParts r.task).artifacts else none
        status := { state := .working }
        metadata := withExecutionMarker (normalizeTaskParts r.task).metadata executionId }
    refine ⟨rfl, r, { written with dispatchId := some (executionId.getD freshId) }, rfl, howns,
      by rw [hwritten]; rfl, rfl, hagent, ?_, ?_, ?_⟩
    · simp only [htask, stripSensitiveMetadata_state]
    · simp only [htask, executionMarker_stripSensitiveMetadata,
        executionMarker_withExecutionMarker]
    · intro hsome
      have hne : executionId ≠ none := Option.isSome_iff_ne_none.mp hsome
      simp only [htask, stripSensitiveMetadata_artifacts, if_neg hne]

end TaskStore

end VicoopBridge
