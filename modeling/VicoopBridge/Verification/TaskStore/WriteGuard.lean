import VicoopBridge.Library.Transition
import VicoopBridge.Verification.TaskStore.Transactions

/-! # Many requests on one row

Every transaction locks the row, so a history of the row is a sequence of transactions.
Requests are numbered; one that runs outside a holder has no writer. -/

namespace VicoopBridge

open Library

/-! ## Histories of a row -/

/-- A committed `markExecution`. -/
structure Mark where
  request : ℕ
  dispatchId : String
  executionId : Option String
  deriving DecidableEq

/-- The row and its requests, with the marks committed so far, newest first, and the
artifacts each dispatch has produced. -/
structure StoreState where
  taskId : String
  store : TaskStore
  row : Option TaskRow := none
  writers : ℕ → Option ExecutionWriter
  marks : List Mark := []
  produced : List (String × Artifact) := []

inductive StoreAction where
  | create (id freshContext : String) (contextId : Option String) (metadata : Option JsonObject)
  | messageRequest (request : ℕ)
  | update (request : ℕ) (update : TaskUpdate)
  /-- The request may never learn that its mark was committed. -/
  | mark (request : ℕ) (freshId : String) (executionId : Option String) (acknowledged : Bool)
  /-- The executor of a dispatch brings its list of artifacts up to date. -/
  | produce (request : ℕ) (artifacts : List Artifact)
  | delete

namespace StoreState

def setWriter (s : StoreState) (request : ℕ) (writer : Option ExecutionWriter) : StoreState :=
  { s with writers := Function.update s.writers request writer }

def commitMark (s : StoreState) (request : ℕ) (freshId : String) (executionId : Option String)
    (acknowledged : Bool) : StoreState :=
  match s.store.markExecution s.row s.taskId freshId executionId with
  | .error _ => s
  | .ok (dispatchId, row) =>
      let s := { s with row := row, marks := ⟨request, dispatchId, executionId⟩ :: s.marks }
      if acknowledged then
        s.setWriter request ((s.writers request).map (·.assignDispatch dispatchId executionId []))
      else s

def produce (s : StoreState) (request : ℕ) (artifacts : List Artifact) : StoreState :=
  match s.writers request with
  | some w =>
      match w.dispatchId, w.artifacts with
      | some dispatchId, some _ =>
          { s.setWriter request (some { w with artifacts := some artifacts }) with
            produced := artifacts.map (dispatchId, ·) ++ s.produced }
      | _, _ => s
  | none => s

def apply (s : StoreState) : StoreAction → StoreState
  | .create id freshContext contextId metadata =>
      { s with row := (s.store.createTask id freshContext contextId metadata).2 }
  | .messageRequest request => s.setWriter request (markMessageRequest (s.writers request))
  | .update request update =>
      match s.store.updateTask s.row (s.writers request) s.taskId update with
      | .error _ => s
      | .ok result => { s with row := result.row }
  | .mark request freshId executionId acknowledged =>
      s.commitMark request freshId executionId acknowledged
  | .produce request artifacts => s.produce request artifacts
  | .delete => { s with row := none }

/-- Random ids are new. -/
def enabled (s : StoreState) : StoreAction → Prop
  | .create .. => s.row = none ∧ s.marks = []
  | .mark _ freshId executionId _ => ∀ m ∈ s.marks, m.dispatchId ≠ executionId.getD freshId
  | _ => True

end StoreState

def storeSystem : System StoreState StoreAction where
  init s := ∃ taskId store writers, s = { taskId := taskId, store := store, writers := writers } ∧
    ∀ i, writers i = none ∨ writers i = some {}
  step s a t := s.enabled a ∧ t = s.apply a

/-! ## The guard -/

namespace StoreState

/-- The writer's dispatch is not the last one that was marked. -/
def Superseded (s : StoreState) (w : ExecutionWriter) : Prop :=
  ∃ later m earlier, s.marks = later ++ m :: earlier ∧ later ≠ [] ∧
    w.dispatchId = some m.dispatchId

/-- A request whose writes the guard checks. -/
def Guarded (s : StoreState) (request : ℕ) : Prop :=
  ∃ w, s.writers request = some w ∧ w.message = true

/-- No unguarded write gives the task a state other than canceled. -/
def KeepsCancellation (s : StoreState) : StoreAction → Prop
  | .update request update => s.Guarded request ∨
      ∀ status, update.status = some status → status.state = .canceled
  | _ => True

/-- No unguarded write brings artifacts. -/
def NoForeignArtifacts (s : StoreState) : StoreAction → Prop
  | .update request update => s.Guarded request ∨ update.artifacts = none
  | _ => True

structure WriteGuardSpec (s : StoreState) : Prop where
  /-- The stored marker is the one of the last mark. -/
  marker : ∀ r, s.row = some r →
    executionMarker r.task.metadata = s.marks.head?.bind (·.executionId)
  /-- A writer that was superseded, or never dispatched while another owns the row. -/
  superseded : ∀ i w update result, s.writers i = some w → w.message = true →
    s.Superseded w ∨ w.marked = false ∧ s.marks ≠ [] →
    s.store.updateTask s.row (some w) s.taskId update = .ok result → result.row = s.row
  /-- From the cancellation of a dispatch on, its writers change nothing. -/
  canceled : ∀ r dispatchId, s.row = some r → r.dispatchId = some dispatchId →
    r.task.status.state = .canceled →
    ∀ labels t, (storeSystem.restrict KeepsCancellation).Run s labels t →
    ∀ i w update result, t.writers i = some w → w.message = true →
    w.dispatchId = some dispatchId →
    t.store.updateTask t.row (some w) t.taskId update = .ok result → result.row = t.row
  /-- Up to the shape of their parts, the artifacts are those of the marked dispatch. -/
  artifacts : (storeSystem.restrict NoForeignArtifacts).Reachable s →
    ∀ r e, s.row = some r → executionMarker r.task.metadata = some e →
    ∀ a ∈ r.task.artifacts.getD [], ∃ a', (e, a') ∈ s.produced ∧
      normalizeArtifact a = normalizeArtifact a'

/-! ## The invariant -/

/-- What a writer knows of its own dispatch. -/
structure WriterInvariant (s : StoreState) (w : ExecutionWriter) : Prop where
  unmarked : w.marked = false → w.dispatchId = none ∧ w.artifacts = none
  message : w.marked = true → w.message = true
  mark : w.marked = true → ∃ m ∈ s.marks, w.dispatchId = some m.dispatchId ∧
    w.artifacts.isSome = m.executionId.isSome
  output : ∀ dispatchId artifacts, w.dispatchId = some dispatchId → w.artifacts = some artifacts →
    ∀ a ∈ artifacts, (dispatchId, a) ∈ s.produced

structure WriteInvariant (s : StoreState) : Prop where
  row_marker : ∀ r, s.row = some r →
    executionMarker r.task.metadata = s.marks.head?.bind (·.executionId)
  row_dispatch : ∀ r, s.row = some r → r.dispatchId = s.marks.head?.map (·.dispatchId)
  nodup : (s.marks.map (·.dispatchId)).Nodup
  execution : ∀ m ∈ s.marks, ∀ e, m.executionId = some e → m.dispatchId = e
  writer : ∀ i w, s.writers i = some w → s.WriterInvariant w

variable {s t : StoreState}

theorem WriterInvariant.mono {w : ExecutionWriter} (h : s.WriterInvariant w)
    (hmarks : ∀ m ∈ s.marks, m ∈ t.marks) (hproduced : ∀ p ∈ s.produced, p ∈ t.produced) :
    t.WriterInvariant w where
  unmarked := h.unmarked
  message := h.message
  mark hmarked := by
    obtain ⟨m, hm, hdispatch⟩ := h.mark hmarked
    exact ⟨m, hmarks m hm, hdispatch⟩
  output d artifacts hd ha a hmem := hproduced _ (h.output d artifacts hd ha a hmem)

theorem setWriter_cases {i j : ℕ} {writer : Option ExecutionWriter} {w : ExecutionWriter}
    (h : (s.setWriter i writer).writers j = some w) :
    writer = some w ∨ s.writers j = some w := by
  by_cases heq : j = i
  · subst heq
    exact .inl (by simpa [setWriter] using h)
  · exact .inr (by simpa [setWriter, heq] using h)

theorem WriteInvariant.create (inv : s.WriteInvariant) (hmarks : s.marks = [])
    (id freshContext : String) (contextId : Option String) (metadata : Option JsonObject) :
    (s.apply (.create id freshContext contextId metadata)).WriteInvariant := by
  refine ⟨?_, ?_, inv.nodup, inv.execution, fun i w hw => (inv.writer i w hw).mono
    (fun _ h => h) (fun _ h => h)⟩
  · intro r hr
    obtain rfl := Option.some.inj hr
    simp only [apply, hmarks, List.head?_nil, Option.bind_none,
      executionMarker_stripSensitiveMetadata, executionMarker_withExecutionMarker]
  · intro r hr
    obtain rfl := Option.some.inj hr
    simp [apply, hmarks]

theorem WriteInvariant.update (inv : s.WriteInvariant) (request : ℕ) (update : TaskUpdate) :
    (s.apply (.update request update)).WriteInvariant := by
  simp only [apply]
  split
  · exact inv
  · rename_i result hresult
    rcases TaskStore.updateTask_cases hresult with ⟨hrow, -⟩ | ⟨r, written, hr, hrow, -, hp⟩
    · rw [hrow]
      exact inv
    · refine ⟨?_, ?_, inv.nodup, inv.execution, fun i w hw => (inv.writer i w hw).mono
        (fun _ h => h) (fun _ h => h)⟩
      · intro r' hr'
        obtain rfl := Option.some.inj (hrow.symm.trans hr')
        exact hp.marker.trans (inv.row_marker r hr)
      · intro r' hr'
        obtain rfl := Option.some.inj (hrow.symm.trans hr')
        exact hp.dispatch.trans (inv.row_dispatch r hr)

theorem WriteInvariant.commitMark (inv : s.WriteInvariant) (request : ℕ) (freshId : String)
    (executionId : Option String) (acknowledged : Bool)
    (hfresh : ∀ m ∈ s.marks, m.dispatchId ≠ executionId.getD freshId) :
    (s.commitMark request freshId executionId acknowledged).WriteInvariant := by
  unfold StoreState.commitMark
  split
  · exact inv
  · rename_i dispatchId row hmark
    obtain ⟨rfl, r, written, hr, -, rfl, hdispatch, -, -, hmarker, -⟩ :=
      TaskStore.markExecution_cases hmark
    set marked : StoreState :=
      { s with row := some written
               marks := ⟨request, executionId.getD freshId, executionId⟩ :: s.marks }
    have hbase : marked.WriteInvariant := by
      refine ⟨?_, ?_, ?_, ?_, fun i w hw => (inv.writer i w hw).mono
        (fun _ h => List.mem_cons_of_mem _ h) (fun _ h => h)⟩
      · intro r' hr'
        obtain rfl := Option.some.inj hr'
        exact hmarker
      · intro r' hr'
        obtain rfl := Option.some.inj hr'
        exact hdispatch
      · refine List.nodup_cons.mpr ⟨?_, inv.nodup⟩
        rw [List.mem_map]
        rintro ⟨m, hm, heq⟩
        exact hfresh m hm heq
      · intro m hm e he
        rcases List.mem_cons.mp hm with rfl | hm
        · simp only at he
          simp [he]
        · exact inv.execution m hm e he
    simp only
    split
    · refine ⟨hbase.row_marker, hbase.row_dispatch, hbase.nodup, hbase.execution, ?_⟩
      intro j w hw
      rcases setWriter_cases hw with hnew | hold
      · obtain ⟨w₀, -, rfl⟩ := Option.map_eq_some_iff.mp hnew
        refine ⟨by simp [ExecutionWriter.assignDispatch], fun _ => rfl, fun _ => ?_, ?_⟩
        · refine ⟨_, List.mem_cons_self, rfl, ?_⟩
          cases executionId <;> rfl
        · intro d artifacts _ ha a hmem
          simp only [ExecutionWriter.assignDispatch] at ha
          split at ha
          · simp at ha
          · obtain rfl := Option.some.inj ha
            simp at hmem
      · exact (hbase.writer j w hold).mono (fun _ h => h) (fun _ h => h)
    · exact hbase

theorem WriteInvariant.produce (inv : s.WriteInvariant) (request : ℕ)
    (artifacts : List Artifact) : (s.produce request artifacts).WriteInvariant := by
  unfold StoreState.produce
  split
  · rename_i w hw
    split
    · rename_i dispatchId old hdispatch hold
      refine ⟨inv.row_marker, inv.row_dispatch, inv.nodup, inv.execution, ?_⟩
      intro j w' hw'
      have hmono : ∀ p ∈ s.produced, p ∈ artifacts.map (dispatchId, ·) ++ s.produced :=
        fun _ h => List.mem_append_right _ h
      have hwinv := inv.writer request w hw
      rcases setWriter_cases hw' with hnew | hother
      · obtain rfl := Option.some.inj hnew
        refine ⟨?_, hwinv.message, ?_, ?_⟩
        · intro hmarked
          rw [(hwinv.unmarked hmarked).2] at hold
          exact absurd hold (by simp)
        · intro hmarked
          obtain ⟨m, hm, hmd, hsome⟩ := hwinv.mark hmarked
          exact ⟨m, hm, hmd, by rw [← hsome, hold]; rfl⟩
        · intro d artifacts' hd ha a hmem
          obtain rfl := Option.some.inj ha
          obtain rfl := Option.some.inj (hdispatch.symm.trans hd)
          exact List.mem_append_left _ (List.mem_map_of_mem hmem)
      · exact (inv.writer j w' hother).mono (fun _ h => h) hmono
    · exact inv
  · exact inv

theorem WriteInvariant.step {a : StoreAction} (inv : s.WriteInvariant)
    (h : storeSystem.step s a t) : t.WriteInvariant := by
  obtain ⟨henabled, rfl⟩ := h
  cases a with
  | create id freshContext contextId metadata =>
      exact inv.create henabled.2 id freshContext contextId metadata
  | messageRequest request =>
      refine ⟨inv.row_marker, inv.row_dispatch, inv.nodup, inv.execution, ?_⟩
      intro j w hw
      rcases setWriter_cases hw with hnew | hold
      · obtain ⟨w₀, hw₀, rfl⟩ := Option.map_eq_some_iff.mp hnew
        have hinv := inv.writer request w₀ hw₀
        exact ⟨hinv.unmarked, fun _ => rfl, hinv.mark, hinv.output⟩
      · exact (inv.writer j w hold).mono (fun _ h => h) (fun _ h => h)
  | update request update => exact inv.update request update
  | mark request freshId executionId acknowledged =>
      exact inv.commitMark request freshId executionId acknowledged henabled
  | produce request artifacts => exact inv.produce request artifacts
  | delete =>
      exact ⟨fun _ h => absurd h (by simp [apply]), fun _ h => absurd h (by simp [apply]),
        inv.nodup, inv.execution, fun i w hw => (inv.writer i w hw).mono (fun _ h => h)
          (fun _ h => h)⟩

theorem writeInvariant_init (h : storeSystem.init s) : s.WriteInvariant := by
  obtain ⟨taskId, store, writers, rfl, hwriters⟩ := h
  refine ⟨by simp, by simp, by simp, by simp, ?_⟩
  intro i w hw
  obtain rfl : {} = w := by
    rcases hwriters i with hnone | hsome
    · exact absurd (hnone.symm.trans hw) (by simp)
    · exact Option.some.inj (hsome.symm.trans hw)
  exact ⟨fun _ => ⟨rfl, rfl⟩, by simp, by simp, by simp⟩

theorem writeInvariant_of_reachable (h : storeSystem.Reachable s) : s.WriteInvariant :=
  h.invariant (fun _ => writeInvariant_init) fun _ _ _ inv hstep => inv.step hstep

/-! ## Who may still write -/

/-- A write that reaches the row under the guard is one of the last marked dispatch, or
the task was never dispatched. -/
theorem WriteInvariant.persisted_guarded (inv : s.WriteInvariant) {i : ℕ} {w : ExecutionWriter}
    (hw : s.writers i = some w) (hmessage : w.message = true) {update : TaskUpdate}
    {r written : TaskRow} (hr : s.row = some r) (hp : s.store.Persisted w update r written) :
    (w.marked = false ∧ s.marks = []) ∨
      ∃ m earlier, s.marks = m :: earlier ∧ w.marked = true ∧ w.dispatchId = some m.dispatchId ∧
        r.task.status.state ≠ .canceled ∧ w.artifacts.isSome = m.executionId.isSome := by
  have hallowed := hp.allowed
  have hopen := hp.notCanceled
  have hrow := inv.row_dispatch r hr
  cases hmarks : s.marks with
  | nil =>
      refine .inl ⟨?_, rfl⟩
      by_contra hmarked
      obtain ⟨m, hm, -⟩ := (inv.writer i w hw).mark (by simpa using hmarked)
      simp [hmarks] at hm
  | cons m earlier =>
      rw [hmarks] at hrow
      simp only [List.head?_cons, Option.map_some] at hrow
      by_cases hmarked : w.marked = true
      · have hsame : w.dispatchId = some m.dispatchId := by
          by_contra hne
          simp [TaskStore.skipReason, hmessage, hmarked, hrow, hne] at hallowed
        refine .inr ⟨m, earlier, rfl, hmarked, hsame, ?_, ?_⟩
        · intro hcanceled
          exact hopen ⟨hmessage, hcanceled, .inr (hsame.trans hrow.symm)⟩
        · obtain ⟨m', hm', hdispatch, hsome⟩ := (inv.writer i w hw).mark hmarked
          have heq : m'.dispatchId = m.dispatchId :=
            Option.some.inj (hdispatch.symm.trans hsame)
          rw [hmarks] at hm'
          rcases List.mem_cons.mp hm' with rfl | hm'
          · exact hsome
          · have hnodup := inv.nodup
            rw [hmarks, List.map_cons, List.nodup_cons] at hnodup
            exact absurd (heq ▸ List.mem_map_of_mem hm') hnodup.1
      · simp [TaskStore.skipReason, hmessage, hmarked, hrow] at hallowed

theorem WriteInvariant.superseded_skipped (inv : s.WriteInvariant) {i : ℕ} {w : ExecutionWriter}
    {update : TaskUpdate} {result : TaskUpdateResult} (hw : s.writers i = some w)
    (hmessage : w.message = true)
    (hstale : s.Superseded w ∨ w.marked = false ∧ s.marks ≠ [])
    (h : s.store.updateTask s.row (some w) s.taskId update = .ok result) : result.row = s.row := by
  rcases TaskStore.updateTask_cases h with ⟨hrow, -⟩ | ⟨r, written, hr, -, -, hp⟩
  · exact hrow
  rcases inv.persisted_guarded hw hmessage hr hp with
    ⟨hunmarked, hnil⟩ | ⟨m, earlier, hmarks, hmarked, hsame, -⟩
  · rcases hstale with ⟨later, m, earlier, hmarks, -⟩ | ⟨-, hne⟩
    · simp [hnil] at hmarks
    · exact absurd hnil hne
  · rcases hstale with ⟨later, m', earlier', hmarks', hlater, hdispatch⟩ | ⟨hunmarked, -⟩
    · -- The writer's dispatch would be marked twice.
      obtain ⟨first, later', rfl⟩ := List.exists_cons_of_ne_nil hlater
      rw [hmarks] at hmarks'
      obtain ⟨rfl, rfl⟩ := List.cons.inj hmarks'
      have heq : m.dispatchId = m'.dispatchId := Option.some.inj (hsame.symm.trans hdispatch)
      have hnodup := inv.nodup
      rw [hmarks, List.map_cons, List.nodup_cons] at hnodup
      exact absurd (by simp [heq]) hnodup.1
    · simp [hmarked] at hunmarked

/-! ## After a cancellation -/

/-- A dispatch that was marked and, while it is the last one, is canceled. -/
structure CanceledSince (s : StoreState) (dispatchId : String) : Prop where
  invariant : s.WriteInvariant
  marked : ∃ m ∈ s.marks, m.dispatchId = dispatchId
  canceled : ∀ r, s.row = some r → r.dispatchId = some dispatchId →
    r.task.status.state = .canceled

theorem CanceledSince.step {dispatchId : String} {a : StoreAction}
    (h : s.CanceledSince dispatchId) (hallowed : s.KeepsCancellation a)
    (hstep : storeSystem.step s a t) : t.CanceledSince dispatchId := by
  have hinv := h.invariant.step hstep
  obtain ⟨henabled, rfl⟩ := hstep
  obtain ⟨m, hm, rfl⟩ := h.marked
  cases a with
  | create => exact absurd hm (by simp [henabled.2])
  | messageRequest => exact ⟨hinv, ⟨m, hm, rfl⟩, h.canceled⟩
  | update request update =>
      simp only [apply] at hinv ⊢
      split at hinv
      · exact ⟨hinv, ⟨m, hm, rfl⟩, h.canceled⟩
      · rename_i result hresult
        refine ⟨hinv, ⟨m, hm, rfl⟩, fun r' hr' hdispatch => ?_⟩
        rcases TaskStore.updateTask_cases hresult with ⟨hrow, -⟩ | ⟨r, written, hr, hrow, -, hp⟩
        · exact h.canceled r' (hrow ▸ hr') hdispatch
        · obtain rfl := Option.some.inj (hrow.symm.trans hr')
          have hcanceled := h.canceled r hr (hp.dispatch ▸ hdispatch)
          rcases hallowed with ⟨w, hw, hmessage⟩ | hstatus
          · -- The guard lets no writer write to a canceled task of the last dispatch.
            rw [hw] at hp
            rcases h.invariant.persisted_guarded hw hmessage hr hp with
              ⟨-, hnil⟩ | ⟨m', earlier, -, -, -, hopen, -⟩
            · simp [hnil] at hm
            · exact absurd hcanceled hopen
          · rw [hp.state]
            cases hup : update.status with
            | none => exact hcanceled
            | some status => exact hstatus status hup
  | mark request freshId executionId acknowledged =>
      simp only [apply, StoreState.commitMark] at hinv ⊢
      split at hinv
      · exact ⟨hinv, ⟨m, hm, rfl⟩, h.canceled⟩
      · rename_i dispatchId row hmark
        obtain ⟨rfl, r, written, -, -, rfl, hdispatch, -⟩ := TaskStore.markExecution_cases hmark
        have hne : written.dispatchId ≠ some m.dispatchId := by
          rw [hdispatch]
          exact fun heq => henabled m hm (Option.some.inj heq).symm
        refine ⟨hinv, ?_, ?_⟩
        · split <;> exact ⟨m, List.mem_cons_of_mem _ hm, rfl⟩
        · intro r' hr' hd
          have hr'' : some written = some r' := by
            split at hr' <;> exact hr'
          exact absurd (Option.some.inj hr'' ▸ hd) hne
  | produce request artifacts =>
      have hsame : (s.produce request artifacts).row = s.row ∧
          (s.produce request artifacts).marks = s.marks := by
        unfold StoreState.produce
        repeat' split
        all_goals exact ⟨rfl, rfl⟩
      refine ⟨hinv, ⟨m, hsame.2 ▸ hm, rfl⟩, fun r hr => h.canceled r (hsame.1 ▸ hr)⟩
  | delete => exact ⟨hinv, ⟨m, hm, rfl⟩, fun r hr => absurd hr (by simp [apply])⟩

theorem CanceledSince.skipped {dispatchId : String} (h : s.CanceledSince dispatchId) {i : ℕ}
    {w : ExecutionWriter} (hw : s.writers i = some w) (hmessage : w.message = true)
    (hdispatch : w.dispatchId = some dispatchId) {update : TaskUpdate} {result : TaskUpdateResult}
    (hresult : s.store.updateTask s.row (some w) s.taskId update = .ok result) :
    result.row = s.row := by
  rcases TaskStore.updateTask_cases hresult with ⟨hrow, -⟩ | ⟨r, written, hr, -, -, hp⟩
  · exact hrow
  rcases h.invariant.persisted_guarded hw hmessage hr hp with
    ⟨-, hnil⟩ | ⟨m, earlier, hmarks, -, hsame, hopen, -⟩
  · obtain ⟨m, hm, -⟩ := h.marked
    simp [hnil] at hm
  · have hrow := h.invariant.row_dispatch r hr
    rw [hmarks, List.head?_cons, Option.map_some, ← hsame, hdispatch] at hrow
    exact absurd (h.canceled r hr hrow) hopen

/-! ## Whose artifacts -/

def ArtifactInvariant (s : StoreState) : Prop :=
  ∀ r e, s.row = some r → executionMarker r.task.metadata = some e →
    ∀ a ∈ r.task.artifacts.getD [], ∃ a', (e, a') ∈ s.produced ∧
      normalizeArtifact a = normalizeArtifact a'

/-- The artifacts a write without artifacts of its own leaves are the stored ones. -/
theorem mergeUpdate_artifacts_of_foreign {existing : Task} {w : ExecutionWriter}
    {update : TaskUpdate} (hw : w.artifacts = none) (hup : update.artifacts = none) :
    (TaskStore.mergeUpdate existing w update).artifacts = existing.artifacts := by
  simp [TaskStore.mergeUpdate, hw, hup]

theorem mergeUpdate_artifacts_of_own {existing : Task} {w : ExecutionWriter}
    {update : TaskUpdate} {artifacts : List Artifact} (hmarked : w.marked = true)
    (hw : w.artifacts = some artifacts) :
    (TaskStore.mergeUpdate existing w update).artifacts.getD [] = artifacts := by
  simp only [TaskStore.mergeUpdate, hmarked, hw]
  split
  · rename_i hnil
    simp [hnil]
  · rfl

theorem ArtifactInvariant.update (h : s.ArtifactInvariant) (inv : s.WriteInvariant)
    {request : ℕ} {update : TaskUpdate} (hallowed : s.NoForeignArtifacts (.update request update)) :
    (s.apply (.update request update)).ArtifactInvariant := by
  simp only [apply]
  split
  · exact h
  rename_i result hresult
  rcases TaskStore.updateTask_cases hresult with ⟨hrow, -⟩ | ⟨r, written, hr, hrow, -, hp⟩
  · rw [hrow]
    exact h
  intro r' e hr' he a ha
  obtain rfl := Option.some.inj (hrow.symm.trans hr')
  rw [hp.marker] at he
  rw [hp.artifacts] at ha
  -- Without own artifacts the stored ones are read, normalized, and written back.
  have hstored : a ∈ (normalizeTaskParts r.task).artifacts.getD [] → ∃ a', (e, a') ∈ s.produced ∧
      normalizeArtifact a = normalizeArtifact a' := by
    intro hmem
    cases hartifacts : r.task.artifacts with
    | none => simp [normalizeTaskParts, hartifacts] at hmem
    | some artifacts =>
        simp only [normalizeTaskParts, hartifacts, Option.map_some, Option.getD_some,
          List.mem_map] at hmem
        obtain ⟨a₀, ha₀, rfl⟩ := hmem
        obtain ⟨a', ha', heq⟩ := h r e hr he a₀ (by simpa [hartifacts] using ha₀)
        exact ⟨a', ha', by rw [normalizeArtifact_idem, heq]⟩
  have hmarker := inv.row_marker r hr
  rw [he] at hmarker
  by_cases hguarded : s.Guarded request
  · obtain ⟨w, hw, hmessage⟩ := hguarded
    rw [hw, Option.getD_some] at hp ha
    rcases inv.persisted_guarded hw hmessage hr hp with
      ⟨-, hnil⟩ | ⟨m, earlier, hmarks, hmarked, hsame, -, hsome⟩
    · simp [hnil] at hmarker
    · rw [hmarks, List.head?_cons, Option.bind_some] at hmarker
      have hexec : m.dispatchId = e :=
        inv.execution m (by simp [hmarks]) e hmarker.symm
      obtain ⟨artifacts, hartifacts⟩ := Option.isSome_iff_exists.mp
        (hsome.trans (by simp [← hmarker]))
      rw [mergeUpdate_artifacts_of_own hmarked hartifacts] at ha
      exact ⟨a, (inv.writer request w hw).output e artifacts (hexec ▸ hsame) hartifacts a ha, rfl⟩
  · have hforeign : update.artifacts = none := hallowed.resolve_left hguarded
    have hown : ((s.writers request).getD {}).artifacts = none := by
      cases hw : s.writers request with
      | none => rfl
      | some w =>
          have hwinv := inv.writer request w hw
          refine (hwinv.unmarked ?_).2
          by_contra hmarked
          exact hguarded ⟨w, hw, hwinv.message (by simpa using hmarked)⟩
    rw [mergeUpdate_artifacts_of_foreign hown hforeign] at ha
    exact hstored ha

theorem ArtifactInvariant.step {a : StoreAction} (h : s.ArtifactInvariant)
    (inv : s.WriteInvariant) (hallowed : s.NoForeignArtifacts a)
    (hstep : storeSystem.step s a t) : t.ArtifactInvariant := by
  obtain ⟨henabled, rfl⟩ := hstep
  cases a with
  | create id freshContext contextId metadata =>
      intro r e hr he
      obtain rfl := Option.some.inj hr
      simp only [executionMarker_stripSensitiveMetadata,
        executionMarker_withExecutionMarker] at he
      exact absurd he (by simp)
  | messageRequest => exact h
  | update request update => exact h.update inv hallowed
  | mark request freshId executionId acknowledged =>
      simp only [apply, StoreState.commitMark]
      split
      · exact h
      · rename_i dispatchId row hmark
        obtain ⟨-, r, written, -, -, rfl, -, -, -, hmarker, hclean⟩ :=
          TaskStore.markExecution_cases hmark
        intro r' e hr' he a ha
        have hr'' : some written = some r' := by
          split at hr' <;> exact hr'
        obtain rfl := Option.some.inj hr''
        rw [hmarker] at he
        rw [hclean (by simp [he])] at ha
        simp at ha
  | produce request artifacts =>
      simp only [apply]
      unfold StoreState.produce
      split
      · split
        · intro r e hr he a ha
          obtain ⟨a', ha', heq⟩ := h r e hr he a ha
          exact ⟨a', List.mem_append_right _ ha', heq⟩
        · exact h
      · exact h
  | delete => exact fun r e hr => absurd hr (by simp [apply])

/-! ## The guard holds -/

theorem writeGuard_sound (h : storeSystem.Reachable s) : s.WriteGuardSpec := by
  have inv := writeInvariant_of_reachable h
  refine ⟨inv.row_marker, ?_, ?_, ?_⟩
  · intro i w update result hw hmessage hstale hresult
    exact inv.superseded_skipped hw hmessage hstale hresult
  · intro r dispatchId hr hdispatch hcanceled labels t hrun i w update result hw hmessage hwd
    have hmarks := inv.row_dispatch r hr
    rw [hdispatch] at hmarks
    obtain ⟨m, hm, hmd⟩ := Option.map_eq_some_iff.mp hmarks.symm
    have hsince : s.CanceledSince dispatchId := by
      refine ⟨inv, ⟨m, List.mem_of_mem_head? hm, hmd⟩, fun r' hr' _ => ?_⟩
      rw [← Option.some.inj (hr.symm.trans hr')]
      exact hcanceled
    have hafter := hrun.invariant (I := fun s => s.CanceledSince dispatchId)
      (fun _ _ _ hs hstep => hs.step hstep.1 hstep.2) hsince
    exact hafter.skipped hw hmessage hwd
  · intro hown
    have hboth : s.WriteInvariant ∧ s.ArtifactInvariant := by
      refine hown.invariant (I := fun s => s.WriteInvariant ∧ s.ArtifactInvariant) ?_ ?_
      · intro s hinit
        refine ⟨writeInvariant_init hinit, ?_⟩
        obtain ⟨taskId, store, writers, rfl, -⟩ := hinit
        exact fun r e hr => absurd hr (by simp)
      · rintro s a t ⟨hs, ha⟩ ⟨hallowed, hstep⟩
        exact ⟨hs.step hstep, ha.step hs hallowed hstep⟩
    exact hboth.2

section Witness

private def opened : StoreState where
  taskId := "task"
  store := {}
  writers := fun _ => some {}

/-- Request 0 was dispatched, and request 1 canceled it. -/
private def canceledRow : StoreState :=
  (((opened.apply (.create "task" "context" none none)).apply (.messageRequest 0)).apply
    (.mark 0 "fresh" (some "execution") true)).apply
      (.update 1 { status := some { state := .canceled } })

private def revive : TaskUpdate := { status := some { state := .working } }

private def complete : TaskUpdate := { status := some { state := .completed } }

private def foreignArtifacts : TaskUpdate :=
  { artifacts := some [{ artifactId := "artifact", parts := [] }] }

private theorem apply_reachable (h : storeSystem.Reachable s) (a : StoreAction)
    (henabled : s.enabled a) : storeSystem.Reachable (s.apply a) :=
  h.step ⟨henabled, rfl⟩

private theorem canceledRow_reachable : storeSystem.Reachable canceledRow := by
  have h₀ : storeSystem.Reachable opened :=
    .of_init ⟨"task", {}, fun _ => some {}, rfl, fun _ => .inr rfl⟩
  have h₁ := apply_reachable h₀ (.create "task" "context" none none) ⟨rfl, rfl⟩
  have h₂ := apply_reachable h₁ (.messageRequest 0) trivial
  have h₃ := apply_reachable h₂ (.mark 0 "fresh" (some "execution") true)
    fun m hm => absurd hm (by simp [apply, setWriter, opened])
  exact apply_reachable h₃ (.update 1 { status := some { state := .canceled } }) trivial

theorem writeGuard_sound_canceled :
    canceledRow.row.map (·.state) = some .canceled ∧ canceledRow.WriteGuardSpec :=
  ⟨by decide +kernel, writeGuard_sound canceledRow_reachable⟩

private def revived : StoreState := canceledRow.apply (.update 2 revive)

private def foreign : StoreState := canceledRow.apply (.update 1 foreignArtifacts)

/-- An unguarded write can take the cancellation back, after which a writer of the canceled
dispatch is let in again, and it can store artifacts no dispatch produced. -/
theorem unguarded_writes :
    (¬ ∀ s r dispatchId, storeSystem.Reachable s → s.row = some r →
      r.dispatchId = some dispatchId → r.task.status.state = .canceled →
      ∀ labels t, storeSystem.Run s labels t → ∀ i w update result, t.writers i = some w →
      w.message = true → w.dispatchId = some dispatchId →
      t.store.updateTask t.row (some w) t.taskId update = .ok result → result.row = t.row) ∧
    ¬ ∀ s, storeSystem.Reachable s → s.ArtifactInvariant := by
  refine ⟨fun hclaim => ?_, fun hclaim => ?_⟩
  · obtain ⟨r, hr⟩ := Option.isSome_iff_exists.mp
      (show canceledRow.row.isSome = true by decide +kernel)
    have hdispatch : canceledRow.row.bind (·.dispatchId) = some "execution" := by decide +kernel
    have hstate : canceledRow.row.map (·.task.status.state) = some .canceled := by decide +kernel
    obtain ⟨w, hw⟩ := Option.isSome_iff_exists.mp
      (show (revived.writers 0).isSome = true by decide +kernel)
    have hmessage : (revived.writers 0).map (·.message) = some true := by decide +kernel
    have hown : (revived.writers 0).bind (·.dispatchId) = some "execution" := by decide +kernel
    obtain ⟨result, hresult⟩ : ∃ result,
        revived.store.updateTask revived.row (revived.writers 0) revived.taskId complete =
          .ok result := by
      cases h : revived.store.updateTask revived.row (revived.writers 0) revived.taskId
        complete with
      | ok result => exact ⟨result, rfl⟩
      | error e =>
          have hok : (revived.store.updateTask revived.row (revived.writers 0) revived.taskId
            complete).isOk = true := by decide +kernel
          rw [h] at hok
          exact absurd hok (by simp [Except.isOk, Except.toBool])
    rw [hr] at hdispatch hstate
    rw [hw] at hmessage hown hresult
    have hsame := hclaim canceledRow r "execution" canceledRow_reachable hr hdispatch
      (Option.some.inj hstate) [.update 2 revive] revived (.single ⟨trivial, rfl⟩) 0 w complete
      result hw (Option.some.inj hmessage) hown hresult
    have hchanged : (revived.apply (.update 0 complete)).row ≠ revived.row := by decide +kernel
    refine hchanged ?_
    rw [← hsame, apply, hw, hresult]
  · have hreach : storeSystem.Reachable foreign :=
      apply_reachable canceledRow_reachable (.update 1 foreignArtifacts) trivial
    obtain ⟨r, hr⟩ := Option.isSome_iff_exists.mp (show foreign.row.isSome = true by decide +kernel)
    have hmarker : foreign.row.bind (fun r => executionMarker r.task.metadata) =
        some "execution" := by decide +kernel
    have hartifacts : foreign.row.bind (fun r => r.task.artifacts) =
        some [{ artifactId := "artifact", parts := [] }] := by decide +kernel
    have hproduced : foreign.produced = [] := by decide +kernel
    rw [hr, Option.bind_some] at hmarker hartifacts
    obtain ⟨a', ha', -⟩ := hclaim foreign hreach r "execution" hr hmarker
      { artifactId := "artifact", parts := [] } (by simp [hartifacts])
    rw [hproduced] at ha'
    exact absurd ha' (by simp)

end Witness

end StoreState

end VicoopBridge
