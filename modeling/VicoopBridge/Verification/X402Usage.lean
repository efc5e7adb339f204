import VicoopBridge.Model.X402Usage
import VicoopBridge.Verification.Codex.TurnIsolation

/-! # From the counts of a turn to the bill

The counts a Codex turn was told last are what the server reads off the frame that completes
the task. A turn that was told none is read as unreported, except inside the openai-compat
envelope. -/

namespace VicoopBridge

/-! ## The counts of a turn -/

namespace CodexTurn

variable {task : CodexTask} {x y z : CodexTurn}

/-- The valid counts that the event brings the turn. -/
def report (x : CodexTurn) : TurnEvent → Option OpenAICompatUsage
  | .notification method params =>
      if method = "thread/tokenUsage/updated" ∧ x.subscribed ∧ x.settled = none ∧
          x.passes (Json.get? params "turnId") then
        parseCodexTokenUsageForOpenAICompat (Json.get? params "tokenUsage")
      else none
  | _ => none

/-- A step that neither brings counts nor completes the task. -/
structure Unbilled (x y : CodexTurn) : Prop where
  finalUsage : y.finalUsage = x.finalUsage
  concluded : y.concluded = x.concluded
  settled : x.settled.isSome → y.settled.isSome
  emitted : ∀ status usage, .complete status usage ∈ y.emitted →
    .complete status usage ∈ x.emitted ∨ status.state ≠ .completed

theorem Unbilled.refl : Unbilled x x := ⟨rfl, rfl, fun h => h, fun _ _ h => .inl h⟩

theorem Unbilled.trans (h : Unbilled x y) (h' : Unbilled y z) : Unbilled x z where
  finalUsage := h'.finalUsage.trans h.finalUsage
  concluded := h'.concluded.trans h.concluded
  settled hx := h'.settled (h.settled hx)
  emitted status usage hz := by
    obtain hy | hother := h'.emitted status usage hz
    · exact h.emitted status usage hy
    · exact .inr hother

theorem unbilled_of_eq (husage : y.finalUsage = x.finalUsage) (hconcluded : y.concluded = x.concluded)
    (hsettled : y.settled = x.settled) (hemitted : y.emitted = x.emitted) : Unbilled x y :=
  ⟨husage, hconcluded, fun h => hsettled ▸ h, fun _ _ h => .inl (hemitted ▸ h)⟩

theorem unbilled_emit {body : TaskFrameBody}
    (hbody : ∀ status usage, body = .complete status usage → status.state ≠ .completed) :
    Unbilled x (x.emit body) where
  finalUsage := rfl
  concluded := rfl
  settled h := h
  emitted status usage h := by
    rcases List.mem_append.mp h with h | h
    · exact .inl h
    · exact .inr (hbody status usage (List.mem_singleton.mp h).symm)

theorem unbilled_requestInterrupt : Unbilled x x.requestInterrupt := by
  unfold requestInterrupt
  split
  · split
    · exact .refl
    · exact unbilled_of_eq rfl rfl rfl rfl
  · exact .refl

theorem unbilled_sendDeferredInterrupt : Unbilled x x.sendDeferredInterrupt := by
  unfold sendDeferredInterrupt
  split
  · exact .refl
  · refine Unbilled.trans ?_ unbilled_requestInterrupt
    exact unbilled_of_eq rfl rfl rfl rfl

theorem unbilled_finish (status : TurnOutcomeStatus) : Unbilled x (x.finish status) := by
  unfold finish
  split
  · exact .refl
  · exact ⟨rfl, rfl, fun _ => rfl, fun _ _ h => .inl h⟩

theorem unbilled_emitAgentArtifact (text : String) (append lastChunk : Bool) :
    Unbilled x (x.emitAgentArtifact task text append lastChunk) := by
  unfold emitAgentArtifact
  split
  · exact .refl
  · refine Unbilled.trans (unbilled_emit ?_) (unbilled_of_eq rfl rfl rfl rfl)
    simp

theorem unbilled_emitCommandTrace (item : Option Json) :
    Unbilled x (x.emitCommandTrace task item) := by
  unfold emitCommandTrace
  split
  · exact .refl
  · refine Unbilled.trans (unbilled_emit ?_) (unbilled_of_eq rfl rfl rfl rfl)
    simp

theorem unbilled_onItemCompleted (params : Option Json) :
    Unbilled x (x.onItemCompleted task params) := by
  unfold onItemCompleted
  split
  · exact .refl
  simp only
  split
  · rename_i text _ _
    have hset : Unbilled x { x with finalText := some text } := unbilled_of_eq rfl rfl rfl rfl
    split <;> exact hset.trans (unbilled_emitAgentArtifact _ _ _)
  · exact unbilled_emitCommandTrace _
  · exact .refl

theorem unbilled_onAgentMessageDelta (params : Option Json) :
    Unbilled x (x.onAgentMessageDelta task params) := by
  unfold onAgentMessageDelta
  split
  · exact .refl
  simp only
  split
  · exact .refl
  · refine Unbilled.trans ?_ (unbilled_emitAgentArtifact _ _ _)
    exact unbilled_of_eq rfl rfl rfl rfl

theorem unbilled_onTurnCompleted (params : Option Json) :
    Unbilled x (x.onTurnCompleted params) := by
  unfold onTurnCompleted
  simp only
  split
  · exact .refl
  · split <;> exact unbilled_finish _

theorem report_notification (x : CodexTurn) (method : String) (params : Option Json) :
    x.report (.notification method params) =
      if method = "thread/tokenUsage/updated" ∧ x.subscribed ∧ x.settled = none ∧
          x.passes (Json.get? params "turnId") then
        parseCodexTokenUsageForOpenAICompat (Json.get? params "tokenUsage")
      else none := rfl

theorem report_of_ne {method : String} {params : Option Json}
    (h : method ≠ "thread/tokenUsage/updated") : x.report (.notification method params) = none := by
  simp [report_notification, h]

theorem unbilled_onTokenUsageUpdated {params : Option Json} (hsubscribed : x.subscribed = true)
    (hopen : x.settled = none) :
    Unbilled { x with finalUsage :=
        (x.report (.notification "thread/tokenUsage/updated" params)).or x.finalUsage }
      (x.onTokenUsageUpdated params) := by
  by_cases hpasses : x.passes (Json.get? params "turnId") = true
  · have hreport : x.report (.notification "thread/tokenUsage/updated" params) =
        parseCodexTokenUsageForOpenAICompat (Json.get? params "tokenUsage") := by
      rw [report_notification, if_pos ⟨rfl, hsubscribed, hopen, hpasses⟩]
    rw [hreport, onTokenUsageUpdated, if_neg (not_not.mpr hpasses)]
    cases parseCodexTokenUsageForOpenAICompat (Json.get? params "tokenUsage") with
    | none => exact .refl
    | some parsed =>
        simp only
        split
        · exact unbilled_sendDeferredInterrupt
        · exact .refl
  · have hreport : x.report (.notification "thread/tokenUsage/updated" params) = none := by
      rw [report_notification, if_neg fun h => hpasses h.2.2.2]
    rw [hreport, onTokenUsageUpdated, if_pos hpasses]
    exact .refl

theorem unbilled_onNotification (method : String) (params : Option Json) :
    Unbilled { x with finalUsage := (x.report (.notification method params)).or x.finalUsage }
      (x.onNotification task method params) := by
  unfold onNotification
  split
  · rename_i hdeaf
    have hnone : x.report (.notification method params) = none := by
      rw [report_notification, if_neg]
      rintro ⟨-, hsubscribed, hopen, -⟩
      obtain hdeaf | hdeaf := hdeaf
      · exact hdeaf hsubscribed
      · simp [hopen] at hdeaf
    rw [hnone]
    exact .refl
  rename_i hlistens
  push Not at hlistens
  split
  · exact unbilled_onTokenUsageUpdated hlistens.1 (by simpa using hlistens.2)
  · rw [report_of_ne (by decide)]
    exact unbilled_onItemCompleted params
  · rw [report_of_ne (by decide)]
    exact unbilled_onAgentMessageDelta params
  · rw [report_of_ne (by decide)]
    exact unbilled_onTurnCompleted params
  · rename_i hmethod _ _ _
    rw [report_of_ne hmethod]
    exact .refl

theorem unbilled_onAbort : Unbilled x x.onAbort :=
  unbilled_requestInterrupt.trans (unbilled_of_eq rfl rfl rfl rfl)

theorem unbilled_start (closed : Bool) : Unbilled x (x.start closed) := by
  have hsubscribed : Unbilled x { x with subscribed := true } := unbilled_of_eq rfl rfl rfl rfl
  have hstarted : Unbilled x (if x.aborted then ({ x with subscribed := true } : CodexTurn).onAbort
      else { x with subscribed := true }) := by
    split
    · exact hsubscribed.trans unbilled_onAbort
    · exact hsubscribed
  unfold start
  simp only
  split
  · exact hstarted.trans (unbilled_of_eq rfl rfl rfl rfl)
  · exact hstarted

theorem unbilled_runJob : Unbilled x x.runJob := by
  unfold runJob
  split
  · exact .refl
  · rename_i job jobs _
    have htaken : Unbilled x { x with jobs := jobs } := unbilled_of_eq rfl rfl rfl rfl
    cases job with
    | started turnId => exact unbilled_of_eq rfl rfl rfl rfl
    | startFailed message => exact htaken.trans (unbilled_finish _)
    | transportClosed => exact htaken.trans (unbilled_finish _)

/-- Everything up to the end of the task. -/
theorem unbilled_handle {event : TurnEvent} (hevent : ∀ created, event ≠ .conclude created) :
    Unbilled { x with finalUsage := (x.report event).or x.finalUsage } (x.handle task event) := by
  cases event with
  | start closed => exact unbilled_start closed
  | response result => cases result <;> exact unbilled_of_eq rfl rfl rfl rfl
  | transportClosed => exact unbilled_of_eq rfl rfl rfl rfl
  | job => exact unbilled_runJob
  | notification method params => exact unbilled_onNotification method params
  | toolCall p =>
      simp only [handle, onToolCall]
      split <;> exact unbilled_of_eq rfl rfl rfl rfl
  | abort =>
      simp only [handle]
      split
      · exact .refl
      · split
        · refine Unbilled.trans ?_ unbilled_onAbort
          exact unbilled_of_eq rfl rfl rfl rfl
        · exact unbilled_of_eq rfl rfl rfl rfl
  | abortGrace =>
      simp only [handle]
      split
      · exact unbilled_finish _
      · exact .refl
  | interruptTimer =>
      simp only [handle]
      split
      · exact unbilled_sendDeferredInterrupt
      · exact .refl
  | turnTimeout =>
      simp only [handle]
      split
      · exact unbilled_finish _
      · exact .refl
  | heartbeat =>
      simp only [handle, heartbeat]
      split
      · exact .refl
      · exact unbilled_emit (by simp)
  | conclude created => exact absurd rfl (hevent created)

end CodexTurn

/-! ## The bill -/

/-- The counts as the merchant gate is to meter them. -/
def meteredUsage : Option OpenAICompatUsage → MerchantMeterableUsage
  | some counts => .detailed counts.promptTokens counts.completionTokens
      (counts.cachedTokens.filter (· ≤ counts.promptTokens))
  | none => .unreported

/-- The counts as the server reads them: inside the envelope, none are zeros. -/
def billedUsage (envelope : Bool) : Option OpenAICompatUsage → MerchantMeterableUsage
  | some counts => meteredUsage (some counts)
  | none => if envelope then .detailed 0 0 none else .unreported

theorem billedUsage_eq_iff (envelope : Bool) (counts : Option OpenAICompatUsage) :
    billedUsage envelope counts = meteredUsage counts ↔ envelope = false ∨ counts ≠ none := by
  cases counts <;> cases envelope <;> simp [billedUsage, meteredUsage]

theorem readTaskUsage_protocol (counts : OpenAICompatUsage) (metadata : Option JsonObject) :
    (readTaskUsage (toProtocolTaskUsage (some counts)) metadata).usage =
      meteredUsage (some counts) := rfl

theorem readTaskUsage_placeholder (taskId : String) (model content : Option String)
    (toolCalls : List CapturedToolCall) (finishReason : String) (created : ℕ) :
    (readTaskUsage none (buildOpenAICompatResponseMetadata
      (some (buildCodexChatCompletionEnvelope taskId model content toolCalls finishReason created
        (buildOpenAICompatUsage { promptTokens := 0, completionTokens := 0 }))) none)).usage =
      .detailed 0 0 none := by
  have hzero : isCount 0 = some 0 := by decide
  simp [readTaskUsage, fromProtocol, fromOpenAICompat, fromOpenAICompatPayload,
    buildOpenAICompatResponseMetadata, buildCodexChatCompletionEnvelope, buildOpenAICompatUsage,
    OpenAICompatUsage.toJson, count, Json.get?, Json.number?, JsonObject.field_cons, hzero,
    ReportedCounts.build, ReportedCounts.toMeterable]

namespace CodexTurn

variable {task : CodexTask} {x y z : CodexTurn}

/-- A frame that completes the task is read as the counts that the turn ended with. -/
structure Billed (task : CodexTask) (x : CodexTurn) : Prop where
  settled : x.concluded = true → x.settled.isSome
  concluded : ∀ status usage, .complete status usage ∈ x.emitted → status.state = .completed →
    x.concluded = true
  read : ∀ status usage, .complete status usage ∈ x.emitted → status.state = .completed →
    (readTaskUsage usage (status.message.bind (·.metadata))).usage =
      billedUsage task.envelope x.finalUsage

theorem Billed.unbilled (h : x.Billed task) (hstep : Unbilled x y) : y.Billed task := by
  have hold {status : WireTaskStatus} {usage : Option TaskUsage}
      (hframe : .complete status usage ∈ y.emitted) (hstate : status.state = .completed) :
      .complete status usage ∈ x.emitted :=
    (hstep.emitted status usage hframe).resolve_right fun hother => hother hstate
  constructor
  case settled => exact fun hy => hstep.settled (h.settled (hstep.concluded ▸ hy))
  case concluded =>
      exact fun status usage hframe hstate =>
        hstep.concluded ▸ h.concluded status usage (hold hframe hstate) hstate
  case read =>
      intro status usage hframe hstate
      rw [hstep.finalUsage]
      exact h.read status usage (hold hframe hstate) hstate

/-- Counts come only while no frame has completed the task. -/
theorem Billed.report (h : x.Billed task) {event : TurnEvent} :
    Billed task { x with finalUsage := (x.report event).or x.finalUsage } := by
  cases hreport : x.report event with
  | none => exact h
  | some counts =>
      have hopen : x.settled = none := by
        cases event with
        | notification method params =>
            rw [report_notification] at hreport
            split at hreport
            · rename_i hlistens
              exact hlistens.2.2.1
            · simp at hreport
        | _ => simp [CodexTurn.report] at hreport
      have hearly : x.concluded ≠ true := fun hx => by simpa [hopen] using h.settled hx
      constructor
      case settled => exact h.settled
      case concluded => exact h.concluded
      case read =>
          intro status usage hframe hstate
          exact absurd (h.concluded status usage hframe hstate) hearly

theorem metadata_of_message {p : Prop} [Decidable p] {message : WireMessage}
    {metadata : Option JsonObject} (hmessage : message.metadata = metadata)
    (hp : metadata.isSome → p) :
    (if p then some message else none).bind (·.metadata) = metadata := by
  split
  · exact hmessage
  · rename_i hnone
    cases metadata with
    | none => rfl
    | some fields => exact absurd (hp rfl) hnone

/-- The frame that completes the task. -/
theorem complete_emitted (x : CodexTurn) (outcome : TurnRunOutcome) (created : ℕ) {status : WireTaskStatus}
    {usage : Option TaskUsage}
    (h : .complete status usage ∈ (x.complete task outcome created).emitted) :
    .complete status usage ∈ x.emitted ∨
      (readTaskUsage usage (status.message.bind (·.metadata))).usage =
        billedUsage task.envelope x.finalUsage := by
  unfold complete at h
  simp only at h
  rcases List.mem_append.mp h with h | h
  · refine .inl ?_
    split at h
    · rcases List.mem_append.mp h with h | h
      · exact h
      · simp at h
    · exact h
  · refine .inr ?_
    have husage : (if ¬x.emittedAnyArtifact = true ∧ outcome.finalText.getD "" ≠ "" then
        { x.emit (.artifact {
            artifactId := x.randomUUID task, name := some "codex-result"
            parts := if ¬x.capturedToolCall = true ∧ outcome.finalText.getD "" ≠ "" then
              [.text (outcome.finalText.getD "")] else [] } none (some true)) with
          uuidsDrawn := x.uuidsDrawn + 1 } else x).finalUsage = x.finalUsage := by
      split <;> rfl
    obtain ⟨rfl, rfl⟩ := TaskFrameBody.complete.inj (List.mem_singleton.mp h)
    simp only [husage]
    rw [metadata_of_message rfl fun hsome => .inr hsome]
    cases hcounts : x.finalUsage with
    | some counts => exact readTaskUsage_protocol counts _
    | none =>
        cases henvelope : task.envelope with
        | true => exact readTaskUsage_placeholder _ _ _ _ _ _
        | false => rfl

theorem complete_frame (task : CodexTask) (x : CodexTurn) (outcome : TurnRunOutcome) (created : ℕ) :
    (x.complete task outcome created).concluded = x.concluded ∧
      (x.complete task outcome created).settled = x.settled ∧
      (x.complete task outcome created).finalUsage = x.finalUsage := by
  unfold complete
  simp only
  split <;> exact ⟨rfl, rfl, rfl⟩

/-- The turn concludes once, so its frame is the first that completes the task. -/
theorem Billed.ends (h : x.Billed task) (hearly : x.concluded = false)
    (hsettled : x.settled.isSome) (hconcluded : y.concluded = true)
    (hsame : y.settled = x.settled) (husage : y.finalUsage = x.finalUsage)
    (hemitted : ∀ status usage, .complete status usage ∈ y.emitted →
      status.state = .completed → .complete status usage ∈ x.emitted ∨
        (readTaskUsage usage (status.message.bind (·.metadata))).usage =
          billedUsage task.envelope x.finalUsage) : y.Billed task where
  settled _ := hsame ▸ hsettled
  concluded _ _ _ _ := hconcluded
  read status usage hframe hstate := by
    obtain hold | hread := hemitted status usage hframe hstate
    · simpa [hearly] using h.concluded status usage hold hstate
    · rw [hread, husage]

theorem Billed.conclude (h : x.Billed task) (created : ℕ) :
    (x.conclude task created).Billed task ∧
      (x.conclude task created).finalUsage = x.finalUsage := by
  unfold CodexTurn.conclude
  split
  · exact ⟨h, rfl⟩
  rename_i outcome houtcome
  split
  · exact ⟨h, rfl⟩
  rename_i hearly
  have hsettled : x.settled.isSome := by rw [houtcome]; rfl
  rw [Bool.not_eq_true] at hearly
  have hends {body : TaskFrameBody}
      (hbody : ∀ status usage, body = .complete status usage → status.state ≠ .completed) :
      Billed task ({ x with concluded := true }.emit body) ∧
        ({ x with concluded := true }.emit body).finalUsage = x.finalUsage := by
    refine ⟨h.ends hearly hsettled rfl rfl rfl fun status usage hframe hstate => ?_, rfl⟩
    rcases List.mem_append.mp hframe with hold | hnew
    · exact .inl hold
    · exact absurd hstate (hbody status usage (List.mem_singleton.mp hnew).symm)
  have hcomplete : Billed task (CodexTurn.complete task { x with concluded := true } outcome created) ∧
      (CodexTurn.complete task { x with concluded := true } outcome created).finalUsage =
        x.finalUsage := by
    obtain ⟨hconcluded, hsame, husage⟩ :=
      complete_frame task { x with concluded := true } outcome created
    exact ⟨h.ends hearly hsettled hconcluded hsame husage
      fun status usage hframe _ =>
        complete_emitted { x with concluded := true } outcome created hframe, husage⟩
  simp only
  split
  · exact hends (by simp)
  · exact hcomplete
  · split
    · exact hcomplete
    · exact hends (by simp)
  · split
    · exact hcomplete
    · exact hends (by simp)

theorem Billed.handle (h : x.Billed task) (event : TurnEvent) :
    (x.handle task event).Billed task ∧
      (x.handle task event).finalUsage = (x.report event).or x.finalUsage := by
  by_cases hconclude : ∃ created, event = .conclude created
  · obtain ⟨created, rfl⟩ := hconclude
    exact h.conclude created
  · have hstep : Unbilled { x with finalUsage := (x.report event).or x.finalUsage }
        (x.handle task event) :=
      unbilled_handle fun created hevent => hconclude ⟨created, hevent⟩
    exact ⟨h.report.unbilled hstep, hstep.finalUsage⟩

end CodexTurn

/-- The valid counts that the events bring, in order. -/
def CodexTask.reports (task : CodexTask) (x : CodexTurn) : List TurnEvent → List OpenAICompatUsage
  | [] => []
  | event :: events => (x.report event).toList ++ task.reports (x.handle task event) events

theorem CodexTask.foldl_billed (task : CodexTask) {x : CodexTurn} (h : x.Billed task)
    (events : List TurnEvent) :
    (events.foldl (CodexTurn.handle task) x).Billed task ∧
      (events.foldl (CodexTurn.handle task) x).finalUsage =
        (task.reports x events).getLast?.or x.finalUsage := by
  induction events generalizing x with
  | nil => exact ⟨h, rfl⟩
  | cons event events ih =>
      obtain ⟨hbilled, husage⟩ := h.handle event
      obtain ⟨hend, hlast⟩ := ih hbilled
      refine ⟨hend, ?_⟩
      rw [List.foldl_cons, hlast, husage, CodexTask.reports, List.getLast?_append, Option.or_assoc]
      cases x.report event <;> rfl

section Witness

private def exampleTask (envelope : Bool) : CodexTask where
  taskId := "task"
  threadId := "thread"
  envelope := envelope
  emitTraceArtifacts := false
  remoteApprovals := false
  turnTimeoutMs := 0
  stringify _ := ""
  normalizeTaskFailError error := error
  uuids _ := "uuid"

private def tokenUsage (input output : ℚ) : TurnEvent :=
  .notification "thread/tokenUsage/updated" (some (.obj [("turnId", .str "turn"),
    ("tokenUsage", .obj [("last", .obj [("inputTokens", .num input),
      ("outputTokens", .num output), ("cachedInputTokens", .num 400)])])]))

private def turn (reports : List TurnEvent) : List TurnEvent :=
  [.start false, .response (.ok "turn"), .job] ++ reports ++
    [.notification "turn/completed" (some (.obj [("turn", .obj [("id", .str "turn"),
      ("status", .str "completed")])])), .conclude 0]

private def completed (metadata : JsonObject) : WireTaskStatus where
  state := .completed
  message := some {
    role := .agent, parts := [], messageId := "uuid", metadata := some metadata
    extensions := some [openaiCompatExtensionUri] }

private def counts : OpenAICompatUsage where
  promptTokens := 500
  completionTokens := 20
  totalTokens := 520
  cachedTokens := some 400

/-- Two valid reports with one between them that is not. -/
private def reported : List TurnEvent := turn [tokenUsage 9 3, tokenUsage 500 20, tokenUsage (-1) 5]

end Witness

end VicoopBridge
