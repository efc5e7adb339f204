import VicoopBridge.Library.Transition
import VicoopBridge.Model.Codex

/-! # Turns on a shared app-server

Every subscribed turn sees every notification. A turn that knows its id lets only its own
pass; one that still waits for the answer to its `turn/start` lets all of them pass. -/

namespace VicoopBridge

open Library

/-! ## What a turn's own events are -/

/-- The notification carries the turn, where its handler looks for it. -/
def carries (turnId method : String) (params : Option Json) : Bool :=
  let noted :=
    if method = "turn/completed" then Json.get? (Json.get? params "turn") "id"
    else Json.get? params "turnId"
  noted = some (.str turnId)

/-- The notification has something a turn of the task would act on. -/
def CodexTask.acts (task : CodexTask) (method : String) (params : Option Json) : Bool :=
  match method with
  | "thread/tokenUsage/updated" =>
      (parseCodexTokenUsageForOpenAICompat (Json.get? params "tokenUsage")).isSome
  | "item/completed" =>
      let item := Json.get? params "item"
      match Json.string? (Json.get? item "type"), Json.string? (Json.get? item "text") with
      | some "agentMessage", some _ => true
      | some "commandExecution", _ => task.emitTraceArtifacts
      | _, _ => false
  | "item/agentMessage/delta" => extractAgentMessageDelta params ≠ ""
  | "turn/completed" => true
  | _ => false

def TurnEvent.own (turnId : String) : TurnEvent → Bool
  | .notification method params => carries turnId method params
  | _ => true

/-- The turn does not know its id, or knows an empty one, which counts as none. -/
def CodexTurn.unaware (x : CodexTurn) : Bool := x.activeTurnId.all (· = "")

/-- A turn to which nothing but these events has happened. -/
def CodexTask.replay (task : CodexTask) (events : List TurnEvent) : CodexTurn :=
  events.foldl (CodexTurn.handle task) {}

inductive CodexAction where
  | start (k : TurnRef)
  | response (id : ℕ) (result : Except String String)
  | notification (method : String) (params : Option Json)
  | toolCall (p : DynamicToolCallParams)
  | transportEnd (detail : String)
  | job (k : TurnRef)
  | abort (k : TurnRef)
  | abortGrace (k : TurnRef)
  | interruptTimer (k : TurnRef)
  | turnTimeout (k : TurnRef)
  | heartbeat (k : TurnRef)
  | conclude (k : TurnRef) (created : ℕ)

namespace AppServer

variable (tasks : TurnRef → CodexTask) (turnOf : TurnRef → String)

def perform (s : AppServer) : CodexAction → AppServer
  | .start k => s.start tasks k
  | .response id result => s.onResponse tasks id result
  | .notification method params => s.onNotification tasks method params
  | .toolCall p => s.onToolCall tasks p
  | .transportEnd detail => s.handleTransportEnd tasks detail
  | .job k => s.deliver tasks k .job
  | .abort k => s.deliver tasks k .abort
  | .abortGrace k => s.deliver tasks k .abortGrace
  | .interruptTimer k => s.deliver tasks k .interruptTimer
  | .turnTimeout k => s.deliver tasks k .turnTimeout
  | .heartbeat k => s.deliver tasks k .heartbeat
  | .conclude k created => s.conclude tasks k created

/-- `turnOf` names the turns: the answer to a `turn/start` names the turn it started. -/
def Allows (s : AppServer) : CodexAction → Prop
  | .response id (.ok turnId) => ∀ k, s.pending.get? id = some (.turnStart k) → turnId = turnOf k
  | _ => True

/-- Each turn is what its own notifications have made of it. -/
def TurnsIsolated (s : AppServer) : Prop :=
  ∀ k, s.turns k = (tasks k).replay ((s.history k).filter (TurnEvent.own (turnOf k)))

/-- No notification of another turn that says something is delivered while a turn waits for
the answer to its `turn/start`. -/
def KeepsApart (s : AppServer) : CodexAction → Prop
  | .notification method params => ∀ k ∈ s.notificationHandlers,
      (s.turns k).unaware = true →
        carries (turnOf k) method params = true ∨ (tasks k).acts method params = false
  | _ => True

end AppServer

def codexSystem (tasks : TurnRef → CodexTask) (turnOf : TurnRef → String) :
    System AppServer CodexAction where
  init s := s = {}
  step s a t := s.Allows turnOf a ∧ t = s.perform tasks a

/-! ## What a turn knows of its id -/

namespace CodexTurn

variable {task : CodexTask} {x y z : CodexTurn} {turnId : String}

/-- The id is left alone, known or on its way. -/
structure Keeps (x y : CodexTurn) : Prop where
  activeTurnId : y.activeTurnId = x.activeTurnId
  jobs : y.jobs = x.jobs

theorem Keeps.refl : Keeps x x := ⟨rfl, rfl⟩

theorem Keeps.trans (h : Keeps x y) (h' : Keeps y z) : Keeps x z :=
  ⟨h'.activeTurnId.trans h.activeTurnId, h'.jobs.trans h.jobs⟩

theorem keeps_requestInterrupt : Keeps x x.requestInterrupt := by
  unfold requestInterrupt
  split
  · split <;> exact ⟨rfl, rfl⟩
  · exact .refl

theorem keeps_sendDeferredInterrupt : Keeps x x.sendDeferredInterrupt := by
  unfold sendDeferredInterrupt
  split
  · exact .refl
  · have hsent : Keeps x { x with interruptSent := true, interruptTimer := false } := ⟨rfl, rfl⟩
    exact hsent.trans keeps_requestInterrupt

theorem keeps_finish (status : TurnOutcomeStatus) : Keeps x (x.finish status) := by
  unfold finish
  split <;> exact ⟨rfl, rfl⟩

theorem keeps_emitAgentArtifact (text : String) (append lastChunk : Bool) :
    Keeps x (x.emitAgentArtifact task text append lastChunk) := by
  unfold emitAgentArtifact
  split <;> exact ⟨rfl, rfl⟩

theorem keeps_emitCommandTrace (item : Option Json) : Keeps x (x.emitCommandTrace task item) := by
  unfold emitCommandTrace
  split <;> exact ⟨rfl, rfl⟩

theorem keeps_onNotification (method : String) (params : Option Json) :
    Keeps x (x.onNotification task method params) := by
  unfold onNotification
  split
  · exact .refl
  · split
    · unfold onTokenUsageUpdated
      split
      · exact .refl
      · split
        · exact .refl
        · rename_i parsed _
          have hset : Keeps x { x with finalUsage := some parsed } := ⟨rfl, rfl⟩
          simp only
          split
          · exact hset.trans keeps_sendDeferredInterrupt
          · exact hset
    · unfold onItemCompleted
      split
      · exact .refl
      · simp only
        split
        · rename_i text _ _
          have hset : Keeps x { x with finalText := some text } := ⟨rfl, rfl⟩
          split <;> exact hset.trans (keeps_emitAgentArtifact _ _ _)
        · exact keeps_emitCommandTrace _
        · exact .refl
    · unfold onAgentMessageDelta
      split
      · exact .refl
      · simp only
        split
        · exact .refl
        · have hset : Keeps x { x with streamedResponseText :=
              x.streamedResponseText ++ extractAgentMessageDelta params } := ⟨rfl, rfl⟩
          exact hset.trans (keeps_emitAgentArtifact _ _ _)
    · unfold onTurnCompleted
      simp only
      split
      · exact .refl
      · split <;> exact keeps_finish _
    · exact .refl

theorem keeps_onToolCall (p : DynamicToolCallParams) : Keeps x (x.onToolCall task p) := by
  unfold onToolCall
  simp only
  split <;> exact ⟨rfl, rfl⟩

theorem keeps_onAbort : Keeps x x.onAbort :=
  ⟨keeps_requestInterrupt.activeTurnId, keeps_requestInterrupt.jobs⟩

theorem keeps_heartbeat : Keeps x x.heartbeat := by
  unfold heartbeat
  split <;> exact ⟨rfl, rfl⟩

theorem keeps_complete (outcome : TurnRunOutcome) (created : ℕ) :
    Keeps x (x.complete task outcome created) := by
  unfold complete
  simp only
  split <;> exact ⟨rfl, rfl⟩

theorem keeps_conclude (created : ℕ) : Keeps x (x.conclude task created) := by
  unfold conclude
  split
  · exact .refl
  · split
    · exact .refl
    · have hset : Keeps x { x with concluded := true } := ⟨rfl, rfl⟩
      simp only
      split
      · exact hset.trans ⟨rfl, rfl⟩
      · exact hset.trans (keeps_complete _ _)
      · split
        · exact hset.trans (keeps_complete _ _)
        · exact hset.trans ⟨rfl, rfl⟩
      · split
        · exact hset.trans (keeps_complete _ _)
        · exact hset.trans ⟨rfl, rfl⟩

/-- The only id the turn has heard of is its own. -/
structure Knows (x : CodexTurn) (turnId : String) : Prop where
  active : ∀ t, x.activeTurnId = some t → t = turnId
  due : ∀ t, .started t ∈ x.jobs → t = turnId

theorem Knows.keeps (h : x.Knows turnId) (hkeeps : Keeps x y) : y.Knows turnId :=
  ⟨fun t ht => h.active t (hkeeps.activeTurnId ▸ ht), fun t ht => h.due t (hkeeps.jobs ▸ ht)⟩

/-- An event that may reach a turn of this id: an answer names it, and a notification of
another turn changes nothing. -/
def Suits (task : CodexTask) (turnId : String) (x : CodexTurn) : TurnEvent → Prop
  | .response (.ok t) => t = turnId
  | .notification method params =>
      carries turnId method params = true ∨ x.onNotification task method params = x
  | _ => True

theorem Knows.enqueue (h : x.Knows turnId) {jobs : List TurnJob}
    (hjobs : ∀ t, .started t ∈ jobs → t = turnId) :
    Knows { x with jobs := x.jobs ++ jobs } turnId where
  active := h.active
  due t ht := (List.mem_append.mp ht).elim (h.due t) (hjobs t)

theorem Knows.start (h : x.Knows turnId) (closed : Bool) : (x.start closed).Knows turnId := by
  have hset : Keeps x { x with subscribed := true } := ⟨rfl, rfl⟩
  have habort : Knows (if x.aborted then ({ x with subscribed := true } : CodexTurn).onAbort
      else { x with subscribed := true }) turnId := by
    split
    · exact h.keeps (hset.trans keeps_onAbort)
    · exact h.keeps hset
  unfold CodexTurn.start
  simp only
  split
  · exact habort.enqueue (by simp)
  · exact habort

theorem Knows.runJob (h : x.Knows turnId) : x.runJob.Knows turnId := by
  unfold CodexTurn.runJob
  split
  · exact h
  · rename_i job jobs hjobs
    have hrest : Knows { x with jobs := jobs } turnId :=
      ⟨h.active, fun t ht => h.due t (hjobs ▸ List.mem_cons_of_mem _ ht)⟩
    cases job with
    | started t =>
        have ht := h.due t (hjobs ▸ List.mem_cons_self)
        exact ⟨fun t' ht' => (Option.some.inj ht').symm.trans ht, hrest.due⟩
    | startFailed message => exact hrest.keeps (keeps_finish _)
    | transportClosed => exact hrest.keeps (keeps_finish _)

theorem Knows.handle (h : x.Knows turnId) {event : TurnEvent} (hsuits : Suits task turnId x event) :
    (x.handle task event).Knows turnId := by
  cases event with
  | start closed => exact h.start closed
  | response result =>
      cases result with
      | ok t => exact h.enqueue fun t' ht => by simpa [show t = turnId from hsuits] using ht
      | error message => exact h.enqueue (by simp)
  | transportClosed => exact h.enqueue (by simp)
  | job => exact h.runJob
  | notification method params => exact h.keeps (keeps_onNotification _ _)
  | toolCall p => exact h.keeps (keeps_onToolCall p)
  | abort =>
      simp only [CodexTurn.handle]
      have hset : Keeps x { x with aborted := true } := ⟨rfl, rfl⟩
      split
      · exact h
      · split
        · exact h.keeps (hset.trans keeps_onAbort)
        · exact h.keeps hset
  | abortGrace =>
      simp only [CodexTurn.handle]
      split
      · exact h.keeps (keeps_finish _)
      · exact h
  | interruptTimer =>
      simp only [CodexTurn.handle]
      split
      · exact h.keeps keeps_sendDeferredInterrupt
      · exact h
  | turnTimeout =>
      simp only [CodexTurn.handle]
      split
      · exact h.keeps (keeps_finish _)
      · exact h
  | heartbeat => exact h.keeps keeps_heartbeat
  | conclude created => exact h.keeps (keeps_conclude created)

/-! ## Notifications of other turns -/

theorem passes_of_foreign (h : x.Knows turnId) (hknown : x.unaware = false) {noted : Option Json}
    (hforeign : noted ≠ some (.str turnId)) : x.passes noted = false := by
  cases hactive : x.activeTurnId with
  | none => simp [unaware, hactive] at hknown
  | some active =>
      obtain rfl := h.active active hactive
      have hnonempty : active ≠ "" := by simpa [unaware, hactive] using hknown
      simp [passes, hactive, hnonempty, hforeign]

theorem onNotification_of_foreign (h : x.Knows turnId) (hknown : x.unaware = false)
    {method : String} {params : Option Json} (hforeign : carries turnId method params = false) :
    x.onNotification task method params = x := by
  have hnoted : ∀ noted, noted ≠ some (.str turnId) → x.passes noted = false :=
    fun noted => passes_of_foreign h hknown
  unfold onNotification
  split
  · rfl
  · split
    · rw [onTokenUsageUpdated, hnoted _ (by simpa [carries] using hforeign)]
      rfl
    · rw [onItemCompleted, hnoted _ (by simpa [carries] using hforeign)]
      rfl
    · rw [onAgentMessageDelta, hnoted _ (by simpa [carries] using hforeign)]
      rfl
    · rw [onTurnCompleted, hnoted _ (by simpa [carries] using hforeign)]
      rfl
    · rfl

theorem onNotification_of_not_acts {method : String} {params : Option Json}
    (h : task.acts method params = false) : x.onNotification task method params = x := by
  unfold CodexTask.acts at h
  unfold onNotification
  split
  · rfl
  · split
    · have hnone : parseCodexTokenUsageForOpenAICompat (Json.get? params "tokenUsage") = none := by
        simpa using h
      simp [onTokenUsageUpdated, hnone]
    · simp only at h
      unfold onItemCompleted
      split
      · rfl
      · simp only
        split
        · rename_i text htype htext
          simp [htype, htext] at h
        · rename_i htype
          simp only [htype] at h
          simp [emitCommandTrace, h]
        · rfl
    · have hempty : extractAgentMessageDelta params = "" := by simpa using h
      simp [onAgentMessageDelta, hempty]
    · simp at h
    · rfl

/-- What the condition asks of a notification is what the turn needs. -/
theorem suits_notification (h : x.Knows turnId) {method : String} {params : Option Json}
    (happart : x.unaware = true →
      carries turnId method params = true ∨ task.acts method params = false) :
    Suits task turnId x (.notification method params) := by
  cases hcarries : carries turnId method params with
  | true => exact .inl hcarries
  | false =>
      refine .inr ?_
      cases hunaware : x.unaware with
      | false => exact onNotification_of_foreign h hunaware hcarries
      | true =>
          have hinert := (happart hunaware).resolve_left (by simp [hcarries])
          exact onNotification_of_not_acts hinert

/-- Leaving out the events of other turns leaves the turn as it is. -/
theorem handle_own (task : CodexTask) {events : List TurnEvent} {event : TurnEvent}
    (hx : x = task.replay (events.filter (TurnEvent.own turnId)))
    (hsuits : Suits task turnId x event) :
    x.handle task event =
      task.replay ((events ++ [event]).filter (TurnEvent.own turnId)) := by
  rw [List.filter_append, CodexTask.replay, List.foldl_append]
  have hreplay : (events.filter (TurnEvent.own turnId)).foldl (handle task) {} = x := hx.symm
  rw [hreplay]
  cases hown : event.own turnId with
  | true => simp [hown]
  | false =>
      cases event with
      | notification method params =>
          have hforeign : carries turnId method params = false := hown
          have hsame : x.handle task (.notification method params) = x :=
            hsuits.resolve_left (by simp [hforeign])
          simpa [hown] using hsame
      | _ => simp [TurnEvent.own] at hown

end CodexTurn

/-! ## The shared process -/

namespace AppServer

variable {tasks : TurnRef → CodexTask} {turnOf : TurnRef → String} {s : AppServer}

structure Apart (tasks : TurnRef → CodexTask) (turnOf : TurnRef → String) (s : AppServer) : Prop where
  isolated : s.TurnsIsolated tasks turnOf
  knows : ∀ k, (s.turns k).Knows (turnOf k)

theorem Apart.of_turns {t : AppServer} (h : s.Apart tasks turnOf) (hturns : t.turns = s.turns)
    (hhistory : t.history = s.history) : t.Apart tasks turnOf where
  isolated k := by
    rw [hturns, hhistory]
    exact h.isolated k
  knows k := hturns ▸ h.knows k

@[simp] theorem request_turns (r : RpcRequest) : (s.request r).turns = s.turns := by
  unfold request
  split <;> rfl

@[simp] theorem request_history (r : RpcRequest) : (s.request r).history = s.history := by
  unfold request
  split <;> rfl

theorem foldl_request (k : TurnRef) (ids : List String) :
    (ids.foldl (fun s _ => s.request (.turnInterrupt k)) s).turns = s.turns ∧
      (ids.foldl (fun s _ => s.request (.turnInterrupt k)) s).history = s.history := by
  induction ids generalizing s with
  | nil => exact ⟨rfl, rfl⟩
  | cons _ ids ih =>
      obtain ⟨hturns, hhistory⟩ := ih (s := s.request (.turnInterrupt k))
      exact ⟨hturns.trans (request_turns _), hhistory.trans (request_history _)⟩

theorem deliver_turns (k : TurnRef) (event : TurnEvent) : (s.deliver tasks k event).turns =
    Function.update s.turns k ((s.turns k).handle (tasks k) event) :=
  (foldl_request k _).1

theorem deliver_history (k : TurnRef) (event : TurnEvent) : (s.deliver tasks k event).history =
    Function.update s.history k (s.history k ++ [event]) :=
  (foldl_request k _).2

theorem Apart.deliver (h : s.Apart tasks turnOf) {k : TurnRef} {event : TurnEvent}
    (hsuits : (s.turns k).Suits (tasks k) (turnOf k) event) :
    (s.deliver tasks k event).Apart tasks turnOf where
  isolated k' := by
    rw [deliver_turns, deliver_history]
    by_cases hk : k' = k
    · subst hk
      rw [Function.update_self, Function.update_self]
      exact CodexTurn.handle_own _ (h.isolated k') hsuits
    · rw [Function.update_of_ne hk, Function.update_of_ne hk]
      exact h.isolated k'
  knows k' := by
    rw [deliver_turns]
    by_cases hk : k' = k
    · subst hk
      rw [Function.update_self]
      exact (h.knows k').handle hsuits
    · rw [Function.update_of_ne hk]
      exact h.knows k'

/-- The handlers are called one after the other; none changes the turn of another. -/
theorem Apart.notify (h : s.Apart tasks turnOf) {method : String} {params : Option Json}
    {ks : List TurnRef}
    (hsuits : ∀ k ∈ ks, (s.turns k).Suits (tasks k) (turnOf k) (.notification method params)) :
    (ks.foldl (fun s k => s.deliver tasks k (.notification method params)) s).Apart tasks
      turnOf := by
  induction ks generalizing s with
  | nil => exact h
  | cons k ks ih =>
      have hhead := hsuits k List.mem_cons_self
      refine ih (h.deliver hhead) fun k' hk' => ?_
      have hrest := hsuits k' (List.mem_cons_of_mem _ hk')
      rw [deliver_turns]
      by_cases hk : k' = k
      · subst hk
        rw [Function.update_self]
        rcases hhead with hcarries | hsame
        · exact .inl hcarries
        · have hsame : (s.turns k').handle (tasks k') (.notification method params) = s.turns k' :=
            hsame
          rwa [hsame]
      · rwa [Function.update_of_ne hk]

theorem Apart.foldl {α : Type} (h : s.Apart tasks turnOf) {f : AppServer → α → AppServer}
    (hf : ∀ s a, s.Apart tasks turnOf → (f s a).Apart tasks turnOf) (as : List α) :
    (as.foldl f s).Apart tasks turnOf := by
  induction as generalizing s with
  | nil => exact h
  | cons a as ih => exact ih (hf s a h)

theorem Apart.start (h : s.Apart tasks turnOf) (k : TurnRef) :
    (s.start tasks k).Apart tasks turnOf := by
  unfold AppServer.start
  split
  · exact h
  · simp only
    refine Apart.of_turns (Apart.deliver (h.of_turns ?_ ?_) ?_) (request_turns _) (request_history _)
    · rfl
    · rfl
    · trivial

theorem Apart.transportEnd (h : s.Apart tasks turnOf) (detail : String) :
    (s.handleTransportEnd tasks detail).Apart tasks turnOf := by
  unfold handleTransportEnd
  split
  · exact h
  · have hclosed : Apart tasks turnOf
        { s with closed := true, pending := .empty, closeWaiters := [] } := h.of_turns rfl rfl
    refine (hclosed.foldl (fun s request hs => ?_) s.pending.values).foldl
      (fun s k hs => ?_) s.closeWaiters
    · cases request with
      | turnStart k => exact hs.deliver trivial
      | turnInterrupt k => exact hs
    · exact hs.deliver trivial

theorem Apart.step {a : CodexAction} {t : AppServer} (h : s.Apart tasks turnOf)
    (hapart : s.KeepsApart tasks turnOf a) (hstep : (codexSystem tasks turnOf).step s a t) :
    t.Apart tasks turnOf := by
  obtain ⟨hallows, rfl⟩ := hstep
  cases a with
  | start k => exact h.start k
  | response id result =>
      simp only [perform, onResponse]
      split
      · exact h
      · rename_i request hpending
        cases request with
        | turnInterrupt k => exact h.of_turns rfl rfl
        | turnStart k =>
            have hanswered : Apart tasks turnOf { s with pending := s.pending.erase id } :=
              h.of_turns rfl rfl
            refine hanswered.deliver ?_
            cases result with
            | ok turnId => exact hallows k hpending
            | error message => trivial
  | notification method params =>
      exact h.notify fun k hk => CodexTurn.suits_notification (h.knows k) (hapart k hk)
  | toolCall p =>
      simp only [perform, onToolCall]
      split
      · exact h.deliver trivial
      · exact h
  | transportEnd detail => exact h.transportEnd detail
  | conclude k created =>
      simp only [perform, AppServer.conclude]
      split
      · exact h
      · have hconcluded : (s.deliver tasks k (.conclude created)).Apart tasks turnOf :=
          h.deliver trivial
        split
        · exact hconcluded.of_turns rfl rfl
        · exact hconcluded
  | job k | abort k | abortGrace k | interruptTimer k | turnTimeout k | heartbeat k =>
      exact h.deliver trivial

/-- While no turn that waits for its id is told of another one, the artifacts, the final text,
the usage and the outcome of each turn are those of a turn that heard of nothing but itself. -/
theorem turns_isolated
    (h : ((codexSystem tasks turnOf).restrict (KeepsApart tasks turnOf)).Reachable s) :
    s.TurnsIsolated tasks turnOf := by
  have hinv : s.Apart tasks turnOf := by
    refine h.invariant (I := fun s => s.Apart tasks turnOf) ?_ ?_
    · rintro s rfl
      exact ⟨fun _ => rfl, fun _ => ⟨by simp, by simp⟩⟩
    · exact fun _ _ _ hs ⟨hapart, hstep⟩ => hs.step hapart hstep
  exact hinv.isolated

section Witness

private def plainTask (taskId threadId : String) : CodexTask where
  taskId := taskId
  threadId := threadId
  envelope := false
  emitTraceArtifacts := false
  remoteApprovals := false
  turnTimeoutMs := 0
  stringify _ := "json"
  normalizeTaskFailError error := error
  uuids _ := "uuid"

private def twoTasks (k : TurnRef) : CodexTask :=
  if k = 0 then plainTask "alice" "thread-a" else plainTask "bob" "thread-b"

private def turnNames (k : TurnRef) : String := if k = 0 then "turn-a" else "turn-b"

private def delta (turnId text : String) : CodexAction :=
  .notification "item/agentMessage/delta"
    (some (.obj [("turnId", .str turnId), ("delta", .str text)]))

private def completed (turnId : String) : CodexAction :=
  .notification "turn/completed"
    (some (.obj [("turn", .obj [("id", .str turnId), ("status", .str "completed")])]))

private def runActions (as : List CodexAction) : AppServer := as.foldl (perform twoTasks) {}

private theorem step_reachable {allowed : AppServer → CodexAction → Prop} {s : AppServer}
    (h : ((codexSystem twoTasks turnNames).restrict allowed).Reachable s) (a : CodexAction)
    (hallowed : allowed s a) (hrely : s.Allows turnNames a) :
    ((codexSystem twoTasks turnNames).restrict allowed).Reachable (s.perform twoTasks a) :=
  h.step (a := a) ⟨hallowed, hrely, rfl⟩

/-- The first turn is under way and the second has not heard its id yet. -/
private def waitingServer : AppServer :=
  runActions [.start 0, .response 0 (.ok "turn-a"), .job 0, .start 1]

private theorem waitingServer_reachable {allowed : AppServer → CodexAction → Prop}
    (hallowed : ∀ s a, (∀ method params, a ≠ .notification method params) → allowed s a) :
    ((codexSystem twoTasks turnNames).restrict allowed).Reachable waitingServer := by
  have h₀ : ((codexSystem twoTasks turnNames).restrict allowed).Reachable {} := .of_init rfl
  have h₁ := step_reachable h₀ (.start 0) (hallowed _ _ (by simp)) trivial
  have hnamed : ∀ k, (perform twoTasks {} (.start 0)).pending.get? 0 = some (.turnStart k) →
      "turn-a" = turnNames k := by
    intro k hk
    have hzero : (perform twoTasks {} (.start 0)).pending.get? 0 = some (.turnStart 0) := by
      decide +kernel
    obtain rfl := RpcRequest.turnStart.inj (Option.some.inj (hzero.symm.trans hk))
    rfl
  have h₂ := step_reachable h₁ (.response 0 (.ok "turn-a")) (hallowed _ _ (by simp)) hnamed
  have h₃ := step_reachable h₂ (.job 0) (hallowed _ _ (by simp)) trivial
  exact step_reachable h₃ (.start 1) (hallowed _ _ (by simp)) trivial

private def answeredServer : AppServer :=
  (((waitingServer.perform twoTasks (.response 1 (.ok "turn-b"))).perform twoTasks (.job 1)).perform
    twoTasks (delta "turn-a" "for alice")).perform twoTasks (completed "turn-b")

theorem turns_isolated_answered :
    (answeredServer.turns 0).streamedResponseText = "for alice" ∧
      (answeredServer.turns 1).settled = some ⟨.completed, none⟩ ∧
        answeredServer.TurnsIsolated twoTasks turnNames := by
  refine ⟨by decide +kernel, by decide +kernel, turns_isolated ?_⟩
  have h₀ : ((codexSystem twoTasks turnNames).restrict
      (KeepsApart twoTasks turnNames)).Reachable waitingServer := by
    refine waitingServer_reachable fun s a ha => ?_
    cases a <;> first | trivial | exact absurd rfl (ha _ _)
  have hnamed : ∀ k, waitingServer.pending.get? 1 = some (.turnStart k) →
      "turn-b" = turnNames k := by
    intro k hk
    have hone : waitingServer.pending.get? 1 = some (.turnStart 1) := by decide +kernel
    obtain rfl := RpcRequest.turnStart.inj (Option.some.inj (hone.symm.trans hk))
    rfl
  have h₁ := step_reachable h₀ (.response 1 (.ok "turn-b")) trivial hnamed
  have h₂ := step_reachable h₁ (.job 1) trivial trivial
  have hboth : ∀ k ∈ ((waitingServer.perform twoTasks (.response 1 (.ok "turn-b"))).perform
      twoTasks (.job 1)).notificationHandlers,
      (((waitingServer.perform twoTasks (.response 1 (.ok "turn-b"))).perform twoTasks
        (.job 1)).turns k).unaware ≠ true := by decide +kernel
  have h₃ := step_reachable h₂ (delta "turn-a" "for alice")
    (fun k hk hunaware => absurd hunaware (hboth k hk)) trivial
  have hstill : ∀ k ∈ (((waitingServer.perform twoTasks (.response 1 (.ok "turn-b"))).perform
      twoTasks (.job 1)).perform twoTasks (delta "turn-a" "for alice")).notificationHandlers,
      ((((waitingServer.perform twoTasks (.response 1 (.ok "turn-b"))).perform twoTasks
        (.job 1)).perform twoTasks (delta "turn-a" "for alice")).turns k).unaware ≠ true := by
    decide +kernel
  exact step_reachable h₃ (completed "turn-b")
    (fun k hk hunaware => absurd hunaware (hstill k hk)) trivial

/-- One caller's answer is streamed to another, and ends its task with it. -/
theorem turns_leak :
    ¬ ∀ s, (codexSystem twoTasks turnNames).Reachable s → s.TurnsIsolated twoTasks turnNames := by
  intro hclaim
  have h₀ := waitingServer_reachable fun (_ : AppServer) (_ : CodexAction) _ => (trivial : True)
  have h₁ := step_reachable h₀ (delta "turn-a" "for alice") trivial trivial
  have h₂ := step_reachable h₁ (completed "turn-a") trivial trivial
  have hisolated := hclaim _ h₂.of_restrict 1
  revert hisolated
  decide +kernel

end Witness

end AppServer

end VicoopBridge
