import VicoopBridge.Verification.Executor.LastTerminal
import VicoopBridge.Verification.Registry.Sinks
import VicoopBridge.Verification.Ws.ServerSystem

/-! # One terminal, and it is last

Failures, cancellations and terminal frames race for the sink of a binding. Each brings a
final event together with the end of the sink, so only the first is heard. -/

namespace VicoopBridge

open Library

namespace Registry

variable (r : Registry) (now : ℕ) (ws : WsId)

/-! ## Task frames -/

@[simp] theorem acknowledge_sink (b b' : TaskBinding) :
    (r.acknowledge ws b).sink b' = r.sink b' := by
  unfold acknowledge
  split <;> rfl

theorem acknowledgeReceipt_sink (agentId : Option String) (frame : TaskUpFrame)
    (b : TaskBinding) : (r.acknowledgeReceipt now ws agentId frame).2.sink b = r.sink b := by
  rcases r.acknowledgeReceipt_cases ws now agentId frame with h | h | ⟨_, _, h⟩ <;> rw [h] <;> rfl

theorem resumeBinding_sink (taskId agentId : String) (b : TaskBinding) :
    (r.resumeBinding taskId agentId).sink b = r.sink b := by
  rw [sink, sink, (resumeBinding_frame taskId agentId).2.2.1]

theorem strikes_failExecution (b : TaskBinding) (code message : String) :
    r.Strikes (r.failExecution b code message) :=
  (strikes_respects.failTaskBinding r b code message).trans
    (strikes_of_sink fun b' => sendToAgent_sink _ _ _ b')

/-- Accepting a frame says nothing to the sinks, refusing it may end one. -/
theorem acceptTaskFrame_sinks (agentId : Option String) (frame : TaskUpFrame) :
    (∀ b, (r.acceptTaskFrame now ws agentId frame).2.sink b = r.sink b) ∨
      ((r.acceptTaskFrame now ws agentId frame).1 = some .handled ∧
        r.Strikes (r.acceptTaskFrame now ws agentId frame).2) := by
  have hreceipt := acknowledgeReceipt_sink r now ws agentId frame
  unfold acceptTaskFrame
  split
  · exact .inl hreceipt
  split
  · exact .inl fun _ => rfl
  rename_i binding _
  split
  · split
    · exact .inr ⟨rfl, strikes_failExecution r _ _ _⟩
    split
    · exact .inl hreceipt
    split
    · exact .inr ⟨rfl, strikes_failExecution r _ _ _⟩
    simp only
    split
    · exact .inl fun b => (resumeBinding_sink _ _ _ b).trans (acknowledge_sink r ws binding b)
    split
    · exact .inr ⟨rfl, strikes_failExecution r _ _ _⟩
    · refine .inl fun b => (resumeBinding_sink _ _ _ b).trans ?_
      by_cases heq : b = binding
      · subst heq
        simp [sink]
      · rw [sink, modifyCell_cells_of_ne _ _ heq]
        rfl
  · split
    · exact .inl hreceipt
    · exact .inl fun b => resumeBinding_sink r _ _ b

theorem produces_push (b : TaskBinding) {event : StreamEvent} (hopen : event.isFinal = false) :
    r.Produces (r.modifyCell b fun c => { c with queue := c.queue.push event }) := by
  intro b'
  by_cases heq : b' = b
  · subst heq
    simpa [sink] using AsyncEventQueue.Produced.relayed event hopen
  · rw [sink, sink, modifyCell_cells_of_ne _ _ heq]
    exact .same

theorem produces_pushWireStatus (b : TaskBinding) (status : WireTaskStatus)
    (metadata : Option JsonObject) : r.Produces (r.pushWireStatus b status false metadata) :=
  produces_push r b rfl

theorem strikes_rejectApprovalRequest (b : TaskBinding) :
    r.Strikes (r.rejectApprovalRequest b) :=
  (strikes_of_sink fun b' => sendToAgent_sink r _ _ b').trans (strikes_respects.failTaskBinding _ _ _ _)

/-- The final event of a client and the end of the sink. -/
theorem closeBinding_sink (b b' : TaskBinding) :
    (r.closeBinding now ws b).sink b' = (r.finish b).sink b' := by
  have hunbound : ∀ r' : Registry, r'.cells = (r.finish b).cells →
      ((r'.unbindTask b.taskId b).acknowledge ws b).sink b' = (r.finish b).sink b' := by
    intro r' hcells
    rw [acknowledge_sink, sink, sink, unbindTask_cells, hcells]
  unfold closeBinding
  simp only
  split
  · refine hunbound _ ?_
    obtain ⟨receipts, h⟩ := (r.finish b).rememberTerminalReceipt_frame now b _
    rw [h]
  · exact hunbound _ rfl

theorem produces_finalEvent (b : TaskBinding) {event : TaskStatusUpdateEvent}
    (hfinal : event.final = true) : r.Produces ((r.pushStatus b event).closeBinding now ws b) :=
  (strikes_pushFinish r b hfinal).produces.then_same fun b' => closeBinding_sink _ now ws b b'

theorem produces_processAccepted (b : TaskBinding) (body : TaskFrameBody) :
    r.Produces (r.processAccepted now ws b body) := by
  have hacknowledged : ∀ {r' : Registry}, r.Produces r' → r.Produces (r'.acknowledge ws b) :=
    fun h => h.then_same fun b' => acknowledge_sink _ ws b b'
  cases body with
  | approvalRequest request =>
      simp only [processAccepted, processApprovalRequest]
      split
      · exact (strikes_rejectApprovalRequest r b).produces
      split
      · exact (strikes_rejectApprovalRequest r b).produces
      · rename_i a approvals _
        exact hacknowledged (produces_pushWireStatus { r with approvals := approvals } b _ none)
  | approvalReceived requestId decision =>
      simp only [processAccepted, processApprovalReceived]
      split
      · exact hacknowledged (strikes_of_cells rfl).produces
      · rename_i received approvals _
        exact hacknowledged (produces_pushWireStatus { r with approvals := approvals } b _ none)
  | status status metadata =>
      simp only [processAccepted, processTaskStatus]
      split
      · refine hacknowledged ((produces_pushWireStatus _ b _ metadata).of_same fun b' => ?_)
        by_cases heq : b' = b
        · subst heq
          simp [sink]
        · rw [sink, modifyCell_cells_of_ne _ _ heq]
          rfl
      · exact hacknowledged (produces_pushWireStatus r b _ metadata)
  | artifact artifact append lastChunk => exact hacknowledged (produces_push r b rfl)
  | complete status usage =>
      simp only [processAccepted, processTaskComplete]
      split
      · refine Produces.of_same (produces_finalEvent _ now ws b rfl) fun b' => ?_
        by_cases heq : b' = b
        · subst heq
          simp [sink]
        · rw [sink, modifyCell_cells_of_ne _ _ heq]
          rfl
      · exact produces_finalEvent r now ws b rfl
  | fail error => exact produces_finalEvent r now ws b rfl

theorem produces_processTaskFrame (agentId : Option String) (frame : TaskUpFrame) :
    r.Produces (r.processTaskFrame now ws agentId frame) := by
  have haccept := acceptTaskFrame_sinks r now ws agentId frame
  unfold processTaskFrame
  split
  · rename_i b r' heq
    rw [heq] at haccept
    rcases haccept with hsame | ⟨hhandled, -⟩
    · exact (produces_processAccepted r' now ws b frame.body).of_same hsame
    · simp at hhandled
  · rename_i heq
    rw [heq] at haccept
    rcases haccept with hsame | ⟨-, hstrikes⟩
    · exact (strikes_of_sink hsame).produces
    · exact hstrikes.produces

theorem strikes_cancelCurrent {r r' : Registry} {agentId taskId contextId : String}
    (h : r.cancelCurrent agentId taskId contextId = .ok r') : r.Strikes r' := by
  unfold cancelCurrent at h
  split at h
  · obtain rfl := Except.ok.inj h
    exact strikes_of_sink fun b => sendToAgent_sink r _ _ b
  · split at h
    · simp at h
    · obtain rfl := Except.ok.inj h
      exact (strikes_of_sink fun b => sendToAgent_sink r _ _ b).trans (strikes_pushFinish _ _ rfl)

end Registry

/-! ## Runs with the executor -/

/-- A step of the server, or what the executor does to the queue behind a sink: cancel its
task, time it out, read it, or give it up. -/
inductive SinkAction where
  | server (a : ServerAction)
  | cancel (agentId taskId contextId : String)
  | inactive (b : TaskBinding) (event : TaskStatusUpdateEvent)
  | iterate (b : TaskBinding) (aborted : Bool)
  | wake (b : TaskBinding)
  | abort (b : TaskBinding)
  | abandon (b : TaskBinding)

namespace SinkAction

/-- The binding whose own run takes the step. -/
def reader : SinkAction → Option TaskBinding
  | iterate b _ | wake b | abort b | abandon b => some b
  | _ => none

def readQueue : SinkAction → SinkQueue → SinkQueue
  | iterate _ aborted, q => (q.next aborted).2
  | wake _, q => (q.resume.map Prod.snd).getD q
  | abort _, q => q.onAbort
  | abandon _, q => q.end
  | _, q => q

end SinkAction

/-- The action through which the executor reaches the queues. -/
def ServerAction.isSink : ServerAction → Bool
  | .sink _ _ => true
  | _ => false

namespace Server

def setSink (s : Server) (b : TaskBinding) (f : SinkQueue → SinkQueue) : Server :=
  s.modifyRegistry (Registry.modifyCell · b fun c => { c with queue := f c.queue })

def onSinkAction (s : Server) (a : SinkAction) : Server :=
  match a with
  | .server a => s.apply a
  | .cancel agentId taskId contextId =>
      match s.registry.cancelCurrent agentId taskId contextId with
      | .ok registry => { s with registry := registry }
      | .error _ => s
  | .inactive b event => s.modifyRegistry fun r => (r.pushStatus b event).finish b
  | .iterate b _ | .wake b | .abort b | .abandon b => s.setSink b a.readQueue

/-- The executor's own calls are named, so the server's steps do without theirs. -/
def allowsSinkAction (s : Server) : SinkAction → Prop
  | .server a => s.enabled a ∧ a.isSink = false
  | .inactive _ event => event.final = true
  | _ => True

instance decidableAllows (s : Server) : ∀ a, Decidable (s.allowsSinkAction a)
  | .server a => inferInstanceAs (Decidable (s.enabled a ∧ a.isSink = false))
  | .inactive _ event => inferInstanceAs (Decidable (event.final = true))
  | .cancel _ _ _ | .iterate _ _ | .wake _ | .abort _ | .abandon _ => isTrue trivial

end Server

/-- `endings` counts the steps that ended the sink of a binding. -/
structure SinkServer where
  server : Server
  endings : TaskBinding → ℕ := fun _ => 0

namespace SinkServer

def sink (s : SinkServer) (b : TaskBinding) : SinkQueue := s.server.registry.sink b

def apply (s : SinkServer) (a : SinkAction) : SinkServer :=
  let server := s.server.onSinkAction a
  { server := server
    endings := fun b =>
      if ¬ (s.sink b).closed ∧ (server.registry.sink b).closed then s.endings b + 1
      else s.endings b }

end SinkServer

def sinkSystem : System SinkServer SinkAction :=
  .ofApply (fun s => ∃ graceMs, s = { server := { registry := { disconnectGraceMs := graceMs } } })
    (fun s a => s.server.allowsSinkAction a) SinkServer.apply

namespace SinkServer

/-- Failures, cancellations and terminal frames reach a sink as a final event with the end
behind it, and at most one of them does. -/
structure SinkSpec (s : SinkServer) : Prop where
  produced : ∀ a t, sinkSystem.step s a t → ∀ b, a.reader ≠ some b →
    (s.sink b).Produced (t.sink b)
  /-- The step that ends a sink is the one whose final event it hears. -/
  ended : ∀ a t, sinkSystem.step s a t → ∀ b, a.reader ≠ some b → (s.sink b).closed = false →
    (t.sink b).closed = true → ∃ event, event.final = true ∧ t.sink b = (s.sink b).strike event
  deaf : ∀ a t, sinkSystem.step s a t → ∀ b, a.reader ≠ some b → (s.sink b).closed = true →
    t.sink b = s.sink b
  once : ∀ b, s.endings b ≤ 1
  counted : ∀ b, s.endings b = 1 ↔ (s.sink b).closed = true

variable {s : SinkServer}

/-! ## Every step keeps it -/

theorem produces_onMessage (s : Server) (now : ℕ) (ws : WsId) (c : Connection)
    (parsed : Except String UpFrame) :
    s.registry.Produces (s.onMessage now ws c parsed).registry := by
  have hsame : s.registry.Produces s.registry := (Registry.Strikes.refl _).produces
  unfold Server.onMessage
  split
  · exact hsame.then_same fun _ => rfl
  split
  · unfold Server.processAuthedFrame
    split
    · exact Registry.produces_processTaskFrame _ now ws _ _
    · split
      · unfold Server.resolveUsageResponse
        repeat' split
        all_goals exact hsame
      · exact hsame
    · exact hsame
    · exact hsame.then_same fun _ => rfl
  split
  · split
    · exact hsame.then_same fun _ => rfl
    split
    · exact hsame
    · exact hsame
  · exact hsame.then_same fun _ => rfl

theorem strikes_onAuthenticated (s : Server) (now : ℕ) (ws : WsId) (c : Connection)
    (frame : HelloFrame) (client : Option ClientRow) (card : Except (ℕ × String) Unit) :
    s.registry.Strikes (s.onAuthenticated now ws c frame client card).registry := by
  unfold Server.onAuthenticated
  simp only
  split
  · exact Registry.strikes_of_cells rfl
  · rename_i registry hok
    obtain ⟨conn, -, -, hreg⟩ := Server.authenticateAndRegister_ok hok
    have hregistered := Registry.strikes_respects.registerAgent s.registry
      (fun _ _ => Registry.strikes_of_cells rfl) hreg
    split
    · split
      · exact hregistered
      · exact hregistered.trans (Registry.strikes_unregisterAgent _ _ _ _ _)
    · split
      · exact hregistered.trans (Registry.strikes_of_cells rfl)
      · exact hregistered

theorem produces_apply (s : Server) {a : ServerAction} (ha : a.isSink = false) :
    s.registry.Produces (s.apply a).registry := by
  have hsame : s.registry.Produces s.registry := (Registry.Strikes.refl _).produces
  have hconnection : ∀ ws f, (∀ c, s.registry.Produces (f c : Server).registry) →
      s.registry.Produces (s.withConnection ws f).registry := by
    intro ws f hf
    unfold Server.withConnection
    split
    · exact hf _
    · exact hsame
  cases a with
  | message now ws parsed => exact hconnection ws _ fun c => produces_onMessage s now ws c parsed
  | authenticated now ws client card =>
      refine hconnection ws _ fun c => ?_
      split
      · exact (strikes_onAuthenticated s now ws c _ client card).produces
      · exact hsame
  | authenticationError ws => exact hconnection ws _ fun c => hsame.then_same fun _ => rfl
  | helloTimeout ws =>
      refine hconnection ws _ fun c => ?_
      unfold Server.onHelloTimeout
      split
      · exact hsame
      · exact hsame.then_same fun _ => rfl
  | close now ws code =>
      refine hconnection ws _ fun c => ?_
      unfold Server.onClose
      simp only
      split
      · have hclosed : s.registry.Strikes (s.registry.modifySocket ws
            fun socket => { socket with readyState := .closed }) := Registry.strikes_of_cells rfl
        exact (hclosed.trans (Registry.strikes_unregisterAgent _ now _ ws _)).produces
      · exact hsame.then_same fun _ => rfl
  | disconnectClient clientId =>
      exact hsame.then_same fun b => Registry.disconnectClient_sink s.registry clientId b
  | requestUsage requestId agentId =>
      have hsend := Registry.sendToAgent_sink s.registry agentId (.usageRequest requestId)
      simp only [Server.apply, Server.requestUsage]
      split
      · rename_i registry heq
        rw [heq] at hsend
        exact hsame.then_same hsend
      · exact hsame
  | decideApproval now id decision principal via =>
      exact hsame.then_same fun b => Registry.decide_sink s.registry now id decision principal via b
  | approvalTick now id => exact (Registry.strikes_respects.approvalTick s.registry now id).produces
  | graceExpire timer => exact (Registry.strikes_respects.expireGraceTimer s.registry timer).produces
  | dispatch binding assign =>
      have hbind := Registry.strikes_bindTask s.registry binding
      simp only [Server.apply, Server.dispatch]
      split
      · rename_i registry heq
        rw [heq] at hbind
        exact hbind.produces
      · rename_i registry heq
        rw [heq] at hbind
        exact hbind.produces.then_same fun b => Registry.sendToAgent_sink registry _ _ b
  | sendToAgent agentId frame =>
      exact hsame.then_same fun b => Registry.sendToAgent_sink s.registry agentId frame b
  | sink binding f => simp [ServerAction.isSink] at ha
  | unbindTask taskId binding =>
      exact hsame.then_same fun b => by
        rw [Registry.sink, Registry.sink]
        exact congrArg (fun cells => (cells b).queue)
          (Registry.unbindTask_cells s.registry binding taskId)
  | _ => exact hsame.then_same fun _ => rfl

theorem setSink_of_ne (s : Server) {b b' : TaskBinding} (f : SinkQueue → SinkQueue) (h : b' ≠ b) :
    (s.setSink b f).registry.sink b' = s.registry.sink b' := by
  rw [Registry.sink, Server.setSink, Server.modifyRegistry, Registry.modifyCell_cells_of_ne _ _ h]
  rfl

theorem produced_step {a : SinkAction} {t : SinkServer} (h : sinkSystem.step s a t)
    {b : TaskBinding} (hb : a.reader ≠ some b) : (s.sink b).Produced (t.sink b) := by
  obtain ⟨hallowed, rfl⟩ := h
  have hread : ∀ b' f, a.reader = some b' → (s.sink b).Produced
      ((s.server.setSink b' f).registry.sink b) := by
    intro b' f ha
    have hne : b ≠ b' := by
      rintro rfl
      exact hb ha
    rw [setSink_of_ne s.server f hne]
    exact .same
  cases a with
  | server a => exact produces_apply s.server hallowed.2 b
  | cancel agentId taskId contextId =>
      simp only [SinkServer.apply, Server.onSinkAction, sink]
      split
      · rename_i registry hcancel
        exact (Registry.strikes_cancelCurrent hcancel).produces b
      · exact .same
  | inactive b' event =>
      exact (Registry.strikes_pushFinish s.server.registry b' hallowed).produces b
  | iterate b' aborted => exact hread b' _ rfl
  | wake b' => exact hread b' _ rfl
  | abort b' => exact hread b' _ rfl
  | abandon b' => exact hread b' _ rfl

theorem readQueue_closed (a : SinkAction) {q : SinkQueue} (h : q.closed = true) :
    (a.readQueue q).closed = true := by
  cases a with
  | iterate b aborted => exact (AsyncEventQueue.next_closed aborted).trans h
  | wake b =>
      cases hq : q.resume with
      | none => simpa [SinkAction.readQueue, hq] using h
      | some woken =>
          simpa [SinkAction.readQueue, hq] using (AsyncEventQueue.resume_closed hq).trans h
  | abort b => rwa [SinkAction.readQueue, AsyncEventQueue.onAbort_closed]
  | abandon b => exact AsyncEventQueue.end_closed
  | _ => exact h

theorem setSink_self (s : Server) (b : TaskBinding) (f : SinkQueue → SinkQueue) :
    (s.setSink b f).registry.sink b = f (s.registry.sink b) := by
  simp [Registry.sink, Server.setSink, Server.modifyRegistry]

/-- An ended sink stays so. -/
theorem closed_step {a : SinkAction} {t : SinkServer} (h : sinkSystem.step s a t)
    {b : TaskBinding} (hclosed : (s.sink b).closed = true) : (t.sink b).closed = true := by
  by_cases hb : a.reader = some b
  · obtain ⟨-, rfl⟩ := h
    have hread : (s.server.setSink b a.readQueue).registry.sink b = a.readQueue (s.sink b) :=
      setSink_self s.server b a.readQueue
    have hserver : (s.apply a).server = s.server.setSink b a.readQueue := by
      cases a with
      | iterate b' aborted | wake b' | abort b' | abandon b' =>
          obtain rfl : b' = b := Option.some.inj hb
          rfl
      | _ => simp [SinkAction.reader] at hb
    rw [sink, hserver, hread]
    exact readQueue_closed a hclosed
  · rwa [(produced_step h hb).eq_of_closed hclosed]

/-- The sinks that have ended are those counted once. -/
def Counted (s : SinkServer) : Prop := ∀ b, s.endings b = if (s.sink b).closed then 1 else 0

theorem Counted.step {a : SinkAction} {t : SinkServer} (hcounted : s.Counted)
    (h : sinkSystem.step s a t) : t.Counted := by
  intro b
  have hclosed := closed_step h (b := b)
  obtain ⟨-, rfl⟩ := h
  have hbefore := hcounted b
  have hendings : (s.apply a).endings b =
      if ¬ (s.sink b).closed ∧ ((s.apply a).sink b).closed then s.endings b + 1
      else s.endings b := rfl
  rw [hendings, hbefore]
  cases hs : (s.sink b).closed with
  | true => simp [hclosed hs]
  | false => cases ht : ((s.apply a).sink b).closed <;> simp

theorem counted_of_reachable (h : sinkSystem.Reachable s) : s.Counted := by
  refine h.invariant ?_ fun _ _ _ hcounted hstep => hcounted.step hstep
  rintro s ⟨graceMs, rfl⟩ b
  rfl

theorem sinkSpec_of_reachable (h : sinkSystem.Reachable s) : s.SinkSpec := by
  have hcounted := counted_of_reachable h
  refine ⟨fun a t hstep b hb => produced_step hstep hb, fun a t hstep b hb hopen hclosed =>
    (produced_step hstep hb).closes hopen hclosed, fun a t hstep b hb hclosed =>
      (produced_step hstep hb).eq_of_closed hclosed, fun b => ?_, fun b => ?_⟩
  · rw [hcounted b]
    split <;> simp
  · rw [hcounted b]
    split <;> simp_all

end SinkServer

namespace RunState

/-- Whatever races with a run, its stream has at most one terminal event and ends with it,
and of everything that would end its binding's sink only the first is heard there. -/
theorem oneTerminal_sound {x : RunState} {s : SinkServer} (hrun : runSystem.Reachable x)
    (hserver : sinkSystem.Reachable s) : x.TerminalLast ∧ s.SinkSpec :=
  ⟨terminalLast_of_reachable hrun, SinkServer.sinkSpec_of_reachable hserver⟩

section Witness

private def racedHello : HelloFrame where
  agentId := "agent"
  version := protocolVersion
  token := "token"

private def racedBinding : TaskBinding where
  ref := 0
  agentId := "agent"
  taskId := "task"
  contextId := "context"

private def raceStart : SinkServer := { server := { registry := { disconnectGraceMs := 30000 } } }

/-- The task is canceled, its inactivity timer fires, and its agent reports a failure. -/
private def race : List SinkAction :=
  [.server (.connect 0), .server (.message 0 0 (.ok (.hello racedHello))),
    .server (.authenticated 0 0 (some { id := "agent", clientId := "client" }) (.ok ())),
    .server (.dispatch racedBinding .ping), .cancel "agent" "task" "context",
    .inactive racedBinding (Registry.failureEvent racedBinding disconnectedError),
    .server (.message 1 0 (.ok (.task { taskId := "task", body := .fail ⟨"code", "message"⟩ })))]

private def timedOutRun : RunState :=
  (((((((messageRun connectedRegistry [textPart "hello"] false).after .next).after
    (.read (.ok none))).after (.marked true)).after .resume).after .watchdog).after .resume).after
      .resume

private theorem timedOutRun_reachable : runSystem.Reachable timedOutRun := by
  have h₀ : (runSystem.restrict fun _ _ => True).Reachable
      (messageRun connectedRegistry [textPart "hello"] false) :=
    .of_init (connectedRegistry_fresh _ _)
  have h₁ := after_reachable h₀ .next trivial trivial (by decide +kernel)
  have h₂ := after_reachable h₁ (.read (.ok none)) trivial trivial (by decide +kernel)
  have h₃ := after_reachable h₂ (.marked true) trivial trivial (by decide +kernel)
  have h₄ := after_reachable h₃ .resume trivial trivial (by decide +kernel)
  have h₅ := after_reachable h₄ .watchdog trivial trivial (by decide +kernel)
  have h₆ := after_reachable h₅ .resume trivial trivial (by decide +kernel)
  exact (after_reachable h₆ .resume trivial trivial (by decide +kernel)).of_restrict

theorem oneTerminal_sound_raced :
    timedOutRun.outputs.map StreamEvent.isTerminal = [true] ∧
      ((race.foldl SinkServer.apply raceStart).sink racedBinding).buffer =
        [.status (canceledEvent "task" "context")] ∧
      timedOutRun.TerminalLast ∧ (race.foldl SinkServer.apply raceStart).SinkSpec :=
  ⟨by decide +kernel, by decide +kernel, oneTerminal_sound timedOutRun_reachable
    (System.Legal.reachable (by decide +kernel) (.of_init ⟨30000, rfl⟩))⟩

end Witness

end RunState

end VicoopBridge
