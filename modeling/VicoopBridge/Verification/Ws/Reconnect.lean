import VicoopBridge.Verification.Ws.HoldRelease

/-! # Tasks across a reconnect

A task that was assigned to an agent is either served by the agent's connection or runs
against the deadline of a grace hold, as long as no frame from a displaced socket is taken
for a sign of life. -/

namespace VicoopBridge

open Library

namespace Registry

/-! ## Coverage -/

/-- The agent of the binding is connected, or the binding is held. -/
def Covered (r : Registry) (k : String) (b : TaskBinding) : Prop :=
  (r.agents.get? b.agentId).isSome ∨ (r.graceHolds.get? k).isSome

/-- No binding appears, and every binding that stays covered was covered before. -/
structure KeepsCover (r r' : Registry) : Prop where
  bindings : ∀ k b, r'.bindings.get? k = some b → r.bindings.get? k = some b
  covered : ∀ k b, r'.bindings.get? k = some b → r.Covered k b → r'.Covered k b

variable {r r' r'' : Registry}

theorem KeepsCover.trans (h : r.KeepsCover r') (h' : r'.KeepsCover r'') : r.KeepsCover r'' where
  bindings k b hb := h.bindings k b (h'.bindings k b hb)
  covered k b hb hc := h'.covered k b hb (h.covered k b (h'.bindings k b hb) hc)

theorem KeepsHolds.keepsCover (h : r.KeepsHolds r') (inv : r.GraceInvariant)
    (hagents : ∀ a, (r.agents.get? a).isSome → (r'.agents.get? a).isSome) :
    r.KeepsCover r' where
  bindings := h.bindings
  covered k b hb hc := by
    rcases hc with hagent | hheld
    · exact .inl (hagents _ hagent)
    · obtain ⟨hold, hk⟩ := Option.isSome_iff_exists.mp hheld
      have hbinding : hold.binding = b :=
        Option.some.inj ((inv.hold_stored k hold hk).symm.trans (h.bindings k b hb))
      exact .inr (by rw [h.hold k hold hk (by rw [hbinding]; exact hb)]; rfl)

theorem keepsCover_of_eq (ha : r'.agents = r.agents) (hb : r'.bindings = r.bindings)
    (hh : r'.graceHolds = r.graceHolds) : r.KeepsCover r' where
  bindings := by rw [hb]; exact fun _ _ h => h
  covered k b _ hc := by
    unfold Covered at hc ⊢
    rwa [ha, hh]

/-! ## Losing a connection -/

theorem holdLoop_holds (now : ℕ) (error : TerminalError) (b : TaskBinding) :
    ∀ (bs : List TaskBinding) (r : Registry), b ∈ bs →
      ((bs.foldl (fun r b => r.holdBinding now error b) r).graceHolds.get? b.taskId).isSome := by
  intro bs
  induction bs with
  | nil =>
      intro r h
      simp at h
  | cons b' rest ih =>
      intro r h
      rcases List.mem_cons.mp h with rfl | hrest
      · have hheld : ((r.holdBinding now error b).graceHolds.get? b.taskId).isSome := by
          unfold holdBinding
          split
          · assumption
          · simp
        obtain ⟨hold, hk⟩ := Option.isSome_iff_exists.mp hheld
        have hrest : (r.holdBinding now error b).Holds
            (rest.foldl (fun r b => r.holdBinding now error b) (r.holdBinding now error b)) :=
          List.foldlRecOn (motive := (r.holdBinding now error b).Holds) _ _ (.refl _)
            fun r' h b _ => h.trans (holds_holdBinding r' now error b)
        rw [List.foldl_cons, hrest.kept _ hold hk]
        rfl
      · exact ih _ hrest

/-- Whichever way the tasks of a lost connection go, those that stay are held. -/
theorem holdBindingsForAgent_covers (inv : r.GraceInvariant) (now : ℕ) (agentId : String)
    (error : TerminalError) (k : String) (b : TaskBinding)
    (hk : (r.holdBindingsForAgent now agentId error).bindings.get? k = some b)
    (hb : b.agentId = agentId) :
    ((r.holdBindingsForAgent now agentId error).graceHolds.get? k).isSome := by
  have hbefore := (below_respects.holdBindingsForAgent r now agentId error).bindings k b hk
  have hkey := inv.binding_key k b hbefore
  have hmem : b ∈ r.bindings.values.filter fun b => b.agentId = agentId := by
    rw [List.mem_filter, InsertionMap.mem_values_iff]
    exact ⟨⟨k, hbefore⟩, by simpa using hb⟩
  unfold holdBindingsForAgent at hk ⊢
  split at hk
  · subst hkey
    exact absurd hk (failLoop_not_stored error b _ r hmem)
  · rename_i hgrace
    rw [if_neg hgrace, ← hkey]
    exact holdLoop_holds now error b _ r hmem

theorem failBindingsForAgent_covers (inv : r.GraceInvariant) (agentId : String)
    (error : TerminalError) (k : String) (b : TaskBinding)
    (hk : (r.failBindingsForAgent agentId error).bindings.get? k = some b) :
    b.agentId ≠ agentId := by
  intro hb
  have hbefore := (below_respects.failBindingsForAgent r agentId error).bindings k b hk
  have hkey := inv.binding_key k b hbefore
  subst hkey
  refine failLoop_not_stored error b _ r ?_ hk
  rw [List.mem_filter, InsertionMap.mem_values_iff]
  exact ⟨⟨_, hbefore⟩, by simpa using hb⟩

theorem keepsCover_unregisterAgent (inv : r.GraceInvariant) (now : ℕ) (agentId : String)
    (ws : WsId) (closeCode : Option ℕ) :
    r.KeepsCover (r.unregisterAgent now agentId ws closeCode) := by
  have hkeeps := keepsHolds_unregisterAgent inv now agentId ws closeCode
  refine ⟨hkeeps.bindings, ?_⟩
  intro k b hb hc
  have inv₁ : { r with agents := r.agents.erase agentId }.GraceInvariant :=
    inv.congr rfl rfl rfl rfl
  unfold unregisterAgent at hb hkeeps ⊢
  cases hconn : r.agents.get? agentId with
  | none => exact hc
  | some existing =>
      simp only [hconn] at hb hkeeps ⊢
      by_cases hws : existing.ws ≠ ws
      · rw [if_pos hws]
        exact hc
      rw [if_neg hws] at hb hkeeps ⊢
      by_cases hagent : b.agentId = agentId
      · -- The binding lost its connection: it is held, or it was failed.
        refine .inr ?_
        split at hb
        · rename_i hgrace
          rw [if_pos hgrace]
          exact holdBindingsForAgent_covers inv₁ now agentId _ k b hb hagent
        · exact absurd hagent (failBindingsForAgent_covers inv₁ agentId _ k b hb)
      · rcases hc with hconnected | hheld
        · left
          split
          · rw [holdBindingsForAgent_agents]
            rw [InsertionMap.get?_erase_of_ne _ (Ne.symm hagent)]
            exact hconnected
          · rw [failBindingsForAgent_agents]
            rw [InsertionMap.get?_erase_of_ne _ (Ne.symm hagent)]
            exact hconnected
        · obtain ⟨hold, hk⟩ := Option.isSome_iff_exists.mp hheld
          have hbinding : hold.binding = b :=
            Option.some.inj ((inv.hold_stored k hold hk).symm.trans (hkeeps.bindings k b hb))
          exact .inr (by rw [hkeeps.hold k hold hk (by rw [hbinding]; exact hb)]; rfl)

theorem keepsCover_registerAgent (inv : r.GraceInvariant) (now : ℕ) {conn : ClientConnection}
    (h : r.registerAgent now conn = .ok r') : r.KeepsCover r' := by
  refine (keepsHolds_registerAgent inv now h).keepsCover inv ?_
  intro a ha
  by_cases heq : a = conn.agentId
  · rw [heq, Server.registerAgent_get? h]
    rfl
  · unfold registerAgent at h
    split at h
    · split at h
      · obtain rfl := Except.ok.inj h
        rw [InsertionMap.get?_set_of_ne _ _ (Ne.symm heq), displaceConnection_agents]
        exact ha
      · simp at h
    · obtain rfl := Except.ok.inj h
      rw [InsertionMap.get?_set_of_ne _ _ (Ne.symm heq)]
      exact ha

/-! ## A frame on a socket -/

/-- A frame takes a hold from a binding that stays only by continuing its execution. -/
theorem FrameVerdict.release (inv : r.GraceInvariant) {now : ℕ} {ws : WsId} {B : String}
    {frame : TaskUpFrame} {res : Option TaskFrameAcceptance}
    (h : FrameVerdict r now ws B frame res r') :
    (∀ k b, r'.bindings.get? k = some b → r.bindings.get? k = some b) ∧
    ∀ k hold, r.graceHolds.get? k = some hold → r'.bindings.get? k = some hold.binding →
      r'.graceHolds.get? k = some hold ∨
        k = frame.taskId ∧ hold.binding.agentId = B ∧
          Continues frame hold.binding (r.expectedSeq hold.binding) := by
  have hkeeps : r.KeepsHolds r' → (∀ k b, r'.bindings.get? k = some b →
      r.bindings.get? k = some b) ∧ ∀ k hold, r.graceHolds.get? k = some hold →
      r'.bindings.get? k = some hold.binding → r'.graceHolds.get? k = some hold ∨
        k = frame.taskId ∧ hold.binding.agentId = B ∧
          Continues frame hold.binding (r.expectedSeq hold.binding) :=
    fun hk => ⟨hk.bindings, fun k hold h h' => .inl (hk.hold k hold h h')⟩
  have hresume : ∀ (r₁ : Registry) (b : TaskBinding), r₁.bindings = r.bindings →
      r₁.graceHolds = r.graceHolds → r.getBinding frame.taskId = some b →
      Continues frame b (r.expectedSeq b) →
      (∀ k b, (r₁.resumeBinding frame.taskId B).bindings.get? k = some b →
        r.bindings.get? k = some b) ∧
      ∀ k hold, r.graceHolds.get? k = some hold →
        (r₁.resumeBinding frame.taskId B).bindings.get? k = some hold.binding →
        (r₁.resumeBinding frame.taskId B).graceHolds.get? k = some hold ∨
          k = frame.taskId ∧ hold.binding.agentId = B ∧
            Continues frame hold.binding (r.expectedSeq hold.binding) := by
    intro r₁ b hb hh hstored hcont
    obtain ⟨hbindings, hothers⟩ := keepsHolds_resumeBinding_of_ne r₁ frame.taskId B
    rw [hb] at hbindings
    rw [hh] at hothers
    refine ⟨hbindings, ?_⟩
    intro k hold hk _
    by_cases hmine : k = frame.taskId ∧ hold.binding.agentId = B
    · refine .inr ⟨hmine.1, hmine.2, ?_⟩
      have hbound := inv.hold_stored k hold hk
      rw [hmine.1] at hbound
      rw [Option.some.inj (hbound.symm.trans hstored)]
      exact hcont
    · refine .inl (hothers k hold hk ?_)
      by_cases hkey : k = frame.taskId
      · exact .inr fun hagent => hmine ⟨hkey, hagent⟩
      · exact .inl hkey
  cases h with
  | unbound => exact hkeeps (keepsHolds_frames.acknowledgeReceipt r now ws _ frame)
  | foreign => exact hkeeps (.refl r)
  | stale => exact hkeeps (keepsHolds_frames.acknowledgeReceipt r now ws _ frame)
  | broken b code message => exact hkeeps (keepsHolds_frames.failExecution r b code message)
  | duplicate b seq hstored _ hexec hgen hseq hlt =>
      obtain ⟨e, he⟩ := Option.isSome_iff_exists.mp hexec
      obtain ⟨sockets, hack⟩ := r.acknowledge_frame ws b
      refine hresume _ b (by rw [hack]) (by rw [hack]) hstored ⟨hgen, ?_⟩
      rw [he]
      exact ⟨seq, hseq, hlt.le⟩
  | accepted b hstored _ hexec hgen hseq =>
      obtain ⟨e, he⟩ := Option.isSome_iff_exists.mp hexec
      refine hresume _ b rfl rfl hstored ⟨hgen, ?_⟩
      rw [he]
      exact ⟨_, hseq, le_rfl⟩
  | legacy b hstored _ hexec hgen hseq =>
      refine hresume r b rfl rfl hstored ⟨by rw [hgen, hexec], ?_⟩
      rw [hexec]
      exact hseq

theorem processTaskFrame_release (hr : r.Consistent) (now : ℕ) (ws : WsId) (B : String)
    (frame : TaskUpFrame) (k : String) (hold : GraceHold) (hk : r.graceHolds.get? k = some hold)
    (hstored : (r.processTaskFrame now ws (some B) frame).bindings.get? k = some hold.binding) :
    (r.processTaskFrame now ws (some B) frame).graceHolds.get? k = some hold ∨
      k = frame.taskId ∧ hold.binding.agentId = B ∧
        Continues frame hold.binding (r.expectedSeq hold.binding) := by
  have hverdict := acceptTaskFrame_verdict r now ws B frame
  unfold processTaskFrame at hstored ⊢
  rcases hres : r.acceptTaskFrame now ws (some B) frame with ⟨res, r₁⟩
  rw [hres] at hverdict hstored
  simp only at hverdict
  obtain ⟨-, hrelease⟩ := hverdict.release hr.toGraceInvariant
  rcases res with _ | b | _
  · exact hrelease k hold hk hstored
  · have haccepted := keepsHolds_frames.processAccepted r₁ now ws b frame.body
    rcases hrelease k hold hk (haccepted.bindings k _ hstored) with hkept | hmine
    · exact .inl (haccepted.hold k hold hkept hstored)
    · exact .inr hmine
  · exact hrelease k hold hk hstored

end Registry

/-! ## Runs in which the assignments are remembered -/

/-- The server, with the bindings whose `task.assign` was sent. -/
structure TrackedServer where
  server : Server
  assigned : List TaskBinding := []

namespace TrackedServer

def assignedAfter (s : TrackedServer) : ServerAction → List TaskBinding
  | .dispatch b _ =>
      if (s.server.registry.bindTask b).1 ∧ (s.server.registry.agents.get? b.agentId).isSome then
        b :: s.assigned
      else s.assigned.filter (· ≠ b)
  | _ => s.assigned

end TrackedServer

def trackedSystem : System TrackedServer ServerAction where
  init s := serverSystem.init s.server ∧ s.assigned = []
  step s a t := serverSystem.step s.server a t.server ∧ t.assigned = s.assignedAfter a

namespace Server

variable {s : Server}

theorem keepsHolds_authenticated (inv : s.Invariant) (now : ℕ) {ws : WsId} {c : Connection}
    {frame : HelloFrame} (hc : s.connections ws = some c) (hauth : c.authenticating = some frame)
    (client : Option ClientRow) (card : Except (ℕ × String) Unit) :
    s.registry.KeepsHolds (s.apply (.authenticated now ws client card)).registry := by
  simp only [apply, withConnection, hc, hauth, onAuthenticated]
  split
  · exact Registry.keepsHolds_of_eq rfl rfl
  · rename_i registry hok
    obtain ⟨conn, -, -, hreg⟩ := authenticateAndRegister_ok hok
    have hregister := Registry.keepsHolds_registerAgent inv.consistent.toGraceInvariant now hreg
    have inv' := (inv.consistent.toGraceInvariant.graceStep_registerAgent now conn hreg).invariant
    split
    · split
      · exact hregister
      · exact hregister.trans (Registry.keepsHolds_unregisterAgent inv' now _ ws _)
    · split
      · exact hregister.trans (Registry.keepsHolds_of_eq rfl rfl)
      · exact hregister

theorem keepsHolds_close (inv : s.registry.GraceInvariant) (now : ℕ) {ws : WsId} {c : Connection}
    (hc : s.connections ws = some c) (code : ℕ) :
    s.registry.KeepsHolds (s.apply (.close now ws code)).registry := by
  have hsocket : s.registry.KeepsHolds (s.registry.modifySocket ws
      fun socket => { socket with readyState := .closed }) :=
    Registry.keepsHolds_of_eq rfl rfl
  have inv' : (s.registry.modifySocket ws
      fun socket => { socket with readyState := .closed }).GraceInvariant :=
    inv.congr rfl rfl rfl rfl
  simp only [apply, withConnection, hc, onClose]
  split
  · exact hsocket.trans (Registry.keepsHolds_unregisterAgent inv' now _ ws _)
  · exact hsocket

theorem dispatch_hold (inv : s.registry.GraceInvariant) (b : TaskBinding) (assign : DownFrame)
    {k : String} {hold : GraceHold} (hk : s.registry.graceHolds.get? k = some hold)
    (hstored : (s.dispatch b assign).registry.bindings.get? k = some hold.binding) :
    (s.dispatch b assign).registry.graceHolds.get? k = some hold := by
  have hbind := Registry.bindTask_hold inv b hk
  unfold dispatch at hstored ⊢
  rcases hres : s.registry.bindTask b with ⟨bound, registry⟩
  rw [hres] at hbind hstored
  cases bound with
  | false => exact hbind hstored
  | true =>
      have hsend := Registry.keepsHolds_sendToAgent registry b.agentId assign
      exact hsend.hold k hold (hbind (hsend.bindings k _ hstored)) hstored

/-- A frame that continues the held execution arrives on a connection of its agent. -/
def ContinuedBy (s : Server) (a : ServerAction) (k : String) (hold : GraceHold) : Prop :=
  ∃ now ws frame c, a = .message now ws (.ok (.task frame)) ∧ frame.taskId = k ∧
    s.connections ws = some c ∧ c.authed = true ∧ c.agentId = some hold.binding.agentId ∧
    Registry.Continues frame hold.binding (s.registry.expectedSeq hold.binding)

theorem Invariant.release_message (inv : s.Invariant) (now : ℕ) {ws : WsId} {c : Connection}
    (hc : s.connections ws = some c) (parsed : Except String UpFrame) {k : String}
    {hold : GraceHold} (hk : s.registry.graceHolds.get? k = some hold)
    (hstored : (s.onMessage now ws c parsed).registry.bindings.get? k = some hold.binding) :
    (s.onMessage now ws c parsed).registry.graceHolds.get? k = some hold ∨
      s.ContinuedBy (.message now ws parsed) k hold := by
  cases parsed with
  | error complaint => exact .inl hk
  | ok frame =>
      by_cases hauthed : c.authed = true
      · obtain ⟨B, hB⟩ := Option.isSome_iff_exists.mp ((inv.connection ws c hc).authed hauthed)
        have hframe : s.onMessage now ws c (.ok frame) =
            s.processAuthedFrame now ws (some B) frame := by
          simp [Server.onMessage, hauthed, hB]
        rw [hframe] at hstored ⊢
        cases frame with
        | hello => exact .inl hk
        | pong => exact .inl hk
        | usageResponse frame =>
            refine .inl ?_
            simp only [Server.processAuthedFrame]
            split
            · unfold Server.resolveUsageResponse
              repeat' split
              all_goals exact hk
            · exact hk
        | task frame =>
            rcases Registry.processTaskFrame_release inv.consistent now ws B frame k hold hk
              hstored with hkept | ⟨hkey, hagent, hcont⟩
            · exact .inl hkept
            · exact .inr ⟨now, ws, frame, c, rfl, hkey.symm, hc, hauthed, by rw [hB, hagent], hcont⟩
      · refine .inl ?_
        simp only [Server.onMessage, if_neg hauthed]
        repeat' split
        all_goals exact hk

/-- A step takes a hold from a binding that stays only by a frame that continues it. -/
theorem release_step (inv : s.Invariant) {a : ServerAction} {t : Server}
    (h : serverSystem.step s a t) {k : String} {hold : GraceHold}
    (hk : s.registry.graceHolds.get? k = some hold)
    (hstored : t.registry.bindings.get? k = some hold.binding) :
    t.registry.graceHolds.get? k = some hold ∨ s.ContinuedBy a k hold := by
  obtain ⟨henabled, rfl⟩ := h
  have hgrace := inv.consistent.toGraceInvariant
  have hkeeps : s.registry.KeepsHolds (s.apply a).registry →
      (s.apply a).registry.graceHolds.get? k = some hold ∨ s.ContinuedBy a k hold :=
    fun hkeep => .inl (hkeep.hold k hold hk hstored)
  cases a with
  | connect ws => exact .inl hk
  | message now ws parsed =>
      obtain ⟨c, hc, -⟩ := henabled
      have happly : s.apply (.message now ws parsed) = s.onMessage now ws c parsed := by
        simp [apply, withConnection, hc]
      rw [happly] at hstored ⊢
      exact inv.release_message now hc parsed hk hstored
  | authenticated now ws client card =>
      obtain ⟨c, hc, hauth⟩ := henabled
      obtain ⟨frame, hframe⟩ := Option.isSome_iff_exists.mp hauth
      exact hkeeps (keepsHolds_authenticated inv now hc hframe client card)
  | authenticationError ws =>
      obtain ⟨c, hc, -⟩ := henabled
      simp only [apply, withConnection, hc]
      exact .inl hk
  | helloTimeout ws =>
      obtain ⟨c, hc, -⟩ := henabled
      simp only [apply, withConnection, hc, onHelloTimeout]
      split <;> exact .inl hk
  | peerClosing ws => exact .inl hk
  | oversizedMessage ws => exact .inl hk
  | close now ws code =>
      obtain ⟨c, hc, -⟩ := henabled
      exact hkeeps (keepsHolds_close hgrace now hc code)
  | disconnectClient clientId => exact hkeeps (Registry.keepsHolds_disconnectClient _ clientId)
  | requestUsage requestId agentId =>
      refine hkeeps ?_
      have hsend := Registry.keepsHolds_sendToAgent s.registry agentId (.usageRequest requestId)
      simp only [apply, requestUsage]
      split
      · rename_i registry heq
        rw [heq] at hsend
        exact hsend
      · exact .refl _
  | usageTimeout requestId => exact .inl hk
  | decideApproval now id decision principal via =>
      exact hkeeps (Registry.keepsHolds_decide _ now id decision principal via)
  | approvalTick now id => exact hkeeps (Registry.keepsHolds_approvalTick _ now id)
  | graceExpire timer => exact hkeeps (Registry.keepsHolds_expireGraceTimer hgrace henabled)
  | dispatch binding assign => exact .inl (dispatch_hold hgrace binding assign hk hstored)
  | sendToAgent agentId frame => exact hkeeps (Registry.keepsHolds_sendToAgent _ agentId frame)
  | sink binding f => exact .inl hk
  | unbindTask taskId binding => exact hkeeps (Registry.keepsHolds_unbindTask _ taskId binding)

/-- The steps that connect an agent, disconnect it, or bind a task. -/
def MovesTasks : ServerAction → Prop
  | .authenticated .. | .close .. | .dispatch .. => True
  | _ => False

/-- Every other step leaves the connections alone and binds nothing. -/
theorem quiet_step (inv : s.Invariant) {a : ServerAction} {t : Server}
    (h : serverSystem.step s a t) (hquiet : ¬ MovesTasks a) :
    t.registry.agents = s.registry.agents ∧
      ∀ k b, t.registry.bindings.get? k = some b → s.registry.bindings.get? k = some b := by
  obtain ⟨henabled, rfl⟩ := h
  cases a with
  | connect ws => exact ⟨rfl, fun _ _ h => h⟩
  | message now ws parsed =>
      obtain ⟨c, hc, -⟩ := henabled
      have happly : s.apply (.message now ws parsed) = s.onMessage now ws c parsed := by
        simp [apply, withConnection, hc]
      rw [happly]
      cases parsed with
      | error complaint => exact ⟨rfl, fun _ _ h => h⟩
      | ok frame =>
          unfold onMessage
          simp only
          split
          · rename_i hauthed
            obtain ⟨B, hB⟩ := Option.isSome_iff_exists.mp
              ((inv.connection ws c hc).authed hauthed)
            rw [hB]
            cases frame with
            | hello => exact ⟨rfl, fun _ _ h => h⟩
            | pong => exact ⟨rfl, fun _ _ h => h⟩
            | usageResponse frame =>
                simp only [processAuthedFrame]
                split
                · unfold resolveUsageResponse
                  repeat' split
                  all_goals exact ⟨rfl, fun _ _ h => h⟩
                · exact ⟨rfl, fun _ _ h => h⟩
            | task frame =>
                have heffect : s.registry.FrameEffect B ws
                    (s.registry.processTaskFrame now ws (some B) frame) :=
                  Registry.effect_processTaskFrame inv.consistent now frame
                exact ⟨heffect.agents, heffect.bindings⟩
          · repeat' split
            all_goals exact ⟨rfl, fun _ _ h => h⟩
  | authenticated now ws client card => exact absurd trivial hquiet
  | authenticationError ws =>
      obtain ⟨c, hc, -⟩ := henabled
      simp only [apply, withConnection, hc]
      exact ⟨rfl, fun _ _ h => h⟩
  | helloTimeout ws =>
      obtain ⟨c, hc, -⟩ := henabled
      simp only [apply, withConnection, hc, onHelloTimeout]
      split <;> exact ⟨rfl, fun _ _ h => h⟩
  | peerClosing ws => exact ⟨rfl, fun _ _ h => h⟩
  | oversizedMessage ws => exact ⟨rfl, fun _ _ h => h⟩
  | close now ws code => exact absurd trivial hquiet
  | disconnectClient clientId =>
      exact ⟨Registry.disconnectClient_agents _ clientId,
        (Registry.keepsHolds_disconnectClient _ clientId).bindings⟩
  | requestUsage requestId agentId =>
      have hagents := Registry.sendToAgent_agents s.registry agentId (.usageRequest requestId)
      have hsend := Registry.keepsHolds_sendToAgent s.registry agentId (.usageRequest requestId)
      simp only [apply, requestUsage]
      split
      · rename_i registry heq
        rw [heq] at hagents hsend
        exact ⟨hagents, hsend.bindings⟩
      · exact ⟨rfl, fun _ _ h => h⟩
  | usageTimeout requestId => exact ⟨rfl, fun _ _ h => h⟩
  | decideApproval now id decision principal via =>
      exact ⟨Registry.decide_agents _ now id decision principal via,
        (Registry.keepsHolds_decide _ now id decision principal via).bindings⟩
  | approvalTick now id =>
      exact ⟨Registry.approvalTick_agents _ now id,
        (Registry.keepsHolds_approvalTick _ now id).bindings⟩
  | graceExpire timer =>
      exact ⟨Registry.expireGraceTimer_agents _ timer,
        (Registry.keepsHolds_expireGraceTimer inv.consistent.toGraceInvariant henabled).bindings⟩
  | dispatch binding assign => exact absurd trivial hquiet
  | sendToAgent agentId frame =>
      exact ⟨Registry.sendToAgent_agents _ agentId frame,
        (Registry.keepsHolds_sendToAgent _ agentId frame).bindings⟩
  | sink binding f => exact ⟨rfl, fun _ _ h => h⟩
  | unbindTask taskId binding =>
      exact ⟨Registry.unbindTask_agents _ binding taskId,
        (Registry.keepsHolds_unbindTask _ taskId binding).bindings⟩

theorem keepsCover_authenticated (inv : s.Invariant) (now : ℕ) {ws : WsId} {c : Connection}
    {frame : HelloFrame} (hc : s.connections ws = some c) (hauth : c.authenticating = some frame)
    (client : Option ClientRow) (card : Except (ℕ × String) Unit) :
    s.registry.KeepsCover (s.apply (.authenticated now ws client card)).registry := by
  simp only [apply, withConnection, hc, hauth, onAuthenticated]
  split
  · exact Registry.keepsCover_of_eq rfl rfl rfl
  · rename_i registry hok
    obtain ⟨conn, -, -, hreg⟩ := authenticateAndRegister_ok hok
    have hregister := Registry.keepsCover_registerAgent inv.consistent.toGraceInvariant now hreg
    have inv' := (inv.consistent.toGraceInvariant.graceStep_registerAgent now conn hreg).invariant
    split
    · split
      · exact hregister
      · exact hregister.trans (Registry.keepsCover_unregisterAgent inv' now _ ws _)
    · split
      · exact hregister.trans (Registry.keepsCover_of_eq rfl rfl rfl)
      · exact hregister

/-- An authentication registers at most the agent it names. -/
theorem authenticated_agents (now : ℕ) {ws : WsId} {c : Connection} {frame : HelloFrame}
    (hc : s.connections ws = some c) (hauth : c.authenticating = some frame)
    (client : Option ClientRow) (card : Except (ℕ × String) Unit) {a : String}
    {conn : ClientConnection}
    (h : (s.apply (.authenticated now ws client card)).registry.agents.get? a = some conn) :
    a = frame.agentId ∨ s.registry.agents.get? a = some conn := by
  simp only [apply, withConnection, hc, hauth, onAuthenticated] at h
  split at h
  · exact .inr h
  · rename_i registry hok
    obtain ⟨conn', hid, -, hreg⟩ := authenticateAndRegister_ok hok
    have hregistered : registry.agents.get? a = some conn := by
      split at h
      · split at h
        · exact h
        · exact (Registry.below_unregisterAgent _ _ _ _ _).agents a conn h
      · split at h <;> exact h
    rcases registerAgent_agents hreg a conn hregistered with ⟨heq, -⟩ | ⟨-, hold⟩
    · exact .inl (heq.trans hid)
    · exact .inr hold

theorem keepsCover_close (inv : s.registry.GraceInvariant) (now : ℕ) {ws : WsId} {c : Connection}
    (hc : s.connections ws = some c) (code : ℕ) :
    s.registry.KeepsCover (s.apply (.close now ws code)).registry := by
  have hsocket : s.registry.KeepsCover (s.registry.modifySocket ws
      fun socket => { socket with readyState := .closed }) :=
    Registry.keepsCover_of_eq rfl rfl rfl
  have inv' : (s.registry.modifySocket ws
      fun socket => { socket with readyState := .closed }).GraceInvariant :=
    inv.congr rfl rfl rfl rfl
  simp only [apply, withConnection, hc, onClose]
  split
  · exact hsocket.trans (Registry.keepsCover_unregisterAgent inv' now _ ws _)
  · exact hsocket

theorem below_close (now : ℕ) {ws : WsId} {c : Connection} (hc : s.connections ws = some c)
    (code : ℕ) : s.registry.Below (s.apply (.close now ws code)).registry := by
  have hsocket : s.registry.Below (s.registry.modifySocket ws
      fun socket => { socket with readyState := .closed }) :=
    Registry.below_of_eq rfl rfl rfl rfl
  simp only [apply, withConnection, hc, onClose]
  split
  · exact hsocket.trans (Registry.below_unregisterAgent _ now _ ws _)
  · exact hsocket

/-- Binding adds the binding and nothing else. -/
theorem dispatch_bindings (b : TaskBinding) (assign : DownFrame) {k : String} {b' : TaskBinding}
    (h : (s.dispatch b assign).registry.bindings.get? k = some b') :
    (b' = b ∧ (s.registry.bindTask b).1 = true) ∨ s.registry.bindings.get? k = some b' := by
  have hbind := fun h => (@Registry.bindTask_bindings s.registry b k b' h).imp_left
    fun ⟨heq, _, hbound⟩ => (⟨heq, hbound⟩ : _ ∧ _)
  unfold dispatch at h
  rcases hres : s.registry.bindTask b with ⟨bound, registry⟩
  rw [hres] at h hbind
  cases bound with
  | false => exact hbind h
  | true => exact hbind ((Registry.below_sendToAgent registry _ _).bindings k b' h)

theorem dispatch_agents (b : TaskBinding) (assign : DownFrame) :
    (s.dispatch b assign).registry.agents = s.registry.agents := by
  have hbind := Registry.bindTask_agents s.registry b
  unfold dispatch
  rcases hres : s.registry.bindTask b with ⟨bound, registry⟩
  rw [hres] at hbind
  cases bound with
  | false => exact hbind
  | true => exact (Registry.sendToAgent_agents registry _ _).trans hbind

end Server

namespace TrackedServer

/-- The agent's registered connection has not been closed: its frames reach the server. -/
def Connected (s : TrackedServer) (agentId : String) : Prop :=
  ∃ conn c, s.server.registry.agents.get? agentId = some conn ∧
    s.server.connections conn.ws = some c ∧ c.observedCloseCode = none

/-- The binding is held and the timer of its hold is armed. -/
def HeldByTimer (s : TrackedServer) (b : TaskBinding) : Prop :=
  ∃ timer ∈ s.server.registry.timers, timer.binding = b ∧
    s.server.registry.graceHolds.get? b.taskId = some ⟨timer.id, b⟩

/-- What a reconnect may do to the tasks of an agent, in a system with the given steps. -/
structure ReconnectSpec (S : System TrackedServer ServerAction) (s : TrackedServer) : Prop where
  /-- Only a frame on the agent's registered connection takes a hold from a live binding. -/
  released : ∀ a t, S.step s a t → ∀ k hold, s.server.registry.graceHolds.get? k = some hold →
    t.server.registry.bindings.get? k = some hold.binding →
    t.server.registry.graceHolds.get? k ≠ some hold →
    ∃ now frame conn, a = .message now conn.ws (.ok (.task frame)) ∧
      s.server.registry.agents.get? hold.binding.agentId = some conn
  /-- An assigned task is served or runs against a deadline. -/
  covered : ∀ k b, s.server.registry.bindings.get? k = some b → b ∈ s.assigned →
    s.Connected b.agentId ∨ s.HeldByTimer b

/-- No frame that continues a held execution arrives on another socket than the one its
agent is registered with, and no agent calls itself by the empty name. -/
def OnCurrentSocket (s : TrackedServer) : ServerAction → Prop
  | .message _ ws (.ok (.task frame)) => ∀ hold c,
      s.server.registry.graceHolds.get? frame.taskId = some hold →
      s.server.connections ws = some c → c.authed = true →
      c.agentId = some hold.binding.agentId →
      Registry.Continues frame hold.binding (s.server.registry.expectedSeq hold.binding) →
      ∃ conn, s.server.registry.agents.get? hold.binding.agentId = some conn ∧ conn.ws = ws
  | .authenticated _ ws _ _ => ∀ c frame, s.server.connections ws = some c →
      c.authenticating = some frame → frame.agentId ≠ ""
  | _ => True

/-! ## The invariant of the runs on current sockets -/

structure ReconnectInvariant (s : TrackedServer) : Prop where
  server : s.server.Invariant
  named : ∀ a conn, s.server.registry.agents.get? a = some conn → a ≠ ""
  covered : ∀ k b, s.server.registry.bindings.get? k = some b → b ∈ s.assigned →
    s.server.registry.Covered k b

variable {s t : TrackedServer}

theorem OnCurrentSocket.current {a : ServerAction} (h : s.OnCurrentSocket a) {k : String}
    {hold : GraceHold} (hcont : s.server.ContinuedBy a k hold)
    (hk : s.server.registry.graceHolds.get? k = some hold) :
    ∃ conn, s.server.registry.agents.get? hold.binding.agentId = some conn ∧
      ∃ now frame, a = .message now conn.ws (.ok (.task frame)) := by
  obtain ⟨now, ws, frame, c, rfl, rfl, hc, hauthed, hagent, hframe⟩ := hcont
  obtain ⟨conn, hconn, rfl⟩ := h hold c hk hc hauthed hagent hframe
  exact ⟨conn, hconn, now, frame, rfl⟩

theorem ReconnectInvariant.step {a : ServerAction} (inv : s.ReconnectInvariant)
    (hallowed : s.OnCurrentSocket a) (h : trackedSystem.step s a t) : t.ReconnectInvariant := by
  obtain ⟨hstep, hassigned⟩ := h
  have hserver := inv.server.step hstep
  have hgrace := inv.server.consistent.toGraceInvariant
  have hsame : (∀ b assign, a ≠ .dispatch b assign) → t.assigned = s.assigned := by
    intro hne
    rw [hassigned]
    cases a with
    | dispatch b assign => exact absurd rfl (hne b assign)
    | _ => rfl
  by_cases hmoves : Server.MovesTasks a
  · obtain ⟨henabled, heq⟩ := hstep
    cases a with
    | authenticated now ws client card =>
        obtain ⟨c, hc, hauth⟩ := henabled
        obtain ⟨frame, hframe⟩ := Option.isSome_iff_exists.mp hauth
        have hcover := Server.keepsCover_authenticated inv.server now hc hframe client card
        rw [← heq] at hcover
        refine ⟨hserver, ?_, ?_⟩
        · intro agentId conn hconn
          rw [heq] at hconn
          rcases Server.authenticated_agents now hc hframe client card hconn with rfl | hold
          · exact hallowed c frame hc hframe
          · exact inv.named agentId conn hold
        · intro k b hb hmem
          rw [hsame (by simp)] at hmem
          exact hcover.covered k b hb (inv.covered k b (hcover.bindings k b hb) hmem)
    | close now ws code =>
        obtain ⟨c, hc, -⟩ := henabled
        have hcover := Server.keepsCover_close hgrace now hc code
        rw [← heq] at hcover
        refine ⟨hserver, ?_, ?_⟩
        · intro agentId conn hconn
          have hbelow := Server.below_close now hc code
          rw [← heq] at hbelow
          exact inv.named agentId conn (hbelow.agents agentId conn hconn)
        · intro k b hb hmem
          rw [hsame (by simp)] at hmem
          exact hcover.covered k b hb (inv.covered k b (hcover.bindings k b hb) hmem)
    | dispatch b assign =>
        have hagents : t.server.registry.agents = s.server.registry.agents := by
          rw [heq]
          exact Server.dispatch_agents b assign
        refine ⟨hserver, fun agentId conn hconn => inv.named agentId conn (hagents ▸ hconn), ?_⟩
        intro k b' hb' hmem
        rw [hassigned, assignedAfter] at hmem
        rw [heq] at hb'
        have hold : b' ≠ b → t.server.registry.Covered k b' := by
          intro hne
          have hmem' : b' ∈ s.assigned := by
            split at hmem
            · exact (List.mem_cons.mp hmem).resolve_left hne
            · exact List.mem_of_mem_filter hmem
          rcases Server.dispatch_bindings b assign hb' with ⟨heq', -⟩ | hb'
          · exact absurd heq' hne
          · rcases inv.covered k b' hb' hmem' with hagent | hheld
            · exact .inl (by rw [hagents]; exact hagent)
            · obtain ⟨hold, hk⟩ := Option.isSome_iff_exists.mp hheld
              have hbinding : hold.binding = b' :=
                Option.some.inj ((hgrace.hold_stored k hold hk).symm.trans hb')
              refine .inr ?_
              rw [heq, show (s.server.apply (.dispatch b assign)).registry.graceHolds.get? k =
                some hold from Server.dispatch_hold hgrace b assign hk (by rw [hbinding]; assumption)]
              rfl
        by_cases hnew : b' = b
        · subst hnew
          split at hmem
          · rename_i hsent
            exact .inl (by rw [hagents]; exact hsent.2)
          · exact absurd (List.mem_filter.mp hmem).2 (by simp)
        · exact hold hnew
    | _ => exact absurd hmoves id
  · obtain ⟨hagents, hbindings⟩ := Server.quiet_step inv.server hstep hmoves
    refine ⟨hserver, fun agentId conn hconn => inv.named agentId conn (hagents ▸ hconn), ?_⟩
    intro k b hb hmem
    rw [hsame (by rintro b assign rfl; exact hmoves trivial)] at hmem
    have hstored := hbindings k b hb
    rcases inv.covered k b hstored hmem with hagent | hheld
    · exact .inl (by rw [hagents]; exact hagent)
    · obtain ⟨hold, hk⟩ := Option.isSome_iff_exists.mp hheld
      have hbinding : hold.binding = b :=
        Option.some.inj ((hgrace.hold_stored k hold hk).symm.trans hstored)
      rcases Server.release_step inv.server hstep hk (by rw [hbinding]; exact hb) with
        hkept | hcont
      · exact .inr (by rw [hkept]; rfl)
      · obtain ⟨conn, hconn, -⟩ := hallowed.current hcont hk
        refine .inl ?_
        rw [hagents, ← hbinding, hconn]
        rfl

theorem reconnectInvariant_of_reachable
    (h : (trackedSystem.restrict OnCurrentSocket).Reachable s) : s.ReconnectInvariant := by
  refine h.invariant ?_ fun _ _ _ inv hstep => inv.step hstep.1 hstep.2
  rintro s ⟨⟨graceMs, hinit⟩, hassigned⟩
  refine ⟨by rw [hinit]; exact Server.invariant_init graceMs, ?_, ?_⟩
  · intro a conn h
    rw [hinit] at h
    simp at h
  · intro k b h
    rw [hinit] at h
    simp at h

/-- As long as held executions continue on their agents' current connections only, a hold
is taken by a frame on such a connection, and no assigned task is left with neither a
connection nor a deadline. -/
theorem reconnect_sound (h : (trackedSystem.restrict OnCurrentSocket).Reachable s) :
    s.ReconnectSpec (trackedSystem.restrict OnCurrentSocket) := by
  have inv := reconnectInvariant_of_reachable h
  refine ⟨?_, ?_⟩
  · rintro a t ⟨hallowed, hstep, -⟩ k hold hk hstored hgone
    rcases Server.release_step inv.server hstep hk hstored with hkept | hcont
    · exact absurd hkept hgone
    · obtain ⟨conn, hconn, now, frame, ha⟩ := hallowed.current hcont hk
      exact ⟨now, frame, conn, ha, hconn⟩
  · intro k b hb hmem
    have hgrace := inv.server.consistent.toGraceInvariant
    rcases inv.covered k b hb hmem with hagent | hheld
    · obtain ⟨conn, hconn⟩ := Option.isSome_iff_exists.mp hagent
      obtain ⟨c, hc, -, hopen⟩ := inv.server.registered b.agentId conn hconn
      exact .inl ⟨conn, c, hconn, hc, hopen (inv.named _ conn hconn)⟩
    · obtain ⟨hold, hk⟩ := Option.isSome_iff_exists.mp hheld
      have hbinding : hold.binding = b :=
        Option.some.inj ((hgrace.hold_stored k hold hk).symm.trans hb)
      obtain ⟨timer, hmem, hid, htimer⟩ := hgrace.hold_armed k hold hk
      refine .inr ⟨timer, hmem, htimer.trans hbinding, ?_⟩
      rw [hgrace.binding_key k b hb, hk, hid, ← hbinding]

section Witness

/-- The state after a step, with the assignments brought up to date. -/
private def after (s : TrackedServer) (a : ServerAction) : TrackedServer :=
  ⟨s.server.apply a, s.assignedAfter a⟩

private def laptopHello : HelloFrame where
  agentId := "laptop"
  version := protocolVersion
  token := "token"
  protocolCapabilities := some [taskReplayCapability]

private def laptopRow : ClientRow where
  id := "laptop"
  clientId := "client"

private def laptopTask : TaskBinding where
  ref := 0
  agentId := "laptop"
  taskId := "task"
  executionId := some "execution"
  contextId := "context"

private def laptopAssign : DownFrame :=
  .taskAssign "task" (some "execution") "context" ⟨.user, [], "message", none, none⟩ none none none

/-- The first frame of the execution. -/
private def firstFrame : TaskUpFrame where
  taskId := "task"
  executionId := some "execution"
  seq := some 0
  body := .status { state := .working } none

private def started : TrackedServer := ⟨{ registry := { disconnectGraceMs := 30000 } }, []⟩

/-- The laptop's first socket is connected and has been given a task. -/
private def working : TrackedServer :=
  (((started.after (.connect 0)).after (.message 0 0 (.ok (.hello laptopHello)))).after
    (.authenticated 0 0 (some laptopRow) (.ok ()))).after (.dispatch laptopTask laptopAssign)

/-- A second socket of the laptop replaced the first and is lost again. -/
private def held : TrackedServer :=
  (((working.after (.connect 1)).after (.message 1 1 (.ok (.hello laptopHello)))).after
    (.authenticated 1 1 (some laptopRow) (.ok ()))).after (.close 2 1 1006)

/-- The first frame of the execution was still buffered on the replaced socket. -/
private def stranded : TrackedServer := held.after (.message 3 0 (.ok (.task firstFrame)))

/-- A socket still open, as `enabled` asks for it. -/
private theorem open_of_any {s : Server} {ws : WsId}
    (h : (s.connections ws).any fun c => c.observedCloseCode.isNone) :
    ∃ c, s.connections ws = some c ∧ c.observedCloseCode = none := by
  obtain ⟨c, hc, hopen⟩ := (Option.any_eq_true _ _).mp h
  exact ⟨c, hc, Option.isNone_iff_eq_none.mp hopen⟩

private theorem hello_of_bind {s : Server} {ws : WsId}
    (h : (s.connections ws).bind Connection.authenticating = some laptopHello) :
    ∃ c, s.connections ws = some c ∧ c.authenticating.isSome := by
  obtain ⟨c, hc, hauth⟩ := Option.bind_eq_some_iff.mp h
  exact ⟨c, hc, by simp [hauth]⟩

/-- The hello under authentication names the laptop. -/
private theorem named_of_bind {s : TrackedServer} {now : ℕ} {ws : WsId}
    {client : Option ClientRow} {card : Except (ℕ × String) Unit}
    (h : (s.server.connections ws).bind Connection.authenticating = some laptopHello) :
    s.OnCurrentSocket (.authenticated now ws client card) := by
  intro c frame hc hframe
  rw [hc, Option.bind_some, hframe] at h
  rw [Option.some.inj h]
  decide

private theorem fresh_of_empty {r : Registry} (hb : r.bindings.entries = [])
    (ha : r.approvals.entries.entries = []) (hr : r.terminalReceipts.entries = [])
    (b : TaskBinding) : r.FreshExecution b := by
  intro e _
  simp [InsertionMap.get?, hb, ha, hr]

private abbrev careful : System TrackedServer ServerAction :=
  trackedSystem.restrict OnCurrentSocket

private theorem after_step {s : TrackedServer} {a : ServerAction} (henabled : s.server.enabled a) :
    trackedSystem.step s a (s.after a) := ⟨⟨henabled, rfl⟩, rfl⟩

private theorem after_reachable {s : TrackedServer} {a : ServerAction} (h : careful.Reachable s)
    (hallowed : s.OnCurrentSocket a) (henabled : s.server.enabled a) :
    careful.Reachable (s.after a) :=
  h.step ⟨hallowed, after_step henabled⟩

private def greeted : TrackedServer :=
  (started.after (.connect 0)).after (.message 0 0 (.ok (.hello laptopHello)))

private def registered : TrackedServer := greeted.after (.authenticated 0 0 (some laptopRow) (.ok ()))

private def replacing : TrackedServer :=
  (working.after (.connect 1)).after (.message 1 1 (.ok (.hello laptopHello)))

private def replaced : TrackedServer :=
  replacing.after (.authenticated 1 1 (some laptopRow) (.ok ()))

/-- The samples step by step. -/
private theorem evaluated :
    (((started.after (.connect 0)).server.connections 0).any (·.observedCloseCode.isNone) = true ∧
      (greeted.server.connections 0).bind Connection.authenticating = some laptopHello ∧
      registered.server.registry.bindings.entries = [] ∧
      registered.server.registry.approvals.entries.entries = [] ∧
      registered.server.registry.terminalReceipts.entries = []) ∧
    ((working.server.connections 1).isNone = true ∧
      ((working.after (.connect 1)).server.connections 1).any (·.observedCloseCode.isNone) = true ∧
      (replacing.server.connections 1).bind Connection.authenticating = some laptopHello ∧
      (replaced.server.connections 1).any (·.observedCloseCode.isNone) = true) ∧
    (held.server.registry.graceHolds.get? "task" = some ⟨0, laptopTask⟩ ∧
      (held.server.connections 0).any (·.observedCloseCode.isNone) = true) ∧
    stranded.server.registry.bindings.get? "task" = some laptopTask ∧
      laptopTask ∈ stranded.assigned ∧
      stranded.server.registry.agents.get? laptopTask.agentId = none ∧
      stranded.server.registry.timers = [] := by
  decide +kernel

private theorem working_reachable : careful.Reachable working := by
  obtain ⟨hopen, hbind, hbindings, happrovals, hreceipts⟩ := evaluated.1
  have h₀ : careful.Reachable started := .of_init ⟨⟨30000, rfl⟩, rfl⟩
  have h₁ : careful.Reachable (started.after (.connect 0)) := after_reachable h₀ trivial rfl
  have h₂ : careful.Reachable greeted := after_reachable h₁ trivial (open_of_any hopen)
  have h₃ : careful.Reachable registered :=
    after_reachable h₂ (named_of_bind hbind) (hello_of_bind hbind)
  exact after_reachable h₃ (a := .dispatch laptopTask laptopAssign) trivial
    (fresh_of_empty hbindings happrovals hreceipts _)

private theorem held_reachable : careful.Reachable held := by
  obtain ⟨hnone, hopen, hbind, hopened⟩ := evaluated.2.1
  have h₁ : careful.Reachable (working.after (.connect 1)) :=
    after_reachable working_reachable trivial (Option.isNone_iff_eq_none.mp hnone)
  have h₂ : careful.Reachable replacing := after_reachable h₁ trivial (open_of_any hopen)
  have h₃ : careful.Reachable replaced :=
    after_reachable h₂ (named_of_bind hbind) (hello_of_bind hbind)
  exact after_reachable h₃ (a := .close 2 1 1006) trivial (open_of_any hopened)

private theorem stranded_reachable : trackedSystem.Reachable stranded := by
  have henabled : held.server.enabled (.message 3 0 (.ok (.task firstFrame))) :=
    open_of_any evaluated.2.2.1.2
  exact held_reachable.of_restrict.step (after_step henabled)

theorem reconnect_sound_held :
    held.server.registry.graceHolds.get? "task" = some ⟨0, laptopTask⟩ ∧
      held.ReconnectSpec (trackedSystem.restrict OnCurrentSocket) :=
  ⟨evaluated.2.2.1.1, reconnect_sound held_reachable⟩

/-- The task is bound and assigned, but its agent is offline and no timer runs. -/
theorem reconnect_stranded : trackedSystem.Reachable stranded ∧
    ¬ stranded.ReconnectSpec trackedSystem := by
  refine ⟨stranded_reachable, fun hspec => ?_⟩
  obtain ⟨hbound, hassigned, hgone, hnone⟩ := evaluated.2.2.2
  rcases hspec.covered "task" laptopTask hbound hassigned with
    ⟨conn, c, hconn, -, -⟩ | ⟨timer, htimer, -, -⟩
  · rw [hgone] at hconn
    exact absurd hconn (by simp)
  · rw [hnone] at htimer
    exact absurd htimer (by simp)

end Witness

end TrackedServer

end VicoopBridge
