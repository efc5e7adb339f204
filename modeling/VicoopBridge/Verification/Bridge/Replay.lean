import VicoopBridge.Verification.Bridge.Outbox
import VicoopBridge.Verification.Ws.Delivery

/-! # Replay across reconnects

What the server applies of an execution is what its run sequenced, in order, from the first
frame on. Sockets may be lost with anything that is under way in either direction. -/

namespace VicoopBridge

open Library

namespace Bridge

/-- The frames of the execution that a step has the server apply. -/
def appliedBy (s : Bridge) (e : String) : BridgeAction → List TaskUpFrame
  | .server (.message now ws parsed) => s.server.appliedFrames now ws parsed e
  | .up now ws =>
      match s.nextUp ws with
      | some frame => s.server.appliedFrames now ws (.ok frame) e
      | none => []
  | _ => []

end Bridge

/-- Frames of the execution come from the daemon that runs it. -/
def BridgeAction.OwnFrames (e : String) : BridgeAction → Prop
  | .server (.message _ _ (.ok (.task frame))) => frame.executionId ≠ some e
  | _ => True

instance BridgeAction.decidableOwnFrames (e : String) : ∀ a, Decidable (BridgeAction.OwnFrames e a)
  | .server (.message _ _ (.ok (.task frame))) =>
      inferInstanceAs (Decidable (frame.executionId ≠ some e))
  | .server (.message _ _ (.ok (.hello _))) | .server (.message _ _ (.ok .pong))
  | .server (.message _ _ (.ok (.usageResponse _))) | .server (.message _ _ (.error _))
  | .server (.connect _) | .server (.authenticated _ _ _ _) | .server (.authenticationError _)
  | .server (.helloTimeout _) | .server (.peerClosing _) | .server (.oversizedMessage _)
  | .server (.close _ _ _) | .server (.disconnectClient _) | .server (.requestUsage _ _)
  | .server (.usageTimeout _) | .server (.decideApproval _ _ _ _ _)
  | .server (.approvalTick _ _) | .server (.graceExpire _) | .server (.dispatch _ _)
  | .server (.sendToAgent _ _) | .server (.sink _ _) | .server (.unbindTask _ _)
  | .client _ | .up _ _ | .down _ _ => isTrue trivial

/-- `applied` are the frames of the execution that the server has applied. -/
structure ReplayedBridge where
  bridge : Bridge
  applied : List TaskUpFrame := []

namespace ReplayedBridge

def apply (opts : ClientOptions) (e : String) (s : ReplayedBridge) (a : BridgeAction) :
    ReplayedBridge where
  bridge := s.bridge.apply opts a
  applied := s.applied ++ s.bridge.appliedBy e a

end ReplayedBridge

def replaySystem (opts : ClientOptions) (e : String) : System ReplayedBridge BridgeAction :=
  .ofApply (fun s => ∃ graceMs,
      s = { bridge := { server := { registry := { disconnectGraceMs := graceMs } } } })
    (fun s a => s.bridge.enabled opts a ∧ a.OwnFrames e) (ReplayedBridge.apply opts e)

/-- What has been applied is only looked at. -/
theorem ReplayedBridge.bridge_reachable {opts : ClientOptions} {e : String} {s : ReplayedBridge}
    (h : (replaySystem opts e).Reachable s) : (bridgeSystem opts).Reachable s.bridge := by
  refine h.invariant (I := fun s => (bridgeSystem opts).Reachable s.bridge) ?_ ?_
  · rintro _ ⟨graceMs, rfl⟩
    exact .of_init ⟨graceMs, rfl⟩
  · rintro s a _ hs ⟨⟨henabled, -⟩, rfl⟩
    exact hs.step ⟨henabled, rfl⟩

/-! ## What has been applied -/

namespace Client

variable {opts : ClientOptions} {e : String} {c c' : Client} {applied : List TaskUpFrame}

/-- A run of the execution sequenced the frames first. -/
def Replays (e : String) (c : Client) (applied : List TaskUpFrame) : Prop :=
  applied = [] ∨ ∃ r, (c.runs r).executionId = some e ∧ applied <+: (c.runs r).sequenced

/-- The frame after the ones sequenced first was retained and turned out too large for the
server, so a failure took its number. -/
def Replaced (opts : ClientOptions) (e : String) (run : ClientRun) (applied : List TaskUpFrame) :
    Prop :=
  ∃ k retained taskId, run.sequenced[k]? = some retained ∧
    maxIngressBytes < opts.size retained ∧ opts.size retained ≤ opts.maxPendingBytes ∧
      applied = run.sequenced.take k ++ [reliableFailure taskId e k retainedFrameError]

theorem Replays.mono (h : c.Replays e applied) (hkeeps : c.Keeps e c') : c'.Replays e applied := by
  obtain hnone | ⟨r, hr, hprefix⟩ := h
  · exact .inl hnone
  · obtain ⟨hr', hcontinues⟩ := hkeeps r hr
    exact .inr ⟨r, hr', hprefix.trans hcontinues.sequenced⟩

theorem Replaced.mono {run run' : ClientRun} (h : Replaced opts e run applied)
    (hcontinues : Continues run run') : Replaced opts e run' applied := by
  obtain ⟨k, retained, taskId, hk, hlarge, hfits, rfl⟩ := h
  obtain ⟨more, hmore⟩ := hcontinues.sequenced
  have hlt := (List.getElem?_eq_some_iff.mp hk).1
  refine ⟨k, retained, taskId, ?_, hlarge, hfits, ?_⟩
  · rw [← hmore, List.getElem?_append_left hlt]
    exact hk
  · rw [← hmore, List.take_append_of_le_length hlt.le]

/-- The run that sequenced a frame under the next number sequenced all that was applied. -/
theorem Replays.take (h : c.Replays e applied) (hc : c.Outbox opts e) {r : RunRef}
    {frame : TaskUpFrame} (hr : (c.runs r).executionId = some e)
    (hframe : (c.runs r).sequenced[applied.length]? = some frame) :
    applied = (c.runs r).sequenced.take applied.length := by
  obtain rfl | ⟨r', hr', hprefix⟩ := h
  · rfl
  · obtain rfl := hc.unique r r' hr hr'
    exact List.prefix_iff_eq_take.mp hprefix

theorem Replays.snoc (h : c.Replays e applied) (hc : c.Outbox opts e) {frame : TaskUpFrame}
    (hframe : c.Sequenced e applied.length frame) : c.Replays e (applied ++ [frame]) := by
  obtain ⟨r, hr, hget⟩ := hframe
  refine .inr ⟨r, hr, ?_⟩
  have htake : (c.runs r).sequenced.take (applied.length + 1) = applied ++ [frame] := by
    rw [List.take_add_one, hget, ← h.take hc hr hget]
    rfl
  rw [← htake]
  exact List.take_prefix _ _

theorem Replays.replace (h : c.Replays e applied) (hc : c.Outbox opts e) {frame : TaskUpFrame}
    (hframe : c.Substitute opts e applied.length frame) :
    ∃ r, (c.runs r).executionId = some e ∧
      Replaced opts e (c.runs r) (applied ++ [frame]) := by
  obtain ⟨taskId, retained, rfl, ⟨r, hr, hget⟩, hlarge, hfits⟩ := hframe
  refine ⟨r, hr, applied.length, retained, taskId, hget, hlarge, hfits, ?_⟩
  rw [← h.take hc hr hget]

end Client

/-! ## The invariant -/

namespace ReplayedBridge

variable {opts : ClientOptions} {e : String} {s t : ReplayedBridge}

/-- The execution has been bound and assigned at most once, its binding expects what has not
been applied yet, and what has been applied was sequenced. -/
structure Invariant (opts : ClientOptions) (e : String) (s : ReplayedBridge) : Prop where
  server : s.bridge.server.Invariant
  client : s.bridge.client.Outbox opts e
  stored : ∀ k b, s.bridge.server.registry.bindings.get? k = some b → b ∈ s.bridge.issued
  single : ∀ b ∈ s.bridge.issued, ∀ b' ∈ s.bridge.issued, b.executionId = some e →
    b'.executionId = some e → b = b'
  next : ∀ b ∈ s.bridge.issued, b.executionId = some e →
    s.bridge.server.registry.expectedSeq b = s.applied.length
  fresh : ∀ b, b.executionId = some e → b ∉ s.bridge.issued →
    (s.bridge.server.registry.cells b).nextClientSeq = none
  unissued : (∀ b ∈ s.bridge.issued, b.executionId ≠ some e) → s.applied = []
  downs : ∀ ws, ∀ frame ∈ (s.bridge.server.registry.sockets ws).sent, frame.Expected
  assigned : ∀ ws i, (s.bridge.server.registry.sockets ws).AssignsAt e i →
    ∃ b ∈ s.bridge.issued, b.executionId = some e
  once : ∀ ws i ws' i', (s.bridge.server.registry.sockets ws).AssignsAt e i →
    (s.bridge.server.registry.sockets ws').AssignsAt e i' → ws = ws' ∧ i = i'
  consumed : ∀ r, (s.bridge.client.runs r).executionId = some e →
    ∃ ws, ∃ i < s.bridge.toClient ws, (s.bridge.server.registry.sockets ws).AssignsAt e i
  inOrder : s.bridge.client.Replays e s.applied ∨
    (∃ r, (s.bridge.client.runs r).executionId = some e ∧
      Client.Replaced opts e (s.bridge.client.runs r) s.applied) ∧
    ∀ k b, s.bridge.server.registry.bindings.get? k = some b → b.executionId ≠ some e

/-- The server does something that applies nothing and binds nothing. -/
theorem Invariant.routine (inv : s.Invariant opts e) (hserver : t.bridge.server.Invariant)
    (h : s.bridge.server.registry.Routine e t.bridge.server.registry)
    (hclient : t.bridge.client = s.bridge.client)
    (htoClient : t.bridge.toClient = s.bridge.toClient)
    (hissued : t.bridge.issued = s.bridge.issued) (happlied : t.applied = s.applied) :
    t.Invariant opts e := by
  have hat (ws : WsId) (i : ℕ) : (t.bridge.server.registry.sockets ws).AssignsAt e i ↔
      (s.bridge.server.registry.sockets ws).AssignsAt e i := (h.sent ws).assignsAt_iff i
  refine ⟨hserver, hclient ▸ inv.client, ?_, hissued ▸ inv.single, ?_, ?_, ?_, ?_, ?_, ?_, ?_, ?_⟩
  · intro k b hk
    exact hissued ▸ inv.stored k b (h.bindings k b hk)
  · intro b hb hexec
    rw [happlied, ← inv.next b (hissued ▸ hb) hexec, Registry.expectedSeq, h.next b hexec]
    rfl
  · intro b hexec hb
    exact (h.next b hexec).trans (inv.fresh b hexec (hissued ▸ hb))
  · intro hnone
    exact happlied.trans (inv.unissued (hissued ▸ hnone))
  · intro ws frame hframe
    obtain ⟨more, hsent, hmore⟩ := h.sent ws
    rw [hsent] at hframe
    rcases List.mem_append.mp hframe with hold | hnew
    · exact inv.downs ws frame hold
    · exact (hmore frame hnew).1
  · intro ws i hi
    exact hissued ▸ inv.assigned ws i ((hat ws i).mp hi)
  · intro ws i ws' i' hi hi'
    exact inv.once ws i ws' i' ((hat ws i).mp hi) ((hat ws' i').mp hi')
  · intro r hr
    obtain ⟨ws, i, hlt, hi⟩ := inv.consumed r (hclient ▸ hr)
    exact ⟨ws, i, htoClient ▸ hlt, (hat ws i).mpr hi⟩
  · rw [hclient, happlied]
    exact inv.inOrder.imp_right fun hold =>
      ⟨hold.1, fun k b hk => hold.2 k b (h.bindings k b hk)⟩

/-- The server takes the next frame of the execution. -/
theorem Invariant.deliver (inv : s.Invariant opts e) (hserver : t.bridge.server.Invariant)
    {frames : List TaskUpFrame}
    (h : Registry.Delivers e s.bridge.server.registry t.bridge.server.registry frames)
    (hcarries : ∀ frame ∈ frames, s.bridge.client.Carries opts e frame)
    (hclient : t.bridge.client = s.bridge.client)
    (htoClient : t.bridge.toClient = s.bridge.toClient)
    (hissued : t.bridge.issued = s.bridge.issued) (happlied : t.applied = s.applied ++ frames) :
    t.Invariant opts e := by
  cases h with
  | nothing h =>
      rw [List.append_nil] at happlied
      exact inv.routine hserver h hclient htoClient hissued happlied
  | frame b frame hexec hstored hframe hseq hnext hothers hbindings hsent hfail =>
      have hb := inv.stored _ b hstored
      have hexpected := inv.next b hb hexec
      have honly {b' : TaskBinding} (hb' : b' ∈ s.bridge.issued) (hexec' : b'.executionId = some e) :
          b' = b := inv.single b' hb' b hb hexec' hexec
      have hreplays : s.bridge.client.Replays e s.applied :=
        inv.inOrder.resolve_right fun ⟨_, hclosed⟩ => hclosed _ b hstored hexec
      have hat (ws : WsId) (i : ℕ) : (t.bridge.server.registry.sockets ws).AssignsAt e i ↔
          (s.bridge.server.registry.sockets ws).AssignsAt e i := (hsent ws).assignsAt_iff i
      refine ⟨hserver, hclient ▸ inv.client, ?_, hissued ▸ inv.single, ?_, ?_, ?_, ?_, ?_, ?_, ?_,
        ?_⟩
      · exact fun k b' hk => hissued ▸ inv.stored k b' (hbindings k b' hk)
      · intro b' hb' hexec'
        obtain rfl := honly (hissued ▸ hb') hexec'
        rw [Registry.expectedSeq, hnext, happlied, hexpected]
        simp
      · intro b' hexec' hb'
        have hne : b' ≠ b := by
          rintro rfl
          exact hb' (hissued ▸ hb)
        exact (hothers b' hexec' hne).trans (inv.fresh b' hexec' (hissued ▸ hb'))
      · exact fun hnone => absurd hexec (hnone b (hissued ▸ hb))
      · intro ws frame' hframe'
        obtain ⟨more, hmore, hordinary⟩ := hsent ws
        rw [hmore] at hframe'
        rcases List.mem_append.mp hframe' with hold | hnew
        · exact inv.downs ws frame' hold
        · exact (hordinary frame' hnew).1
      · exact fun ws i hi => hissued ▸ inv.assigned ws i ((hat ws i).mp hi)
      · exact fun ws i ws' i' hi hi' =>
          inv.once ws i ws' i' ((hat ws i).mp hi) ((hat ws' i').mp hi')
      · intro r hr
        obtain ⟨ws, i, hlt, hi⟩ := inv.consumed r (hclient ▸ hr)
        exact ⟨ws, i, htoClient ▸ hlt, (hat ws i).mpr hi⟩
      · rw [hclient, happlied]
        rw [hexpected] at hseq
        obtain hsequenced | hsubstitute :=
          hcarries frame (List.mem_singleton_self _) hframe s.applied.length hseq
        · exact .inl (hreplays.snoc inv.client hsequenced)
        · refine .inr ⟨hreplays.replace inv.client hsubstitute, fun k b' hk hexec' => ?_⟩
          have hk' := hbindings k b' hk
          obtain rfl := honly (inv.stored k b' hk') hexec'
          obtain ⟨taskId, retained, rfl, -⟩ := hsubstitute
          refine hfail _ rfl ?_
          rwa [inv.server.consistent.binding_key k b' hk']

/-- The daemon does something, and a run of the execution has an assignment behind it. -/
theorem Invariant.daemon (inv : s.Invariant opts e) (houtbox : t.bridge.client.Outbox opts e)
    (hkeeps : s.bridge.client.Keeps e t.bridge.client)
    (hserver : t.bridge.server = s.bridge.server)
    (hissued : t.bridge.issued = s.bridge.issued) (happlied : t.applied = s.applied)
    (hconsumed : ∀ r, (t.bridge.client.runs r).executionId = some e →
      ∃ ws, ∃ i < t.bridge.toClient ws, (s.bridge.server.registry.sockets ws).AssignsAt e i) :
    t.Invariant opts e := by
  have hinOrder : t.bridge.client.Replays e t.applied ∨
      (∃ r, (t.bridge.client.runs r).executionId = some e ∧
        Client.Replaced opts e (t.bridge.client.runs r) t.applied) ∧
      ∀ k b, s.bridge.server.registry.bindings.get? k = some b → b.executionId ≠ some e := by
    rw [happlied]
    obtain hreplays | ⟨⟨r, hr, hreplaced⟩, hclosed⟩ := inv.inOrder
    · exact .inl (hreplays.mono hkeeps)
    · obtain ⟨hr', hcontinues⟩ := hkeeps r hr
      exact .inr ⟨⟨r, hr', hreplaced.mono hcontinues⟩, hclosed⟩
  constructor
  case client => exact houtbox
  case consumed => exact hserver ▸ hconsumed
  case inOrder => exact hserver ▸ hinOrder
  case server => exact hserver ▸ inv.server
  case stored => exact hissued ▸ hserver ▸ inv.stored
  case single => exact hissued ▸ inv.single
  case next => exact happlied ▸ hissued ▸ hserver ▸ inv.next
  case fresh => exact hissued ▸ hserver ▸ inv.fresh
  case unissued => exact happlied ▸ hissued ▸ inv.unissued
  case downs => exact hserver ▸ inv.downs
  case assigned => exact hissued ▸ hserver ▸ inv.assigned
  case once => exact hserver ▸ inv.once

/-- An execution is bound and assigned for the first time. -/
theorem Invariant.dispatch (inv : s.Invariant opts e) {binding : TaskBinding} {assign : DownFrame}
    (hserver : (s.bridge.server.dispatch binding assign).Invariant)
    (hfresh : ∀ e, binding.executionId = some e → ∀ b ∈ s.bridge.issued, b.executionId ≠ some e)
    (hassign : assign.assigns e → binding.executionId = some e) (hexpected : assign.Expected) :
    Invariant opts e { s with bridge := { s.bridge with
      server := s.bridge.server.dispatch binding assign
      issued := s.bridge.issued ++ [binding] } } := by
  obtain ⟨hnext, hbindings, target, hsent⟩ :=
    Server.dispatch_spec (e := e) s.bridge.server binding assign
  have hnone (hexec : binding.executionId = some e) : s.applied = [] :=
    inv.unissued fun b hb => hfresh e hexec b hb
  -- Only the new frame can be an assignment that was not there.
  have hat (ws : WsId) (i : ℕ)
      (hi : ((s.bridge.server.dispatch binding assign).registry.sockets ws).AssignsAt e i) :
      (s.bridge.server.registry.sockets ws).AssignsAt e i ∨ binding.executionId = some e ∧
        target = some ws ∧ i = (s.bridge.server.registry.sockets ws).sent.length := by
    obtain ⟨frame, hget, hassigns⟩ := hi
    rw [hsent ws, List.getElem?_append] at hget
    split at hget
    · exact .inl ⟨frame, hget, hassigns⟩
    · split at hget
      · rename_i hlong htarget
        obtain ⟨hlt, hframe⟩ := List.getElem?_eq_some_iff.mp hget
        simp only [List.length_singleton, Nat.lt_one_iff] at hlt
        simp only [hlt, List.getElem_cons_zero] at hframe
        exact .inr ⟨hassign (hframe ▸ hassigns), htarget, by omega⟩
      · simp at hget
  have hkept (ws : WsId) (i : ℕ) (hi : (s.bridge.server.registry.sockets ws).AssignsAt e i) :
      ((s.bridge.server.dispatch binding assign).registry.sockets ws).AssignsAt e i := by
    obtain ⟨frame, hget, hassigns⟩ := hi
    refine ⟨frame, ?_, hassigns⟩
    rw [hsent ws, List.getElem?_append_left (List.getElem?_eq_some_iff.mp hget).1]
    exact hget
  have hunassigned (hexec : binding.executionId = some e) (ws : WsId) (i : ℕ)
      (hi : (s.bridge.server.registry.sockets ws).AssignsAt e i) : False := by
    obtain ⟨b, hb, hexec'⟩ := inv.assigned ws i hi
    exact hfresh e hexec b hb hexec'
  constructor
  case server => exact hserver
  case client => exact inv.client
  case stored =>
      intro k b hk
      obtain rfl | hold := hbindings k b hk
      · exact List.mem_append_right _ (List.mem_singleton_self _)
      · exact List.mem_append_left _ (inv.stored k b hold)
  case single =>
      intro b hb b' hb' hexec hexec'
      simp only [List.mem_append, List.mem_singleton] at hb hb'
      rcases hb with hb | rfl <;> rcases hb' with hb' | rfl
      · exact inv.single b hb b' hb' hexec hexec'
      · exact absurd hexec (hfresh e hexec' b hb)
      · exact absurd hexec' (hfresh e hexec b' hb')
      · rfl
  case next =>
      intro b hb hexec
      simp only [List.mem_append, List.mem_singleton] at hb
      rw [Registry.expectedSeq, hnext b hexec]
      rcases hb with hb | rfl
      · exact inv.next b hb hexec
      · have hb : b ∉ s.bridge.issued := fun hb => hfresh e hexec b hb hexec
        rw [inv.fresh b hexec hb, hnone hexec]
        rfl
  case fresh =>
      intro b hexec hb
      rw [hnext b hexec]
      exact inv.fresh b hexec fun hold => hb (List.mem_append_left _ hold)
  case unissued => exact fun h => inv.unissued fun b hb => h b (List.mem_append_left _ hb)
  case downs =>
      intro ws frame hframe
      simp only [hsent ws, List.mem_append] at hframe
      rcases hframe with hold | hnew
      · exact inv.downs ws frame hold
      · split at hnew
        · exact List.mem_singleton.mp hnew ▸ hexpected
        · simp at hnew
  case assigned =>
      intro ws i hi
      obtain hold | ⟨hexec, -⟩ := hat ws i hi
      · obtain ⟨b, hb, hexec⟩ := inv.assigned ws i hold
        exact ⟨b, List.mem_append_left _ hb, hexec⟩
      · exact ⟨binding, List.mem_append_right _ (List.mem_singleton_self _), hexec⟩
  case once =>
      intro ws i ws' i' hi hi'
      obtain hold | ⟨hexec, htarget, hend⟩ := hat ws i hi
      · obtain hold' | ⟨hexec, -⟩ := hat ws' i' hi'
        · exact inv.once ws i ws' i' hold hold'
        · exact (hunassigned hexec ws i hold).elim
      · obtain hold' | ⟨-, htarget', hend'⟩ := hat ws' i' hi'
        · exact (hunassigned hexec ws' i' hold').elim
        · obtain rfl : ws = ws' := Option.some.inj (htarget.symm.trans htarget')
          exact ⟨rfl, hend.trans hend'.symm⟩
  case consumed =>
      intro r hr
      obtain ⟨ws, i, hlt, hi⟩ := inv.consumed r hr
      exact ⟨ws, i, hlt, hkept ws i hi⟩
  case inOrder =>
      by_cases hexec : binding.executionId = some e
      · exact .inl (.inl (hnone hexec))
      · refine inv.inOrder.imp_right fun ⟨hreplaced, hclosed⟩ => ⟨hreplaced, fun k b hk => ?_⟩
        obtain rfl | hold := hbindings k b hk
        · exact hexec
        · exact hclosed k b hold

/-! ## Steps -/

theorem Invariant.down (inv : s.Invariant opts e) (now : ℕ) {ws : WsId} {frame : DownFrame}
    (hnext : s.bridge.nextDown ws = some frame) :
    Invariant opts e { s with bridge := { s.bridge with
      client := s.bridge.client.onMessage opts now ws frame
      toClient := Function.update s.bridge.toClient ws (s.bridge.toClient ws + 1) } } ∧
    s.bridge.client.Keeps e (s.bridge.client.onMessage opts now ws frame) := by
  have hlater {ws' : WsId} {i : ℕ} (hlt : i < s.bridge.toClient ws') :
      i < Function.update s.bridge.toClient ws (s.bridge.toClient ws + 1) ws' := by
    by_cases heq : ws' = ws
    · subst heq
      rw [Function.update_self]
      omega
    · rwa [Function.update_of_ne heq]
  by_cases hassign : frame.assigns e
  · have hhere : (s.bridge.server.registry.sockets ws).AssignsAt e (s.bridge.toClient ws) :=
      ⟨frame, hnext, hassign⟩
    -- An earlier run of the execution would have had the same assignment.
    have hunborn (r : RunRef) : (s.bridge.client.runs r).executionId ≠ some e := by
      intro hr
      obtain ⟨ws', i, hlt, hi⟩ := inv.consumed r hr
      obtain ⟨rfl, rfl⟩ := inv.once ws' i ws _ hi hhere
      exact lt_irrefl _ hlt
    have hdone : (s.bridge.client.onMessage opts now ws frame).Outbox opts e ∧
        s.bridge.client.Keeps e (s.bridge.client.onMessage opts now ws frame) := by
      cases frame with
      | taskAssign taskId executionId contextId message requestedExtensions caller scope =>
          exact Client.assigned_onMessage opts _ now ws hunborn inv.client
      | _ => simp [DownFrame.assigns] at hassign
    refine ⟨inv.daemon hdone.1 hdone.2 rfl rfl rfl fun r _ => ?_, hdone.2⟩
    exact ⟨ws, s.bridge.toClient ws, by simp, hhere⟩
  · rw [Bool.not_eq_true] at hassign
    have hexpected := inv.downs ws frame (List.mem_of_getElem? hnext)
    obtain ⟨houtbox, hgrows⟩ :=
      Client.preserves_onMessage opts s.bridge.client now ws hexpected hassign inv.client
    refine ⟨inv.daemon houtbox hgrows.kept rfl rfl rfl fun r hr => ?_, hgrows.kept⟩
    obtain ⟨ws', i, hlt, hi⟩ := inv.consumed r (hgrows.born r hr)
    exact ⟨ws', i, hlater hlt, hi⟩

theorem Invariant.serverStep (inv : s.Invariant opts e) {a : ServerAction}
    (henabled : s.bridge.server.enabled a) (hpart : s.bridge.serverEnabled a)
    (hown : BridgeAction.OwnFrames e (.server a)) :
    (s.apply opts e (.server a)).Invariant opts e := by
  have hserver : (s.bridge.server.apply a).Invariant := inv.server.step ⟨henabled, rfl⟩
  by_cases hmessage : ∃ now ws parsed, a = .message now ws parsed
  · obtain ⟨now, ws, parsed, rfl⟩ := hmessage
    obtain ⟨c, hc, -⟩ := henabled
    have hdelivers := Server.message_delivers (e := e) inv.server now hc parsed
    refine inv.deliver hserver hdelivers ?_ rfl rfl rfl rfl
    intro frame hframe hexec
    obtain rfl := Server.mem_appliedFrames hframe
    exact absurd hexec hown
  by_cases hdispatch : ∃ binding assign, a = .dispatch binding assign
  · obtain ⟨binding, assign, rfl⟩ := hdispatch
    obtain ⟨hfresh, _, _, _, _, rfl⟩ := hpart
    have hdispatched := inv.dispatch hserver hfresh (by simp [DownFrame.assigns]) trivial
    simpa [apply, Bridge.apply, Bridge.appliedBy, Server.apply] using hdispatched
  push Not at hmessage hdispatch
  have hroutine : s.bridge.server.registry.Routine e (s.bridge.server.apply a).registry := by
    refine Registry.routine_handlers.apply _ hmessage hdispatch fun agentId frame heq => ?_
    obtain rfl := heq
    obtain ⟨taskId, executionId, rfl⟩ := hpart
    exact Registry.routine_sendToAgent _ agentId ⟨trivial, rfl⟩
  refine inv.routine hserver hroutine rfl rfl ?_ ?_
  · cases a with
    | dispatch binding assign => exact absurd rfl (hdispatch binding assign)
    | _ => rfl
  · cases a with
    | message now ws parsed => exact absurd rfl (hmessage now ws parsed)
    | _ => exact List.append_nil _

theorem Invariant.step {a : BridgeAction} (inv : s.Invariant opts e)
    (h : (replaySystem opts e).step s a t) :
    t.Invariant opts e ∧ s.bridge.client.Keeps e t.bridge.client := by
  obtain ⟨⟨henabled, hown⟩, rfl⟩ := h
  have hsame : s.bridge.client.Keeps e s.bridge.client := (Client.Grows.refl _).kept
  cases a with
  | server a => exact ⟨inv.serverStep henabled.1 henabled.2 hown, hsame⟩
  | client a =>
      obtain ⟨houtbox, hgrows⟩ := Client.preserves_apply opts s.bridge.client a inv.client
      refine ⟨inv.daemon houtbox hgrows.kept rfl rfl (List.append_nil _) fun r hr => ?_,
        hgrows.kept⟩
      exact inv.consumed r (hgrows.born r hr)
  | up now ws =>
      obtain ⟨-, frame, hnext, hup⟩ := henabled
      have hserver : (s.bridge.server.apply (.message now ws (.ok frame))).Invariant :=
        inv.server.step ⟨hup, rfl⟩
      obtain ⟨c, hc, -⟩ := hup
      have hdelivers := Server.message_delivers (e := e) inv.server now hc (.ok frame)
      simp only [apply, Bridge.apply, hnext, Bridge.appliedBy]
      refine ⟨inv.deliver hserver hdelivers ?_ rfl rfl rfl rfl, hsame⟩
      intro task htask
      obtain rfl := Except.ok.inj (Server.mem_appliedFrames htask)
      exact inv.client.sent ws task (List.mem_of_getElem? hnext)
  | down now ws =>
      obtain ⟨-, -, hsome⟩ := henabled
      obtain ⟨frame, hnext⟩ := Option.isSome_iff_exists.mp hsome
      simp only [apply, Bridge.apply, hnext, Bridge.appliedBy, List.append_nil]
      exact inv.down now hnext

theorem invariant_of_reachable (h : (replaySystem opts e).Reachable s) : s.Invariant opts e := by
  refine h.invariant ?_ fun _ _ _ inv hstep => (inv.step hstep).1
  rintro _ ⟨graceMs, rfl⟩
  have hnone (ws : WsId) (i : ℕ) : ¬ Socket.AssignsAt {} e i := by simp [Socket.AssignsAt]
  constructor
  case server => exact Server.invariant_init graceMs
  case client => constructor <;> simp [Client.Sequenced]
  case assigned => exact fun ws i hi => absurd hi (hnone ws i)
  case once => exact fun ws i _ _ hi => absurd hi (hnone ws i)
  case inOrder => exact .inl (.inl rfl)
  all_goals simp

theorem keeps_of_run {labels : List BridgeAction} (hs : s.Invariant opts e)
    (h : (replaySystem opts e).Run s labels t) :
    t.Invariant opts e ∧ s.bridge.client.Keeps e t.bridge.client := by
  induction h with
  | nil => exact ⟨hs, (Client.Grows.refl _).kept⟩
  | snoc _ hstep ih =>
      obtain ⟨inv, hkeeps⟩ := ih
      obtain ⟨inv', hkeeps'⟩ := inv.step hstep
      exact ⟨inv', hkeeps.trans hkeeps'⟩

/-! ## Every run -/

/-- `applied` against what the run sequenced, whose n-th frame carries the number n. -/
structure ReplaySpec (opts : ClientOptions) (e : String) (s : ReplayedBridge) : Prop where
  numbered : ∀ r n (frame : TaskUpFrame), (s.bridge.client.runs r).executionId = some e →
    (s.bridge.client.runs r).sequenced[n]? = some frame →
      frame.executionId = some e ∧ frame.seq = some n
  applied : ∀ r, (s.bridge.client.runs r).executionId = some e →
    s.applied <+: (s.bridge.client.runs r).sequenced ∨
      Client.Replaced opts e (s.bridge.client.runs r) s.applied
  unborn : (∀ r, (s.bridge.client.runs r).executionId ≠ some e) → s.applied = []
  fits : opts.maxPendingBytes ≤ maxIngressBytes → ∀ r,
    (s.bridge.client.runs r).executionId = some e →
      s.applied <+: (s.bridge.client.runs r).sequenced
  /-- When the buffer overflows, the failure takes the next number and is the last frame. -/
  overflow : ∀ now r (frame : TaskUpFrame), (s.bridge.client.runs r).executionId = some e →
    (s.bridge.client.runs r).suppressed = false →
    s.bridge.client.overflows opts (opts.size { frame with
      executionId := some e, seq := some (s.bridge.client.runs r).nextSeq }) →
    ((s.bridge.client.sendTaskFrame opts now r frame).runs r).suppressed ∧
      ((s.bridge.client.sendTaskFrame opts now r frame).runs r).sequenced =
        (s.bridge.client.runs r).sequenced ++ [Client.reliableFailure frame.taskId e
          (s.bridge.client.runs r).sequenced.length Client.bufferOverflowError]
  closed : ∀ labels t, (replaySystem opts e).Run s labels t → ∀ r,
    (s.bridge.client.runs r).executionId = some e → (s.bridge.client.runs r).suppressed →
      (t.bridge.client.runs r).sequenced = (s.bridge.client.runs r).sequenced

/-- What the server has applied of an execution is the beginning of what its run sequenced.
Only a frame retained while no limit was known can be replaced, and then by the last one. -/
theorem replaySpec_of_reachable (h : (replaySystem opts e).Reachable s) : s.ReplaySpec opts e := by
  have inv := invariant_of_reachable h
  have happlied (r : RunRef) (hr : (s.bridge.client.runs r).executionId = some e) :
      s.applied <+: (s.bridge.client.runs r).sequenced ∨
        Client.Replaced opts e (s.bridge.client.runs r) s.applied := by
    obtain (hnone | ⟨r', hr', hprefix⟩) | ⟨⟨r', hr', hreplaced⟩, -⟩ := inv.inOrder
    · exact .inl (hnone ▸ List.nil_prefix)
    · exact .inl (inv.client.unique r' r hr' hr ▸ hprefix)
    · exact .inr (inv.client.unique r' r hr' hr ▸ hreplaced)
  constructor
  case numbered => exact fun r n frame hr hframe => inv.client.numbered n frame ⟨r, hr, hframe⟩
  case applied => exact happlied
  case unborn =>
      intro hunborn
      obtain (hnone | ⟨r, hr, -⟩) | ⟨⟨r, hr, -⟩, -⟩ := inv.inOrder
      · exact hnone
      · exact absurd hr (hunborn r)
      · exact absurd hr (hunborn r)
  case fits =>
      intro hlimit r hr
      refine (happlied r hr).resolve_right ?_
      rintro ⟨k, retained, taskId, -, hlarge, hfits, -⟩
      omega
  case overflow =>
      intro now r frame hr hopen hoverflows
      rw [← inv.client.counted r]
      exact Client.sendTaskFrame_overflow opts _ now hr hopen hoverflows
  case closed =>
      intro labels t hrun r hr hsuppressed
      exact ((keeps_of_run inv hrun).2 r hr).2.closed hsuppressed

section Witness

private def options : ClientOptions where
  hello :=
    { agentId := "agent", version := protocolVersion, token := "token"
      protocolCapabilities := some [taskReplayCapability] }
  size _ := 1

private def row : ClientRow where
  id := "agent"
  clientId := "client"

private def replayedTask : TaskBinding where
  ref := 0
  agentId := "agent"
  taskId := "task"
  executionId := some "execution"
  contextId := "context"

private def replayedAssign : DownFrame :=
  .taskAssign "task" (some "execution") "context" ⟨.user, [], "message", none, none⟩ none none none

private def output (n : ℕ) : TaskFrameBody :=
  .artifact { artifactId := toString n, parts := [] } none none

private def initial : ReplayedBridge :=
  { bridge := { server := { registry := { disconnectGraceMs := 30000 } } } }

/-- One connection of the daemon, up to the acknowledgement of its hello. -/
private def handshake (ws : WsId) : List BridgeAction :=
  [.client (.connect ws), .server (.connect ws), .client (.opened ws), .client (.sendHello ws),
    .up 0 ws, .server (.authenticated 1 ws (some row) (.ok ()))]

/-- The second frame is lost with its socket, the third is emitted without one. -/
private def resumed : List BridgeAction :=
  handshake 0 ++ [.down 1 0, .server (.dispatch replayedTask replayedAssign), .down 2 0,
    .client (.emit 3 0 (output 0)), .up 4 0, .client (.emit 5 0 (output 1)),
    .client (.closed 0 1006), .server (.close 5 0 1006), .client (.emit 6 0 (output 2))] ++
  handshake 1 ++ [.down 7 1, .up 8 1, .up 8 1, .up 8 1]

theorem replaySpec_of_reachable_resumed :
    (resumed.foldl (apply options "execution") initial).applied.map (·.seq) =
      [some 0, some 1, some 2] ∧
      (resumed.foldl (apply options "execution") initial).ReplaySpec options "execution" :=
  ⟨by decide +kernel,
    replaySpec_of_reachable (System.Legal.reachable (by decide +kernel) (.of_init ⟨30000, rfl⟩))⟩

/-- The daemon keeps more than the server takes in one frame. -/
private def largeOptions : ClientOptions :=
  { options with
    maxPendingBytes := 2 * maxIngressBytes
    size := fun frame => match frame.body with
      | .artifact _ _ _ => maxIngressBytes + 1
      | _ => 1 }

/-- The daemon emits a large frame before it learns the limit of the new connection. -/
private def oversized : List BridgeAction :=
  handshake 0 ++ [.down 1 0, .server (.dispatch replayedTask replayedAssign), .down 2 0,
    .client (.closed 0 1006), .server (.close 3 0 1006), .client (.connect 1),
    .client (.emit 4 0 (output 0)), .server (.connect 1), .client (.opened 1),
    .client (.sendHello 1), .up 5 1, .server (.authenticated 6 1 (some row) (.ok ())),
    .down 7 1, .up 8 1]

theorem replaySpec_of_reachable_replaced :
    ∃ s, (replaySystem largeOptions "execution").Reachable s ∧
      (s.bridge.client.runs 0).executionId = some "execution" ∧
      ¬ s.applied <+: (s.bridge.client.runs 0).sequenced :=
  ⟨oversized.foldl (apply largeOptions "execution") initial,
    System.Legal.reachable (by decide +kernel) (.of_init ⟨30000, rfl⟩),
    by decide +kernel, by decide +kernel⟩

end Witness

end ReplayedBridge

end VicoopBridge
