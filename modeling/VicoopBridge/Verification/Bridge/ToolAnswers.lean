import VicoopBridge.Verification.Bridge.Handlers

/-! # The answers a daemon's tools get

A tool that asks waits until it is answered, and whatever the daemon does answers it at
most once. Only the server's decision for its own request can allow it. -/

namespace VicoopBridge

open Library

namespace Client

/-! ## Settling requests -/

/-- Between the two states some of the tools that waited got an answer, each one that is
permitted; the others wait as before. -/
def SettledBy (c c' : Client) (answers : List (String × ApprovalDecision)) : Prop :=
  c'.resolved = c.resolved ++ answers ∧ (answers.map Prod.fst).Nodup ∧
    ∀ id, if id ∈ answers.map Prod.fst then
        (c.approvals.get? id).isSome ∧ c'.approvals.get? id = none
      else c'.approvals.get? id = c.approvals.get? id

def Settles (permitted : String → ApprovalDecision → Prop) (c c' : Client) : Prop :=
  ∃ answers, c.SettledBy c' answers ∧ ∀ answer ∈ answers, permitted answer.1 answer.2

/-- Only denials. -/
def onlyDeny (_ : String) (decision : ApprovalDecision) : Prop := decision = .deny

variable {permitted : String → ApprovalDecision → Prop} {c c' c'' : Client}

theorem settles_of_eq (happrovals : c'.approvals = c.approvals) (hresolved : c'.resolved = c.resolved) :
    c.Settles permitted c' :=
  ⟨[], ⟨by simpa using hresolved, by simp, fun id => by simp [happrovals]⟩, by simp⟩

theorem Settles.refl (c : Client) : c.Settles permitted c := settles_of_eq rfl rfl

theorem Settles.trans (h : c.Settles permitted c') (h' : c'.Settles permitted c'') :
    c.Settles permitted c'' := by
  obtain ⟨answers, ⟨hresolved, hnodup, hwaiting⟩, hok⟩ := h
  obtain ⟨answers', ⟨hresolved', hnodup', hwaiting'⟩, hok'⟩ := h'
  have hdisjoint : ∀ id ∈ answers.map Prod.fst, id ∉ answers'.map Prod.fst := by
    intro id hid hid'
    have hgone := hwaiting id
    rw [if_pos hid] at hgone
    have hwaits := hwaiting' id
    rw [if_pos hid', hgone.2] at hwaits
    simp at hwaits
  refine ⟨answers ++ answers', ⟨?_, ?_, fun id => ?_⟩, ?_⟩
  · rw [hresolved', hresolved, List.append_assoc]
  · rw [List.map_append]
    exact hnodup.append hnodup' hdisjoint
  · have hfirst := hwaiting id
    have hsecond := hwaiting' id
    simp only [List.map_append, List.mem_append]
    by_cases hid : id ∈ answers.map Prod.fst
    · rw [if_pos hid] at hfirst
      rw [if_neg (hdisjoint id hid)] at hsecond
      rw [if_pos (.inl hid), hsecond]
      exact hfirst
    · rw [if_neg hid] at hfirst
      by_cases hid' : id ∈ answers'.map Prod.fst
      · rw [if_pos hid', hfirst] at hsecond
        rw [if_pos (.inr hid')]
        exact hsecond
      · rw [if_neg hid'] at hsecond
        rw [if_neg (by simp only [hid, hid', or_self, not_false_eq_true]), hsecond, hfirst]
  · intro answer hanswer
    rcases List.mem_append.mp hanswer with h | h
    · exact hok answer h
    · exact hok' answer h

theorem Settles.mono {permitted' : String → ApprovalDecision → Prop}
    (hmore : ∀ id decision, permitted id decision → permitted' id decision)
    (h : c.Settles permitted c') : c.Settles permitted' c' := by
  obtain ⟨answers, hsettled, hok⟩ := h
  exact ⟨answers, hsettled, fun answer hanswer => hmore _ _ (hok answer hanswer)⟩

/-- Nothing starts to wait. -/
theorem Settles.waiting (h : c.Settles permitted c') {id : String} {p : PendingApproval}
    (hp : c'.approvals.get? id = some p) : c.approvals.get? id = some p := by
  obtain ⟨answers, ⟨-, -, hwaiting⟩, -⟩ := h
  have hid := hwaiting id
  split at hid
  · simp [hid.2] at hp
  · rwa [← hid]

/-! ## Operations that only deny -/

section Deny

variable (opts : ClientOptions) (c : Client) (now : ℕ)

theorem settles_denyApprovals (r : RunRef) : c.Settles onlyDeny (c.denyApprovals r) := by
  have hmem : ∀ id, id ∈ ((c.approvals.entries.filter fun e => e.2.run = r).map
      fun e => (e.1, ApprovalDecision.deny)).map Prod.fst ↔
        ∃ p, c.approvals.get? id = some p ∧ p.run = r := by
    intro id
    simp [InsertionMap.mem_entries_iff]
  refine ⟨_, ⟨rfl, ?_, fun id => ?_⟩, ?_⟩
  · rw [List.map_map]
    exact c.approvals.nodup.sublist (List.filter_sublist.map _)
  · have hfilter : (c.denyApprovals r).approvals.get? id =
        (c.approvals.get? id).filter fun p => p.run ≠ r := InsertionMap.get?_filter _ _ _
    split
    · rename_i hid
      obtain ⟨p, hp, hrun⟩ := (hmem id).mp hid
      rw [hfilter, hp]
      simp [hrun]
    · rename_i hid
      rw [hfilter]
      cases hp : c.approvals.get? id with
      | none => rfl
      | some p =>
          have hrun : p.run ≠ r := fun hrun => hid ((hmem id).mpr ⟨p, hp, hrun⟩)
          simp [hrun]
  · intro answer hanswer
    obtain ⟨e, -, rfl⟩ := List.mem_map.mp hanswer
    rfl

theorem settles_suppressRun (r : RunRef) : c.Settles onlyDeny (c.suppressRun r) :=
  (settles_of_eq rfl rfl).trans (settles_denyApprovals _ r)

theorem settles_suppressAll (rs : List RunRef) : c.Settles onlyDeny (c.suppressAll rs) :=
  List.foldlRecOn (motive := c.Settles onlyDeny) _ _ (.refl c)
    fun c₁ h r _ => h.trans (settles_suppressRun c₁ r)

theorem settles_respects : RespectsWrites opts (Settles onlyDeny) where
  refl := Settles.refl
  trans := Settles.trans
  flags h := settles_of_eq h.approvals h.resolved
  socket _ _ _ _ := settles_of_eq rfl rfl
  run _ _ _ _ := settles_of_eq rfl rfl
  retire c r := by
    unfold retire
    split
    · exact (settles_suppressRun c r).trans (settles_of_eq rfl rfl)
    · exact settles_suppressRun c r
  remove _ _ := settles_of_eq rfl rfl
  drop c rs := (settles_suppressAll c rs).trans (settles_of_eq rfl rfl)
  write _ _ _ := settles_of_eq rfl rfl

theorem settles_sendTaskFrame (r : RunRef) (frame : TaskUpFrame) :
    c.Settles onlyDeny (c.sendTaskFrame opts now r frame) := by
  unfold sendTaskFrame
  simp only
  split
  · exact .refl c
  split
  · exact (settles_respects opts).send c _
  split
  · refine Settles.trans (Settles.trans ?_ ((settles_respects opts).failReliableRun _ r false))
      ((settles_respects opts).sendReliableFailureAndDisconnect _ _)
    exact settles_of_eq rfl rfl
  · split
    · split
      · exact Settles.trans (settles_of_eq rfl rfl) ((settles_respects opts).send _ _)
      · exact settles_of_eq rfl rfl
    · split
      · exact Settles.trans (settles_of_eq rfl rfl) ((settles_respects opts).send _ _)
      · exact settles_of_eq rfl rfl

/-- The answered tool waits no more, and neither does any tool the receipt denied. -/
theorem settles_finishApproval (requestId : String) (decision : ApprovalDecision) :
    c.Settles (fun id answer => answer = .deny ∨ id = requestId ∧ answer = decision)
      (c.finishApproval opts now requestId decision) := by
  unfold finishApproval
  split
  · exact .refl c
  · rename_i p hp
    simp only
    set c₁ : Client := { c with approvals := c.approvals.erase requestId } with hc₁
    have hsent := settles_sendTaskFrame opts c₁ now p.run
      { taskId := p.taskId, executionId := some p.executionId
        body := .approvalReceived requestId decision }
    obtain ⟨answers, ⟨hresolved, hnodup, hwaiting⟩, hok⟩ := hsent
    have hnew : requestId ∉ answers.map Prod.fst := by
      intro hid
      have hwaits := hwaiting requestId
      rw [if_pos hid] at hwaits
      simp [hc₁] at hwaits
    refine ⟨answers ++ [(requestId, decision)], ⟨?_, ?_, fun id => ?_⟩, ?_⟩
    · rw [← List.append_assoc]
      exact congrArg (· ++ [(requestId, decision)]) hresolved
    · rw [List.map_append]
      exact hnodup.append (by simp) (by simpa using hnew)
    · have hwaits := hwaiting id
      by_cases heq : id = requestId
      · subst heq
        rw [if_neg hnew] at hwaits
        rw [if_pos (by simp)]
        exact ⟨by simp [hp], by simpa [hc₁] using hwaits⟩
      · have hmem : id ∈ (answers ++ [(requestId, decision)]).map Prod.fst ↔
            id ∈ answers.map Prod.fst := by simp [heq]
        have herase : c₁.approvals.get? id = c.approvals.get? id :=
          InsertionMap.get?_erase_of_ne _ (Ne.symm heq)
        simp only [hmem]
        rw [herase] at hwaits
        exact hwaits
    · intro answer hanswer
      rcases List.mem_append.mp hanswer with h | h
      · exact .inl (hok answer h)
      · obtain rfl := List.mem_singleton.mp h
        exact .inr ⟨rfl, rfl⟩

theorem settles_finishApproval_deny (requestId : String) :
    c.Settles onlyDeny (c.finishApproval opts now requestId .deny) := by
  refine (settles_finishApproval opts c now requestId .deny).mono ?_
  rintro id answer (h | ⟨-, h⟩)
  · exact h
  · exact h

theorem settles_denials : RespectsDenials opts (Settles onlyDeny) where
  toRespectsDrops := (settles_respects opts).toRespectsDrops
  frame c now r frame _ := settles_sendTaskFrame opts c now r frame
  flush := (settles_respects opts).flushPendingFrames
  deny := settles_finishApproval_deny opts

theorem settles_runTask (taskId : String) (executionId : Option String) :
    c.Settles onlyDeny (c.runTask opts taskId executionId) :=
  ((settles_respects opts).replaced c taskId).trans (settles_of_eq rfl rfl)

end Deny

/-! ## Frames from the server -/

/-- The frame is the server's answer to the request the tool waits for. -/
def Answering (c : Client) (frame : DownFrame) (id : String) (decision : ApprovalDecision) : Prop :=
  ∃ p, c.approvals.get? id = some p ∧
    frame = .approvalResolve p.taskId p.executionId id decision

theorem settles_resolveApproval (opts : ClientOptions) (c : Client) (now : ℕ)
    (taskId executionId requestId : String) (decision : ApprovalDecision) :
    c.Settles (fun id answer => answer = .deny ∨
        c.Answering (.approvalResolve taskId executionId requestId decision) id answer)
      (c.resolveApproval opts now taskId executionId requestId decision) := by
  unfold resolveApproval
  split
  · exact .refl c
  · rename_i p hp
    split
    · exact .refl c
    · rename_i hsame
      simp only [not_or, not_not] at hsame
      obtain ⟨rfl, rfl⟩ := hsame
      refine (settles_finishApproval opts c now requestId _).mono ?_
      rintro id answer (hdeny | ⟨rfl, hanswer⟩)
      · exact .inl hdeny
      · split at hanswer
        · exact .inl hanswer
        · exact .inr ⟨p, hp, by rw [hanswer]⟩

theorem settles_onMessage (opts : ClientOptions) (c : Client) (now : ℕ) (ws : WsId)
    (frame : DownFrame) :
    c.Settles (fun id answer => answer = .deny ∨ c.Answering frame id answer)
      (c.onMessage opts now ws frame) := by
  have hdeny : ∀ c', c.Settles onlyDeny c' →
      c.Settles (fun id answer => answer = .deny ∨ c.Answering frame id answer) c' :=
    fun c' h => h.mono fun _ _ => .inl
  unfold onMessage
  split
  · exact .refl c
  split
  · split
    · exact settles_resolveApproval opts c now _ _ _ _
    · exact .refl c
  · exact hdeny _ ((settles_denials opts).onHelloAck c now ws _ fun _ => settles_of_eq rfl rfl)
  · exact hdeny _ (settles_of_eq rfl rfl)
  · exact hdeny _ ((settles_denials opts).onTaskAssign c _ fun c₁ _ => settles_runTask opts c₁ _ _)
  · exact hdeny _ ((settles_denials opts).cancelTask c now _ _)
  · exact hdeny _ ((settles_respects opts).send c _)
  · exact .refl c

/-! ## Requests -/

/-- A tool that may not ask is denied at once; one that may waits, unless its request could
not even be sent. -/
theorem requestApproval_cases (opts : ClientOptions) (c : Client) (now : ℕ) (r : RunRef)
    (inputBytes : ℕ) (request : ApprovalRequest) :
    c.requestApproval opts now r inputBytes request =
        { c with resolved := c.resolved ++ [(request.requestId, .deny)] } ∨
      ∃ p, p.taskId = (c.runs r).taskId ∧ (c.runs r).executionId = some p.executionId ∧
        Settles onlyDeny { c with approvals := c.approvals.set request.requestId p }
          (c.requestApproval opts now r inputBytes request) := by
  unfold requestApproval
  cases hask : c.mayAsk r request.toolName inputBytes with
  | none => exact .inl rfl
  | some executionId =>
      refine .inr ⟨_, rfl, ?_, settles_sendTaskFrame opts _ now r _⟩
      unfold mayAsk at hask
      simp only at hask
      split at hask
      · simp at hask
      · rename_i executionId' hexec
        repeat' split at hask
        all_goals simp only [reduceCtorEq, Option.some.injEq] at hask
        exact hask ▸ (Option.filter_eq_some_iff.mp hexec).1

end Client

end VicoopBridge
