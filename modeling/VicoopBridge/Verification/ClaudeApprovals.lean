import VicoopBridge.Model.ClaudeApprovals

/-! # Responses to the requests of a Claude child

A response goes to the child that asked, once for a request, and only while both stand. What allows
a tool was granted for that tool and its input. -/

namespace VicoopBridge.ClaudeApprovals

open Library ApprovalBridge

variable {options : ApprovalOptions} {s t : ApprovalBridge} {n : ℕ} {r : ControlRequest}

/-- The server was asked for the tool and the input of the request. -/
def Asked (frames : List ApprovalFrame) (r : ControlRequest) (id : String) : Prop :=
  r.approval = some id ∧ ∃ toolName input expiresAt, r.tool = some (toolName, input) ∧
    toolName ≠ "AskUserQuestion" ∧ ApprovalFrame.request id toolName input expiresAt ∈ frames

/-- And it has allowed them. -/
def Granted (frames : List ApprovalFrame) (r : ControlRequest) : Prop :=
  ∃ id, Asked frames r id ∧ ApprovalFrame.received id .allowOnce ∈ frames

/-- What the stage of a request says of the frames. -/
def Accounted (frames : List ApprovalFrame) (r : ControlRequest) : Prop :=
  (∀ expiresAt, r.stage = .asked expiresAt → ∃ id, Asked frames r id) ∧
    (r.stage = .decided .allowOnce → Granted frames r)

structure Bridged (s : ApprovalBridge) : Prop where
  lifetimes : s.lifetimes.length = s.child + 1 ∧ s.approvalLifetime = s.child
  closed : (∀ c < s.child, c ∈ s.closed) ∧
    ∀ c ∈ s.closed, c ≤ s.child ∧ s.lifetimes[c]? = some true
  request : ∀ (n : ℕ) (r : ControlRequest), s.requests[n]? = some r →
    r.asker = r.target ∧ r.lifetime = r.target ∧ r.target ≤ s.child ∧ Accounted s.frames r
  known : ∀ (n : ℕ) (r : ControlRequest), s.requests[n]? = some r → r.target = s.child →
    s.controlRequests.get? r.requestId = some n
  unique : ∀ (n m : ℕ) (r r' : ControlRequest), s.requests[n]? = some r →
    s.requests[m]? = some r' → r.target = r'.target → r.requestId = r'.requestId → n = m
  written : ∀ w ∈ s.writes, ∃ (n : ℕ) (r : ControlRequest), s.requests[n]? = some r ∧
    r.stage = .finished ∧ r.target = w.child ∧ r.requestId = w.requestId
  once : (s.writes.map fun w => (w.child, w.requestId)).Nodup

theorem bridged_init : Bridged {} where
  lifetimes := ⟨rfl, rfl⟩
  closed := ⟨fun c hc => absurd hc (Nat.not_lt_zero c), fun c hc => by cases hc⟩
  request n r hn := by cases hn
  known n r hn := by cases hn
  unique n m r r' hn := by cases hn
  written w hw := by cases hw
  once := List.nodup_nil

/-! ## Requests that change -/

theorem Asked.mono {frames frames' : List ApprovalFrame} {id : String} (h : Asked frames r id)
    (hframes : frames ⊆ frames') : Asked frames' r id := by
  obtain ⟨happroval, toolName, input, expiresAt, htool, hname, hmem⟩ := h
  exact ⟨happroval, toolName, input, expiresAt, htool, hname, hframes hmem⟩

theorem Accounted.mono {frames frames' : List ApprovalFrame} (h : Accounted frames r)
    (hframes : frames ⊆ frames') : Accounted frames' r := by
  refine ⟨fun expiresAt hstage => ?_, fun hstage => ?_⟩
  · obtain ⟨id, hasked⟩ := h.1 expiresAt hstage
    exact ⟨id, hasked.mono hframes⟩
  · obtain ⟨id, hasked, hmem⟩ := h.2 hstage
    exact ⟨id, hasked.mono hframes, hframes hmem⟩

theorem getElem?_modifyRequest (s : ApprovalBridge) (n k : ℕ)
    (f : ControlRequest → ControlRequest) : (s.modifyRequest n f).requests[k]? =
      if n = k then s.requests[k]?.map f else s.requests[k]? := by
  rw [modifyRequest, List.getElem?_modify]
  split <;> simp

/-- A request changes: it stays the request of its child, and finished. -/
structure Alters (s : ApprovalBridge) (n : ℕ) (f : ControlRequest → ControlRequest) : Prop where
  requestId : ∀ r, (f r).requestId = r.requestId
  asker : ∀ r, (f r).asker = r.asker
  target : ∀ r, (f r).target = r.target
  lifetime : ∀ r, (f r).lifetime = r.lifetime
  finished : ∀ r, s.requests[n]? = some r → r.stage = .finished → (f r).stage = .finished

/-- Where the requests come from behind such a change. -/
theorem Alters.origin {f : ControlRequest → ControlRequest} (h : Alters s n f) {k : ℕ}
    {r' : ControlRequest} (hk : (s.modifyRequest n f).requests[k]? = some r') :
    ∃ r, s.requests[k]? = some r ∧ r'.requestId = r.requestId ∧ r'.asker = r.asker ∧
      r'.target = r.target ∧ r'.lifetime = r.lifetime ∧ (n = k ∧ r' = f r ∨ n ≠ k ∧ r' = r) := by
  rw [getElem?_modifyRequest] at hk
  split at hk
  · next hnk =>
      obtain ⟨r, hr, rfl⟩ := Option.map_eq_some_iff.mp hk
      exact ⟨r, hr, h.requestId r, h.asker r, h.target r, h.lifetime r, .inl ⟨hnk, rfl⟩⟩
  · next hnk => exact ⟨r', hk, rfl, rfl, rfl, rfl, .inr ⟨hnk, rfl⟩⟩

theorem Bridged.alter (h : Bridged s) {f : ControlRequest → ControlRequest} (hf : Alters s n f)
    {frames : List ApprovalFrame} (hframes : s.frames ⊆ frames)
    (haccounted : ∀ r, s.requests[n]? = some r → Accounted frames (f r)) :
    Bridged { s.modifyRequest n f with frames := frames } := by
  refine ⟨h.lifetimes, h.closed, fun k r' hk => ?_, fun k r' hk htarget => ?_,
    fun k m r₁ r₂ hk hm htarget hid => ?_, fun w hw => ?_, h.once⟩
  · obtain ⟨r, hr, -, hasker, htarget, hlifetime, hcases⟩ := hf.origin hk
    obtain ⟨hasked, hlived, hle, hold⟩ := h.request k r hr
    refine ⟨by rw [hasker, hasked, htarget], by rw [hlifetime, hlived, htarget],
      by rw [htarget]; exact hle, ?_⟩
    rcases hcases with ⟨rfl, rfl⟩ | ⟨-, rfl⟩
    · exact haccounted r hr
    · exact hold.mono hframes
  · obtain ⟨r, hr, hid, -, htarget', -⟩ := hf.origin hk
    rw [hid]
    exact h.known k r hr (htarget' ▸ htarget)
  · obtain ⟨r, hr, hid₁, -, htarget₁, -⟩ := hf.origin hk
    obtain ⟨r', hr', hid₂, -, htarget₂, -⟩ := hf.origin hm
    exact h.unique k m r r' hr hr' (by rw [← htarget₁, htarget, htarget₂])
      (by rw [← hid₁, hid, hid₂])
  · obtain ⟨k, r, hr, hfinished, htarget, hid⟩ := h.written w hw
    by_cases hnk : n = k
    · subst hnk
      refine ⟨n, f r, ?_, hf.finished r hr hfinished, by rw [hf.target, htarget],
        by rw [hf.requestId, hid]⟩
      change (s.modifyRequest n f).requests[n]? = some (f r)
      rw [getElem?_modifyRequest, if_pos rfl, hr, Option.map_some]
    · refine ⟨k, r, ?_, hfinished, htarget, hid⟩
      change (s.modifyRequest n f).requests[k]? = some r
      rw [getElem?_modifyRequest, if_neg hnk, hr]

/-! ## The broker -/

theorem Bridged.finish (h : Bridged s) (n : ℕ) (decision : ApprovalDecision) (throws : Bool) :
    Bridged (s.finish n decision throws) := by
  unfold ApprovalBridge.finish
  split
  · next requestId asker target lifetime tool id aborted expiresAt hn =>
      have hasked := (h.request n _ hn).2.2.2.1 expiresAt rfl
      refine h.alter
        (f := fun r => { r with stage := .decided (if throws then .deny else decision) })
        ⟨fun _ => rfl, fun _ => rfl, fun _ => rfl, fun _ => rfl, fun r hr hstage => ?_⟩ ?_
        fun r hr => ⟨fun e hstage => (by cases hstage), fun hstage => ?_⟩
      · rw [hn, Option.some.injEq] at hr
        subst hr
        cases hstage
      · split
        · exact fun f hf => hf
        · exact List.subset_append_left _ _
      · rw [hn, Option.some.injEq] at hr
        subst hr
        cases throws with
        | true => cases hstage
        | false =>
            obtain rfl : decision = .allowOnce := by
              simpa using hstage
            obtain ⟨id', hasked⟩ := hasked
            obtain rfl : id = id' := Option.some.inj hasked.1
            refine ⟨id, hasked.mono ?_, ?_⟩ <;> simp
  · exact h

/-- What `finish` keeps of the rest. -/
structure Same (s t : ApprovalBridge) : Prop where
  child : t.child = s.child
  closed : t.closed = s.closed
  lifetimes : t.lifetimes = s.lifetimes
  aborted : t.aborted = s.aborted
  settled : t.settled = s.settled
  writes : t.writes = s.writes
  length : t.requests.length = s.requests.length

theorem Same.refl (s : ApprovalBridge) : Same s s := ⟨rfl, rfl, rfl, rfl, rfl, rfl, rfl⟩

theorem Same.trans {u : ApprovalBridge} (h : Same s t) (h' : Same t u) : Same s u :=
  ⟨h'.child.trans h.child, h'.closed.trans h.closed, h'.lifetimes.trans h.lifetimes,
    h'.aborted.trans h.aborted, h'.settled.trans h.settled, h'.writes.trans h.writes,
    h'.length.trans h.length⟩

theorem same_modifyRequest (s : ApprovalBridge) (n : ℕ) (f : ControlRequest → ControlRequest) :
    Same s (s.modifyRequest n f) :=
  ⟨rfl, rfl, rfl, rfl, rfl, rfl, List.length_modify ..⟩

theorem same_finish (s : ApprovalBridge) (n : ℕ) (decision : ApprovalDecision) (throws : Bool) :
    Same s (s.finish n decision throws) := by
  unfold ApprovalBridge.finish
  split
  · exact ⟨rfl, rfl, rfl, rfl, rfl, rfl, List.length_modify ..⟩
  · exact .refl s

theorem Bridged.denyAll (h : Bridged s) (throws : Bool) : Bridged (s.denyAll throws) := by
  rw [ApprovalBridge.denyAll]
  generalize List.range s.requests.length = ns
  induction ns generalizing s with
  | nil => exact h
  | cons n ns ih => exact ih (h.finish n .deny throws)

theorem same_denyAll (s : ApprovalBridge) (throws : Bool) : Same s (s.denyAll throws) := by
  rw [ApprovalBridge.denyAll]
  generalize List.range s.requests.length = ns
  induction ns generalizing s with
  | nil => exact .refl s
  | cons n ns ih => exact (same_finish s n .deny throws).trans (ih _)

theorem Bridged.requestApproval (h : Bridged s) {toolName : String} {input : JsonObject}
    {now : ℕ} {id : String} {refused throws : Bool} (hn : s.requests[n]? = some r)
    (htool : r.tool = some (toolName, input)) (hname : toolName ≠ "AskUserQuestion")
    (hstage : r.stage = .decided .deny) :
    Bridged (s.requestApproval options n toolName input now id refused throws) := by
  rw [ApprovalBridge.requestApproval]
  split
  · exact h
  split
  · exact h
  split
  · exact h
  have halters : Alters s n fun r =>
      { r with approval := some id, stage := .asked (now + options.timeoutMs) } := by
    refine ⟨fun _ => rfl, fun _ => rfl, fun _ => rfl, fun _ => rfl, fun r' hr' hfinished => ?_⟩
    rw [hn, Option.some.injEq] at hr'
    rw [← hr', hstage] at hfinished
    cases hfinished
  cases throws with
  | false =>
      refine h.alter halters (List.subset_append_left _ _) fun r' hr' => ?_
      rw [hn, Option.some.injEq] at hr'
      subst hr'
      refine ⟨fun expiresAt _ => ⟨id, rfl, toolName, input, now + options.timeoutMs, htool, hname,
        ?_⟩, fun hdecided => by cases hdecided⟩
      simp
  | true =>
      -- the request is decided again before anything else looks at it
      have hdeny : (s.modifyRequest n fun r => { r with
          approval := some id, stage := .asked (now + options.timeoutMs) }).finish n .deny true =
          s.modifyRequest n fun r => { r with approval := some id, stage := .decided .deny } := by
        unfold ApprovalBridge.finish
        rw [getElem?_modifyRequest, if_pos rfl, hn, Option.map_some]
        simp only [ApprovalBridge.modifyRequest, List.modify_modify_eq, if_true]
        rfl
      rw [if_pos rfl, hdeny]
      refine h.alter (f := fun r => { r with approval := some id, stage := .decided .deny })
        ⟨fun _ => rfl, fun _ => rfl, fun _ => rfl, fun _ => rfl, fun r' hr' hfinished => ?_⟩
        (fun _ hf => hf) fun r' hr' =>
          ⟨fun e hasked => (by cases hasked), fun hallow => by cases hallow⟩
      rw [hn, Option.some.injEq] at hr'
      rw [← hr', hstage] at hfinished
      cases hfinished

theorem Bridged.resolve (h : Bridged s) (taskId executionId id : String)
    (decision : ApprovalDecision) (now : ℕ) (throws : Bool) :
    Bridged (s.resolve options taskId executionId id decision now throws) := by
  unfold ApprovalBridge.resolve
  split
  · split
    · split
      · exact h.finish _ _ throws
      · exact h
    · exact h
  · exact h

/-! ## Aborts -/

theorem Bridged.abortRequest (h : Bridged s) (throws : Bool) (n : ℕ) :
    Bridged (s.abortRequest throws n) := by
  have hmarked : Bridged (s.modifyRequest n fun r => { r with aborted := true }) :=
    h.alter (f := fun r => { r with aborted := true })
      ⟨fun _ => rfl, fun _ => rfl, fun _ => rfl, fun _ => rfl, fun _ _ hfinished => hfinished⟩
      (fun _ hf => hf) fun r hr => (h.request n r hr).2.2.2
  exact hmarked.finish n .deny throws

theorem same_abortRequest (s : ApprovalBridge) (throws : Bool) (n : ℕ) :
    Same s (s.abortRequest throws n) :=
  (same_modifyRequest s n _).trans (same_finish _ n .deny throws)

theorem Bridged.abortListeners (h : Bridged s) (throws : Bool) (lifetime : ℕ) (ns : List ℕ) :
    Bridged (ns.foldl (abortListener throws lifetime) s) := by
  induction ns generalizing s with
  | nil => exact h
  | cons n ns ih =>
      refine ih ?_
      rw [abortListener]
      split
      · exact h.abortRequest throws n
      · exact h

theorem same_abortListeners (s : ApprovalBridge) (throws : Bool) (lifetime : ℕ) (ns : List ℕ) :
    Same s (ns.foldl (abortListener throws lifetime) s) := by
  induction ns generalizing s with
  | nil => exact .refl s
  | cons n ns ih =>
      refine Same.trans ?_ (ih _)
      rw [abortListener]
      split
      · exact same_abortRequest s throws n
      · exact .refl s

/-- The current child closes, and its lifetime ends. -/
theorem Bridged.onClose (h : Bridged s) {child : ℕ} (hchild : child ≤ s.child)
    (hopen : child ∉ s.closed) (throws : Bool) : Bridged (s.onClose child throws) := by
  have hcurrent : child = s.child := by
    by_contra hne
    exact hopen (h.closed.1 child (by omega))
  subst hcurrent
  have hset : Bridged { s with
      closed := s.child :: s.closed, lifetimes := s.lifetimes.set s.approvalLifetime true } := by
    refine ⟨⟨by rw [List.length_set]; exact h.lifetimes.1, h.lifetimes.2⟩, ⟨fun c hc => ?_,
      fun c hc => ?_⟩, h.request, h.known, h.unique, h.written, h.once⟩
    · exact List.mem_cons_of_mem _ (h.closed.1 c hc)
    · dsimp only
      rw [h.lifetimes.2, List.getElem?_set]
      rcases List.mem_cons.mp hc with rfl | hc
      · rw [if_pos rfl, if_pos (by rw [h.lifetimes.1]; omega)]
        exact ⟨le_rfl, rfl⟩
      · obtain ⟨hle, hended⟩ := h.closed.2 c hc
        have hne : s.child ≠ c := by
          rintro rfl
          exact hopen hc
        rw [if_neg hne]
        exact ⟨hle, hended⟩
  rw [ApprovalBridge.onClose, abortLifetime]
  split
  · next hended =>
      have hsame : s.lifetimes.set s.approvalLifetime true = s.lifetimes := by
        obtain ⟨hlt, hget⟩ := List.getElem?_eq_some_iff.mp hended
        exact List.ext_getElem (List.length_set ..) fun i hi hi' => by
          rw [List.getElem_set]
          split
          · next heq =>
              subst heq
              exact hget.symm
          · rfl
      rw [hsame] at hset
      exact hset
  · exact hset.abortListeners throws _ _

theorem Bridged.restart (h : Bridged s) (hclosed : s.child ∈ s.closed) : Bridged s.restart := by
  refine ⟨⟨?_, ?_⟩, ⟨fun c hc => ?_, fun c hc => ?_⟩, fun n r hn => ?_, fun n r hn htarget => ?_,
    h.unique, h.written, h.once⟩
  · rw [ApprovalBridge.restart, List.length_append, h.lifetimes.1]
    rfl
  · exact h.lifetimes.1
  · change c < s.child + 1 at hc
    rcases Nat.lt_or_ge c s.child with hlt | hge
    · exact h.closed.1 c hlt
    · obtain rfl : c = s.child := by omega
      exact hclosed
  · obtain ⟨hle, hended⟩ := h.closed.2 c hc
    refine ⟨Nat.le_succ_of_le hle, ?_⟩
    change (s.lifetimes ++ [false])[c]? = some true
    rw [List.getElem?_append_left (List.getElem?_eq_some_iff.mp hended).1]
    exact hended
  · obtain ⟨hasked, hlifetime, hle, haccounted⟩ := h.request n r hn
    exact ⟨hasked, hlifetime, Nat.le_succ_of_le hle, haccounted⟩
  · have hle := (h.request n r hn).2.2.1
    change r.target = s.child + 1 at htarget
    omega

/-! ## Requests -/

/-- The child that is heard is the current one. -/
theorem Bridged.asker_eq (h : Bridged s) {asker : ℕ}
    (hheard : asker = s.child ∨ asker < s.child ∧ asker ∉ s.closed) : asker = s.child := by
  rcases hheard with rfl | ⟨hlt, hopen⟩
  · rfl
  · exact absurd (h.closed.1 asker hlt) hopen

theorem Bridged.addRequest (h : Bridged s) {requestId : String}
    (hnew : s.controlRequests.has requestId = false) (tool : Option (String × JsonObject)) :
    Bridged { s with
      controlRequests := s.controlRequests.set requestId s.requests.length
      requests := s.requests ++ [⟨requestId, s.child, s.child, s.approvalLifetime, tool, none,
        false, .decided .deny⟩] } := by
  have hcases : ∀ (k : ℕ) (r : ControlRequest),
      (s.requests ++ [⟨requestId, s.child, s.child, s.approvalLifetime, tool, none, false,
        .decided .deny⟩])[k]? = some r → s.requests[k]? = some r ∨ k = s.requests.length ∧
          r = ⟨requestId, s.child, s.child, s.approvalLifetime, tool, none, false,
            .decided .deny⟩ := by
    intro k r hk
    rw [List.getElem?_append] at hk
    split at hk
    · exact .inl hk
    · next hlength =>
        have hlt := (List.getElem?_eq_some_iff.mp hk).1
        have hk' : k - s.requests.length = 0 := by simpa using hlt
        rw [hk', List.getElem?_cons_zero, Option.some.injEq] at hk
        exact .inr ⟨by omega, hk.symm⟩
  -- no request of this child has had the id
  have hother : ∀ (k : ℕ) (r : ControlRequest), s.requests[k]? = some r → r.target = s.child →
      r.requestId ≠ requestId := by
    intro k r hk htarget hid
    have hknown := h.known k r hk htarget
    rw [hid] at hknown
    rw [InsertionMap.has, hknown] at hnew
    cases hnew
  refine ⟨h.lifetimes, h.closed, fun k r hk => ?_, fun k r hk htarget => ?_,
    fun k m r r' hk hm htarget hid => ?_, fun w hw => ?_, h.once⟩
  · rcases hcases k r hk with hold | ⟨-, rfl⟩
    · exact h.request k r hold
    · exact ⟨rfl, h.lifetimes.2, le_rfl, fun e hstage => (by cases hstage),
        fun hstage => by cases hstage⟩
  · dsimp only
    rcases hcases k r hk with hold | ⟨rfl, rfl⟩
    · rw [InsertionMap.get?_set_of_ne _ _ (hother k r hold htarget).symm]
      exact h.known k r hold htarget
    · exact InsertionMap.get?_set_self ..
  · rcases hcases k r hk with hold | ⟨rfl, rfl⟩
    · rcases hcases m r' hm with hold' | ⟨rfl, rfl⟩
      · exact h.unique k m r r' hold hold' htarget hid
      · exact absurd hid (hother k r hold htarget)
    · rcases hcases m r' hm with hold' | ⟨rfl, rfl⟩
      · exact absurd hid.symm (hother m r' hold' htarget.symm)
      · rfl
  · obtain ⟨k, r, hk, hrest⟩ := h.written w hw
    refine ⟨k, r, ?_, hrest⟩
    dsimp only
    rw [List.getElem?_append_left (List.getElem?_eq_some_iff.mp hk).1]
    exact hk

theorem Bridged.onControlRequest (h : Bridged s) {asker : ℕ} (hasker : asker = s.child)
    (requestId : String) (request : Json) (now : ℕ) (id : String) (refused throws : Bool) :
    Bridged (s.onControlRequest options asker requestId request now id refused throws) := by
  subst hasker
  rw [ApprovalBridge.onControlRequest]
  split
  · exact h
  · next hignored =>
      simp only [Bool.or_eq_true, not_or, Bool.not_eq_true] at hignored
      have hadded := h.addRequest hignored.2 (validRequest request)
      dsimp only
      split
      · next toolName input htool =>
          split
          · exact hadded
          · next hname =>
              exact hadded.requestApproval List.getElem?_concat_length htool hname rfl
      · exact hadded

theorem Bridged.onControlCancelRequest (h : Bridged s) (requestId : String) (throws : Bool) :
    Bridged (s.onControlCancelRequest requestId throws) := by
  rw [ApprovalBridge.onControlCancelRequest]
  split
  · exact h
  · split
    · exact h.abortRequest throws _
    · exact h

/-! ## Responses -/

/-- What is known of a request whose decision is taken up. -/
structure Answers (s : ApprovalBridge) (n : ℕ) (w : Write) : Prop where
  standing : s.settled = false ∧ s.aborted = false
  request : ∃ r, s.requests[n]? = some r ∧ r.requestId = w.requestId ∧ r.asker = w.child ∧
    r.aborted = false ∧ w.child ∉ s.closed ∧
    ∀ updatedInput, w.response = .allow updatedInput → ∃ toolName,
      r.tool = some (toolName, updatedInput) ∧ toolName ≠ "AskUserQuestion" ∧ Granted s.frames r

theorem alters_finished (s : ApprovalBridge) (n : ℕ) :
    Alters s n fun r => { r with stage := .finished } :=
  ⟨fun _ => rfl, fun _ => rfl, fun _ => rfl, fun _ => rfl, fun _ _ _ => rfl⟩

theorem Bridged.finishRequest (h : Bridged s) (n : ℕ) :
    Bridged (s.modifyRequest n fun r => { r with stage := .finished }) :=
  h.alter (alters_finished s n) (fun _ hf => hf) fun _ _ =>
    ⟨fun _ hstage => (by cases hstage), fun hstage => by cases hstage⟩

theorem granted_input {updatedInput : JsonObject} {decision : ApprovalDecision}
    (haccounted : Accounted s.frames r) (hstage : r.stage = .decided decision)
    (hresponse : response decision r.tool = .allow updatedInput) : ∃ toolName,
      r.tool = some (toolName, updatedInput) ∧ toolName ≠ "AskUserQuestion" ∧
        Granted s.frames r := by
  cases decision with
  | deny => cases hresponse
  | allowOnce =>
      have hgranted := haccounted.2 hstage
      obtain ⟨id, ⟨-, toolName, input, expiresAt, htool, hname, -⟩, -⟩ := id hgranted
      rw [htool] at hresponse
      obtain rfl : input = updatedInput := ControlResponse.allow.inj hresponse
      exact ⟨toolName, htool, hname, hgranted⟩

/-- A reaction writes nothing, or the response to a request that stands. -/
theorem Bridged.react_cases (h : Bridged s) (n : ℕ) :
    (s.react n).writes = s.writes ∧ Bridged (s.react n) ∨
      ∃ w, (s.react n).writes = s.writes ++ [w] ∧ Answers s n w ∧ Bridged (s.react n) := by
  unfold ApprovalBridge.react
  split
  · next r hn =>
      split
      · next decision hstage =>
          have hfinished := h.finishRequest n
          dsimp only
          split
          · exact .inl ⟨rfl, hfinished⟩
          · next hstands =>
              simp only [Bool.or_eq_true, not_or, Bool.not_eq_true] at hstands
              obtain ⟨⟨⟨hsettled, haborted⟩, hlifetime⟩, hr⟩ := hstands
              obtain ⟨hasker, hlived, -, haccounted⟩ := h.request n r hn
              have hopen : r.target ∉ s.closed := by
                intro hclosed
                rw [hlived, (h.closed.2 r.target hclosed).2] at hlifetime
                cases hlifetime
              refine .inr ⟨⟨r.target, r.requestId, response decision r.tool⟩, rfl,
                ⟨⟨hsettled, haborted⟩, r, hn, rfl, hasker, hr, hopen, fun updatedInput hallow =>
                  granted_input haccounted hstage hallow⟩, ?_⟩
              have hself : (s.modifyRequest n fun r => { r with stage := .finished }).requests[n]? =
                  some { r with stage := .finished } := by
                rw [getElem?_modifyRequest, if_pos rfl, hn, Option.map_some]
              refine ⟨hfinished.lifetimes, hfinished.closed, hfinished.request, hfinished.known,
                hfinished.unique, fun w hw => ?_, ?_⟩
              · rcases List.mem_append.mp hw with hold | hnew
                · exact hfinished.written w hold
                · rw [List.mem_singleton] at hnew
                  subst hnew
                  exact ⟨n, _, hself, rfl, rfl, rfl⟩
              · dsimp only
                rw [List.map_append, List.map_singleton, List.nodup_append]
                refine ⟨h.once, List.nodup_singleton _, ?_⟩
                intro first hfirst second hsecond heq
                rw [List.mem_singleton] at hsecond
                subst hsecond
                obtain ⟨w, hw, rfl⟩ := List.mem_map.mp hfirst
                obtain ⟨m, r', hm, hdone, htarget, hid⟩ := h.written w hw
                obtain ⟨hchild, hrequestId⟩ := Prod.mk.inj heq
                have hmn : m = n := h.unique m n r' r hm hn (htarget.trans hchild)
                  (hid.trans hrequestId)
                -- what was written for is finished, this request was not
                subst hmn
                rw [hn, Option.some.injEq] at hm
                rw [← hm, hstage] at hdone
                cases hdone
      · exact .inl ⟨rfl, h⟩
  · exact .inl ⟨rfl, h⟩

/-! ## Steps -/

theorem Bridged.withFlags (h : Bridged s) (aborted ended settled : Bool) :
    Bridged { s with aborted := aborted, ended := ended, settled := settled } :=
  ⟨h.lifetimes, h.closed, h.request, h.known, h.unique, h.written, h.once⟩

theorem Bridged.step (h : Bridged s) {a : Action} (henabled : enabled s a) :
    Bridged (s.apply options a) := by
  cases a with
  | controlRequest asker requestId request now id refused throws =>
      exact h.onControlRequest (h.asker_eq henabled.1) requestId request now id refused throws
  | controlCancelRequest asker requestId throws => exact h.onControlCancelRequest requestId throws
  | resolve taskId executionId id decision now throws =>
      exact h.resolve taskId executionId id decision now throws
  | expire n throws => exact h.finish n .deny throws
  | react n =>
      rcases h.react_cases n with ⟨-, hnext⟩ | ⟨w, -, -, hnext⟩
      · exact hnext
      · exact hnext
  | close child throws => exact h.onClose henabled.1 henabled.2 throws
  | restart => exact h.restart henabled.1
  | abort throws => exact (h.withFlags true s.ended s.settled).denyAll throws
  | settle => exact h.withFlags s.aborted s.ended true
  | endRun throws => exact (h.withFlags s.aborted true s.settled).denyAll throws

theorem bridged_of_reachable (h : (system options).Reachable s) : Bridged s := by
  refine h.invariant ?_ ?_
  · rintro s rfl
    exact bridged_init
  · rintro s a t hs ⟨henabled, rfl⟩
    exact hs.step henabled

theorem same_resolve (s : ApprovalBridge) (taskId executionId id : String)
    (decision : ApprovalDecision) (now : ℕ) (throws : Bool) :
    Same s (s.resolve options taskId executionId id decision now throws) := by
  unfold ApprovalBridge.resolve
  split
  · split
    · split
      · exact same_finish s _ _ throws
      · exact .refl s
    · exact .refl s
  · exact .refl s

theorem writes_requestApproval (s : ApprovalBridge) (n : ℕ) (toolName : String)
    (input : JsonObject) (now : ℕ) (id : String) (refused throws : Bool) :
    (s.requestApproval options n toolName input now id refused throws).writes = s.writes := by
  rw [ApprovalBridge.requestApproval]
  split
  · rfl
  split
  · rfl
  split
  · rfl
  dsimp only
  split
  · exact (same_finish _ n .deny throws).writes
  · rfl

theorem writes_onControlRequest (s : ApprovalBridge) (asker : ℕ) (requestId : String)
    (request : Json) (now : ℕ) (id : String) (refused throws : Bool) :
    (s.onControlRequest options asker requestId request now id refused throws).writes =
      s.writes := by
  rw [ApprovalBridge.onControlRequest]
  split
  · rfl
  · dsimp only
    split
    · split
      · rfl
      · rw [writes_requestApproval]
    · rfl

/-- Nothing but a reaction writes. -/
theorem writes_apply {a : Action} (ha : ∀ n, a ≠ .react n) :
    (s.apply options a).writes = s.writes := by
  cases a with
  | controlRequest asker requestId request now id refused throws =>
      exact writes_onControlRequest s asker requestId request now id refused throws
  | controlCancelRequest asker requestId throws =>
      rw [ApprovalBridge.apply, ApprovalBridge.onControlCancelRequest]
      split
      · rfl
      · split
        · exact (same_abortRequest s throws _).writes
        · rfl
  | resolve taskId executionId id decision now throws =>
      exact (same_resolve s taskId executionId id decision now throws).writes
  | expire n throws => exact (same_finish s n .deny throws).writes
  | react n => exact absurd rfl (ha n)
  | close child throws =>
      rw [ApprovalBridge.apply, ApprovalBridge.onClose, abortLifetime]
      split
      · rfl
      · rw [(same_abortListeners _ throws _ _).writes]
  | restart => rfl
  | abort throws => rw [ApprovalBridge.apply, (same_denyAll _ throws).writes]
  | settle => rfl
  | endRun throws => rw [ApprovalBridge.apply, (same_denyAll _ throws).writes]

/-! ## Cancelled requests -/

def Cancelled (s : ApprovalBridge) (n : ℕ) : Prop :=
  ∃ r, s.requests[n]? = some r ∧ r.aborted = true

theorem Cancelled.congr (h : Cancelled s n) (hrequests : t.requests = s.requests) :
    Cancelled t n := by
  obtain ⟨r, hn, haborted⟩ := h
  exact ⟨r, by rw [hrequests, hn], haborted⟩

theorem Cancelled.modify (h : Cancelled s n) {k : ℕ} {f : ControlRequest → ControlRequest}
    (hf : ∀ r, r.aborted = true → (f r).aborted = true) : Cancelled (s.modifyRequest k f) n := by
  obtain ⟨r, hn, haborted⟩ := h
  by_cases hk : k = n
  · refine ⟨f r, ?_, hf r haborted⟩
    rw [getElem?_modifyRequest, if_pos hk, hn, Option.map_some]
  · refine ⟨r, ?_, haborted⟩
    rw [getElem?_modifyRequest, if_neg hk, hn]

theorem Cancelled.finish (h : Cancelled s n) (k : ℕ) (decision : ApprovalDecision)
    (throws : Bool) : Cancelled (s.finish k decision throws) n := by
  unfold ApprovalBridge.finish
  split
  · exact (h.congr rfl).modify fun _ ha => ha
  · exact h

theorem Cancelled.denyAll (h : Cancelled s n) (throws : Bool) :
    Cancelled (s.denyAll throws) n := by
  rw [ApprovalBridge.denyAll]
  generalize List.range s.requests.length = ns
  induction ns generalizing s with
  | nil => exact h
  | cons k ns ih => exact ih (h.finish k .deny throws)

theorem Cancelled.abortRequest (h : Cancelled s n) (throws : Bool) (k : ℕ) :
    Cancelled (s.abortRequest throws k) n :=
  (h.modify fun _ _ => rfl).finish k .deny throws

theorem Cancelled.abortListeners (h : Cancelled s n) (throws : Bool) (lifetime : ℕ)
    (ns : List ℕ) : Cancelled (ns.foldl (abortListener throws lifetime) s) n := by
  induction ns generalizing s with
  | nil => exact h
  | cons k ns ih =>
      refine ih ?_
      rw [abortListener]
      split
      · exact h.abortRequest throws k
      · exact h

theorem Cancelled.requestApproval (h : Cancelled s n) (k : ℕ) (toolName : String)
    (input : JsonObject) (now : ℕ) (id : String) (refused throws : Bool) :
    Cancelled (s.requestApproval options k toolName input now id refused throws) n := by
  rw [ApprovalBridge.requestApproval]
  split
  · exact h
  split
  · exact h
  split
  · exact h
  have hasked : Cancelled (s.modifyRequest k fun r =>
      { r with approval := some id, stage := .asked (now + options.timeoutMs) }) n :=
    h.modify fun _ ha => ha
  dsimp only
  split
  · exact hasked.finish k .deny throws
  · exact hasked

theorem Cancelled.onControlRequest (h : Cancelled s n) (asker : ℕ) (requestId : String)
    (request : Json) (now : ℕ) (id : String) (refused throws : Bool) :
    Cancelled (s.onControlRequest options asker requestId request now id refused throws) n := by
  obtain ⟨r, hn, haborted⟩ := h
  have hadded : ∀ (controlRequests : InsertionMap String ℕ) (added : ControlRequest),
      Cancelled { s with
        controlRequests := controlRequests, requests := s.requests ++ [added] } n := by
    intro controlRequests added
    refine ⟨r, ?_, haborted⟩
    dsimp only
    rw [List.getElem?_append_left (List.getElem?_eq_some_iff.mp hn).1, hn]
  rw [ApprovalBridge.onControlRequest]
  split
  · exact ⟨r, hn, haborted⟩
  · dsimp only
    split
    · split
      · exact hadded _ _
      · exact (hadded _ _).requestApproval _ _ _ now id refused throws
    · exact hadded _ _

/-- A request that was cancelled stays so. -/
theorem Cancelled.step (h : Cancelled s n) (a : Action) : Cancelled (s.apply options a) n := by
  cases a with
  | controlRequest asker requestId request now id refused throws =>
      exact h.onControlRequest asker requestId request now id refused throws
  | controlCancelRequest asker requestId throws =>
      rw [ApprovalBridge.apply, ApprovalBridge.onControlCancelRequest]
      split
      · exact h
      · split
        · exact h.abortRequest throws _
        · exact h
  | resolve taskId executionId id decision now throws =>
      rw [ApprovalBridge.apply]
      unfold ApprovalBridge.resolve
      split
      · split
        · split
          · exact h.finish _ _ throws
          · exact h
        · exact h
      · exact h
  | expire k throws => exact h.finish k .deny throws
  | react k =>
      have hfinished : Cancelled (s.modifyRequest k fun r => { r with stage := .finished }) n :=
        h.modify fun _ ha => ha
      rw [ApprovalBridge.apply]
      unfold ApprovalBridge.react
      split
      · split
        · dsimp only
          split <;> exact hfinished
        · exact h
      · exact h
  | close child throws =>
      rw [ApprovalBridge.apply, ApprovalBridge.onClose, abortLifetime]
      split
      · exact h
      · refine Cancelled.abortListeners ?_ throws _ _
        exact h.congr rfl
  | restart => exact h
  | abort throws =>
      refine Cancelled.denyAll ?_ throws
      exact h.congr rfl
  | settle => exact h
  | endRun throws =>
      refine Cancelled.denyAll ?_ throws
      exact h.congr rfl

theorem Cancelled.run (h : Cancelled s n) {actions : List Action}
    (hrun : (system options).Run s actions t) : Cancelled t n := by
  refine hrun.invariant (I := fun u => Cancelled u n) ?_ h
  rintro u a v hu ⟨-, rfl⟩
  exact hu.step a

/-- A child cancels the request it has made. -/
theorem Bridged.cancels (h : Bridged s) (hn : s.requests[n]? = some r)
    (hsettled : s.settled = false)
    (hheard : r.asker = s.child ∨ r.asker < s.child ∧ r.asker ∉ s.closed) (throws : Bool) :
    Cancelled (s.onControlCancelRequest r.requestId throws) n := by
  have htarget : r.target = s.child := by
    rw [← (h.request n r hn).1]
    exact h.asker_eq hheard
  rw [ApprovalBridge.onControlCancelRequest, if_neg (by rw [hsettled]; exact Bool.false_ne_true),
    h.known n r hn htarget]
  have hmarked : Cancelled (s.modifyRequest n fun r => { r with aborted := true }) n := by
    refine ⟨{ r with aborted := true }, ?_, rfl⟩
    rw [getElem?_modifyRequest, if_pos rfl, hn, Option.map_some]
  exact hmarked.finish n .deny throws

/-! ## Receipts -/

/-- The receipts of denials add no permission. -/
def AddsNoPermission (s t : ApprovalBridge) : Prop :=
  ∀ id, ApprovalFrame.received id .allowOnce ∈ t.frames →
    ApprovalFrame.received id .allowOnce ∈ s.frames

theorem AddsNoPermission.trans {u : ApprovalBridge} (h : AddsNoPermission s t)
    (h' : AddsNoPermission t u) : AddsNoPermission s u := fun id hid => h id (h' id hid)

theorem addsNoPermission_finish (s : ApprovalBridge) (n : ℕ) (throws : Bool) :
    AddsNoPermission s (s.finish n .deny throws) := by
  unfold ApprovalBridge.finish
  split
  · next id _ _ _ =>
      intro other hother
      change _ ∈ (if throws then s.frames
        else s.frames ++ [ApprovalFrame.received id .deny]) at hother
      split at hother
      · exact hother
      · simpa using hother
  · exact fun _ hid => hid

theorem addsNoPermission_denyAll (s : ApprovalBridge) (throws : Bool) :
    AddsNoPermission s (s.denyAll throws) := by
  rw [ApprovalBridge.denyAll]
  generalize List.range s.requests.length = ns
  induction ns generalizing s with
  | nil => exact fun _ hid => hid
  | cons n ns ih => exact (addsNoPermission_finish s n throws).trans (ih _)

theorem addsNoPermission_abortRequest (s : ApprovalBridge) (throws : Bool) (n : ℕ) :
    AddsNoPermission s (s.abortRequest throws n) :=
  addsNoPermission_finish (s.modifyRequest n fun r => { r with aborted := true }) n throws

theorem addsNoPermission_abortListeners (s : ApprovalBridge) (throws : Bool) (lifetime : ℕ)
    (ns : List ℕ) : AddsNoPermission s (ns.foldl (abortListener throws lifetime) s) := by
  induction ns generalizing s with
  | nil => exact fun _ hid => hid
  | cons n ns ih =>
      refine AddsNoPermission.trans ?_ (ih _)
      rw [abortListener]
      split
      · exact addsNoPermission_abortRequest s throws n
      · exact fun _ hid => hid

theorem addsNoPermission_requestApproval (s : ApprovalBridge) (n : ℕ) (toolName : String)
    (input : JsonObject) (now : ℕ) (id : String) (refused throws : Bool) :
    AddsNoPermission s (s.requestApproval options n toolName input now id refused throws) := by
  rw [ApprovalBridge.requestApproval]
  split
  · exact fun _ hid => hid
  split
  · exact fun _ hid => hid
  split
  · exact fun _ hid => hid
  dsimp only
  split
  · exact addsNoPermission_finish (s.modifyRequest n _) n throws
  · intro other hother
    rcases List.mem_append.mp hother with hold | hnew
    · exact hold
    · cases List.mem_singleton.mp hnew

theorem addsNoPermission_onControlRequest (s : ApprovalBridge) (asker : ℕ) (requestId : String)
    (request : Json) (now : ℕ) (id : String) (refused throws : Bool) :
    AddsNoPermission s
      (s.onControlRequest options asker requestId request now id refused throws) := by
  rw [ApprovalBridge.onControlRequest]
  split
  · exact fun _ hid => hid
  · dsimp only
    split
    · split
      · exact fun _ hid => hid
      · exact addsNoPermission_requestApproval _ _ _ _ now id refused throws
    · exact fun _ hid => hid

/-- The approval with this id waits for its decision, and this is in time. -/
def InTime (s : ApprovalBridge) (id : String) (now : ℕ) : Prop :=
  ∃ (n : ℕ) (r : ControlRequest) (expiresAt : ℕ), s.requests[n]? = some r ∧
    r.approval = some id ∧ r.stage = .asked expiresAt ∧ now < expiresAt

theorem permission_of_resolve {taskId executionId id id' : String} {decision : ApprovalDecision}
    {now : ℕ} {throws : Bool}
    (h : ApprovalFrame.received id' .allowOnce ∈
      (s.resolve options taskId executionId id decision now throws).frames) :
    ApprovalFrame.received id' .allowOnce ∈ s.frames ∨
      id = id' ∧ decision = .allowOnce ∧ InTime s id' now := by
  unfold ApprovalBridge.resolve at h
  split at h
  · split at h
    · next n hn =>
        obtain ⟨hlt, hid, -⟩ := List.findIdx?_eq_some_iff_getElem.mp hn
        split at h
        · next _ _ _ _ _ approval _ expiresAt hr =>
            have hget : s.requests[n] = ⟨_, _, _, _, _, approval, _, .asked expiresAt⟩ :=
              (List.getElem?_eq_some_iff.mp hr).2
            rw [hget, decide_eq_true_eq] at hid
            dsimp only at hid
            subst hid
            unfold ApprovalBridge.finish at h
            rw [hr] at h
            dsimp only at h
            change _ ∈ (if throws then s.frames else s.frames ++ [_]) at h
            split at h
            · exact .inl h
            · rcases List.mem_append.mp h with hold | hnew
              · exact .inl hold
              · rw [List.mem_singleton, ApprovalFrame.received.injEq] at hnew
                obtain ⟨rfl, hdecision⟩ := hnew
                split at hdecision
                · cases hdecision
                · next hnow =>
                    exact .inr ⟨rfl, hdecision.symm, n, _, expiresAt, hr, rfl, rfl,
                      Nat.lt_of_not_ge hnow⟩
        · exact .inl h
    · exact .inl h
  · exact .inl h

/-- A permission comes from the server, in time. -/
theorem permission_of_apply (a : Action) {id : String}
    (h : ApprovalFrame.received id .allowOnce ∈ (s.apply options a).frames) :
    ApprovalFrame.received id .allowOnce ∈ s.frames ∨
      ∃ taskId executionId now throws,
        a = .resolve taskId executionId id .allowOnce now throws ∧ InTime s id now := by
  cases a with
  | controlRequest asker requestId request now id' refused throws =>
      exact .inl (addsNoPermission_onControlRequest s asker requestId request now id' refused throws
        id h)
  | controlCancelRequest asker requestId throws =>
      rw [ApprovalBridge.apply, ApprovalBridge.onControlCancelRequest] at h
      split at h
      · exact .inl h
      · split at h
        · exact .inl (addsNoPermission_abortRequest s throws _ id h)
        · exact .inl h
  | resolve taskId executionId id' decision now throws =>
      rcases permission_of_resolve h with hold | ⟨rfl, rfl, hintime⟩
      · exact .inl hold
      · exact .inr ⟨taskId, executionId, now, throws, rfl, hintime⟩
  | expire n throws => exact .inl (addsNoPermission_finish s n throws id h)
  | react n =>
      refine .inl ?_
      rw [ApprovalBridge.apply] at h
      unfold ApprovalBridge.react at h
      split at h
      · split at h
        · dsimp only at h
          split at h <;> exact h
        · exact h
      · exact h
  | close child throws =>
      refine .inl ?_
      rw [ApprovalBridge.apply, ApprovalBridge.onClose, abortLifetime] at h
      split at h
      · exact h
      · have hold := addsNoPermission_abortListeners _ throws _ _ id h
        exact hold
  | restart => exact .inl h
  | abort throws => exact .inl (addsNoPermission_denyAll { s with aborted := true } throws id h)
  | settle => exact .inl h
  | endRun throws => exact .inl (addsNoPermission_denyAll { s with ended := true } throws id h)

/-! ## The bridge -/

/-- A child gets one response for an id at most, and only while it stands, its request stands and
the task does. What it is allowed the server has granted in time, for this tool and this input. A
request that was cancelled stays so. -/
theorem bridge_fails_closed (h : (system options).Reachable s) :
    (s.writes.map fun w => (w.child, w.requestId)).Nodup ∧
    (∀ a t, (system options).step s a t → t.writes = s.writes ∨
      ∃ n w, a = .react n ∧ t.writes = s.writes ++ [w] ∧ Answers s n w) ∧
    (∀ a t id, (system options).step s a t → ApprovalFrame.received id .allowOnce ∈ t.frames →
      ApprovalFrame.received id .allowOnce ∈ s.frames ∨ ∃ taskId executionId now throws,
        a = .resolve taskId executionId id .allowOnce now throws ∧ InTime s id now) ∧
    ∀ (n : ℕ) (r : ControlRequest) (throws : Bool) (t u : ApprovalBridge) (actions : List Action),
      s.requests[n]? = some r → s.settled = false →
      (system options).step s (.controlCancelRequest r.asker r.requestId throws) t →
      (system options).Run t actions u → Cancelled u n := by
  have hbridged := bridged_of_reachable h
  refine ⟨hbridged.once, ?_, ?_, ?_⟩
  · rintro a t ⟨henabled, rfl⟩
    by_cases ha : ∃ n, a = .react n
    · obtain ⟨n, rfl⟩ := ha
      rcases hbridged.react_cases n with ⟨hsame, -⟩ | ⟨w, hwrites, hanswers, -⟩
      · exact .inl hsame
      · exact .inr ⟨n, w, rfl, hwrites, hanswers⟩
    · exact .inl (writes_apply fun n hn => ha ⟨n, hn⟩)
  · rintro a t id ⟨henabled, rfl⟩ hmem
    exact permission_of_apply a hmem
  · rintro n r throws t u actions hn hsettled ⟨henabled, rfl⟩ hrun
    exact (hbridged.cancels hn hsettled henabled throws).run hrun

/-- The owner has allowed a listing. -/
def allowedListing : ApprovalBridge :=
  let options : ApprovalOptions := ⟨true, "task", true, some "execution", 600000⟩
  let request : Json := .obj [("subtype", .str "can_use_tool"), ("tool_name", .str "Bash"),
    ("input", .obj [("command", .str "ls")])]
  [.controlRequest 0 "1" request 0 "approval" false false,
    .resolve "task" "execution" "approval" .allowOnce 5 false].foldl (apply options) {}

theorem bridge_fails_closed_example :
    ∃ w, (allowedListing.react 0).writes = allowedListing.writes ++ [w] ∧
      Answers allowedListing 0 w := by
  have hreachable : (system ⟨true, "task", true, some "execution", 600000⟩).Reachable
      allowedListing :=
    System.Legal.reachable ⟨⟨.inl rfl, fun r hr => by cases hr⟩, trivial, trivial⟩ (.of_init rfl)
  rcases (bridge_fails_closed hreachable).2.1 (.react 0) _ ⟨trivial, rfl⟩ with
    hsame | ⟨n, w, hn, hwrites, hanswers⟩
  · have hlength := congrArg List.length hsame
    exact absurd hlength (by decide +kernel)
  · cases hn
    exact ⟨w, hwrites, hanswers⟩

end VicoopBridge.ClaudeApprovals
