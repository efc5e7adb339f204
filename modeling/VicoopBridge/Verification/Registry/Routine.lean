import VicoopBridge.Model.Ws
import VicoopBridge.Verification.Registry.Sockets

/-! # Steps that apply no frame and assign no task

Most of what the registry does leaves alone the sequence number that an execution goes on
with, binds nothing, and sends neither a task nor any limit but the server's own. -/

namespace VicoopBridge

open Library

/-- Whether the frame assigns the execution. -/
def DownFrame.assigns (e : String) : DownFrame → Bool
  | .taskAssign _ executionId _ _ _ _ _ => executionId = some e
  | _ => false

/-- A limit that is sent is the server's own. -/
def DownFrame.Expected : DownFrame → Prop
  | .helloAck _ _ maxFrameBytes => maxFrameBytes = maxIngressBytes
  | _ => True

def DownFrame.Ordinary (e : String) (frame : DownFrame) : Prop :=
  frame.Expected ∧ frame.assigns e = false

section Sockets

variable {e : String} {s s' s'' : Socket}

/-- The socket has got more frames, all of them ordinary. -/
def Socket.Adds (e : String) (s s' : Socket) : Prop :=
  ∃ more, s'.sent = s.sent ++ more ∧ ∀ frame ∈ more, frame.Ordinary e

theorem Socket.Adds.of_eq (h : s'.sent = s.sent) : s.Adds e s' := ⟨[], by simpa using h, by simp⟩

theorem Socket.Adds.trans (h : s.Adds e s') (h' : s'.Adds e s'') : s.Adds e s'' := by
  obtain ⟨more, hsent, hmore⟩ := h
  obtain ⟨more', hsent', hmore'⟩ := h'
  refine ⟨more ++ more', by rw [hsent', hsent, List.append_assoc], fun frame hframe => ?_⟩
  rcases List.mem_append.mp hframe with hframe | hframe
  · exact hmore frame hframe
  · exact hmore' frame hframe

theorem Socket.adds_send (s : Socket) {frame : DownFrame} (h : frame.Ordinary e) :
    s.Adds e (s.send frame) := by
  unfold Socket.send
  split
  · exact ⟨[frame], rfl, by simpa using h⟩
  · exact .of_eq rfl

theorem Socket.adds_close (s : Socket) (code : ℕ) (reason : String) :
    s.Adds e (s.close code reason) := by
  unfold Socket.close
  split <;> exact .of_eq rfl

/-- The frame that assigns the execution, where it is on the socket. -/
def Socket.AssignsAt (s : Socket) (e : String) (i : ℕ) : Prop :=
  ∃ frame, s.sent[i]? = some frame ∧ frame.assigns e

theorem Socket.Adds.assignsAt_iff (h : s.Adds e s') (i : ℕ) :
    s'.AssignsAt e i ↔ s.AssignsAt e i := by
  obtain ⟨more, hsent, hmore⟩ := h
  unfold Socket.AssignsAt
  rw [hsent]
  refine ⟨fun ⟨frame, hi, hassigns⟩ => ?_, fun ⟨frame, hi, hassigns⟩ => ⟨frame, ?_, hassigns⟩⟩
  · rw [List.getElem?_append] at hi
    split at hi
    · exact ⟨frame, hi, hassigns⟩
    · have hother := (hmore frame (List.mem_of_getElem? hi)).2
      simp [hother] at hassigns
  · rw [List.getElem?_append_left (List.getElem?_eq_some_iff.mp hi).1]
    exact hi

end Sockets

namespace Registry

structure Routine (e : String) (r r' : Registry) : Prop where
  next : ∀ b, b.executionId = some e →
    (r'.cells b).nextClientSeq = (r.cells b).nextClientSeq
  bindings : ∀ k b, r'.bindings.get? k = some b → r.bindings.get? k = some b
  sent : ∀ ws, (r.sockets ws).Adds e (r'.sockets ws)

variable {e : String} {r r' r'' : Registry}

theorem routine_of_eq (hcells : r'.cells = r.cells) (hbindings : r'.bindings = r.bindings)
    (hsockets : r'.sockets = r.sockets) : r.Routine e r' where
  next b _ := by rw [hcells]
  bindings k b h := hbindings ▸ h
  sent ws := .of_eq (by rw [hsockets])

theorem Routine.refl (r : Registry) : r.Routine e r := routine_of_eq rfl rfl rfl

theorem Routine.trans (h : r.Routine e r') (h' : r'.Routine e r'') : r.Routine e r'' where
  next b hb := (h'.next b hb).trans (h.next b hb)
  bindings k b hb := h.bindings k b (h'.bindings k b hb)
  sent ws := (h.sent ws).trans (h'.sent ws)

/-! ## Cells and sockets -/

variable (r)

theorem routine_modifyCell (b : TaskBinding) {f : BindingCell → BindingCell}
    (hf : b.executionId = some e → ∀ c, (f c).nextClientSeq = c.nextClientSeq) :
    r.Routine e (r.modifyCell b f) where
  next b' hb' := by
    by_cases heq : b' = b
    · subst heq
      simpa [modifyCell] using hf hb' _
    · simp [modifyCell, heq]
  bindings _ _ h := h
  sent _ := .of_eq rfl

theorem routine_modifySocket (ws : WsId) {f : Socket → Socket} (hf : ∀ s : Socket, s.Adds e (f s)) :
    r.Routine e (r.modifySocket ws f) where
  next _ _ := rfl
  bindings _ _ h := h
  sent ws' := by
    by_cases heq : ws' = ws
    · subst heq
      simpa [modifySocket] using hf _
    · exact .of_eq (by simp [modifySocket, heq])

theorem routine_send (ws : WsId) {frame : DownFrame} (h : frame.Ordinary e) :
    r.Routine e (r.modifySocket ws (Socket.send · frame)) :=
  routine_modifySocket r ws fun s => s.adds_send h

theorem routine_close (ws : WsId) (code : ℕ) (reason : String) :
    r.Routine e (r.modifySocket ws (Socket.close · code reason)) :=
  routine_modifySocket r ws fun s => s.adds_close code reason

theorem routine_sendToAgent (agentId : String) {frame : DownFrame} (h : frame.Ordinary e) :
    r.Routine e (r.sendToAgent agentId frame).2 := by
  unfold sendToAgent
  split
  · exact .refl r
  · exact routine_send r _ h

/-! ## The operations -/

theorem routine_respects : RespectsApprovals (Routine e) where
  refl := .refl
  trans h h' := h.trans h'
  hold _ _ _ _ := routine_of_eq rfl rfl rfl
  invalidate _ _ := routine_of_eq rfl rfl rfl
  fail r b error := by
    have hinvalidated : r.Routine e { r with approvals := r.approvals.invalidate b } :=
      routine_of_eq rfl rfl rfl
    have hpushed (r' : Registry) : r'.Routine e (r'.pushStatus b (failureEvent b error)) :=
      routine_modifyCell r' b fun _ _ => rfl
    have hfinished (r' : Registry) : r'.Routine e (r'.finish b) :=
      routine_modifyCell r' b fun _ _ => rfl
    exact (hinvalidated.trans (hpushed _)).trans (hfinished _)
  erase r k :=
    { next := fun _ _ => rfl
      bindings := fun k' b h => by
        simp only [InsertionMap.get?_erase] at h
        split at h
        · cases h
        · exact h
      sent := fun _ => .of_eq rfl }
  close := routine_close
  note _ _ := routine_of_eq rfl rfl rfl
  approvals _ _ := routine_of_eq rfl rfl rfl
  resolve r ws _ _ _ _ := routine_send r ws ⟨trivial, rfl⟩
  cancel r ws _ _ := routine_send r ws ⟨trivial, rfl⟩

/-! ## Binding a task -/

/-- The new binding is the only one that a `bindTask` adds. -/
theorem bindTask_spec (b : TaskBinding) :
    (∀ b', b'.executionId = some e →
      ((r.bindTask b).2.cells b').nextClientSeq = (r.cells b').nextClientSeq) ∧
    (∀ k b', (r.bindTask b).2.bindings.get? k = some b' → b' = b ∨ r.bindings.get? k = some b') ∧
    (r.bindTask b).2.sockets = r.sockets := by
  have hbound (r' : Registry) (h : r.Routine e r') (k : String) (b' : TaskBinding)
      (hk : (r'.bindings.set b.taskId b).get? k = some b') :
      b' = b ∨ r.bindings.get? k = some b' := by
    rw [InsertionMap.get?_set] at hk
    split at hk
    · exact .inl (Option.some.inj hk).symm
    · exact .inr (h.bindings k b' hk)
  unfold bindTask
  split
  · exact ⟨fun _ _ => rfl, hbound r (.refl r), rfl⟩
  · rename_i existing _
    simp only
    split
    · exact ⟨fun _ _ => rfl, fun k b' hk => .inr hk, rfl⟩
    split
    · exact ⟨fun _ _ => rfl, hbound r (.refl r), rfl⟩
    · have hfailed : r.Routine e ((r.clearGraceHold b.taskId (some existing)).failBinding existing
          taskSupersededError) :=
        routine_respects.trans (routine_respects.clearGraceHold r _ _)
          (routine_respects.fail _ existing _)
      exact ⟨hfailed.next, hbound _ hfailed, clearGraceHold_sockets r b.taskId (some existing)⟩

end Registry

end VicoopBridge
