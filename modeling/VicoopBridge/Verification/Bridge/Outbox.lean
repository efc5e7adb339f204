import VicoopBridge.Verification.Bridge.Handlers
import VicoopBridge.Verification.Registry.Routine

/-! # The frames a daemon writes for one execution

Whatever the daemon does, a frame it has retained or written carries the sequence number its
run gave it. Only a frame too large for the server is written as the failure in its place. -/

namespace VicoopBridge

open Library

namespace Client

/-- A run of the execution has given the frame its sequence number. -/
def Sequenced (c : Client) (e : String) (n : ℕ) (frame : TaskUpFrame) : Prop :=
  ∃ r, (c.runs r).executionId = some e ∧ (c.runs r).sequenced[n]? = some frame

/-- The failure written for a frame that was retained while its limit was not known. -/
def Substitute (opts : ClientOptions) (c : Client) (e : String) (n : ℕ) (frame : TaskUpFrame) :
    Prop :=
  ∃ taskId retained, frame = reliableFailure taskId e n retainedFrameError ∧
    c.Sequenced e n retained ∧ maxIngressBytes < opts.size retained ∧
      opts.size retained ≤ opts.maxPendingBytes

def Carries (opts : ClientOptions) (c : Client) (e : String) (frame : TaskUpFrame) : Prop :=
  frame.executionId = some e → ∀ n, frame.seq = some n →
    c.Sequenced e n frame ∨ c.Substitute opts e n frame

/-- What is retained under its sequence number. -/
structure Retains (opts : ClientOptions) (c : Client) (e : String) (p : PendingFrame) : Prop where
  encoded : p.encoded.executionId = some p.executionId
  sequenced : p.executionId = e → c.Sequenced e p.seq p.encoded
  bytes : p.bytes = opts.size p.encoded
  fits : p.bytes ≤ opts.maxPendingBytes

structure Outbox (opts : ClientOptions) (e : String) (c : Client) : Prop where
  unborn : ∀ r, c.nextRun ≤ r → (c.runs r).executionId = none
  counted : ∀ r, (c.runs r).nextSeq = (c.runs r).sequenced.length
  unique : ∀ r r', (c.runs r).executionId = some e → (c.runs r').executionId = some e → r = r'
  numbered : ∀ n frame, c.Sequenced e n frame → frame.executionId = some e ∧ frame.seq = some n
  pending : ∀ p ∈ c.pendingFrames, c.Retains opts e p
  sent : ∀ ws frame, .task frame ∈ (c.sockets ws).sent → c.Carries opts e frame
  limit : ∀ limit ∈ c.negotiatedMaxFrameBytes, limit = maxIngressBytes

/-- A run has sequenced what it had and maybe more; a suppressed one is closed. -/
structure Continues (run run' : ClientRun) : Prop where
  sequenced : run.sequenced <+: run'.sequenced
  suppressed : run.suppressed → run'.suppressed
  closed : run.suppressed → run'.sequenced = run.sequenced

def Keeps (e : String) (c c' : Client) : Prop :=
  ∀ r, (c.runs r).executionId = some e →
    (c'.runs r).executionId = some e ∧ Continues (c.runs r) (c'.runs r)

/-- No run of the execution begins. -/
structure Grows (e : String) (c c' : Client) : Prop where
  kept : c.Keeps e c'
  born : ∀ r, (c'.runs r).executionId = some e → (c.runs r).executionId = some e

def Preserves (opts : ClientOptions) (e : String) (c c' : Client) : Prop :=
  c.Outbox opts e → c'.Outbox opts e ∧ c.Grows e c'

variable {opts : ClientOptions} {e : String} {c c' c'' : Client}

theorem Continues.refl (run : ClientRun) : Continues run run :=
  ⟨List.prefix_refl _, fun h => h, fun _ => rfl⟩

theorem Continues.trans {run run' run'' : ClientRun} (h : Continues run run')
    (h' : Continues run' run'') : Continues run run'' where
  sequenced := h.sequenced.trans h'.sequenced
  suppressed hs := h'.suppressed (h.suppressed hs)
  closed hs := (h'.closed (h.suppressed hs)).trans (h.closed hs)

theorem Keeps.trans (h : c.Keeps e c') (h' : c'.Keeps e c'') : c.Keeps e c'' := by
  intro r hr
  obtain ⟨hr', hcontinues⟩ := h r hr
  obtain ⟨hr'', hcontinues'⟩ := h' r hr'
  exact ⟨hr'', hcontinues.trans hcontinues'⟩

theorem Grows.refl (c : Client) : c.Grows e c :=
  ⟨fun _ h => ⟨h, .refl _⟩, fun _ h => h⟩

theorem Grows.trans (h : c.Grows e c') (h' : c'.Grows e c'') : c.Grows e c'' where
  kept := h.kept.trans h'.kept
  born r hr := h.born r (h'.born r hr)

theorem Preserves.refl (c : Client) : c.Preserves opts e c := fun h => ⟨h, .refl c⟩

theorem Preserves.trans (h : c.Preserves opts e c') (h' : c'.Preserves opts e c'') :
    c.Preserves opts e c'' := by
  intro hc
  obtain ⟨hc', hgrows⟩ := h hc
  obtain ⟨hc'', hgrows'⟩ := h' hc'
  exact ⟨hc'', hgrows.trans hgrows'⟩

theorem Sequenced.mono {n : ℕ} {frame : TaskUpFrame} (hs : c.Sequenced e n frame)
    (h : c.Keeps e c') : c'.Sequenced e n frame := by
  obtain ⟨r, hr, hframe⟩ := hs
  obtain ⟨hr', ⟨more, hmore⟩, -, -⟩ := h r hr
  refine ⟨r, hr', ?_⟩
  rw [← hmore, List.getElem?_append_left (List.getElem?_eq_some_iff.mp hframe).1]
  exact hframe

theorem Carries.mono {frame : TaskUpFrame} (hc : c.Carries opts e frame) (h : c.Keeps e c') :
    c'.Carries opts e frame := by
  intro hexec n hseq
  obtain hseqd | ⟨taskId, retained, heq, hretained, hsize⟩ := hc hexec n hseq
  · exact .inl (hseqd.mono h)
  · exact .inr ⟨taskId, retained, heq, hretained.mono h, hsize⟩

theorem Retains.mono {p : PendingFrame} (hp : c.Retains opts e p) (h : c.Keeps e c') :
    c'.Retains opts e p :=
  { hp with sequenced := fun heq => (hp.sequenced heq).mono h }

/-! ## Operations that sequence nothing -/

/-- Flags of runs may change, frames may be forgotten, and no task frame is written. -/
structure Quiet (c c' : Client) : Prop where
  executionId : ∀ r, (c'.runs r).executionId = (c.runs r).executionId
  nextSeq : ∀ r, (c'.runs r).nextSeq = (c.runs r).nextSeq
  sequenced : ∀ r, (c'.runs r).sequenced = (c.runs r).sequenced
  suppressed : ∀ r, (c.runs r).suppressed → (c'.runs r).suppressed
  nextRun : c'.nextRun = c.nextRun
  pending : c'.pendingFrames ⊆ c.pendingFrames
  sent : ∀ ws frame, .task frame ∈ (c'.sockets ws).sent → .task frame ∈ (c.sockets ws).sent
  limit : ∀ limit ∈ c'.negotiatedMaxFrameBytes, limit ∈ c.negotiatedMaxFrameBytes

theorem Quiet.trans (h : c.Quiet c') (h' : c'.Quiet c'') : c.Quiet c'' where
  executionId r := (h'.executionId r).trans (h.executionId r)
  nextSeq r := (h'.nextSeq r).trans (h.nextSeq r)
  sequenced r := (h'.sequenced r).trans (h.sequenced r)
  suppressed r hr := h'.suppressed r (h.suppressed r hr)
  nextRun := h'.nextRun.trans h.nextRun
  pending _ hp := h.pending (h'.pending hp)
  sent ws frame hsent := h.sent ws frame (h'.sent ws frame hsent)
  limit l hl := h.limit l (h'.limit l hl)

theorem Quiet.grows (h : c.Quiet c') : c.Grows e c' where
  kept r hr := ⟨(h.executionId r).trans hr, (h.sequenced r).symm ▸ List.prefix_refl _,
    h.suppressed r, fun _ => h.sequenced r⟩
  born r hr := (h.executionId r).symm.trans hr

theorem Quiet.sequenced_iff (h : c.Quiet c') {n : ℕ} {frame : TaskUpFrame} :
    c'.Sequenced e n frame ↔ c.Sequenced e n frame := by
  simp only [Sequenced, h.executionId, h.sequenced]

theorem Quiet.preserves (h : c.Quiet c') : c.Preserves opts e c' := by
  intro hc
  refine ⟨⟨?_, ?_, ?_, ?_, ?_, ?_, ?_⟩, h.grows⟩
  · intro r hr
    rw [h.executionId]
    exact hc.unborn r (h.nextRun ▸ hr)
  · intro r
    rw [h.nextSeq, h.sequenced]
    exact hc.counted r
  · intro r r' hr hr'
    exact hc.unique r r' ((h.executionId r).symm.trans hr) ((h.executionId r').symm.trans hr')
  · exact fun n frame hs => hc.numbered n frame (h.sequenced_iff.mp hs)
  · exact fun p hp => (hc.pending p (h.pending hp)).mono h.grows.kept
  · exact fun ws frame hsent => (hc.sent ws frame (h.sent ws frame hsent)).mono h.grows.kept
  · exact fun l hl => hc.limit l (h.limit l hl)

/-- Only the fields that no sequence number depends on are different. -/
theorem quiet_of_eq (hruns : c'.runs = c.runs) (hnext : c'.nextRun = c.nextRun)
    (hpending : c'.pendingFrames = c.pendingFrames) (hsockets : c'.sockets = c.sockets)
    (hlimit : ∀ l ∈ c'.negotiatedMaxFrameBytes, l ∈ c.negotiatedMaxFrameBytes) : c.Quiet c' where
  executionId r := by rw [hruns]
  nextSeq r := by rw [hruns]
  sequenced r := by rw [hruns]
  suppressed r := by rw [hruns]; exact fun h => h
  nextRun := hnext
  pending := by rw [hpending]; exact fun _ h => h
  sent ws frame h := hsockets ▸ h
  limit := hlimit

theorem Quiet.refl (c : Client) : c.Quiet c :=
  quiet_of_eq rfl rfl rfl rfl fun _ => id

section Quiet

variable (opts : ClientOptions) (c : Client) (now : ℕ)

theorem quiet_modifySocket (ws : WsId) {f : ClientSocket → ClientSocket}
    (hf : ∀ s frame, .task frame ∈ (f s).sent → .task frame ∈ s.sent) :
    c.Quiet (c.modifySocket ws f) := by
  refine { Quiet.refl c with sent := fun ws' frame h => ?_ }
  by_cases heq : ws' = ws
  · subst heq
    exact hf _ frame (by simpa [modifySocket] using h)
  · simpa [modifySocket, heq] using h

theorem quiet_modifyRun (r : RunRef) {f : ClientRun → ClientRun}
    (hf : ∀ run, (f run).executionId = run.executionId ∧ (f run).nextSeq = run.nextSeq ∧
      (f run).sequenced = run.sequenced ∧ (run.suppressed → (f run).suppressed)) :
    c.Quiet (c.modifyRun r f) := by
  refine { Quiet.refl c with executionId := ?_, nextSeq := ?_, sequenced := ?_, suppressed := ?_ }
  all_goals
    intro r'
    rw [runs_modifyRun]
    split
    · rename_i heq
      subst heq
      simp +contextual [hf]
    · simp

theorem quiet_filterPending (keep : PendingFrame → Bool) : c.Quiet (c.filterPending opts keep) :=
  { Quiet.refl c with pending := fun _ hp => (List.mem_filter.mp hp).1 }

theorem quiet_schedulePendingExpiry : c.Quiet (c.schedulePendingExpiry opts) :=
  quiet_of_eq rfl rfl rfl rfl fun _ => id

theorem quiet_suppressRun (r : RunRef) : c.Quiet (c.suppressRun r) := by
  have hmodified : c.Quiet
      (c.modifyRun r fun run => { run with suppressed := true, aborted := true }) :=
    quiet_modifyRun c r (by simp)
  exact hmodified.trans (quiet_of_eq rfl rfl rfl rfl fun _ => id)

theorem quiet_suppressAll (rs : List RunRef) : c.Quiet (c.suppressAll rs) :=
  List.foldlRecOn (motive := c.Quiet) _ _ (.refl c)
    fun c₁ h r _ => h.trans (quiet_suppressRun c₁ r)

end Quiet

theorem quiet_respects (opts : ClientOptions) : RespectsDrops opts Quiet where
  refl := Quiet.refl
  trans := Quiet.trans
  flags h := quiet_of_eq h.runs h.nextRun h.pending h.sockets h.limit
  socket c ws _ hf := quiet_modifySocket c ws hf
  run c r aborted ended := quiet_modifyRun c r (by simp)
  retire c r := by
    unfold retire
    split
    · exact (quiet_suppressRun c r).trans (quiet_filterPending opts _ _)
    · exact quiet_suppressRun c r
  remove c executionId := quiet_filterPending opts c _
  drop c rs := (quiet_suppressAll c rs).trans
    { Quiet.refl _ with pending := List.nil_subset _ }

/-! ## Writing frames -/

section Write

variable (opts : ClientOptions) (c : Client) (now : ℕ)

theorem preserves_modifySocket (ws : WsId) {f : ClientSocket → ClientSocket} {task : TaskUpFrame}
    (hf : ∀ s frame, .task frame ∈ (f s).sent → .task frame ∈ s.sent ∨ frame = task)
    (htask : c.Outbox opts e → c.Carries opts e task) :
    c.Preserves opts e (c.modifySocket ws f) := by
  intro hc
  have hgrows : c.Grows e (c.modifySocket ws f) :=
    ⟨fun _ hr => ⟨hr, .refl _⟩, fun _ hr => hr⟩
  refine ⟨⟨hc.unborn, hc.counted, hc.unique, hc.numbered,
    fun p hp => (hc.pending p hp).mono hgrows.kept, fun ws' frame h => ?_, hc.limit⟩, hgrows⟩
  refine Carries.mono ?_ hgrows.kept
  by_cases heq : ws' = ws
  · subst heq
    obtain hold | rfl := hf _ frame (by simpa [modifySocket] using h)
    · exact hc.sent ws' frame hold
    · exact htask hc
  · exact hc.sent ws' frame (by simpa [modifySocket, heq] using h)

theorem mem_send {s : ClientSocket} {frame task : TaskUpFrame}
    (h : .task frame ∈ (s.send (.task task)).sent) : .task frame ∈ s.sent ∨ frame = task := by
  unfold ClientSocket.send at h
  split at h
  · rcases List.mem_append.mp h with h | h
    · exact .inl h
    · exact .inr (UpFrame.task.inj (List.mem_singleton.mp h))
  · exact .inl h

theorem preserves_sendTo (ws : WsId) {task : TaskUpFrame}
    (htask : c.Outbox opts e → c.Carries opts e task) :
    c.Preserves opts e (c.modifySocket ws (ClientSocket.send · (.task task))) :=
  preserves_modifySocket opts c ws (fun _ _ => mem_send) htask

theorem preserves_send {task : TaskUpFrame} (htask : c.Outbox opts e → c.Carries opts e task) :
    c.Preserves opts e (c.send (.task task)) := by
  unfold send
  split
  · exact preserves_sendTo opts c _ htask
  · exact .refl c

theorem preserves_sendReliableFailureAndDisconnect {task : TaskUpFrame}
    (htask : c.Outbox opts e → c.Carries opts e task) :
    c.Preserves opts e (c.sendReliableFailureAndDisconnect opts task) := by
  unfold sendReliableFailureAndDisconnect
  split
  · exact .refl c
  split
  · exact ((quiet_respects opts).terminate c _).preserves
  split
  · exact ((quiet_respects opts).terminate c _).preserves
  · exact preserves_modifySocket opts c _ (fun _ _ => mem_send) htask

/-- The next sequence number of a run is given to a frame. -/
theorem preserves_sequence {r : RunRef} {executionId : String} {frame : TaskUpFrame}
    (hopen : (c.runs r).suppressed = false) (hexec : (c.runs r).executionId = some executionId)
    (hframe : frame.executionId = some executionId) (hseq : frame.seq = some (c.runs r).nextSeq) :
    c.Preserves opts e (c.modifyRun r fun run => { run with
      nextSeq := (c.runs r).nextSeq + 1, sequenced := run.sequenced ++ [frame] }) := by
  intro hc
  set c₁ := c.modifyRun r fun run => { run with
    nextSeq := (c.runs r).nextSeq + 1, sequenced := run.sequenced ++ [frame] } with hc₁
  have hself : c₁.runs r = { c.runs r with
      nextSeq := (c.runs r).nextSeq + 1, sequenced := (c.runs r).sequenced ++ [frame] } := by
    simp [hc₁, modifyRun]
  have hother {r' : RunRef} (hne : r' ≠ r) : c₁.runs r' = c.runs r' := by
    simp [hc₁, modifyRun, hne]
  have hid (r' : RunRef) : (c₁.runs r').executionId = (c.runs r').executionId := by
    by_cases heq : r' = r
    · rw [heq, hself]
    · rw [hother heq]
  have hgrows : c.Grows e c₁ := by
    refine ⟨fun r' hr' => ⟨(hid r').trans hr', ?_⟩, fun r' hr' => (hid r').symm.trans hr'⟩
    by_cases heq : r' = r
    · rw [heq, hself]
      exact ⟨List.prefix_append _ _, fun h => h, by simp [hopen]⟩
    · rw [hother heq]
      exact .refl _
  refine ⟨⟨?_, ?_, ?_, ?_, fun p hp => (hc.pending p hp).mono hgrows.kept,
    fun ws task h => (hc.sent ws task h).mono hgrows.kept, hc.limit⟩, hgrows⟩
  · exact fun r' hr' => (hid r').trans (hc.unborn r' hr')
  · intro r'
    by_cases heq : r' = r
    · simp [heq, hself, hc.counted]
    · rw [hother heq]
      exact hc.counted r'
  · exact fun r' r'' hr' hr'' => hc.unique r' r'' ((hid r').symm.trans hr') ((hid r'').symm.trans hr'')
  · rintro n task ⟨r', hr', htask⟩
    by_cases heq : r' = r
    · rw [heq, hself] at hr' htask
      rw [List.getElem?_append] at htask
      split at htask
      · exact hc.numbered n task ⟨r, hr', htask⟩
      · rename_i hlong
        have hlast : n - (c.runs r).sequenced.length = 0 := by
          by_contra hne
          rw [List.getElem?_eq_none (by simp; omega)] at htask
          cases htask
        rw [hlast] at htask
        obtain rfl : frame = task := by simpa using htask
        refine ⟨hframe.trans (hexec.symm.trans hr'), ?_⟩
        rw [hseq, hc.counted]
        congr 1
        omega
    · exact hc.numbered n task ⟨r', by rwa [hother heq] at hr', by rwa [hother heq] at htask⟩

/-- The frame that has just been given its number. -/
theorem sequenced_last (hc : c.Outbox opts e) {r : RunRef} {frame : TaskUpFrame}
    (hexec : (c.runs r).executionId = some e) :
    (c.modifyRun r fun run => { run with
      nextSeq := (c.runs r).nextSeq + 1, sequenced := run.sequenced ++ [frame] }).Sequenced e
        (c.runs r).nextSeq frame := by
  refine ⟨r, by simpa [modifyRun] using hexec, ?_⟩
  rw [hc.counted]
  simp [modifyRun]

theorem preserves_retain {p : PendingFrame} {bytes : ℤ}
    (hp : c.Outbox opts e → c.Retains opts e p) :
    c.Preserves opts e
      { c with pendingFrames := c.pendingFrames ++ [p], pendingBytes := bytes } := by
  intro hc
  have hgrows : c.Grows e
      { c with pendingFrames := c.pendingFrames ++ [p], pendingBytes := bytes } :=
    ⟨fun _ hr => ⟨hr, .refl _⟩, fun _ hr => hr⟩
  refine ⟨⟨hc.unborn, hc.counted, hc.unique, hc.numbered, fun p' hp' => ?_, hc.sent, hc.limit⟩,
    hgrows⟩
  refine Retains.mono ?_ hgrows.kept
  rcases List.mem_append.mp hp' with hp' | hp'
  · exact hc.pending p' hp'
  · rw [List.mem_singleton.mp hp']
    exact hp hc

theorem carries_of_sequenced {executionId : String} {n : ℕ} {frame : TaskUpFrame}
    (hframe : frame.executionId = some executionId) (hseq : frame.seq = some n)
    (h : executionId = e → c.Sequenced e n frame) : c.Carries opts e frame := by
  intro hexec n' hn'
  obtain rfl : n = n' := Option.some.inj (hseq.symm.trans hn')
  exact .inl (h (Option.some.inj (hframe.symm.trans hexec)))

theorem preserves_sendTaskFrame (r : RunRef) {frame : TaskUpFrame} (hframe : frame.seq = none) :
    c.Preserves opts e (c.sendTaskFrame opts now r frame) := by
  unfold sendTaskFrame
  simp only
  split
  · exact .refl c
  rename_i hopen
  rw [Bool.not_eq_true] at hopen
  split
  · refine preserves_send opts c fun _ _ n hn => ?_
    simp [hframe] at hn
  rename_i executionId hexec
  split
  · intro hc
    set failure := reliableFailure frame.taskId executionId (c.runs r).nextSeq bufferOverflowError
    have hsequenced : c.Preserves opts e (c.modifyRun r fun run => { run with
        nextSeq := (c.runs r).nextSeq + 1, sequenced := run.sequenced ++ [failure] }) :=
      preserves_sequence opts c hopen hexec rfl rfl
    have hfailed := (quiet_respects opts).failReliableRun (c.modifyRun r fun run => { run with
      nextSeq := (c.runs r).nextSeq + 1, sequenced := run.sequenced ++ [failure] }) r false
    refine (hsequenced.trans (hfailed.preserves.trans
      (preserves_sendReliableFailureAndDisconnect opts _ fun _ => ?_))) hc
    refine carries_of_sequenced opts _ rfl rfl fun heq => ?_
    exact (sequenced_last opts c hc (heq ▸ hexec)).mono hfailed.grows.kept
  · rename_i hfits
    intro hc
    set reliableFrame : TaskUpFrame :=
      { frame with executionId := some executionId, seq := some (c.runs r).nextSeq }
    set c₁ := c.modifyRun r fun run => { run with
      nextSeq := (c.runs r).nextSeq + 1, sequenced := run.sequenced ++ [reliableFrame] }
    have hsequenced : c.Preserves opts e c₁ := preserves_sequence opts c hopen hexec rfl rfl
    have hlast (heq : executionId = e) : c₁.Sequenced e (c.runs r).nextSeq reliableFrame :=
      sequenced_last opts c hc (heq ▸ hexec)
    set c₂ := if pendingRetentionEnabled opts then
        schedulePendingExpiry opts { c₁ with
          pendingFrames := c₁.pendingFrames ++ [{
            taskId := frame.taskId, executionId := executionId, seq := (c.runs r).nextSeq
            encoded := reliableFrame, bytes := opts.size reliableFrame, createdAt := now }]
          pendingBytes := c₁.pendingBytes + opts.size reliableFrame } else c₁ with hc₂
    have hretained : c₁.Preserves opts e c₂ := by
      rw [hc₂]
      split
      · rename_i henabled
        refine Preserves.trans (preserves_retain opts c₁ fun _ => ?_)
          (quiet_schedulePendingExpiry opts _).preserves
        refine ⟨rfl, hlast, rfl, ?_⟩
        simp only [overflows, henabled, Bool.or_eq_true, Bool.and_eq_true, decide_eq_true_eq] at hfits
        push Not at hfits
        exact (hfits.2 trivial).1.1
      · exact .refl c₁
    have hstored := hsequenced.trans hretained
    obtain ⟨hc₁, -⟩ := hsequenced hc
    obtain ⟨-, hgrows⟩ := hretained hc₁
    split
    · have hcarries : c₂.Carries opts e reliableFrame :=
        carries_of_sequenced opts c₂ rfl rfl fun heq => (hlast heq).mono hgrows.kept
      exact (hstored.trans (preserves_send opts c₂ fun _ => hcarries)) hc
    · exact hstored hc

theorem runs_terminateOpen : c.terminateOpen.runs = c.runs := by
  unfold terminateOpen
  split <;> rfl

theorem runs_sendReliableFailureAndDisconnect (frame : TaskUpFrame) :
    (c.sendReliableFailureAndDisconnect opts frame).runs = c.runs := by
  unfold sendReliableFailureAndDisconnect
  repeat' split
  all_goals rfl

theorem runs_failReliableRun {r : RunRef} (hopen : (c.runs r).suppressed = false)
    (disconnect : Bool) : (c.failReliableRun opts r disconnect).runs = (c.suppressRun r).runs := by
  unfold failReliableRun
  simp only [hopen, Bool.false_eq_true, if_false]
  split
  · rw [runs_terminateOpen]
    split <;> rfl
  · split <;> rfl

/-- The frame that does not fit is not the one that takes the sequence number. -/
theorem sendTaskFrame_overflow {r : RunRef} {frame : TaskUpFrame} {executionId : String}
    (hexec : (c.runs r).executionId = some executionId) (hopen : (c.runs r).suppressed = false)
    (h : c.overflows opts (opts.size { frame with
      executionId := some executionId, seq := some (c.runs r).nextSeq })) :
    ((c.sendTaskFrame opts now r frame).runs r).suppressed ∧
      ((c.sendTaskFrame opts now r frame).runs r).sequenced = (c.runs r).sequenced ++
        [reliableFailure frame.taskId executionId (c.runs r).nextSeq bufferOverflowError] := by
  unfold sendTaskFrame
  simp only [hopen, Bool.false_eq_true, if_false, hexec, h, if_true]
  rw [runs_sendReliableFailureAndDisconnect,
    runs_failReliableRun opts _ (by simpa [modifyRun] using hopen)]
  simp [suppressRun, denyApprovals, modifyRun]

theorem preserves_replay (ws : WsId) {limit : Option ℕ}
    (hlimit : ∀ l ∈ limit, l = maxIngressBytes) (entries : List PendingFrame)
    (hentries : ∀ p ∈ entries, c.Retains opts e p) :
    c.Preserves opts e (replay opts ws limit c entries) := by
  induction entries generalizing c with
  | nil => exact .refl c
  | cons entry rest ih =>
      have hentry := hentries entry (List.mem_cons_self ..)
      unfold replay
      split
      · rename_i hlarge
        have hfails (t : Client) (hquiet : c.Quiet t) : c.Preserves opts e
            (t.sendReliableFailureAndDisconnect opts
              (reliableFailure entry.taskId entry.executionId entry.seq retainedFrameError)) := by
          refine hquiet.preserves.trans
            (preserves_sendReliableFailureAndDisconnect opts _ fun _ => ?_)
          intro hexec n hseq
          obtain rfl : entry.seq = n := Option.some.inj hseq
          obtain rfl : entry.executionId = e := Option.some.inj hexec
          refine .inr ⟨entry.taskId, entry.encoded, rfl,
            (hentry.sequenced rfl).mono hquiet.grows.kept, ?_, ?_⟩
          · obtain ⟨l, hl, hlt⟩ := Option.any_eq_true .. |>.mp hlarge
            rw [hlimit l hl] at hlt
            rw [← hentry.bytes]
            simpa using hlt
          · exact hentry.bytes ▸ hentry.fits
        refine hfails _ ?_
        split
        · exact (quiet_respects opts).failReliableRun c _ false
        · exact quiet_filterPending opts c _
      · intro hc
        have hsend : c.Preserves opts e
            (c.modifySocket ws (ClientSocket.send · (.task entry.encoded))) := by
          refine preserves_sendTo opts c ws fun hc => ?_
          intro hexec n hseq
          have heq : entry.executionId = e := Option.some.inj (hentry.encoded.symm.trans hexec)
          have hsequenced := hentry.sequenced heq
          obtain rfl : entry.seq = n :=
            Option.some.inj ((hc.numbered _ _ hsequenced).2.symm.trans hseq)
          exact .inl hsequenced
        obtain ⟨-, hgrows⟩ := hsend hc
        exact (hsend.trans (ih _ fun p hp =>
          (hentries p (List.mem_cons_of_mem _ hp)).mono hgrows.kept)) hc

end Write

/-! ## Everything a daemon does -/

section Actions

variable (opts : ClientOptions) (c : Client) (now : ℕ)

theorem preserves_flushPendingFrames (ws : WsId) :
    c.Preserves opts e (c.flushPendingFrames opts now ws) := by
  have hexpired : c.Preserves opts e (c.expirePendingFrames opts now) :=
    ((quiet_respects opts).expirePendingFrames c now).preserves
  unfold flushPendingFrames
  split
  · exact .refl c
  · simp only
    split
    · exact hexpired
    · intro hc
      obtain ⟨hc₁, -⟩ := hexpired hc
      exact (hexpired.trans (preserves_replay opts _ ws hc₁.limit _ hc₁.pending)) hc

theorem preserves_respects : RespectsFrames opts (Preserves opts e) where
  toRespectsDrops := (quiet_respects opts).lift Quiet.preserves Preserves.trans
  frame c now r _ hframe := preserves_sendTaskFrame opts c now r hframe
  tools _ _ _ := Quiet.preserves (quiet_of_eq rfl rfl rfl rfl fun _ => id)
  flush := preserves_flushPendingFrames opts

theorem runTask_eq (taskId : String) (executionId : Option String) :
    c.runTask opts taskId executionId =
      { c.replaced opts taskId with
        runs := Function.update (c.replaced opts taskId).runs (c.replaced opts taskId).nextRun
          { taskId := taskId, executionId := executionId
            approvals := (c.replaced opts taskId).approvalsReady }
        nextRun := (c.replaced opts taskId).nextRun + 1
        inflight := (c.replaced opts taskId).inflight.set taskId
          (c.replaced opts taskId).nextRun } := rfl

theorem runTask_runs (taskId : String) (executionId : Option String) (r : RunRef) :
    (c.runTask opts taskId executionId).runs r = if r = (c.replaced opts taskId).nextRun then
      { taskId := taskId, executionId := executionId
        approvals := (c.replaced opts taskId).approvalsReady } else
      (c.replaced opts taskId).runs r := by
  rw [runTask_eq]
  by_cases heq : r = (c.replaced opts taskId).nextRun <;> simp [heq]

/-- A run begins with nothing sequenced. It may be of the execution when no other run is. -/
theorem runTask_spec (taskId : String) (executionId : Option String)
    (hfresh : executionId = some e → ∀ r, (c.runs r).executionId ≠ some e)
    (hc : c.Outbox opts e) :
    (c.runTask opts taskId executionId).Outbox opts e ∧
      c.Keeps e (c.runTask opts taskId executionId) ∧
      ∀ r, ((c.runTask opts taskId executionId).runs r).executionId = some e →
        (c.runs r).executionId = some e ∨
        executionId = some e ∧ ((c.runTask opts taskId executionId).runs r).sequenced = [] := by
  have hquiet := (quiet_respects opts).replaced c taskId
  obtain ⟨hd, hgrows⟩ := hquiet.preserves hc
  have hruns := runTask_runs opts c taskId executionId
  set d := c.replaced opts taskId with hd'
  set c' := c.runTask opts taskId executionId with hc'
  have hnew {r r' : RunRef} (hr : r = d.nextRun) (hexec : (c'.runs r).executionId = some e)
      (hexec' : (c'.runs r').executionId = some e) : r' = d.nextRun := by
    by_contra hne
    rw [hruns, if_pos hr] at hexec
    rw [hruns, if_neg hne] at hexec'
    exact hfresh hexec r' (hgrows.born r' hexec')
  have hkeeps : d.Keeps e c' := by
    intro r hr
    have hne : r ≠ d.nextRun := by
      rintro rfl
      simp [hd.unborn _ (le_refl _)] at hr
    rw [hruns, if_neg hne]
    exact ⟨hr, .refl _⟩
  refine ⟨⟨?_, ?_, ?_, ?_, ?_, ?_, ?_⟩, ?_, ?_⟩
  · intro r hr
    have hlt : d.nextRun < r := hr
    rw [hruns, if_neg hlt.ne']
    exact hd.unborn r hlt.le
  · intro r
    rw [hruns]
    split
    · rfl
    · exact hd.counted r
  · intro r r' hr hr'
    by_cases heq : r = d.nextRun
    · exact heq.trans (hnew heq hr hr').symm
    by_cases heq' : r' = d.nextRun
    · exact (hnew heq' hr' hr).trans heq'.symm
    · rw [hruns, if_neg heq] at hr
      rw [hruns, if_neg heq'] at hr'
      exact hd.unique r r' hr hr'
  · rintro n frame ⟨r, hr, hframe⟩
    rw [hruns] at hr hframe
    split at hr
    · simp_all
    · rename_i hne
      rw [if_neg hne] at hframe
      exact hd.numbered n frame ⟨r, hr, hframe⟩
  · exact fun p hp => (hd.pending p hp).mono hkeeps
  · exact fun ws frame hsent => (hd.sent ws frame hsent).mono hkeeps
  · exact hd.limit
  · exact hgrows.kept.trans hkeeps
  · intro r hr
    rw [hruns] at hr ⊢
    split at hr
    · rename_i heq
      exact .inr ⟨hr, by rw [if_pos heq]⟩
    · exact .inl (hgrows.born r hr)

theorem preserves_runTask (taskId : String) {executionId : Option String}
    (hother : executionId ≠ some e) :
    c.Preserves opts e (c.runTask opts taskId executionId) := by
  intro hc
  obtain ⟨houtbox, hkeeps, hborn⟩ :=
    runTask_spec opts c taskId executionId (fun h => absurd h hother) hc
  refine ⟨houtbox, hkeeps, fun r hr => ?_⟩
  obtain hold | ⟨h, -⟩ := hborn r hr
  · exact hold
  · exact absurd h hother

/-- The first assignment of the execution. -/
theorem assigned_onMessage (ws : WsId) {taskId contextId : String} {executionId : Option String}
    {message : AssignMessage} {requestedExtensions : Option (List String)}
    {caller scope : Option JsonObject}
    (hunborn : ∀ r, (c.runs r).executionId ≠ some e) (hc : c.Outbox opts e) :
    (c.onMessage opts now ws (.taskAssign taskId executionId contextId message requestedExtensions
      caller scope)).Outbox opts e ∧
    c.Keeps e (c.onMessage opts now ws (.taskAssign taskId executionId contextId message
      requestedExtensions caller scope)) := by
  have hkeeps (c' : Client) : c.Keeps e c' := fun r hr => absurd hr (hunborn r)
  refine ⟨?_, hkeeps _⟩
  unfold onMessage onTaskAssign
  simp only
  split
  · exact hc
  split
  · exact (((quiet_respects opts).giveUp c).preserves hc).1
  · have hset : c.Preserves opts e
        (if executionId = none then { c with replayReady := false } else c) := by
      split
      · exact Quiet.preserves (quiet_of_eq rfl rfl rfl rfl fun _ => id)
      · exact .refl c
    obtain ⟨hset, hgrows⟩ := hset hc
    exact (runTask_spec opts _ taskId executionId
      (fun _ r hr => hunborn r (hgrows.born r hr)) hset).1

theorem preserves_limit {maxFrameBytes : ℕ} (hlimit : maxFrameBytes = maxIngressBytes) :
    c.Preserves opts e
      { c with replayReady := true, negotiatedMaxFrameBytes := some maxFrameBytes } := by
  intro hc
  have hgrows : c.Grows e
      { c with replayReady := true, negotiatedMaxFrameBytes := some maxFrameBytes } :=
    ⟨fun _ hr => ⟨hr, .refl _⟩, fun _ hr => hr⟩
  refine ⟨⟨hc.unborn, hc.counted, hc.unique, hc.numbered,
    fun p hp => (hc.pending p hp).mono hgrows.kept, hc.sent, ?_⟩, hgrows⟩
  intro limit hmem
  exact (Option.some.inj hmem).symm.trans hlimit

theorem preserves_onMessage (ws : WsId) {frame : DownFrame} (hframe : frame.Expected)
    (hassign : frame.assigns e = false) : c.Preserves opts e (c.onMessage opts now ws frame) := by
  have hrespects : RespectsFrames opts (Preserves opts e) := preserves_respects opts
  unfold onMessage
  split
  · exact .refl c
  cases frame with
  | approvalResolve taskId executionId requestId decision =>
      simp only
      split
      · exact hrespects.resolveApproval c now _ _ _ _
      · exact .refl c
  | helloAck capabilities graceMs maxFrameBytes =>
      exact hrespects.denials.onHelloAck c now ws capabilities
        fun c₁ => preserves_limit opts c₁ hframe
  | taskAck taskId executionId acceptedSeq => exact (quiet_filterPending opts c _).preserves
  | taskAssign taskId executionId contextId message requestedExtensions caller scope =>
      refine hrespects.denials.onTaskAssign c scope fun c₁ _ => preserves_runTask opts c₁ taskId ?_
      simpa [DownFrame.assigns] using hassign
  | taskCancel taskId executionId => exact hrespects.denials.cancelTask c now taskId executionId
  | ping => exact hrespects.send c (by simp)
  | usageRequest requestId => exact .refl c

theorem preserves_apply (a : ClientAction) : c.Preserves opts e (c.apply opts a) := by
  have hrespects : RespectsFrames opts (Preserves opts e) := preserves_respects opts
  refine hrespects.denials.apply c a ?_ fun ws code => hrespects.onClose c ws code
    fun c₁ _ _ => (quiet_suppressAll c₁ _).preserves
  rintro now run inputBytes request rfl
  exact hrespects.requestApproval c now run inputBytes request

end Actions

end Client

end VicoopBridge
