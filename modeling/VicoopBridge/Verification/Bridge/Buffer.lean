import Mathlib.Algebra.Order.BigOperators.Group.List
import Mathlib.Algebra.Order.Ring.Nat
import VicoopBridge.Verification.Bridge.Outbox

/-! # The daemon's buffer of unacknowledged frames

Frames leave the buffer from the front of their execution or all at once, and a run that is
suppressed leaves nothing behind. -/

namespace VicoopBridge

open Library

/-! ## Lists of consecutive numbers -/

theorem suffix_range' {l : List ℕ} {start n : ℕ} (h : l <:+ List.range' start n) :
    ∃ k ≤ n, l = List.range' (start + k) (n - k) := by
  obtain ⟨front, hfront⟩ := h
  obtain ⟨k, hk, -, hl⟩ := List.range'_eq_append_iff.mp hfront.symm
  exact ⟨k, hk, by simpa using hl⟩

theorem filter_suffix_of_sorted {entries : List PendingFrame}
    (h : entries.Pairwise fun p q : PendingFrame => p.seq < q.seq) (accepted : ℕ) :
    entries.filter (fun p => accepted < p.seq) <:+ entries := by
  induction entries with
  | nil => exact List.suffix_refl _
  | cons p rest ih =>
      obtain ⟨hfirst, hrest⟩ := List.pairwise_cons.mp h
      by_cases hp : accepted < p.seq
      · have hall : (p :: rest).filter (fun p => decide (accepted < p.seq)) = p :: rest := by
          refine List.filter_eq_self.mpr fun q hq => ?_
          rcases List.mem_cons.mp hq with rfl | hq
          · simpa using hp
          · simpa using lt_trans hp (hfirst q hq)
        rw [hall]
      · rw [List.filter_cons_of_neg (by simpa using hp)]
        exact (ih hrest).trans (List.suffix_cons _ _)

namespace Client

/-! ## The invariant -/

def retainedOf (c : Client) (e : String) : List PendingFrame :=
  c.pendingFrames.filter fun p => p.executionId = e

structure Buffer (opts : ClientOptions) (c : Client) : Prop where
  unborn : ∀ r, c.nextRun ≤ r → (c.runs r).executionId = none
  unique : ∀ e r r', (c.runs r).executionId = some e → (c.runs r').executionId = some e → r = r'
  bytes : c.pendingBytes = (c.pendingFrames.map PendingFrame.bytes).sum
  count : c.pendingFrames.length ≤ opts.maxPendingFrames
  size : (c.pendingFrames.map PendingFrame.bytes).sum ≤ opts.maxPendingBytes
  enabled : c.pendingFrames ≠ [] → pendingRetentionEnabled opts
  live : ∀ p ∈ c.pendingFrames, ∃ r, (c.runs r).executionId = some p.executionId ∧
    (c.runs r).suppressed = false
  /-- What is retained of an execution are the last frames of its run. -/
  contiguous : ∀ r e, (c.runs r).executionId = some e → ∃ start ≤ (c.runs r).nextSeq,
    (c.retainedOf e).map PendingFrame.seq = List.range' start ((c.runs r).nextSeq - start)

/-- Frames that are retained and were not before come after everything sequenced before. -/
structure Ages (c c' : Client) : Prop where
  runs : ∀ r e, (c.runs r).executionId = some e →
    (c'.runs r).executionId = some e ∧ (c.runs r).nextSeq ≤ (c'.runs r).nextSeq
  pending : ∀ p ∈ c'.pendingFrames, ∀ r, (c.runs r).executionId = some p.executionId →
    p ∈ c.pendingFrames ∨ (c.runs r).nextSeq ≤ p.seq

def KeepsBuffer (opts : ClientOptions) (c c' : Client) : Prop :=
  c.Buffer opts → c'.Buffer opts ∧ c.Ages c'

variable {opts : ClientOptions} {c c' c'' : Client}

theorem Ages.refl (c : Client) : c.Ages c := ⟨fun _ _ h => ⟨h, le_rfl⟩, fun _ h _ _ => .inl h⟩

theorem Ages.trans (h : c.Ages c') (h' : c'.Ages c'') : c.Ages c'' where
  runs r e hr := by
    obtain ⟨hr', hle⟩ := h.runs r e hr
    obtain ⟨hr'', hle'⟩ := h'.runs r e hr'
    exact ⟨hr'', le_trans hle hle'⟩
  pending p hp r hr := by
    obtain ⟨hr', hle⟩ := h.runs r _ hr
    obtain hold | hnew := h'.pending p hp r hr'
    · exact h.pending p hold r hr
    · exact .inr (le_trans hle hnew)

theorem KeepsBuffer.refl (c : Client) : c.KeepsBuffer opts c := fun h => ⟨h, .refl c⟩

theorem KeepsBuffer.trans (h : c.KeepsBuffer opts c') (h' : c'.KeepsBuffer opts c'') :
    c.KeepsBuffer opts c'' := by
  intro hc
  obtain ⟨hc', hages⟩ := h hc
  obtain ⟨hc'', hages'⟩ := h' hc'
  exact ⟨hc'', hages.trans hages'⟩

theorem Buffer.sorted (hc : c.Buffer opts) (e : String) :
    (c.retainedOf e).Pairwise fun p q : PendingFrame => p.seq < q.seq := by
  cases hretained : c.retainedOf e with
  | nil => exact List.Pairwise.nil
  | cons p rest =>
      have hp : p ∈ c.retainedOf e := by simp [hretained]
      obtain ⟨hp, hexec⟩ := List.mem_filter.mp hp
      obtain ⟨r, hr, -⟩ := hc.live p hp
      obtain ⟨start, -, hseqs⟩ := hc.contiguous r e (by simpa [of_decide_eq_true hexec] using hr)
      rw [← hretained, ← List.pairwise_map (f := PendingFrame.seq) (R := fun a b => a < b), hseqs]
      exact List.pairwise_lt_range'

/-- Frames have been dropped, and those of the runs that have been suppressed. -/
structure Sheds (c c' : Client) : Prop where
  executionId : ∀ r, (c'.runs r).executionId = (c.runs r).executionId
  nextSeq : ∀ r, (c'.runs r).nextSeq = (c.runs r).nextSeq
  nextRun : c'.nextRun = c.nextRun
  bytes : c.pendingBytes = (c.pendingFrames.map PendingFrame.bytes).sum →
    c'.pendingBytes = (c'.pendingFrames.map PendingFrame.bytes).sum
  sublist : c'.pendingFrames.Sublist c.pendingFrames
  suffix : ∀ e, c'.retainedOf e <:+ c.retainedOf e
  suppressed : ∀ r, (c'.runs r).suppressed → (c.runs r).suppressed ∨
    ∀ p ∈ c'.pendingFrames, (c.runs r).executionId ≠ some p.executionId

theorem Sheds.keepsBuffer (h : c.Sheds c') : c.KeepsBuffer opts c' := by
  intro hc
  refine ⟨?_, fun r e hr => ⟨(h.executionId r).trans hr, (h.nextSeq r).ge⟩,
    fun p hp _ _ => .inl (h.sublist.mem hp)⟩
  constructor
  case unborn => exact fun r hr => (h.executionId r).trans (hc.unborn r (h.nextRun ▸ hr))
  case unique =>
      intro e r r' hr hr'
      exact hc.unique e r r' ((h.executionId r).symm.trans hr) ((h.executionId r').symm.trans hr')
  case bytes => exact h.bytes hc.bytes
  case count => exact le_trans h.sublist.length_le hc.count
  case size =>
      have hsum := (h.sublist.map PendingFrame.bytes).sum_le_sum fun _ _ => Nat.zero_le _
      exact le_trans hsum hc.size
  case enabled =>
      intro hsome
      refine hc.enabled ?_
      rintro hnone
      exact hsome (List.sublist_nil.mp (hnone ▸ h.sublist))
  case live =>
      intro p hp
      obtain ⟨r, hr, hopen⟩ := hc.live p (h.sublist.mem hp)
      refine ⟨r, (h.executionId r).trans hr, ?_⟩
      by_contra hsuppressed
      rw [Bool.not_eq_false] at hsuppressed
      obtain hold | hdropped := h.suppressed r hsuppressed
      · simp [hopen] at hold
      · exact hdropped p hp hr
  case contiguous =>
      intro r e hr
      rw [h.nextSeq]
      obtain ⟨start, hstart, hseqs⟩ := hc.contiguous r e ((h.executionId r).symm.trans hr)
      have hsuffix : (c'.retainedOf e).map PendingFrame.seq <:+
          List.range' start ((c.runs r).nextSeq - start) := hseqs ▸ (h.suffix e).map _
      obtain ⟨k, hk, hrange⟩ := suffix_range' hsuffix
      refine ⟨start + k, by omega, ?_⟩
      rw [hrange, Nat.sub_add_eq]

theorem Sheds.trans (h : c.Sheds c') (h' : c'.Sheds c'') : c.Sheds c'' where
  executionId r := (h'.executionId r).trans (h.executionId r)
  nextSeq r := (h'.nextSeq r).trans (h.nextSeq r)
  nextRun := h'.nextRun.trans h.nextRun
  bytes := h'.bytes ∘ h.bytes
  sublist := h'.sublist.trans h.sublist
  suffix e := (h'.suffix e).trans (h.suffix e)
  suppressed r hr := by
    obtain hold | hdropped := h'.suppressed r hr
    · exact (h.suppressed r hold).imp_right fun hnone p hp => hnone p (h'.sublist.mem hp)
    · refine .inr fun p hp => ?_
      rw [← h.executionId r]
      exact hdropped p hp

/-- Nothing that the buffer depends on is different. -/
theorem sheds_of_eq (hruns : ∀ r, (c'.runs r).executionId = (c.runs r).executionId ∧
      (c'.runs r).nextSeq = (c.runs r).nextSeq ∧ (c'.runs r).suppressed = (c.runs r).suppressed)
    (hnext : c'.nextRun = c.nextRun) (hpending : c'.pendingFrames = c.pendingFrames)
    (hbytes : c'.pendingBytes = c.pendingBytes) : c.Sheds c' where
  executionId r := (hruns r).1
  nextSeq r := (hruns r).2.1
  nextRun := hnext
  bytes h := by rw [hpending, hbytes, h]
  sublist := hpending ▸ List.Sublist.refl _
  suffix e := by
    rw [retainedOf, retainedOf, hpending]
  suppressed r hr := .inl ((hruns r).2.2 ▸ hr)

theorem Sheds.refl (c : Client) : c.Sheds c := sheds_of_eq (fun _ => ⟨rfl, rfl, rfl⟩) rfl rfl rfl

/-! ## Dropping frames -/

section Drop

variable (opts : ClientOptions) (c : Client)

theorem retainedOf_filterPending (keep : PendingFrame → Bool) (e : String) :
    (c.filterPending opts keep).retainedOf e = (c.retainedOf e).filter keep := by
  simp only [retainedOf, filterPending, schedulePendingExpiry, List.filter_filter]
  exact List.filter_congr fun _ _ => Bool.and_comm _ _

theorem sum_bytes_filter (keep : PendingFrame → Bool) (entries : List PendingFrame) :
    (((entries.filter fun p => !keep p).map fun p => (p.bytes : ℤ)).sum : ℤ) +
      ((entries.filter keep).map PendingFrame.bytes).sum =
        (entries.map PendingFrame.bytes).sum := by
  induction entries with
  | nil => rfl
  | cons p rest ih =>
      cases hp : keep p <;> simp [hp] at ih ⊢ <;> omega

/-- What is kept of an execution are its last frames. -/
theorem sheds_filterPending (keep : PendingFrame → Bool)
    (hkeep : ∀ e, (c.retainedOf e).filter keep <:+ c.retainedOf e) :
    c.Sheds (c.filterPending opts keep) :=
  { Sheds.refl c with
    bytes := fun hbytes => by
      have hsum := sum_bytes_filter keep c.pendingFrames
      simp only [filterPending, schedulePendingExpiry]
      omega
    sublist := List.filter_sublist
    suffix := fun e => by
      rw [retainedOf_filterPending]
      exact hkeep e
    suppressed := fun _ hr => .inl hr }

theorem sheds_removePendingExecution (executionId : String) :
    c.Sheds (c.removePendingExecution opts executionId) := by
  refine sheds_filterPending opts c _ fun e => ?_
  by_cases heq : e = executionId
  · have hnone : (c.retainedOf e).filter (fun p => decide (p.executionId ≠ executionId)) = [] := by
      refine List.filter_eq_nil_iff.mpr fun p hp => ?_
      simpa [heq] using (List.mem_filter.mp hp).2
    rw [hnone]
    exact List.nil_suffix
  · have hall : (c.retainedOf e).filter (fun p => decide (p.executionId ≠ executionId)) =
        c.retainedOf e := by
      refine List.filter_eq_self.mpr fun p hp => ?_
      have hexec : p.executionId = e := by simpa using (List.mem_filter.mp hp).2
      simpa [hexec] using heq
    rw [hall]

theorem keepsBuffer_acknowledgeFrames (executionId : String) (acceptedSeq : ℕ) :
    c.KeepsBuffer opts (c.acknowledgeFrames opts executionId acceptedSeq) := by
  intro hc
  refine (sheds_filterPending opts c _ fun e => ?_).keepsBuffer hc
  by_cases heq : e = executionId
  · have hlate : (c.retainedOf e).filter
          (fun p => decide (p.executionId ≠ executionId ∨ p.seq > acceptedSeq)) =
        (c.retainedOf e).filter fun p => decide (acceptedSeq < p.seq) := by
      refine List.filter_congr fun p hp => ?_
      have hexec : p.executionId = e := by simpa using (List.mem_filter.mp hp).2
      simp [hexec, heq]
    rw [hlate]
    exact filter_suffix_of_sorted (hc.sorted e) acceptedSeq
  · have hall : (c.retainedOf e).filter
          (fun p => decide (p.executionId ≠ executionId ∨ p.seq > acceptedSeq)) =
        c.retainedOf e := by
      refine List.filter_eq_self.mpr fun p hp => ?_
      have hexec : p.executionId = e := by simpa using (List.mem_filter.mp hp).2
      simp [hexec, heq]
    rw [hall]

theorem sheds_dropPendingFrames : c.Sheds c.dropPendingFrames :=
  { Sheds.refl c with
    bytes := fun _ => rfl
    sublist := List.nil_sublist _
    suffix := fun _ => List.nil_suffix
    suppressed := fun _ hr => .inl hr }

theorem sheds_modifyRun (r : RunRef) {f : ClientRun → ClientRun}
    (hf : ∀ run, (f run).executionId = run.executionId ∧ (f run).nextSeq = run.nextSeq ∧
      (f run).suppressed = run.suppressed) :
    c.Sheds (c.modifyRun r f) := by
  refine sheds_of_eq (fun r' => ?_) rfl rfl rfl
  by_cases heq : r' = r
  · subst heq
    simpa [modifyRun] using hf _
  · simp [modifyRun, heq]

/-- A run of which nothing is retained. -/
theorem sheds_suppressRun (r : RunRef)
    (hnone : ∀ p ∈ c.pendingFrames, (c.runs r).executionId ≠ some p.executionId) :
    c.Sheds (c.suppressRun r) := by
  have hrun (r' : RunRef) : (c.suppressRun r).runs r' = if r' = r then
      { c.runs r with suppressed := true, aborted := true } else c.runs r' := by
    by_cases heq : r' = r <;> simp [suppressRun, denyApprovals, modifyRun, heq]
  refine { Sheds.refl c with executionId := ?_, nextSeq := ?_, suppressed := ?_ }
  · intro r'
    rw [hrun]
    split <;> simp_all
  · intro r'
    rw [hrun]
    split <;> simp_all
  · intro r' hr
    rw [hrun] at hr
    split at hr
    · rename_i heq
      exact .inr (heq ▸ hnone)
    · exact .inl hr

/-- Which of the two comes first makes no difference. -/
theorem suppressRun_removePendingExecution (r : RunRef) (executionId : String) :
    (c.suppressRun r).removePendingExecution opts executionId =
      (c.removePendingExecution opts executionId).suppressRun r := rfl

theorem mem_removePendingExecution {executionId : String} {p : PendingFrame}
    (hp : p ∈ (c.removePendingExecution opts executionId).pendingFrames) :
    p.executionId ≠ executionId := by
  simpa using (List.mem_filter.mp hp).2

theorem sheds_suppressRun_removePendingExecution {r : RunRef} {executionId : String}
    (hr : (c.runs r).executionId = some executionId) :
    c.Sheds ((c.suppressRun r).removePendingExecution opts executionId) := by
  rw [suppressRun_removePendingExecution]
  refine (sheds_removePendingExecution opts c executionId).trans (sheds_suppressRun _ r ?_)
  intro p hp hexec
  exact mem_removePendingExecution opts c hp (Option.some.inj (hexec.symm.trans hr))

theorem sheds_suppressAll {rs : List RunRef}
    (hnone : ∀ r ∈ rs, ∀ p ∈ c.pendingFrames, (c.runs r).executionId ≠ some p.executionId) :
    c.Sheds (c.suppressAll rs) := by
  induction rs generalizing c with
  | nil => exact .refl c
  | cons r rest ih =>
      have hfirst := sheds_suppressRun c r (hnone r (List.mem_cons_self ..))
      refine hfirst.trans (ih _ fun r' hr' p hp => ?_)
      rw [hfirst.executionId]
      exact hnone r' (List.mem_cons_of_mem _ hr') p hp

theorem suppressAll_dropPendingFrames (rs : List RunRef) :
    (c.suppressAll rs).dropPendingFrames = c.dropPendingFrames.suppressAll rs := by
  induction rs generalizing c with
  | nil => rfl
  | cons r rest ih => exact ih (c.suppressRun r)

theorem sheds_suppressAll_dropPendingFrames (rs : List RunRef) :
    c.Sheds (c.suppressAll rs).dropPendingFrames := by
  rw [suppressAll_dropPendingFrames]
  refine (sheds_dropPendingFrames c).trans (sheds_suppressAll _ fun _ _ p hp => ?_)
  exact absurd hp List.not_mem_nil

end Drop

theorem sheds_respects (opts : ClientOptions) : RespectsWrites opts Sheds where
  refl := Sheds.refl
  trans := Sheds.trans
  flags h := sheds_of_eq (fun _ => by simp [h.runs]) h.nextRun h.pending h.bytes
  socket _ _ _ _ := sheds_of_eq (fun _ => ⟨rfl, rfl, rfl⟩) rfl rfl rfl
  run c r _ _ := sheds_modifyRun c r (by simp)
  retire c r := by
    unfold retire
    split
    · exact sheds_suppressRun_removePendingExecution opts c ‹_›
    · rename_i hnone
      exact sheds_suppressRun c r (by simp [hnone])
  remove := sheds_removePendingExecution opts
  drop := sheds_suppressAll_dropPendingFrames
  write _ _ _ := sheds_of_eq (fun _ => ⟨rfl, rfl, rfl⟩) rfl rfl rfl

/-! ## Sequencing and retaining frames -/

/-- How a run takes a sequence number. -/
def Sequences (r : RunRef) (c c' : Client) : Prop :=
  ∀ r', (c'.runs r').executionId = (c.runs r').executionId ∧
    (c'.runs r').suppressed = (c.runs r').suppressed ∧
    (c'.runs r').nextSeq = if r' = r then (c.runs r).nextSeq + 1 else (c.runs r').nextSeq

theorem sequences_modifyRun (c : Client) (r : RunRef) (frame : TaskUpFrame) :
    c.Sequences r (c.modifyRun r fun run => { run with
      nextSeq := (c.runs r).nextSeq + 1, sequenced := run.sequenced ++ [frame] }) := by
  intro r'
  rw [runs_modifyRun]
  split
  · rename_i heq
    subst heq
    simp
  · simp

theorem Sequences.le {r : RunRef} (h : c.Sequences r c') (r' : RunRef) :
    (c.runs r').nextSeq ≤ (c'.runs r').nextSeq := by
  obtain ⟨-, -, hseq⟩ := h r'
  rw [hseq]
  split
  · rename_i heq
    subst heq
    omega
  · exact le_rfl

/-- A number that no retained frame follows on. -/
theorem Sequences.keepsBuffer {r : RunRef} (h : c.Sequences r c') (hnext : c'.nextRun = c.nextRun)
    (hpending : c'.pendingFrames = c.pendingFrames) (hbytes : c'.pendingBytes = c.pendingBytes)
    (hnone : ∀ p ∈ c.pendingFrames, (c.runs r).executionId ≠ some p.executionId) :
    c.KeepsBuffer opts c' := by
  intro hc
  have hexec (r' : RunRef) : (c'.runs r').executionId = (c.runs r').executionId := (h r').1
  refine ⟨?_, fun r' e hr' => ⟨(hexec r').trans hr', h.le r'⟩,
    fun p hp _ _ => .inl (hpending ▸ hp)⟩
  constructor
  case unborn => exact fun r' hr' => (hexec r').trans (hc.unborn r' (hnext ▸ hr'))
  case unique =>
      intro e r₁ r₂ hr₁ hr₂
      exact hc.unique e r₁ r₂ ((hexec r₁).symm.trans hr₁) ((hexec r₂).symm.trans hr₂)
  case bytes => rw [hbytes, hpending, hc.bytes]
  case count => exact hpending ▸ hc.count
  case size => exact hpending ▸ hc.size
  case enabled => exact hpending ▸ hc.enabled
  case live =>
      intro p hp
      obtain ⟨r', hr', hopen⟩ := hc.live p (hpending ▸ hp)
      exact ⟨r', (hexec r').trans hr', (h r').2.1.trans hopen⟩
  case contiguous =>
      intro r' e hr'
      rw [hexec] at hr'
      rw [(h r').2.2, retainedOf, hpending]
      obtain ⟨start, hstart, hseqs⟩ := hc.contiguous r' e hr'
      split
      · rename_i heq
        subst heq
        have hempty : c.retainedOf e = [] := by
          refine List.filter_eq_nil_iff.mpr fun p hp heq => hnone p hp ?_
          rw [hr', of_decide_eq_true heq]
        refine ⟨(c.runs r').nextSeq + 1, le_rfl, ?_⟩
        rw [retainedOf] at hempty
        simp [hempty]
      · exact ⟨start, hstart, hseqs⟩

/-- A frame that still fits. -/
theorem Sequences.keepsBuffer_retain {r : RunRef} (h : c.Sequences r c')
    (hnext : c'.nextRun = c.nextRun) {entry : PendingFrame}
    (hexec : (c.runs r).executionId = some entry.executionId)
    (hopen : (c.runs r).suppressed = false) (hseq : entry.seq = (c.runs r).nextSeq)
    (hpending : c'.pendingFrames = c.pendingFrames ++ [entry])
    (hbytes : c'.pendingBytes = c.pendingBytes + entry.bytes)
    (henabled : pendingRetentionEnabled opts)
    (hcount : c.pendingFrames.length < opts.maxPendingFrames)
    (hsize : c.pendingBytes + entry.bytes ≤ opts.maxPendingBytes) :
    c.KeepsBuffer opts c' := by
  intro hc
  have hexecs (r' : RunRef) : (c'.runs r').executionId = (c.runs r').executionId := (h r').1
  have hsum : (c'.pendingFrames.map PendingFrame.bytes).sum =
      (c.pendingFrames.map PendingFrame.bytes).sum + entry.bytes := by
    simp [hpending]
  have hold := hc.bytes
  refine ⟨?_, fun r' e hr' => ⟨(hexecs r').trans hr', h.le r'⟩, fun p hp r' hr' => ?_⟩
  case refine_2 =>
      rcases List.mem_append.mp (hpending ▸ hp) with hp | hp
      · exact .inl hp
      · obtain rfl := List.mem_singleton.mp hp
        rw [hc.unique _ r' r hr' hexec, hseq]
        exact .inr le_rfl
  constructor
  case unborn => exact fun r' hr' => (hexecs r').trans (hc.unborn r' (hnext ▸ hr'))
  case unique =>
      intro e r₁ r₂ hr₁ hr₂
      exact hc.unique e r₁ r₂ ((hexecs r₁).symm.trans hr₁) ((hexecs r₂).symm.trans hr₂)
  case bytes => omega
  case count =>
      rw [hpending, List.length_append]
      exact hcount
  case size => omega
  case enabled => exact fun _ => henabled
  case live =>
      intro p hp
      rcases List.mem_append.mp (hpending ▸ hp) with hp | hp
      · obtain ⟨r', hr', hopen'⟩ := hc.live p hp
        exact ⟨r', (hexecs r').trans hr', (h r').2.1.trans hopen'⟩
      · obtain rfl := List.mem_singleton.mp hp
        exact ⟨r, (hexecs r).trans hexec, (h r).2.1.trans hopen⟩
  case contiguous =>
      intro r' e hr'
      rw [hexecs] at hr'
      obtain ⟨start, hstart, hseqs⟩ := hc.contiguous r' e hr'
      rw [(h r').2.2, retainedOf, hpending, List.filter_append, List.map_append]
      change (c.retainedOf e).map _ = _ at hseqs
      by_cases heq : r' = r
      · subst heq
        obtain rfl : entry.executionId = e := Option.some.inj (hexec.symm.trans hr')
        refine ⟨start, by simp; omega, ?_⟩
        have hlast : (c.runs r').nextSeq = start + ((c.runs r').nextSeq - start) := by omega
        have hmore : (c.runs r').nextSeq + 1 - start = (c.runs r').nextSeq - start + 1 := by omega
        rw [if_pos rfl, hmore, List.range'_1_concat, ← hseqs, ← hlast]
        simp [retainedOf, hseq]
      · have hother : entry.executionId ≠ e := fun hsame =>
          heq (hc.unique e r' r hr' (hsame ▸ hexec))
        refine ⟨start, by rw [if_neg heq]; exact hstart, ?_⟩
        rw [if_neg heq, ← hseqs]
        simp [retainedOf, hother]

/-! ## Everything a daemon does -/

section Actions

variable (opts : ClientOptions) (c : Client) (now : ℕ)

theorem failReliableRun_modifyRun {r : RunRef} (hopen : (c.runs r).suppressed = false)
    (seq : ℕ) (frame : TaskUpFrame) :
    (c.modifyRun r fun run => { run with
        nextSeq := seq, sequenced := run.sequenced ++ [frame] }).failReliableRun opts r false =
      (c.failReliableRun opts r false).modifyRun r fun run => { run with
        nextSeq := seq, sequenced := run.sequenced ++ [frame] } := by
  cases hexec : (c.runs r).executionId <;>
    simp [failReliableRun, suppressRun, denyApprovals, modifyRun, removePendingExecution,
      filterPending, schedulePendingExpiry, hopen, hexec]

theorem pendingFrames_failReliableRun {r : RunRef} (hopen : (c.runs r).suppressed = false)
    {executionId : String} (hexec : (c.runs r).executionId = some executionId) :
    (c.failReliableRun opts r false).pendingFrames =
      (c.removePendingExecution opts executionId).pendingFrames := by
  simp [failReliableRun, suppressRun, denyApprovals, modifyRun, removePendingExecution,
    filterPending, schedulePendingExpiry, hopen, hexec]

theorem keepsBuffer_sendTaskFrame (r : RunRef) (frame : TaskUpFrame) :
    c.KeepsBuffer opts (c.sendTaskFrame opts now r frame) := by
  unfold sendTaskFrame
  simp only
  split
  · exact .refl c
  rename_i hopen
  rw [Bool.not_eq_true] at hopen
  split
  · exact ((sheds_respects opts).send c _).keepsBuffer
  rename_i executionId hexec
  split
  · -- Everything retained of the run goes before the failure takes its number.
    refine KeepsBuffer.trans ?_
      ((sheds_respects opts).sendReliableFailureAndDisconnect _ _).keepsBuffer
    have hfailed := (sheds_respects opts).failReliableRun c r false
    rw [failReliableRun_modifyRun opts c hopen, ← hfailed.nextSeq r]
    refine hfailed.keepsBuffer.trans ?_
    refine (sequences_modifyRun _ r _).keepsBuffer rfl rfl rfl fun p hp hsame => ?_
    rw [pendingFrames_failReliableRun opts c hopen hexec] at hp
    rw [hfailed.executionId, hexec] at hsame
    exact mem_removePendingExecution opts c hp (Option.some.inj hsame).symm
  · rename_i hfits
    intro hc
    set reliableFrame : TaskUpFrame :=
      { frame with executionId := some executionId, seq := some (c.runs r).nextSeq }
    have hsequences := sequences_modifyRun c r reliableFrame
    set c₁ := c.modifyRun r fun run => { run with
      nextSeq := (c.runs r).nextSeq + 1, sequenced := run.sequenced ++ [reliableFrame] }
    set c₂ := if pendingRetentionEnabled opts then
        schedulePendingExpiry opts { c₁ with
          pendingFrames := c₁.pendingFrames ++ [{
            taskId := frame.taskId, executionId := executionId, seq := (c.runs r).nextSeq
            encoded := reliableFrame, bytes := opts.size reliableFrame, createdAt := now }]
          pendingBytes := c₁.pendingBytes + opts.size reliableFrame } else c₁ with hc₂
    have hretained : c.KeepsBuffer opts c₂ := by
      rw [hc₂]
      split
      · rename_i henabled
        simp only [overflows, henabled, Bool.or_eq_true, Bool.and_eq_true, decide_eq_true_eq]
          at hfits
        push Not at hfits
        obtain ⟨⟨-, hcount⟩, hsize⟩ := hfits.2 trivial
        exact Sequences.keepsBuffer_retain (r := r) (c := c) hsequences rfl hexec hopen rfl rfl
          rfl henabled hcount hsize
      · rename_i hdisabled
        have hnone : c.pendingFrames = [] := by
          by_contra hsome
          exact hdisabled (hc.enabled hsome)
        exact hsequences.keepsBuffer rfl rfl rfl (by simp [hnone])
    split
    · exact (hretained.trans ((sheds_respects opts).send c₂ _).keepsBuffer) hc
    · exact hretained hc

theorem keepsBuffer_respects : RespectsFrames opts (KeepsBuffer opts) where
  toRespectsDrops := (sheds_respects opts).lift Sheds.keepsBuffer KeepsBuffer.trans
  frame c now r frame _ := keepsBuffer_sendTaskFrame opts c now r frame
  tools _ _ _ := Sheds.keepsBuffer (sheds_of_eq (fun _ => ⟨rfl, rfl, rfl⟩) rfl rfl rfl)
  flush c now ws := ((sheds_respects opts).flushPendingFrames c now ws).keepsBuffer

/-- Nothing can be retained of an execution that no run had yet. -/
theorem keepsBuffer_runTask (taskId : String) {executionId : Option String}
    (hfresh : ∀ r e, (c.runs r).executionId = some e → executionId ≠ some e) :
    c.KeepsBuffer opts (c.runTask opts taskId executionId) := by
  have hreplaced : c.Sheds (c.replaced opts taskId) := (sheds_respects opts).replaced c taskId
  have hruns := runTask_runs opts c taskId executionId
  refine hreplaced.keepsBuffer.trans ?_
  have hfresh' (r : RunRef) (e : String)
      (hr : ((c.replaced opts taskId).runs r).executionId = some e) : executionId ≠ some e :=
    hfresh r e ((hreplaced.executionId r).symm.trans hr)
  set d := c.replaced opts taskId
  set c' := c.runTask opts taskId executionId with hc'
  have hpending : c'.pendingFrames = d.pendingFrames := rfl
  intro hd
  have hold (r : RunRef) (e : String) (hr : (d.runs r).executionId = some e) :
      c'.runs r = d.runs r := by
    rw [hruns, if_neg]
    rintro rfl
    simp [hd.unborn _ le_rfl] at hr
  refine ⟨?_, fun r e hr => ?_, fun p hp _ _ => .inl hp⟩
  case refine_2 => exact ⟨hold r e hr ▸ hr, hold r e hr ▸ le_rfl⟩
  constructor
  case unborn =>
      intro r hr
      have hlt : d.nextRun < r := hr
      rw [hruns, if_neg hlt.ne']
      exact hd.unborn r hlt.le
  case unique =>
      intro e r r' hr hr'
      rw [hruns] at hr hr'
      split at hr <;> split at hr'
      · simp_all
      · exact absurd hr (hfresh' r' e hr')
      · exact absurd hr' (hfresh' r e hr)
      · exact hd.unique e r r' hr hr'
  case bytes => exact hd.bytes
  case count => exact hd.count
  case size => exact hd.size
  case enabled => exact hd.enabled
  case live =>
      intro p hp
      obtain ⟨r, hr, hopen⟩ := hd.live p hp
      have hsame := hold r _ hr
      exact ⟨r, hsame ▸ hr, hsame ▸ hopen⟩
  case contiguous =>
      intro r e hr
      rw [hruns] at hr ⊢
      split at hr
      · have hempty : c'.retainedOf e = [] := by
          refine List.filter_eq_nil_iff.mpr fun p hp hsame => ?_
          obtain ⟨r', hr', -⟩ := hd.live p hp
          exact hfresh' r' _ hr' (of_decide_eq_true hsame ▸ hr)
        rw [if_pos ‹_›, hempty]
        exact ⟨0, le_rfl, rfl⟩
      · rw [if_neg ‹_›]
        exact hd.contiguous r e hr

theorem keepsBuffer_onMessage (ws : WsId) {frame : DownFrame}
    (hfresh : ∀ r e, (c.runs r).executionId = some e → frame.assigns e = false) :
    c.KeepsBuffer opts (c.onMessage opts now ws frame) := by
  have hrespects : RespectsFrames opts (KeepsBuffer opts) := keepsBuffer_respects opts
  unfold onMessage
  split
  · exact .refl c
  cases frame with
  | approvalResolve taskId executionId requestId decision =>
      simp only
      split
      · exact hrespects.resolveApproval c now _ _ _ _
      · exact .refl c
  | helloAck capabilities graceMs maxFrameBytes =>
      exact hrespects.denials.onHelloAck c now ws capabilities fun _ =>
        Sheds.keepsBuffer (sheds_of_eq (fun _ => ⟨rfl, rfl, rfl⟩) rfl rfl rfl)
  | taskAck taskId executionId acceptedSeq =>
      exact keepsBuffer_acknowledgeFrames opts c executionId acceptedSeq
  | taskAssign taskId executionId contextId message requestedExtensions caller scope =>
      refine hrespects.denials.onTaskAssign c scope fun c₁ hruns =>
        keepsBuffer_runTask opts c₁ taskId fun r e hr => ?_
      simpa [DownFrame.assigns] using hfresh r e (hruns ▸ hr)
  | taskCancel taskId executionId => exact hrespects.denials.cancelTask c now taskId executionId
  | ping => exact hrespects.send c (by simp)
  | usageRequest requestId => exact .refl c

/-- Runs whose frames are not retained are suppressed. Without retention that is all of them. -/
theorem keepsBuffer_onClose (ws : WsId) (code : ℕ) :
    c.KeepsBuffer opts (c.onClose opts ws code) := by
  intro hc
  refine ((sheds_respects opts).onClose c ws code fun c₁ hruns hpending => ?_).keepsBuffer hc
  refine sheds_suppressAll c₁ fun r hr p hp hexec => ?_
  have hlost := of_decide_eq_true (List.mem_filter.mp hr).2
  exact hlost ⟨by rw [hexec]; rfl, hc.enabled (List.ne_nil_of_mem (hpending ▸ hp))⟩

theorem keepsBuffer_apply (a : ClientAction) : c.KeepsBuffer opts (c.apply opts a) := by
  have hrespects : RespectsFrames opts (KeepsBuffer opts) := keepsBuffer_respects opts
  refine hrespects.denials.apply c a ?_ (keepsBuffer_onClose opts c)
  rintro now run inputBytes request rfl
  exact hrespects.requestApproval c now run inputBytes request

end Actions

/-- Every retained frame of the execution comes after the given number. -/
structure Acknowledged (c : Client) (e : String) (n : ℕ) : Prop where
  sequenced : ∃ r, (c.runs r).executionId = some e ∧ n < (c.runs r).nextSeq
  dropped : ∀ p ∈ c.retainedOf e, n < p.seq

theorem Acknowledged.mono {e : String} {n : ℕ} (h : c.Acknowledged e n) (hages : c.Ages c') :
    c'.Acknowledged e n := by
  obtain ⟨r, hr, hlt⟩ := h.sequenced
  obtain ⟨hr', hle⟩ := hages.runs r e hr
  refine ⟨⟨r, hr', lt_of_lt_of_le hlt hle⟩, fun p hp => ?_⟩
  obtain ⟨hpending, hexec⟩ := List.mem_filter.mp hp
  obtain rfl := of_decide_eq_true hexec
  obtain hold | hnew := hages.pending p hpending r hr
  · exact h.dropped p (List.mem_filter.mpr ⟨hold, by simp⟩)
  · exact lt_of_lt_of_le hlt hnew

/-- What an acknowledgement settles: the frames up to its number that have been sequenced. -/
def acknowledges (c : Client) (ws : WsId) : DownFrame → List (String × ℕ)
  | .taskAck _ executionId acceptedSeq =>
      if c.ws ≠ some ws then []
      else ((List.range c.nextRun).filter fun r =>
        (c.runs r).executionId = some executionId ∧ 0 < (c.runs r).nextSeq).map fun r =>
          (executionId, min acceptedSeq ((c.runs r).nextSeq - 1))
  | _ => []

theorem acknowledged_onMessage {now : ℕ} {ws : WsId} {frame : DownFrame} {e : String} {n : ℕ}
    (hack : (e, n) ∈ c.acknowledges ws frame) :
    (c.onMessage opts now ws frame).Acknowledged e n := by
  unfold acknowledges at hack
  split at hack
  · rename_i taskId executionId acceptedSeq
    split at hack
    · exact absurd hack List.not_mem_nil
    rename_i hcurrent
    obtain ⟨r, hr, heq⟩ := List.mem_map.mp hack
    obtain ⟨hr, hpos⟩ := of_decide_eq_true (List.mem_filter.mp hr).2
    obtain ⟨rfl, rfl⟩ := Prod.mk.inj heq
    simp only [onMessage, hcurrent, if_false]
    have hseq : min acceptedSeq ((c.runs r).nextSeq - 1) < (c.runs r).nextSeq := by omega
    refine ⟨⟨r, hr, hseq⟩, fun p hp => ?_⟩
    obtain ⟨hp, hexec⟩ := List.mem_filter.mp hp
    have hlate := of_decide_eq_true (List.mem_filter.mp hp).2
    have hlate : acceptedSeq < p.seq := hlate.resolve_left fun h => h (of_decide_eq_true hexec)
    omega
  · exact absurd hack List.not_mem_nil

end Client

/-! ## Every run -/

/-- The daemon by itself. Frames of any kind arrive at any time, on any socket. -/
inductive DaemonAction where
  | act (a : ClientAction)
  | receive (now : ℕ) (ws : WsId) (frame : DownFrame)

/-- `acked` are the sequence numbers that acknowledgements have settled, by execution. -/
structure BufferedClient where
  client : Client := {}
  acked : List (String × ℕ) := []

namespace BufferedClient

def apply (opts : ClientOptions) (s : BufferedClient) : DaemonAction → BufferedClient
  | .act a => { s with client := s.client.apply opts a }
  | .receive now ws frame =>
      { client := s.client.onMessage opts now ws frame
        acked := s.acked ++ s.client.acknowledges ws frame }

/-- Execution ids come from `randomUUID`: the one assigned is not that of an earlier run. -/
def Enabled (s : BufferedClient) : DaemonAction → Prop
  | .act _ => True
  | .receive _ _ frame => ∀ r < s.client.nextRun, ∀ e ∈ (s.client.runs r).executionId,
      frame.assigns e = false

instance (s : BufferedClient) : ∀ a, Decidable (s.Enabled a)
  | .act _ => isTrue trivial
  | .receive _ _ frame => inferInstanceAs (Decidable (∀ r < s.client.nextRun,
      ∀ e ∈ (s.client.runs r).executionId, frame.assigns e = false))

end BufferedClient

def bufferSystem (opts : ClientOptions) : System BufferedClient DaemonAction :=
  .ofApply (fun s => s = {}) BufferedClient.Enabled (BufferedClient.apply opts)

namespace BufferedClient

variable {opts : ClientOptions} {s t : BufferedClient}

structure Invariant (opts : ClientOptions) (s : BufferedClient) : Prop where
  buffer : s.client.Buffer opts
  acked : ∀ ack ∈ s.acked, s.client.Acknowledged ack.1 ack.2

theorem Invariant.keeps (inv : s.Invariant opts) (h : s.client.KeepsBuffer opts t.client)
    (hacked : ∀ ack ∈ t.acked, ack ∈ s.acked ∨ t.client.Acknowledged ack.1 ack.2) :
    t.Invariant opts := by
  obtain ⟨hbuffer, hages⟩ := h inv.buffer
  refine ⟨hbuffer, fun ack hack => ?_⟩
  obtain hold | hnew := hacked ack hack
  · exact (inv.acked ack hold).mono hages
  · exact hnew

theorem Invariant.step {a : DaemonAction} (inv : s.Invariant opts)
    (hstep : (bufferSystem opts).step s a t) : t.Invariant opts := by
  obtain ⟨henabled, rfl⟩ := hstep
  cases a with
  | act a => exact inv.keeps (Client.keepsBuffer_apply opts s.client a) fun _ hack => .inl hack
  | receive now ws frame =>
      refine inv.keeps (Client.keepsBuffer_onMessage opts s.client now ws fun r e hr => ?_)
        fun ack hack => ?_
      · by_cases hlt : r < s.client.nextRun
        · exact henabled r hlt e hr
        · simp [inv.buffer.unborn r (Nat.le_of_not_lt hlt)] at hr
      · rcases List.mem_append.mp hack with hack | hack
        · exact .inl hack
        · exact .inr (Client.acknowledged_onMessage hack)

theorem invariant_of_reachable (h : (bufferSystem opts).Reachable s) : s.Invariant opts := by
  refine h.invariant ?_ fun _ _ _ inv hstep => inv.step hstep
  rintro _ rfl
  exact ⟨by constructor <;> simp [Client.retainedOf], by simp⟩

structure BufferSpec (opts : ClientOptions) (s : BufferedClient) : Prop where
  bytes : s.client.pendingBytes = (s.client.pendingFrames.map PendingFrame.bytes).sum
  count : s.client.pendingFrames.length ≤ opts.maxPendingFrames
  size : s.client.pendingBytes ≤ opts.maxPendingBytes
  consecutive : ∀ e, ∃ start, (s.client.retainedOf e).map PendingFrame.seq =
    List.range' start (s.client.retainedOf e).length
  acked : ∀ p ∈ s.client.pendingFrames, ∀ n, (p.executionId, n) ∈ s.acked → n < p.seq
  suppressed : ∀ p ∈ s.client.pendingFrames, ∀ r,
    (s.client.runs r).executionId = some p.executionId → (s.client.runs r).suppressed = false

/-- The byte counter is exact, the limits hold, and what is retained of an execution are
consecutive frames of a run that goes on, after everything acknowledged. -/
theorem bufferSpec_of_reachable (h : (bufferSystem opts).Reachable s) : s.BufferSpec opts := by
  have inv := invariant_of_reachable h
  constructor
  case bytes => exact inv.buffer.bytes
  case count => exact inv.buffer.count
  case size =>
      rw [inv.buffer.bytes]
      exact_mod_cast inv.buffer.size
  case consecutive =>
      intro e
      cases hretained : s.client.retainedOf e with
      | nil => exact ⟨0, rfl⟩
      | cons p rest =>
          obtain ⟨hp, hexec⟩ := List.mem_filter.mp (hretained ▸ List.mem_cons_self .. :
            p ∈ s.client.retainedOf e)
          obtain ⟨r, hr, -⟩ := inv.buffer.live p hp
          obtain ⟨start, -, hseqs⟩ :=
            inv.buffer.contiguous r e (of_decide_eq_true hexec ▸ hr)
          have hlength := congrArg List.length hseqs
          rw [List.length_map, List.length_range'] at hlength
          exact ⟨start, by rw [← hretained, hlength, hseqs]⟩
  case acked =>
      intro p hp n hack
      exact (inv.acked _ hack).dropped p (List.mem_filter.mpr ⟨hp, by simp⟩)
  case suppressed =>
      intro p hp r hr
      obtain ⟨r', hr', hopen⟩ := inv.buffer.live p hp
      rwa [inv.buffer.unique _ r r' hr hr']

section Witness

private def options : ClientOptions where
  hello :=
    { agentId := "agent", version := protocolVersion, token := "token"
      protocolCapabilities := some [taskReplayCapability] }
  size _ := 1

private def assign (taskId executionId : String) : DaemonAction :=
  .receive 1 0 (.taskAssign taskId (some executionId) "context" ⟨.user, [], "message", none, none⟩
    none none none)

private def emit (run : RunRef) : DaemonAction :=
  .act (.emit 3 run (.artifact { artifactId := "artifact", parts := [] } none none))

private def ack (taskId executionId : String) (acceptedSeq : ℕ) : DaemonAction :=
  .receive 2 0 (.taskAck taskId executionId acceptedSeq)

private def connected : List DaemonAction :=
  [.act (.connect 0), .act (.opened 0), .act (.sendHello 0),
    .receive 0 0 (.helloAck [taskReplayCapability] 30000 maxIngressBytes), assign "task" "execution"]

/-- Two executions, the one acknowledged in part and the other cancelled. -/
private def shared : List DaemonAction :=
  connected ++ [assign "other" "cancelled", emit 0, emit 1, emit 0, emit 0,
    ack "task" "execution" 0, .receive 4 0 (.taskCancel "other" (some "cancelled")), emit 1]

theorem bufferSpec_of_reachable_shared :
    (shared.foldl (apply options) {}).client.pendingFrames.map
        (fun p => (p.executionId, p.seq)) = [("execution", 1), ("execution", 2)] ∧
      (shared.foldl (apply options) {}).BufferSpec options :=
  ⟨by decide +kernel,
    bufferSpec_of_reachable (System.Legal.reachable (by decide +kernel) (.of_init rfl))⟩

/-- An acknowledgement of what has not been sequenced does not hold back what comes. -/
theorem bufferSpec_of_reachable_early : ∃ s,
    (bufferSystem options).Reachable s ∧ s.client.ws = some 0 ∧
      (bufferSystem options).Reachable
        ([ack "task" "execution" 5, emit 0].foldl (apply options) s) ∧
      ∃ p ∈ ([ack "task" "execution" 5, emit 0].foldl (apply options) s).client.pendingFrames,
        p.executionId = "execution" ∧ p.seq ≤ 5 :=
  ⟨connected.foldl (apply options) {},
    System.Legal.reachable (by decide +kernel) (.of_init rfl), by decide +kernel,
    System.Legal.reachable (by decide +kernel)
      (System.Legal.reachable (by decide +kernel) (.of_init rfl)), by decide +kernel⟩

end Witness

end BufferedClient

end VicoopBridge
