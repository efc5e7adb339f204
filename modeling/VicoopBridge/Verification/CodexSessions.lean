import VicoopBridge.Model.CodexSessions
import VicoopBridge.Verification.ContextLocks

/-! # Whose thread a Codex task resumes

Between its lookup and its end a task is alone with the binding of its context: the lock keeps
the tasks of the context away, and those of others can only drop the binding for its age. So
the binding is what the task itself wrote, whenever a rollback or a refresh looks at it. -/

namespace VicoopBridge.CodexThreads

open Library

universe u

variable {κ : Type u} [DecidableEq κ] {sessionTtlMs : ℤ}

/-- The task has the lock of its context. -/
def Stage.holds : Stage → Bool
  | .waiting | .released _ => false
  | _ => true

def Stage.state? : Stage → Option TaskEnd
  | .ended state | .released state => some state
  | _ => none

/-- The task is between its lookup and its end. -/
def Stage.inFlight : Stage → Bool
  | .requested | .turn => true
  | _ => false

theorem Stage.holds_of_inFlight {stage : Stage} (h : stage.inFlight = true) :
    stage.holds = true := by
  cases stage <;> first | rfl | exact absurd h Bool.false_ne_true

theorem Stage.state?_of_inFlight {stage : Stage} (h : stage.inFlight = true) :
    stage.state? = none := by
  cases stage <;> first | rfl | exact absurd h Bool.false_ne_true

/-! ## The lock -/

/-- The calls of `handle` and those of the lock go together. -/
structure Locked (s : CodexSessions κ) : Prop where
  jobs : ∃ jobs, ContextLocks.system.Run {} jobs s.locks ∧ ∀ call, .release call ∈ jobs →
    ∃ run state, s.runs[call]? = some run ∧ run.stage = .released state
  contexts : s.locks.calls.map (·.contextId) = s.runs.map (·.task.contextId)
  admitted : ∀ call, call ∈ s.locks.admitted ↔
    ∃ run, s.runs[call]? = some run ∧ run.stage ≠ .waiting

variable {s s' : CodexSessions κ} {call other : ℕ} {run run' : TaskRun κ}

omit [DecidableEq κ] in
theorem getElem?_set_runs (hrun : s.runs[call]? = some run) (i : ℕ) :
    (s.runs.set call run')[i]? = if i = call then some run' else s.runs[i]? := by
  have hlt : call < s.runs.length := (List.getElem?_eq_some_iff.mp hrun).1
  rw [List.getElem?_set]
  by_cases heq : call = i
  · rw [if_pos heq, if_pos (heq ▸ hlt), if_pos heq.symm]
  · rw [if_neg heq, if_neg fun hi => heq hi.symm]

omit [DecidableEq κ] in
theorem map_set_runs {β : Type*} (f : TaskRun κ → β) (hrun : s.runs[call]? = some run)
    (hf : f run' = f run) : (s.runs.set call run').map f = s.runs.map f := by
  refine List.ext_getElem? fun i => ?_
  rw [List.getElem?_map, List.getElem?_map, getElem?_set_runs hrun]
  by_cases heq : i = call
  · rw [if_pos heq, heq, hrun, Option.map_some, Option.map_some, hf]
  · rw [if_neg heq]

omit [DecidableEq κ] in
theorem getElem?_push_runs (hrun : s.runs[call]? = some run) :
    (s.runs ++ [run'])[call]? = some run :=
  (List.getElem?_append_left (List.getElem?_eq_some_iff.mp hrun).1).trans hrun

theorem Locked.contextIdOf (h : Locked s) (call : ℕ) :
    s.locks.contextIdOf call = s.runs[call]?.map (·.task.contextId) := by
  rw [ContextLocks.contextIdOf, ← List.getElem?_map, ← List.getElem?_map, h.contexts]

theorem Locked.isHolder (h : Locked s) (hrun : s.runs[call]? = some run)
    (hholds : run.stage.holds = true) :
    ContextLocks.IsHolder s.locks run.task.contextId call := by
  obtain ⟨jobs, hjobs, hreleased⟩ := h.jobs
  refine ⟨by rw [h.contextIdOf, hrun]; rfl, (h.admitted call).mpr ⟨run, hrun, ?_⟩, ?_⟩
  · intro hwaiting
    rw [hwaiting] at hholds
    exact Bool.false_ne_true hholds
  · rw [← Bool.not_eq_true, (ContextLocks.tracks_of_run hjobs).released]
    intro hmem
    obtain ⟨run', state, hrun', hstage⟩ := hreleased call hmem
    obtain rfl := Option.some.inj (hrun.symm.trans hrun')
    rw [hstage] at hholds
    exact Bool.false_ne_true hholds

/-- Two tasks of one context do not both have its lock. -/
theorem Locked.exclusive (h : Locked s) (hrun : s.runs[call]? = some run)
    (hrun' : s.runs[other]? = some run') (hsame : run'.task.contextId = run.task.contextId)
    (hholds : run.stage.holds = true) (hholds' : run'.stage.holds = true) : other = call := by
  obtain ⟨jobs, hjobs, -⟩ := h.jobs
  have hholder := h.isHolder hrun' hholds'
  rw [hsame] at hholder
  have hchained := (ContextLocks.tracks_of_run hjobs).chained
  exact hchained.locks.exclusive _ _ _ hholder (h.isHolder hrun hholds)

/-- A task that keeps the lock moves on. -/
theorem Locked.setRun (h : Locked s) (hrun : s.runs[call]? = some run)
    (hruns : s'.runs = s.runs.set call run') (hlocks : s'.locks = s.locks)
    (htask : run'.task = run.task) (hholds : run.stage.holds = true)
    (hholds' : run'.stage.holds = true) : Locked s' := by
  obtain ⟨jobs, hjobs, hreleased⟩ := h.jobs
  have hne : run.stage ≠ .waiting := by rintro heq; simp [heq, Stage.holds] at hholds
  have hne' : run'.stage ≠ .waiting := by rintro heq; simp [heq, Stage.holds] at hholds'
  refine ⟨⟨jobs, hlocks ▸ hjobs, fun i hi => ?_⟩, ?_, fun i => ?_⟩
  · obtain ⟨run₀, state, hrun₀, hstage⟩ := hreleased i hi
    rw [hruns, getElem?_set_runs hrun]
    by_cases heq : i = call
    · subst heq
      obtain rfl := Option.some.inj (hrun.symm.trans hrun₀)
      simp [hstage, Stage.holds] at hholds
    · exact ⟨run₀, state, by rw [if_neg heq]; exact hrun₀, hstage⟩
  · rw [hlocks, h.contexts, hruns, map_set_runs _ hrun (by rw [htask])]
  · rw [hlocks, h.admitted, hruns, getElem?_set_runs hrun]
    by_cases heq : i = call
    · subst heq
      rw [if_pos rfl, hrun]
      exact iff_of_true ⟨run, rfl, hne⟩ ⟨run', rfl, hne'⟩
    · rw [if_neg heq]

theorem Locked.handle (h : Locked s) (task : PlainTask κ) (aborted : Bool) :
    Locked (s.handle task aborted) := by
  cases aborted with
  | true => exact h
  | false =>
      obtain ⟨jobs, hjobs, hreleased⟩ := h.jobs
      obtain ⟨prev, hcalls, -⟩ := ContextLocks.calls_acquireContextLock s.locks task.contextId
      refine ⟨⟨_, hjobs.snoc (a := .acquireContextLock task.contextId) ⟨rfl, rfl⟩, ?_⟩, ?_, ?_⟩
      · intro call hmem
        obtain ⟨run, state, hrun, hstage⟩ := hreleased call (by simpa using hmem)
        exact ⟨run, state, getElem?_push_runs hrun, hstage⟩
      · change (s.locks.acquireContextLock task.contextId).calls.map _ = List.map _ (_ ++ _)
        rw [hcalls, List.map_append, List.map_append, h.contexts]
        rfl
      · intro call
        have hadmitted : (s.locks.acquireContextLock task.contextId).admitted =
            s.locks.admitted := rfl
        change call ∈ (s.locks.acquireContextLock task.contextId).admitted ↔
          ∃ run, (s.runs ++ [({ task } : TaskRun κ)])[call]? = some run ∧ _
        rw [hadmitted, h.admitted]
        constructor
        · intro hsome
          obtain ⟨run, hrun, hne⟩ := hsome
          exact ⟨run, getElem?_push_runs hrun, hne⟩
        · intro hsome
          obtain ⟨run, hrun, hne⟩ := hsome
          rw [List.getElem?_append] at hrun
          by_cases hlt : call < s.runs.length
          · rw [if_pos hlt] at hrun
            exact ⟨run, hrun, hne⟩
          · rw [if_neg hlt, List.getElem?_singleton] at hrun
            split at hrun
            · exact absurd (by rw [← Option.some.inj hrun]) hne
            · exact absurd hrun (by simp)

/-- A job of the promises. -/
theorem Locked.job (h : Locked s) {a : ContextLocks.Action κ} (henabled : s.locks.enabled a = true)
    (hcalls : (s.locks.apply a).calls = s.locks.calls)
    (hadmitted : (s.locks.apply a).admitted = s.locks.admitted) (hne : ∀ call, a ≠ .release call) :
    Locked { s with locks := s.locks.apply a } := by
  obtain ⟨jobs, hjobs, hreleased⟩ := h.jobs
  refine ⟨⟨_, hjobs.snoc ⟨henabled, rfl⟩, fun call hmem => ?_⟩, ?_, fun call => ?_⟩
  · rcases List.mem_append.mp hmem with hmem | hmem
    · exact hreleased call hmem
    · exact absurd (List.mem_singleton.mp hmem).symm (hne call)
  · rw [hcalls]
    exact h.contexts
  · rw [hadmitted]
    exact h.admitted call

theorem Locked.enter (h : Locked s) (hrun : s.runs[call]? = some run)
    (henabled : s.locks.enabled (.enter call) = true) (aborted : Bool) :
    Locked (s.enter call run aborted) := by
  obtain ⟨jobs, hjobs, hreleased⟩ := h.jobs
  have hnot : call ∉ s.locks.admitted := by simpa using (Bool.and_eq_true_iff.mp henabled).2
  have hwaiting : run.stage = .waiting := by
    by_contra hne
    exact hnot ((h.admitted call).mpr ⟨run, hrun, hne⟩)
  refine ⟨⟨_, hjobs.snoc ⟨henabled, rfl⟩, fun i hi => ?_⟩, ?_, fun i => ?_⟩
  · obtain ⟨run₀, state, hrun₀, hstage⟩ := hreleased i (by simpa using hi)
    change ∃ run state, (s.runs.set call _)[i]? = some run ∧ _
    rw [getElem?_set_runs hrun]
    by_cases heq : i = call
    · subst heq
      obtain rfl := Option.some.inj (hrun.symm.trans hrun₀)
      rw [hwaiting] at hstage
      cases hstage
    · exact ⟨run₀, state, by rw [if_neg heq]; exact hrun₀, hstage⟩
  · change s.locks.calls.map _ = (s.runs.set call _).map _
    exact h.contexts.trans (map_set_runs _ hrun (by rfl)).symm
  · change i ∈ s.locks.admitted ++ [call] ↔ ∃ run, (s.runs.set call _)[i]? = some run ∧ _
    rw [getElem?_set_runs hrun, List.mem_append, List.mem_singleton, h.admitted]
    by_cases heq : i = call
    · rw [if_pos heq]
      refine iff_of_true (.inr heq) ⟨_, rfl, ?_⟩
      cases aborted <;> simp
    · rw [if_neg heq]
      exact ⟨fun hor => hor.resolve_right heq, .inl⟩

theorem Locked.release (h : Locked s) (hrun : s.runs[call]? = some run) {state : TaskEnd}
    (hstage : run.stage = .ended state) : Locked (s.release call run state) := by
  obtain ⟨jobs, hjobs, hreleased⟩ := h.jobs
  have hadmitted : call ∈ s.locks.admitted :=
    (h.admitted call).mpr ⟨run, hrun, by rw [hstage]; exact Stage.noConfusion⟩
  have happly : s.locks.apply (.release call) = s.locks.release call run.task.contextId := by
    have hof : s.locks.contextIdOf call = some run.task.contextId := by
      rw [h.contextIdOf, hrun, Option.map_some]
    simp only [ContextLocks.apply, hof]
  have hstep : ContextLocks.system.step s.locks (.release call)
      (s.locks.release call run.task.contextId) := ⟨decide_eq_true hadmitted, happly.symm⟩
  refine ⟨⟨_, hjobs.snoc hstep, fun i hi => ?_⟩, ?_, fun i => ?_⟩
  · change ∃ run state, (s.runs.set call _)[i]? = some run ∧ _
    rw [getElem?_set_runs hrun]
    by_cases heq : i = call
    · exact ⟨_, state, by rw [if_pos heq], rfl⟩
    · rw [if_neg heq]
      exact hreleased i (by simpa [heq] using hi)
  · change s.locks.calls.map _ = (s.runs.set call _).map _
    exact h.contexts.trans (map_set_runs _ hrun (by rfl)).symm
  · change i ∈ s.locks.admitted ↔ ∃ run, (s.runs.set call _)[i]? = some run ∧ _
    rw [getElem?_set_runs hrun]
    by_cases heq : i = call
    · subst heq
      rw [if_pos rfl]
      exact iff_of_true hadmitted ⟨_, rfl, Stage.noConfusion⟩
    · rw [if_neg heq, h.admitted]

/-! ## The bindings -/

/-- A later lookup found what was last used then older than the lifetime. -/
def Outlived (sessionTtlMs : ℤ) (s : CodexSessions κ) (writeId : ℕ) (since : ℤ) : Prop :=
  ∃ (i : ℕ) (later : TaskRun κ), s.runs[i]? = some later ∧ writeId < later.writeId ∧
    since < later.tNow - sessionTtlMs

/-- The thread of a binding was started for its context and its caller, by a task that has
not failed. -/
def Bound (s : CodexSessions κ) (contextId : κ) (entry : SessionEntry) : Prop :=
  ∃ (i : ℕ) (starter : TaskRun κ), s.runs[i]? = some starter ∧
    starter.observedThreadId = some entry.threadId ∧
    starter.task.contextId = contextId ∧ starter.task.callerKey = entry.callerKey ∧
    (starter.stage.state? = some .completed ∨ starter.stage = .turn)

/-- What a task knows of the binding of its context. -/
structure Alone (sessionTtlMs : ℤ) (s : CodexSessions κ) (run : TaskRun κ) : Prop where
  resumed : run.stage.inFlight = true → ∀ existing, run.existing = some existing →
    s.sessions run.task.contextId =
      some ⟨existing.threadId, run.tNow, run.writeId, run.task.callerKey⟩ ∨
    s.sessions run.task.contextId = none ∧ Outlived sessionTtlMs s run.writeId run.tNow
  started : run.stage = .turn → run.existing = none →
    ∃ threadId, run.observedThreadId = some threadId ∧ threadId ≠ "" ∧
      ∀ entry, s.sessions run.task.contextId = some entry →
        entry.threadId = threadId ∧ entry.writeId = run.writeId
  observed : run.observedThreadId ≠ none →
    run.existing = none ∧ run.stage ≠ .waiting ∧ run.stage ≠ .entered ∧ run.stage ≠ .requested
  written : run.writeId ≤ s.writeCounter
  unwritten : run.stage = .waiting ∨ run.stage = .entered → run.writeId = 0

structure Kept (sessionTtlMs : ℤ) (s : CodexSessions κ) : Prop where
  locked : Locked s
  off : sessionTtlMs ≤ 0 → ∀ contextId, s.sessions contextId = none
  bound : ∀ contextId entry, s.sessions contextId = some entry → Bound s contextId entry
  unique : ∀ (i j : ℕ) (a b : TaskRun κ) (threadId : String), s.runs[i]? = some a →
    s.runs[j]? = some b → a.observedThreadId = some threadId →
      b.observedThreadId = some threadId → i = j
  alone : ∀ (i : ℕ) (run : TaskRun κ), s.runs[i]? = some run → Alone sessionTtlMs s run

theorem kept_empty : Kept sessionTtlMs ({} : CodexSessions κ) where
  locked := ⟨⟨[], .nil _, by simp⟩, rfl, by simp⟩
  off _ _ := rfl
  bound _ _ h := by cases h
  unique _ _ _ _ _ h := by cases h
  alone _ _ h := by cases h

/-- A step of one task, as the others see it. -/
structure Change (sessionTtlMs : ℤ) (s s' : CodexSessions κ) (call : ℕ) (run run' : TaskRun κ) :
    Prop where
  found : s.runs[call]? = some run
  runs : s'.runs = s.runs.set call run'
  task : run'.task = run.task
  holds : s'.sessions = s.sessions ∨ run.stage.holds = true
  counter : s.writeCounter ≤ s'.writeCounter
  /-- A task that looked up keeps its time. -/
  lookup : run.writeId = 0 ∨ run'.writeId = run.writeId ∧ run'.tNow = run.tNow
  others : ∀ contextId ≠ run.task.contextId,
    s'.sessions contextId = s.sessions contextId ∨
    s'.sessions contextId = none ∧ s.writeCounter < run'.writeId ∧
      ∀ entry, s.sessions contextId = some entry → entry.lastUsedAt < run'.tNow - sessionTtlMs
  thread : run'.observedThreadId = run.observedThreadId ∨
    ∃ threadId, run'.observedThreadId = some threadId ∧ threadId ∉ s.startedThreads

omit [DecidableEq κ] in
theorem Change.getElem? (h : Change sessionTtlMs s s' call run run') (i : ℕ) :
    s'.runs[i]? = if i = call then some run' else s.runs[i]? := by
  rw [h.runs, getElem?_set_runs h.found]

omit [DecidableEq κ] in
theorem Change.outlived (h : Change sessionTtlMs s s' call run run') {writeId : ℕ} {since : ℤ}
    (houtlived : Outlived sessionTtlMs s writeId since) :
    Outlived sessionTtlMs s' writeId since := by
  obtain ⟨i, later, hlater, hwriteId, hsince⟩ := houtlived
  by_cases heq : i = call
  · subst heq
    obtain rfl := Option.some.inj (hlater.symm.trans h.found)
    obtain hzero | ⟨hsame, htime⟩ := h.lookup
    · omega
    · exact ⟨i, run', by rw [h.getElem?, if_pos rfl], by omega, by omega⟩
  · exact ⟨i, later, by rw [h.getElem?, if_neg heq]; exact hlater, hwriteId, hsince⟩

omit [DecidableEq κ] in
theorem Change.bound (h : Change sessionTtlMs s s' call run run') {contextId : κ}
    {entry : SessionEntry} (hbound : Bound s contextId entry)
    (hself : run.task.contextId = contextId → run.observedThreadId = some entry.threadId →
      run.stage.state? = some .completed ∨ run.stage = .turn →
        run'.observedThreadId = run.observedThreadId ∧
        (run'.stage.state? = some .completed ∨ run'.stage = .turn)) :
    Bound s' contextId entry := by
  obtain ⟨i, starter, hstarter, hthread, hcontext, hcaller, hstage⟩ := hbound
  by_cases heq : i = call
  · subst heq
    obtain rfl := Option.some.inj (hstarter.symm.trans h.found)
    obtain ⟨hsame, hstage'⟩ := hself hcontext hthread hstage
    exact ⟨i, run', by rw [h.getElem?, if_pos rfl], hsame.trans hthread,
      by rw [h.task, hcontext], by rw [← hcaller, PlainTask.callerKey, PlainTask.callerKey, h.task],
      hstage'⟩
  · exact ⟨i, starter, by rw [h.getElem?, if_neg heq]; exact hstarter, hthread, hcontext, hcaller,
      hstage⟩

theorem Change.unique (h : Change sessionTtlMs s s' call run run') (hkept : Kept sessionTtlMs s)
    (i j : ℕ) (a b : TaskRun κ) (threadId : String) (hi : s'.runs[i]? = some a)
    (hj : s'.runs[j]? = some b) (ha : a.observedThreadId = some threadId)
    (hb : b.observedThreadId = some threadId) : i = j := by
  have hold : ∀ (i : ℕ) (c : TaskRun κ), s'.runs[i]? = some c → c.observedThreadId = some threadId →
      (∃ d, s.runs[i]? = some d ∧ d.observedThreadId = some threadId) ∨
        i = call ∧ threadId ∉ s.startedThreads := by
    intro i c hc hthread
    rw [h.getElem?] at hc
    by_cases heq : i = call
    · rw [if_pos heq] at hc
      obtain rfl := Option.some.inj hc
      obtain hsame | ⟨new, hnew, hfresh⟩ := h.thread
      · exact .inl ⟨run, heq ▸ h.found, hsame.symm.trans hthread⟩
      · obtain rfl := Option.some.inj (hthread.symm.trans hnew)
        exact .inr ⟨heq, hfresh⟩
    · rw [if_neg heq] at hc
      exact .inl ⟨c, hc, hthread⟩
  have hmem : ∀ (i : ℕ) (d : TaskRun κ), s.runs[i]? = some d → d.observedThreadId = some threadId →
      threadId ∈ s.startedThreads := fun i d hd hthread =>
    List.mem_filterMap.mpr ⟨d, List.mem_of_getElem? hd, hthread⟩
  obtain ⟨c, hc, hcthread⟩ | ⟨hi, hfresh⟩ := hold i a hi ha
  · obtain ⟨d, hd, hdthread⟩ | ⟨-, hfresh⟩ := hold j b hj hb
    · exact hkept.unique i j c d threadId hc hd hcthread hdthread
    · exact absurd (hmem i c hc hcthread) hfresh
  · obtain ⟨d, hd, hdthread⟩ | ⟨hj, -⟩ := hold j b hj hb
    · exact absurd (hmem j d hd hdthread) hfresh
    · exact hi.trans hj.symm

/-- The other tasks in flight have other contexts, and keep what they know. -/
theorem Change.alone (h : Change sessionTtlMs s s' call run run') (hkept : Kept sessionTtlMs s)
    {i : ℕ} {other : TaskRun κ} (hother : s.runs[i]? = some other) (hne : i ≠ call) :
    Alone sessionTtlMs s' other := by
  have halone := hkept.alone i other hother
  have hsessions : other.stage.inFlight = true →
      s'.sessions other.task.contextId = s.sessions other.task.contextId ∨
      s'.sessions other.task.contextId = none ∧ s.writeCounter < run'.writeId ∧
        ∀ entry, s.sessions other.task.contextId = some entry →
          entry.lastUsedAt < run'.tNow - sessionTtlMs := by
    intro hflight
    obtain hsame | hholds := h.holds
    · exact .inl (congrFun hsame _)
    · exact h.others _ fun hcontext => hne (hkept.locked.exclusive h.found hother hcontext hholds
        (Stage.holds_of_inFlight hflight))
  refine ⟨fun hflight existing hexisting => ?_, fun hturn hexisting => ?_, halone.observed,
    halone.written.trans h.counter, halone.unwritten⟩
  · obtain hown | ⟨hnone, houtlived⟩ := halone.resumed hflight existing hexisting
    · obtain hsame | ⟨hnone, hcounter, hold⟩ := hsessions hflight
      · exact .inl (hsame.trans hown)
      · refine .inr ⟨hnone, call, run', by rw [h.getElem?, if_pos rfl], ?_, hold _ hown⟩
        exact halone.written.trans_lt hcounter
    · obtain hsame | ⟨hnone', -⟩ := hsessions hflight
      · exact .inr ⟨hsame.trans hnone, h.outlived houtlived⟩
      · exact .inr ⟨hnone', h.outlived houtlived⟩
  · obtain ⟨threadId, hthread, hne, hentry⟩ := halone.started hturn hexisting
    refine ⟨threadId, hthread, hne, fun entry hsome => ?_⟩
    obtain hsame | ⟨hnone, -⟩ := hsessions (by rw [hturn]; rfl)
    · exact hentry entry (hsame.symm.trans hsome)
    · rw [hnone] at hsome
      cases hsome

theorem Kept.change (hkept : Kept sessionTtlMs s) (h : Change sessionTtlMs s s' call run run')
    (hlocked : Locked s') (hoff : sessionTtlMs ≤ 0 → ∀ contextId, s'.sessions contextId = none)
    (hbound : ∀ entry, s'.sessions run.task.contextId = some entry →
      Bound s' run.task.contextId entry)
    (halone : Alone sessionTtlMs s' run') : Kept sessionTtlMs s' where
  locked := hlocked
  off := hoff
  bound contextId entry hentry := by
    by_cases heq : contextId = run.task.contextId
    · subst heq
      exact hbound entry hentry
    · obtain hsame | ⟨hnone, -⟩ := h.others contextId heq
      · exact h.bound (hkept.bound contextId entry (hsame.symm.trans hentry))
          fun hcontext => absurd hcontext.symm heq
      · rw [hnone] at hentry
        cases hentry
  unique := h.unique hkept
  alone i other hother := by
    rw [h.getElem?] at hother
    by_cases heq : i = call
    · rw [if_pos heq] at hother
      exact Option.some.inj hother ▸ halone
    · rw [if_neg heq] at hother
      exact h.alone hkept hother heq

/-! ## Rollbacks and refresh -/

/-- Only the binding of the one context changes. -/
structure OwnBinding (s t : CodexSessions κ) (contextId : κ) : Prop where
  locks : t.locks = s.locks
  runs : t.runs = s.runs
  requests : t.requests = s.requests
  counter : s.writeCounter ≤ t.writeCounter
  others : ∀ other ≠ contextId, t.sessions other = s.sessions other

omit [DecidableEq κ] in
theorem OwnBinding.refl (s : CodexSessions κ) (contextId : κ) : OwnBinding s s contextId :=
  ⟨rfl, rfl, rfl, le_rfl, fun _ _ => rfl⟩

omit [DecidableEq κ] in
theorem OwnBinding.trans {t u : CodexSessions κ} {contextId : κ} (h : OwnBinding s t contextId)
    (h' : OwnBinding t u contextId) : OwnBinding s u contextId :=
  ⟨h'.locks.trans h.locks, h'.runs.trans h.runs, h'.requests.trans h.requests,
    h.counter.trans h'.counter, fun other hne => (h'.others other hne).trans (h.others other hne)⟩

theorem ownBinding_setSession (s : CodexSessions κ) (contextId : κ)
    (entry : Option SessionEntry) : OwnBinding s (s.setSession contextId entry) contextId :=
  ⟨rfl, rfl, rfl, le_rfl, fun _ hne => Function.update_of_ne hne _ _⟩

theorem ownBinding_rollbackResumeRefresh (s : CodexSessions κ) (run : TaskRun κ) :
    OwnBinding s (s.rollbackResumeRefresh sessionTtlMs run) run.task.contextId := by
  rw [CodexSessions.rollbackResumeRefresh]
  split
  · split
    · exact ⟨rfl, rfl, rfl, Nat.le_succ _, fun _ hne => Function.update_of_ne hne _ _⟩
    · exact .refl s _
  · exact .refl s _

theorem ownBinding_rollbackFreshThread (s : CodexSessions κ) (run : TaskRun κ) :
    OwnBinding s (s.rollbackFreshThread sessionTtlMs run) run.task.contextId := by
  rw [CodexSessions.rollbackFreshThread]
  split
  · split
    · exact ownBinding_setSession s _ _
    · exact .refl s _
  · exact .refl s _

theorem ownBinding_rollback (s : CodexSessions κ) (run : TaskRun κ) :
    OwnBinding s (s.rollback sessionTtlMs run) run.task.contextId :=
  (ownBinding_rollbackFreshThread s run).trans (ownBinding_rollbackResumeRefresh _ run)

theorem ownBinding_refresh (s : CodexSessions κ) (run : TaskRun κ) (now : ℤ) :
    OwnBinding s (s.refresh sessionTtlMs run now) run.task.contextId := by
  rw [CodexSessions.refresh]
  split
  · split
    · exact ownBinding_setSession s _ _
    · exact .refl s _
  · exact .refl s _

/-- The binding as the lookup found it, under a new write id, unless it was dropped since. -/
def Restored (sessionTtlMs : ℤ) (s t : CodexSessions κ) (run : TaskRun κ)
    (existing : SessionEntry) : Prop :=
  (∃ writeId, t.sessions run.task.contextId =
    some ⟨existing.threadId, existing.lastUsedAt, writeId, run.task.callerKey⟩) ∨
  t.sessions run.task.contextId = none ∧ Outlived sessionTtlMs s run.writeId run.tNow

theorem Kept.pos_of_session (h : Kept sessionTtlMs s) {contextId : κ} {entry : SessionEntry}
    (hentry : s.sessions contextId = some entry) : 0 < sessionTtlMs := by
  by_contra hnot
  rw [h.off (by omega)] at hentry
  cases hentry

theorem Kept.restored (h : Kept sessionTtlMs s) (hrun : s.runs[call]? = some run)
    (hflight : run.stage.inFlight = true) {existing : SessionEntry}
    (hexisting : run.existing = some existing) :
    Restored sessionTtlMs s (s.rollbackResumeRefresh sessionTtlMs run) run existing := by
  obtain hown | ⟨hnone, houtlived⟩ := (h.alone call run hrun).resumed hflight existing hexisting
  · refine .inl ⟨s.writeCounter + 1, ?_⟩
    have hpos := h.pos_of_session hown
    simp only [CodexSessions.rollbackResumeRefresh, hexisting, hown, hpos, and_self, if_true]
    exact Function.update_self _ _ _
  · refine .inr ⟨?_, houtlived⟩
    simp only [CodexSessions.rollbackResumeRefresh, hexisting, hnone]

theorem rollbackFreshThread_of_existing {existing : SessionEntry}
    (hexisting : run.existing = some existing) :
    s.rollbackFreshThread sessionTtlMs run = s := by
  simp only [CodexSessions.rollbackFreshThread, hexisting]

theorem rollbackResumeRefresh_of_fresh (hexisting : run.existing = none) :
    s.rollbackResumeRefresh sessionTtlMs run = s := by
  simp only [CodexSessions.rollbackResumeRefresh, hexisting]

/-- A first turn that did not complete leaves no binding. -/
theorem Kept.rollback_fresh (h : Kept sessionTtlMs s) (hrun : s.runs[call]? = some run)
    (hturn : run.stage = .turn) (hexisting : run.existing = none) :
    (s.rollback sessionTtlMs run).sessions run.task.contextId = none := by
  rw [CodexSessions.rollback, rollbackResumeRefresh_of_fresh hexisting]
  obtain ⟨threadId, hthread, hne, hentry⟩ := (h.alone call run hrun).started hturn hexisting
  cases hcur : s.sessions run.task.contextId with
  | none => simp only [CodexSessions.rollbackFreshThread, hexisting, hthread, hcur]
  | some cur =>
      obtain ⟨hcurThread, hcurWrite⟩ := hentry cur hcur
      have hpos := h.pos_of_session hcur
      simp only [CodexSessions.rollbackFreshThread, hexisting, hthread, hcur, hpos, hne, hcurThread,
        hcurWrite, ne_eq, not_false_eq_true, and_self, if_true]
      exact Function.update_self _ _ _

/-- Whatever the binding is after a rollback or a refresh of a resumed task, its thread and
its caller were bound before. -/
theorem Kept.bound_resumed (h : Kept sessionTtlMs s) (hrun : s.runs[call]? = some run)
    (hflight : run.stage.inFlight = true) {existing : SessionEntry}
    (hexisting : run.existing = some existing) {entry : SessionEntry}
    (hcur : s.sessions run.task.contextId ≠ none)
    (hthread : entry.threadId = existing.threadId)
    (hcaller : entry.callerKey = run.task.callerKey) :
    Bound s run.task.contextId entry := by
  obtain hown | ⟨hnone, -⟩ := (h.alone call run hrun).resumed hflight existing hexisting
  · obtain ⟨i, starter, hstarter, hthread', hcontext, hcaller', hstage⟩ := h.bound _ _ hown
    exact ⟨i, starter, hstarter, by rw [hthread', hthread], hcontext, by rw [hcaller', hcaller],
      hstage⟩
  · exact absurd hnone hcur

/-! ## The steps -/

/-- A task ends, and leaves a binding that others may resume. -/
theorem Kept.ends (h : Kept sessionTtlMs s) (hrun : s.runs[call]? = some run)
    (hflight : run.stage.inFlight = true) {t : CodexSessions κ}
    (hown : OwnBinding s t run.task.contextId)
    (hnone : s.sessions run.task.contextId = none → t.sessions run.task.contextId = none)
    (state : TaskEnd)
    (hbinding : ∀ entry, t.sessions run.task.contextId = some entry →
      Bound s run.task.contextId entry ∧
        (run.observedThreadId = some entry.threadId → state = .completed)) :
    Kept sessionTtlMs (t.setRun call { run with stage := .ended state }) := by
  have halone := h.alone call run hrun
  have hholds := Stage.holds_of_inFlight hflight
  have hruns : (t.setRun call { run with stage := .ended state }).runs =
      s.runs.set call { run with stage := .ended state } := by
    rw [CodexSessions.setRun, hown.runs]
  have hchange : Change sessionTtlMs s (t.setRun call { run with stage := .ended state }) call run
      { run with stage := .ended state } :=
    ⟨hrun, hruns, rfl, .inr hholds, hown.counter, .inr ⟨rfl, rfl⟩,
      fun other hne => .inl (hown.others other hne), .inl rfl⟩
  refine h.change hchange (h.locked.setRun hrun hruns hown.locks rfl hholds rfl) ?_ ?_ ?_
  · intro hoff other
    by_cases heq : other = run.task.contextId
    · subst heq
      exact hnone (h.off hoff _)
    · exact (hown.others other heq).trans (h.off hoff other)
  · intro entry hentry
    obtain ⟨hbound, hcompleted⟩ := hbinding entry hentry
    exact hchange.bound hbound fun _ hthread _ =>
      ⟨rfl, .inl (congrArg some (hcompleted hthread))⟩
  · refine ⟨?_, ?_, fun hobserved => ?_, halone.written.trans hown.counter, ?_⟩
    · exact fun hfalse => absurd hfalse Bool.false_ne_true
    · exact fun hfalse => Stage.noConfusion hfalse
    · exact ⟨(halone.observed hobserved).1, Stage.noConfusion, Stage.noConfusion,
        Stage.noConfusion⟩
    · exact fun hor => hor.elim Stage.noConfusion Stage.noConfusion

omit [DecidableEq κ] in
theorem existing_cases (run : TaskRun κ) :
    run.existing = none ∨ ∃ existing, run.existing = some existing := by
  cases run.existing with
  | none => exact .inl rfl
  | some existing => exact .inr ⟨existing, rfl⟩

/-- A resumed task has started no thread. -/
theorem Kept.observed_of_existing (h : Kept sessionTtlMs s) (hrun : s.runs[call]? = some run)
    {existing : SessionEntry} (hexisting : run.existing = some existing) :
    run.observedThreadId = none := by
  by_contra hne
  have hnone := ((h.alone call run hrun).observed hne).1
  rw [hexisting] at hnone
  cases hnone

/-- A failure or a cancel, behind whichever rollbacks it calls for. -/
theorem Kept.rolledBack (h : Kept sessionTtlMs s) (hrun : s.runs[call]? = some run)
    (hflight : run.stage.inFlight = true) {existing : SessionEntry}
    (hexisting : run.existing = some existing) (state : TaskEnd) :
    Kept sessionTtlMs ((s.rollbackResumeRefresh sessionTtlMs run).setRun call
      { run with stage := .ended state }) := by
  have hobserved := h.observed_of_existing hrun hexisting
  have hnone : s.sessions run.task.contextId = none →
      (s.rollbackResumeRefresh sessionTtlMs run).sessions run.task.contextId = none := by
    intro hnone
    simp only [CodexSessions.rollbackResumeRefresh, hexisting, hnone]
  refine h.ends hrun hflight (ownBinding_rollbackResumeRefresh s run) hnone state ?_
  intro entry hentry
  refine ⟨?_, fun hthread => by rw [hobserved] at hthread; cases hthread⟩
  have hcur : s.sessions run.task.contextId ≠ none := fun hcur => by
    rw [hnone hcur] at hentry
    cases hentry
  obtain ⟨writeId, hrestored⟩ | ⟨hgone, -⟩ := h.restored hrun hflight hexisting
  · obtain rfl := Option.some.inj (hentry.symm.trans hrestored)
    exact h.bound_resumed hrun hflight hexisting hcur rfl rfl
  · rw [hgone] at hentry
    cases hentry

theorem Kept.threadFails (h : Kept sessionTtlMs s) (hrun : s.runs[call]? = some run)
    (hstage : run.stage = .requested) :
    Kept sessionTtlMs (s.threadFails sessionTtlMs call run) := by
  have hflight : run.stage.inFlight = true := by rw [hstage]; rfl
  rw [CodexSessions.threadFails]
  obtain hexisting | ⟨existing, hexisting⟩ := existing_cases run
  · have hobserved : run.observedThreadId = none := by
      by_contra hne
      exact ((h.alone call run hrun).observed hne).2.2.2 hstage
    rw [rollbackResumeRefresh_of_fresh hexisting]
    refine h.ends hrun hflight (.refl s _) id _ fun entry hentry => ?_
    exact ⟨h.bound _ _ hentry, fun hthread => by rw [hobserved] at hthread; cases hthread⟩
  · exact h.rolledBack hrun hflight hexisting _

/-- The turn is canceled or fails. -/
theorem Kept.turnFails (h : Kept sessionTtlMs s) (hrun : s.runs[call]? = some run)
    (hstage : run.stage = .turn) (state : TaskEnd) :
    Kept sessionTtlMs ((s.rollback sessionTtlMs run).setRun call
      { run with stage := .ended state }) := by
  have hflight : run.stage.inFlight = true := by rw [hstage]; rfl
  obtain hexisting | ⟨existing, hexisting⟩ := existing_cases run
  · have hnone := h.rollback_fresh hrun hstage hexisting
    refine h.ends hrun hflight (ownBinding_rollback s run) (fun _ => hnone) state ?_
    intro entry hentry
    rw [hnone] at hentry
    cases hentry
  · rw [CodexSessions.rollback, rollbackFreshThread_of_existing hexisting]
    exact h.rolledBack hrun hflight hexisting state

theorem Kept.turnCompletes (h : Kept sessionTtlMs s) (hrun : s.runs[call]? = some run)
    (hstage : run.stage = .turn) (now : ℤ) :
    Kept sessionTtlMs ((s.refresh sessionTtlMs run now).setRun call
      { run with stage := .ended .completed }) := by
  have hflight : run.stage.inFlight = true := by rw [hstage]; rfl
  have hnone : s.sessions run.task.contextId = none →
      (s.refresh sessionTtlMs run now).sessions run.task.contextId = none := by
    intro hnone
    cases hexisting : run.existing <;>
      simp only [CodexSessions.refresh, hexisting, hnone]
  refine h.ends hrun hflight (ownBinding_refresh s run now) hnone _ fun entry hentry => ?_
  refine ⟨?_, fun _ => rfl⟩
  cases hexisting : run.existing with
  | none =>
      simp only [CodexSessions.refresh, hexisting] at hentry
      exact h.bound _ _ hentry
  | some existing =>
      obtain hown | ⟨hgone, -⟩ := (h.alone call run hrun).resumed hflight existing hexisting
      · have hpos := h.pos_of_session hown
        simp only [CodexSessions.refresh, hexisting, hown, hpos, and_self, if_true] at hentry
        obtain rfl := Option.some.inj (hentry.symm.trans (Function.update_self _ _ _))
        exact h.bound_resumed hrun hflight hexisting (by rw [hown]; exact Option.some_ne_none _)
          rfl rfl
      · rw [hnone hgone] at hentry
        cases hentry

/-- A task moves on and leaves the bindings as they are. -/
theorem Kept.moves (h : Kept sessionTtlMs s) (hrun : s.runs[call]? = some run) {stage : Stage}
    (hruns : s'.runs = s.runs.set call { run with stage }) (hsessions : s'.sessions = s.sessions)
    (hcounter : s'.writeCounter = s.writeCounter) (hlocked : Locked s')
    (hstate : run.stage.state? = some .completed ∨ run.stage = .turn →
      stage.state? = some .completed ∨ stage = .turn)
    (hobserved : run.observedThreadId ≠ none → stage.state?.isSome)
    (hresumed : stage.inFlight = true → run.stage.inFlight = true ∧ run.existing ≠ none)
    (hunwritten : stage = .waiting ∨ stage = .entered → run.stage = .waiting ∨
      run.stage = .entered) : Kept sessionTtlMs s' := by
  have halone := h.alone call run hrun
  have hchange : Change sessionTtlMs s s' call run { run with stage } :=
    ⟨hrun, hruns, rfl, .inl hsessions, hcounter.ge, .inr ⟨rfl, rfl⟩,
      fun other _ => .inl (congrFun hsessions other), .inl rfl⟩
  refine h.change hchange hlocked ?_ ?_ ?_
  · intro hoff other
    rw [hsessions]
    exact h.off hoff other
  · intro entry hentry
    rw [hsessions] at hentry
    exact hchange.bound (h.bound _ _ hentry) fun _ _ hor => ⟨rfl, hstate hor⟩
  · refine ⟨fun hflight existing hexisting => ?_, fun hturn hexisting => ?_, fun hne => ?_,
      halone.written.trans hcounter.ge, fun hor => halone.unwritten (hunwritten hor)⟩
    · rw [hsessions]
      exact (halone.resumed (hresumed hflight).1 existing hexisting).imp id
        fun hnone => ⟨hnone.1, hchange.outlived hnone.2⟩
    · exact absurd hexisting (hresumed (by rw [show stage = .turn from hturn]; rfl)).2
    · have hsome : stage.state?.isSome = true := hobserved hne
      refine ⟨(halone.observed hne).1, ?_, ?_, ?_⟩ <;> rintro (heq : stage = _) <;>
        rw [heq] at hsome <;> cases hsome

theorem Kept.enter (h : Kept sessionTtlMs s) (hrun : s.runs[call]? = some run)
    (henabled : s.locks.enabled (.enter call) = true) (aborted : Bool) :
    Kept sessionTtlMs (s.enter call run aborted) := by
  have hwaiting : run.stage = .waiting := by
    by_contra hne
    have hmem := (h.locked.admitted call).mpr ⟨run, hrun, hne⟩
    exact absurd hmem (by simpa using (Bool.and_eq_true_iff.mp henabled).2)
  have hobserved : run.observedThreadId = none := by
    by_contra hne
    exact ((h.alone call run hrun).observed hne).2.1 hwaiting
  refine h.moves hrun rfl rfl rfl (h.locked.enter hrun henabled aborted) ?_ ?_ ?_ ?_
  · rw [hwaiting]
    exact fun hor => hor.elim (fun heq => by cases heq) Stage.noConfusion
  · exact fun hne => absurd hobserved hne
  · cases aborted <;> exact fun hfalse => absurd hfalse Bool.false_ne_true
  · exact fun _ => .inl hwaiting

theorem Kept.leave (h : Kept sessionTtlMs s) (hrun : s.runs[call]? = some run)
    (hstage : run.stage = .entered) (state : TaskEnd) :
    Kept sessionTtlMs (s.setRun call { run with stage := .ended state }) := by
  have hobserved : run.observedThreadId = none := by
    by_contra hne
    exact ((h.alone call run hrun).observed hne).2.2.1 hstage
  refine h.moves hrun rfl rfl rfl (h.locked.setRun hrun rfl rfl rfl (by rw [hstage]; rfl) rfl)
    ?_ ?_ ?_ ?_
  · rw [hstage]
    exact fun hor => hor.elim (fun heq => by cases heq) Stage.noConfusion
  · exact fun hne => absurd hobserved hne
  · exact fun hfalse => absurd hfalse Bool.false_ne_true
  · exact fun hor => hor.elim Stage.noConfusion Stage.noConfusion

theorem Kept.resumed (h : Kept sessionTtlMs s) (hrun : s.runs[call]? = some run)
    (hstage : run.stage = .requested) (hexisting : run.existing.isSome) :
    Kept sessionTtlMs (s.resumed call run) := by
  have hne : run.existing ≠ none := Option.isSome_iff_ne_none.mp hexisting
  refine h.moves hrun rfl rfl rfl (h.locked.setRun hrun rfl rfl rfl (by rw [hstage]; rfl) rfl)
    ?_ ?_ ?_ ?_
  · exact fun _ => .inr rfl
  · exact fun hobserved => absurd ((h.alone call run hrun).observed hobserved).1 hne
  · exact fun _ => ⟨by rw [hstage]; rfl, hne⟩
  · exact fun hor => hor.elim Stage.noConfusion Stage.noConfusion

theorem Kept.release (h : Kept sessionTtlMs s) (hrun : s.runs[call]? = some run) {state : TaskEnd}
    (hstage : run.stage = .ended state) : Kept sessionTtlMs (s.release call run state) := by
  refine h.moves hrun rfl rfl rfl (h.locked.release hrun hstage) ?_ ?_ ?_ ?_
  · rw [hstage]
    exact fun hor => hor.elim .inl Stage.noConfusion
  · exact fun _ => rfl
  · exact fun hfalse => absurd hfalse Bool.false_ne_true
  · exact fun hor => hor.elim Stage.noConfusion Stage.noConfusion

theorem started_eq (sessionTtlMs : ℤ) (s : CodexSessions κ) (call : ℕ) (run : TaskRun κ)
    (threadId : String) (now : ℤ) :
    (s.started sessionTtlMs call run threadId now).runs =
        s.runs.set call { run with stage := .turn, observedThreadId := some threadId } ∧
      (s.started sessionTtlMs call run threadId now).locks = s.locks ∧
      (s.started sessionTtlMs call run threadId now).requests = s.requests ∧
      (s.started sessionTtlMs call run threadId now).writeCounter = s.writeCounter ∧
      (s.started sessionTtlMs call run threadId now).sessions =
        if 0 < sessionTtlMs then Function.update s.sessions run.task.contextId
          (some ⟨threadId, now, run.writeId, run.task.callerKey⟩)
        else s.sessions := by
  rw [CodexSessions.started]
  by_cases hpos : 0 < sessionTtlMs
  · rw [if_pos hpos, if_pos hpos]
    exact ⟨rfl, rfl, rfl, rfl, rfl⟩
  · rw [if_neg hpos, if_neg hpos]
    exact ⟨rfl, rfl, rfl, rfl, rfl⟩

theorem Kept.started (h : Kept sessionTtlMs s) (hrun : s.runs[call]? = some run)
    (hstage : run.stage = .requested) (hexisting : run.existing = none) {threadId : String}
    (hne : threadId ≠ "") (hnew : threadId ∉ s.startedThreads) (now : ℤ) :
    Kept sessionTtlMs (s.started sessionTtlMs call run threadId now) := by
  obtain ⟨hruns, hlocks, -, hcounter, hsessions⟩ :=
    started_eq sessionTtlMs s call run threadId now
  generalize s.started sessionTtlMs call run threadId now = s' at hruns hlocks hcounter hsessions
  have halone := h.alone call run hrun
  have hholds : run.stage.holds = true := by rw [hstage]; rfl
  have hchange : Change sessionTtlMs s s' call run
      { run with stage := .turn, observedThreadId := some threadId } := by
    refine ⟨hrun, hruns, rfl, .inr hholds, hcounter.ge, .inr ⟨rfl, rfl⟩,
      fun other hother => .inl ?_, .inr ⟨threadId, rfl, hnew⟩⟩
    rw [hsessions]
    split
    · exact Function.update_of_ne hother _ _
    · rfl
  have hself : ∀ entry, s'.sessions run.task.contextId = some entry →
      entry = ⟨threadId, now, run.writeId, run.task.callerKey⟩ := by
    intro entry hentry
    rw [hsessions] at hentry
    split at hentry
    · rw [Function.update_self] at hentry
      exact (Option.some.inj hentry).symm
    · next hpos =>
        rw [h.off (by omega)] at hentry
        cases hentry
  refine h.change hchange (h.locked.setRun hrun hruns hlocks rfl hholds rfl) ?_ ?_ ?_
  · intro hoff other
    rw [hsessions, if_neg (by omega)]
    exact h.off hoff other
  · intro entry hentry
    obtain rfl := hself entry hentry
    have hcall : s'.runs[call]? =
        some { run with stage := .turn, observedThreadId := some threadId } := by
      rw [hchange.getElem?, if_pos rfl]
    exact ⟨call, _, hcall, rfl, rfl, rfl, .inr rfl⟩
  · refine ⟨fun _ existing hsome => ?_, fun _ _ => ⟨threadId, rfl, hne, fun entry hentry => ?_⟩,
      fun _ => ⟨hexisting, Stage.noConfusion, Stage.noConfusion, Stage.noConfusion⟩,
      halone.written.trans hcounter.ge, fun hor => hor.elim Stage.noConfusion Stage.noConfusion⟩
    · exact absurd (hexisting.symm.trans hsome) (by simp)
    · obtain rfl := hself entry hentry
      exact ⟨rfl, rfl⟩

/-! ### The lookup -/

omit [DecidableEq κ] in
theorem evictExpired_cases (sessions : κ → Option SessionEntry) (cutoff : ℤ) (contextId : κ) :
    evictExpired sessions cutoff contextId = sessions contextId ∧
      (∀ entry, sessions contextId = some entry → cutoff ≤ entry.lastUsedAt) ∨
    evictExpired sessions cutoff contextId = none ∧
      ∀ entry, sessions contextId = some entry → entry.lastUsedAt < cutoff := by
  rw [evictExpired]
  cases sessions contextId with
  | none => exact .inl ⟨rfl, by simp⟩
  | some entry =>
      by_cases hlt : entry.lastUsedAt < cutoff
      · exact .inr ⟨by simp [Option.filter, hlt], by simpa using hlt⟩
      · exact .inl ⟨by simp [Option.filter, hlt], by simpa using hlt⟩

/-- What the lookup finds: a binding of the same caller, young enough. -/
def found (sessionTtlMs : ℤ) (s : CodexSessions κ) (task : PlainTask κ) (now : ℤ) :
    Option SessionEntry :=
  if 0 < sessionTtlMs then
    (evictExpired s.sessions (now - sessionTtlMs) task.contextId).filter fun entry =>
      decide (entry.callerKey = task.callerKey)
  else none

omit [DecidableEq κ] in
theorem of_found {task : PlainTask κ} {now : ℤ} {entry : SessionEntry}
    (hfound : found sessionTtlMs s task now = some entry) :
    0 < sessionTtlMs ∧ s.sessions task.contextId = some entry ∧
      entry.callerKey = task.callerKey ∧ now - entry.lastUsedAt ≤ sessionTtlMs := by
  rw [found] at hfound
  split at hfound
  · next hpos =>
      obtain ⟨hsome, hcaller⟩ := Option.filter_eq_some_iff.mp hfound
      obtain ⟨hsame, hage⟩ | ⟨hnone, -⟩ :=
        evictExpired_cases s.sessions (now - sessionTtlMs) task.contextId
      · rw [hsame] at hsome
        have := hage entry hsome
        exact ⟨hpos, hsome, of_decide_eq_true hcaller, by omega⟩
      · rw [hnone] at hsome
        cases hsome
  · cases hfound

def request (call : ℕ) : Option SessionEntry → ThreadRequest
  | some entry => .resume call entry.threadId
  | none => .start call

/-- The lookup, in the terms of what it found. -/
structure LookedUp (sessionTtlMs : ℤ) (s s' : CodexSessions κ) (call : ℕ) (run : TaskRun κ)
    (now : ℤ) (writeId : ℕ) : Prop where
  locks : s'.locks = s.locks
  runs : s'.runs = s.runs.set call { run with
    stage := .requested, tNow := now, writeId, existing := found sessionTtlMs s run.task now }
  requests : s'.requests = s.requests ++ [request call (found sessionTtlMs s run.task now)]
  counter : s.writeCounter ≤ s'.writeCounter
  written : writeId ≤ s'.writeCounter
  fresh : 0 < sessionTtlMs → s.writeCounter < writeId
  others : ∀ contextId ≠ run.task.contextId,
    s'.sessions contextId = s.sessions contextId ∨
    s'.sessions contextId = none ∧ 0 < sessionTtlMs ∧
      ∀ entry, s.sessions contextId = some entry → entry.lastUsedAt < now - sessionTtlMs
  own : ∀ entry, s'.sessions run.task.contextId = some entry →
    s.sessions run.task.contextId = some entry ∨
    ∃ existing, found sessionTtlMs s run.task now = some existing ∧
      entry = ⟨existing.threadId, now, writeId, run.task.callerKey⟩
  refreshed : ∀ existing, found sessionTtlMs s run.task now = some existing →
    s'.sessions run.task.contextId =
      some ⟨existing.threadId, now, writeId, run.task.callerKey⟩

theorem lookedUp (sessionTtlMs : ℤ) (s : CodexSessions κ) (call : ℕ) (run : TaskRun κ)
    (now : ℤ) :
    ∃ writeId,
      LookedUp sessionTtlMs s (s.lookup sessionTtlMs call run now) call run now writeId := by
  by_cases hpos : 0 < sessionTtlMs
  · have hevict := evictExpired_cases s.sessions (now - sessionTtlMs)
    refine ⟨s.writeCounter + 1, ?_⟩
    cases hfound : found sessionTtlMs s run.task now with
    | none =>
        have hexisting := hfound
        rw [found, if_pos hpos] at hexisting
        constructor <;>
          simp only [CodexSessions.lookup, hpos, decide_true, if_true, hexisting, hfound, request]
        · exact Nat.le_succ _
        · exact le_rfl
        · exact fun _ => Nat.lt_succ_self _
        · exact fun other _ => (hevict other).imp And.left fun hnone => ⟨hnone.1, trivial, hnone.2⟩
        · intro entry hentry
          obtain ⟨hsame, -⟩ | ⟨hnone, -⟩ := hevict run.task.contextId
          · exact .inl (hsame.symm.trans hentry)
          · rw [hnone] at hentry
            cases hentry
        · exact fun _ hfalse => by cases hfalse
    | some existing =>
        have hexisting := hfound
        rw [found, if_pos hpos] at hexisting
        constructor <;>
          simp only [CodexSessions.lookup, hpos, decide_true, if_true, hexisting, hfound, request]
        · exact Nat.le_succ _
        · exact le_rfl
        · exact fun _ => Nat.lt_succ_self _
        · intro other hne
          rw [Function.update_of_ne hne]
          exact (hevict other).imp And.left fun hnone => ⟨hnone.1, trivial, hnone.2⟩
        · intro entry hentry
          rw [Function.update_self] at hentry
          exact .inr ⟨existing, rfl, (Option.some.inj hentry).symm⟩
        · intro existing' heq
          obtain rfl := Option.some.inj heq
          exact Function.update_self _ _ _
  · have hfound : found sessionTtlMs s run.task now = none := if_neg hpos
    refine ⟨0, ?_⟩
    constructor <;>
      simp only [CodexSessions.lookup, hpos, decide_false, Bool.false_eq_true, if_false,
        Option.filter_none, hfound, request]
    · exact le_rfl
    · exact Nat.zero_le _
    · exact fun hfalse => hfalse.elim
    · exact fun _ _ => .inl trivial
    · exact fun _ hentry => .inl hentry
    · exact fun _ hfalse => by cases hfalse

theorem Kept.lookup (h : Kept sessionTtlMs s) (hrun : s.runs[call]? = some run)
    (hstage : run.stage = .entered) (now : ℤ) :
    Kept sessionTtlMs (s.lookup sessionTtlMs call run now) := by
  obtain ⟨writeId, hlook⟩ := lookedUp sessionTtlMs s call run now
  generalize s.lookup sessionTtlMs call run now = s' at hlook
  have halone := h.alone call run hrun
  have hholds : run.stage.holds = true := by rw [hstage]; rfl
  have hobserved : run.observedThreadId = none := by
    by_contra hne
    exact (halone.observed hne).2.2.1 hstage
  have hchange : Change sessionTtlMs s s' call run { run with
      stage := .requested, tNow := now, writeId, existing := found sessionTtlMs s run.task now } :=
    ⟨hrun, hlook.runs, rfl, .inr hholds, hlook.counter, .inl (halone.unwritten (.inr hstage)),
      fun other hne => (hlook.others other hne).imp id
        fun hnone => ⟨hnone.1, hlook.fresh hnone.2.1, hnone.2.2⟩, .inl rfl⟩
  have htransfer : ∀ entry, Bound s run.task.contextId entry → Bound s' run.task.contextId entry :=
    fun entry hbound => hchange.bound hbound fun _ hthread => by
      rw [hobserved] at hthread
      cases hthread
  refine h.change hchange (h.locked.setRun hrun hlook.runs hlook.locks rfl hholds rfl) ?_ ?_ ?_
  · intro hoff other
    by_cases heq : other = run.task.contextId
    · subst heq
      by_contra hne
      obtain ⟨entry, hentry⟩ := Option.ne_none_iff_exists'.mp hne
      obtain hsame | ⟨existing, hfound, -⟩ := hlook.own entry hentry
      · rw [h.off hoff] at hsame
        cases hsame
      · have := (of_found hfound).1
        omega
    · obtain hsame | ⟨hnone, -⟩ := hlook.others other heq
      · exact hsame.trans (h.off hoff other)
      · exact hnone
  · intro entry hentry
    obtain hsame | ⟨existing, hfound, rfl⟩ := hlook.own entry hentry
    · exact htransfer entry (h.bound _ _ hsame)
    · obtain ⟨-, hsome, hcaller, -⟩ := of_found hfound
      obtain ⟨i, starter, hstarter, hthread, hcontext, hkey, hor⟩ := h.bound _ _ hsome
      exact htransfer _ ⟨i, starter, hstarter, hthread, hcontext, hkey.trans hcaller, hor⟩
  · exact ⟨fun _ existing hfound => .inl (hlook.refreshed existing hfound), Stage.noConfusion,
      fun hne => absurd hobserved hne, hlook.written,
      fun hor => hor.elim Stage.noConfusion Stage.noConfusion⟩

theorem Kept.handle (h : Kept sessionTtlMs s) (task : PlainTask κ) (aborted : Bool) :
    Kept sessionTtlMs (s.handle task aborted) := by
  cases aborted with
  | true => exact h
  | false =>
      have hold : ∀ (i : ℕ) (run : TaskRun κ), (s.runs ++ [({ task } : TaskRun κ)])[i]? = some run →
          s.runs[i]? = some run ∨ run = { task } := by
        intro i run hrun
        rw [List.getElem?_append] at hrun
        split at hrun
        · exact .inl hrun
        · rw [List.getElem?_singleton] at hrun
          split at hrun
          · exact .inr (Option.some.inj hrun).symm
          · cases hrun
      have hthread : ∀ (i : ℕ) (run : TaskRun κ) (threadId : String),
          (s.runs ++ [({ task } : TaskRun κ)])[i]? = some run →
            run.observedThreadId = some threadId → s.runs[i]? = some run := by
        intro i run threadId hrun hthread
        obtain hsome | rfl := hold i run hrun
        · exact hsome
        · cases hthread
      refine ⟨h.locked.handle task false, h.off, ?_, ?_, ?_⟩
      · intro contextId entry hentry
        obtain ⟨i, starter, hstarter, hrest⟩ := h.bound contextId entry hentry
        exact ⟨i, starter, getElem?_push_runs hstarter, hrest⟩
      · intro i j a b threadId ha hb hathread hbthread
        exact h.unique i j a b threadId (hthread i a threadId ha hathread)
          (hthread j b threadId hb hbthread) hathread hbthread
      · intro i run hrun
        obtain hsome | rfl := hold i run hrun
        · have halone := h.alone i run hsome
          refine ⟨fun hflight existing hexisting => ?_, halone.started, halone.observed,
            halone.written, halone.unwritten⟩
          refine (halone.resumed hflight existing hexisting).imp id fun hnone => ⟨hnone.1, ?_⟩
          obtain ⟨j, later, hlater, hrest⟩ := hnone.2
          exact ⟨j, later, getElem?_push_runs hlater, hrest⟩
        · exact ⟨fun hfalse => absurd hfalse Bool.false_ne_true, Stage.noConfusion,
            fun hne => absurd rfl hne, Nat.zero_le _, fun _ => rfl⟩

theorem Kept.locks (h : Kept sessionTtlMs s) {locks : ContextLocks κ}
    (hlocked : Locked { s with locks }) : Kept sessionTtlMs { s with locks } :=
  ⟨hlocked, h.off, h.bound, h.unique,
    fun i run hrun => ⟨(h.alone i run hrun).resumed, (h.alone i run hrun).started,
      (h.alone i run hrun).observed, (h.alone i run hrun).written, (h.alone i run hrun).unwritten⟩⟩

theorem Kept.turnEnds (h : Kept sessionTtlMs s) (hrun : s.runs[call]? = some run)
    (hstage : run.stage = .turn) (status : TurnOutcomeStatus) (now : ℤ) :
    Kept sessionTtlMs (s.turnEnds sessionTtlMs call run status now) := by
  cases status with
  | completed => exact h.turnCompletes hrun hstage now
  | failed message => exact h.turnFails hrun hstage _
  | interrupted => exact h.turnFails hrun hstage _
  | aborted => exact h.turnFails hrun hstage _

omit [DecidableEq κ] in
/-- A step of one task under its guard. -/
theorem step_cases {guard : TaskRun κ → Prop} [DecidablePred guard]
    {next : TaskRun κ → CodexSessions κ}
    (h : ((s.runs[call]?).bind fun run => if guard run then some (next run) else none) =
      some s') : ∃ run, s.runs[call]? = some run ∧ guard run ∧ s' = next run := by
  obtain ⟨run, hrun, heq⟩ := Option.bind_eq_some_iff.mp h
  obtain ⟨hguard, heq⟩ := Option.ite_none_right_eq_some.mp heq
  exact ⟨run, hrun, hguard, (Option.some.inj heq).symm⟩

theorem Kept.step (h : Kept sessionTtlMs s) {a : Action κ}
    (hstep : ((system sessionTtlMs).restrict NewThreads).step s a s') : Kept sessionTtlMs s' := by
  obtain ⟨hnew, hstep⟩ := hstep
  cases a with
  | handle task aborted =>
      obtain rfl := Option.some.inj hstep
      exact h.handle task aborted
  | chain call =>
      obtain ⟨henabled, heq⟩ := Option.ite_none_right_eq_some.mp hstep
      obtain rfl := Option.some.inj heq
      exact h.locks (h.locked.job henabled rfl rfl fun _ hfalse => by cases hfalse)
  | adopt call =>
      obtain ⟨henabled, heq⟩ := Option.ite_none_right_eq_some.mp hstep
      obtain rfl := Option.some.inj heq
      exact h.locks (h.locked.job henabled rfl rfl fun _ hfalse => by cases hfalse)
  | enter call aborted =>
      obtain ⟨run, hrun, henabled, rfl⟩ := step_cases hstep
      exact h.enter hrun henabled aborted
  | leave call aborted =>
      obtain ⟨run, hrun, hstage, rfl⟩ := step_cases hstep
      exact h.leave hrun hstage _
  | lookup call now =>
      obtain ⟨run, hrun, hstage, rfl⟩ := step_cases hstep
      exact h.lookup hrun hstage now
  | resumed call =>
      obtain ⟨run, hrun, ⟨hstage, hexisting⟩, rfl⟩ := step_cases hstep
      exact h.resumed hrun hstage hexisting
  | started call threadId now =>
      obtain ⟨run, hrun, ⟨hstage, hexisting⟩, rfl⟩ := step_cases hstep
      exact h.started hrun hstage hexisting hnew.1 hnew.2 now
  | threadFails call =>
      obtain ⟨run, hrun, hstage, rfl⟩ := step_cases hstep
      exact h.threadFails hrun hstage
  | turnEnds call status now =>
      obtain ⟨run, hrun, hstage, rfl⟩ := step_cases hstep
      exact h.turnEnds hrun hstage status now
  | release call =>
      obtain ⟨run, hrun, heq⟩ := Option.bind_eq_some_iff.mp hstep
      cases hstage : run.stage with
      | ended state =>
          rw [hstage] at heq
          obtain rfl := Option.some.inj heq
          exact h.release hrun hstage
      | _ =>
          rw [hstage] at heq
          cases heq

theorem kept_of_run {labels : List (Action κ)}
    (hrun : ((system sessionTtlMs).restrict NewThreads).Run {} labels s) : Kept sessionTtlMs s :=
  hrun.invariant (fun _ _ _ h hstep => h.step hstep) kept_empty

/-! ## Resumes -/

/-- What a `thread/resume` rests on, when a task looks up. -/
structure Resumable (sessionTtlMs : ℤ) (s : CodexSessions κ) (task : PlainTask κ) (now : ℤ)
    (threadId : String) : Prop where
  binding : ∃ entry, s.sessions task.contextId = some entry ∧ entry.threadId = threadId ∧
    entry.callerKey = task.callerKey ∧ now - entry.lastUsedAt ≤ sessionTtlMs
  started : ∃ starter ∈ s.runs, starter.observedThreadId = some threadId
  starters : ∀ starter ∈ s.runs, starter.observedThreadId = some threadId →
    starter.task.contextId = task.contextId ∧ starter.task.callerKey = task.callerKey ∧
      starter.stage.state? = some .completed

theorem Kept.resumable (h : Kept sessionTtlMs s) (hrun : s.runs[call]? = some run)
    (hstage : run.stage = .entered) {now : ℤ} {entry : SessionEntry}
    (hfound : found sessionTtlMs s run.task now = some entry) :
    Resumable sessionTtlMs s run.task now entry.threadId := by
  obtain ⟨-, hsome, hcaller, hage⟩ := of_found hfound
  obtain ⟨i, starter, hstarter, hthread, hcontext, hkey, hor⟩ := h.bound _ _ hsome
  refine ⟨⟨entry, hsome, rfl, hcaller, hage⟩, ⟨starter, List.mem_of_getElem? hstarter, hthread⟩, ?_⟩
  intro other hmem hother
  obtain ⟨j, hj⟩ := List.mem_iff_getElem?.mp hmem
  obtain rfl := h.unique i j starter other _ hstarter hj hthread hother
  obtain rfl := Option.some.inj (hstarter.symm.trans hj)
  refine ⟨hcontext, hkey.trans hcaller, hor.resolve_right fun hturn => ?_⟩
  -- a starter in its first turn would have the lock of this context
  obtain rfl := h.locked.exclusive hrun hstarter hcontext (by rw [hstage]; rfl)
    (by rw [hturn]; rfl)
  obtain rfl := Option.some.inj (hrun.symm.trans hstarter)
  rw [hstage] at hturn
  cases hturn

/-! ## Resumes that fail -/

/-- A step, as a task sees it that another one has left its binding to. -/
inductive StepCase (sessionTtlMs : ℤ) (s : CodexSessions κ) :
    Action κ → CodexSessions κ → Prop where
  | quiet {a : Action κ} {s' : CodexSessions κ} (sessions : s'.sessions = s.sessions)
      (requests : s'.requests = s.requests)
      (runs : ∀ (i : ℕ) (run : TaskRun κ), s.runs[i]? = some run → ∃ stage : Stage,
        s'.runs[i]? = some { run with stage } ∧ stage.inFlight = run.stage.inFlight ∧
          ∀ state, run.stage.state? = some state → stage.state? = some state)
      (new : ∀ (i : ℕ) (run : TaskRun κ), s'.runs[i]? = some run →
        s.runs[i]? ≠ none ∨ run.stage = .waiting) : StepCase sessionTtlMs s a s'
  | lookup {call : ℕ} {run : TaskRun κ} {now : ℤ} (found : s.runs[call]? = some run)
      (stage : run.stage = .entered) :
      StepCase sessionTtlMs s (.lookup call now) (s.lookup sessionTtlMs call run now)
  | started {call : ℕ} {run : TaskRun κ} {threadId : String} {now : ℤ}
      (found : s.runs[call]? = some run) (stage : run.stage = .requested)
      (existing : run.existing = none) :
      StepCase sessionTtlMs s (.started call threadId now)
        (s.started sessionTtlMs call run threadId now)
  | ends {a : Action κ} {call : ℕ} {run : TaskRun κ} {t : CodexSessions κ} {state : TaskEnd}
      (found : s.runs[call]? = some run) (flight : run.stage.inFlight = true)
      (own : OwnBinding s t run.task.contextId)
      (rolledBack : state ≠ .completed → ∀ existing, run.existing = some existing →
        t = s.rollbackResumeRefresh sessionTtlMs run) :
      StepCase sessionTtlMs s a (t.setRun call { run with stage := .ended state })

theorem StepCase.move {a : Action κ} {stage : Stage} (hrun : s.runs[call]? = some run)
    (hsessions : s'.sessions = s.sessions) (hrequests : s'.requests = s.requests)
    (hruns : s'.runs = s.runs.set call { run with stage })
    (hflight : stage.inFlight = run.stage.inFlight)
    (hstate : ∀ state, run.stage.state? = some state → stage.state? = some state) :
    StepCase sessionTtlMs s a s' := by
  refine .quiet hsessions hrequests (fun i other hother => ?_)
    fun i other hother => .inl fun hnone => ?_
  · rw [hruns, getElem?_set_runs hrun]
    by_cases heq : i = call
    · subst heq
      obtain rfl := Option.some.inj (hrun.symm.trans hother)
      exact ⟨stage, if_pos rfl, hflight, hstate⟩
    · exact ⟨other.stage, by rw [if_neg heq]; exact hother, rfl, fun _ => id⟩
  · rw [hruns, getElem?_set_runs hrun] at hother
    by_cases heq : i = call
    · rw [heq, hrun] at hnone
      cases hnone
    · rw [if_neg heq, hnone] at hother
      cases hother

theorem stepCase {a : Action κ} (h : Kept sessionTtlMs s)
    (hstep : (system sessionTtlMs).step s a s') : StepCase sessionTtlMs s a s' := by
  cases a with
  | handle task aborted =>
      obtain rfl := Option.some.inj hstep
      cases aborted with
      | true =>
          exact .quiet rfl rfl (fun i run hrun => ⟨run.stage, hrun, rfl, fun _ => id⟩)
            fun i run hrun => .inl (by rw [show s.runs[i]? = some run from hrun]; simp)
      | false =>
          refine .quiet rfl rfl (fun i run hrun => ⟨run.stage, getElem?_push_runs hrun, rfl,
            fun _ => id⟩) fun i run hrun => ?_
          change (s.runs ++ [({ task } : TaskRun κ)])[i]? = some run at hrun
          rw [List.getElem?_append] at hrun
          split at hrun
          · exact .inl (by rw [hrun]; simp)
          · rw [List.getElem?_singleton] at hrun
            split at hrun
            · exact .inr (by rw [← Option.some.inj hrun])
            · cases hrun
  | chain call | adopt call =>
      obtain ⟨-, heq⟩ := Option.ite_none_right_eq_some.mp hstep
      obtain rfl := Option.some.inj heq
      exact .quiet rfl rfl (fun i run hrun => ⟨run.stage, hrun, rfl, fun _ => id⟩)
        fun i run hrun => .inl (by rw [show s.runs[i]? = some run from hrun]; simp)
  | enter call aborted =>
      obtain ⟨run, hrun, henabled, rfl⟩ := step_cases hstep
      have hwaiting : run.stage = .waiting := by
        by_contra hne
        have hmem := (h.locked.admitted call).mpr ⟨run, hrun, hne⟩
        exact absurd hmem (by simpa using (Bool.and_eq_true_iff.mp henabled).2)
      refine .move hrun rfl rfl rfl ?_ fun state hstate => ?_
      · rw [hwaiting]
        cases aborted <;> rfl
      · rw [hwaiting] at hstate
        cases hstate
  | leave call aborted =>
      obtain ⟨run, hrun, hstage, rfl⟩ := step_cases hstep
      refine .move hrun rfl rfl rfl (by rw [hstage]; rfl) fun state hstate => ?_
      rw [hstage] at hstate
      cases hstate
  | lookup call now =>
      obtain ⟨run, hrun, hstage, rfl⟩ := step_cases hstep
      exact .lookup hrun hstage
  | resumed call =>
      obtain ⟨run, hrun, ⟨hstage, -⟩, rfl⟩ := step_cases hstep
      refine .move hrun rfl rfl rfl (by rw [hstage]; rfl) fun state hstate => ?_
      rw [hstage] at hstate
      cases hstate
  | started call threadId now =>
      obtain ⟨run, hrun, ⟨hstage, hexisting⟩, rfl⟩ := step_cases hstep
      exact .started hrun hstage hexisting
  | threadFails call =>
      obtain ⟨run, hrun, hstage, rfl⟩ := step_cases hstep
      exact .ends hrun (by rw [hstage]; rfl) (ownBinding_rollbackResumeRefresh s run)
        fun _ _ _ => rfl
  | turnEnds call status now =>
      obtain ⟨run, hrun, hstage, rfl⟩ := step_cases hstep
      have hflight : run.stage.inFlight = true := by rw [hstage]; rfl
      have hrolledBack : ∀ existing, run.existing = some existing →
          s.rollback sessionTtlMs run = s.rollbackResumeRefresh sessionTtlMs run :=
        fun existing hexisting => by
          rw [CodexSessions.rollback, rollbackFreshThread_of_existing hexisting]
      cases status with
      | completed =>
          exact .ends hrun hflight (ownBinding_refresh s run now) fun hne => absurd rfl hne
      | _ => exact .ends hrun hflight (ownBinding_rollback s run) fun _ => hrolledBack
  | release call =>
      obtain ⟨run, hrun, heq⟩ := Option.bind_eq_some_iff.mp hstep
      cases hstage : run.stage with
      | ended state =>
          rw [hstage] at heq
          obtain rfl := Option.some.inj heq
          refine .move hrun rfl rfl rfl (by rw [hstage]; rfl) fun state' hstate => ?_
          rw [hstage] at hstate
          exact hstate
      | _ =>
          rw [hstage] at heq
          cases heq

/-- Only the lookup asks for a thread. -/
theorem requests_step {a : Action κ} (h : Kept sessionTtlMs s)
    (hstep : (system sessionTtlMs).step s a s') (hne : ∀ call now, a ≠ .lookup call now) :
    s'.requests = s.requests := by
  cases stepCase h hstep with
  | quiet _ hrequests => exact hrequests
  | @lookup call _ now => exact absurd rfl (hne call now)
  | @started call run threadId now => exact (started_eq _ s call run threadId now).2.2.1
  | ends _ _ hown => exact hown.requests

/-- The binding has the time it had, unless a later lookup dropped it for its age. The time
that counts for its age is that of the task while the task runs. -/
def AsWas (sessionTtlMs : ℤ) (s : CodexSessions κ) (contextId : κ) (entry : SessionEntry)
    (writeId : ℕ) (now : ℤ) : Prop :=
  (∃ writeId', s.sessions contextId = some { entry with writeId := writeId' }) ∨
  s.sessions contextId = none ∧
    (Outlived sessionTtlMs s writeId now ∨ Outlived sessionTtlMs s writeId entry.lastUsedAt)

/-- A task that resumed a thread, once it has looked up and while no other task of its context
looks up. -/
structure Follows (sessionTtlMs : ℤ) (s : CodexSessions κ) (call : ℕ) (entry : SessionEntry)
    (now : ℤ) (run : TaskRun κ) : Prop where
  found : s.runs[call]? = some run
  existing : run.existing = some entry
  tNow : run.tNow = now
  callerKey : entry.callerKey = run.task.callerKey
  alone : ∀ (i : ℕ) (other : TaskRun κ), i ≠ call → s.runs[i]? = some other →
    other.task.contextId = run.task.contextId → other.stage.inFlight = false
  stage : run.stage.inFlight = true ∨ ∃ state, run.stage.state? = some state ∧
    (state = .completed ∨ AsWas sessionTtlMs s run.task.contextId entry run.writeId now)

omit [DecidableEq κ] in
theorem outlived_of_runs {writeId : ℕ} {since : ℤ}
    (hruns : ∀ (i : ℕ) (run : TaskRun κ), s.runs[i]? = some run → run.writeId ≠ 0 →
      ∃ run' : TaskRun κ, s'.runs[i]? = some run' ∧ run'.writeId = run.writeId ∧
        run'.tNow = run.tNow)
    (h : Outlived sessionTtlMs s writeId since) : Outlived sessionTtlMs s' writeId since := by
  obtain ⟨i, later, hlater, hwriteId, hsince⟩ := h
  obtain ⟨run', hrun', hsame, htime⟩ := hruns i later hlater (by omega)
  exact ⟨i, run', hrun', by omega, by omega⟩

omit [DecidableEq κ] in
theorem AsWas.mono {contextId : κ} {entry : SessionEntry} {writeId : ℕ} {now : ℤ}
    (h : AsWas sessionTtlMs s contextId entry writeId now)
    (hsessions : s'.sessions contextId = s.sessions contextId)
    (hruns : ∀ (i : ℕ) (run : TaskRun κ), s.runs[i]? = some run → run.writeId ≠ 0 →
      ∃ run' : TaskRun κ, s'.runs[i]? = some run' ∧ run'.writeId = run.writeId ∧
        run'.tNow = run.tNow) : AsWas sessionTtlMs s' contextId entry writeId now := by
  obtain ⟨writeId', hsome⟩ | ⟨hnone, hor⟩ := h
  · exact .inl ⟨writeId', hsessions.trans hsome⟩
  · exact .inr ⟨hsessions.trans hnone, hor.imp (outlived_of_runs hruns) (outlived_of_runs hruns)⟩

omit [DecidableEq κ] in
/-- Who looked up, and when, is not forgotten. -/
theorem keeps_of_set {run₀ run₁ : TaskRun κ} {i : ℕ} (hrun₀ : s.runs[i]? = some run₀)
    (hruns : s'.runs = s.runs.set i run₁)
    (hsame : run₀.writeId = 0 ∨ run₁.writeId = run₀.writeId ∧ run₁.tNow = run₀.tNow)
    (j : ℕ) (run : TaskRun κ) (hrun : s.runs[j]? = some run) (hne : run.writeId ≠ 0) :
    ∃ run' : TaskRun κ, s'.runs[j]? = some run' ∧ run'.writeId = run.writeId ∧
      run'.tNow = run.tNow := by
  rw [hruns, getElem?_set_runs hrun₀]
  by_cases heq : j = i
  · subst heq
    obtain rfl := Option.some.inj (hrun₀.symm.trans hrun)
    obtain ⟨hwriteId, htime⟩ := hsame.resolve_left hne
    exact ⟨run₁, if_pos rfl, hwriteId, htime⟩
  · exact ⟨run, by rw [if_neg heq]; exact hrun, rfl, rfl⟩

omit [DecidableEq κ] in
/-- Another task changes, in a context of its own or on its way to the lookup. -/
theorem Follows.apart {entry : SessionEntry} {now : ℤ} {i : ℕ} {run₀ run₁ : TaskRun κ}
    (h : Follows sessionTtlMs s call entry now run) (hrun₀ : s.runs[i]? = some run₀)
    (hruns : s'.runs = s.runs.set i run₁) (hne : i ≠ call) (htask : run₁.task = run₀.task)
    (hcontext : run₀.task.contextId ≠ run.task.contextId)
    (hstage : ∀ state, run.stage.state? = some state →
      AsWas sessionTtlMs s run.task.contextId entry run.writeId now →
        AsWas sessionTtlMs s' run.task.contextId entry run.writeId now) :
    Follows sessionTtlMs s' call entry now run := by
  refine ⟨?_, h.existing, h.tNow, h.callerKey, fun j other hj hother hsame => ?_, ?_⟩
  · rw [hruns, getElem?_set_runs hrun₀, if_neg hne.symm]
    exact h.found
  · rw [hruns, getElem?_set_runs hrun₀] at hother
    by_cases heq : j = i
    · rw [if_pos heq] at hother
      obtain rfl := Option.some.inj hother
      rw [htask] at hsame
      exact absurd hsame hcontext
    · rw [if_neg heq] at hother
      exact h.alone j other hj hother hsame
  · exact h.stage.imp id fun hstate => by
      obtain ⟨state, hsome, hor⟩ := hstate
      exact ⟨state, hsome, hor.imp id (hstage state hsome)⟩

/-- No task of the context looks up. -/
def LeavesTo (contextId : κ) (s : CodexSessions κ) : Action κ → Prop
  | .lookup call _ => ∀ run, s.runs[call]? = some run → run.task.contextId ≠ contextId
  | _ => True

theorem Follows.step {a : Action κ} {entry : SessionEntry} {now : ℤ} (hkept : Kept sessionTtlMs s)
    (h : Follows sessionTtlMs s call entry now run) (hleaves : LeavesTo run.task.contextId s a)
    (hstep : (system sessionTtlMs).step s a s') :
    ∃ run', run'.task = run.task ∧ Follows sessionTtlMs s' call entry now run' := by
  cases stepCase hkept hstep with
  | quiet hsessions _ hruns hnew =>
      have hkeeps : ∀ (i : ℕ) (other : TaskRun κ), s.runs[i]? = some other → other.writeId ≠ 0 →
          ∃ other' : TaskRun κ, s'.runs[i]? = some other' ∧ other'.writeId = other.writeId ∧
            other'.tNow = other.tNow := fun i other hother _ => by
        obtain ⟨stage, hstage, -⟩ := hruns i other hother
        exact ⟨_, hstage, rfl, rfl⟩
      obtain ⟨stage, hfound, hflight, hstate⟩ := hruns call run h.found
      refine ⟨{ run with stage }, rfl, hfound, h.existing, h.tNow, h.callerKey, ?_, ?_⟩
      · intro i other hne hother hsame
        obtain hsome | hwaiting := hnew i other hother
        · obtain ⟨before, hbefore⟩ := Option.ne_none_iff_exists'.mp hsome
          obtain ⟨stage', hafter, hflight', -⟩ := hruns i before hbefore
          obtain rfl := Option.some.inj (hafter.symm.trans hother)
          exact hflight'.trans (h.alone i before hne hbefore hsame)
        · rw [hwaiting]
          rfl
      · refine h.stage.imp hflight.trans fun hstage => ?_
        obtain ⟨state, hsome, hor⟩ := hstage
        exact ⟨state, hstate state hsome, hor.imp id (·.mono (congrFun hsessions _) hkeeps)⟩
  | @lookup i before later hbefore hentered =>
      have hne : i ≠ call := by
        rintro rfl
        obtain rfl := Option.some.inj (hbefore.symm.trans h.found)
        obtain hflight | ⟨state, hstate, -⟩ := h.stage
        · rw [hentered] at hflight
          cases hflight
        · rw [hentered] at hstate
          cases hstate
      have hcontext := hleaves before hbefore
      obtain ⟨writeId, hlook⟩ := lookedUp sessionTtlMs s i before later
      generalize s.lookup sessionTtlMs i before later = s' at hlook
      have hzero := (hkept.alone i before hbefore).unwritten (.inr hentered)
      have hkeeps := keeps_of_set hbefore hlook.runs (.inl hzero)
      refine ⟨run, rfl, h.apart hbefore hlook.runs hne rfl hcontext fun state _ haswas => ?_⟩
      obtain hsame | ⟨hnone, hpos, hold⟩ := hlook.others _ hcontext.symm
      · exact haswas.mono hsame hkeeps
      · refine .inr ⟨hnone, ?_⟩
        obtain ⟨writeId', hsome⟩ | ⟨-, hor⟩ := haswas
        · refine .inr ⟨i, _, by rw [hlook.runs, getElem?_set_runs hbefore, if_pos rfl], ?_,
            hold _ hsome⟩
          exact (hkept.alone call run h.found).written.trans_lt (hlook.fresh hpos)
        · exact hor.imp (outlived_of_runs hkeeps) (outlived_of_runs hkeeps)
  | @started i before threadId later hbefore hrequested hexisting =>
      have hne : i ≠ call := by
        rintro rfl
        obtain rfl := Option.some.inj (hbefore.symm.trans h.found)
        exact absurd (hexisting.symm.trans h.existing) (by simp)
      have hcontext : before.task.contextId ≠ run.task.contextId := fun hsame => by
        have := h.alone i before hne hbefore hsame
        rw [hrequested] at this
        cases this
      obtain ⟨hruns, -, -, -, hsessions⟩ :=
        started_eq sessionTtlMs s i before threadId later
      refine ⟨run, rfl, h.apart hbefore hruns hne rfl hcontext fun state _ haswas => ?_⟩
      refine haswas.mono ?_ (keeps_of_set hbefore hruns (.inr ⟨rfl, rfl⟩))
      rw [hsessions]
      split
      · exact Function.update_of_ne hcontext.symm _ _
      · rfl
  | @ends _ i before t state hbefore hflight hown hrolledBack =>
      have hruns : (t.setRun i { before with stage := .ended state }).runs =
          s.runs.set i { before with stage := .ended state } := by
        rw [CodexSessions.setRun, hown.runs]
      have hkeeps := keeps_of_set hbefore hruns (.inr ⟨rfl, rfl⟩)
      by_cases hne : i = call
      · subst hne
        obtain rfl := Option.some.inj (hbefore.symm.trans h.found)
        refine ⟨{ before with stage := .ended state }, rfl, ?_, h.existing, h.tNow, h.callerKey,
          ?_, .inr ⟨state, rfl, ?_⟩⟩
        · rw [hruns, getElem?_set_runs hbefore, if_pos rfl]
        · intro j other hne hother hsame
          rw [hruns, getElem?_set_runs hbefore, if_neg hne] at hother
          exact h.alone j other hne hother hsame
        · by_cases hstate : state = .completed
          · exact .inl hstate
          · refine .inr ?_
            obtain rfl := hrolledBack hstate entry h.existing
            obtain ⟨writeId, hsome⟩ | ⟨hnone, houtlived⟩ :=
              hkept.restored hbefore hflight h.existing
            · refine .inl ⟨writeId, hsome.trans ?_⟩
              rw [← h.callerKey]
            · refine .inr ⟨hnone, .inl ?_⟩
              rw [← h.tNow]
              exact outlived_of_runs hkeeps houtlived
      · have hcontext : before.task.contextId ≠ run.task.contextId := fun hsame => by
          have := h.alone i before hne hbefore hsame
          rw [hflight] at this
          cases this
        refine ⟨run, rfl, h.apart hbefore hruns hne rfl hcontext fun _ _ haswas => ?_⟩
        exact haswas.mono (hown.others _ hcontext.symm) hkeeps

theorem follows_lookup (hkept : Kept sessionTtlMs s) (hrun : s.runs[call]? = some run)
    (hstage : run.stage = .entered) {now : ℤ} {entry : SessionEntry}
    (hfound : found sessionTtlMs s run.task now = some entry) :
    ∃ run', run'.task = run.task ∧
      Follows sessionTtlMs (s.lookup sessionTtlMs call run now) call entry now run' := by
  obtain ⟨writeId, hlook⟩ := lookedUp sessionTtlMs s call run now
  refine ⟨{ run with
    stage := .requested
    tNow := now
    writeId
    existing := found sessionTtlMs s run.task now }, rfl, ?_, hfound, rfl, (of_found hfound).2.2.1,
    fun i other hne hother hsame => ?_, .inl rfl⟩
  · rw [hlook.runs, getElem?_set_runs hrun, if_pos rfl]
  · rw [hlook.runs, getElem?_set_runs hrun, if_neg hne] at hother
    by_contra hflight
    exact hne (hkept.locked.exclusive hrun hother hsame (by rw [hstage]; rfl)
      (Stage.holds_of_inFlight (by simpa using hflight)))

theorem follows_run {entry : SessionEntry} {now : ℤ} {more : List (Action κ)}
    (hkept : Kept sessionTtlMs s) (h : Follows sessionTtlMs s call entry now run)
    (hrun : (((system sessionTtlMs).restrict NewThreads).restrict
      (LeavesTo run.task.contextId)).Run s more s') :
    Kept sessionTtlMs s' ∧
      ∃ run', run'.task = run.task ∧ Follows sessionTtlMs s' call entry now run' := by
  induction hrun with
  | nil => exact ⟨hkept, run, rfl, h⟩
  | snoc _ hstep ih =>
      obtain ⟨hkept', run', htask, hfollows⟩ := ih
      obtain ⟨run'', htask', hfollows'⟩ := hfollows.step hkept' (by rw [htask]; exact hstep.1)
        hstep.2.2
      exact ⟨hkept'.step hstep.2, run'', htask'.trans htask, hfollows'⟩

/-- What a task of a backend that has reached `s` may meet. -/
structure KeepsCallers (sessionTtlMs : ℤ) (s : CodexSessions κ) : Prop where
  /-- One request for each lookup. -/
  asks : ∀ (call : ℕ) (now : ℤ) (s' : CodexSessions κ),
    (system sessionTtlMs).step s (.lookup call now) s' → ∃ run, s.runs[call]? = some run ∧
      (s'.requests = s.requests ++ [.start call] ∨
        ∃ threadId, s'.requests = s.requests ++ [.resume call threadId] ∧
          Resumable sessionTtlMs s run.task now threadId)
  asksOnly : ∀ (a : Action κ) (s' : CodexSessions κ), (system sessionTtlMs).step s a s' →
    (∀ call now, a ≠ .lookup call now) → s'.requests = s.requests
  /-- Behind another caller. -/
  otherCaller : ∀ (call : ℕ) (now : ℤ) (s' : CodexSessions κ) (run : TaskRun κ)
    (entry : SessionEntry), (system sessionTtlMs).step s (.lookup call now) s' →
      s.runs[call]? = some run → s.sessions run.task.contextId = some entry →
        entry.callerKey ≠ run.task.callerKey → s'.requests = s.requests ++ [.start call]
  /-- A resumed task that has failed or was canceled, while no other one looks up. -/
  failedResume : ∀ (call : ℕ) (now : ℤ) (s' t : CodexSessions κ) (run run' : TaskRun κ)
    (entry : SessionEntry) (more : List (Action κ)),
      (system sessionTtlMs).step s (.lookup call now) s' → s.runs[call]? = some run →
        s.sessions run.task.contextId = some entry →
          s'.requests = s.requests ++ [.resume call entry.threadId] →
            (((system sessionTtlMs).restrict NewThreads).restrict
              (LeavesTo run.task.contextId)).Run s' more t →
                t.runs[call]? = some run' →
                  run'.stage.state? = some .failed ∨ run'.stage.state? = some .canceled →
                    AsWas sessionTtlMs t run.task.contextId entry run'.writeId now

theorem requests_lookup (s : CodexSessions κ) (call : ℕ) (run : TaskRun κ) (now : ℤ) :
    (s.lookup sessionTtlMs call run now).requests =
      s.requests ++ [request call (found sessionTtlMs s run.task now)] := by
  obtain ⟨writeId, hlook⟩ := lookedUp sessionTtlMs s call run now
  exact hlook.requests

/-- In every run a thread is resumed only for the context and the caller it was started for,
within the lifetime of its binding and behind a first turn that completed. A resume that fails
leaves the binding the time it had. -/
theorem sessions_keep_callers {labels : List (Action κ)}
    (h : ((system sessionTtlMs).restrict NewThreads).Run {} labels s) :
    KeepsCallers sessionTtlMs s := by
  have hkept := kept_of_run h
  have hlookup : ∀ (call : ℕ) (now : ℤ) (s' : CodexSessions κ),
      (system sessionTtlMs).step s (.lookup call now) s' → ∃ run, s.runs[call]? = some run ∧
        run.stage = .entered ∧ s' = s.lookup sessionTtlMs call run now := by
    intro call now s' hstep
    obtain ⟨run, hrun, heq⟩ := Option.bind_eq_some_iff.mp hstep
    obtain ⟨hstage, heq⟩ := Option.ite_none_right_eq_some.mp heq
    exact ⟨run, hrun, hstage, (Option.some.inj heq).symm⟩
  refine ⟨?_, fun a s' hstep => requests_step hkept hstep, ?_, ?_⟩
  · intro call now s' hstep
    obtain ⟨run, hrun, hstage, rfl⟩ := hlookup call now s' hstep
    refine ⟨run, hrun, ?_⟩
    rw [requests_lookup]
    cases hfound : found sessionTtlMs s run.task now with
    | none => exact .inl rfl
    | some entry => exact .inr ⟨_, rfl, hkept.resumable hrun hstage hfound⟩
  · intro call now s' run entry hstep hrun hentry hne
    obtain ⟨run', hrun', -, rfl⟩ := hlookup call now s' hstep
    obtain rfl := Option.some.inj (hrun.symm.trans hrun')
    rw [requests_lookup]
    cases hfound : found sessionTtlMs s run.task now with
    | none => rfl
    | some entry' =>
        obtain ⟨-, hsome, hcaller, -⟩ := of_found hfound
        obtain rfl := Option.some.inj (hentry.symm.trans hsome)
        exact absurd hcaller hne
  · intro call now s' t run run' entry more hstep hrun hentry hresume hmore hrun' hstate
    obtain ⟨run₀, hrun₀, hstage, rfl⟩ := hlookup call now s' hstep
    obtain rfl := Option.some.inj (hrun.symm.trans hrun₀)
    have hfound : found sessionTtlMs s run.task now = some entry := by
      rw [requests_lookup] at hresume
      have hrequest := List.singleton_injective (List.append_cancel_left hresume)
      cases hfound : found sessionTtlMs s run.task now with
      | none =>
          rw [hfound] at hrequest
          cases hrequest
      | some entry' =>
          exact congrArg some (Option.some.inj ((of_found hfound).2.1.symm.trans hentry))
    obtain ⟨run₁, htask, hfollows⟩ := follows_lookup hkept hrun hstage hfound
    have hkept' : Kept sessionTtlMs (s.lookup sessionTtlMs call run now) :=
      hkept.lookup hrun hstage now
    obtain ⟨-, run₂, htask', hfollows'⟩ := follows_run hkept' hfollows (by rw [htask]; exact hmore)
    obtain rfl := Option.some.inj (hfollows'.found.symm.trans hrun')
    rw [← htask, ← htask']
    obtain hflight | ⟨state, hsome, hor⟩ := hfollows'.stage
    · rw [Stage.state?_of_inFlight hflight] at hstate
      obtain hfalse | hfalse := hstate <;> cases hfalse
    · refine hor.resolve_left ?_
      rintro rfl
      rw [hsome] at hstate
      obtain hfalse | hfalse := hstate <;> cases hfalse

/-- One task starts a thread and completes, the next resumes it and fails. -/
theorem sessions_keep_callers_example :
    ∃ s : CodexSessions ℕ, s.requests = [.start 0, .resume 1 "t"] ∧ KeepsCallers 1000 s := by
  let script : List (Action ℕ) := [.handle ⟨7, none⟩ false, .enter 0 false, .lookup 0 100,
    .started 0 "t" 110, .turnEnds 0 .completed 120, .handle ⟨7, none⟩ false, .chain 0, .release 0,
    .adopt 0, .enter 1 false, .lookup 1 130, .resumed 1, .turnEnds 1 (.failed "boom") 140]
  let next (s : CodexSessions ℕ) (a : Action ℕ) : Option (CodexSessions ℕ) :=
    if NewThreads s a then s.step 1000 a else none
  have hnext : ∀ s a t, next s a = some t →
      ((system 1000).restrict NewThreads).step s a t := fun s a t h =>
    Option.ite_none_right_eq_some.mp h
  obtain ⟨s, hscript⟩ : ∃ s, script.foldlM next {} = some s := ⟨_, rfl⟩
  have hrequests : (script.foldlM next {}).map (·.requests) = some [.start 0, .resume 1 "t"] := by
    decide +kernel
  rw [hscript] at hrequests
  exact ⟨s, Option.some.inj hrequests, sessions_keep_callers (System.Run.of_foldlM hnext hscript)⟩

end VicoopBridge.CodexThreads
