import VicoopBridge.Model.SendFileMcp

/-! # Files go to live registrations

A call looks its task up twice, before it reads and before it delivers. What it finds both times is
the same registration, as long as no registration repeats another one's handle and token. -/

namespace VicoopBridge.SendFileMcp

open Library SendFileMcpServer

variable {options : SendFileOptions} {s : SendFileMcpServer} {actions before started : List Action}
  {a : Action} {number number' n task handle : ℕ} {token binding : String}

/-- The registration with this number was accepted, and neither was it released since nor the
server closed. -/
def Live (options : SendFileOptions) (actions : List Action) (number : ℕ) (token : String)
    (handle : ℕ) : Prop :=
  ∃ before after, actions = before ++ .register handle token :: after ∧
    (run options before).canRegister token = true ∧
    (run options before).registrations.length = number ∧
    .release number ∉ after ∧ .close ∉ after

def registered? : Action → Option (ℕ × String)
  | .register handle token => some (handle, token)
  | _ => none

/-- No registration has both the handle and the token of another one. The server asks for fresh
tokens, and the backends make a handle for each registration. -/
def Fresh (actions : List Action) : Prop := (actions.filterMap registered?).Nodup

/-- The call began for a registration that was live then. -/
def Began (options : SendFileOptions) (actions : List Action) (n : ℕ) (binding : String)
    (task : ℕ) : Prop :=
  ∃ started middle door input token number, actions = started ++ .call door input :: middle ∧
    (run options started).calls.length = n ∧
    (run options started).presented door = some token ∧
    (run options started).bind options token = .ok (binding, task) ∧
    Live options started number binding task

/-- What is delivered goes to a registration that was live as its call began and still is, under the
token that the call has presented. A call without a token has found a single task. -/
def Delivers (options : SendFileOptions) (before : List Action) (e : Emission) : Prop :=
  ∃ started middle door input token binding number,
    before = started ++ .call door input :: middle ∧
    (run options started).calls.length = e.call ∧
    (run options started).presented door = some token ∧
    Live options started number binding e.task ∧
    (∃ number', Live options before number' binding e.task ∧
      (Fresh before → number' = number)) ∧
    (options.requireExecutionBinding = true → token = some binding ∧ binding ≠ "") ∧
    (isMissing token = true →
      (run options started).activeTasks.entries = [(binding, e.task)])

/-! ## Runs -/

theorem run_snoc (actions : List Action) (a : Action) :
    run options (actions ++ [a]) = (run options actions).apply options a := by
  rw [run, List.foldl_append]
  rfl

theorem registrations_apply (s : SendFileMcpServer) (a : Action) :
    s.registrations <+: (s.apply options a).registrations := by
  cases a with
  | register handle token =>
      rw [SendFileMcpServer.apply, registerActiveTask]
      split
      · exact List.prefix_append _ _
      · exact List.prefix_rfl
  | release number =>
      rw [SendFileMcpServer.apply, SendFileMcpServer.release]
      split <;> exact List.prefix_rfl
  | request url authorization =>
      rw [SendFileMcpServer.apply, SendFileMcpServer.request]
      split <;> exact List.prefix_rfl
  | call door input =>
      rw [SendFileMcpServer.apply]
      split <;> exact List.prefix_rfl
  | readDone n outcome artifactId thrown =>
      rw [SendFileMcpServer.apply, SendFileMcpServer.readDone]
      split
      · split
        · exact List.prefix_rfl
        · exact List.prefix_rfl
        · split <;> exact List.prefix_rfl
      · exact List.prefix_rfl
  | close => exact List.prefix_rfl

theorem registrations_run (options : SendFileOptions) (before after : List Action) :
    (run options before).registrations <+: (run options (before ++ after)).registrations := by
  induction after using List.reverseRecOn with
  | nil => rw [List.append_nil]
  | append_singleton after a ih =>
      rw [← List.append_assoc, run_snoc]
      exact ih.trans (registrations_apply _ a)

/-! ## Registrations -/

theorem Live.snoc (h : Live options actions number token handle)
    (hrelease : a ≠ .release number) (hclose : a ≠ .close) :
    Live options (actions ++ [a]) number token handle := by
  obtain ⟨before, after, rfl, haccepted, hnumber, hkept, hopen⟩ := h
  refine ⟨before, after ++ [a], by simp, haccepted, hnumber, ?_, ?_⟩
  · rw [List.mem_append, List.mem_singleton, not_or]
    exact ⟨hkept, hrelease.symm⟩
  · rw [List.mem_append, List.mem_singleton, not_or]
    exact ⟨hopen, hclose.symm⟩

/-- The `release` of a live registration deletes its token. -/
theorem Live.registered (h : Live options actions number token handle) :
    (run options actions).registrations[number]? = some token := by
  obtain ⟨before, after, rfl, haccepted, rfl, -, -⟩ := h
  have hprefix := registrations_run options (before ++ [.register handle token]) after
  rw [List.append_assoc, List.singleton_append] at hprefix
  have hnew : (run options (before ++ [.register handle token])).registrations =
      (run options before).registrations ++ [token] := by
    rw [run_snoc, SendFileMcpServer.apply, registerActiveTask, if_pos haccepted]
  rw [hnew] at hprefix
  obtain ⟨rest, hrest⟩ := hprefix
  rw [← hrest]
  simp

/-- A list has one place for what it has once. -/
theorem eq_of_nodup_filterMap {α β : Type} {f : α → Option β} {x : α} {b : β} (hx : f x = some b)
    {before after before' after' : List α} (h : before ++ x :: after = before' ++ x :: after')
    (hnodup : ((before ++ x :: after).filterMap f).Nodup) : before = before' := by
  induction before generalizing before' with
  | nil =>
      cases before' with
      | nil => rfl
      | cons y before' =>
          obtain ⟨rfl, rfl⟩ := List.cons_eq_cons.mp h
          rw [List.nil_append, List.filterMap_cons_some hx, List.nodup_cons] at hnodup
          exact absurd (List.mem_filterMap.mpr ⟨x, by simp, hx⟩) hnodup.1
  | cons y before ih =>
      cases before' with
      | nil =>
          obtain ⟨rfl, rfl⟩ := List.cons_eq_cons.mp h
          rw [List.cons_append, List.filterMap_cons_some hx, List.nodup_cons] at hnodup
          exact absurd (List.mem_filterMap.mpr ⟨y, by simp, hx⟩) hnodup.1
      | cons z before' =>
          obtain ⟨rfl, htail⟩ := List.cons_eq_cons.mp h
          have hnodup' : ((before ++ x :: after).filterMap f).Nodup :=
            hnodup.sublist ((List.sublist_cons_self y _).filterMap f)
          rw [ih htail hnodup']

/-! ## Calls -/

/-- What a call that gets a task has found. -/
structure Bound (options : SendFileOptions) (s : SendFileMcpServer) (token : Option String)
    (binding : String) (task : ℕ) : Prop where
  get : s.activeTasks.get? binding = some task
  required : options.requireExecutionBinding = true → token = some binding ∧ binding ≠ ""
  single : isMissing token = true → s.activeTasks.entries = [(binding, task)]

theorem entries_eq_singleton {m : InsertionMap String ℕ} (hsize : m.size = 1)
    (h : m.get? binding = some task) : m.entries = [(binding, task)] := by
  have hmem := (m.mem_entries_iff binding task).mpr h
  obtain ⟨entry, hentry⟩ := List.length_eq_one_iff.mp hsize
  rw [hentry, List.mem_singleton] at hmem
  rw [hentry, hmem]

theorem bound_of_bind {token : Option String} (h : s.bind options token = .ok (binding, task)) :
    Bound options s token binding task := by
  rw [SendFileMcpServer.bind] at h
  by_cases hclosing : s.closing = true
  · rw [if_pos hclosing] at h
    cases h
  rw [if_neg hclosing] at h
  by_cases hstale : options.requireExecutionBinding = true ∧
      (isMissing token = true ∨ ¬ s.activeTasks.has (token.getD "") = true)
  · rw [if_pos hstale] at h
    cases h
  rw [if_neg hstale] at h
  by_cases hnone : isMissing token = true ∧ s.activeTaskCount = 0
  · rw [if_pos hnone] at h
    cases h
  rw [if_neg hnone] at h
  by_cases hmany : isMissing token = true ∧ s.activeTaskCount > 1
  · rw [if_pos hmany] at h
    cases h
  rw [if_neg hmany] at h
  dsimp only at h
  cases hget : s.activeTasks.get? (token.getD (s.activeTasks.keys.headD "")) with
  | none =>
      rw [hget] at h
      cases h
  | some found =>
      rw [hget, Except.ok.injEq, Prod.mk.injEq] at h
      obtain ⟨rfl, rfl⟩ := h
      refine ⟨hget, fun hrequired => ?_, fun hmissing => ?_⟩
      · have hpresent : isMissing token ≠ true := fun hmissing => hstale ⟨hrequired, .inl hmissing⟩
        cases token with
        | none => exact absurd rfl hpresent
        | some token => exact ⟨rfl, by simpa [isMissing] using hpresent⟩
      · have hone : s.activeTasks.size = 1 := by
          rw [SendFileMcpServer.activeTaskCount] at hnone hmany
          have hpos : ¬ s.activeTasks.size = 0 := fun hzero => hnone ⟨hmissing, hzero⟩
          have hle : ¬ s.activeTasks.size > 1 := fun hgt => hmany ⟨hmissing, hgt⟩
          omega
        exact entries_eq_singleton hone hget

/-- How a step treats the calls and what they have emitted. -/
inductive Treats (options : SendFileOptions) (s t : SendFileMcpServer) : Action → Prop
  | quiet {a : Action} (hcalls : t.calls = s.calls) (hemitted : t.emitted = s.emitted) :
      Treats options s t a
  | began {door : Door} {input : SendFileInput} {token : Option String} {stage : CallStage}
      (hdoor : s.presented door = some token)
      (hstage : ∀ binding task, stage = .reading binding task →
        s.bind options token = .ok (binding, task))
      (hcalls : t.calls = s.calls ++ [⟨input, stage⟩]) (hemitted : t.emitted = s.emitted) :
      Treats options s t (.call door input)
  | settled {a : Action} {n : ℕ} {result : Except SendFileError Sent}
      (hcalls : t.calls = s.calls.modify n fun call => { call with stage := .done result })
      (hemitted : t.emitted = s.emitted) : Treats options s t a
  | delivered {n : ℕ} {outcome : ReadOutcome} {artifactId : String} {thrown : Option String}
      {input : SendFileInput} {binding : String} {task : ℕ}
      {result : Except SendFileError Sent} {artifact : FileArtifact}
      (hcall : s.calls[n]? = some ⟨input, .reading binding task⟩)
      (hget : s.activeTasks.get? binding = some task)
      (hcalls : t.calls = s.calls.modify n fun call => { call with stage := .done result })
      (hemitted : t.emitted = s.emitted ++ [⟨n, task, artifact⟩]) :
      Treats options s t (.readDone n outcome artifactId thrown)

theorem treats_readDone (s : SendFileMcpServer) (n : ℕ) (outcome : ReadOutcome)
    (artifactId : String) (thrown : Option String) :
    Treats options s (s.readDone options n outcome artifactId thrown)
      (.readDone n outcome artifactId thrown) := by
  rw [SendFileMcpServer.readDone]
  split
  · next input binding task hcall =>
      cases outcome with
      | safe error => exact .settled rfl rfl
      | threw message => exact .settled rfl rfl
      | ok read =>
          dsimp only
          split
          · exact .settled rfl rfl
          · next hstands =>
              rw [not_or, not_not] at hstands
              exact .delivered hcall hstands.2 rfl rfl
  · exact .quiet rfl rfl

theorem treats_apply (options : SendFileOptions) (s : SendFileMcpServer) (a : Action) :
    Treats options s (s.apply options a) a := by
  cases a with
  | register handle token =>
      rw [SendFileMcpServer.apply, registerActiveTask]
      split <;> exact .quiet rfl rfl
  | release number =>
      rw [SendFileMcpServer.apply, SendFileMcpServer.release]
      split <;> exact .quiet rfl rfl
  | request url authorization =>
      rw [SendFileMcpServer.apply, SendFileMcpServer.request]
      split <;> exact .quiet rfl rfl
  | close => exact .quiet rfl rfl
  | readDone n outcome artifactId thrown => exact treats_readDone s n outcome artifactId thrown
  | call door input =>
      rw [SendFileMcpServer.apply]
      split
      · next token hdoor =>
          refine .began hdoor (fun binding task hstage => ?_) rfl rfl
          cases hbind : s.bind options token with
          | error error =>
              rw [hbind] at hstage
              cases hstage
          | ok found =>
              rw [hbind] at hstage
              cases hstage
              rfl
      · exact .quiet rfl rfl

/-! ## The invariant -/

structure Sound (options : SendFileOptions) (actions : List Action) : Prop where
  active : ∀ {token handle}, (run options actions).activeTasks.get? token = some handle →
    ∃ number, Live options actions number token handle
  begun : ∀ {n input binding task},
    (run options actions).calls[n]? = some ⟨input, .reading binding task⟩ →
      Began options actions n binding task
  settled : ∀ e ∈ (run options actions).emitted, ∃ input result,
    (run options actions).calls[e.call]? = some ⟨input, .done result⟩
  once : ((run options actions).emitted.map Emission.call).Nodup

theorem Live.register (haccepted : (run options actions).canRegister token = true) :
    Live options (actions ++ [.register handle token])
      (run options actions).registrations.length token handle :=
  ⟨actions, [], rfl, haccepted, rfl, by simp, by simp⟩

theorem activeTasks_readDone (s : SendFileMcpServer) (n : ℕ) (outcome : ReadOutcome)
    (artifactId : String) (thrown : Option String) :
    (s.readDone options n outcome artifactId thrown).activeTasks = s.activeTasks := by
  rw [SendFileMcpServer.readDone]
  split
  · split
    · rfl
    · rfl
    · split <;> rfl
  · rfl

theorem Sound.active_snoc (h : Sound options actions) (a : Action)
    (hget : (run options (actions ++ [a])).activeTasks.get? token = some handle) :
    ∃ number, Live options (actions ++ [a]) number token handle := by
  rw [run_snoc] at hget
  -- nothing but `release` and `close` ends a registration
  have hkeep : (∀ number, a ≠ .release number) → a ≠ .close →
      (run options actions).activeTasks.get? token = some handle →
      ∃ number, Live options (actions ++ [a]) number token handle := by
    intro hrelease hclose hbefore
    obtain ⟨number, hlive⟩ := h.active hbefore
    exact ⟨number, hlive.snoc (hrelease number) hclose⟩
  cases a with
  | register newHandle newToken =>
      rw [SendFileMcpServer.apply, registerActiveTask] at hget
      split at hget
      · next haccepted =>
          dsimp only at hget
          rw [InsertionMap.get?_set] at hget
          split at hget
          · next heq =>
              obtain rfl := heq
              cases hget
              exact ⟨_, Live.register haccepted⟩
          · exact hkeep (by simp) (by simp) hget
      · exact hkeep (by simp) (by simp) hget
  | release released =>
      rw [SendFileMcpServer.apply, SendFileMcpServer.release] at hget
      split at hget
      · next deleted hdeleted =>
          dsimp only at hget
          rw [InsertionMap.get?_erase] at hget
          split at hget
          · cases hget
          · next hne =>
              obtain ⟨number, hlive⟩ := h.active hget
              refine ⟨number, hlive.snoc ?_ (by simp)⟩
              rintro ⟨rfl⟩
              exact hne (Option.some.inj (hdeleted.symm.trans hlive.registered))
      · next hnone =>
          obtain ⟨number, hlive⟩ := h.active hget
          refine ⟨number, hlive.snoc ?_ (by simp)⟩
          rintro ⟨rfl⟩
          rw [hlive.registered] at hnone
          cases hnone
  | request url authorization =>
      rw [SendFileMcpServer.apply, SendFileMcpServer.request] at hget
      split at hget <;> exact hkeep (by simp) (by simp) hget
  | call door input =>
      rw [SendFileMcpServer.apply] at hget
      split at hget <;> exact hkeep (by simp) (by simp) hget
  | readDone n outcome artifactId thrown =>
      rw [SendFileMcpServer.apply, activeTasks_readDone] at hget
      exact hkeep (by simp) (by simp) hget
  | close => cases hget

theorem Began.snoc (h : Began options actions n binding task) (a : Action) :
    Began options (actions ++ [a]) n binding task := by
  obtain ⟨started, middle, door, input, token, number, rfl, hrest⟩ := h
  exact ⟨started, middle ++ [a], door, input, token, number, by simp, hrest⟩

theorem stage_modify {calls : List ToolCall} {k : ℕ} {call : ToolCall}
    {result : Except SendFileError Sent}
    (h : (calls.modify n fun call => { call with stage := .done result })[k]? = some call) :
    (n = k ∧ call.stage = .done result) ∨ (n ≠ k ∧ calls[k]? = some call) := by
  rw [List.getElem?_modify] at h
  by_cases hk : n = k
  · simp only [hk, if_true, Option.map_eq_map, Option.map_eq_some_iff] at h
    obtain ⟨old, -, rfl⟩ := h
    exact .inl ⟨hk, rfl⟩
  · simp only [hk, if_false, Option.map_eq_map, Option.map_id'] at h
    exact .inr ⟨hk, h⟩

theorem Sound.begun_snoc (h : Sound options actions) (a : Action) {input : SendFileInput}
    (hcall : (run options (actions ++ [a])).calls[n]? = some ⟨input, .reading binding task⟩) :
    Began options (actions ++ [a]) n binding task := by
  have hkeep : (run options actions).calls[n]? = some ⟨input, .reading binding task⟩ →
      Began options (actions ++ [a]) n binding task := fun hold => (h.begun hold).snoc a
  have hsettled : ∀ {k : ℕ} {result : Except SendFileError Sent},
      ((run options actions).calls.modify k fun call => { call with stage := .done result })[n]? =
        some ⟨input, .reading binding task⟩ → Began options (actions ++ [a]) n binding task := by
    intro k result hmodify
    rcases stage_modify hmodify with ⟨-, hstage⟩ | ⟨-, hold⟩
    · cases hstage
    · exact hkeep hold
  rw [run_snoc] at hcall
  cases treats_apply options (run options actions) a with
  | quiet hcalls hemitted => exact hkeep (hcalls ▸ hcall)
  | settled hcalls hemitted => exact hsettled (hcalls ▸ hcall)
  | delivered hread hget hcalls hemitted => exact hsettled (hcalls ▸ hcall)
  | @began door newInput token stage hdoor hstage hcalls hemitted =>
      rw [hcalls, List.getElem?_append] at hcall
      split at hcall
      · exact hkeep hcall
      · next hlength =>
          have hn : n = (run options actions).calls.length := by
            have hlt := (List.getElem?_eq_some_iff.mp hcall).1
            simp only [List.length_cons, List.length_nil] at hlt
            omega
          subst hn
          rw [Nat.sub_self, List.getElem?_cons_zero, Option.some.injEq, ToolCall.mk.injEq] at hcall
          have hbind := hstage binding task hcall.2
          obtain ⟨number, hlive⟩ := h.active (bound_of_bind hbind).get
          exact ⟨actions, [], door, newInput, token, number, rfl, rfl, hdoor, hbind, hlive⟩

/-- A call that has come to its end stays there. -/
theorem done_apply (options : SendFileOptions) (s : SendFileMcpServer) (a : Action)
    {input : SendFileInput} {result : Except SendFileError Sent}
    (h : s.calls[n]? = some ⟨input, .done result⟩) :
    ∃ result', (s.apply options a).calls[n]? = some ⟨input, .done result'⟩ := by
  have hmodify : ∀ (k : ℕ) (other : Except SendFileError Sent), ∃ result',
      (s.calls.modify k fun call => { call with stage := .done other })[n]? =
        some ⟨input, .done result'⟩ := by
    intro k other
    rw [List.getElem?_modify, h]
    by_cases hk : k = n
    · exact ⟨other, by simp [hk]⟩
    · exact ⟨result, by simp [hk]⟩
  cases treats_apply options s a with
  | quiet hcalls hemitted => exact ⟨result, hcalls ▸ h⟩
  | settled hcalls hemitted => exact hcalls ▸ hmodify _ _
  | delivered hread hget hcalls hemitted => exact hcalls ▸ hmodify _ _
  | began hdoor hstage hcalls hemitted =>
      refine ⟨result, ?_⟩
      rw [hcalls, List.getElem?_append_left (List.getElem?_eq_some_iff.mp h).1]
      exact h

theorem Sound.snoc (h : Sound options actions) (a : Action) : Sound options (actions ++ [a]) := by
  have hold : ∀ e ∈ (run options actions).emitted, ∃ input result,
      (run options (actions ++ [a])).calls[e.call]? = some ⟨input, .done result⟩ := by
    intro e he
    obtain ⟨input, result, hcall⟩ := h.settled e he
    obtain ⟨result', hcall'⟩ := done_apply options _ a hcall
    exact ⟨input, result', by rw [run_snoc]; exact hcall'⟩
  refine ⟨h.active_snoc a, h.begun_snoc a, ?_, ?_⟩
  · intro e he
    cases treats_apply options (run options actions) a with
    | quiet hcalls hemitted => exact hold e (by rwa [run_snoc, hemitted] at he)
    | settled hcalls hemitted => exact hold e (by rwa [run_snoc, hemitted] at he)
    | began hdoor hstage hcalls hemitted => exact hold e (by rwa [run_snoc, hemitted] at he)
    | @delivered n _ _ _ input binding task result artifact hread hget hcalls hemitted =>
        rw [run_snoc, hemitted, List.mem_append, List.mem_singleton] at he
        rcases he with he | rfl
        · exact hold e he
        · refine ⟨input, result, ?_⟩
          rw [run_snoc, hcalls, List.getElem?_modify, hread]
          simp
  · cases treats_apply options (run options actions) a with
    | quiet hcalls hemitted => rw [run_snoc, hemitted]; exact h.once
    | settled hcalls hemitted => rw [run_snoc, hemitted]; exact h.once
    | began hdoor hstage hcalls hemitted => rw [run_snoc, hemitted]; exact h.once
    | delivered hread hget hcalls hemitted =>
        rw [run_snoc, hemitted, List.map_append, List.map_singleton, List.nodup_append]
        refine ⟨h.once, List.nodup_singleton _, ?_⟩
        intro first hfirst second hsecond heq
        rw [List.mem_singleton] at hsecond
        obtain ⟨e, he, rfl⟩ := List.mem_map.mp hfirst
        obtain ⟨input, result, hdone⟩ := h.settled e he
        -- an emitted call is done, this one was reading
        rw [heq, hsecond, hread] at hdone
        cases hdone

theorem sound (actions : List Action) : Sound options actions := by
  induction actions using List.reverseRecOn with
  | nil =>
      have hnone : (run options []).calls = [] := rfl
      refine ⟨fun hget => ?_, fun hcall => ?_, fun e he => ?_, List.nodup_nil⟩
      · cases hget
      · rw [hnone] at hcall
        cases hcall
      · cases he
  | append_singleton actions a ih => exact ih.snoc a

/-! ## Deliveries -/

/-- A live registration stays the one that was accepted. -/
theorem Live.number_eq {after : List Action} (h : Live options started number token handle)
    (h' : Live options (started ++ after) number' token handle)
    (hfresh : Fresh (started ++ after)) : number' = number := by
  obtain ⟨before, rest, rfl, -, rfl, -, -⟩ := h
  obtain ⟨before', rest', hactions, -, rfl, -, -⟩ := h'
  rw [List.append_assoc, List.cons_append] at hactions hfresh
  have heq : before = before' := eq_of_nodup_filterMap (f := registered?) rfl hactions hfresh
  rw [heq]

theorem delivers_of_read {e : Emission} {input : SendFileInput}
    (hcall : (run options before).calls[e.call]? = some ⟨input, .reading binding e.task⟩)
    (hget : (run options before).activeTasks.get? binding = some e.task) :
    Delivers options before e := by
  obtain ⟨started, middle, door, newInput, token, number, rfl, hlength, hdoor, hbind, hlive⟩ :=
    (sound before).begun hcall
  obtain ⟨number', hlive'⟩ := (sound (started ++ .call door newInput :: middle)).active hget
  have hbound := bound_of_bind hbind
  exact ⟨started, middle, door, newInput, token, binding, number, rfl, hlength, hdoor, hlive,
    ⟨number', hlive', hlive.number_eq hlive'⟩, hbound.required, hbound.single⟩

theorem presents_nothing (h : options.requireExecutionBinding = false) (actions : List Action) :
    ∀ token ∈ (run options actions).mcps, token = none := by
  induction actions using List.reverseRecOn with
  | nil => exact fun token hmem => absurd hmem List.not_mem_nil
  | append_singleton actions a ih =>
      rw [run_snoc]
      cases a with
      | register handle token =>
          rw [SendFileMcpServer.apply, registerActiveTask]
          split <;> exact ih
      | release number =>
          rw [SendFileMcpServer.apply, SendFileMcpServer.release]
          split <;> exact ih
      | request url authorization =>
          rw [SendFileMcpServer.apply, SendFileMcpServer.request]
          split
          · next token hadmit =>
              have htoken : token = none := by
                simp only [admission, bearer, h, Bool.false_eq_true, if_false,
                  false_and] at hadmit
                split at hadmit
                · cases hadmit
                · split at hadmit
                  · cases hadmit
                  · exact (Except.ok.inj hadmit).symm
              intro other hother
              rw [List.mem_append, List.mem_singleton] at hother
              rcases hother with hother | rfl
              · exact ih other hother
              · exact htoken
          · exact ih
      | call door input =>
          rw [SendFileMcpServer.apply]
          split <;> exact ih
      | readDone n outcome artifactId thrown =>
          rw [SendFileMcpServer.apply, SendFileMcpServer.readDone]
          split
          · split
            · exact ih
            · exact ih
            · split <;> exact ih
          · exact ih
      | close => exact ih

/-- In every run, a step emits nothing or delivers one file to a registration that is live. No call
delivers twice, and where no binding is required the requests present none. -/
theorem delivers_through_live_registration (options : SendFileOptions) (actions : List Action) :
    (∀ before a after, actions = before ++ a :: after →
      (run options (before ++ [a])).emitted = (run options before).emitted ∨
        ∃ e, (run options (before ++ [a])).emitted = (run options before).emitted ++ [e] ∧
          Delivers options before e) ∧
    ((run options actions).emitted.map Emission.call).Nodup ∧
    (options.requireExecutionBinding = false →
      ∀ token ∈ (run options actions).mcps, token = none) := by
  refine ⟨fun before a after hactions => ?_, (sound actions).once,
    fun hrequired => presents_nothing hrequired actions⟩
  rw [run_snoc]
  cases treats_apply options (run options before) a with
  | quiet hcalls hemitted => exact .inl hemitted
  | settled hcalls hemitted => exact .inl hemitted
  | began hdoor hstage hcalls hemitted => exact .inl hemitted
  | delivered hread hget hcalls hemitted =>
      exact .inr ⟨_, hemitted, delivers_of_read hread hget⟩

end VicoopBridge.SendFileMcp
