import VicoopBridge.Model.ClaudeUsage

/-! # Results of the Claude usage calls

A call that fails degrades to the last successful snapshot. It rejects in two cases only: a recorded
overage date that no `Date` holds, and a login whose place cannot be told. -/

namespace VicoopBridge.ClaudeUsage

open Library Provider

variable {iso : Instant → String} {ttl : ℚ} {s t : Provider} {n k : ℕ} {ts : Instant}
  {creds : ClaudeOAuthCreds} {env : ClaudeCredEnv} {call : Call} {stage : Stage}
  {result : FetchUsageResult}

/-! ## Percents -/

/-! ## What can throw -/

/-- The last recorded event tells of an overage that ends on no date. -/
def Undated (lastRateLimit : Option Data) : Prop :=
  ∃ rl q, lastRateLimit = some rl ∧
    (rl.get? "rateLimitType").bind JsonData.string? = some "overage" ∧
      rl.get? "resetsAt" = some (.number (.finite q)) ∧ 8640000000000000 < |q * 1000|

/-- The place of the login cannot be told. -/
def Unlocated (env : ClaudeCredEnv) : Prop :=
  env.configDir.filter (· ≠ "") = none ∧ ∃ message, env.homedir = .error message

/-- A value with properties is an object. -/
theorem truthy_of_get? {data value : Data} {key : String} (h : data.get? key = some value) :
    data.truthy "" = true := by
  cases data with
  | object fields => rfl
  | _ => cases h

theorem epochSecondsToIso_eq_error_iff {v : Option Data} {message : String} :
    epochSecondsToIso iso v = .error message ↔ message = invalidTime ∧
      ∃ q, v = some (.number (.finite q)) ∧ 8640000000000000 < |q * 1000| := by
  unfold epochSecondsToIso
  split
  · next q =>
      unfold toISOString
      split
      · next hle =>
          refine ⟨fun h => (by cases h), ?_⟩
          rintro ⟨-, q', hq, hlt⟩
          cases hq
          exact absurd hle (not_le.mpr hlt)
      · next hlt =>
          refine ⟨fun h => ?_, ?_⟩
          · cases h
            exact ⟨rfl, q, rfl, not_le.mp hlt⟩
          · rintro ⟨rfl, -⟩
            rfl
  · next hother =>
      refine ⟨fun h => (by cases h), ?_⟩
      rintro ⟨-, q, rfl, -⟩
      exact absurd rfl (hother q)

theorem overageResetsAt_eq_error_iff {message : String} :
    s.overageResetsAt iso = .error message ↔
      message = invalidTime ∧ Undated s.lastRateLimit := by
  unfold overageResetsAt Undated
  split
  · next rl hrl =>
      split
      · next hoverage =>
          rw [epochSecondsToIso_eq_error_iff]
          refine and_congr_right fun _ => ⟨?_, ?_⟩
          · rintro ⟨q, hq, hlt⟩
            exact ⟨rl, q, hrl, hoverage.2, hq, hlt⟩
          · rintro ⟨rl', q, hrl', -, hq, hlt⟩
            rw [hrl] at hrl'
            cases hrl'
            exact ⟨q, hq, hlt⟩
      · next hoverage =>
          refine ⟨fun h => (by cases h), ?_⟩
          rintro ⟨-, rl', q, hrl', htype, hq, -⟩
          rw [hrl] at hrl'
          cases hrl'
          exact absurd ⟨truthy_of_get? hq, htype⟩ hoverage
  · next hnone =>
      refine ⟨fun h => (by cases h), ?_⟩
      rintro ⟨-, rl, q, hrl, -⟩
      rw [hnone] at hrl
      cases hrl

variable (iso) in
/-- A snapshot is built, unless the date cannot be written. -/
theorem buildOauthSnapshot_cases (s : Provider) (data : Data) (ts : Instant)
    (plan : Option String) :
    (Undated s.lastRateLimit ∧ s.buildOauthSnapshot iso data ts plan = .error invalidTime) ∨
      (¬ Undated s.lastRateLimit ∧ ∃ value, value.source = .oauth ∧
        s.buildOauthSnapshot iso data ts plan = .ok value) := by
  unfold buildOauthSnapshot
  cases hoverage : s.overageResetsAt iso with
  | error message =>
      obtain ⟨rfl, hundated⟩ := overageResetsAt_eq_error_iff.mp hoverage
      exact .inl ⟨hundated, rfl⟩
  | ok resetsAt =>
      refine .inr ⟨fun hundated => ?_, _, rfl, rfl⟩
      have herror : s.overageResetsAt iso = .error invalidTime :=
        overageResetsAt_eq_error_iff.mpr ⟨rfl, hundated⟩
      rw [hoverage] at herror
      cases herror

theorem readClaudeOAuthCreds_eq_error_iff :
    (∃ message, readClaudeOAuthCreds env = .error message) ↔ Unlocated env := by
  unfold readClaudeOAuthCreds ClaudeCredEnv.located Unlocated
  cases env.configDir.filter (· ≠ "") with
  | some dir => simp [Except.map]
  | none => cases env.homedir <;> simp [Except.map]

/-! ## The endpoint has answered -/

def FetchUsageResult.unauthorized : FetchUsageResult → Bool
  | .failed status _ => status = 401
  | _ => false

/-- How long no further request is made after this answer. -/
def FetchUsageResult.window (ttl : ℚ) : FetchUsageResult → WithTop ℚ
  | .failed status retryAfterMs => if status = 429 then retryAfterMs.getD ttl else ttl
  | _ => ttl

/-- The token that the provider holds for dead behind this answer. -/
def deadBehind (s : Provider) (token : String) (result : FetchUsageResult) : Option String :=
  if result.unauthorized then some token else s.lastFailedToken

variable (iso ttl) in
/-- A successful answer is kept, or its snapshot cannot be built. Any other one ends the call
degraded, but for a first 401. -/
theorem settle_cases (s : Provider) (n : ℕ) (ts : Instant) (creds : ClaudeOAuthCreds)
    (refreshed : Bool) (result : FetchUsageResult) :
    (∃ data value, result = .ok data ∧ ¬ Undated s.lastRateLimit ∧
      s.settle iso ttl n ts creds refreshed result =
        { (s.record (.snapshot value)) with
          lastFailedToken := none
          cachedOauth := some (value, ts)
          nextAttemptAt := after ts 0 }.setStage n (.done (.ok value))) ∨
    (∃ data, result = .ok data ∧ Undated s.lastRateLimit ∧
      s.settle iso ttl n ts creds refreshed result =
        { s with lastFailedToken := none }.setStage n (.done (.error invalidTime))) ∨
    (result.unauthorized = true ∧ refreshed = false ∧
      s.settle iso ttl n ts creds refreshed result =
        { s with lastFailedToken := some creds.accessToken }.setStage n
          (.refreshing .unauthorized creds)) ∨
    ((∀ data, result ≠ .ok data) ∧ (result.unauthorized = true → refreshed = true) ∧
      ∃ note, s.settle iso ttl n ts creds refreshed result =
        { s with lastFailedToken := deadBehind s creds.accessToken result }.backOff iso n ts
          (result.window ttl) note) := by
  cases result with
  | threw message =>
      refine .inr (.inr (.inr ⟨fun data h => (by cases h), fun h => (by cases h), _, rfl⟩))
  | ok data =>
      simp only [settle]
      rcases buildOauthSnapshot_cases iso { s with lastFailedToken := none } data ts
        (creds.subscriptionType.or s.lastPlan) with ⟨hundated, hbuild⟩ | ⟨hdated, value, -, hbuild⟩
      · rw [hbuild]
        exact .inr (.inl ⟨data, rfl, hundated, rfl⟩)
      · rw [hbuild]
        exact .inl ⟨data, value, rfl, hdated, rfl⟩
  | failed status retryAfterMs =>
      simp only [settle]
      by_cases h401 : status = 401
      · subst h401
        rw [if_pos rfl]
        cases refreshed with
        | false => exact .inr (.inr (.inl ⟨rfl, rfl, rfl⟩))
        | true =>
            exact .inr (.inr (.inr ⟨fun data h => (by cases h), fun _ => rfl, _, rfl⟩))
      · have hother : FetchUsageResult.unauthorized (.failed status retryAfterMs) = false :=
          decide_eq_false h401
        rw [if_neg h401]
        refine .inr (.inr (.inr ⟨fun data h => (by cases h), fun h => ?_, ?_⟩))
        · rw [hother] at h
          cases h
        · have hdead : deadBehind s creds.accessToken (.failed status retryAfterMs) =
              s.lastFailedToken := by
            rw [deadBehind, hother]
            rfl
          have hwindow : FetchUsageResult.window ttl (.failed status retryAfterMs) =
              if status = 429 then retryAfterMs.getD ttl else ttl := rfl
          rw [hdead, hwindow]
          split
          · exact ⟨_, rfl⟩
          · exact ⟨_, rfl⟩

/-! ## A new call -/

/-- No snapshot is fresh, and the next attempt may be made. -/
def Passes (ttl : ℚ) (s : Provider) (ts : Instant) : Prop :=
  s.fresh ttl ts = none ∧ s.throttled ts = false

/-- The call has its answer at once. -/
def Served (iso : Instant → String) (ttl : ℚ) (s : Provider) (ts : Instant) (value : BridgeUsage) :
    Prop :=
  s.fresh ttl ts = some value ∨ ∃ note, value = s.degraded iso ts note

/-- Why a new call refreshes the login first. -/
def RefreshesFirst (s : Provider) (ts : Instant) (creds : ClaudeOAuthCreds) (why : Refresh) :
    Prop :=
  why = .expired ∧ creds.expired ts = true ∨
    why = .knownDead ∧ s.lastFailedToken = some creds.accessToken

variable (iso ttl) in
theorem usage_cases (s : Provider) (ts : Instant) (env : ClaudeCredEnv) :
    (¬ Passes ttl s ts ∧ ∃ value, Served iso ttl s ts value ∧
      s.usage iso ttl ts env = (s.readClock ts).push ts (.done (.ok value))) ∨
    (Passes ttl s ts ∧ ((∃ message, readClaudeOAuthCreds env = .error message ∧
      s.usage iso ttl ts env = (s.readClock ts).push ts (.done (.error message))) ∨
    (readClaudeOAuthCreds env = .ok none ∧ ∃ note, s.usage iso ttl ts env =
      ((s.readClock ts).noteRead none).push ts (.done (.ok (s.degraded iso ts note)))) ∨
    ∃ creds, readClaudeOAuthCreds env = .ok (some creds) ∧
      ((∃ why, RefreshesFirst s ts creds why ∧ s.usage iso ttl ts env =
        ((s.readClock ts).noteRead (some creds)).push ts (.refreshing why creds)) ∨
      (s.lastFailedToken ≠ some creds.accessToken ∧ s.usage iso ttl ts env =
        (((s.readClock ts).noteRead (some creds)).request s.calls.length ts creds).push ts
          (.fetching creds false))))) := by
  have hfresh : (s.readClock ts).fresh ttl ts = s.fresh ttl ts := rfl
  have hthrottled : (s.readClock ts).throttled ts = s.throttled ts := rfl
  simp only [Provider.usage]
  rw [hfresh, hthrottled]
  unfold Passes Served
  cases s.fresh ttl ts with
  | some value => exact .inl ⟨fun h => (by cases h.1), value, .inl rfl, rfl⟩
  | none =>
      cases s.throttled ts with
      | true => exact .inl ⟨fun h => (by cases h.2), _, .inr ⟨_, rfl⟩, rfl⟩
      | false =>
          refine .inr ⟨⟨rfl, rfl⟩, ?_⟩
          rw [if_neg Bool.false_ne_true]
          cases readClaudeOAuthCreds env with
          | error message => exact .inl ⟨message, rfl, rfl⟩
          | ok found =>
              cases found with
              | none => exact .inr (.inl ⟨rfl, _, rfl⟩)
              | some creds =>
                  refine .inr (.inr ⟨creds, rfl, ?_⟩)
                  simp only
                  split
                  · next hexpired => exact .inl ⟨.expired, .inl ⟨rfl, hexpired⟩, rfl⟩
                  · unfold attempt
                    split
                    · next hdead => exact .inl ⟨.knownDead, .inr ⟨rfl, hdead⟩, rfl⟩
                    · next hlive => exact .inr ⟨hlive, rfl⟩

/-! ## Calls -/

theorem getElem?_push (s : Provider) (ts : Instant) (stage : Stage) (k : ℕ) :
    (s.push ts stage).calls[k]? = if k = s.calls.length then some ⟨ts, stage⟩ else s.calls[k]? := by
  rw [push, List.getElem?_append]
  by_cases hlt : k < s.calls.length
  · rw [if_pos hlt, if_neg (Nat.ne_of_lt hlt)]
  · rw [if_neg hlt]
    by_cases heq : k = s.calls.length
    · rw [if_pos heq, heq, Nat.sub_self]
      rfl
    · have hone : [(⟨ts, stage⟩ : Call)].length ≤ k - s.calls.length := by
        rw [List.length_singleton]
        omega
      rw [if_neg heq, List.getElem?_eq_none hone, List.getElem?_eq_none (Nat.le_of_not_lt hlt)]

theorem getElem?_setStage (s : Provider) (n k : ℕ) (stage : Stage) :
    (s.setStage n stage).calls[k]? =
      if n = k then s.calls[k]?.map fun call => { call with stage } else s.calls[k]? := by
  rw [setStage, List.getElem?_modify]
  split <;> simp

theorem getElem?_setStage_self (stage : Stage) (h : s.calls[n]? = some call) :
    (s.setStage n stage).calls[n]? = some ⟨call.ts, stage⟩ := by
  rw [getElem?_setStage, if_pos rfl, h]
  rfl

theorem getElem?_setStage_ne (stage : Stage) (h : n ≠ k) :
    (s.setStage n stage).calls[k]? = s.calls[k]? := by
  rw [getElem?_setStage, if_neg h]

/-- A call that has been made keeps its number. -/
theorem getElem?_push_of_some (stage : Stage) (h : s.calls[k]? = some call) :
    (s.push ts stage).calls[k]? = some call := by
  rw [getElem?_push, if_neg (Nat.ne_of_lt (List.getElem?_eq_some_iff.mp h).1), h]

/-! ## Steps of a call -/

/-- The call whose step it is. -/
def Provider.Action.of (n : ℕ) : Action → Bool
  | .refreshEnds m _ => m = n
  | .resume m => m = n
  | .answer m _ => m = n
  | _ => false

/-- How often the call still waits. -/
def Stage.rank : Stage → ℕ
  | .fetching _ false => 4
  | .refreshing _ _ => 3
  | .refreshed _ _ _ => 2
  | .fetching _ true => 1
  | .done _ => 0

def rank (s : Provider) (n : ℕ) : ℕ := (s.calls[n]?).elim 0 fun call => call.stage.rank

/-- A read of the login finds its place, and no snapshot is built while the recorded date of the
overage cannot be written. -/
def Allowed (ttl : ℚ) (s : Provider) : Action → Prop
  | .usage ts env => Passes ttl s ts → ¬ Unlocated env
  | .refreshEnds _ env => ¬ Unlocated env
  | .answer _ (.ok _) => ¬ Undated s.lastRateLimit
  | _ => True

/-- The endpoint has given a payload. -/
def Provider.Action.succeeds : Action → Bool
  | .answer _ (.ok _) => true
  | _ => false

/-- What a call ends with in this step, if it ends. -/
inductive Concludes (iso : Instant → String) (ttl : ℚ) (s : Provider) (a : Action)
    (ts : Instant) : Stage → Prop where
  | waits (stage : Stage) (hallowed : Allowed ttl s a) (hstage : stage.settled = false) :
      Concludes iso ttl s a ts stage
  | rejects (message : String) (hforbidden : ¬ Allowed ttl s a) :
      Concludes iso ttl s a ts (.done (.error message))
  | succeeds (value : BridgeUsage) (hallowed : Allowed ttl s a) (ha : a.succeeds = true)
      (hcached : (apply iso ttl s a).cachedOauth = some (value, ts)) :
      Concludes iso ttl s a ts (.done (.ok value))
  | serves (value : BridgeUsage) (env : ClaudeCredEnv) (hallowed : Allowed ttl s a)
      (ha : a = .usage ts env) (hfresh : s.fresh ttl ts = some value) :
      Concludes iso ttl s a ts (.done (.ok value))
  | degrades (note : String) (hallowed : Allowed ttl s a) (ha : a.succeeds = false) :
      Concludes iso ttl s a ts (.done (.ok (s.degraded iso ts note)))

theorem refreshing_of_enabled (h : Enabled s (.refreshEnds n env)) :
    ∃ ts why creds, s.calls[n]? = some ⟨ts, .refreshing why creds⟩ := by
  obtain ⟨⟨ts, stage⟩, hcall, hstage⟩ := (Option.any_eq_true _ _).mp h
  cases stage with
  | refreshing why creds => exact ⟨ts, why, creds, hcall⟩
  | _ => cases hstage

theorem refreshed_of_enabled (h : Enabled s (.resume n)) :
    ∃ ts why creds rc, s.calls[n]? = some ⟨ts, .refreshed why creds rc⟩ := by
  obtain ⟨⟨ts, stage⟩, hcall, hstage⟩ := (Option.any_eq_true _ _).mp h
  cases stage with
  | refreshed why creds rc => exact ⟨ts, why, creds, rc, hcall⟩
  | _ => cases hstage

theorem fetching_of_enabled (h : Enabled s (.answer n result)) :
    ∃ ts creds refreshed, s.calls[n]? = some ⟨ts, .fetching creds refreshed⟩ := by
  obtain ⟨⟨ts, stage⟩, hcall, hstage⟩ := (Option.any_eq_true _ _).mp h
  cases stage with
  | fetching creds refreshed => exact ⟨ts, creds, refreshed, hcall⟩
  | _ => cases hstage

theorem refreshEnds_cases (h : Enabled s (.refreshEnds n env)) :
    ∃ ts why creds, s.calls[n]? = some ⟨ts, .refreshing why creds⟩ ∧
      ((∃ message, readClaudeOAuthCreds env = .error message ∧
        s.refreshEnds n env = s.setStage n (.done (.error message))) ∨
      ∃ rc, readClaudeOAuthCreds env = .ok rc ∧
        s.refreshEnds n env = (s.noteRead rc).setStage n (.refreshed why creds rc)) := by
  obtain ⟨ts, why, creds, hcall⟩ := refreshing_of_enabled h
  refine ⟨ts, why, creds, hcall, ?_⟩
  simp only [Provider.refreshEnds]
  rw [hcall]
  cases readClaudeOAuthCreds env with
  | error message => exact .inl ⟨message, rfl, rfl⟩
  | ok rc => exact .inr ⟨rc, rfl, rfl⟩

variable (iso ttl) in
theorem resume_cases (h : Enabled s (.resume n)) :
    ∃ ts why creds rc, s.calls[n]? = some ⟨ts, .refreshed why creds rc⟩ ∧
      ((∃ rc', rc = some rc' ∧ rc'.accessToken ≠ creds.accessToken ∧
        s.resume iso ttl n = (s.request n ts rc').setStage n (.fetching rc' true)) ∨
      ∃ note, s.resume iso ttl n = s.backOff iso n ts ttl note) := by
  obtain ⟨ts, why, creds, rc, hcall⟩ := refreshed_of_enabled h
  refine ⟨ts, why, creds, rc, hcall, ?_⟩
  simp only [Provider.resume]
  rw [hcall]
  cases hrotated : rotated creds rc with
  | some rc' =>
      obtain ⟨hrc, hother⟩ := Option.filter_eq_some_iff.mp hrotated
      exact .inl ⟨rc', hrc, of_decide_eq_true hother, by simp only [hrotated]⟩
  | none => exact .inr ⟨why.note, by simp only [hrotated]⟩

variable (iso ttl) in
theorem answer_eq (h : Enabled s (.answer n result)) :
    ∃ ts creds refreshed, s.calls[n]? = some ⟨ts, .fetching creds refreshed⟩ ∧
      s.answer iso ttl n result = (s.record (.answer n ts creds.accessToken result)).settle iso ttl
        n ts creds refreshed result := by
  obtain ⟨ts, creds, refreshed, hcall⟩ := fetching_of_enabled h
  refine ⟨ts, creds, refreshed, hcall, ?_⟩
  simp only [Provider.answer]
  rw [hcall]

theorem not_unlocated_of_ok {found : Option ClaudeOAuthCreds}
    (h : readClaudeOAuthCreds env = .ok found) : ¬ Unlocated env := by
  intro hunlocated
  obtain ⟨message, herror⟩ := readClaudeOAuthCreds_eq_error_iff.mpr hunlocated
  rw [h] at herror
  cases herror

variable (iso ttl) in
/-- An awaited event takes its call one step on. -/
theorem own_cases {a : Action} (hown : a.of n = true) (henabled : Enabled s a) :
    ∃ call stage, a.of n = true ∧ s.calls[n]? = some call ∧
      (apply iso ttl s a).calls = (s.setStage n stage).calls ∧ stage.rank < call.stage.rank ∧
        Concludes iso ttl s a call.ts stage := by
  cases a with
  | recordRateLimitEvent info => cases hown
  | usage ts env => cases hown
  | refreshEnds m env =>
      obtain rfl : m = n := of_decide_eq_true hown
      obtain ⟨ts, why, creds, hcall, ⟨message, hread, heq⟩ | ⟨rc, hread, heq⟩⟩ :=
        refreshEnds_cases henabled
      · have hcalls := congrArg Provider.calls heq
        refine ⟨_, .done (.error message), hown, hcall, hcalls, ?_,
          .rejects message fun hallowed => ?_⟩
        · simp only [Stage.rank]
          omega
        · exact hallowed (readClaudeOAuthCreds_eq_error_iff.mp ⟨message, hread⟩)
      · have hcalls := congrArg Provider.calls heq
        refine ⟨_, .refreshed why creds rc, hown, hcall, hcalls, ?_,
          .waits _ (not_unlocated_of_ok hread) rfl⟩
        simp only [Stage.rank]
        omega
  | resume m =>
      obtain rfl : m = n := of_decide_eq_true hown
      obtain ⟨ts, why, creds, rc, hcall, ⟨rc', -, -, heq⟩ | ⟨note, heq⟩⟩ :=
        resume_cases iso ttl henabled
      · have hcalls := congrArg Provider.calls heq
        refine ⟨_, .fetching rc' true, hown, hcall, hcalls, ?_,
          .waits _ trivial rfl⟩
        simp only [Stage.rank]
        omega
      · have hcalls := congrArg Provider.calls heq
        refine ⟨_, .done (.ok (s.degraded iso ts note)), hown, hcall, hcalls, ?_,
          .degrades note trivial rfl⟩
        simp only [Stage.rank]
        omega
  | answer m result =>
      obtain rfl : m = n := of_decide_eq_true hown
      obtain ⟨ts, creds, refreshed, hcall, heq⟩ := answer_eq iso ttl henabled
      have hrank : 0 < (Stage.fetching creds refreshed).rank := by
        cases refreshed <;> simp only [Stage.rank] <;> omega
      rcases settle_cases iso ttl
        (s.record (.answer m ts creds.accessToken result)) m ts creds refreshed result with
        ⟨data, value, rfl, hdated, hsettle⟩ | ⟨data, rfl, hundated, hsettle⟩ |
          ⟨hunauthorized, rfl, hsettle⟩ | ⟨hfailed, -, note, hsettle⟩
      · have hcalls := congrArg Provider.calls (heq.trans hsettle)
        exact ⟨_, .done (.ok value), hown, hcall, hcalls, hrank,
          .succeeds value hdated rfl (congrArg Provider.cachedOauth (heq.trans hsettle))⟩
      · have hcalls := congrArg Provider.calls (heq.trans hsettle)
        exact ⟨_, .done (.error invalidTime), hown, hcall, hcalls, hrank,
          .rejects _ fun hallowed => hallowed hundated⟩
      · have hcalls := congrArg Provider.calls (heq.trans hsettle)
        refine ⟨_, .refreshing .unauthorized creds, hown, hcall, hcalls, ?_,
          .waits _ ?_ rfl⟩
        · simp only [Stage.rank]
          omega
        · cases result with
          | failed status retryAfterMs => trivial
          | _ => cases hunauthorized
      · have hcalls := congrArg Provider.calls (heq.trans hsettle)
        refine ⟨_, .done (.ok (s.degraded iso ts note)), hown, hcall, hcalls, hrank,
          .degrades note ?_ ?_⟩
        · cases result with
          | ok data => exact absurd rfl (hfailed data)
          | _ => trivial
        · cases result with
          | ok data => exact absurd rfl (hfailed data)
          | _ => rfl

variable (iso ttl) in
theorem usage_concludes (s : Provider) (ts : Instant) (env : ClaudeCredEnv) :
    ∃ stage, (s.usage iso ttl ts env).calls = (s.push ts stage).calls ∧
      Concludes iso ttl s (.usage ts env) ts stage := by
  rcases usage_cases iso ttl s ts env with
    ⟨hpasses, value, hserved, heq⟩ | ⟨hpasses, ⟨message, hread, heq⟩ | ⟨hread, note, heq⟩ |
      ⟨creds, hread, ⟨why, -, heq⟩ | ⟨-, heq⟩⟩⟩
  · have hallowed : Allowed ttl s (.usage ts env) := fun h => absurd h hpasses
    have hcalls := congrArg Provider.calls heq
    refine ⟨_, hcalls, ?_⟩
    rcases hserved with hfresh | ⟨note, rfl⟩
    · exact .serves value env hallowed rfl hfresh
    · exact .degrades note hallowed rfl
  · have hcalls := congrArg Provider.calls heq
    refine ⟨_, hcalls, .rejects message fun hallowed => ?_⟩
    exact hallowed hpasses (readClaudeOAuthCreds_eq_error_iff.mp ⟨message, hread⟩)
  · have hcalls := congrArg Provider.calls heq
    exact ⟨_, hcalls, .degrades note (fun _ => not_unlocated_of_ok hread) rfl⟩
  · have hcalls := congrArg Provider.calls heq
    exact ⟨_, hcalls, .waits _ (fun _ => not_unlocated_of_ok hread) rfl⟩
  · have hcalls := congrArg Provider.calls heq
    exact ⟨_, hcalls, .waits _ (fun _ => not_unlocated_of_ok hread) rfl⟩

theorem recordRateLimitEvent_calls (s : Provider) (info : Data) :
    (s.recordRateLimitEvent info).calls = s.calls := by
  cases info <;> rfl

variable (iso ttl) in
/-- A step changes no call, makes one, or takes one on. -/
theorem step_cases {a : Action} (henabled : Enabled s a) :
    ((∃ info, a = .recordRateLimitEvent info) ∧ (apply iso ttl s a).calls = s.calls) ∨
    (∃ ts env stage, a = .usage ts env ∧ (apply iso ttl s a).calls = (s.push ts stage).calls ∧
      Concludes iso ttl s a ts stage) ∨
    ∃ n call stage, a.of n = true ∧ s.calls[n]? = some call ∧
      (apply iso ttl s a).calls = (s.setStage n stage).calls ∧ stage.rank < call.stage.rank ∧
        Concludes iso ttl s a call.ts stage := by
  cases a with
  | recordRateLimitEvent info =>
      exact .inl ⟨⟨info, rfl⟩, recordRateLimitEvent_calls s info⟩
  | usage ts env =>
      obtain ⟨stage, hcalls, hconcludes⟩ := usage_concludes iso ttl s ts env
      exact .inr (.inl ⟨ts, env, stage, rfl, hcalls, hconcludes⟩)
  | refreshEnds n env => exact .inr (.inr ⟨n, own_cases iso ttl (decide_eq_true rfl) henabled⟩)
  | resume n => exact .inr (.inr ⟨n, own_cases iso ttl (decide_eq_true rfl) henabled⟩)
  | answer n result => exact .inr (.inr ⟨n, own_cases iso ttl (decide_eq_true rfl) henabled⟩)

/-- Only its own events change a call that has been made. -/
theorem getElem?_apply_of_other {a : Action} (henabled : Enabled s a) (hother : a.of k = false)
    (hk : s.calls[k]? = some call) : (apply iso ttl s a).calls[k]? = some call := by
  rcases step_cases iso ttl henabled with ⟨-, hcalls⟩ |
    ⟨ts, env, stage, -, hcalls, -⟩ | ⟨n, old, stage, hown, -, hcalls, -⟩
  · rw [hcalls, hk]
  · rw [hcalls, getElem?_push_of_some stage hk]
  · have hne : n ≠ k := by
      rintro rfl
      rw [hown] at hother
      cases hother
    rw [hcalls, getElem?_setStage_ne stage hne, hk]

/-- A call that has ended stays as it is. -/
theorem getElem?_apply_of_done {a : Action} {r : Except String BridgeUsage}
    (henabled : Enabled s a) (hk : s.calls[k]? = some ⟨ts, .done r⟩) :
    (apply iso ttl s a).calls[k]? = some ⟨ts, .done r⟩ := by
  refine getElem?_apply_of_other henabled ?_ hk
  cases hown : a.of k with
  | false => rfl
  | true =>
      obtain ⟨old, stage, -, hold, -, hrank, -⟩ := own_cases iso ttl hown henabled
      rw [hk, Option.some.injEq] at hold
      subst hold
      exact absurd hrank (Nat.not_lt_zero _)

/-! ## Rejections -/

/-- The promise of some call is rejected. -/
def Rejected (s : Provider) : Prop :=
  ∃ (n : ℕ) (ts : Instant) (message : String), s.calls[n]? = some ⟨ts, .done (.error message)⟩

theorem Rejected.step {a : Action} (henabled : Enabled s a) (h : Rejected s) :
    Rejected (apply iso ttl s a) := by
  obtain ⟨n, ts, message, hn⟩ := h
  exact ⟨n, ts, message, getElem?_apply_of_done henabled hn⟩

theorem Concludes.rejects_iff {a : Action} (h : Concludes iso ttl s a ts stage) :
    (∃ message, stage = .done (.error message)) ↔ ¬ Allowed ttl s a := by
  cases h with
  | waits stage hallowed hstage =>
      refine iff_of_false ?_ (not_not.mpr hallowed)
      rintro ⟨message, rfl⟩
      cases hstage
  | rejects message hforbidden => exact iff_of_true ⟨message, rfl⟩ hforbidden
  | succeeds value hallowed =>
      refine iff_of_false ?_ (not_not.mpr hallowed)
      rintro ⟨message, heq⟩
      cases heq
  | serves value env hallowed =>
      refine iff_of_false ?_ (not_not.mpr hallowed)
      rintro ⟨message, heq⟩
      cases heq
  | degrades note hallowed =>
      refine iff_of_false ?_ (not_not.mpr hallowed)
      rintro ⟨message, heq⟩
      cases heq

variable (iso ttl) in
/-- A step rejects a call if and only if it is not allowed. -/
theorem rejected_apply_iff {a : Action} (henabled : Enabled s a) (h : ¬ Rejected s) :
    Rejected (apply iso ttl s a) ↔ ¬ Allowed ttl s a := by
  rcases step_cases iso ttl henabled with ⟨⟨info, rfl⟩, hcalls⟩ |
    ⟨ts, env, stage, rfl, hcalls, hconcludes⟩ | ⟨n, old, stage, -, hn, hcalls, -, hconcludes⟩
  · refine iff_of_false (fun hrejected => h ?_) (not_not.mpr trivial)
    unfold Rejected at hrejected
    rw [hcalls] at hrejected
    exact hrejected
  · rw [← hconcludes.rejects_iff]
    unfold Rejected
    rw [hcalls]
    constructor
    · rintro ⟨k, ts', message, hk⟩
      rw [getElem?_push] at hk
      split at hk
      · cases hk
        exact ⟨message, rfl⟩
      · exact absurd ⟨k, ts', message, hk⟩ h
    · rintro ⟨message, rfl⟩
      refine ⟨s.calls.length, ts, message, ?_⟩
      rw [getElem?_push, if_pos rfl]
  · rw [← hconcludes.rejects_iff]
    unfold Rejected
    rw [hcalls]
    constructor
    · rintro ⟨k, ts', message, hk⟩
      by_cases hkn : n = k
      · subst hkn
        rw [getElem?_setStage_self stage hn] at hk
        cases hk
        exact ⟨message, rfl⟩
      · rw [getElem?_setStage_ne stage hkn] at hk
        exact absurd ⟨k, ts', message, hk⟩ h
    · rintro ⟨message, rfl⟩
      exact ⟨n, old.ts, message, getElem?_setStage_self _ hn⟩

theorem not_rejected_of_run {labels : List Action}
    (h : ((system iso ttl).restrict (Allowed ttl)).Run s labels t) (hs : ¬ Rejected s) :
    ¬ Rejected t := by
  refine h.invariant (I := fun s => ¬ Rejected s) (fun s a t hs hstep => ?_) hs
  obtain ⟨hallowed, henabled, rfl⟩ := hstep
  exact fun hrejected => (rejected_apply_iff iso ttl henabled hs).mp hrejected hallowed

/-- A run after which no call is rejected has allowed steps only. -/
theorem restrict_of_run {labels : List Action} (h : (system iso ttl).Run s labels t)
    (ht : ¬ Rejected t) : ((system iso ttl).restrict (Allowed ttl)).Run s labels t := by
  induction h with
  | nil => exact .nil _
  | @snoc labels t a u hrun hlast ih =>
      obtain ⟨henabled, rfl⟩ := hlast
      have hold : ¬ Rejected t := fun hrejected => ht (hrejected.step henabled)
      have hallowed : Allowed ttl t a := by
        by_contra hforbidden
        exact ht ((rejected_apply_iff iso ttl henabled hold).mpr hforbidden)
      exact (ih hold).snoc ⟨hallowed, henabled, rfl⟩

/-! ## The last successful snapshot -/

def Entry.snapshot? : Entry → Option BridgeUsage
  | .snapshot value => some value
  | _ => none

/-- What the last entry that says something of the kind says. -/
def latest {α : Type} (f : Entry → Option α) (log : List Entry) : Option α :=
  (log.filterMap f).getLast?

theorem latest_append {α : Type} (f : Entry → Option α) (log : List Entry) (entry : Entry) :
    latest f (log ++ [entry]) = (f entry).or (latest f log) := by
  unfold latest
  rw [List.filterMap_append]
  cases hentry : f entry with
  | none =>
      rw [List.filterMap_cons_none hentry, List.filterMap_nil, List.append_nil, Option.none_or]
  | some value =>
      rw [List.filterMap_cons_some hentry, List.filterMap_nil, List.getLast?_concat,
        Option.some_or]

def lastSnapshot (log : List Entry) : Option BridgeUsage := latest Entry.snapshot? log

/-- The provider has kept the last snapshot that was built. -/
def KeepsLast (s : Provider) : Prop := lastSnapshot s.log = s.cachedOauth.map Prod.fst

theorem KeepsLast.record (h : KeepsLast s) (entry : Entry) (hentry : entry.snapshot? = none) :
    KeepsLast (s.record entry) := by
  unfold KeepsLast lastSnapshot
  change latest Entry.snapshot? (s.log ++ [entry]) = _
  rw [latest_append, hentry, Option.none_or]
  exact h

theorem KeepsLast.settle (h : KeepsLast s) (n : ℕ) (ts : Instant) (creds : ClaudeOAuthCreds)
    (refreshed : Bool) (result : FetchUsageResult) :
    KeepsLast (s.settle iso ttl n ts creds refreshed result) := by
  rcases settle_cases iso ttl s n ts creds refreshed result with
    ⟨data, value, -, -, heq⟩ | ⟨data, -, -, heq⟩ | ⟨-, -, heq⟩ | ⟨-, -, note, heq⟩
  · rw [heq]
    exact latest_append Entry.snapshot? s.log (.snapshot value)
  · rw [heq]
    exact h
  · rw [heq]
    exact h
  · rw [heq]
    exact h

theorem KeepsLast.step {a : Action} (h : KeepsLast s) (henabled : Enabled s a) :
    KeepsLast (apply iso ttl s a) := by
  cases a with
  | recordRateLimitEvent info => cases info <;> exact h
  | usage ts env =>
      change KeepsLast (s.usage iso ttl ts env)
      rcases usage_cases iso ttl s ts env with
        ⟨-, value, -, heq⟩ | ⟨-, ⟨message, -, heq⟩ | ⟨-, note, heq⟩ |
          ⟨creds, -, ⟨why, -, heq⟩ | ⟨-, heq⟩⟩⟩
      · rw [heq]
        exact h
      · rw [heq]
        exact h
      · rw [heq]
        exact h.record (.read none) rfl
      · rw [heq]
        exact h.record (.read (some creds.accessToken)) rfl
      · rw [heq]
        have hread := h.record (.read (some creds.accessToken)) rfl
        exact hread.record (.request s.calls.length ts creds.accessToken) rfl
  | refreshEnds n env =>
      change KeepsLast (s.refreshEnds n env)
      obtain ⟨ts, why, creds, -, ⟨message, -, heq⟩ | ⟨rc, -, heq⟩⟩ := refreshEnds_cases henabled
      · rw [heq]
        exact h
      · rw [heq]
        exact h.record (.read (rc.map ClaudeOAuthCreds.accessToken)) rfl
  | resume n =>
      change KeepsLast (s.resume iso ttl n)
      obtain ⟨ts, why, creds, rc, -, ⟨rc', -, -, heq⟩ | ⟨note, heq⟩⟩ :=
        resume_cases iso ttl henabled
      · rw [heq]
        exact h.record (.request n ts rc'.accessToken) rfl
      · rw [heq]
        exact h
  | answer n result =>
      change KeepsLast (s.answer iso ttl n result)
      obtain ⟨ts, creds, refreshed, -, heq⟩ := answer_eq iso ttl henabled
      rw [heq]
      exact (h.record (.answer n ts creds.accessToken result) rfl).settle _ _ _ _ _

theorem keepsLast_of_run {labels : List Action} (h : (system iso ttl).Run {} labels s) :
    KeepsLast s := by
  refine h.invariant (I := KeepsLast) (fun s a t hs hstep => ?_) rfl
  obtain ⟨henabled, rfl⟩ := hstep
  exact hs.step henabled

/-- The result of a call for which nothing new could be read: the last snapshot with a note, or an
explicit lack of one. -/
def Degraded (iso : Instant → String) (log : List Entry) (ts : Instant) (value : BridgeUsage) :
    Prop :=
  ∃ note, value = match lastSnapshot log with
    | some last => stale last note
    | none => noSnapshot iso ts note

theorem KeepsLast.degraded (h : KeepsLast s) (ts : Instant) (note : String) :
    Degraded iso s.log ts (s.degraded iso ts note) := by
  refine ⟨note, ?_⟩
  rw [h]
  unfold Provider.degraded
  cases s.cachedOauth <;> rfl

/-- What a call that ends in a step has for its result. -/
def Results (iso : Instant → String) (s t : Provider) (a : Action) (ts : Instant)
    (value : BridgeUsage) : Prop :=
  a.succeeds = true ∧ lastSnapshot t.log = some value ∨
    (∃ env, a = .usage ts env) ∧ lastSnapshot s.log = some value ∨
      a.succeeds = false ∧ Degraded iso s.log ts value

theorem Concludes.results {a : Action} {value : BridgeUsage}
    (h : Concludes iso ttl s a ts (.done (.ok value))) (hs : KeepsLast s)
    (henabled : Enabled s a) : Results iso s (apply iso ttl s a) a ts value := by
  cases h with
  | waits stage hallowed hstage => cases hstage
  | succeeds value hallowed ha hcached =>
      refine .inl ⟨ha, ?_⟩
      rw [hs.step henabled, hcached]
      rfl
  | serves value env hallowed ha hfresh =>
      refine .inr (.inl ⟨⟨env, ha⟩, ?_⟩)
      obtain ⟨cached, hcached, rfl⟩ := Option.map_eq_some_iff.mp hfresh
      rw [hs, (Option.filter_eq_some_iff.mp hcached).1]
      rfl
  | degrades note hallowed ha => exact .inr (.inr ⟨ha, hs.degraded ts note⟩)

/-- A call that a step ends has one of these results. -/
theorem results_of_step {a : Action} {value : BridgeUsage} (hs : KeepsLast s)
    (henabled : Enabled s a) (hold : s.calls[n]? ≠ some ⟨ts, .done (.ok value)⟩)
    (hnew : (apply iso ttl s a).calls[n]? = some ⟨ts, .done (.ok value)⟩) :
    Results iso s (apply iso ttl s a) a ts value := by
  rcases step_cases iso ttl henabled with ⟨-, hcalls⟩ |
    ⟨ts', env, stage, -, hcalls, hconcludes⟩ | ⟨k, call, stage, -, hk, hcalls, -, hconcludes⟩
  · rw [hcalls] at hnew
    exact absurd hnew hold
  · rw [hcalls, getElem?_push] at hnew
    split at hnew
    · cases hnew
      exact hconcludes.results hs henabled
    · exact absurd hnew hold
  · rw [hcalls] at hnew
    by_cases hkn : k = n
    · subst hkn
      rw [getElem?_setStage_self stage hk] at hnew
      cases hnew
      exact hconcludes.results hs henabled
    · rw [getElem?_setStage_ne stage hkn] at hnew
      exact absurd hnew hold

/-! ## Waiting -/

theorem rank_eq (h : s.calls[n]? = some call) : rank s n = call.stage.rank := by
  rw [rank, h]
  rfl

/-- Each event of a call leaves it fewer to wait for, and no other event touches it. -/
theorem rank_of_run {labels : List Action} (h : (system iso ttl).Run s labels t)
    (hn : n < s.calls.length) : n < t.calls.length ∧
      labels.countP (Action.of n) + rank t n ≤ rank s n := by
  induction h with
  | nil => exact ⟨hn, by simp⟩
  | @snoc labels t a u hrun hlast ih =>
      obtain ⟨henabled, rfl⟩ := hlast
      obtain ⟨hlength, hrank⟩ := ih
      rw [List.countP_append, List.countP_singleton]
      cases hown : a.of n with
      | true =>
          obtain ⟨call, stage, -, hcall, hcalls, hless, -⟩ :=
            own_cases iso ttl hown henabled
          have hnew : (apply iso ttl t a).calls[n]? = some ⟨call.ts, stage⟩ := by
            rw [hcalls, getElem?_setStage_self stage hcall]
          rw [rank_eq hcall] at hrank
          rw [rank_eq hnew, if_pos rfl]
          refine ⟨(List.getElem?_eq_some_iff.mp hnew).1, ?_⟩
          change labels.countP (Action.of n) + 1 + stage.rank ≤ _
          omega
      | false =>
          have hcall := List.getElem?_eq_getElem hlength
          have hnew : (apply iso ttl t a).calls[n]? = some t.calls[n] :=
            getElem?_apply_of_other henabled hown hcall
          rw [rank_eq hcall] at hrank
          rw [rank_eq hnew, if_neg Bool.false_ne_true]
          exact ⟨(List.getElem?_eq_some_iff.mp hnew).1, hrank⟩

/-- A call that has not ended goes on with whatever comes of what it waits for. -/
def Awaits (s : Provider) (n : ℕ) : Prop :=
  (∀ env, Enabled s (.refreshEnds n env)) ∨ Enabled s (.resume n) ∨
    ∀ result, Enabled s (.answer n result)

theorem awaits_of_not_settled (h : s.calls[n]? = some call) (hstage : call.stage.settled = false) :
    Awaits s n := by
  have hany (p : Call → Bool) (hp : p call = true) : (s.calls[n]?).any p = true := by
    rw [h]
    exact hp
  obtain ⟨ts, stage⟩ := call
  cases stage with
  | refreshing why creds => exact .inl fun _ => hany _ rfl
  | refreshed why creds rc => exact .inr (.inl (hany _ rfl))
  | fetching creds refreshed => exact .inr (.inr fun _ => hany _ rfl)
  | done r => cases hstage

/-- A call of `usage()` is rejected if and only if its login cannot be placed or its snapshot dates
an overage beyond all dates. A call that is not rejected ends with a snapshot after at most four
events, and one that fails has the last successful snapshot or none. -/
theorem usage_fulfils_iff (iso : Instant → String) (ttl : ℚ) (labels : List Action)
    (s : Provider) :
    (((system iso ttl).restrict (Allowed ttl)).Run {} labels s ↔
      (system iso ttl).Run {} labels s ∧ ¬ Rejected s) ∧
    ((system iso ttl).Run {} labels s →
      (∀ a t (n : ℕ) (ts : Instant) (value : BridgeUsage), (system iso ttl).step s a t →
        s.calls[n]? ≠ some ⟨ts, .done (.ok value)⟩ → t.calls[n]? = some ⟨ts, .done (.ok value)⟩ →
          Results iso s t a ts value) ∧
      (∀ (n : ℕ) (call : Call), s.calls[n]? = some call → call.stage.settled = false →
        Awaits s n) ∧
      ∀ n later t, n < s.calls.length → (system iso ttl).Run s later t →
        later.countP (Action.of n) + rank t n ≤ rank s n ∧ rank s n ≤ 4) := by
  refine ⟨⟨fun h => ⟨h.of_restrict, not_rejected_of_run h ?_⟩,
    fun h => restrict_of_run h.1 h.2⟩, fun h => ⟨?_, ?_, ?_⟩⟩
  · rintro ⟨n, ts, message, hn⟩
    cases hn
  · rintro a t n ts value ⟨henabled, rfl⟩ hold hnew
    exact results_of_step (keepsLast_of_run h) henabled hold hnew
  · exact fun n call hn hstage => awaits_of_not_settled hn hstage
  · intro n later t hn hrun
    refine ⟨(rank_of_run hrun hn).2, ?_⟩
    rw [rank_eq (List.getElem?_eq_getElem hn)]
    generalize s.calls[n].stage = stage
    cases stage with
    | fetching creds refreshed => cases refreshed <;> simp only [Stage.rank] <;> omega
    | _ => simp only [Stage.rank]; omega

def zeroInstant : Instant := ⟨0, by decide⟩

/-- What `toISOString` writes at the time zero, which is the only one below. -/
def zeroIso (_ : Instant) : String := "1970-01-01T00:00:00.000Z"

/-- A login in the file of the home directory. -/
def homeLogin (token : String) : ClaudeCredEnv where
  darwin := false
  configDir := none
  homedir := .ok "/home/user"
  keychain := .ok none
  file := some (.ok (some (.object
    [("claudeAiOauth", .object [("accessToken", .string token)])])))

def endlessOverage : Data :=
  .object [("rateLimitType", .string "overage"), ("resetsAt", .number (.finite (10 ^ 20)))]

/-- The endpoint has failed, and the call has ended. -/
theorem usage_fulfils_iff_example :
    ((system zeroIso 300000).restrict (Allowed 300000)).Run {}
      [.usage zeroInstant (homeLogin "token"), .answer 0 (.threw "timeout")]
      ((usage zeroIso 300000 {} zeroInstant (homeLogin "token")).answer zeroIso 300000 0
        (.threw "timeout")) := by
  have hlegal : System.Legal Enabled (apply zeroIso 300000) {}
      [.usage zeroInstant (homeLogin "token"), .answer 0 (.threw "timeout")] :=
    ⟨bot_le, rfl, trivial⟩
  refine (usage_fulfils_iff zeroIso 300000 _ _).1.mpr ⟨hlegal.run, ?_⟩
  rintro ⟨n, ts, message, hn⟩
  cases n with
  | zero => cases hn
  | succ n => cases hn

/-- An event with a date beyond all dates, and then a payload: the call is rejected. -/
theorem usage_rejects :
    ¬ ∀ (iso : Instant → String) (ttl : ℚ) (labels : List Action) (s : Provider),
      (system iso ttl).Run {} labels s → ¬ Rejected s := by
  intro h
  have hlegal : System.Legal Enabled (apply zeroIso 300000) {}
      [.recordRateLimitEvent endlessOverage, .usage zeroInstant (homeLogin "token"),
        .answer 0 (.ok (.object []))] :=
    ⟨trivial, bot_le, rfl, trivial⟩
  refine h zeroIso 300000 _ _ hlegal.run
    ((rejected_apply_iff zeroIso 300000 hlegal.2.2.1 ?_).mpr fun hallowed => ?_)
  · rintro ⟨n, ts, message, hn⟩
    cases n with
    | zero => cases hn
    | succ n => cases hn
  · exact hallowed ⟨endlessOverage, 10 ^ 20, rfl, rfl, rfl, by decide +kernel⟩

end VicoopBridge.ClaudeUsage
