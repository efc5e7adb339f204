import VicoopBridge.Verification.ClaudeUsage

/-! # The throttle of the Claude usage calls

A request goes out only when every other call has its answer and the window of that answer is over,
as long as no call begins its attempt while another one is at its own. -/

namespace VicoopBridge.ClaudeUsage

open Library Provider

variable {iso : Instant → String} {ttl : ℚ} {s t : Provider} {n m : ℕ} {ts : Instant}
  {creds : ClaudeOAuthCreds} {env : ClaudeCredEnv} {call : Call} {stage : Stage}
  {result : FetchUsageResult} {log : List Entry} {entry : Entry} {token : String}

/-! ## What the log says -/

/-- The entry is about a request of the call. -/
def Entry.ofCall (n : ℕ) : Entry → Bool
  | .request m _ _ => m = n
  | .answer m _ _ _ => m = n
  | _ => false

/-- The requests of a call and their answers. -/
def exchange (log : List Entry) (n : ℕ) : List Entry := log.filter (Entry.ofCall n)

/-- The call has made no request, or its last one is answered and the end of the window that the
answer opens satisfies `P`. -/
def Over (ttl : ℚ) (log : List Entry) (P : Time → Prop) (n : ℕ) : Prop :=
  exchange log n = [] ∨ ∃ entries ts token result,
    exchange log n = entries ++ [.answer n ts token result] ∧ P (after ts (result.window ttl))

/-- The last answer to the token was a 401, and the login has not been seen with another token
since. -/
def Dead (log : List Entry) (token : String) : Prop :=
  ∃ past n ts result future, log = past ++ .answer n ts token result :: future ∧
    result.unauthorized = true ∧
    (∀ m ts' result', .answer m ts' token result' ∈ future → result'.unauthorized = true) ∧
    ∀ token', .read (some token') ∈ future → token' = token

/-- When a call may make a request: all others are answered and their windows over; it is its first
one, or the only retry after a 401, with another token; and the token is not known to be dead. -/
structure Permitted (ttl : ℚ) (past : List Entry) (n : ℕ) (ts : Instant) (token : String) :
    Prop where
  others : ∀ m, m ≠ n → Over ttl past (· ≤ after ts 0) m
  own : exchange past n = [] ∨ ∃ token' result,
    exchange past n = [.request n ts token', .answer n ts token' result] ∧
      result.unauthorized = true ∧ token ≠ token'
  live : ¬ Dead past token

def Respects (ttl : ℚ) (log : List Entry) : Prop :=
  ∀ past n ts token future, log = past ++ .request n ts token :: future →
    Permitted ttl past n ts token

/-- The new request, if it is one, is permitted. -/
theorem Respects.append (h : Respects ttl log)
    (hentry : ∀ n ts token, entry = .request n ts token → Permitted ttl log n ts token) :
    Respects ttl (log ++ [entry]) := by
  intro past n ts token future heq
  rcases List.eq_nil_or_concat future with rfl | ⟨rest, last, rfl⟩
  · obtain ⟨rfl, hlast⟩ := List.append_inj' heq rfl
    exact hentry n ts token (List.cons.inj hlast).1
  · rw [List.concat_eq_append, ← List.cons_append, ← List.append_assoc] at heq
    exact h past n ts token rest (List.append_inj' heq rfl).1

theorem exchange_append (log : List Entry) (entry : Entry) (n : ℕ) :
    exchange (log ++ [entry]) n =
      exchange log n ++ if entry.ofCall n = true then [entry] else [] := by
  rw [exchange, List.filter_append, List.filter_singleton, Bool.cond_eq_ite]
  rfl

theorem exchange_append_of_other (h : entry.ofCall n = false) :
    exchange (log ++ [entry]) n = exchange log n := by
  rw [exchange_append, h, if_neg Bool.false_ne_true, List.append_nil]

theorem exchange_append_of_own (h : entry.ofCall n = true) :
    exchange (log ++ [entry]) n = exchange log n ++ [entry] := by
  rw [exchange_append, if_pos h]

theorem Over.append_of_other {P : Time → Prop} (h : Over ttl log P n)
    (hentry : entry.ofCall n = false) : Over ttl (log ++ [entry]) P n := by
  unfold Over
  rw [exchange_append_of_other hentry]
  exact h

theorem Over.mono {P Q : Time → Prop} (h : Over ttl log P n) (hPQ : ∀ x, P x → Q x) :
    Over ttl log Q n := by
  rcases h with hnone | ⟨entries, ts, token, result, heq, hP⟩
  · exact .inl hnone
  · exact .inr ⟨entries, ts, token, result, heq, hPQ _ hP⟩

/-- A token that is dead behind a new entry has its 401 there, or was dead before and is still the
one that was read. -/
theorem Dead.of_append (h : Dead (log ++ [entry]) token) :
    (∃ n ts result, entry = .answer n ts token result ∧ result.unauthorized = true) ∨
      (Dead log token ∧
        (∀ n ts result, entry = .answer n ts token result → result.unauthorized = true) ∧
        ∀ token', entry = .read (some token') → token' = token) := by
  obtain ⟨past, n, ts, result, future, heq, hresult, hanswers, hreads⟩ := h
  rcases List.eq_nil_or_concat future with rfl | ⟨rest, last, rfl⟩
  · obtain ⟨-, hlast⟩ := List.append_inj' heq rfl
    exact .inl ⟨n, ts, result, (List.cons.inj hlast).1, hresult⟩
  · rw [List.concat_eq_append, ← List.cons_append, ← List.append_assoc] at heq
    obtain ⟨rfl, hlast⟩ := List.append_inj' heq rfl
    obtain rfl : entry = last := (List.cons.inj hlast).1
    rw [List.concat_eq_append] at hanswers hreads
    refine .inr ⟨⟨past, n, ts, result, rest, rfl, hresult, fun m ts' result' hmem => ?_,
      fun token' hmem => ?_⟩, fun m ts' result' heq => ?_, fun token' heq => ?_⟩
    · exact hanswers m ts' result' (List.mem_append_left _ hmem)
    · exact hreads token' (List.mem_append_left _ hmem)
    · exact hanswers m ts' result' (heq ▸ List.mem_append_right _ (List.mem_singleton_self _))
    · exact hreads token' (heq ▸ List.mem_append_right _ (List.mem_singleton_self _))

def Entry.read? : Entry → Option String
  | .read token => token
  | _ => none

/-- The token that the login was seen with last. -/
def lastRead (log : List Entry) : Option String := latest Entry.read? log

theorem lastRead_append (log : List Entry) (entry : Entry) :
    lastRead (log ++ [entry]) = entry.read?.or (lastRead log) :=
  latest_append Entry.read? log entry

/-! ## Entries -/

/-- What holds of the entries, with the token that the provider holds for dead and the number of
calls made. -/
structure Recorded (ttl : ℚ) (log : List Entry) (failed : Option String) (made : ℕ) : Prop where
  respects : Respects ttl log
  unmade : ∀ n, made ≤ n → exchange log n = []
  dead : ∀ token, Dead log token → failed = some token ∧ lastRead log = some token

variable {failed : Option String} {made : ℕ}

theorem Recorded.init (ttl : ℚ) : Recorded ttl [] none 0 where
  respects past n ts token future heq := by simp at heq
  unmade n _ := rfl
  dead token h := by
    obtain ⟨past, n, ts, result, future, heq, -⟩ := h
    simp at heq

theorem Recorded.more (h : Recorded ttl log failed made) (hle : made ≤ m) :
    Recorded ttl log failed m :=
  ⟨h.respects, fun n hn => h.unmade n (hle.trans hn), h.dead⟩

theorem Recorded.read (h : Recorded ttl log failed made) (read : Option String) :
    Recorded ttl (log ++ [.read read]) failed made where
  respects := h.respects.append fun n ts token heq => (by cases heq)
  unmade n hn := by rw [exchange_append_of_other rfl, h.unmade n hn]
  dead token hdead := by
    rw [lastRead_append]
    rcases hdead.of_append with ⟨n, ts, result, heq, -⟩ | ⟨hold, -, hread⟩
    · cases heq
    · obtain ⟨hfailed, hlast⟩ := h.dead token hold
      cases read with
      | none => exact ⟨hfailed, hlast⟩
      | some token' =>
          obtain rfl := hread token' rfl
          exact ⟨hfailed, rfl⟩

theorem Recorded.snapshot (h : Recorded ttl log failed made) (value : BridgeUsage) :
    Recorded ttl (log ++ [.snapshot value]) failed made where
  respects := h.respects.append fun n ts token heq => (by cases heq)
  unmade n hn := by rw [exchange_append_of_other rfl, h.unmade n hn]
  dead token hdead := by
    rcases hdead.of_append with ⟨n, ts, result, heq, -⟩ | ⟨hold, -⟩
    · cases heq
    · rw [lastRead_append]
      exact h.dead token hold

theorem Recorded.request (h : Recorded ttl log failed made) (hn : n < made)
    (hpermitted : Permitted ttl log n ts token) :
    Recorded ttl (log ++ [.request n ts token]) failed made where
  respects := h.respects.append fun n' ts' token' heq => by
    cases heq
    exact hpermitted
  unmade m hm := by
    have hother : (Entry.request n ts token).ofCall m = false :=
      decide_eq_false (Nat.ne_of_lt (hn.trans_le hm))
    rw [exchange_append_of_other hother, h.unmade m hm]
  dead token' hdead := by
    rcases hdead.of_append with ⟨n, ts, result, heq, -⟩ | ⟨hold, -⟩
    · cases heq
    · rw [lastRead_append]
      exact h.dead token' hold

/-- Only a 401 leaves a dead token behind, and that is the one that was sent. -/
theorem Recorded.answer (h : Recorded ttl log failed made) (hn : n < made)
    (hlast : lastRead log = some token) {failed' : Option String}
    (hfailed : result.unauthorized = true → failed' = some token) :
    Recorded ttl (log ++ [.answer n ts token result]) failed' made where
  respects := h.respects.append fun n' ts' token' heq => (by cases heq)
  unmade m hm := by
    have hother : (Entry.answer n ts token result).ofCall m = false :=
      decide_eq_false (Nat.ne_of_lt (hn.trans_le hm))
    rw [exchange_append_of_other hother, h.unmade m hm]
  dead token' hdead := by
    rw [lastRead_append]
    rcases hdead.of_append with ⟨n', ts', result', heq, hresult⟩ | ⟨hold, hanswers, -⟩
    · cases heq
      exact ⟨hfailed hresult, hlast⟩
    · obtain rfl : token = token' := by
        have hsame := (h.dead token' hold).2
        rw [hlast, Option.some.injEq] at hsame
        exact hsame
      exact ⟨hfailed (hanswers n ts result rfl), hlast⟩

/-! ## The windows of the provider -/

/-- A call that comes now, and makes an attempt, comes no sooner than this. -/
def Elapsed (ttl : ℚ) (s : Provider) (x : Time) : Prop :=
  x ≤ s.clock ∨ x ≤ s.nextAttemptAt ∨
    ∃ value ts, s.cachedOauth = some (value, ts) ∧ x = after ts ttl

theorem after_le_iff {ts ts' : Instant} {wait : ℚ} :
    after ts wait ≤ after ts' 0 ↔ wait ≤ ts'.ms - ts.ms := by
  rw [after, after, add_zero, WithBot.coe_le_coe, ← WithTop.coe_add, WithTop.coe_le_coe,
    le_sub_iff_add_le']

theorem le_of_passes {x : Time} (hpasses : Passes ttl s ts) (hclock : s.clock ≤ after ts 0)
    (h : Elapsed ttl s x) : x ≤ after ts 0 := by
  rcases h with hx | hx | ⟨value, ts', hcached, rfl⟩
  · exact hx.trans hclock
  · have hnext : ¬ after ts 0 < s.nextAttemptAt := of_decide_eq_false hpasses.2
    exact hx.trans (not_lt.mp hnext)
  · rw [after_le_iff, ← not_lt]
    intro hless
    have hfresh : s.fresh ttl ts = some value := by
      rw [fresh, hcached, Option.filter_some, if_pos (decide_eq_true hless)]
      rfl
    rw [hpasses.1] at hfresh
    cases hfresh

/-- Only a refresh after a 401 has a request before it. -/
def Before (log : List Entry) (n : ℕ) (ts : Instant) (why : Refresh) (creds : ClaudeOAuthCreds) :
    Prop :=
  (why ≠ .unauthorized ∧ exchange log n = []) ∨
    why = .unauthorized ∧ ∃ result, result.unauthorized = true ∧ exchange log n =
      [.request n ts creds.accessToken, .answer n ts creds.accessToken result]

/-- Where a call stands that has not ended. -/
def Engaged (log : List Entry) (n : ℕ) (ts : Instant) : Stage → Prop
  | .refreshing why creds => Before log n ts why creds ∧ lastRead log = some creds.accessToken
  | .refreshed why creds rc => Before log n ts why creds ∧
      lastRead log = some (rc.getD creds).accessToken ∧
        ∀ rc', rc = some rc' → rc'.accessToken ≠ creds.accessToken → ∀ token, ¬ Dead log token
  | .fetching creds refreshed => lastRead log = some creds.accessToken ∧
      (refreshed = false → exchange log n = [.request n ts creds.accessToken])
  | .done _ => False

/-- One call is at its attempt, and all others have ended. -/
structure Busy (ttl : ℚ) (s : Provider) (n : ℕ) (ts : Instant) (stage : Stage) : Prop where
  call : s.calls[n]? = some ⟨ts, stage⟩
  settled : ∀ (m : ℕ) (call : Call), m ≠ n → s.calls[m]? = some call → call.stage.settled = true
  clock : after ts 0 ≤ s.clock
  others : ∀ m, m ≠ n → Over ttl s.log (· ≤ after ts 0) m
  engaged : Engaged s.log n ts stage

/-- All calls have ended. -/
structure Idle (ttl : ℚ) (s : Provider) : Prop where
  settled : ∀ (m : ℕ) (call : Call), s.calls[m]? = some call → call.stage.settled = true
  passed : ∀ m, Over ttl s.log (Elapsed ttl s) m

structure Throttled (ttl : ℚ) (s : Provider) : Prop where
  recorded : Recorded ttl s.log s.lastFailedToken s.calls.length
  phase : Idle ttl s ∨ ∃ n ts stage, Busy ttl s n ts stage

theorem Engaged.not_settled (h : Engaged log n ts stage) : stage.settled = false := by
  cases stage with
  | done r => cases h
  | _ => rfl

theorem Throttled.busy (h : Throttled ttl s) (hn : s.calls[n]? = some ⟨ts, stage⟩)
    (hstage : stage.settled = false) : Busy ttl s n ts stage := by
  rcases h.phase with hidle | ⟨m, ts', stage', hbusy⟩
  · have hsettled := hidle.settled n _ hn
    rw [hstage] at hsettled
    cases hsettled
  · by_cases hnm : n = m
    · subst hnm
      have hcall := hbusy.call
      rw [hn, Option.some.injEq, Call.mk.injEq] at hcall
      obtain ⟨rfl, rfl⟩ := hcall
      exact hbusy
    · have hsettled := hbusy.settled n _ hnm hn
      rw [hstage] at hsettled
      cases hsettled

theorem Throttled.idle (h : Throttled ttl s) (hall : ∀ call ∈ s.calls, call.stage.settled = true) :
    Idle ttl s := by
  rcases h.phase with hidle | ⟨n, ts, stage, hbusy⟩
  · exact hidle
  · have hsettled := hall _ (List.mem_of_getElem? hbusy.call)
    rw [hbusy.engaged.not_settled] at hsettled
    cases hsettled

/-! ## What leaves the attempt alone -/

theorem Throttled.init (ttl : ℚ) : Throttled ttl {} where
  recorded := .init ttl
  phase := .inl ⟨fun m call hm => (by cases hm), fun m => .inl rfl⟩

theorem Throttled.recordRateLimitEvent (h : Throttled ttl s) (info : Data) :
    Throttled ttl (s.recordRateLimitEvent info) := by
  obtain ⟨hrecorded, hphase⟩ := h
  have hkept : Throttled ttl { s with lastRateLimit := some info } := by
    refine ⟨hrecorded, hphase.imp (fun hidle => ⟨hidle.settled, hidle.passed⟩) ?_⟩
    rintro ⟨n, ts, stage, hbusy⟩
    exact ⟨n, ts, stage, hbusy.call, hbusy.settled, hbusy.clock, hbusy.others, hbusy.engaged⟩
  cases info with
  | null => exact ⟨hrecorded, hphase⟩
  | _ => exact hkept

theorem Throttled.readClock (h : Throttled ttl s) (hclock : s.clock ≤ after ts 0) :
    Throttled ttl (s.readClock ts) := by
  refine ⟨h.recorded, h.phase.imp (fun hidle => ⟨hidle.settled, fun m => ?_⟩) ?_⟩
  · exact (hidle.passed m).mono fun x hx => hx.imp_left fun hle => hle.trans hclock
  · rintro ⟨n, ts', stage, hbusy⟩
    exact ⟨n, ts', stage, hbusy.call, hbusy.settled, hbusy.clock.trans hclock, hbusy.others,
      hbusy.engaged⟩

theorem Engaged.readNone (h : Engaged log n ts stage) :
    Engaged (log ++ [.read none]) n ts stage := by
  have hexchange : exchange (log ++ [.read none]) n = exchange log n :=
    exchange_append_of_other rfl
  have hlast : lastRead (log ++ [.read none]) = lastRead log := lastRead_append log _
  cases stage with
  | refreshing why creds =>
      unfold Engaged Before at h ⊢
      rw [hexchange, hlast]
      exact h
  | refreshed why creds rc =>
      unfold Engaged Before at h ⊢
      rw [hexchange, hlast]
      refine ⟨h.1, h.2.1, fun rc' hrc hother token hdead => ?_⟩
      rcases hdead.of_append with ⟨m, ts', result, heq, -⟩ | ⟨hold, -⟩
      · cases heq
      · exact h.2.2 rc' hrc hother token hold
  | fetching creds refreshed =>
      unfold Engaged at h ⊢
      rw [hexchange, hlast]
      exact h
  | done r => exact h

theorem Throttled.readNone (h : Throttled ttl s) : Throttled ttl (s.noteRead none) := by
  refine ⟨h.recorded.read none, h.phase.imp (fun hidle => ⟨hidle.settled, fun m => ?_⟩) ?_⟩
  · exact (hidle.passed m).append_of_other rfl
  · rintro ⟨n, ts, stage, hbusy⟩
    exact ⟨n, ts, stage, hbusy.call, hbusy.settled, hbusy.clock,
      fun m hm => (hbusy.others m hm).append_of_other rfl, hbusy.engaged.readNone⟩

theorem length_push (s : Provider) (ts : Instant) (stage : Stage) :
    (s.push ts stage).calls.length = s.calls.length + 1 := List.length_append

theorem settled_push {P : ℕ → Prop} (stage : Stage)
    (h : ∀ (m : ℕ) (call : Call), P m → s.calls[m]? = some call → call.stage.settled = true)
    (hstage : P s.calls.length → stage.settled = true) (m : ℕ) (call : Call) (hm : P m)
    (hcall : (s.push ts stage).calls[m]? = some call) : call.stage.settled = true := by
  rw [getElem?_push] at hcall
  split at hcall
  · next heq =>
      cases hcall
      exact hstage (heq ▸ hm)
  · exact h m call hm hcall

theorem Throttled.pushDone (h : Throttled ttl s) (ts : Instant) (r : Except String BridgeUsage) :
    Throttled ttl (s.push ts (.done r)) := by
  have hrecorded : Recorded ttl (s.push ts (.done r)).log (s.push ts (.done r)).lastFailedToken
      (s.push ts (.done r)).calls.length := by
    rw [length_push]
    exact h.recorded.more (Nat.le_succ _)
  refine ⟨hrecorded, h.phase.imp (fun hidle => ⟨fun m call => ?_, hidle.passed⟩) ?_⟩
  · exact settled_push (P := fun _ => True) _ (fun m call _ => hidle.settled m call)
      (fun _ => rfl) m call trivial
  · rintro ⟨n, ts', stage, hbusy⟩
    exact ⟨n, ts', stage, getElem?_push_of_some _ hbusy.call,
      settled_push (P := (· ≠ n)) _ hbusy.settled fun _ => rfl, hbusy.clock, hbusy.others,
      hbusy.engaged⟩

/-! ## A new attempt -/

/-- A call that makes an attempt waits for no window that is open. -/
theorem Idle.passed_of_passes (h : Idle ttl s) (hpasses : Passes ttl s ts)
    (hclock : s.clock ≤ after ts 0) (m : ℕ) : Over ttl s.log (· ≤ after ts 0) m :=
  (h.passed m).mono fun _ => le_of_passes hpasses hclock

theorem Throttled.pushRefreshing (h : Throttled ttl s) (hidle : Idle ttl s)
    (hpasses : Passes ttl s ts) (hclock : s.clock ≤ after ts 0) {why : Refresh}
    (hwhy : why ≠ .unauthorized) :
    Throttled ttl (((s.readClock ts).noteRead (some creds)).push ts (.refreshing why creds)) := by
  have hrecorded := h.recorded.read (some creds.accessToken)
  refine ⟨?_, .inr ⟨s.calls.length, ts, .refreshing why creds, ?_, ?_, le_rfl, fun m hm => ?_,
    .inl ⟨hwhy, ?_⟩, ?_⟩⟩
  · rw [length_push]
    exact hrecorded.more (Nat.le_succ _)
  · rw [getElem?_push]
    exact if_pos rfl
  · exact settled_push (P := (· ≠ s.calls.length)) _ (fun m call _ => hidle.settled m call)
      fun hne => absurd rfl hne
  · exact (hidle.passed_of_passes hpasses hclock m).append_of_other rfl
  · exact hrecorded.unmade _ le_rfl
  · exact lastRead_append s.log (.read (some creds.accessToken))

theorem Throttled.pushFetching (h : Throttled ttl s) (hidle : Idle ttl s)
    (hpasses : Passes ttl s ts) (hclock : s.clock ≤ after ts 0)
    (hlive : s.lastFailedToken ≠ some creds.accessToken) :
    Throttled ttl ((((s.readClock ts).noteRead (some creds)).request s.calls.length ts creds).push
      ts (.fetching creds false)) := by
  have hread := h.recorded.read (some creds.accessToken)
  have hothers : ∀ m, Over ttl (s.log ++ [.read (some creds.accessToken)]) (· ≤ after ts 0) m :=
    fun m => (hidle.passed_of_passes hpasses hclock m).append_of_other rfl
  have hnone := hread.unmade _ le_rfl
  have hpermitted : Permitted ttl (s.log ++ [.read (some creds.accessToken)]) s.calls.length ts
      creds.accessToken :=
    ⟨fun m _ => hothers m, .inl hnone, fun hdead => hlive (hread.dead _ hdead).1⟩
  have hrecorded := (hread.more (Nat.le_succ _)).request (Nat.lt_succ_self _) hpermitted
  have hown : (Entry.request s.calls.length ts creds.accessToken).ofCall s.calls.length = true :=
    decide_eq_true rfl
  have hlast : lastRead (s.log ++ [.read (some creds.accessToken)] ++
      [.request s.calls.length ts creds.accessToken]) = some creds.accessToken := by
    rw [lastRead_append, lastRead_append]
    rfl
  have hexchange : exchange (s.log ++ [.read (some creds.accessToken)] ++
      [.request s.calls.length ts creds.accessToken]) s.calls.length =
        [.request s.calls.length ts creds.accessToken] := by
    rw [exchange_append_of_own hown, hnone, List.nil_append]
  refine ⟨?_, .inr ⟨s.calls.length, ts, .fetching creds false, ?_, ?_, le_rfl, fun m hm => ?_,
    ?_, fun _ => ?_⟩⟩
  · rw [length_push]
    exact hrecorded
  · rw [getElem?_push]
    exact if_pos rfl
  · exact settled_push (P := (· ≠ s.calls.length)) _ (fun m call _ => hidle.settled m call)
      fun hne => absurd rfl hne
  · exact (hothers m).append_of_other (decide_eq_false hm.symm)
  · exact hlast
  · exact hexchange

/-! ## The steps of an attempt -/

theorem length_setStage (s : Provider) (n : ℕ) (stage : Stage) :
    (s.setStage n stage).calls.length = s.calls.length := List.length_modify _ _ _

/-- The call goes on, and its entry is about no other call. -/
theorem Busy.goOn (h : Busy ttl s n ts stage) {stage' : Stage}
    (hcalls : t.calls = (s.setStage n stage').calls) (hclock : t.clock = s.clock)
    (hlog : t.log = s.log ++ [entry]) (hentry : ∀ m, m ≠ n → entry.ofCall m = false)
    (hengaged : Engaged t.log n ts stage') : Busy ttl t n ts stage' := by
  refine ⟨?_, fun m call hm hcall => ?_, hclock ▸ h.clock, fun m hm => ?_, hengaged⟩
  · rw [hcalls, getElem?_setStage_self _ h.call]
  · rw [hcalls, getElem?_setStage_ne _ hm.symm] at hcall
    exact h.settled m call hm hcall
  · rw [hlog]
    exact (h.others m hm).append_of_other (hentry m hm)

/-- The call ends. -/
theorem Busy.finish (h : Busy ttl s n ts stage) {r : Except String BridgeUsage}
    (hcalls : t.calls = (s.setStage n (.done r)).calls) (hclock : t.clock = s.clock)
    (hothers : ∀ m, m ≠ n → Over ttl t.log (· ≤ after ts 0) m)
    (hown : Over ttl t.log (Elapsed ttl t) n) : Idle ttl t := by
  refine ⟨fun m call hcall => ?_, fun m => ?_⟩
  · rw [hcalls] at hcall
    by_cases hm : m = n
    · subst hm
      rw [getElem?_setStage_self _ h.call, Option.some.injEq] at hcall
      subst hcall
      rfl
    · rw [getElem?_setStage_ne _ (Ne.symm hm)] at hcall
      exact h.settled m call hm hcall
  · by_cases hm : m = n
    · subst hm
      exact hown
    · exact (hothers m hm).mono fun x hx => .inl (hx.trans (hclock ▸ h.clock))

/-- A 401 opens the window of a failure. -/
theorem window_of_unauthorized (h : result.unauthorized = true) : result.window ttl = ttl := by
  cases result with
  | failed status retryAfterMs =>
      have hstatus : status = 401 := of_decide_eq_true h
      subst hstatus
      rfl
  | _ => cases h

theorem Throttled.refreshed (h : Throttled ttl s) {why : Refresh} {rc : Option ClaudeOAuthCreds}
    (hbusy : Busy ttl s n ts (.refreshing why creds)) :
    Throttled ttl ((s.noteRead rc).setStage n (.refreshed why creds rc)) := by
  obtain ⟨hbefore, hlast⟩ := hbusy.engaged
  have hexchange : exchange (s.log ++ [.read (rc.map ClaudeOAuthCreds.accessToken)]) n =
      exchange s.log n := exchange_append_of_other rfl
  refine ⟨?_, .inr ⟨n, ts, .refreshed why creds rc, hbusy.goOn rfl rfl rfl (fun _ _ => rfl) ?_⟩⟩
  · rw [length_setStage]
    exact h.recorded.read _
  · refine ⟨?_, ?_, ?_⟩
    · have hsame : Before (s.log ++ [.read (rc.map ClaudeOAuthCreds.accessToken)]) n ts why
          creds := by
        unfold Before
        rw [hexchange]
        exact hbefore
      exact hsame
    · have hread : lastRead (s.log ++ [.read (rc.map ClaudeOAuthCreds.accessToken)]) =
          some (rc.getD creds).accessToken := by
        rw [lastRead_append, hlast]
        cases rc <;> rfl
      exact hread
    · rintro rc' rfl hother token hdead
      rcases hdead.of_append with ⟨m, ts', result, heq, -⟩ | ⟨hold, -, hread⟩
      · cases heq
      · have hsame := (h.recorded.dead token hold).2
        rw [hlast, Option.some.injEq] at hsame
        exact hother ((hread _ rfl).trans hsame.symm)

/-- The refresh ends the call: whatever was asked before is answered. -/
theorem Before.answered {why : Refresh} {P : Time → Prop} (h : Before log n ts why creds)
    (hP : P (after ts ttl)) : Over ttl log P n := by
  rcases h with ⟨-, hnone⟩ | ⟨-, result, hresult, heq⟩
  · exact .inl hnone
  · refine .inr ⟨[.request n ts creds.accessToken], ts, creds.accessToken, result, heq, ?_⟩
    rw [window_of_unauthorized hresult]
    exact hP

theorem Throttled.retry (h : Throttled ttl s) {why : Refresh} {rc : ClaudeOAuthCreds}
    (hbusy : Busy ttl s n ts (.refreshed why creds (some rc)))
    (hother : rc.accessToken ≠ creds.accessToken) :
    Throttled ttl ((s.request n ts rc).setStage n (.fetching rc true)) := by
  obtain ⟨hbefore, hlast, hlive⟩ := hbusy.engaged
  have hpermitted : Permitted ttl s.log n ts rc.accessToken := by
    refine ⟨hbusy.others, ?_, hlive rc rfl hother _⟩
    rcases hbefore with ⟨-, hnone⟩ | ⟨-, result, hresult, heq⟩
    · exact .inl hnone
    · exact .inr ⟨creds.accessToken, result, heq, hresult, hother⟩
  have hn : n < s.calls.length := (List.getElem?_eq_some_iff.mp hbusy.call).1
  refine ⟨?_, .inr ⟨n, ts, .fetching rc true,
    hbusy.goOn rfl rfl rfl (fun m hm => decide_eq_false hm.symm) ⟨?_, ?_⟩⟩⟩
  · rw [length_setStage]
    exact h.recorded.request hn hpermitted
  · exact (lastRead_append s.log (.request n ts rc.accessToken)).trans hlast
  · intro hfalse
    cases hfalse

/-- The call ends without a request of its own behind its last answer. -/
theorem Throttled.giveUp (h : Throttled ttl s) {why : Refresh} {rc : Option ClaudeOAuthCreds}
    (hbusy : Busy ttl s n ts (.refreshed why creds rc)) (note : String) :
    Throttled ttl (s.backOff iso n ts ttl note) := by
  refine ⟨?_, .inl (hbusy.finish rfl rfl hbusy.others ?_)⟩
  · exact (length_setStage _ _ _).symm ▸ h.recorded
  · exact hbusy.engaged.1.answered (.inr (.inl le_rfl))

theorem Throttled.refreshThrew (h : Throttled ttl s) {why : Refresh}
    (hbusy : Busy ttl s n ts (.refreshing why creds)) (hwhy : why ≠ .unauthorized)
    (message : String) : Throttled ttl (s.setStage n (.done (.error message))) := by
  refine ⟨?_, .inl (hbusy.finish rfl rfl hbusy.others ?_)⟩
  · exact (length_setStage _ _ _).symm ▸ h.recorded
  · rcases hbusy.engaged.1 with ⟨-, hnone⟩ | ⟨hunauthorized, -⟩
    · exact .inl hnone
    · exact absurd hunauthorized hwhy

theorem Throttled.answer (h : Throttled ttl s) {refreshed : Bool}
    (hbusy : Busy ttl s n ts (.fetching creds refreshed))
    (hdated : ∀ data, result = .ok data → ¬ Undated s.lastRateLimit) :
    Throttled ttl ((s.record (.answer n ts creds.accessToken result)).settle iso ttl n ts creds
      refreshed result) := by
  obtain ⟨hlast, hfirst⟩ := hbusy.engaged
  have hn : n < s.calls.length := (List.getElem?_eq_some_iff.mp hbusy.call).1
  have hown : (Entry.answer n ts creds.accessToken result).ofCall n = true := decide_eq_true rfl
  have hexchange : exchange (s.log ++ [.answer n ts creds.accessToken result]) n =
      exchange s.log n ++ [.answer n ts creds.accessToken result] := exchange_append_of_own hown
  have hothers : ∀ m, m ≠ n →
      Over ttl (s.log ++ [.answer n ts creds.accessToken result]) (· ≤ after ts 0) m :=
    fun m hm => (hbusy.others m hm).append_of_other (decide_eq_false hm.symm)
  rcases settle_cases iso ttl (s.record (.answer n ts creds.accessToken result)) n ts creds
    refreshed result with ⟨data, value, rfl, -, heq⟩ | ⟨data, rfl, hundated, -⟩ |
      ⟨hresult, rfl, heq⟩ | ⟨-, -, note, heq⟩
  · have hanswer : Recorded ttl (s.log ++ [.answer n ts creds.accessToken (.ok data)]) none
        s.calls.length := h.recorded.answer hn hlast fun hresult => (by cases hresult)
    have hsame : exchange (s.log ++ [.answer n ts creds.accessToken (.ok data)] ++
        [.snapshot value]) n =
          exchange s.log n ++ [.answer n ts creds.accessToken (.ok data)] := by
      rw [exchange_append_of_other rfl, hexchange]
    rw [heq]
    refine ⟨?_, .inl (hbusy.finish rfl rfl (fun m hm => (hothers m hm).append_of_other rfl)
      (.inr ⟨_, _, _, _, hsame, .inr (.inr ⟨value, ts, rfl, rfl⟩)⟩))⟩
    rw [length_setStage]
    exact hanswer.snapshot value
  · exact absurd hundated (hdated data rfl)
  · have hrecorded : Recorded ttl (s.log ++ [.answer n ts creds.accessToken result])
        (some creds.accessToken) s.calls.length := h.recorded.answer hn hlast fun _ => rfl
    have hlast' : lastRead (s.log ++ [.answer n ts creds.accessToken result]) =
        some creds.accessToken := (lastRead_append _ _).trans hlast
    rw [hfirst rfl] at hexchange
    rw [heq]
    refine ⟨?_, .inr ⟨n, ts, .refreshing .unauthorized creds, hbusy.goOn rfl rfl rfl
      (fun m hm => decide_eq_false hm.symm) ⟨.inr ⟨rfl, result, hresult, hexchange⟩, hlast'⟩⟩⟩
    rw [length_setStage]
    exact hrecorded
  · have hrecorded : Recorded ttl (s.log ++ [.answer n ts creds.accessToken result])
        (deadBehind (s.record (.answer n ts creds.accessToken result)) creds.accessToken result)
        s.calls.length := by
      refine h.recorded.answer hn hlast fun hresult => ?_
      rw [deadBehind, hresult]
      rfl
    rw [heq]
    refine ⟨?_, .inl (hbusy.finish rfl rfl hothers
      (.inr ⟨_, _, _, _, hexchange, .inr (.inl le_rfl)⟩))⟩
    unfold backOff
    rw [length_setStage]
    exact hrecorded

/-! ## Runs -/

/-- A new call makes an attempt only while no other call is at its own. No read of the login throws
behind a 401, and no payload comes while the recorded date of the overage cannot be written. -/
def Serial (ttl : ℚ) (s : Provider) : Action → Prop
  | .usage ts env => Passes ttl s ts → (∃ creds, readClaudeOAuthCreds env = .ok (some creds)) →
      ∀ call ∈ s.calls, call.stage.settled = true
  | .refreshEnds n env => (∃ ts creds, s.calls[n]? = some ⟨ts, .refreshing .unauthorized creds⟩) →
      ¬ Unlocated env
  | .answer _ (.ok _) => ¬ Undated s.lastRateLimit
  | _ => True

theorem Throttled.step {a : Action} (h : Throttled ttl s) (henabled : Enabled s a)
    (hserial : Serial ttl s a) : Throttled ttl (apply iso ttl s a) := by
  cases a with
  | recordRateLimitEvent info => exact h.recordRateLimitEvent info
  | usage ts env =>
      change Throttled ttl (s.usage iso ttl ts env)
      have hread := h.readClock henabled
      rcases usage_cases iso ttl s ts env with ⟨-, value, -, heq⟩ | ⟨hpasses, ⟨message, -, heq⟩ |
        ⟨-, note, heq⟩ | ⟨creds, hfound, hattempt⟩⟩
      · rw [heq]
        exact hread.pushDone ts _
      · rw [heq]
        exact hread.pushDone ts _
      · rw [heq]
        exact hread.readNone.pushDone ts _
      · have hidle := h.idle (hserial hpasses ⟨creds, hfound⟩)
        rcases hattempt with ⟨why, hwhy, heq⟩ | ⟨hlive, heq⟩
        · rw [heq]
          refine h.pushRefreshing hidle hpasses henabled ?_
          rintro rfl
          rcases hwhy with ⟨hwhy, -⟩ | ⟨hwhy, -⟩ <;> cases hwhy
        · rw [heq]
          exact h.pushFetching hidle hpasses henabled hlive
  | refreshEnds n env =>
      change Throttled ttl (s.refreshEnds n env)
      obtain ⟨ts, why, creds, hcall, ⟨message, hread, heq⟩ | ⟨rc, -, heq⟩⟩ :=
        refreshEnds_cases henabled
      · rw [heq]
        refine h.refreshThrew (h.busy hcall rfl) ?_ message
        rintro rfl
        exact hserial ⟨ts, creds, hcall⟩ (readClaudeOAuthCreds_eq_error_iff.mp ⟨message, hread⟩)
      · rw [heq]
        exact h.refreshed (h.busy hcall rfl)
  | resume n =>
      change Throttled ttl (s.resume iso ttl n)
      obtain ⟨ts, why, creds, rc, hcall, ⟨rc', rfl, hother, heq⟩ | ⟨note, heq⟩⟩ :=
        resume_cases iso ttl henabled
      · rw [heq]
        exact h.retry (h.busy hcall rfl) hother
      · rw [heq]
        exact h.giveUp (h.busy hcall rfl) note
  | answer n result =>
      change Throttled ttl (s.answer iso ttl n result)
      obtain ⟨ts, creds, refreshed, hcall, heq⟩ := answer_eq iso ttl henabled
      rw [heq]
      refine h.answer (h.busy hcall rfl) fun data hdata => ?_
      subst hdata
      exact hserial

/-- As long as the attempts do not overlap, and none is lost to an exception, every request keeps to
the windows of the answers before it. -/
theorem requests_respect_windows {labels : List Action}
    (h : ((system iso ttl).restrict (Serial ttl)).Run {} labels s) : Respects ttl s.log := by
  have hthrottled : Throttled ttl s := by
    refine h.invariant (I := Throttled ttl) (fun s a t hs hstep => ?_) (.init ttl)
    obtain ⟨hserial, henabled, rfl⟩ := hstep
    exact hs.step henabled hserial
  exact hthrottled.recorded.respects

/-- An attempt, up to its request. -/
def afterRequest : Provider := usage zeroIso 300000 {} zeroInstant (homeLogin "token")

/-- The attempt has failed. -/
def afterTimeout : Provider := afterRequest.answer zeroIso 300000 0 (.threw "timeout")

def fiveMinutes : Instant := ⟨300000, by decide +kernel⟩

/-- The next attempt, when the window of the failure is over. -/
theorem requests_respect_windows_example :
    Respects 300000 (afterTimeout.usage zeroIso 300000 fiveMinutes (homeLogin "token")).log := by
  have hrequest : ((system zeroIso 300000).restrict (Serial 300000)).step {}
      (.usage zeroInstant (homeLogin "token")) afterRequest := by
    refine ⟨fun _ _ call hcall => ?_, bot_le, rfl⟩
    cases hcall
  have htimeout : ((system zeroIso 300000).restrict (Serial 300000)).step afterRequest
      (.answer 0 (.threw "timeout")) afterTimeout := ⟨trivial, by rfl, rfl⟩
  have hnext : ((system zeroIso 300000).restrict (Serial 300000)).step afterTimeout
      (.usage fiveMinutes (homeLogin "token"))
      (afterTimeout.usage zeroIso 300000 fiveMinutes (homeLogin "token")) := by
    refine ⟨fun _ _ call hcall => ?_, ?_, rfl⟩
    · cases hcall with
      | head => rfl
      | tail _ hcall => cases hcall
    · have hclock : after zeroInstant 0 ≤ after fiveMinutes 0 :=
        after_le_iff.mpr (by decide +kernel)
      exact hclock
  exact requests_respect_windows (((System.Run.nil {}).snoc hrequest).snoc htimeout |>.snoc hnext)

/-- Two calls one after the other, before the endpoint has answered: both make a request. -/
theorem overlapping_calls_send_twice :
    ¬ ∀ (iso : Instant → String) (ttl : ℚ) (labels : List Action) (s : Provider),
      (system iso ttl).Run {} labels s → Respects ttl s.log := by
  intro h
  have hlegal : System.Legal Enabled (apply zeroIso 300000) {}
      [.usage zeroInstant (homeLogin "token"), .usage zeroInstant (homeLogin "token")] :=
    ⟨bot_le, le_rfl, trivial⟩
  have hpermitted := h zeroIso 300000 _ _ hlegal.run
    [.read (some "token"), .request 0 zeroInstant "token", .read (some "token")] 1 zeroInstant
    "token" [] rfl
  rcases hpermitted.others 0 Nat.zero_ne_one with hnone | ⟨entries, ts, token, result, heq, -⟩
  · cases hnone
  · have hlast := congrArg List.getLast? heq
    rw [List.getLast?_concat] at hlast
    cases hlast

end VicoopBridge.ClaudeUsage
