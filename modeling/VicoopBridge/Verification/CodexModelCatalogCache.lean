import VicoopBridge.Model.CodexModelCatalogCache

/-! # The counters of the Codex catalog

The counter of a load is the number of calls that wait for it, so a load that is aborted has lost
all its calls. -/

namespace VicoopBridge.CodexModelCatalogCache

open Library CatalogCache

variable {sha256 : JsText → JsText} {s t : CatalogCache} {n e signal : ℕ} {call : CatalogCall}
  {entry : Entry} {auth : CodexCredential} {result : Settlement}

/-- The result of a call that its signal has ended while it waited. -/
def LeftBy (s : CatalogCache) (signal : ℕ) (result : Settlement) : Prop :=
  ∃ reason, s.reason? signal = some reason ∧ result = .error (abortRejection reason)

/-- What a call that has joined this entry says of it. -/
def Joined (sha256 : JsText → JsText) (s : CatalogCache) (version : JsText) (signal : ℕ)
    (auth : CodexCredential) (result : Option Settlement) (entry : Entry) : Prop :=
  entry.key = keyOf sha256 version auth ∧
    (∀ r, result = some r → LeftBy s signal r ∨ entry.settled = some r ∧ entry.aborted = false) ∧
      (entry.aborted = true → ∃ r, result = some r ∧ LeftBy s signal r)

/-- Why a call is rejected before it joins. -/
def Refused (s : CatalogCache) (signal : ℕ) (rejection : Rejection) : Prop :=
  (∃ message, rejection = .credential message) ∨
    ∃ reason, s.reason? signal = some reason ∧ rejection = .reason reason

structure Shared (sha256 : JsText → JsText) (s : CatalogCache) : Prop where
  key : ∀ (e : ℕ) (entry : Entry), s.entries[e]? = some entry →
    entry.key = keyOf sha256 entry.version entry.auth
  users : ∀ (e : ℕ) (entry : Entry), s.entries[e]? = some entry →
    entry.users = s.calls.countP (·.waitsFor e)
  current : ∀ e : ℕ, s.current = some e → ∃ entry, s.entries[e]? = some entry ∧
    entry.aborted = false ∧ entry.failed = false
  joined : ∀ (n : ℕ) (version : JsText) (signal e : ℕ) (auth : CodexCredential)
    (result : Option Settlement), s.calls[n]? = some ⟨version, signal, .joined e auth result⟩ →
      ∃ entry, s.entries[e]? = some entry ∧ Joined sha256 s version signal auth result entry
  rejected : ∀ (n : ℕ) (version : JsText) (signal : ℕ) (rejection : Rejection),
    s.calls[n]? = some ⟨version, signal, .rejected rejection⟩ → Refused s signal rejection

/-! ## Lists -/

theorem getElem?_modify {α : Type} (l : List α) (f : α → α) (i j : ℕ) :
    (l.modify i f)[j]? = if i = j then l[j]?.map f else l[j]? := by
  rw [List.getElem?_modify]
  split <;> simp

theorem countP_modify {α : Type} (p : α → Bool) (f : α → α) {l : List α} {x : α} {i : ℕ}
    (h : l[i]? = some x) :
    (l.modify i f).countP p + (if p x then 1 else 0) =
      l.countP p + if p (f x) then 1 else 0 := by
  induction l generalizing i with
  | nil => simp at h
  | cons y l ih =>
      cases i with
      | zero =>
          rw [List.getElem?_cons_zero, Option.some.injEq] at h
          subst h
          rw [List.modify_zero_cons, List.countP_cons, List.countP_cons]
          omega
      | succ i =>
          rw [List.getElem?_cons_succ] at h
          have htail := ih h
          rw [List.modify_succ_cons, List.countP_cons, List.countP_cons]
          omega

/-- A call that is waiting is counted. -/
theorem countP_pos_of_waits {calls : List CatalogCall} {version : JsText}
    (h : calls[n]? = some ⟨version, signal, .joined e auth none⟩) :
    0 < calls.countP (·.waitsFor e) := by
  refine List.countP_pos_iff.mpr ⟨_, List.mem_of_getElem? h, ?_⟩
  simp [CatalogCall.waitsFor]

/-! ## The stages of a call -/

theorem getElem?_setStage (s : CatalogCache) (n k : ℕ) (stage : CallStage) :
    (s.setStage n stage).calls[k]? =
      if n = k then s.calls[k]?.map fun call => { call with stage } else s.calls[k]? :=
  getElem?_modify _ _ _ _

/-- What there is at `k` behind a new stage of a call: that call, or what was there. -/
theorem eq_of_getElem?_setStage {k : ℕ} {stage stage' : CallStage} {version : JsText}
    (hn : s.calls[n]? = some call)
    (h : (s.setStage n stage).calls[k]? = some ⟨version, signal, stage'⟩) :
    (n = k ∧ stage' = stage ∧ call.version = version ∧ call.signal = signal) ∨
      (n ≠ k ∧ s.calls[k]? = some ⟨version, signal, stage'⟩) := by
  rw [getElem?_setStage] at h
  by_cases hk : n = k
  · subst hk
    rw [if_pos rfl, hn, Option.map_some, Option.some.injEq, CatalogCall.mk.injEq] at h
    exact .inl ⟨rfl, h.2.2.symm, h.1, h.2.1⟩
  · rw [if_neg hk] at h
    exact .inr ⟨hk, h⟩

theorem countP_setStage (stage : CallStage) (hn : s.calls[n]? = some call) (e : ℕ) :
    (s.setStage n stage).calls.countP (·.waitsFor e) + (if call.waitsFor e then 1 else 0) =
      s.calls.countP (·.waitsFor e) +
        if CatalogCall.waitsFor e { call with stage } then 1 else 0 :=
  countP_modify _ _ hn

theorem waitsFor_joined {version : JsText} (e e' : ℕ) :
    CatalogCall.waitsFor e' ⟨version, signal, .joined e auth none⟩ = decide (e = e') := rfl

theorem waitsFor_done {version : JsText} (e e' : ℕ) :
    CatalogCall.waitsFor e' ⟨version, signal, .joined e auth (some result)⟩ = false := rfl

/-- A call that has not joined comes to its end. -/
theorem Shared.reject (h : Shared sha256 s) {version : JsText}
    (hn : s.calls[n]? = some ⟨version, signal, .reading⟩) {rejection : Rejection}
    (hrefused : Refused s signal rejection) :
    Shared sha256 (s.setStage n (.rejected rejection)) := by
  refine ⟨h.key, fun e entry he => ?_, h.current, ?_, ?_⟩
  · have hcount := countP_setStage (.rejected rejection) hn e
    rw [h.users e entry he]
    exact hcount.symm
  · intro k version' signal' e auth result hk
    rcases eq_of_getElem?_setStage hn hk with ⟨-, hstage, -⟩ | ⟨-, hold⟩
    · cases hstage
    · exact h.joined k version' signal' e auth result hold
  · intro k version' signal' other hk
    rcases eq_of_getElem?_setStage hn hk with ⟨-, hstage, -, hsignal⟩ | ⟨-, hold⟩
    · cases hstage
      exact hsignal ▸ hrefused
    · exact h.rejected k version' signal' other hold

/-! ## The entries -/

theorem getElem?_modifyEntry (s : CatalogCache) (e k : ℕ) (f : Entry → Entry) :
    (s.modifyEntry e f).entries[k]? = if e = k then s.entries[k]?.map f else s.entries[k]? :=
  getElem?_modify _ _ _ _

theorem eq_of_getElem?_modifyEntry {k : ℕ} {f : Entry → Entry} {entry' : Entry}
    (he : s.entries[e]? = some entry) (h : (s.modifyEntry e f).entries[k]? = some entry') :
    (e = k ∧ entry' = f entry) ∨ (e ≠ k ∧ s.entries[k]? = some entry') := by
  rw [getElem?_modifyEntry] at h
  by_cases hk : e = k
  · subst hk
    rw [if_pos rfl, he, Option.map_some, Option.some.injEq] at h
    exact .inl ⟨rfl, h.symm⟩
  · rw [if_neg hk] at h
    exact .inr ⟨hk, h⟩

/-- Where an entry is behind a change of one of them. -/
theorem exists_getElem?_modifyEntry {k : ℕ} {f : Entry → Entry} {old : Entry}
    (he : s.entries[e]? = some entry) (hk : s.entries[k]? = some old) :
    (e = k ∧ old = entry ∧ (s.modifyEntry e f).entries[k]? = some (f entry)) ∨
      (e ≠ k ∧ (s.modifyEntry e f).entries[k]? = some old) := by
  rw [getElem?_modifyEntry]
  by_cases hek : e = k
  · subst hek
    have hold : old = entry := Option.some.inj (hk.symm.trans he)
    exact .inl ⟨rfl, hold, by rw [if_pos rfl, he, Option.map_some]⟩
  · rw [if_neg hek]
    exact .inr ⟨hek, hk⟩

/-- An entry takes a new state that all of its calls agree with. -/
theorem Shared.update (h : Shared sha256 s) (he : s.entries[e]? = some entry)
    {f : Entry → Entry} {current : Option ℕ}
    (hsame : (f entry).version = entry.version ∧ (f entry).auth = entry.auth ∧
      (f entry).key = entry.key ∧ (f entry).users = entry.users)
    (hcurrent : ∀ k, current = some k → s.current = some k ∧
      (k = e → (f entry).aborted = false ∧ (f entry).failed = false))
    (hjoined : ∀ version signal auth result, (entry.users = 0 → result ≠ none) →
      Joined sha256 s version signal auth result entry →
        Joined sha256 s version signal auth result (f entry)) :
    Shared sha256 { s.modifyEntry e f with current := current } := by
  refine ⟨fun k entry' hk => ?_, fun k entry' hk => ?_, fun k hk => ?_, ?_, h.rejected⟩
  · rcases eq_of_getElem?_modifyEntry he hk with ⟨rfl, rfl⟩ | ⟨-, hold⟩
    · rw [hsame.1, hsame.2.1, hsame.2.2.1]
      exact h.key e entry he
    · exact h.key k entry' hold
  · rcases eq_of_getElem?_modifyEntry he hk with ⟨rfl, rfl⟩ | ⟨-, hold⟩
    · rw [hsame.2.2.2]
      exact h.users e entry he
    · exact h.users k entry' hold
  · obtain ⟨hold, hstands⟩ := hcurrent k hk
    obtain ⟨old, hk', haborted, hfailed⟩ := h.current k hold
    rcases exists_getElem?_modifyEntry (f := f) he hk' with ⟨rfl, -, hnew⟩ | ⟨-, hnew⟩
    · exact ⟨f entry, hnew, (hstands rfl).1, (hstands rfl).2⟩
    · exact ⟨old, hnew, haborted, hfailed⟩
  · intro n version signal k auth result hcall
    obtain ⟨old, hk, hold⟩ := h.joined n version signal k auth result hcall
    rcases exists_getElem?_modifyEntry (f := f) he hk with ⟨rfl, rfl, hnew⟩ | ⟨-, hnew⟩
    · refine ⟨f old, hnew, hjoined version signal auth result ?_ hold⟩
      rintro hzero rfl
      have hpos : 0 < s.calls.countP (·.waitsFor e) := countP_pos_of_waits hcall
      rw [← h.users e old he, hzero] at hpos
      exact absurd hpos (Nat.lt_irrefl 0)
    · exact ⟨old, hnew, hold⟩

/-- The load of an entry without calls is aborted. -/
theorem Shared.abandon (h : Shared sha256 s) (he : s.entries[e]? = some entry)
    (husers : entry.users = 0) (hsettled : entry.settled = none) :
    Shared sha256 (s.abandon e) := by
  refine h.update (f := fun entry => { entry with aborted := true }) he ⟨rfl, rfl, rfl, rfl⟩ ?_ ?_
  · intro k hk
    change (if s.current = some e then none else s.current) = some k at hk
    split at hk
    · cases hk
    · next hcurrent =>
        refine ⟨hk, ?_⟩
        rintro rfl
        exact absurd hk hcurrent
  · intro version signal auth result hnone hold
    have hleft : ∃ r, result = some r ∧ LeftBy s signal r := by
      obtain ⟨r, hr⟩ := Option.ne_none_iff_exists'.mp (hnone husers)
      rcases hold.2.1 r hr with hleft | ⟨hr', -⟩
      · exact ⟨r, hr, hleft⟩
      · rw [hsettled] at hr'
        cases hr'
    refine ⟨hold.1, fun r hr => ?_, fun _ => hleft⟩
    obtain ⟨r', hr', hleft'⟩ := hleft
    rw [hr] at hr'
    exact .inl (Option.some.inj hr' ▸ hleft')

theorem Shared.settle (h : Shared sha256 s) (he : s.entries[e]? = some entry)
    (hsettled : entry.settled = none) {outcome : Settlement} {current : Option ℕ}
    (hcurrent : ∀ k, current = some k →
      s.current = some k ∧ (k = e → ∃ value, outcome = .ok value)) :
    Shared sha256 { s.modifyEntry e (fun entry => { entry with settled := some outcome }) with
      current := current } := by
  refine h.update he ⟨rfl, rfl, rfl, rfl⟩ ?_ ?_
  · intro k hk
    obtain ⟨hold, hvalue⟩ := hcurrent k hk
    refine ⟨hold, ?_⟩
    rintro rfl
    obtain ⟨value, rfl⟩ := hvalue rfl
    obtain ⟨entry', he', haborted, -⟩ := h.current k hold
    rw [he, Option.some.injEq] at he'
    exact ⟨he' ▸ haborted, rfl⟩
  · intro version signal auth result hnone hold
    refine ⟨hold.1, fun r hr => ?_, hold.2.2⟩
    rcases hold.2.1 r hr with hleft | ⟨hr', -⟩
    · exact .inl hleft
    · rw [hsettled] at hr'
      cases hr'

theorem Shared.loadSettles (h : Shared sha256 s) (e : ℕ)
    (outcome : Except String (Option String)) : Shared sha256 (s.loadSettles e outcome) := by
  unfold CatalogCache.loadSettles
  split
  · next entry he =>
      split
      · exact h
      · next hsettled =>
          rw [Option.not_isSome_iff_eq_none] at hsettled
          cases outcome with
          | ok value => exact h.settle he hsettled fun k hk => ⟨hk, fun _ => ⟨value, rfl⟩⟩
          | error message =>
              refine h.settle he hsettled fun k hk => ?_
              split at hk
              · cases hk
              · next hcurrent =>
                  refine ⟨hk, ?_⟩
                  rintro rfl
                  exact absurd hk hcurrent
  · exact h

/-- A call joins its entry or is done with it, and the entry counts the calls that wait. -/
theorem Shared.count (h : Shared sha256 s) {version : JsText} {stage : CallStage}
    {result : Option Settlement} {f : ℕ → ℕ}
    (hn : s.calls[n]? = some ⟨version, signal, stage⟩) (he : s.entries[e]? = some entry)
    (hcount : ∀ k, (s.setStage n (.joined e auth result)).calls.countP (·.waitsFor k) =
      if e = k then f (s.calls.countP (·.waitsFor k)) else s.calls.countP (·.waitsFor k))
    (hkey : entry.key = keyOf sha256 version auth) (haborted : entry.aborted = false)
    (hresult : ∀ r, result = some r → LeftBy s signal r ∨ entry.settled = some r) :
    Shared sha256 ((s.setStage n (.joined e auth result)).modifyEntry e fun entry =>
      { entry with users := f entry.users }) := by
  have hmoved {k : ℕ} {old : Entry} (hk : s.entries[k]? = some old) := exists_getElem?_modifyEntry
    (f := fun entry => { entry with users := f entry.users }) he hk
  refine ⟨fun k entry' hk => ?_, fun k entry' hk => ?_, fun k hk => ?_, ?_, ?_⟩
  · rcases eq_of_getElem?_modifyEntry he hk with ⟨rfl, rfl⟩ | ⟨-, hold⟩
    · exact h.key e entry he
    · exact h.key k entry' hold
  · have hnow := hcount k
    rcases eq_of_getElem?_modifyEntry he hk with ⟨rfl, rfl⟩ | ⟨hne, hold⟩
    · rw [if_pos rfl, ← h.users e entry he] at hnow
      exact hnow.symm
    · rw [if_neg hne, ← h.users k entry' hold] at hnow
      exact hnow.symm
  · obtain ⟨old, hk', hstands⟩ := h.current k hk
    rcases hmoved hk' with ⟨rfl, rfl, hnew⟩ | ⟨-, hnew⟩
    · exact ⟨_, hnew, hstands⟩
    · exact ⟨old, hnew, hstands⟩
  · intro k version' signal' e' auth' result' hk
    rcases eq_of_getElem?_setStage hn hk with ⟨rfl, hstage, hversion, hsignal⟩ | ⟨-, hold⟩
    · cases hstage
      dsimp only at hversion hsignal
      subst hversion hsignal
      rcases hmoved he with ⟨-, -, hnew⟩ | ⟨hne, -⟩
      · refine ⟨_, hnew, hkey, fun r hr => ?_, fun htrue => ?_⟩
        · exact (hresult r hr).imp_right fun hsettled => ⟨hsettled, haborted⟩
        · rw [haborted] at htrue
          cases htrue
      · exact absurd rfl hne
    · obtain ⟨old, he', hjoined⟩ := h.joined k version' signal' e' auth' result' hold
      rcases hmoved he' with ⟨rfl, rfl, hnew⟩ | ⟨-, hnew⟩
      · exact ⟨_, hnew, hjoined⟩
      · exact ⟨old, hnew, hjoined⟩
  · intro k version' signal' rejection hk
    rcases eq_of_getElem?_setStage hn hk with ⟨-, hstage, -⟩ | ⟨-, hold⟩
    · cases hstage
    · exact h.rejected k version' signal' rejection hold

/-! ## Leaving -/

theorem calls_leave (s : CatalogCache) (n e : ℕ) (auth : CodexCredential) (result : Settlement) :
    (s.leave n e auth result).calls =
      (s.setStage n (.joined e auth (some result))).calls := rfl

theorem Shared.leave (h : Shared sha256 s) {version : JsText}
    (hn : s.calls[n]? = some ⟨version, signal, .joined e auth none⟩)
    (he : s.entries[e]? = some entry)
    (hresult : LeftBy s signal result ∨ entry.settled = some result) :
    Shared sha256 (s.leave n e auth result) := by
  obtain ⟨old, he', hjoined⟩ := h.joined n version signal e auth none hn
  rw [he, Option.some.injEq] at he'
  subst he'
  have haborted : entry.aborted = false := by
    by_contra haborted
    obtain ⟨r, hr, -⟩ := hjoined.2.2 (Bool.eq_true_of_not_eq_false haborted)
    cases hr
  refine h.count (f := (· - 1)) hn he (fun k => ?_) hjoined.1 haborted fun r hr => ?_
  · have hset := countP_setStage (.joined e auth (some result)) hn k
    rw [waitsFor_joined, waitsFor_done] at hset
    simp only [decide_eq_true_eq, Bool.false_eq_true, if_false, Nat.add_zero] at hset
    split <;> rename_i hk
    · rw [if_pos hk] at hset
      omega
    · rwa [if_neg hk] at hset
  · exact Option.some.inj hr ▸ hresult

/-- A call that waits is done, and the last one aborts the load. -/
theorem finish_cases (s : CatalogCache) (n : ℕ) (result : Settlement) :
    s.finish n result = s ∨ ∃ version signal e auth,
      s.calls[n]? = some ⟨version, signal, .joined e auth none⟩ ∧
        (s.finish n result = s.leave n e auth result ∨
          s.finish n result = (s.leave n e auth result).abandon e ∧ ∃ entry,
            (s.leave n e auth result).entries[e]? = some entry ∧ entry.users = 0 ∧
              entry.settled = none) := by
  unfold finish
  split
  · next version signal e auth hn =>
      refine .inr ⟨version, signal, e, auth, hn, ?_⟩
      dsimp only
      split
      · next hlast =>
          cases hentry : (s.leave n e auth result).entries[e]? with
          | none =>
              rw [hentry] at hlast
              cases hlast
          | some entry =>
              rw [hentry, Option.any_some, decide_eq_true_eq] at hlast
              exact .inr ⟨rfl, entry, rfl, hlast⟩
      · exact .inl rfl
  · exact .inl rfl

theorem Shared.finish (h : Shared sha256 s) (n : ℕ) (result : Settlement)
    (hresult : ∀ (version : JsText) (signal e : ℕ) (auth : CodexCredential) (entry : Entry),
      s.calls[n]? = some ⟨version, signal, .joined e auth none⟩ → s.entries[e]? = some entry →
        LeftBy s signal result ∨ entry.settled = some result) :
    Shared sha256 (s.finish n result) := by
  rcases finish_cases s n result with hsame | ⟨version, signal, e, auth, hn, hcases⟩
  · rw [hsame]
    exact h
  · obtain ⟨entry, he, -⟩ := h.joined n version signal e auth none hn
    have hleave := h.leave hn he (hresult version signal e auth entry hn he)
    rcases hcases with hleft | ⟨habandoned, entry', he', husers, hsettled⟩
    · rw [hleft]
      exact hleave
    · rw [habandoned]
      exact hleave.abandon he' husers hsettled

theorem Shared.react (h : Shared sha256 s) (n : ℕ) : Shared sha256 (s.react n) := by
  unfold CatalogCache.react
  split
  · next version signal e auth hn =>
      split
      · next outcome houtcome =>
          refine h.finish n outcome fun version' signal' e' auth' entry hn' he => .inr ?_
          rw [hn] at hn'
          cases hn'
          rw [he] at houtcome
          exact houtcome
      · exact h
  · exact h

/-! ## Joining -/

theorem Shared.enter (h : Shared sha256 s) {version : JsText}
    (hn : s.calls[n]? = some ⟨version, signal, .reading⟩) (he : s.entries[e]? = some entry)
    (hkey : entry.key = keyOf sha256 version auth) (haborted : entry.aborted = false) :
    Shared sha256 ((s.modifyEntry e fun entry => { entry with users := entry.users + 1 }).setStage n
      (.joined e auth none)) := by
  refine h.count (f := (· + 1)) hn he (fun k => ?_) hkey haborted nofun
  have hset := countP_setStage (.joined e auth none) hn k
  rw [waitsFor_joined] at hset
  split <;> simp_all [CatalogCall.waitsFor]

/-- No call has joined an entry that is not there. -/
theorem Shared.countP_eq_zero (h : Shared sha256 s) (he : s.entries[e]? = none) :
    s.calls.countP (·.waitsFor e) = 0 := by
  refine List.countP_eq_zero.mpr fun call hmem hwaits => ?_
  obtain ⟨n, hn⟩ := List.getElem?_of_mem hmem
  obtain ⟨version, signal, stage⟩ := call
  cases stage with
  | reading => cases hwaits
  | rejected rejection => cases hwaits
  | joined e' auth result =>
      cases result with
      | some result => cases hwaits
      | none =>
          rw [waitsFor_joined, decide_eq_true_eq] at hwaits
          subst hwaits
          obtain ⟨entry, hentry, -⟩ := h.joined n version signal e' auth none hn
          rw [he] at hentry
          cases hentry

theorem Shared.addEntry (h : Shared sha256 s) (version : JsText) (auth : CodexCredential) :
    Shared sha256 { s with
      entries := s.entries ++ [⟨version, auth, keyOf sha256 version auth, 0, none, false⟩]
      current := some s.entries.length } := by
  have hcases : ∀ (k : ℕ) (entry : Entry),
      (s.entries ++ [⟨version, auth, keyOf sha256 version auth, 0, none, false⟩])[k]? = some entry →
        s.entries[k]? = some entry ∨ k = s.entries.length ∧
          entry = ⟨version, auth, keyOf sha256 version auth, 0, none, false⟩ := by
    intro k entry hk
    rw [List.getElem?_append] at hk
    split at hk
    · exact .inl hk
    · next hlength =>
        have hk' : k - s.entries.length = 0 := by
          have hlt := (List.getElem?_eq_some_iff.mp hk).1
          simpa using hlt
        rw [hk', List.getElem?_cons_zero, Option.some.injEq] at hk
        exact .inr ⟨by omega, hk.symm⟩
  refine ⟨fun k entry hk => ?_, fun k entry hk => ?_, fun k hk => ?_, ?_, h.rejected⟩
  · rcases hcases k entry hk with hold | ⟨-, rfl⟩
    · exact h.key k entry hold
    · rfl
  · rcases hcases k entry hk with hold | ⟨rfl, rfl⟩
    · exact h.users k entry hold
    · exact (h.countP_eq_zero (List.getElem?_eq_none le_rfl)).symm
  · cases hk
    exact ⟨_, List.getElem?_concat_length, rfl, rfl⟩
  · intro n version' signal e auth' result hn
    obtain ⟨entry, he, hjoined⟩ := h.joined n version' signal e auth' result hn
    refine ⟨entry, ?_, hjoined⟩
    rw [List.getElem?_append_left (List.getElem?_eq_some_iff.mp he).1]
    exact he

/-- The entry a call comes to: the current one, or a new one. -/
theorem entryFor_cases (sha256 : JsText → JsText) (s : CatalogCache) (version : JsText)
    (auth : CodexCredential) :
    (∃ e entry, s.entryFor sha256 version auth = (s, e) ∧ s.current = some e ∧
      s.entries[e]? = some entry ∧ entry.key = keyOf sha256 version auth) ∨
    s.entryFor sha256 version auth =
      ({ s with
          entries := s.entries ++ [⟨version, auth, keyOf sha256 version auth, 0, none, false⟩]
          current := some s.entries.length }, s.entries.length) := by
  unfold entryFor
  dsimp only
  split
  · next e hhit =>
      obtain ⟨hcurrent, hkey⟩ := Option.filter_eq_some_iff.mp hhit
      cases he : s.entries[e]? with
      | none =>
          rw [he] at hkey
          cases hkey
      | some entry =>
          rw [he, Option.any_some, decide_eq_true_eq] at hkey
          exact .inl ⟨e, entry, rfl, hcurrent, he, hkey⟩
  · exact .inr rfl

theorem Shared.join (h : Shared sha256 s) {version : JsText}
    (hn : s.calls[n]? = some ⟨version, signal, .reading⟩) :
    Shared sha256 (s.join sha256 n version auth) := by
  rw [CatalogCache.join]
  rcases entryFor_cases sha256 s version auth with ⟨e, entry, heq, hcurrent, he, hkey⟩ | heq
  · obtain ⟨entry', he', haborted, -⟩ := h.current e hcurrent
    rw [he, Option.some.injEq] at he'
    rw [heq]
    exact h.enter hn he hkey (he' ▸ haborted)
  · rw [heq]
    exact (h.addEntry version auth).enter hn List.getElem?_concat_length rfl rfl

theorem Shared.credentialRead (h : Shared sha256 s) (n : ℕ)
    (outcome : Except String CodexCredential) :
    Shared sha256 (s.credentialRead sha256 n outcome) := by
  unfold CatalogCache.credentialRead
  split
  · next version signal hn =>
      cases outcome with
      | error message => exact h.reject hn (.inl ⟨message, rfl⟩)
      | ok auth =>
          dsimp only
          split
          · next reason hreason => exact h.reject hn (.inr ⟨reason, hreason, rfl⟩)
          · exact h.join hn
  · exact h

/-! ## Signals -/

theorem reason?_addSignal {reason reason' : Option String} {signal' : ℕ}
    (hnone : s.reason? signal = none) (h : s.reason? signal' = some reason') :
    CatalogCache.reason? { s with signals := (signal, reason) :: s.signals } signal' =
      some reason' := by
  have hne : signal' ≠ signal := by
    rintro rfl
    rw [hnone] at h
    cases h
  rw [reason?, List.lookup_cons]
  rw [beq_false_of_ne hne]
  exact h

theorem Shared.addSignal (h : Shared sha256 s) (hnone : s.reason? signal = none)
    (reason : Option String) :
    Shared sha256 { s with signals := (signal, reason) :: s.signals } := by
  have hmono : ∀ {signal' : ℕ} {r : Settlement}, LeftBy s signal' r →
      LeftBy { s with signals := (signal, reason) :: s.signals } signal' r := by
    rintro signal' r ⟨reason', hreason, rfl⟩
    exact ⟨reason', reason?_addSignal hnone hreason, rfl⟩
  refine ⟨h.key, h.users, h.current, ?_, ?_⟩
  · intro n version signal' e auth result hn
    obtain ⟨entry, he, hkey, hresult, haborted⟩ := h.joined n version signal' e auth result hn
    refine ⟨entry, he, hkey, fun r hr => (hresult r hr).imp_left hmono, fun htrue => ?_⟩
    obtain ⟨r, hr, hleft⟩ := haborted htrue
    exact ⟨r, hr, hmono hleft⟩
  · intro n version signal' rejection hn
    rcases h.rejected n version signal' rejection hn with
      hcredential | ⟨reason', hreason, hrejection⟩
    · exact .inl hcredential
    · exact .inr ⟨reason', reason?_addSignal hnone hreason, hrejection⟩

theorem signals_finish (s : CatalogCache) (n : ℕ) (result : Settlement) :
    (s.finish n result).signals = s.signals := by
  rcases finish_cases s n result with hsame | ⟨version, signal, e, auth, -, hleft | ⟨habandoned, -⟩⟩
  · rw [hsame]
  · rw [hleft]
    rfl
  · rw [habandoned]
    rfl

theorem reason?_abortCall (reason : Option String) (s : CatalogCache) (n : ℕ) :
    (abortCall signal reason s n).reason? = s.reason? := by
  rw [abortCall]
  split
  · funext other
    rw [reason?, reason?, signals_finish]
  · rfl

theorem Shared.abortCall (h : Shared sha256 s) {reason : Option String}
    (hreason : s.reason? signal = some reason) (n : ℕ) :
    Shared sha256 (abortCall signal reason s n) := by
  rw [CatalogCache.abortCall]
  split
  · next hsignal =>
      refine h.finish n _ fun version signal' e auth entry hn he => .inl ⟨reason, ?_, rfl⟩
      rw [hn, Option.any_some, decide_eq_true_eq] at hsignal
      obtain rfl : signal' = signal := hsignal
      exact hreason
  · exact h

theorem Shared.abortCalls (h : Shared sha256 s) {reason : Option String}
    (hreason : s.reason? signal = some reason) (ns : List ℕ) :
    Shared sha256 (ns.foldl (CatalogCache.abortCall signal reason) s) := by
  induction ns generalizing s with
  | nil => exact h
  | cons n ns ih =>
      rw [List.foldl_cons]
      exact ih (h.abortCall hreason n) (by rw [reason?_abortCall]; exact hreason)

theorem Shared.abort (h : Shared sha256 s) (signal : ℕ) (reason : Option String) :
    Shared sha256 (s.abort signal reason) := by
  rw [CatalogCache.abort]
  split
  · exact h
  · next hnone =>
      rw [Option.not_isSome_iff_eq_none] at hnone
      refine (h.addSignal hnone reason).abortCalls ?_ _
      rw [reason?, List.lookup_cons_self]

theorem Shared.start (h : Shared sha256 s) (version : JsText) (signal : ℕ) :
    Shared sha256 (s.start version signal) := by
  rw [CatalogCache.start]
  have hadd : ∀ stage : CallStage, (∀ e auth result, stage ≠ .joined e auth result) →
      (∀ rejection, stage = .rejected rejection → Refused s signal rejection) →
        Shared sha256 { s with calls := s.calls ++ [{ version, signal, stage }] } := by
    intro stage hstage hrefused
    have hwaits : ∀ e, CatalogCall.waitsFor e ⟨version, signal, stage⟩ = false := by
      intro e
      cases stage with
      | reading => rfl
      | rejected rejection => rfl
      | joined e' auth result => exact absurd rfl (hstage e' auth result)
    have hcases : ∀ (n : ℕ) (call : CatalogCall),
        (s.calls ++ [⟨version, signal, stage⟩])[n]? = some call →
          s.calls[n]? = some call ∨ call = ⟨version, signal, stage⟩ := by
      intro n call hn
      rw [List.getElem?_append] at hn
      split at hn
      · exact .inl hn
      · exact .inr (List.mem_singleton.mp (List.mem_of_getElem? hn))
    refine ⟨h.key, fun e entry he => ?_, h.current, ?_, ?_⟩
    · rw [h.users e entry he]
      simp [List.countP_append, hwaits]
    · intro n version' signal' e auth result hn
      rcases hcases n _ hn with hold | hnew
      · exact h.joined n version' signal' e auth result hold
      · cases hnew
        exact absurd rfl (hstage e auth result)
    · intro n version' signal' rejection hn
      rcases hcases n _ hn with hold | hnew
      · exact h.rejected n version' signal' rejection hold
      · cases hnew
        exact hrefused rejection rfl
  split
  · next reason hreason =>
      refine hadd _ (fun e auth result hne => by cases hne) fun rejection hrejection => ?_
      cases hrejection
      exact .inr ⟨reason, hreason, rfl⟩
  · exact hadd _ (fun e auth result hne => by cases hne) fun rejection hne => by cases hne

theorem shared_init : Shared sha256 {} where
  key e entry he := by cases he
  users e entry he := by cases he
  current e he := by cases he
  joined n version signal e auth result hn := by cases hn
  rejected n version signal rejection hn := by cases hn

theorem Shared.step (h : Shared sha256 s) (a : Action) : Shared sha256 (s.apply sha256 a) := by
  cases a with
  | call version signal => exact h.start version signal
  | credentialRead n outcome => exact h.credentialRead n outcome
  | loadSettles e outcome => exact h.loadSettles e outcome
  | react n => exact h.react n
  | abort signal reason => exact h.abort signal reason

theorem shared_of_reachable (h : (system sha256).Reachable s) : Shared sha256 s := by
  refine h.invariant ?_ ?_
  · rintro s rfl
    exact shared_init
  · rintro s a t hs ⟨-, rfl⟩
    exact hs.step a

end VicoopBridge.CodexModelCatalogCache
