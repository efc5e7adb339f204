import VicoopBridge.Verification.CodexModelCatalogCache

/-! # Shared loads of the Codex catalog

What each step does to a load and to its calls. No call ever comes to a load that was aborted or
failed. -/

namespace VicoopBridge.CodexModelCatalogCache

open Library CatalogCache
open Library.JsonText (Value)

variable {sha256 : JsText → JsText} {s t : CatalogCache} {n e signal : ℕ} {call : CatalogCall}
  {entry : Entry} {auth : CodexCredential} {result : Settlement}

/-! ## Steps -/

/-- What a step leaves of the entries and of the calls that have joined one. -/
structure Keeps (s t : CatalogCache) : Prop where
  entry : ∀ (e : ℕ) (entry : Entry), s.entries[e]? = some entry → ∃ entry',
    t.entries[e]? = some entry' ∧ (∀ r, entry.settled = some r → entry'.settled = some r) ∧
      (entry.aborted = true → entry'.aborted = true)
  joined : ∀ (n : ℕ) (version : JsText) (signal e : ℕ) (auth : CodexCredential)
    (result : Option Settlement), t.calls[n]? = some ⟨version, signal, .joined e auth result⟩ →
      ∃ result', s.calls[n]? = some ⟨version, signal, .joined e auth result'⟩

theorem Keeps.refl (s : CatalogCache) : Keeps s s where
  entry _ entry he := ⟨entry, he, fun _ hr => hr, id⟩
  joined _ _ _ _ _ result hn := ⟨result, hn⟩

theorem Keeps.trans {u : CatalogCache} (h : Keeps s t) (h' : Keeps t u) : Keeps s u where
  entry e entry he := by
    obtain ⟨entry', he', hsettled, haborted⟩ := h.entry e entry he
    obtain ⟨entry'', he'', hsettled', haborted'⟩ := h'.entry e entry' he'
    exact ⟨entry'', he'', fun r hr => hsettled' r (hsettled r hr),
      fun ha => haborted' (haborted ha)⟩
  joined n version signal e auth result hn := by
    obtain ⟨result', hn'⟩ := h'.joined n version signal e auth result hn
    exact h.joined n version signal e auth result' hn'

/-- An entry changes, and no call joins. -/
theorem Keeps.modifyEntry {f : Entry → Entry}
    (hsettled : ∀ entry r, s.entries[e]? = some entry → entry.settled = some r →
      (f entry).settled = some r)
    (haborted : ∀ entry, entry.aborted = true → (f entry).aborted = true) :
    Keeps s (s.modifyEntry e f) where
  entry k entry hk := by
    rw [getElem?_modifyEntry]
    split
    · next hek =>
        rw [hk, Option.map_some]
        exact ⟨f entry, rfl, fun r hr => hsettled entry r (hek ▸ hk) hr, haborted entry⟩
    · exact ⟨entry, hk, fun _ hr => hr, id⟩
  joined _ _ _ _ _ result hn := ⟨result, hn⟩

/-- The stage of a call changes to one that has joined no other entry. -/
theorem Keeps.setStage {stage : CallStage} (hn : s.calls[n]? = some call)
    (hstage : ∀ e auth result, stage = .joined e auth result →
      ∃ result', call.stage = .joined e auth result') : Keeps s (s.setStage n stage) where
  entry _ entry he := ⟨entry, he, fun _ hr => hr, id⟩
  joined k version signal e auth result hk := by
    rcases eq_of_getElem?_setStage hn hk with ⟨rfl, hjoined, hversion, hsignal⟩ | ⟨-, hold⟩
    · obtain ⟨result', hcall⟩ := hstage e auth result hjoined.symm
      refine ⟨result', ?_⟩
      rw [hn, ← hversion, ← hsignal, ← hcall]
    · exact ⟨result, hold⟩

theorem keeps_leave {version : JsText}
    (hn : s.calls[n]? = some ⟨version, signal, .joined e auth none⟩) :
    Keeps s (s.leave n e auth result) := by
  have hstage : Keeps s (s.setStage n (.joined e auth (some result))) := by
    refine .setStage hn fun e' auth' result' heq => ?_
    cases heq
    exact ⟨none, rfl⟩
  exact hstage.trans (.modifyEntry (fun _ _ _ hr => hr) fun _ ha => ha)

theorem keeps_abandon (s : CatalogCache) (e : ℕ) : Keeps s (s.abandon e) := by
  have hdrop : Keeps s (s.drop e) :=
    ⟨fun _ entry he => ⟨entry, he, fun _ hr => hr, id⟩, fun _ _ _ _ _ result hn => ⟨result, hn⟩⟩
  exact hdrop.trans (.modifyEntry (fun _ _ _ hr => hr) fun _ _ => rfl)

theorem keeps_finish (s : CatalogCache) (n : ℕ) (result : Settlement) :
    Keeps s (s.finish n result) := by
  rcases finish_cases s n result with
    hsame | ⟨version, signal, e, auth, hn, hleft | ⟨habandoned, -⟩⟩
  · rw [hsame]
    exact .refl s
  · rw [hleft]
    exact keeps_leave hn
  · rw [habandoned]
    exact (keeps_leave hn).trans (keeps_abandon _ e)

theorem keeps_abortCalls {reason : Option String} (ns : List ℕ) (s : CatalogCache) :
    Keeps s (ns.foldl (abortCall signal reason) s) := by
  induction ns generalizing s with
  | nil => exact .refl s
  | cons n ns ih =>
      have hcall : Keeps s (abortCall signal reason s n) := by
        rw [abortCall]
        split
        · exact keeps_finish s n _
        · exact .refl s
      exact hcall.trans (ih _)

theorem keeps_loadSettles (s : CatalogCache) (e : ℕ) (outcome : Except String (Option String)) :
    Keeps s (s.loadSettles e outcome) := by
  unfold loadSettles
  split
  · next entry he =>
      split
      · exact .refl s
      · next hsettled =>
          rw [Option.not_isSome_iff_eq_none] at hsettled
          have hnew : ∀ settlement : Settlement, Keeps s
              (s.modifyEntry e fun entry => { entry with settled := some settlement }) := by
            intro settlement
            refine .modifyEntry (fun entry' r he' hr => ?_) fun _ ha => ha
            rw [he, Option.some.injEq] at he'
            rw [← he', hsettled] at hr
            cases hr
          cases outcome with
          | ok value => exact hnew _
          | error message =>
              exact (hnew _).trans ⟨fun _ entry he => ⟨entry, he, fun _ hr => hr, id⟩,
                fun _ _ _ _ _ result hn => ⟨result, hn⟩⟩
  · exact .refl s

/-- The load of the entry has failed or was aborted. -/
def Dead (s : CatalogCache) (e : ℕ) : Prop :=
  ∃ entry, s.entries[e]? = some entry ∧ (entry.failed = true ∨ entry.aborted = true)

theorem Dead.keeps (h : Dead s e) (hkeeps : Keeps s t) : Dead t e := by
  obtain ⟨entry, he, hdead⟩ := h
  obtain ⟨entry', he', hsettled, haborted⟩ := hkeeps.entry e entry he
  refine ⟨entry', he', hdead.imp (fun hfailed => ?_) haborted⟩
  unfold Entry.failed at hfailed
  split at hfailed
  · next rejection hr => rw [Entry.failed, hsettled _ hr]
  · cases hfailed

/-- The calls of a dead entry are those it had. -/
def Closed (s t : CatalogCache) (e : ℕ) : Prop :=
  Dead t e ∧ ∀ (n : ℕ) (version : JsText) (signal : ℕ) (auth : CodexCredential)
    (result : Option Settlement), t.calls[n]? = some ⟨version, signal, .joined e auth result⟩ →
      ∃ result', s.calls[n]? = some ⟨version, signal, .joined e auth result'⟩

theorem Keeps.closed (h : Keeps s t) (hdead : Dead s e) : Closed s t e :=
  ⟨hdead.keeps h, fun n version signal auth result hn =>
    h.joined n version signal e auth result hn⟩

theorem Closed.trans {u : CatalogCache} (h : Closed s t e) (h' : Closed t u e) : Closed s u e := by
  refine ⟨h'.1, fun n version signal auth result hn => ?_⟩
  obtain ⟨result', hn'⟩ := h'.2 n version signal auth result hn
  exact h.2 n version signal auth result' hn'

theorem Shared.current_not_dead (h : Shared sha256 s) (hcurrent : s.current = some e) :
    ¬ Dead s e := by
  rintro ⟨entry, he, hdead⟩
  obtain ⟨entry', he', haborted, hfailed⟩ := h.current e hcurrent
  rw [he, Option.some.injEq] at he'
  subst he'
  rcases hdead with hdead | hdead
  · rw [hfailed] at hdead
    cases hdead
  · rw [haborted] at hdead
    cases hdead

/-- A call enters an entry that is not dead. -/
theorem closed_enter {u : CatalogCache} {e' : ℕ} (hdead : Dead s e) (hne : e' ≠ e)
    (hkeeps : Keeps s u) (hn : u.calls[n]? = some call) :
    Closed s ((u.modifyEntry e' fun entry => { entry with users := entry.users + 1 }).setStage n
      (.joined e' auth none)) e := by
  have hmodify : Keeps u (u.modifyEntry e' fun entry => { entry with users := entry.users + 1 }) :=
    .modifyEntry (fun _ _ _ hr => hr) fun _ ha => ha
  have hstill : Dead (u.modifyEntry e' fun entry => { entry with users := entry.users + 1 }) e :=
    (hdead.keeps hkeeps).keeps hmodify
  refine ⟨hstill, fun k version signal auth' result hk => ?_⟩
  rcases eq_of_getElem?_setStage hn hk with ⟨-, hstage, -⟩ | ⟨-, hold⟩
  · cases hstage
    exact absurd rfl hne
  · exact hkeeps.joined k version signal e auth' result hold

theorem Shared.closed_join (h : Shared sha256 s) (hdead : Dead s e) {version : JsText}
    (hn : s.calls[n]? = some call) : Closed s (s.join sha256 n version auth) e := by
  rw [CatalogCache.join]
  rcases entryFor_cases sha256 s version auth with ⟨e', entry, heq, hcurrent, -, -⟩ | heq
  · rw [heq]
    refine closed_enter hdead ?_ (.refl s) hn
    rintro rfl
    exact h.current_not_dead hcurrent hdead
  · rw [heq]
    refine closed_enter hdead ?_ ⟨fun k old hk => ⟨old, ?_, fun _ hr => hr, id⟩,
      fun _ _ _ _ _ result hk => ⟨result, hk⟩⟩ hn
    · rintro rfl
      obtain ⟨old, hold, -⟩ := hdead
      rw [List.getElem?_eq_none le_rfl] at hold
      cases hold
    · dsimp only
      rw [List.getElem?_append_left (List.getElem?_eq_some_iff.mp hk).1]
      exact hk

theorem keeps_start (s : CatalogCache) (version : JsText) (signal : ℕ) :
    Keeps s (s.start version signal) := by
  refine ⟨fun _ entry he => ⟨entry, he, fun _ hr => hr, id⟩,
    fun n version' signal' e auth result hn => ?_⟩
  rw [start] at hn
  dsimp only at hn
  rw [List.getElem?_append] at hn
  split at hn
  · exact ⟨result, hn⟩
  · have hnew := List.mem_singleton.mp (List.mem_of_getElem? hn)
    rw [CatalogCall.mk.injEq] at hnew
    split at hnew <;> cases hnew.2.2

theorem Shared.closed_step (h : Shared sha256 s) (hdead : Dead s e) (a : Action) :
    Closed s (s.apply sha256 a) e := by
  cases a with
  | call version signal => exact (keeps_start s version signal).closed hdead
  | loadSettles e' outcome => exact (keeps_loadSettles s e' outcome).closed hdead
  | react n =>
      rw [CatalogCache.apply]
      unfold CatalogCache.react
      split
      · split
        · exact (keeps_finish s n _).closed hdead
        · exact (Keeps.refl s).closed hdead
      · exact (Keeps.refl s).closed hdead
  | abort signal reason =>
      rw [CatalogCache.apply, CatalogCache.abort]
      split
      · exact (Keeps.refl s).closed hdead
      · have hsignal : Keeps s { s with signals := (signal, reason) :: s.signals } :=
          ⟨fun _ entry he => ⟨entry, he, fun _ hr => hr, id⟩,
            fun _ _ _ _ _ result hn => ⟨result, hn⟩⟩
        exact (hsignal.trans (keeps_abortCalls _ _)).closed hdead
  | credentialRead n outcome =>
      rw [CatalogCache.apply]
      unfold CatalogCache.credentialRead
      split
      · next version signal hn =>
          cases outcome with
          | error message =>
              exact (Keeps.setStage hn fun _ _ _ heq => by cases heq).closed hdead
          | ok auth =>
              dsimp only
              split
              · exact (Keeps.setStage hn fun _ _ _ heq => by cases heq).closed hdead
              · exact h.closed_join hdead hn
      · exact (Keeps.refl s).closed hdead

/-- No call comes to a dead entry, however long the run. -/
theorem closed_run {actions : List Action} (h : Shared sha256 s) (hdead : Dead s e)
    (hrun : (system sha256).Run s actions t) : Closed s t e := by
  have hboth : Shared sha256 t ∧ Closed s t e := by
    refine hrun.invariant (I := fun u => Shared sha256 u ∧ Closed s u e) ?_
      ⟨h, (Keeps.refl s).closed hdead⟩
    rintro u a v ⟨hshared, hclosed⟩ ⟨-, rfl⟩
    exact ⟨hshared.step a, hclosed.trans (hshared.closed_step hclosed.1 a)⟩
  exact hboth.2

/-! ## Aborts -/

/-- Loads keep their state, and one that is newly aborted was still running. -/
def AbortsRunning (s t : CatalogCache) : Prop :=
  ∀ (e : ℕ) (entry' : Entry), t.entries[e]? = some entry' → ∃ entry, s.entries[e]? = some entry ∧
    entry'.settled = entry.settled ∧
      (entry'.aborted = true → entry.aborted = true ∨ entry.settled = none)

theorem AbortsRunning.refl (s : CatalogCache) : AbortsRunning s s :=
  fun _ entry he => ⟨entry, he, rfl, .inl⟩

theorem AbortsRunning.trans {u : CatalogCache} (h : AbortsRunning s t) (h' : AbortsRunning t u) :
    AbortsRunning s u := by
  intro e entry'' he''
  obtain ⟨entry', he', hsettled', haborted'⟩ := h' e entry'' he''
  obtain ⟨entry, he, hsettled, haborted⟩ := h e entry' he'
  refine ⟨entry, he, hsettled'.trans hsettled, fun ha => ?_⟩
  rcases haborted' ha with hold | hnone
  · exact haborted hold
  · exact .inr (hsettled ▸ hnone)

theorem abortsRunning_leave (s : CatalogCache) (n e : ℕ) (auth : CodexCredential)
    (result : Settlement) : AbortsRunning s (s.leave n e auth result) := by
  intro k entry' hk
  rw [leave, getElem?_modifyEntry] at hk
  split at hk
  · obtain ⟨entry, he, rfl⟩ := Option.map_eq_some_iff.mp hk
    exact ⟨entry, he, rfl, .inl⟩
  · exact ⟨entry', hk, rfl, .inl⟩

theorem abortsRunning_abandon (he : s.entries[e]? = some entry) (hsettled : entry.settled = none) :
    AbortsRunning s (s.abandon e) := by
  intro k entry' hk
  rw [abandon, getElem?_modifyEntry] at hk
  split at hk
  · next hek =>
      obtain ⟨old, hold, rfl⟩ := Option.map_eq_some_iff.mp hk
      have hold' : old = entry := by
        subst hek
        exact Option.some.inj (hold.symm.trans he)
      subst hold'
      exact ⟨old, hold, rfl, fun _ => .inr hsettled⟩
  · exact ⟨entry', hk, rfl, .inl⟩

theorem abortsRunning_finish (s : CatalogCache) (n : ℕ) (result : Settlement) :
    AbortsRunning s (s.finish n result) := by
  rcases finish_cases s n result with
    hsame | ⟨version, signal, e, auth, -, hleft | ⟨habandoned, hlast⟩⟩
  · rw [hsame]
    exact .refl s
  · rw [hleft]
    exact abortsRunning_leave s n e auth result
  · obtain ⟨entry, he, -, hsettled⟩ := hlast
    rw [habandoned]
    exact (abortsRunning_leave s n e auth result).trans (abortsRunning_abandon he hsettled)

theorem abortsRunning_abortCalls {reason : Option String} (ns : List ℕ) (s : CatalogCache) :
    AbortsRunning s (ns.foldl (abortCall signal reason) s) := by
  induction ns generalizing s with
  | nil => exact .refl s
  | cons n ns ih =>
      have hcall : AbortsRunning s (abortCall signal reason s n) := by
        rw [abortCall]
        split
        · exact abortsRunning_finish s n _
        · exact .refl s
      exact hcall.trans (ih _)

theorem aborted_of_join {version : JsText} {entry' : Entry}
    (he' : (s.join sha256 n version auth).entries[e]? = some entry')
    (haborted : entry'.aborted = true) :
    ∃ entry, s.entries[e]? = some entry ∧ entry.aborted = true := by
  have hentered : ∀ (u : CatalogCache) (k : ℕ),
      (u.modifyEntry k fun entry => { entry with users := entry.users + 1 }).entries[e]? =
        some entry' → ∃ entry, u.entries[e]? = some entry ∧ entry.aborted = true := by
    intro u k hentry
    rw [getElem?_modifyEntry] at hentry
    split at hentry
    · obtain ⟨entry, hold, rfl⟩ := Option.map_eq_some_iff.mp hentry
      exact ⟨entry, hold, haborted⟩
    · exact ⟨entry', hentry, haborted⟩
  rw [CatalogCache.join] at he'
  rcases entryFor_cases sha256 s version auth with ⟨k, old, heq, -⟩ | heq
  · rw [heq] at he'
    exact hentered s k he'
  · rw [heq] at he'
    obtain ⟨entry, hentry, htrue⟩ := hentered _ _ he'
    dsimp only at hentry
    rw [List.getElem?_append] at hentry
    split at hentry
    · exact ⟨entry, hentry, htrue⟩
    · rw [List.mem_singleton.mp (List.mem_of_getElem? hentry)] at htrue
      cases htrue

/-- Only a running load is aborted. -/
theorem settled_of_newly_aborted (s : CatalogCache) (a : Action) {entry' : Entry}
    (he' : (s.apply sha256 a).entries[e]? = some entry') (haborted : entry'.aborted = true) :
    (∃ entry, s.entries[e]? = some entry ∧ entry.aborted = true) ∨ entry'.settled = none := by
  have hrunning : AbortsRunning s (s.apply sha256 a) →
      (∃ entry, s.entries[e]? = some entry ∧ entry.aborted = true) ∨ entry'.settled = none := by
    intro h
    obtain ⟨entry, he, hsettled, hcases⟩ := h e entry' he'
    rcases hcases haborted with hold | hnone
    · exact .inl ⟨entry, he, hold⟩
    · exact .inr (hsettled.trans hnone)
  cases a with
  | call version signal => exact .inl ⟨entry', he', haborted⟩
  | react n =>
      refine hrunning ?_
      rw [CatalogCache.apply]
      unfold CatalogCache.react
      split
      · split
        · exact abortsRunning_finish s n _
        · exact .refl s
      · exact .refl s
  | abort signal reason =>
      refine hrunning ?_
      rw [CatalogCache.apply, CatalogCache.abort]
      split
      · exact .refl s
      · exact abortsRunning_abortCalls _ _
  | loadSettles k outcome =>
      refine .inl ?_
      have hmodify : ∀ settlement : Settlement,
          (s.modifyEntry k fun entry => { entry with settled := some settlement }).entries[e]? =
            some entry' → ∃ entry, s.entries[e]? = some entry ∧ entry.aborted = true := by
        intro settlement hentry
        rw [getElem?_modifyEntry] at hentry
        split at hentry
        · obtain ⟨entry, hold, rfl⟩ := Option.map_eq_some_iff.mp hentry
          exact ⟨entry, hold, haborted⟩
        · exact ⟨entry', hentry, haborted⟩
      rw [CatalogCache.apply] at he'
      unfold CatalogCache.loadSettles at he'
      split at he'
      · split at he'
        · exact ⟨entry', he', haborted⟩
        · cases outcome with
          | ok value => exact hmodify _ he'
          | error message => exact hmodify _ he'
      · exact ⟨entry', he', haborted⟩
  | credentialRead n outcome =>
      refine .inl ?_
      rw [CatalogCache.apply] at he'
      unfold CatalogCache.credentialRead at he'
      split at he'
      · cases outcome with
        | error message => exact ⟨entry', he', haborted⟩
        | ok auth =>
            dsimp only at he'
            split at he'
            · exact ⟨entry', he', haborted⟩
            · exact aborted_of_join he' haborted
      · exact ⟨entry', he', haborted⟩

/-! ## Calls that settle -/

theorem getElem?_finish_of_ne (result : Settlement) {k : ℕ} (hne : n ≠ k) :
    (s.finish n result).calls[k]? = s.calls[k]? := by
  have hleave : ∀ e auth, (s.leave n e auth result).calls[k]? = s.calls[k]? := by
    intro e auth
    rw [calls_leave, getElem?_setStage, if_neg hne]
  rcases finish_cases s n result with hsame | ⟨version, signal, e, auth, -, hleft | ⟨habandoned, -⟩⟩
  · rw [hsame]
  · rw [hleft, hleave]
  · rw [habandoned]
    exact hleave e auth

theorem getElem?_finish {version : JsText}
    (hn : s.calls[n]? = some ⟨version, signal, .joined e auth none⟩) (result : Settlement) :
    (s.finish n result).calls[n]? = some ⟨version, signal, .joined e auth (some result)⟩ := by
  unfold finish
  rw [hn]
  have hleave : (s.leave n e auth result).calls[n]? =
      some ⟨version, signal, .joined e auth (some result)⟩ := by
    rw [calls_leave, getElem?_setStage, if_pos rfl, hn]
    rfl
  dsimp only
  split <;> exact hleave

/-- Nothing happens to a call that does not wait. -/
theorem getElem?_finish_of_done {version : JsText} {settled : Settlement}
    (hn : s.calls[n]? = some ⟨version, signal, .joined e auth (some settled)⟩)
    (result : Settlement) (k : ℕ) :
    (s.finish k result).calls[n]? = some ⟨version, signal, .joined e auth (some settled)⟩ := by
  by_cases hk : k = n
  · subst hk
    unfold finish
    rw [hn]
    exact hn
  · rw [getElem?_finish_of_ne result hk, hn]

theorem getElem?_abortCall_of_ne (reason : Option String)
    (hn : ∀ call, s.calls[n]? = some call → call.signal ≠ signal) (k : ℕ) :
    (abortCall signal reason s k).calls[n]? = s.calls[n]? := by
  rw [abortCall]
  split
  · next hsignal =>
      refine getElem?_finish_of_ne _ ?_
      rintro rfl
      cases hk : s.calls[k]? with
      | none =>
          rw [hk] at hsignal
          cases hsignal
      | some call =>
          rw [hk, Option.any_some, decide_eq_true_eq] at hsignal
          exact hn call hk hsignal
  · rfl

theorem getElem?_abortCalls_of_ne (reason : Option String)
    (hn : ∀ call, s.calls[n]? = some call → call.signal ≠ signal) (ns : List ℕ) :
    (ns.foldl (abortCall signal reason) s).calls[n]? = s.calls[n]? := by
  induction ns generalizing s with
  | nil => rfl
  | cons k ns ih =>
      have hkeep := getElem?_abortCall_of_ne reason hn k
      rw [List.foldl_cons, ih (by rw [hkeep]; exact hn), hkeep]

/-- The abort of a signal changes no call of another signal. -/
theorem getElem?_abort_of_ne {reason : Option String}
    (hn : ∀ call, s.calls[n]? = some call → call.signal ≠ signal) :
    (s.abort signal reason).calls[n]? = s.calls[n]? := by
  rw [CatalogCache.abort]
  split
  · rfl
  · exact getElem?_abortCalls_of_ne (s := { s with signals := (signal, reason) :: s.signals })
      reason hn _

theorem getElem?_abortCalls_of_done {version : JsText} {settled : Settlement} {signal' : ℕ}
    {reason : Option String} (ns : List ℕ)
    (hn : s.calls[n]? = some ⟨version, signal', .joined e auth (some settled)⟩) :
    (ns.foldl (abortCall signal reason) s).calls[n]? =
      some ⟨version, signal', .joined e auth (some settled)⟩ := by
  induction ns generalizing s with
  | nil => exact hn
  | cons k ns ih =>
      rw [List.foldl_cons]
      refine ih ?_
      rw [abortCall]
      split
      · exact getElem?_finish_of_done hn _ k
      · exact hn

theorem getElem?_abortCalls {version : JsText} {reason : Option String} {ns : List ℕ}
    (hmem : n ∈ ns) (hn : s.calls[n]? = some ⟨version, signal, .joined e auth none⟩) :
    (ns.foldl (abortCall signal reason) s).calls[n]? =
      some ⟨version, signal, .joined e auth (some (.error (abortRejection reason)))⟩ := by
  induction ns generalizing s with
  | nil => exact absurd hmem List.not_mem_nil
  | cons k ns ih =>
      rw [List.foldl_cons]
      by_cases hk : k = n
      · subst hk
        refine getElem?_abortCalls_of_done ns ?_
        rw [abortCall, if_pos (by simp [hn])]
        exact getElem?_finish hn _
      · have hrest : n ∈ ns := (List.mem_cons.mp hmem).resolve_left (Ne.symm hk)
        refine ih hrest ?_
        rw [abortCall]
        split
        · rw [getElem?_finish_of_ne _ hk, hn]
        · exact hn

/-- A call that waits is rejected as its signal aborts. -/
theorem getElem?_abort {version : JsText} (hnone : s.reason? signal = none)
    (hn : s.calls[n]? = some ⟨version, signal, .joined e auth none⟩) (reason : Option String) :
    (s.abort signal reason).calls[n]? =
      some ⟨version, signal, .joined e auth (some (.error (abortRejection reason)))⟩ := by
  rw [CatalogCache.abort, if_neg (by rw [hnone]; exact Bool.false_ne_true)]
  exact getElem?_abortCalls (List.mem_range.mpr (List.getElem?_eq_some_iff.mp hn).1) hn

/-- A call that waits gets the outcome of its load. -/
theorem getElem?_react {version : JsText}
    (hn : s.calls[n]? = some ⟨version, signal, .joined e auth none⟩)
    (he : s.entries[e]? = some entry) (hsettled : entry.settled = some result) :
    (s.react n).calls[n]? = some ⟨version, signal, .joined e auth (some result)⟩ := by
  unfold CatalogCache.react
  rw [hn]
  dsimp only
  rw [he, Option.bind_some, hsettled]
  exact getElem?_finish hn result

/-! ## Whose load it is -/

theorem numberless_identity (version : JsText) (auth : CodexCredential) :
    (identity version auth).numberless = true := by
  rw [identity]
  split <;> rfl

theorem identity_inj {version version' : JsText} {auth auth' : CodexCredential}
    (h : identity version auth = identity version' auth') : version = version' ∧ auth = auth' := by
  obtain ⟨kind, secret, accountId⟩ := auth
  obtain ⟨kind', secret', accountId'⟩ := auth'
  simp only [identity, Value.array.injEq, List.cons.injEq, Value.string.injEq, and_true] at h
  obtain ⟨hversion, hkind, haccount, hsecret⟩ := h
  have hkinds : kind = kind' := by
    cases kind <;> cases kind' <;> first | rfl | exact absurd hkind (by decide)
  have haccounts : accountId = accountId' := by
    cases accountId <;> cases accountId' <;> simp_all
  rw [hversion, hkinds, haccounts, hsecret]
  exact ⟨rfl, rfl⟩

/-- What is hashed for a call that has joined an entry. -/
def hashed? (call : CatalogCall) : Option JsText :=
  match call.stage with
  | .joined _ auth _ => some (JsonText.compact (identity call.version auth))
  | _ => none

/-- The hash tells apart the texts that were hashed. -/
def NoCollision (sha256 : JsText → JsText) (s : CatalogCache) : Prop :=
  ∀ call ∈ s.calls, ∀ text ∈ hashed? call, ∀ entry ∈ s.entries,
    sha256 text = sha256 (JsonText.compact (identity entry.version entry.auth)) →
      text = JsonText.compact (identity entry.version entry.auth)

/-- The call was ended by its signal. -/
def AbortedBySignal (s : CatalogCache) (call : CatalogCall) (result : Settlement) : Prop :=
  ∃ reason, s.reason? call.signal = some reason ∧
    (result = .error (.reason reason) ∨ reason = none ∧ result = .error .catalogRequestAborted)

/-- The result is the outcome of a load for the call's version and login. -/
def FromOwnLoad (s : CatalogCache) (call : CatalogCall) (result : Settlement) : Prop :=
  ∃ (e : ℕ) (auth : CodexCredential) (entry : Entry),
    call.stage = .joined e auth (some result) ∧ s.entries[e]? = some entry ∧
      entry.version = call.version ∧ entry.auth = auth ∧ entry.settled = some result ∧
        entry.aborted = false

/-- Reading the login has failed. -/
def UnreadableLogin (call : CatalogCall) (result : Settlement) : Prop :=
  ∃ message, call.stage = .rejected (.credential message) ∧
    result = .error (.credential message)

theorem LeftBy.abortedBySignal (h : LeftBy s call.signal result) :
    AbortedBySignal s call result := by
  obtain ⟨reason, hreason, rfl⟩ := h
  refine ⟨reason, hreason, ?_⟩
  cases reason with
  | none => exact .inr ⟨rfl, rfl⟩
  | some value => exact .inl rfl

theorem Shared.settled (h : Shared sha256 s) (hcollision : NoCollision sha256 s)
    (hn : s.calls[n]? = some call) (hresult : call.result = some result) :
    AbortedBySignal s call result ∨ UnreadableLogin call result ∨ FromOwnLoad s call result := by
  obtain ⟨version, signal, stage⟩ := call
  cases stage with
  | reading => cases hresult
  | rejected rejection =>
      cases hresult
      rcases h.rejected n version signal rejection hn with ⟨message, rfl⟩ | ⟨reason, hreason, rfl⟩
      · exact .inr (.inl ⟨message, rfl, rfl⟩)
      · exact .inl ⟨reason, hreason, .inl rfl⟩
  | joined e auth joinedResult =>
      obtain rfl : joinedResult = some result := hresult
      obtain ⟨entry, he, hkey, hcases, -⟩ := h.joined n version signal e auth _ hn
      rcases hcases result rfl with hleft | ⟨hsettled, haborted⟩
      · exact .inl (LeftBy.abortedBySignal hleft)
      · have htexts := hcollision _ (List.mem_of_getElem? hn) _ rfl entry
          (List.mem_of_getElem? he) (hkey.symm.trans (h.key e entry he))
        have hidentity := JsonText.compact_inj (numberless_identity _ _) (numberless_identity _ _)
          htexts
        obtain ⟨hversion, hauth⟩ := identity_inj hidentity
        exact .inr (.inr ⟨e, auth, entry, rfl, he, hversion.symm, hauth.symm, hsettled, haborted⟩)

/-- Every call of the entry was ended by its own signal. -/
def AllLeft (s : CatalogCache) (e : ℕ) : Prop :=
  ∀ (n : ℕ) (call : CatalogCall) (auth : CodexCredential) (result : Option Settlement),
    s.calls[n]? = some call → call.stage = .joined e auth result →
      ∃ r, result = some r ∧ AbortedBySignal s call r

theorem Shared.allLeft (h : Shared sha256 s) (he : s.entries[e]? = some entry)
    (haborted : entry.aborted = true) : AllLeft s e := by
  rintro n ⟨version, signal, stage⟩ auth result hn rfl
  obtain ⟨entry', he', -, -, hleft⟩ := h.joined n version signal e auth result hn
  rw [he, Option.some.injEq] at he'
  obtain ⟨r, hr, hleft⟩ := hleft (he' ▸ haborted)
  exact ⟨r, hr, LeftBy.abortedBySignal hleft⟩

/-- The calls that wait will settle: their load runs on or has an outcome for them, and the abort of
their signal ends them. -/
def Progress (s : CatalogCache) : Prop :=
  ∀ (n : ℕ) (version : JsText) (signal e : ℕ) (auth : CodexCredential),
    s.calls[n]? = some ⟨version, signal, .joined e auth none⟩ → ∃ entry,
      s.entries[e]? = some entry ∧ entry.aborted = false ∧
      (∀ result, entry.settled = some result →
        (s.react n).calls[n]? = some ⟨version, signal, .joined e auth (some result)⟩) ∧
      ∀ reason, s.reason? signal = none → (s.abort signal reason).calls[n]? =
        some ⟨version, signal, .joined e auth (some (.error (abortRejection reason)))⟩

theorem Shared.progress (h : Shared sha256 s) : Progress s := by
  intro n version signal e auth hn
  obtain ⟨entry, he, -, -, hleft⟩ := h.joined n version signal e auth none hn
  refine ⟨entry, he, ?_, fun result hsettled => getElem?_react hn he hsettled,
    fun reason hnone => getElem?_abort hnone hn reason⟩
  by_contra haborted
  obtain ⟨r, hr, -⟩ := hleft (Bool.eq_true_of_not_eq_false haborted)
  cases hr

/-- A call settles with its own abort, with the failure to read its login or with the outcome of a
load for its version and login. A load is aborted while it runs and when all its calls have left,
the abort of one signal changes no call of another, and no call comes to a load that has failed or
was aborted. -/
theorem shares_loads_safely (hreachable : (system sha256).Reachable s)
    (hcollision : NoCollision sha256 s) :
    (∀ (n : ℕ) (call : CatalogCall) (result : Settlement), s.calls[n]? = some call →
      call.result = some result →
        AbortedBySignal s call result ∨ UnreadableLogin call result ∨ FromOwnLoad s call result) ∧
    Progress s ∧
    (∀ (a : Action) (e : ℕ) (entry' : Entry), (s.apply sha256 a).entries[e]? = some entry' →
      entry'.aborted = true → AllLeft (s.apply sha256 a) e ∧
        ((∃ entry, s.entries[e]? = some entry ∧ entry.aborted = true) ∨ entry'.settled = none)) ∧
    (∀ (signal : ℕ) (reason : Option String) (n : ℕ),
      (∀ call, s.calls[n]? = some call → call.signal ≠ signal) →
        (s.abort signal reason).calls[n]? = s.calls[n]?) ∧
    ∀ (t : CatalogCache) (actions : List Action) (e : ℕ), Dead s e →
      (system sha256).Run s actions t → Closed s t e := by
  have h := shared_of_reachable hreachable
  exact ⟨fun n call result hn hresult => h.settled hcollision hn hresult, h.progress,
    fun a e entry' he' haborted =>
      ⟨(h.step a).allLeft he' haborted, settled_of_newly_aborted s a he' haborted⟩,
    fun signal reason n hn => getElem?_abort_of_ne hn,
    fun t actions e hdead hrun => closed_run h hdead hrun⟩

/-- Two calls share a load. The first one leaves and the second one gets the catalog. -/
def sharedLoad : List Action :=
  let auth : CodexCredential := ⟨.oauth, [115], some [97]⟩
  [.call [49] 0, .call [49] 1, .credentialRead 0 (.ok auth), .credentialRead 1 (.ok auth),
    .abort 0 none, .loadSettles 0 (.ok (some "models")), .react 1]

theorem shares_loads_safely_example :
    FromOwnLoad (sharedLoad.foldl (apply id) {})
      ⟨[49], 1, .joined 0 ⟨.oauth, [115], some [97]⟩ (some (.ok (some "models")))⟩
      (.ok (some "models")) := by
  have hreachable : (system id).Reachable (sharedLoad.foldl (apply id) {}) :=
    System.Legal.reachable (by decide) (.of_init rfl)
  rcases (shares_loads_safely hreachable fun _ _ _ _ _ _ h => h).1 1
      ⟨[49], 1, .joined 0 ⟨.oauth, [115], some [97]⟩ (some (.ok (some "models")))⟩ _
      (by decide +kernel) rfl with ⟨reason, hreason, -⟩ | ⟨message, hstage, -⟩ | hload
  · have hnone : (sharedLoad.foldl (apply id) {}).reason? 1 = none := by decide +kernel
    cases hnone.symm.trans hreason
  · cases hstage
  · exact hload

/-- A call whose login cannot be read settles with neither. -/
theorem unreadable_login_rejects : ¬ ∀ s : CatalogCache, (system id).Reachable s →
    NoCollision id s → ∀ (n : ℕ) (call : CatalogCall) (result : Settlement),
      s.calls[n]? = some call → call.result = some result →
        AbortedBySignal s call result ∨ FromOwnLoad s call result := by
  intro h
  have hreachable : (system id).Reachable
      ([.call [49] 0, .credentialRead 0 (.error "expired")].foldl (apply id) {}) :=
    System.Legal.reachable (by decide) (.of_init rfl)
  rcases h _ hreachable (fun _ _ _ _ _ _ hsame => hsame) 0
      ⟨[49], 0, .rejected (.credential "expired")⟩ _ rfl rfl with
    ⟨reason, hreason, -⟩ | ⟨e, auth, entry, hstage, -⟩
  · cases hreason
  · cases hstage

end VicoopBridge.CodexModelCatalogCache
