import VicoopBridge.Verification.OpenclawRouting.Buffers

/-! # What settles a run

A run is settled by the first terminal event of its own run id, by its own timer, by its own
failed abort or by the end of the connection it was sent on. -/

namespace VicoopBridge

open Library

namespace OpenclawGateway

variable {s t : OpenclawGateway}

def ends (runId : String) (event : ChatEvent) : Bool := event.runId = runId ∧ event.state ≠ .delta

/-- The first terminal event of a run id on a connection. -/
def firstTerminal (s : OpenclawGateway) (connection : ℕ) (runId : String) : Option ChatEvent :=
  (s.received connection).find? (ends runId)

/-- What may have settled the run. -/
def Cause (s : OpenclawGateway) (k : ℕ) (run : GatewayRun) (event : FinalizerEvent) : Prop :=
  match event.cause with
  | none => ∃ r, run.runId = some r ∧ s.firstTerminal run.connection r = some event.toChatEvent
  | some .gatewayClosed => run.connection < s.connection ∨ s.ready = false
  | some .timeout => k ∈ s.timedOut
  | some .abortFailed => k ∈ s.abortFailed

structure Settles (s : OpenclawGateway) : Prop where
  connection : ∀ (k : ℕ) (run : GatewayRun), s.runs[k]? = some run → run.connection ≤ s.connection
  live : ∀ k run, s.Active k run →
    run.connection = s.connection ∧ s.ready = true ∨ (s.settled k).isSome
  later : ∀ k, s.runs.length ≤ k → s.settled k = none
  cause : ∀ (k : ℕ) (run : GatewayRun) (event : FinalizerEvent), s.runs[k]? = some run →
    s.settled k = some event → s.Cause k run event
  heard : ∀ (k : ℕ) (run : GatewayRun) (r : String), s.runs[k]? = some run → run.runId = some r →
    (s.firstTerminal run.connection r).isSome → (s.settled k).isSome
  finished : ∀ (k : ℕ) (run : GatewayRun) (r : String), s.runs[k]? = some run →
    run.phase = .returned → run.runId = some r → (s.settled k).isSome

theorem Cause.mono {k : ℕ} {run run' : GatewayRun} {event : FinalizerEvent}
    (h : s.Cause k run event) (hrunId : ∀ r, run.runId = some r → run'.runId = some r)
    (hconnection : run'.connection = run.connection)
    (hterminal : ∀ r e, s.firstTerminal run.connection r = some e →
      t.firstTerminal run.connection r = some e)
    (hclosed : run.connection < s.connection ∨ s.ready = false →
      run.connection < t.connection ∨ t.ready = false)
    (htimedOut : k ∈ s.timedOut → k ∈ t.timedOut)
    (habortFailed : k ∈ s.abortFailed → k ∈ t.abortFailed) : t.Cause k run' event := by
  unfold Cause at h ⊢
  split at h
  · obtain ⟨r, hr, hfirst⟩ := h
    exact ⟨r, hrunId r hr, by rw [hconnection]; exact hterminal r _ hfirst⟩
  · rw [hconnection]
    exact hclosed h
  · exact htimedOut h
  · exact habortFailed h

/-! ## Promises -/

theorem resolveSettled_apply (settled : ℕ → Option FinalizerEvent) (k j : ℕ)
    (event : FinalizerEvent) : resolveSettled settled k event j =
      if j = k then settled k <|> some event else settled j := by
  by_cases h : j = k
  · subst h
    simp [resolveSettled]
  · simp [resolveSettled, h]

theorem isSome_resolveSettled {settled : ℕ → Option FinalizerEvent} {j : ℕ}
    (h : (settled j).isSome) (k : ℕ) (event : FinalizerEvent) :
    (resolveSettled settled k event j).isSome := by
  rw [resolveSettled_apply]
  split
  · simp
  · exact h

/-- A promise keeps what it is resolved with. -/
theorem of_resolveSettled {settled : ℕ → Option FinalizerEvent} {k j : ℕ}
    {event event' : FinalizerEvent} (h : resolveSettled settled k event j = some event') :
    settled j = some event' ∨ j = k ∧ settled k = none ∧ event' = event := by
  rw [resolveSettled_apply] at h
  split at h
  · rename_i heq
    subst heq
    cases hsettled : settled j with
    | none => exact .inr ⟨rfl, rfl, by simpa [hsettled] using h.symm⟩
    | some before => exact .inl (by simpa [hsettled] using h)
  · exact .inl h

theorem foldl_finalizer_apply (buffered : List ChatEvent) (settled : ℕ → Option FinalizerEvent)
    (k j : ℕ) :
    buffered.foldl (fun settled event => finalizer settled k { event with }) settled j =
      if j = k then settled k <|>
        (buffered.find? fun e => e.state ≠ .delta).map fun e => ({ e with } : FinalizerEvent)
      else settled j := by
  induction buffered generalizing settled with
  | nil => by_cases h : j = k <;> simp [h]
  | cons event buffered ih =>
      rw [List.foldl_cons, ih]
      by_cases hdelta : event.state = .delta
      · simp [finalizer, hdelta]
      · have hself : finalizer settled k { event with } k =
            (settled k <|> some ({ event with } : FinalizerEvent)) := by
          rw [finalizer, if_neg hdelta, resolveSettled_apply, if_pos rfl]
        by_cases h : j = k
        · rw [if_pos h, if_pos h, hself, List.find?_cons_of_pos (by simpa using hdelta)]
          cases settled k <;> rfl
        · rw [if_neg h, if_neg h, finalizer, if_neg hdelta, resolveSettled_apply, if_neg h]

/-! ## Steps of one run -/

/-- The runs are as they were, and a promise may be resolved. -/
theorem Settles.resolve (settles : s.Settles) (hruns : t.runs = s.runs)
    (hconnection : t.connection = s.connection) (hready : t.ready = s.ready)
    (hreceived : t.received = s.received) {k : ℕ} {event : FinalizerEvent}
    (hk : k < s.runs.length) (hsettled : t.settled = resolveSettled s.settled k event)
    (htimedOut : ∀ j ∈ s.timedOut, j ∈ t.timedOut)
    (habortFailed : ∀ j ∈ s.abortFailed, j ∈ t.abortFailed)
    (hcause : ∀ run, t.Cause k run event) : t.Settles := by
  have hterminal (c : ℕ) (r : String) : t.firstTerminal c r = s.firstTerminal c r := by
    rw [firstTerminal, hreceived, firstTerminal]
  constructor
  · rw [hruns, hconnection]
    exact settles.connection
  · intro j run hactive
    rw [Active, hruns] at hactive
    rw [hconnection, hready, hsettled]
    exact (settles.live j run hactive).imp_right fun h => isSome_resolveSettled h k event
  · intro j hj
    rw [hruns] at hj
    rw [hsettled, resolveSettled_apply, if_neg (by omega)]
    exact settles.later j hj
  · intro j run event' hj hevent
    rw [hruns] at hj
    rw [hsettled] at hevent
    obtain hbefore | ⟨rfl, -, rfl⟩ := of_resolveSettled hevent
    · refine (settles.cause j run event' hj hbefore).mono (fun _ => id) rfl (fun r e h => ?_) ?_
        (htimedOut j) (habortFailed j)
      · rwa [hterminal]
      · rw [hconnection, hready]
        exact id
    · exact hcause run
  · intro j run r hj hr hfirst
    rw [hruns] at hj
    rw [hterminal] at hfirst
    rw [hsettled]
    exact isSome_resolveSettled (settles.heard j run r hj hr hfirst) k event
  · intro j run r hj hphase hr
    rw [hruns] at hj
    rw [hsettled]
    exact isSome_resolveSettled (settles.finished j run r hj hphase hr) k event

/-- A run without an id is new. -/
theorem Settles.added (settles : s.Settles) {run : GatewayRun}
    (hruns : ∀ (k : ℕ) (run' : GatewayRun), t.runs[k]? = some run' →
      s.runs[k]? = some run' ∨ k = s.runs.length ∧ run' = run)
    (hlength : s.runs.length ≤ t.runs.length) (hconnection : t.connection = s.connection)
    (hready : t.ready = s.ready) (hreceived : t.received = s.received)
    (hsettled : t.settled = s.settled) (htimedOut : t.timedOut = s.timedOut)
    (habortFailed : t.abortFailed = s.abortFailed) (hrunId : run.runId = none)
    (hle : run.connection ≤ s.connection)
    (hlive : run.phase ≠ .returned → run.connection = s.connection ∧ s.ready = true) :
    t.Settles := by
  have hterminal (c : ℕ) (r : String) : t.firstTerminal c r = s.firstTerminal c r := by
    rw [firstTerminal, hreceived, firstTerminal]
  have hnone : s.settled s.runs.length = none := settles.later _ le_rfl
  constructor
  · intro k run' hk
    rw [hconnection]
    obtain hk | ⟨-, rfl⟩ := hruns k run' hk
    · exact settles.connection k run' hk
    · exact hle
  · rintro k run' ⟨hk, hphase⟩
    rw [hconnection, hready, hsettled]
    obtain hk | ⟨-, rfl⟩ := hruns k run' hk
    · exact settles.live k run' ⟨hk, hphase⟩
    · exact .inl (hlive hphase)
  · intro k hk
    rw [hsettled]
    exact settles.later k (hlength.trans hk)
  · intro k run' event hk hevent
    rw [hsettled] at hevent
    obtain hk | ⟨rfl, rfl⟩ := hruns k run' hk
    · refine (settles.cause k run' event hk hevent).mono (fun _ => id) rfl
        (fun r e h => (hterminal _ r).trans h) ?_ ?_ ?_
      · rw [hconnection, hready]
        exact id
      · rw [htimedOut]
        exact id
      · rw [habortFailed]
        exact id
    · exact absurd (hevent.symm.trans hnone) (by simp)
  · intro k run' r hk hr hfirst
    rw [hterminal] at hfirst
    rw [hsettled]
    obtain hk | ⟨-, rfl⟩ := hruns k run' hk
    · exact settles.heard k run' r hk hr hfirst
    · simp [hrunId] at hr
  · intro k run' r hk hphase hr
    rw [hsettled]
    obtain hk | ⟨-, rfl⟩ := hruns k run' hk
    · exact settles.finished k run' r hk hphase hr
    · simp [hrunId] at hr

theorem Settles.addRun (settles : s.Settles) {run : GatewayRun} (hrunId : run.runId = none)
    (hle : run.connection ≤ s.connection)
    (hlive : run.connection = s.connection ∧ s.ready = true) : (s.addRun run).Settles :=
  settles.added (fun _ _ => getElem?_append_run.mp) (by simp [OpenclawGateway.addRun]) rfl rfl rfl
    rfl rfl rfl hrunId hle fun _ => hlive

theorem Settles.addRun_cleanup (settles : s.Settles) {run : GatewayRun} (hrunId : run.runId = none)
    (hle : run.connection ≤ s.connection) :
    ((s.addRun run).cleanup s.runs.length run).Settles := by
  refine @Settles.added s _ settles { run with phase := .returned } (fun k run' hk => ?_)
    (by simp [OpenclawGateway.cleanup, OpenclawGateway.addRun]) rfl rfl rfl rfl rfl rfl hrunId hle
    fun h => absurd rfl h
  obtain ⟨before, hk', rfl⟩ := getElem?_modify_run.mp hk
  obtain hk' | ⟨rfl, rfl⟩ := getElem?_append_run.mp hk'
  · rw [if_neg (lt_length_of_getElem hk').ne']
    exact .inl hk'
  · rw [if_pos rfl]
    exact .inr ⟨rfl, rfl⟩

/-- A run that is not registered any more. -/
theorem Settles.returned (settles : s.Settles) {k : ℕ} {f : GatewayRun → GatewayRun}
    (hruns : t.runs = s.runs.modify k f) (hconnection : t.connection = s.connection)
    (hready : t.ready = s.ready) (hreceived : t.received = s.received)
    (hsettled : t.settled = s.settled) (htimedOut : t.timedOut = s.timedOut)
    (habortFailed : t.abortFailed = s.abortFailed)
    (hf : ∀ run, (f run).connection = run.connection ∧ (f run).runId = run.runId ∧
      (f run).phase = .returned)
    (hfinished : ∀ (run : GatewayRun) (r : String), s.runs[k]? = some run → run.runId = some r →
      (s.settled k).isSome) : t.Settles := by
  have hterminal (c : ℕ) (r : String) : t.firstTerminal c r = s.firstTerminal c r := by
    rw [firstTerminal, hreceived, firstTerminal]
  have hafter {j : ℕ} {run : GatewayRun} (hj : t.runs[j]? = some run) :
      ∃ before, s.runs[j]? = some before ∧ run.connection = before.connection ∧
        run.runId = before.runId ∧ (j = k ∧ run.phase = .returned ∨ run = before) := by
    rw [hruns] at hj
    obtain ⟨before, hj', rfl⟩ := getElem?_modify_run.mp hj
    refine ⟨before, hj', ?_⟩
    by_cases heq : k = j
    · rw [if_pos heq]
      exact ⟨(hf before).1, (hf before).2.1, .inl ⟨heq.symm, (hf before).2.2⟩⟩
    · rw [if_neg heq]
      exact ⟨rfl, rfl, .inr rfl⟩
  constructor
  · intro j run hj
    obtain ⟨before, hj', hsame, -, -⟩ := hafter hj
    rw [hsame, hconnection]
    exact settles.connection j before hj'
  · rintro j run ⟨hj, hphase⟩
    obtain ⟨before, hj', -, -, ⟨-, hreturned⟩ | rfl⟩ := hafter hj
    · exact absurd hreturned hphase
    · rw [hconnection, hready, hsettled]
      exact settles.live j run ⟨hj', hphase⟩
  · intro j hj
    rw [hruns, List.length_modify] at hj
    rw [hsettled]
    exact settles.later j hj
  · intro j run event hj hevent
    obtain ⟨before, hj', hsame, hrunId, -⟩ := hafter hj
    rw [hsettled] at hevent
    refine (settles.cause j before event hj' hevent).mono (fun r hr => hrunId.trans hr) hsame
      (fun r e h => (hterminal _ r).trans h) ?_ ?_ ?_
    · rw [hconnection, hready]
      exact id
    · rw [htimedOut]
      exact id
    · rw [habortFailed]
      exact id
  · intro j run r hj hr hfirst
    obtain ⟨before, hj', hsame, hrunId, -⟩ := hafter hj
    rw [hsame, hterminal] at hfirst
    rw [hsettled]
    exact settles.heard j before r hj' (hrunId.symm.trans hr) hfirst
  · intro j run r hj hphase hr
    rw [hsettled]
    obtain ⟨before, hj', -, hrunId, ⟨rfl, -⟩ | rfl⟩ := hafter hj
    · exact hfinished before r hj' (hrunId.symm.trans hr)
    · exact settles.finished j run r hj' hphase hr

/-- The first terminal event in the buffer is the first one on the connection. -/
theorem firstTerminal_of_buffered (buffers : s.Buffers) (hready : s.ready = true) {r : String}
    (hfresh : s.Fresh r) :
    ((s.pendingRunEvents.get? r).getD []).find? (fun e => e.state ≠ .delta) =
      s.firstTerminal s.connection r := by
  rw [buffers.unknown hready r hfresh, List.find?_filter, firstTerminal]
  congr 1
  funext e
  simp [ends]

theorem Settles.acked (settles : s.Settles) (buffers : s.Buffers) {k : ℕ} {run : GatewayRun}
    (hk : s.Active k run) (hrunId : run.runId = none) (hconnection : run.connection = s.connection)
    {runId : String} (hfresh : s.Fresh runId) : (s.acked k run runId).Settles := by
  set t := s.acked k run runId
  have hsettled (j : ℕ) : t.settled j = if j = k then s.settled k <|>
      ((((s.pendingRunEvents.get? runId).getD []).find? fun e => e.state ≠ .delta).map
        fun e => ({ e with } : FinalizerEvent)) else s.settled j := foldl_finalizer_apply _ _ _ _
  have hmono {j : ℕ} (h : (s.settled j).isSome) : (t.settled j).isSome := by
    rw [hsettled]
    split
    · rename_i heq
      subst heq
      simp [h]
    · exact h
  have hafter {j : ℕ} {run' : GatewayRun} (hj : t.runs[j]? = some run') :
      ∃ before, s.runs[j]? = some before ∧ run'.connection = before.connection ∧
        (j = k ∧ before = run ∧ run'.phase = .settling ∧ run'.runId = some runId ∨
          j ≠ k ∧ run' = before) := by
    obtain ⟨before, hj', rfl⟩ := getElem?_modify_run.mp hj
    by_cases heq : k = j
    · subst heq
      rw [if_pos rfl]
      exact ⟨before, hj', rfl, .inl ⟨rfl, Option.some.inj (hj'.symm.trans hk.1), rfl, rfl⟩⟩
    · rw [if_neg heq]
      exact ⟨before, hj', rfl, .inr ⟨Ne.symm heq, rfl⟩⟩
  constructor
  · intro j run' hj
    obtain ⟨before, hj', hsame, -⟩ := hafter hj
    rw [hsame]
    exact settles.connection j before hj'
  · rintro j run' ⟨hj, hphase⟩
    obtain ⟨before, hj', hsame, ⟨rfl, rfl, -, -⟩ | ⟨-, rfl⟩⟩ := hafter hj
    · rw [hsame]
      exact (settles.live j before hk).imp_right hmono
    · exact (settles.live j run' ⟨hj', hphase⟩).imp_right hmono
  · intro j hj
    have hlength : s.runs.length ≤ j := by simpa [t, OpenclawGateway.acked] using hj
    have hne : j ≠ k := by
      rintro rfl
      exact absurd (lt_length_of_getElem hk.1) (Nat.not_lt.mpr hlength)
    rw [hsettled, if_neg hne]
    exact settles.later j hlength
  · intro j run' event hj hevent
    obtain ⟨before, hj', hsame, hcase⟩ := hafter hj
    have hkeep (hbefore : s.settled j = some event) : t.Cause j run' event := by
      refine (settles.cause j before event hj' hbefore).mono (fun r hr => ?_) hsame
        (fun _ _ h => h) id id id
      obtain ⟨-, rfl, -, -⟩ | ⟨-, rfl⟩ := hcase
      · simp [hrunId] at hr
      · exact hr
    rw [hsettled] at hevent
    obtain ⟨rfl, rfl, -, hr⟩ | ⟨hne, -⟩ := hcase
    · rw [if_pos rfl] at hevent
      cases hbefore : s.settled j with
      | some event' =>
          rw [hbefore] at hevent
          exact hkeep (hbefore.trans hevent)
      | none =>
          -- The run is not settled, so its connection is open.
          have hready := ((settles.live j before hk).resolve_right (by simp [hbefore])).2
          rw [hbefore, firstTerminal_of_buffered buffers hready hfresh] at hevent
          have hfirst : (s.firstTerminal s.connection runId).map
            (fun e => ({ e with } : FinalizerEvent)) = some event := hevent
          obtain ⟨e, he, rfl⟩ := Option.map_eq_some_iff.mp hfirst
          exact ⟨runId, hr, by rw [hsame, hconnection]; exact he⟩
    · rw [if_neg hne] at hevent
      exact hkeep hevent
  · intro j run' r hj hr hfirst
    obtain ⟨before, hj', hsame, ⟨rfl, rfl, -, hr'⟩ | ⟨-, rfl⟩⟩ := hafter hj
    · obtain rfl := Option.some.inj (hr.symm.trans hr')
      cases hbefore : s.settled j with
      | some event => exact hmono (by simp [hbefore])
      | none =>
          have hready := ((settles.live j before hk).resolve_right (by simp [hbefore])).2
          have hfirst' : (s.firstTerminal s.connection r).isSome := by
            rw [hsame, hconnection] at hfirst
            exact hfirst
          rw [hsettled, if_pos rfl, hbefore, firstTerminal_of_buffered buffers hready hfresh]
          simpa using hfirst'
    · exact hmono (settles.heard j run' r hj' hr hfirst)
  · intro j run' r hj hphase hr
    obtain ⟨before, hj', -, ⟨-, -, hsettling, -⟩ | ⟨-, rfl⟩⟩ := hafter hj
    · simp [hsettling] at hphase
    · exact hmono (settles.finished j run' r hj' hphase hr)

/-! ## Steps of the connection -/

/-- An event came, and a promise may be resolved. -/
theorem Settles.received (settles : s.Settles) {p : ChatEvent} (hruns : t.runs = s.runs)
    (hconnection : t.connection = s.connection) (hready : t.ready = s.ready)
    (hreceived : t.received =
      Function.update s.received s.connection (s.received s.connection ++ [p]))
    (htimedOut : t.timedOut = s.timedOut) (habortFailed : t.abortFailed = s.abortFailed)
    (hsettled : ∀ j event, s.settled j = some event → t.settled j = some event)
    (hnew : ∀ (j : ℕ) (run : GatewayRun) (event : FinalizerEvent), s.runs[j]? = some run →
      s.settled j = none → t.settled j = some event → event = { p with } ∧
        run.runId = some p.runId ∧ run.connection = s.connection ∧ p.state ≠ .delta)
    (hheard : ∀ (j : ℕ) (run : GatewayRun), s.runs[j]? = some run → run.runId = some p.runId →
      p.state ≠ .delta → (t.settled j).isSome)
    (hlater : ∀ j, s.runs.length ≤ j → t.settled j = none) : t.Settles := by
  have hreceived' (c : ℕ) : t.received c = s.received c ++ if c = s.connection then [p] else [] := by
    rw [hreceived]
    by_cases h : c = s.connection
    · subst h
      simp
    · simp [h]
  have hterminal {c : ℕ} {r : String} {e : ChatEvent} (h : s.firstTerminal c r = some e) :
      t.firstTerminal c r = some e := by
    rw [firstTerminal] at h
    rw [firstTerminal, hreceived', List.find?_append, h, Option.some_or]
  have hmono {j : ℕ} (h : (s.settled j).isSome) : (t.settled j).isSome := by
    obtain ⟨event, hevent⟩ := Option.isSome_iff_exists.mp h
    simp [hsettled j event hevent]
  constructor
  · rw [hruns, hconnection]
    exact settles.connection
  · intro j run hactive
    rw [Active, hruns] at hactive
    rw [hconnection, hready]
    exact (settles.live j run hactive).imp_right hmono
  · rw [hruns]
    exact hlater
  · intro j run event hj hevent
    rw [hruns] at hj
    cases hbefore : s.settled j with
    | some event' =>
        obtain rfl := Option.some.inj ((hsettled j event' hbefore).symm.trans hevent)
        refine (settles.cause j run event' hj hbefore).mono (fun _ => id) rfl
          (fun _ _ h => hterminal h) ?_ ?_ ?_
        · rw [hconnection, hready]
          exact id
        · rw [htimedOut]
          exact id
        · rw [habortFailed]
          exact id
    | none =>
        obtain ⟨rfl, hr, hconn, hstate⟩ := hnew j run event hj hbefore hevent
        refine ⟨p.runId, hr, ?_⟩
        have hnone : s.firstTerminal run.connection p.runId = none := by
          rw [← Option.not_isSome_iff_eq_none]
          intro hsome
          simpa [hbefore] using settles.heard j run p.runId hj hr hsome
        rw [firstTerminal] at hnone
        rw [firstTerminal, hreceived', List.find?_append, hnone, Option.none_or, if_pos hconn]
        simp [ends, hstate]
  · intro j run r hj hr hfirst
    rw [hruns] at hj
    cases hbefore : s.firstTerminal run.connection r with
    | some e => exact hmono (settles.heard j run r hj hr (by simp [hbefore]))
    | none =>
        rw [firstTerminal] at hbefore
        rw [firstTerminal, hreceived', List.find?_append, hbefore, Option.none_or] at hfirst
        split at hfirst
        · obtain ⟨e, he⟩ := Option.isSome_iff_exists.mp hfirst
          obtain rfl : e = p := List.mem_singleton.mp (List.mem_of_find?_eq_some he)
          have hends := List.find?_some he
          simp only [ends, decide_eq_true_eq] at hends
          exact hheard j run hj (hends.1 ▸ hr) hends.2
        · simp at hfirst
  · intro j run r hj hphase hr
    rw [hruns] at hj
    exact hmono (settles.finished j run r hj hphase hr)

theorem Settles.onChatEvent (settles : s.Settles) (tables : s.Tables) (ids : s.Ids)
    (p : ChatEvent) : (s.onChatEvent p).Settles := by
  by_cases hne : p.runId = ""
  · rw [OpenclawGateway.onChatEvent, if_pos hne]
    exact settles
  -- No promise changes unless the event is routed to its run.
  have hkept {t : OpenclawGateway} (hruns : t.runs = s.runs)
      (hconnection : t.connection = s.connection) (hready : t.ready = s.ready)
      (hreceived : t.received =
        Function.update s.received s.connection (s.received s.connection ++ [p]))
      (htimedOut : t.timedOut = s.timedOut) (habortFailed : t.abortFailed = s.abortFailed)
      (hsettled : t.settled = s.settled) (hbinding : s.runToTask.get? p.runId = none) :
      t.Settles := by
    refine settles.received hruns hconnection hready hreceived htimedOut habortFailed
      (fun j event h => hsettled ▸ h) (fun j run event hj hnone hevent => ?_)
      (fun j run hj hr _ => ?_) fun j hj => hsettled ▸ settles.later j hj
    · rw [hsettled, hnone] at hevent
      cases hevent
    · rw [hsettled]
      by_cases hphase : run.phase = .returned
      · exact settles.finished j run _ hj hphase hr
      · have hsome := (tables.bindings p.runId _).mpr ⟨j, run, ⟨hj, hphase⟩, hr, rfl⟩
        simp [hbinding] at hsome
  obtain ⟨binding, hbinding, heq⟩ | ⟨hbinding, -, heq⟩ | ⟨hbinding, -, heq⟩ := onChatEvent_cases hne
  · obtain ⟨k, run, hactive, hr, hb⟩ := (tables.bindings p.runId binding).mp hbinding
    have hfinalizer : s.taskFinalizers.get? binding.taskId = some k :=
      (tables.finalizers binding.taskId k).mpr ⟨run, hactive, by rw [hb]⟩
    rw [heq, hfinalizer]
    by_cases hdelta : p.state = .delta
    · refine settles.received rfl rfl rfl rfl rfl rfl ?_ ?_ ?_ ?_
      all_goals simp only [finalizer, hdelta, if_true]
      · exact fun _ _ h => h
      · intro j run' event _ hnone hevent
        simp [hnone] at hevent
      · exact fun _ _ _ _ h => absurd rfl h
      · exact settles.later
    · have hself : finalizer s.settled k { p with } = resolveSettled s.settled k { p with } :=
        if_neg hdelta
      refine settles.received rfl rfl rfl rfl rfl rfl ?_ ?_ ?_ ?_
      all_goals simp only [hself]
      · intro j event h
        rw [resolveSettled_apply]
        split
        · rename_i hjk
          subst hjk
          simp [h]
        · exact h
      · intro j run' event hj hnone hevent
        obtain hbefore | ⟨rfl, -, rfl⟩ := of_resolveSettled hevent
        · rw [hnone] at hbefore
          cases hbefore
        · obtain rfl := Option.some.inj (hj.symm.trans hactive.1)
          refine ⟨rfl, hr, ?_, hdelta⟩
          exact ((settles.live j run' hactive).resolve_right (by simp [hnone])).1
      · intro j run' hj hr' _
        have hjk := ids.distinct j k run' run p.runId hj hactive.1 (ids.known j run' _ hj hr').1
          (ids.known k run _ hactive.1 hr).1
        rw [resolveSettled_apply, if_pos hjk]
        simp
      · intro j hj
        have hjk : j ≠ k := by
          rintro rfl
          exact absurd (lt_length_of_getElem hactive.1) (Nat.not_lt.mpr hj)
        rw [resolveSettled_apply, if_neg hjk]
        exact settles.later j hj
  · rw [heq]
    exact hkept rfl rfl rfl rfl rfl rfl rfl hbinding
  · rw [heq]
    exact hkept rfl rfl rfl rfl rfl rfl rfl hbinding

theorem Settles.close (settles : s.Settles) (tables : s.Tables) (message : String) :
    (s.handleGatewayClose message).Settles := by
  set t := s.handleGatewayClose message
  have hregistered (j : ℕ) : j ∈ s.taskFinalizers.values ↔ ∃ run, s.Active j run := by
    rw [InsertionMap.mem_values_iff]
    constructor
    · rintro ⟨taskId, h⟩
      obtain ⟨run, hactive, -⟩ := (tables.finalizers taskId j).mp h
      exact ⟨run, hactive⟩
    · rintro ⟨run, hactive⟩
      exact ⟨run.taskId, (tables.finalizers run.taskId j).mpr ⟨run, hactive, rfl⟩⟩
  have hsettled (j : ℕ) : t.settled j = if j ∈ s.taskFinalizers.values then
      s.settled j <|> some (gatewayClosedEvent message) else s.settled j := by
    simp only [t, handleGatewayClose]
    split
    · rw [finalizer, if_neg (by simp [gatewayClosedEvent]), resolveSettled_apply, if_pos rfl]
    · rfl
  have hmono {j : ℕ} (h : (s.settled j).isSome) : (t.settled j).isSome := by
    rw [hsettled]
    split
    · simp
    · exact h
  constructor
  · exact settles.connection
  · intro j run hactive
    refine .inr ?_
    rw [hsettled, if_pos ((hregistered j).mpr ⟨run, hactive⟩)]
    simp
  · intro j hj
    have hne : j ∉ s.taskFinalizers.values := by
      rw [hregistered]
      rintro ⟨run, hactive⟩
      exact absurd (lt_length_of_getElem hactive.1) (Nat.not_lt.mpr hj)
    rw [hsettled, if_neg hne]
    exact settles.later j hj
  · intro j run event hj hevent
    have hkeep (hbefore : s.settled j = some event) : t.Cause j run event :=
      (settles.cause j run event hj hbefore).mono (fun _ => id) rfl (fun _ _ h => h)
        (fun _ => .inr rfl) id id
    rw [hsettled] at hevent
    split at hevent
    · cases hbefore : s.settled j with
      | some event' =>
          rw [hbefore] at hevent
          exact hkeep (hbefore.trans hevent)
      | none =>
          rw [hbefore] at hevent
          obtain rfl : gatewayClosedEvent message = event := Option.some.inj hevent
          exact .inr rfl
    · exact hkeep hevent
  · exact fun j run r hj hr hfirst => hmono (settles.heard j run r hj hr hfirst)
  · exact fun j run r hj hphase hr => hmono (settles.finished j run r hj hphase hr)

theorem Settles.connect (settles : s.Settles) (hready : s.ready = false) :
    { s with connection := s.connection + 1, ready := true }.Settles where
  connection k run hk := Nat.le_succ_of_le (settles.connection k run hk)
  live k run hactive := .inr ((settles.live k run hactive).resolve_left (by simp [hready]))
  later := settles.later
  cause k run event hk hevent :=
    (settles.cause k run event hk hevent).mono (fun _ => id) rfl (fun _ _ h => h)
      (fun _ => .inl (Nat.lt_succ_of_le (settles.connection k run hk))) id id
  heard := settles.heard
  finished := settles.finished

end OpenclawGateway

end VicoopBridge
