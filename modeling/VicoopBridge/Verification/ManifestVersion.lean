import VicoopBridge.Model.CallerRuntimeStore

/-! # The version in the manifest

Writes of the manifest follow each other, each takes the version wanted when its turn comes, and
a call goes on behind its own write. So the version on disk only grows, and is there before the
rows that need it, as long as the store is not opened over a write that is under way: the version
wanted then goes back to the one on disk, which that write may still pass. -/

namespace VicoopBridge.RuntimeStore

open Library

/-- The version that rows of the request need. -/
def Request.version : Request → ℕ
  | .reserve _ _ principalId _ => if isFederated principalId then 7 else 0
  | .reserveContext _ _ _ => 8
  | .recordFixedStorage _ _ => 5
  | .setPreparation _ _ _ => 6
  | .setPrincipalPreparation principalId _ => if isFederated (some principalId) then 7 else 6
  | .recordStorageHelper _ _ | .clearStorageHelper _ | .forget _ _ => 0

/-- The version a step has waited for. -/
def Step.version : Step → ℕ
  | .reserve _ _ principalId _ => if isFederated principalId then 7 else 0
  | .insertContext _ _ _ => 8
  | .insertFixedStorage _ _ => 5
  | .preparePrincipal principalId _ => if isFederated (some principalId) then 7 else 0
  | .insertPreparation _ _ _ => 6
  | .forget _ _ | .removeBackup _ => 0

/-- The version a step will wait for. -/
def Step.later : Step → ℕ
  | .preparePrincipal _ _ => 6
  | _ => 0

/-- What the rows of the database need. -/
def Database.Requires (db : Database) (version : ℕ) : Prop :=
  version = 7 ∧ (∃ record ∈ db.scopes, isFederated record.principalId = true) ∨
  version = 5 ∧ db.fixedStorage ≠ [] ∨ version = 6 ∧ db.preparations ≠ [] ∨
  version = 8 ∧ db.callerContexts ≠ []

namespace CallerRuntimeStore

variable {env : StoreEnv} {s s' : CallerRuntimeStore}

def disk (s : CallerRuntimeStore) : ℕ := s.manifest.getD 0

/-! ## The calls -/

/-- Up to the first await of a call. -/
inductive StartCase (s : CallerRuntimeStore) (request : Request) : Outcome → Prop where
  | fails : StartCase s request (s, .done false)
  | helpers (rows : List (JsText × JsText)) (plain : request.version = 0) :
      StartCase s request ({ s with db.storageHelpers := rows }, .done true)
  | waits {next : Step} (version : next.version = 0) (later : request.version ≤ next.later) :
      StartCase s request (s, .awaiting none next)
  | writes {version : ℕ} {next : Step} (opened : s.opened = true) (covers : next.version ≤ version)
      (later : request.version ≤ max next.version next.later) :
      StartCase s request (s.awaitManifest version next)

theorem startCase_markFederated {request : Request} {principalId : Option JsText} {next : Step}
    (hversion : next.version = if isFederated principalId then 7 else 0)
    (hlater : request.version ≤ max next.version next.later) :
    StartCase s request (s.markFederated principalId next) := by
  rw [markFederated]
  split
  · next hplain =>
      have hzero : next.version = 0 := by
        rw [hversion, if_neg (by simpa using hplain)]
      exact .waits hzero (by omega)
  · next hfederated =>
      split
      · exact .fails
      · next hopened =>
          refine .writes (by simpa using hopened) ?_ hlater
          rw [hversion]
          split <;> omega

theorem startCase_writePreparation {request : Request} {id version : JsText} {ready : Bool}
    (hrequest : request.version ≤ 6) :
    StartCase s request (s.writePreparation id version ready) := by
  rw [writePreparation]
  split
  · exact .fails
  · split
    · exact .fails
    · next hopened => exact .writes (by simpa using hopened) le_rfl (hrequest.trans (le_max_left _ _))

theorem startCase (env : StoreEnv) (s : CallerRuntimeStore) (request : Request) :
    StartCase s request (s.start env request) := by
  cases request with
  | reserve id kind principalId requirePreflight =>
      simp only [start]
      repeat' split
      · exact .fails
      · exact .fails
      · exact .fails
      · exact startCase_markFederated rfl (le_max_left _ _)
  | reserveContext id context limit =>
      simp only [start]
      split
      · exact .fails
      · next hopened =>
          split
          · exact .fails
          · have hstored : s.opened = true ∧ s.db.stored env id = true := by simpa using hopened
            exact .writes hstored.1 le_rfl (le_max_left _ _)
  | recordFixedStorage id record =>
      simp only [start]
      split
      · exact .fails
      · next hopened =>
          have hstored : s.opened = true ∧ s.db.stored env id = true := by simpa using hopened
          exact .writes hstored.1 le_rfl (le_max_left _ _)
  | setPreparation id version ready =>
      simp only [start]
      split
      · exact .fails
      · exact startCase_writePreparation le_rfl
  | setPrincipalPreparation principalId version =>
      simp only [start]
      split
      · exact .fails
      · refine startCase_markFederated rfl ?_
        simp only [Request.version, Step.version, Step.later]
        split <;> omega
  | recordStorageHelper id record =>
      simp only [start]
      split
      · exact .fails
      · exact .helpers _ rfl
  | clearStorageHelper id =>
      simp only [start]
      split
      · exact .fails
      · exact .helpers _ rfl
  | forget id preservePreparation =>
      simp only [start]
      repeat' split
      · exact .fails
      · exact .fails
      · exact .waits rfl le_rfl

/-- Behind an await. -/
inductive GoOnCase (s : CallerRuntimeStore) (next : Step) : Outcome → Prop where
  | fails : GoOnCase s next (s, .done false)
  | keeps : GoOnCase s next (s, .done true)
  | commits {db : Database} (later : next.later = 0)
      (rows : ∀ version, db.Requires version → s.db.Requires version ∨ version = next.version) :
      GoOnCase s next ({ s with db }, .done true)
  | forgets (id : JsText) (preservePreparation : Bool) (later : next.later = 0) :
      GoOnCase s next ({ s with db := s.db.forget id preservePreparation },
        .awaiting none (.removeBackup id))
  | writes (opened : s.opened = true) (id version : JsText) (ready : Bool)
      (later : next.later = 6) :
      GoOnCase s next (s.awaitManifest 6 (.insertPreparation id version ready))

theorem requires_reserve {db db' : Database} {id kind : JsText} {principalId : Option JsText}
    {requirePreflight : Bool}
    (h : db.reserve env id kind principalId requirePreflight = some db') (version : ℕ)
    (hrequires : db'.Requires version) :
    db.Requires version ∨ version = if isFederated principalId then 7 else 0 := by
  rw [Database.reserve] at h
  split at h
  · split at h
    · cases h
    · split at h
      · cases h
      · split at h
        · split at h
          · cases h
          · obtain rfl := Option.some.inj h
            obtain ⟨rfl, record, hmem, hfederated⟩ | hrest := hrequires
            · obtain ⟨row, hrow, rfl⟩ := List.mem_map.mp hmem
              split at hfederated
              · exact .inr (if_pos hfederated).symm
              · exact .inl (.inl ⟨rfl, row, hrow, hfederated⟩)
            · exact .inl (.inr hrest)
        · obtain rfl := Option.some.inj h
          exact .inl hrequires
  · simp only at h
    split at h
    · cases h
    · split at h
      · cases h
      · obtain rfl := Option.some.inj h
        obtain ⟨rfl, record, hmem, hfederated⟩ | hrest := hrequires
        · rcases List.mem_append.mp hmem with hmem | hmem
          · exact .inl (.inl ⟨rfl, record, hmem, hfederated⟩)
          · obtain rfl := List.mem_singleton.mp hmem
            exact .inr (if_pos hfederated).symm
        · exact .inl (.inr hrest)

theorem requires_forget {db : Database} {id : JsText} {preservePreparation : Bool} {version : ℕ}
    (h : (db.forget id preservePreparation).Requires version) : db.Requires version := by
  obtain ⟨rfl, record, hmem, hfederated⟩ | ⟨rfl, hne⟩ | ⟨rfl, hne⟩ | ⟨rfl, hne⟩ := h
  · exact .inl ⟨rfl, record, (List.mem_filter.mp hmem).1, hfederated⟩
  · exact .inr (.inl ⟨rfl, fun hnil => hne (by simp [Database.forget, hnil])⟩)
  · exact .inr (.inr (.inl ⟨rfl, fun hnil => hne (by simp [Database.forget, hnil])⟩))
  · exact .inr (.inr (.inr ⟨rfl, fun hnil => hne (by simp [Database.forget, hnil])⟩))

theorem goOnCase (env : StoreEnv) (s : CallerRuntimeStore) (dbFails : Bool) (next : Step) :
    GoOnCase s next (s.goOn env dbFails next) := by
  cases next with
  | reserve id kind principalId requirePreflight =>
      simp only [goOn]
      split
      · exact .fails
      · split
        · next db hdb => exact .commits rfl fun version => requires_reserve hdb version
        · exact .fails
  | insertContext id context limit =>
      simp only [goOn]
      repeat' split
      · exact .fails
      · exact .keeps
      · exact .fails
      · refine .commits rfl fun version hrequires => ?_
        obtain hscopes | hfixed | hprepared | ⟨rfl, -⟩ := hrequires
        · exact .inl (.inl hscopes)
        · exact .inl (.inr (.inl hfixed))
        · exact .inl (.inr (.inr (.inl hprepared)))
        · exact .inr rfl
  | insertFixedStorage id record =>
      simp only [goOn]
      split
      · exact .fails
      · refine .commits rfl fun version hrequires => ?_
        obtain hscopes | ⟨rfl, -⟩ | hrest := hrequires
        · exact .inl (.inl hscopes)
        · exact .inr rfl
        · exact .inl (.inr (.inr hrest))
  | preparePrincipal principalId version =>
      simp only [goOn, writePreparation]
      split
      · exact .fails
      · split
        · exact .fails
        · next hopened => exact .writes (by simpa using hopened) _ _ _ rfl
  | insertPreparation id version ready =>
      simp only [goOn]
      split
      · exact .fails
      · refine .commits rfl fun version hrequires => ?_
        obtain hscopes | hfixed | ⟨rfl, -⟩ | hcontexts := hrequires
        · exact .inl (.inl hscopes)
        · exact .inl (.inr (.inl hfixed))
        · exact .inr rfl
        · exact .inl (.inr (.inr (.inr hcontexts)))
  | forget id preservePreparation =>
      simp only [goOn]
      split
      · exact .fails
      · exact .forgets id preservePreparation rfl
  | removeBackup id =>
      simp only [goOn]
      split
      · exact .fails
      · exact .keeps

/-! ## What is on its way to the disk -/

/-- A write at this stage brings the version, or has brought it. -/
def Carries (s : CallerRuntimeStore) (version : ℕ) : WriteStage → Prop
  | .queued => version ≤ s.manifestVersion
  | .writing taken | .renamed taken => version ≤ taken
  | .settled ok => ok = true → version ≤ s.disk

/-- The version is on disk when the await for the write is over. -/
def Covered (s : CallerRuntimeStore) (write : Option ℕ) (version : ℕ) : Prop :=
  version ≤ s.disk ∨ ∃ (i : ℕ) (stage : WriteStage), write = some i ∧ s.writes[i]? = some stage ∧
    s.Carries version stage

/-- A call that waits will find the version it needs, or asks for it next. -/
def Standing (s : CallerRuntimeStore) (call : Call) : Prop :=
  ∀ write next, call.stage = .awaiting write next → s.Covered write next.version ∧
    (call.request.version ≤ next.version ∨ call.request.version ≤ s.disk ∨
      call.request.version ≤ next.later)

structure Forward (s : CallerRuntimeStore) : Prop where
  opened : s.opened = true → s.manifest.isSome
  version : s.disk ≤ s.manifestVersion
  writing : ∀ (i taken : ℕ), s.writes[i]? = some (WriteStage.writing taken) →
    s.disk ≤ taken ∧ taken ≤ s.manifestVersion
  renamed : ∀ (i taken : ℕ), s.writes[i]? = some (WriteStage.renamed taken) → taken ≤ s.disk
  serial : ∀ (i j : ℕ) (stage later : WriteStage), i < j → s.writes[j]? = some later →
    later ≠ .queued → s.writes[i]? = some stage → isSettled stage = true
  calls : ∀ call ∈ s.calls, s.Standing call
  rows : ∀ version, s.db.Requires version → version ≤ s.disk

theorem forward_empty : Forward {} where
  opened h := by cases h
  version := Nat.zero_le _
  writing i taken h := by cases h
  renamed i taken h := by cases h
  serial i j stage later _ h := by cases h
  calls call h := by cases h
  rows version h := by simp [Database.Requires] at h

/-- Nothing on its way is lost. -/
structure Onward (s s' : CallerRuntimeStore) : Prop where
  disk : s.disk ≤ s'.disk
  writes : ∀ (i : ℕ) (stage : WriteStage) (version : ℕ), s.writes[i]? = some stage →
    s.Carries version stage → ∃ stage', s'.writes[i]? = some stage' ∧ s'.Carries version stage'

theorem Onward.covered (h : Onward s s') {write : Option ℕ} {version : ℕ}
    (hcovered : s.Covered write version) : s'.Covered write version := by
  obtain hdisk | ⟨i, stage, hwrite, hstage, hcarries⟩ := hcovered
  · exact .inl (hdisk.trans h.disk)
  · obtain ⟨stage', hstage', hcarries'⟩ := h.writes i stage version hstage hcarries
    exact .inr ⟨i, stage', hwrite, hstage', hcarries'⟩

theorem Onward.standing (h : Onward s s') {call : Call} (hstanding : s.Standing call) :
    s'.Standing call := by
  intro write next hstage
  obtain ⟨hcovered, hversion⟩ := hstanding write next hstage
  exact ⟨h.covered hcovered, hversion.imp id (Or.imp (·.trans h.disk) id)⟩

theorem Carries.of_le {version : ℕ} {stage : WriteStage} (h : s.Carries version stage)
    (hdisk : s.disk ≤ s'.disk) (hversion : s.manifestVersion ≤ s'.manifestVersion) :
    s'.Carries version stage := by
  cases stage with
  | queued => exact le_trans h hversion
  | writing taken => exact h
  | renamed taken => exact h
  | settled ok => exact fun hok => (h hok).trans hdisk

theorem onward_of_writes (hdisk : s.disk ≤ s'.disk)
    (hversion : s.manifestVersion ≤ s'.manifestVersion) (hwrites : s'.writes = s.writes) :
    Onward s s' :=
  ⟨hdisk, fun i stage version hstage hcarries =>
    ⟨stage, by rw [hwrites]; exact hstage, hcarries.of_le hdisk hversion⟩⟩

theorem onward_advanceManifest (s : CallerRuntimeStore) (version : ℕ) :
    Onward s (s.advanceManifest version) := by
  refine ⟨le_rfl, fun i stage _ hstage hcarries => ⟨stage, ?_, ?_⟩⟩
  · exact (List.getElem?_append_left (List.getElem?_eq_some_iff.mp hstage).1).trans hstage
  · exact hcarries.of_le le_rfl (le_max_right _ _)

/-- One more write in the queue. -/
theorem Forward.advanceManifest (h : Forward s) (version : ℕ) :
    Forward (s.advanceManifest version) := by
  have hold : ∀ (i : ℕ) (stage : WriteStage), (s.writes ++ [WriteStage.queued])[i]? = some stage →
      stage = .queued ∨ s.writes[i]? = some stage := by
    intro i stage hstage
    rw [List.getElem?_append] at hstage
    split at hstage
    · exact .inr hstage
    · rw [List.getElem?_singleton] at hstage
      split at hstage
      · exact .inl (Option.some.inj hstage).symm
      · cases hstage
  refine ⟨h.opened, h.version.trans (le_max_right _ _), fun i taken hstage => ?_,
    fun i taken hstage => ?_, fun i j stage later hlt hlater hne hstage => ?_,
    fun call hmem => (onward_advanceManifest s version).standing (h.calls call hmem), h.rows⟩
  · obtain hqueued | hstage := hold i _ hstage
    · cases hqueued
    · obtain ⟨hdisk, hle⟩ := h.writing i taken hstage
      exact ⟨hdisk, hle.trans (le_max_right _ _)⟩
  · obtain hqueued | hstage := hold i _ hstage
    · cases hqueued
    · exact h.renamed i taken hstage
  · have hlater' := (hold j later hlater).resolve_left hne
    have hstage' : s.writes[i]? = some stage := by
      have hlength := (List.getElem?_eq_some_iff.mp hlater').1
      rw [← hstage]
      exact (List.getElem?_append_left (hlt.trans hlength)).symm
    exact h.serial i j stage later hlt hlater' hne hstage'

theorem standing_awaitManifest {version : ℕ} {next : Step} (request : Request)
    (hcovers : next.version ≤ version)
    (hversion : request.version ≤ next.version ∨ request.version ≤ s.disk ∨
      request.version ≤ next.later) :
    (s.advanceManifest version).Standing
      { request, stage := .awaiting (some s.writes.length) next } := by
  intro write next' hstage
  obtain ⟨rfl, rfl⟩ := CallStage.awaiting.inj hstage
  refine ⟨.inr ⟨s.writes.length, .queued, rfl, ?_, hcovers.trans (le_max_left _ _)⟩, hversion⟩
  exact List.getElem?_concat_length

/-- The calls are told from the rest of the store. -/
theorem Forward.setCalls (h : Forward s) {calls : List Call}
    (hcalls : ∀ call ∈ calls, s.Standing call) : Forward { s with calls } :=
  ⟨h.opened, h.version, h.writing, h.renamed, h.serial, hcalls, h.rows⟩

theorem Forward.setDb (h : Forward s) {db : Database}
    (hrows : ∀ version, db.Requires version → version ≤ s.disk) : Forward { s with db } :=
  ⟨h.opened, h.version, h.writing, h.renamed, h.serial, h.calls, hrows⟩

/-! ## The steps -/

theorem Forward.call (h : Forward s) (request : Request) {out : Outcome}
    (hcase : StartCase s request out) :
    Forward { out.1 with calls := out.1.calls ++ [{ request, stage := out.2 }] } := by
  have hall : ∀ (t : CallerRuntimeStore) (stage : CallStage), Onward s t → t.calls = s.calls →
      t.Standing ⟨request, stage⟩ → ∀ call ∈ t.calls ++ [⟨request, stage⟩], t.Standing call := by
    intro t stage honward hcalls hstanding call hmem
    rw [hcalls] at hmem
    rcases List.mem_append.mp hmem with hmem | hmem
    · exact honward.standing (h.calls call hmem)
    · exact List.mem_singleton.mp hmem ▸ hstanding
  have hself : Onward s s := onward_of_writes le_rfl le_rfl rfl
  cases hcase with
  | fails =>
      exact h.setCalls (hall s _ hself rfl fun _ _ hstage => CallStage.noConfusion hstage)
  | helpers rows =>
      have hdb : Forward { s with db.storageHelpers := rows } := h.setDb h.rows
      refine hdb.setCalls (hall _ _ ?_ rfl fun _ _ hstage => CallStage.noConfusion hstage)
      exact onward_of_writes le_rfl le_rfl rfl
  | waits hversion hlater =>
      refine h.setCalls (hall s _ hself rfl fun write next hstage => ?_)
      obtain ⟨rfl, rfl⟩ := CallStage.awaiting.inj hstage
      exact ⟨.inl (by omega), .inr (.inr hlater)⟩
  | writes hopened hcovers hlater =>
      refine (h.advanceManifest _).setCalls (hall _ _ (onward_advanceManifest s _) rfl ?_)
      refine standing_awaitManifest request hcovers ?_
      rcases le_max_iff.mp hlater with hversion | hversion
      · exact .inl hversion
      · exact .inr (.inr hversion)

theorem getElem?_setWrite {write : ℕ} {stage : WriteStage} (hwrite : s.writes[write]? = some stage)
    (stage' : WriteStage) (i : ℕ) :
    (s.setWrite write stage').writes[i]? = if i = write then some stage' else s.writes[i]? := by
  have hlt := (List.getElem?_eq_some_iff.mp hwrite).1
  rw [setWrite, List.getElem?_set]
  by_cases heq : write = i
  · rw [if_pos heq, if_pos (heq ▸ hlt), if_pos heq.symm]
  · rw [if_neg heq, if_neg fun hi => heq hi.symm]

/-- One write moves on, and nothing else with it but the manifest. -/
theorem Forward.moveWrite (h : Forward s) {write : ℕ} {stage stage' : WriteStage}
    (hwrite : s.writes[write]? = some stage) (manifest : Option ℕ)
    (hdisk : s.disk ≤ manifest.getD 0) (hsome : s.manifest.isSome → manifest.isSome)
    (hversion : manifest.getD 0 ≤ s.manifestVersion)
    (hother : manifest.getD 0 = s.disk ∨
      ∀ i taken, i ≠ write → s.writes[i]? ≠ some (.writing taken))
    (hwriting : ∀ taken, stage' = .writing taken →
      manifest.getD 0 ≤ taken ∧ taken ≤ s.manifestVersion)
    (hrenamed : ∀ taken, stage' = .renamed taken → taken ≤ manifest.getD 0)
    (hturn : ∀ i before, i < write → s.writes[i]? = some before → isSettled before = true)
    (hbehind : isSettled stage = false)
    (hcarries : ∀ version, s.Carries version stage →
      ({ s.setWrite write stage' with manifest } : CallerRuntimeStore).Carries version stage') :
    Forward { s.setWrite write stage' with manifest } ∧
      Onward s { s.setWrite write stage' with manifest } := by
  have hget := getElem?_setWrite hwrite stage'
  have honward : Onward s { s.setWrite write stage' with manifest } := by
    refine ⟨hdisk, fun i old version hold hcarry => ?_⟩
    by_cases heq : i = write
    · subst heq
      obtain rfl := Option.some.inj (hwrite.symm.trans hold)
      exact ⟨stage', (hget i).trans (if_pos rfl), hcarries version hcarry⟩
    · exact ⟨old, (hget i).trans ((if_neg heq).trans hold), hcarry.of_le hdisk le_rfl⟩
  refine ⟨⟨fun hopened => hsome (h.opened hopened), hversion, fun i taken hstage => ?_,
    fun i taken hstage => ?_, fun i j before later hlt hlater hne hbefore => ?_,
    fun call hmem => honward.standing (h.calls call hmem),
    fun version hrequires => (h.rows version hrequires).trans hdisk⟩, honward⟩
  · rw [hget] at hstage
    by_cases heq : i = write
    · rw [if_pos heq] at hstage
      exact hwriting taken (Option.some.inj hstage)
    · rw [if_neg heq] at hstage
      obtain hsame | hnone := hother
      · exact ⟨hsame.trans_le (h.writing i taken hstage).1, (h.writing i taken hstage).2⟩
      · exact absurd hstage (hnone i taken heq)
  · rw [hget] at hstage
    by_cases heq : i = write
    · rw [if_pos heq] at hstage
      exact hrenamed taken (Option.some.inj hstage)
    · rw [if_neg heq] at hstage
      exact (h.renamed i taken hstage).trans hdisk
  · rw [hget] at hlater hbefore
    by_cases heq : j = write
    · subst heq
      rw [if_neg (by omega)] at hbefore
      exact hturn i before hlt hbefore
    · rw [if_neg heq] at hlater
      by_cases heq' : i = write
      · subst heq'
        -- what is behind a write that is not settled is queued
        have hsettled := h.serial i j stage later hlt hlater hne hwrite
        rw [hbehind] at hsettled
        cases hsettled
      · rw [if_neg heq'] at hbefore
        exact h.serial i j before later hlt hlater hne hbefore

theorem Forward.beginWrite (h : Forward s) {write : ℕ}
    (hwrite : s.writes[write]? = some .queued)
    (hturn : (s.writes.take write).all isSettled = true) :
    Forward (s.setWrite write (.writing s.manifestVersion)) := by
  refine (h.moveWrite hwrite s.manifest le_rfl id h.version (.inl rfl) ?_ ?_ ?_ rfl
    fun _ => id).1
  · intro taken htaken
    obtain rfl := WriteStage.writing.inj htaken
    exact ⟨h.version, le_rfl⟩
  · exact fun _ hfalse => WriteStage.noConfusion hfalse
  · intro i before hlt hbefore
    refine List.all_eq_true.mp hturn before (List.mem_iff_getElem?.mpr ⟨i, ?_⟩)
    rw [List.getElem?_take_of_lt hlt]
    exact hbefore

theorem Forward.rename (h : Forward s) {write taken : ℕ}
    (hwrite : s.writes[write]? = some (.writing taken)) :
    Forward { s.setWrite write (.renamed taken) with manifest := some taken } := by
  obtain ⟨hdisk, hle⟩ := h.writing write taken hwrite
  refine (h.moveWrite hwrite (some taken) hdisk (fun _ => rfl) hle (.inr ?_)
    (fun _ hfalse => WriteStage.noConfusion hfalse) ?_ ?_ rfl fun _ => id).1
  · intro i other hne hother
    rcases Nat.lt_or_gt_of_ne hne with hlt | hgt
    · exact Bool.false_ne_true
        (h.serial i write _ _ hlt hwrite (fun hfalse => WriteStage.noConfusion hfalse) hother)
    · exact Bool.false_ne_true
        (h.serial write i _ _ hgt hother (fun hfalse => WriteStage.noConfusion hfalse) hwrite)
  · intro other hother
    obtain rfl := WriteStage.renamed.inj hother
    exact le_rfl
  · intro i before hlt hbefore
    exact h.serial i write before _ hlt hwrite (fun hfalse => WriteStage.noConfusion hfalse) hbefore

/-- The write fails before its `rename`, or comes to its end behind it. -/
theorem Forward.settleWrite (h : Forward s) {write : ℕ} {stage : WriteStage} {ok : Bool}
    (hwrite : s.writes[write]? = some stage)
    (hstage : (∃ taken, stage = .writing taken) ∧ ok = false ∨ ∃ taken, stage = .renamed taken) :
    Forward (s.setWrite write (.settled ok)) := by
  have hqueued : stage ≠ .queued := by
    rcases hstage with ⟨⟨taken, rfl⟩, -⟩ | ⟨taken, rfl⟩ <;> exact WriteStage.noConfusion
  have hbehind : isSettled stage = false := by
    rcases hstage with ⟨⟨taken, rfl⟩, -⟩ | ⟨taken, rfl⟩ <;> rfl
  refine (h.moveWrite hwrite s.manifest le_rfl id h.version (.inl rfl)
    (fun _ hfalse => WriteStage.noConfusion hfalse) (fun _ hfalse => WriteStage.noConfusion hfalse)
    (fun i before hlt hbefore => h.serial i write before _ hlt hwrite hqueued hbefore) hbehind ?_).1
  intro version hcarries hok
  rcases hstage with ⟨-, hfails⟩ | ⟨taken, rfl⟩
  · rw [hfails] at hok
    cases hok
  · exact le_trans hcarries (h.renamed write taken hwrite)

/-- What the await of a call means for the disk. -/
theorem Covered.of_awaited {write : Option ℕ} {version : ℕ} (h : s.Covered write version)
    (hawaited : s.awaited write = some true) : version ≤ s.disk := by
  obtain hdisk | ⟨i, stage, rfl, hstage, hcarries⟩ := h
  · exact hdisk
  · simp only [awaited, hstage] at hawaited
    cases stage with
    | settled ok => exact hcarries (Option.some.inj hawaited)
    | _ => cases hawaited

theorem Forward.goOn (h : Forward s) {k : ℕ} {call : Call} {next : Step}
    (hnext : next.version ≤ s.disk)
    (hrequest : call.request.version ≤ next.version ∨ call.request.version ≤ s.disk ∨
      call.request.version ≤ next.later) {out : Outcome} (hcase : GoOnCase s next out) :
    Forward { out.1 with calls := out.1.calls.set k { call with stage := out.2 } } := by
  have hall : ∀ (t : CallerRuntimeStore) (stage : CallStage), Onward s t → t.calls = s.calls →
      t.Standing { call with stage } →
        ∀ other ∈ t.calls.set k { call with stage }, t.Standing other := by
    intro t stage honward hcalls hstanding other hmem
    rw [hcalls] at hmem
    rcases List.mem_or_eq_of_mem_set hmem with hmem | rfl
    · exact honward.standing (h.calls other hmem)
    · exact hstanding
  have hself : Onward s s := onward_of_writes le_rfl le_rfl rfl
  cases hcase with
  | fails | keeps =>
      exact h.setCalls (hall s _ hself rfl fun _ _ hstage => CallStage.noConfusion hstage)
  | @commits db _ hrows =>
      have hdb : Forward { s with db } := h.setDb fun version hrequires =>
        (hrows version hrequires).elim (h.rows version) fun heq => heq ▸ hnext
      exact hdb.setCalls (hall _ _ (onward_of_writes le_rfl le_rfl rfl) rfl
        fun _ _ hstage => CallStage.noConfusion hstage)
  | forgets id preservePreparation hlater =>
      have hdb : Forward { s with db := s.db.forget id preservePreparation } :=
        h.setDb fun version hrequires => h.rows version (requires_forget hrequires)
      refine hdb.setCalls (hall _ _ (onward_of_writes le_rfl le_rfl rfl) rfl ?_)
      intro write next' hstage
      obtain ⟨rfl, rfl⟩ := CallStage.awaiting.inj hstage
      refine ⟨.inl (Nat.zero_le _), .inr (.inl ?_)⟩
      rw [hlater] at hrequest
      rcases hrequest with hrequest | hrequest | hrequest
      · exact hrequest.trans hnext
      · exact hrequest
      · exact hrequest.trans (Nat.zero_le _)
  | writes hopened id version ready hlater =>
      refine (h.advanceManifest 6).setCalls (hall _ _ (onward_advanceManifest s 6) rfl ?_)
      refine standing_awaitManifest call.request le_rfl ?_
      rw [hlater] at hrequest
      rcases hrequest with hrequest | hrequest | hrequest
      · exact .inr (.inl (hrequest.trans hnext))
      · exact .inr (.inl hrequest)
      · exact .inl hrequest

theorem Forward.lock (h : Forward s) (hsettled : ∀ stage ∈ s.writes, isSettled stage = true)
    (fails : Bool) : Forward (s.lock env fails) := by
  have hdisk : s.disk ≤ max 4 (s.manifest.getD 4) := by
    rw [disk]
    cases s.manifest with
    | none => exact Nat.zero_le _
    | some version => exact le_max_right _ _
  have hall : ∀ (i : ℕ) (stage : WriteStage), s.writes[i]? = some stage →
      isSettled stage = true := fun i stage hstage => hsettled stage (List.mem_of_getElem? hstage)
  have honward : Onward s (s.lock env fails) := by
    refine ⟨hdisk, fun i stage version hstage hcarries => ⟨stage, hstage, ?_⟩⟩
    cases stage with
    | settled ok => exact fun hok => (hcarries hok).trans hdisk
    | _ => exact absurd (hall i _ hstage) Bool.false_ne_true
  exact ⟨fun _ => rfl, le_rfl,
    fun i taken hstage => absurd (hall i _ hstage) Bool.false_ne_true,
    fun i taken hstage => absurd (hall i _ hstage) Bool.false_ne_true, h.serial,
    fun call hmem => honward.standing (h.calls call hmem),
    fun version hrequires => (h.rows version hrequires).trans hdisk⟩

theorem Forward.unlock (h : Forward s) : Forward { s with opened := false } :=
  ⟨fun hfalse => absurd hfalse Bool.false_ne_true, h.version, h.writing, h.renamed, h.serial,
    h.calls, h.rows⟩

/-- The await of a call is over. -/
theorem proceed_cases {k : ℕ} {fails : Bool} (hstep : s.step env (.proceed k fails) = some s') :
    ∃ (call : Call) (write : Option ℕ) (next : Step) (ok : Bool), s.calls[k]? = some call ∧
      call.stage = .awaiting write next ∧ s.awaited write = some ok ∧
      ∃ out : Outcome, (out = if ok then s.goOn env fails next else s.fail) ∧
        s' = { out.1 with calls := out.1.calls.set k { call with stage := out.2 } } := by
  obtain ⟨call, hcall, hstep⟩ := Option.bind_eq_some_iff.mp hstep
  split at hstep
  · next write next hstage =>
      obtain ⟨ok, hok, rfl⟩ := Option.map_eq_some_iff.mp hstep
      exact ⟨call, write, next, ok, hcall, hstage, hok, _, rfl, rfl⟩
  · cases hstep

/-- The store is not opened while a write of the manifest is under way. -/
def SettledLock (s : CallerRuntimeStore) : Action → Prop
  | .lock _ => ∀ stage ∈ s.writes, isSettled stage = true
  | _ => True

theorem Forward.proceed (h : Forward s) {k : ℕ} {fails : Bool}
    (hstep : s.step env (.proceed k fails) = some s') : Forward s' := by
  obtain ⟨call, write, next, ok, hcall, hstage, hawaited, out, hout, rfl⟩ := proceed_cases hstep
  obtain ⟨hcovered, hrequest⟩ := h.calls call (List.mem_of_getElem? hcall) write next hstage
  cases ok with
  | false =>
      obtain rfl := hout
      refine h.setCalls fun other hmem => ?_
      rcases List.mem_or_eq_of_mem_set hmem with hmem | rfl
      · exact h.calls other hmem
      · exact fun _ _ hstage => CallStage.noConfusion hstage
  | true =>
      obtain rfl := hout
      exact h.goOn (hcovered.of_awaited hawaited) hrequest (goOnCase env s fails next)

theorem Forward.step (h : Forward s) {a : Action} (hsettled : SettledLock s a)
    (hstep : s.step env a = some s') : Forward s' := by
  cases a with
  | call request =>
      obtain rfl := Option.some.inj hstep
      exact h.call request (startCase env s request)
  | beginWrite write =>
      obtain ⟨⟨hwrite, hturn⟩, heq⟩ := Option.ite_none_right_eq_some.mp hstep
      obtain rfl := Option.some.inj heq
      exact h.beginWrite hwrite hturn
  | rename write =>
      simp only [CallerRuntimeStore.step] at hstep
      split at hstep
      · next taken hwrite =>
          obtain rfl := Option.some.inj hstep
          exact h.rename hwrite
      · cases hstep
  | settleWrite write ok =>
      simp only [CallerRuntimeStore.step] at hstep
      split at hstep
      · next taken hwrite =>
          split at hstep
          · cases hstep
          · obtain rfl := Option.some.inj hstep
            exact h.settleWrite hwrite (.inl ⟨⟨taken, rfl⟩, rfl⟩)
      · next taken hwrite =>
          obtain rfl := Option.some.inj hstep
          exact h.settleWrite hwrite (.inr ⟨taken, rfl⟩)
      · cases hstep
  | proceed k fails => exact h.proceed hstep
  | unlock =>
      obtain ⟨-, heq⟩ := Option.ite_none_right_eq_some.mp hstep
      obtain rfl := Option.some.inj heq
      exact h.unlock
  | lock fails =>
      obtain ⟨-, heq⟩ := Option.ite_none_left_eq_some.mp hstep
      obtain rfl := Option.some.inj heq
      exact h.lock hsettled fails

theorem forward_of_run {labels : List Action}
    (h : ((system env).restrict SettledLock).Run {} labels s) : Forward s :=
  h.invariant (fun _ _ _ hforward hstep => hforward.step hstep.1 hstep.2) forward_empty

/-! ## The manifest in a run -/

/-- What the manifest is to the rows, and to the steps behind it. -/
structure NeverBackwards (env : StoreEnv) (s : CallerRuntimeStore) : Prop where
  rows : ∀ version, s.db.Requires version → ∃ found, s.manifest = some found ∧ version ≤ found
  /-- The version is there before the rows. -/
  commits : ∀ (k : ℕ) (fails : Bool) (call : Call) (s' : CallerRuntimeStore),
    (system env).step s (.proceed k fails) s' → s.calls[k]? = some call → s'.db ≠ s.db →
      ∃ found, s.manifest = some found ∧ call.request.version ≤ found
  forward : ∀ (a : Action) (s' : CallerRuntimeStore) (version : ℕ), (system env).step s a s' →
    s.manifest = some version → ∃ found, s'.manifest = some found ∧ version ≤ found

theorem Forward.found (h : Forward s) {version : ℕ} (hle : version ≤ s.disk)
    (hsome : s.opened = true ∨ 0 < version) :
    ∃ found, s.manifest = some found ∧ version ≤ found := by
  rw [disk] at hle
  cases hmanifest : s.manifest with
  | some found => exact ⟨found, rfl, by rwa [hmanifest] at hle⟩
  | none =>
      rw [hmanifest] at hle
      obtain hopened | hpos := hsome
      · have hfalse := h.opened hopened
        rw [hmanifest] at hfalse
        cases hfalse
      · exact absurd hpos (Nat.not_lt.mpr hle)

/-- No step behind an await goes on in a store that is closed. -/
theorem opened_of_goOn {fails : Bool} {next : Step} (h : (s.goOn env fails next).1.db ≠ s.db) :
    s.opened = true := by
  cases hopened : s.opened with
  | true => rfl
  | false =>
      exfalso
      apply h
      cases next with
      | removeBackup id =>
          simp only [goOn]
          split <;> rfl
      | preparePrincipal principalId version =>
          simp only [goOn, writePreparation, hopened]
          split <;> rfl
      | _ => simp [goOn, hopened, fail]

theorem GoOnCase.later {next : Step} {out : Outcome} (h : GoOnCase s next out)
    (hdb : out.1.db ≠ s.db) : next.later = 0 := by
  cases h with
  | fails | keeps | writes => exact absurd rfl hdb
  | commits later => exact later
  | forgets _ _ later => exact later

theorem Forward.commits (h : Forward s) {k : ℕ} {fails : Bool} {call : Call}
    (hstep : s.step env (.proceed k fails) = some s') (hcall : s.calls[k]? = some call)
    (hdb : s'.db ≠ s.db) : ∃ found, s.manifest = some found ∧ call.request.version ≤ found := by
  obtain ⟨call', write, next, ok, hcall', hstage, hawaited, out, hout, rfl⟩ := proceed_cases hstep
  obtain rfl := Option.some.inj (hcall.symm.trans hcall')
  cases ok with
  | false =>
      obtain rfl := hout
      exact absurd rfl hdb
  | true =>
      obtain rfl := hout
      obtain ⟨hcovered, hrequest⟩ := h.calls call (List.mem_of_getElem? hcall) write next hstage
      have hnext : next.version ≤ s.disk := hcovered.of_awaited hawaited
      have hlater : next.later = 0 := (goOnCase env s fails next).later hdb
      refine h.found ?_ (.inl (opened_of_goOn hdb))
      rw [hlater] at hrequest
      omega

theorem StartCase.manifest {request : Request} {out : Outcome} (h : StartCase s request out) :
    out.1.manifest = s.manifest := by
  cases h <;> rfl

theorem GoOnCase.manifest {next : Step} {out : Outcome} (h : GoOnCase s next out) :
    out.1.manifest = s.manifest := by
  cases h <;> rfl

/-- Only a `rename` and `lock` write the version, and both write no lower one. -/
theorem Forward.advances (h : Forward s) {a : Action} (hstep : s.step env a = some s')
    {version : ℕ} (hversion : s.manifest = some version) :
    ∃ found, s'.manifest = some found ∧ version ≤ found := by
  have hdisk : s.disk = version := by rw [disk, hversion]; rfl
  cases a with
  | call request =>
      obtain rfl := Option.some.inj hstep
      exact ⟨version, (startCase env s request).manifest.trans hversion, le_rfl⟩
  | beginWrite write =>
      obtain ⟨-, heq⟩ := Option.ite_none_right_eq_some.mp hstep
      obtain rfl := Option.some.inj heq
      exact ⟨version, hversion, le_rfl⟩
  | rename write =>
      simp only [CallerRuntimeStore.step] at hstep
      split at hstep
      · next taken hwrite =>
          obtain rfl := Option.some.inj hstep
          exact ⟨taken, rfl, hdisk ▸ (h.writing write taken hwrite).1⟩
      · cases hstep
  | settleWrite write ok =>
      refine ⟨version, ?_, le_rfl⟩
      simp only [CallerRuntimeStore.step] at hstep
      split at hstep
      · split at hstep
        · cases hstep
        · obtain rfl := Option.some.inj hstep
          exact hversion
      · obtain rfl := Option.some.inj hstep
        exact hversion
      · cases hstep
  | proceed k fails =>
      obtain ⟨call, write, next, ok, -, -, -, out, hout, rfl⟩ := proceed_cases hstep
      refine ⟨version, ?_, le_rfl⟩
      cases ok with
      | false =>
          obtain rfl := hout
          exact hversion
      | true =>
          obtain rfl := hout
          exact (goOnCase env s fails next).manifest.trans hversion
  | unlock =>
      obtain ⟨-, heq⟩ := Option.ite_none_right_eq_some.mp hstep
      obtain rfl := Option.some.inj heq
      exact ⟨version, hversion, le_rfl⟩
  | lock fails =>
      obtain ⟨-, heq⟩ := Option.ite_none_left_eq_some.mp hstep
      obtain rfl := Option.some.inj heq
      refine ⟨max 4 (s.manifest.getD 4), rfl, ?_⟩
      rw [hversion]
      exact le_max_right _ _

instance (s : CallerRuntimeStore) : DecidablePred (SettledLock s)
  | .lock _ => inferInstanceAs (Decidable (∀ stage ∈ s.writes, isSettled stage = true))
  | .call _ | .beginWrite _ | .rename _ | .settleWrite _ _ | .proceed _ _ | .unlock => isTrue trivial

/-- In every run that opens the store only when no write is under way. -/
theorem never_backwards {labels : List Action}
    (h : ((system env).restrict SettledLock).Run {} labels s) : NeverBackwards env s := by
  have hforward := forward_of_run h
  refine ⟨fun version hrequires => ?_, fun k fails call s' hstep hcall hdb => ?_,
    fun a s' version hstep hversion => ?_⟩
  · refine hforward.found (hforward.rows version hrequires) (.inr ?_)
    obtain ⟨rfl, -⟩ | ⟨rfl, -⟩ | ⟨rfl, -⟩ | ⟨rfl, -⟩ := hrequires <;> omega
  · exact hforward.commits hstep hcall hdb
  · exact hforward.advances hstep hversion

/-- A store whose digest of every principal is one id. -/
def sampleEnv : StoreEnv where
  agentId := JsText.ofAscii "agent"
  recordNamespace := JsText.ofAscii "host"
  scopeDigest _ _ := List.replicate 64 97

/-- The store is opened again with 4 on disk while the write of 8 is under way. -/
def reopening : List Action :=
  [.lock false, .call (.reserve (List.replicate 64 97) (JsText.ofAscii "claude") none false),
    .proceed 0 false, .call (.reserveContext (List.replicate 64 97) (List.replicate 64 98) 2),
    .beginWrite 0, .unlock, .lock false, .rename 0, .settleWrite 0 true, .proceed 1 false,
    .call (.recordFixedStorage (List.replicate 64 97) (JsText.ofAscii "record")), .beginWrite 1]

/-- The same calls, with the store opened again behind the write. -/
theorem never_backwards_example :
    ∃ s : CallerRuntimeStore, s.manifest = some 8 ∧ s.db.fixedStorage ≠ [] ∧
      NeverBackwards sampleEnv s := by
  let script : List Action := [.lock false,
    .call (.reserve (List.replicate 64 97) (JsText.ofAscii "claude") none false), .proceed 0 false,
    .call (.reserveContext (List.replicate 64 97) (List.replicate 64 98) 2), .beginWrite 0, .unlock,
    .rename 0, .settleWrite 0 true, .lock false, .proceed 1 false,
    .call (.recordFixedStorage (List.replicate 64 97) (JsText.ofAscii "record")), .beginWrite 1,
    .rename 1, .settleWrite 1 true, .proceed 2 false]
  let next (s : CallerRuntimeStore) (a : Action) : Option CallerRuntimeStore :=
    if SettledLock s a then s.step sampleEnv a else none
  have hnext : ∀ s a t, next s a = some t →
      ((system sampleEnv).restrict SettledLock).step s a t := fun s a t h =>
    Option.ite_none_right_eq_some.mp h
  obtain ⟨s, hscript⟩ : ∃ s, script.foldlM next {} = some s := ⟨_, rfl⟩
  have hend : (script.foldlM next {}).all (fun s => s.manifest = some 8 && s.db.fixedStorage ≠ []) =
      true := by
    decide +kernel
  rw [hscript] at hend
  obtain ⟨hmanifest, hrows⟩ : s.manifest = some 8 ∧ s.db.fixedStorage ≠ [] := by simpa using hend
  exact ⟨s, hmanifest, hrows, never_backwards (System.Run.of_foldlM hnext hscript)⟩

/-- The write of a later call takes 5 over the 8 on disk, where a context already needs 8. -/
theorem reopening_goes_backwards :
    ¬ ∀ (labels : List Action) (s : CallerRuntimeStore), (system sampleEnv).Run {} labels s →
      NeverBackwards sampleEnv s := by
  intro hall
  obtain ⟨s, hscript⟩ : ∃ s, reopening.foldlM (step sampleEnv) {} = some s := ⟨_, rfl⟩
  have hend : (reopening.foldlM (step sampleEnv) {}).all (fun s =>
      s.manifest = some 8 && (s.step sampleEnv (.rename 1)).any (·.manifest = some 5)) = true := by
    decide +kernel
  rw [hscript] at hend
  obtain ⟨hmanifest, s', hstep, hlower⟩ : s.manifest = some 8 ∧
      ∃ s', s.step sampleEnv (.rename 1) = some s' ∧ s'.manifest = some 5 := by
    simpa [Option.any_eq_true] using hend
  obtain ⟨found, hfound, hle⟩ := (hall reopening s (System.Run.of_foldlM (fun _ _ _ h => h) hscript)
    ).forward (.rename 1) s' 8 hstep hmanifest
  rw [hlower] at hfound
  obtain rfl := Option.some.inj hfound
  omega

end CallerRuntimeStore

end VicoopBridge.RuntimeStore
