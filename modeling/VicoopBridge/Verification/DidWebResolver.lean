import VicoopBridge.Verification.DidWebUrl

/-! # The cache of DID documents

Over any calls and any outcomes of loads: whose documents are returned, how many loads are under way,
and how often a document is refreshed. -/

namespace VicoopBridge

open Library

/-! ## What the record says -/

/-- The last refresh of the issuer, unless it has been evicted since. -/
def lastRefresh (issuer : JsText) : List DidNote → Option ℤ
  | [] => none
  | .refreshed other time :: rest => if other = issuer then some time else lastRefresh issuer rest
  | .evicted other :: rest => if other = issuer then none else lastRefresh issuer rest

/-- No refresh comes within the cooldown of the one before it. -/
def Cooled (cooldown : ℤ) : List DidNote → Prop
  | [] => True
  | .refreshed issuer time :: rest =>
      (∀ last, lastRefresh issuer rest = some last → cooldown ≤ time - last) ∧ Cooled cooldown rest
  | .evicted _ :: rest => Cooled cooldown rest

/-- The notes have been taken in the order of time. -/
def Timely (now : ℤ) : List DidNote → Prop
  | [] => True
  | .refreshed _ time :: rest => time ≤ now ∧ Timely time rest
  | .evicted _ :: rest => Timely now rest

/-- What a call may have come to. -/
def CallSpec (loads : List DidLoad) (call : DidCall) : Prop :=
  match call.source with
  | .cache entry =>
      call.time < entry.expiresAt ∧ documentId entry.document = some call.issuer ∧
        call.outcome = some (.ok entry.document)
  | .load n _ => ∃ load, loads[n]? = some load ∧ load.issuer = call.issuer ∧
      ∀ outcome, call.outcome = some outcome → load.phase = .settled outcome
  | .coolingDown => ∃ error, call.outcome = some (.error error)

/-- A call that comes while a load of its issuer is under way waits for it, or is served from the
cache if it asks for no refresh. -/
def SharedCall (call : DidCall) : Prop :=
  ∀ n, call.pending = some n → (∃ owner, call.source = .load n owner) ∨
    call.refresh = false ∧ ∃ entry, call.source = .cache entry

/-- The discipline of the cache, for every call so far. -/
structure ResolverSpec (env : DidResolverEnv) (s : SafeDidWebResolver) : Prop where
  returned : ∀ call ∈ s.calls, ∀ doc, call.outcome = some (.ok doc) →
    documentId doc = some call.issuer
  oneLoad : ∀ (m n : ℕ) (load load' : DidLoad), s.loads[m]? = some load → s.loads[n]? = some load' →
    load.phase.isSettled = false → load'.phase.isSettled = false →
      load.issuer = load'.issuer → m = n
  shared : ∀ call ∈ s.calls, SharedCall call
  answered : ∀ call ∈ s.calls, CallSpec s.loads call
  cooled : ∀ issuer time time' after between before,
    s.notes = after ++ .refreshed issuer time' :: (between ++ .refreshed issuer time :: before) →
      .evicted issuer ∉ between → env.refreshCooldownMs ≤ time' - time
  bounded : s.cache.size ≤ env.maxCacheEntries ∧ s.failures.size ≤ env.maxCacheEntries

/-- A cached document stays until a load succeeds, be it of another issuer. -/
def KeepsCached (env : DidResolverEnv) (s : SafeDidWebResolver) (event : DidWebEvent) : Prop :=
  ∀ issuer entry, s.cache.get? issuer = some entry →
    (s.apply env event).cache.get? issuer = some entry ∨
      ∃ n load raw doc, event = .document n raw ∧ s.loads[n]? = some load ∧
        SafeDidWebResolver.checkDocument load.issuer raw = .ok doc

/-! ## Refreshes -/

theorem Timely.mono {now later : ℤ} (h : now ≤ later) {notes : List DidNote}
    (ht : Timely now notes) : Timely later notes := by
  induction notes with
  | nil => trivial
  | cons note rest ih =>
      cases note with
      | refreshed issuer time => exact ⟨ht.1.trans h, ht.2⟩
      | evicted issuer => exact ih ht

theorem lastRefresh_between {now : ℤ} {issuer : JsText} {time : ℤ} {between before : List DidNote}
    (ht : Timely now (between ++ .refreshed issuer time :: before))
    (hkept : .evicted issuer ∉ between) :
    time ≤ now ∧ ∃ last, lastRefresh issuer (between ++ .refreshed issuer time :: before) =
      some last ∧ time ≤ last := by
  induction between generalizing now with
  | nil => exact ⟨ht.1, time, if_pos rfl, le_rfl⟩
  | cons note between ih =>
      have hrest : .evicted issuer ∉ between := fun hmem => hkept (List.mem_cons_of_mem note hmem)
      cases note with
      | refreshed other t =>
          obtain ⟨hle, last, hlast, htime⟩ := ih ht.2 hrest
          refine ⟨hle.trans ht.1, ?_⟩
          by_cases hother : other = issuer
          · exact ⟨t, if_pos hother, hle⟩
          · exact ⟨last, (if_neg hother).trans hlast, htime⟩
      | evicted other =>
          obtain ⟨hle, last, hlast, htime⟩ := ih ht hrest
          have hother : other ≠ issuer := fun heq => hkept (heq ▸ List.mem_cons_self)
          exact ⟨hle, last, (if_neg hother).trans hlast, htime⟩

theorem Cooled.of_append {cooldown now : ℤ} {after notes : List DidNote}
    (h : Cooled cooldown (after ++ notes)) (ht : Timely now (after ++ notes)) :
    Cooled cooldown notes ∧ Timely now notes := by
  induction after generalizing now with
  | nil => exact ⟨h, ht⟩
  | cons note after ih =>
      cases note with
      | refreshed issuer time =>
          obtain ⟨hcooled, htimely⟩ := ih h.2 ht.2
          exact ⟨hcooled, htimely.mono ht.1⟩
      | evicted issuer => exact ih h ht

theorem cooldown_between {cooldown now : ℤ} {issuer : JsText} {time time' : ℤ}
    {after between before : List DidNote}
    (h : Cooled cooldown
      (after ++ .refreshed issuer time' :: (between ++ .refreshed issuer time :: before)))
    (ht : Timely now
      (after ++ .refreshed issuer time' :: (between ++ .refreshed issuer time :: before)))
    (hkept : .evicted issuer ∉ between) : cooldown ≤ time' - time := by
  obtain ⟨hcooled, htimely⟩ := h.of_append ht
  obtain ⟨-, last, hlast, htime⟩ := lastRefresh_between htimely.2 hkept
  have hcooldown := hcooled.1 last hlast
  omega

/-! ## The invariant -/

/-- The cache, and what is kept beside it. -/
structure Kept (env : DidResolverEnv) (now : ℤ) (cache : InsertionMap JsText DidCacheEntry)
    (attempts failures : InsertionMap JsText ℤ) (notes : List DidNote) : Prop where
  named : ∀ issuer entry, cache.get? issuer = some entry →
    documentId entry.document = some issuer
  noted : ∀ issuer, attempts.get? issuer = lastRefresh issuer notes
  cached : ∀ issuer, (attempts.get? issuer).isSome → (cache.get? issuer).isSome
  cooled : Cooled env.refreshCooldownMs notes
  timely : Timely now notes
  cacheBound : cache.size ≤ env.maxCacheEntries
  failuresBound : failures.size ≤ env.maxCacheEntries

/-- A load that has not settled is in flight, and what has been loaded is the issuer's. -/
structure Loading (loads : List DidLoad) (inFlight : InsertionMap JsText ℕ) : Prop where
  named : ∀ (n : ℕ) (load : DidLoad) doc, loads[n]? = some load → load.phase = .settled (.ok doc) →
    documentId doc = some load.issuer
  flying : ∀ (n : ℕ) (load : DidLoad), loads[n]? = some load → load.phase.isSettled = false →
    inFlight.get? load.issuer = some n
  known : ∀ issuer n, inFlight.get? issuer = some n →
    ∃ load : DidLoad, loads[n]? = some load ∧ load.issuer = issuer

structure ResolverInvariant (env : DidResolverEnv) (s : SafeDidWebResolver) : Prop where
  kept : Kept env s.now s.cache s.lastRefreshAttempt s.failures s.notes
  loading : Loading s.loads s.inFlight
  calls : ∀ call ∈ s.calls, CallSpec s.loads call ∧ SharedCall call

namespace ResolverInvariant

variable {env : DidResolverEnv} {s : SafeDidWebResolver}

theorem spec (h : ResolverInvariant env s) : ResolverSpec env s where
  returned call hmem doc hdoc := by
    have hspec := (h.calls call hmem).1
    unfold CallSpec at hspec
    split at hspec
    · obtain ⟨-, hnamed, houtcome⟩ := hspec
      rw [houtcome] at hdoc
      obtain rfl := Except.ok.inj (Option.some.inj hdoc)
      exact hnamed
    · obtain ⟨load, hload, hissuer, houtcome⟩ := hspec
      rw [← hissuer]
      exact h.loading.named _ load doc hload (houtcome _ hdoc)
    · obtain ⟨error, houtcome⟩ := hspec
      rw [houtcome] at hdoc
      cases Option.some.inj hdoc
  oneLoad m n load load' hload hload' hopen hopen' hissuer := by
    have hm := h.loading.flying m load hload hopen
    rw [hissuer, h.loading.flying n load' hload' hopen'] at hm
    exact (Option.some.inj hm).symm
  shared call hmem := (h.calls call hmem).2
  answered call hmem := (h.calls call hmem).1
  cooled issuer time time' after between before hnotes hkept := by
    have hcooled := h.kept.cooled
    have htimely := h.kept.timely
    rw [hnotes] at hcooled htimely
    exact cooldown_between hcooled htimely hkept
  bounded := ⟨h.kept.cacheBound, h.kept.failuresBound⟩

end ResolverInvariant

/-! ## The cache -/

namespace Kept

variable {env : DidResolverEnv} {now : ℤ} {cache : InsertionMap JsText DidCacheEntry}
  {attempts failures : InsertionMap JsText ℤ} {notes : List DidNote}

theorem tick (h : Kept env now cache attempts failures notes) {later : ℤ} (hle : now ≤ later) :
    Kept env later cache attempts failures notes :=
  { h with timely := h.timely.mono hle }

theorem touch (h : Kept env now cache attempts failures notes) {issuer : JsText}
    {entry : DidCacheEntry} (hentry : cache.get? issuer = some entry) :
    Kept env now ((cache.erase issuer).set issuer entry) attempts failures notes where
  named other entry' hget := by
    rw [InsertionMap.get?_erase_set hentry] at hget
    exact h.named other entry' hget
  noted := h.noted
  cached other hsome := by
    rw [InsertionMap.get?_erase_set hentry]
    exact h.cached other hsome
  cooled := h.cooled
  timely := h.timely
  cacheBound := (InsertionMap.size_erase_set_le hentry).trans h.cacheBound
  failuresBound := h.failuresBound

theorem eraseFailure (h : Kept env now cache attempts failures notes) (issuer : JsText) :
    Kept env now cache attempts (failures.erase issuer) notes :=
  { h with failuresBound := (InsertionMap.size_filter_le _ _).trans h.failuresBound }

theorem rememberFailure (h : Kept env now cache attempts failures notes) (issuer : JsText)
    (retryAfter : ℤ) : Kept env now cache attempts
      (((failures.erase issuer).set issuer retryAfter).trimOldest env.maxCacheEntries) notes :=
  { h with failuresBound := InsertionMap.size_trimOldest_le _ _ }

/-- A refresh whose cooldown is over is noted. -/
theorem refresh (h : Kept env now cache attempts failures notes) {issuer : JsText}
    (hcached : (cache.get? issuer).isSome)
    (hover : ∀ last, attempts.get? issuer = some last → env.refreshCooldownMs ≤ now - last) :
    Kept env now cache (attempts.set issuer now) failures (.refreshed issuer now :: notes) where
  named := h.named
  noted other := by
    rw [InsertionMap.get?_set, lastRefresh, h.noted]
  cached other hsome := by
    rw [InsertionMap.get?_set] at hsome
    split at hsome
    · rename_i heq
      exact heq ▸ hcached
    · exact h.cached other hsome
  cooled := ⟨fun last hlast => hover last ((h.noted issuer).trans hlast), h.cooled⟩
  timely := ⟨le_rfl, h.timely⟩
  cacheBound := h.cacheBound
  failuresBound := h.failuresBound

theorem lastRefresh_evicted (issuer : JsText) (dropped : List JsText) (notes : List DidNote) :
    lastRefresh issuer (dropped.map .evicted ++ notes) =
      if issuer ∈ dropped then none else lastRefresh issuer notes := by
  induction dropped with
  | nil => simp
  | cons other dropped ih =>
      rw [List.map_cons, List.cons_append, lastRefresh, ih]
      by_cases hother : other = issuer
      · simp [hother]
      · simp [hother, Ne.symm hother]

theorem cooled_evicted {cooldown now : ℤ} (dropped : List JsText) {notes : List DidNote}
    (hcooled : Cooled cooldown notes) (htimely : Timely now notes) :
    Cooled cooldown (dropped.map .evicted ++ notes) ∧
      Timely now (dropped.map .evicted ++ notes) := by
  induction dropped with
  | nil => exact ⟨hcooled, htimely⟩
  | cons issuer dropped ih => exact ih

/-- A loaded document is cached, and the oldest entries make room for it. -/
theorem remember (h : Kept env now cache attempts failures notes) {issuer : JsText}
    {entry : DidCacheEntry} (hnamed : documentId entry.document = some issuer)
    {dropped : List JsText}
    (hdropped : dropped =
      (cache.set issuer entry).keys.take ((cache.set issuer entry).size - env.maxCacheEntries)) :
    Kept env now ((cache.set issuer entry).trimOldest env.maxCacheEntries)
      (attempts.filter fun issuer _ => issuer ∉ dropped)
      (failures.filter fun issuer _ => issuer ∉ dropped)
      (dropped.reverse.map .evicted ++ notes) where
  named other entry' hget := by
    have hget := InsertionMap.get?_of_get?_trimOldest hget
    rw [InsertionMap.get?_set] at hget
    split at hget
    · rename_i heq
      obtain rfl := Option.some.inj hget
      exact heq ▸ hnamed
    · exact h.named other entry' hget
  noted other := by
    rw [InsertionMap.get?_filter, lastRefresh_evicted, h.noted]
    by_cases hmem : other ∈ dropped
    · cases lastRefresh other notes <;> simp [hmem, Option.filter]
    · cases lastRefresh other notes <;> simp [hmem, Option.filter]
  cached other hsome := by
    rw [InsertionMap.get?_filter] at hsome
    obtain ⟨time, htime⟩ := Option.isSome_iff_exists.mp hsome
    obtain ⟨htime, hkept⟩ := Option.filter_eq_some_iff.mp htime
    have hmem : other ∈ (cache.set issuer entry).keys := by
      rw [InsertionMap.mem_keys_iff, InsertionMap.get?_set]
      split
      · rfl
      · exact h.cached other (by rw [htime]; rfl)
    rw [← InsertionMap.mem_keys_iff]
    rw [← InsertionMap.keys_eq_take_append env.maxCacheEntries, ← hdropped] at hmem
    exact (List.mem_append.mp hmem).resolve_left (of_decide_eq_true hkept)
  cooled := (cooled_evicted _ h.cooled h.timely).1
  timely := (cooled_evicted _ h.cooled h.timely).2
  cacheBound := InsertionMap.size_trimOldest_le _ _
  failuresBound := (InsertionMap.size_filter_le _ _).trans h.failuresBound

end Kept

/-! ## The loads -/

/-- Loads are added, and the outcome of one that has settled stays. -/
def LoadsExtend (loads loads' : List DidLoad) : Prop :=
  ∀ (n : ℕ) (load : DidLoad), loads[n]? = some load → ∃ load' : DidLoad, loads'[n]? = some load' ∧
    load'.issuer = load.issuer ∧
      ∀ outcome, load.phase = .settled outcome → load'.phase = .settled outcome

theorem CallSpec.mono {loads loads' : List DidLoad} (hextend : LoadsExtend loads loads')
    {call : DidCall} (h : CallSpec loads call) : CallSpec loads' call := by
  unfold CallSpec at h ⊢
  split at h
  · exact h
  · obtain ⟨load, hload, hissuer, houtcome⟩ := h
    obtain ⟨load', hload', hissuer', hsettled⟩ := hextend _ load hload
    exact ⟨load', hload', hissuer'.trans hissuer, fun outcome ho => hsettled _ (houtcome _ ho)⟩
  · exact h

theorem loadsExtend_append (loads : List DidLoad) (load : DidLoad) :
    LoadsExtend loads (loads ++ [load]) := by
  intro n load' hload
  obtain ⟨hn, -⟩ := List.getElem?_eq_some_iff.mp hload
  exact ⟨load', by rw [List.getElem?_append_left hn, hload], rfl, fun _ h => h⟩

theorem loadsExtend_set {loads : List DidLoad} {n : ℕ} {load next : DidLoad}
    (hload : loads[n]? = some load) (hissuer : next.issuer = load.issuer)
    (hphase : ∀ outcome, load.phase = .settled outcome → next.phase = .settled outcome) :
    LoadsExtend loads (loads.set n next) := by
  intro m other hother
  by_cases h : n = m
  · subst h
    rw [hload] at hother
    obtain rfl := Option.some.inj hother
    obtain ⟨hn, -⟩ := List.getElem?_eq_some_iff.mp hload
    exact ⟨next, List.getElem?_set_self hn, hissuer, hphase⟩
  · exact ⟨other, by rw [List.getElem?_set_ne h, hother], rfl, fun _ h => h⟩

namespace Loading

variable {loads : List DidLoad} {inFlight : InsertionMap JsText ℕ}

/-- A load goes on. -/
theorem set (h : Loading loads inFlight) {n : ℕ} {load next : DidLoad}
    (hload : loads[n]? = some load) (hissuer : next.issuer = load.issuer)
    (hopen : next.phase.isSettled = false → load.phase.isSettled = false)
    (hnamed : ∀ doc, next.phase = .settled (.ok doc) → documentId doc = some next.issuer) :
    Loading (loads.set n next) inFlight := by
  obtain ⟨hn, -⟩ := List.getElem?_eq_some_iff.mp hload
  have hset : ∀ m other, (loads.set n next)[m]? = some other →
      m = n ∧ other = next ∨ loads[m]? = some other := by
    intro m other hother
    by_cases hm : n = m
    · subst hm
      rw [List.getElem?_set_self hn] at hother
      exact .inl ⟨rfl, (Option.some.inj hother).symm⟩
    · rw [List.getElem?_set_ne hm] at hother
      exact .inr hother
  refine ⟨fun m other doc hother hphase => ?_, fun m other hother hunsettled => ?_,
    fun issuer m hm => ?_⟩
  · rcases hset m other hother with ⟨-, rfl⟩ | hother
    · exact hnamed doc hphase
    · exact h.named m other doc hother hphase
  · rcases hset m other hother with ⟨rfl, rfl⟩ | hother
    · rw [hissuer]
      exact h.flying m load hload (hopen hunsettled)
    · exact h.flying m other hother hunsettled
  · obtain ⟨other, hother, hname⟩ := h.known issuer m hm
    by_cases hmn : n = m
    · subst hmn
      rw [hload] at hother
      obtain rfl := Option.some.inj hother
      exact ⟨next, List.getElem?_set_self hn, hissuer.trans hname⟩
    · exact ⟨other, by rw [List.getElem?_set_ne hmn, hother], hname⟩

/-- A settled load leaves. -/
theorem land (h : Loading loads inFlight) {n : ℕ} {load : DidLoad} (hload : loads[n]? = some load)
    (hsettled : load.phase.isSettled = true) (hn : inFlight.get? load.issuer = some n) :
    Loading loads (inFlight.erase load.issuer) := by
  refine ⟨h.named, fun m other hother hunsettled => ?_, fun issuer m hm => ?_⟩
  · have hm := h.flying m other hother hunsettled
    have hne : load.issuer ≠ other.issuer := by
      intro heq
      rw [← heq, hn] at hm
      obtain rfl := Option.some.inj hm
      rw [hload] at hother
      obtain rfl := Option.some.inj hother
      rw [hsettled] at hunsettled
      contradiction
    rwa [InsertionMap.get?_erase_of_ne _ hne]
  · rw [InsertionMap.get?_erase] at hm
    split at hm
    · contradiction
    · exact h.known issuer m hm

/-- A load begins where none is in flight. -/
theorem start (h : Loading loads inFlight) {issuer : JsText} (hidle : inFlight.get? issuer = none)
    {phase : DidLoadPhase} (hphase : ∀ doc, phase ≠ .settled (.ok doc)) :
    Loading (loads ++ [⟨issuer, phase, false⟩]) (inFlight.set issuer loads.length) := by
  have happend : ∀ (m : ℕ) (other : DidLoad),
      (loads ++ [(⟨issuer, phase, false⟩ : DidLoad)])[m]? = some other →
        m = loads.length ∧ other = ⟨issuer, phase, false⟩ ∨ loads[m]? = some other := by
    intro m other hother
    rcases Nat.lt_trichotomy m loads.length with hlt | rfl | hgt
    · rw [List.getElem?_append_left hlt] at hother
      exact .inr hother
    · rw [List.getElem?_concat_length] at hother
      exact .inl ⟨rfl, (Option.some.inj hother).symm⟩
    · rw [List.getElem?_eq_none (by simp; omega)] at hother
      contradiction
  refine ⟨fun m other doc hother hdoc => ?_, fun m other hother hunsettled => ?_,
    fun name m hm => ?_⟩
  · rcases happend m other hother with ⟨-, rfl⟩ | hother
    · exact absurd hdoc (hphase doc)
    · exact h.named m other doc hother hdoc
  · rcases happend m other hother with ⟨rfl, rfl⟩ | hother
    · exact InsertionMap.get?_set_self _ _ _
    · have hm := h.flying m other hother hunsettled
      have hne : issuer ≠ other.issuer := by
        rintro rfl
        rw [hidle] at hm
        contradiction
      rwa [InsertionMap.get?_set_of_ne _ _ hne]
  · rw [InsertionMap.get?_set] at hm
    split at hm
    · rename_i heq
      obtain rfl := Option.some.inj hm
      exact ⟨_, List.getElem?_concat_length, heq⟩
    · obtain ⟨load, hload, hname⟩ := h.known name m hm
      obtain ⟨hlt, -⟩ := List.getElem?_eq_some_iff.mp hload
      exact ⟨load, by rw [List.getElem?_append_left hlt, hload], hname⟩

end Loading

/-! ## The calls -/

namespace ResolverInvariant

open SafeDidWebResolver

variable {env : DidResolverEnv} {s : SafeDidWebResolver}

theorem addCall (h : ResolverInvariant env s) {call : DidCall} (hspec : CallSpec s.loads call)
    (hshared : SharedCall call) : ResolverInvariant env (s.addCall call) where
  kept := h.kept
  loading := h.loading
  calls other hmem := by
    rcases List.mem_append.mp hmem with hmem | hmem
    · exact h.calls other hmem
    · rw [List.mem_singleton.mp hmem]
      exact ⟨hspec, hshared⟩

theorem setLoad (h : ResolverInvariant env s) {n : ℕ} {load next : DidLoad}
    (hload : s.loads[n]? = some load) (hissuer : next.issuer = load.issuer)
    (hphase : ∀ outcome, load.phase = .settled outcome → next.phase = .settled outcome)
    (hnamed : ∀ doc, next.phase = .settled (.ok doc) → documentId doc = some next.issuer) :
    ResolverInvariant env (s.setLoad n next) where
  kept := h.kept
  loading := by
    refine h.loading.set hload hissuer (fun hopen => ?_) hnamed
    cases hcase : load.phase with
    | settled outcome =>
        rw [hphase outcome hcase] at hopen
        contradiction
    | resolving | requesting => rfl
  calls call hmem :=
    ⟨(h.calls call hmem).1.mono (loadsExtend_set hload hissuer hphase), (h.calls call hmem).2⟩

theorem fresh_spec {issuer : JsText} {entry : DidCacheEntry} (h : s.fresh issuer = some entry) :
    s.cache.get? issuer = some entry ∧ s.now < entry.expiresAt := by
  obtain ⟨hget, hfresh⟩ := Option.filter_eq_some_iff.mp h
  exact ⟨hget, of_decide_eq_true hfresh⟩

/-- The load that is under way is the one in flight. -/
theorem underWay_flying (h : ResolverInvariant env s) {issuer : JsText} {n : ℕ}
    (hn : s.underWay issuer = some n) : s.inFlight.get? issuer = some n := by
  obtain ⟨hlt, hload, -⟩ := List.findIdx?_eq_some_iff_getElem.mp hn
  simp only [Bool.and_eq_true, decide_eq_true_eq, Bool.not_eq_true'] at hload
  have hflying := h.loading.flying n s.loads[n] (List.getElem?_eq_getElem hlt) hload.2
  rwa [hload.1] at hflying

theorem serveCached (h : ResolverInvariant env s) {issuer : JsText} {refresh : Bool}
    {entry : DidCacheEntry} (hentry : s.fresh issuer = some entry)
    (hshared : refresh = true → s.inFlight.get? issuer = none) :
    ResolverInvariant env (s.serveCached issuer refresh entry) := by
  obtain ⟨hget, hfresh⟩ := fresh_spec hentry
  refine h.addCall ⟨hfresh, h.kept.named issuer entry hget, rfl⟩ fun n hn => .inr ⟨?_, entry, rfl⟩
  by_contra hrefresh
  have hflying := h.underWay_flying hn
  rw [hshared (Bool.eq_true_of_not_eq_false hrefresh)] at hflying
  contradiction

theorem beginLoad_ne_ok (env : DidResolverEnv) (issuer : JsText) (doc : JsonObject) :
    beginLoad env issuer ≠ .settled (.ok doc) := by
  unfold beginLoad
  split
  · simp
  · split <;> simp

theorem afterAddresses_ne_ok (env : DidResolverEnv) (url : Url) (addresses : List (List Char))
    (doc : JsonObject) : afterAddresses env url addresses ≠ .settled (.ok doc) := by
  unfold afterAddresses
  split
  · simp
  · split <;> simp

theorem checkDocument_ok {issuer : JsText} {raw : Json} {doc : JsonObject}
    (h : checkDocument issuer raw = .ok doc) : documentId doc = some issuer := by
  unfold checkDocument at h
  split at h
  · split at h
    · contradiction
    · rename_i hid
      split at h
      · contradiction
      · obtain rfl := Except.ok.inj h
        exact not_not.mp hid
  · contradiction

theorem startLoad (h : ResolverInvariant env s) {issuer : JsText} (refresh : Bool)
    (hidle : s.inFlight.get? issuer = none) :
    ResolverInvariant env (s.startLoad env issuer refresh) where
  kept := h.kept
  loading := h.loading.start hidle (beginLoad_ne_ok env issuer)
  calls call hmem := by
    rcases List.mem_append.mp hmem with hmem | hmem
    · exact ⟨(h.calls call hmem).1.mono (loadsExtend_append _ _), (h.calls call hmem).2⟩
    · rw [List.mem_singleton.mp hmem]
      refine ⟨⟨_, List.getElem?_concat_length, rfl, nofun⟩, fun n hn => ?_⟩
      have hflying := h.underWay_flying hn
      rw [hidle] at hflying
      contradiction

theorem resolveAnew (h : ResolverInvariant env s) {issuer : JsText} (refresh : Bool)
    (hidle : s.inFlight.get? issuer = none) :
    ResolverInvariant env (s.resolveAnew env issuer refresh) := by
  unfold SafeDidWebResolver.resolveAnew
  split
  · exact h.startLoad refresh hidle
  · rename_i entry hentry
    have hfresh : s.fresh issuer = some entry := by
      split at hentry
      · exact hentry
      · contradiction
    split
    · exact h.serveCached hfresh fun _ => hidle
    · rename_i hover
      have hcooled : ∀ last, s.lastRefreshAttempt.get? issuer = some last →
          env.refreshCooldownMs ≤ s.now - last := by
        intro last hlast
        rw [hlast] at hover
        simpa using hover
      have hcached : (s.cache.get? issuer).isSome := by
        rw [(fresh_spec hfresh).1]
        rfl
      have hnoted : ResolverInvariant env { s with
          lastRefreshAttempt := s.lastRefreshAttempt.set issuer s.now
          notes := .refreshed issuer s.now :: s.notes } :=
        ⟨h.kept.refresh hcached hcooled, h.loading, h.calls⟩
      exact hnoted.startLoad refresh hidle

theorem resolve (h : ResolverInvariant env s) (issuer : JsText) (refresh : Bool) :
    ResolverInvariant env (s.resolve env issuer refresh) := by
  unfold SafeDidWebResolver.resolve
  split
  · rename_i entry hentry
    have hplain : refresh = false ∧ s.fresh issuer = some entry := by
      split at hentry
      · contradiction
      · rename_i hrefresh
        exact ⟨(Bool.not_eq_true refresh).mp hrefresh, hentry⟩
    obtain ⟨hget, hfresh⟩ := fresh_spec hplain.2
    have htouched : ResolverInvariant env
        { s with cache := (s.cache.erase issuer).set issuer entry } :=
      ⟨h.kept.touch hget, h.loading, h.calls⟩
    refine htouched.serveCached ?_ fun hrefresh => ?_
    · refine Option.filter_eq_some_iff.mpr ⟨InsertionMap.get?_set_self _ _ _, ?_⟩
      exact decide_eq_true hfresh
    · rw [hplain.1] at hrefresh
      contradiction
  · split
    · rename_i n hflying
      obtain ⟨load, hload, hname⟩ := h.loading.known issuer n hflying
      refine h.addCall ⟨load, hload, hname, nofun⟩ fun m hm => .inl ⟨false, ?_⟩
      have hm := h.underWay_flying hm
      rw [hflying] at hm
      obtain rfl := Option.some.inj hm
      rfl
    · rename_i hidle
      split
      · exact h.resolveAnew refresh hidle
      · split
        · refine h.addCall ⟨_, rfl⟩ fun n hn => ?_
          have hflying := h.underWay_flying hn
          rw [hidle] at hflying
          contradiction
        · have herased : ResolverInvariant env { s with failures := s.failures.erase issuer } :=
            ⟨h.kept.eraseFailure issuer, h.loading, h.calls⟩
          exact herased.resolveAnew refresh hidle

/-! ## The steps -/

theorem remember (h : ResolverInvariant env s) {issuer : JsText} {doc : JsonObject}
    (hnamed : documentId doc = some issuer) :
    ResolverInvariant env (s.remember env issuer doc) where
  kept := h.kept.remember hnamed rfl
  loading := h.loading
  calls := h.calls

theorem onDocument (h : ResolverInvariant env s) {n : ℕ} {load : DidLoad}
    (hload : s.loads[n]? = some load) (hopen : load.phase.isSettled = false) (raw : Json) :
    ResolverInvariant env (s.onDocument env n load raw) := by
  have hphase : ∀ outcome, load.phase = .settled outcome →
      DidLoadPhase.settled (checkDocument load.issuer raw) = .settled outcome := by
    intro outcome houtcome
    rw [houtcome] at hopen
    contradiction
  have hnamed : ∀ doc, DidLoadPhase.settled (checkDocument load.issuer raw) = .settled (.ok doc) →
      documentId doc = some load.issuer := fun doc hdoc =>
    checkDocument_ok (DidLoadPhase.settled.inj hdoc)
  have hset : ResolverInvariant env
      (s.setLoad n { load with phase := .settled (checkDocument load.issuer raw) }) :=
    h.setLoad hload rfl hphase hnamed
  unfold SafeDidWebResolver.onDocument
  dsimp only
  split
  · rename_i doc hdoc
    exact hset.remember (checkDocument_ok hdoc)
  · exact hset

theorem finish (h : ResolverInvariant env s) {n : ℕ} {load : DidLoad}
    {outcome : Except DidWebError JsonObject} (hload : s.loads[n]? = some load)
    (hsettled : load.phase = .settled outcome) :
    ResolverInvariant env (s.finish env n load outcome) := by
  have hland : ∀ t : SafeDidWebResolver, ResolverInvariant env t → t.loads[n]? = some load →
      ResolverInvariant env ((if t.inFlight.get? load.issuer = some n then
        { t with inFlight := t.inFlight.erase load.issuer } else t).setLoad n
          { load with finished := true }) := by
    intro t ht hload
    have hnamed : ∀ doc, load.phase = .settled (.ok doc) → documentId doc = some load.issuer :=
      fun doc => ht.loading.named n load doc hload
    split
    · rename_i hn
      have hlanded : ResolverInvariant env { t with inFlight := t.inFlight.erase load.issuer } :=
        ⟨ht.kept, ht.loading.land hload (by rw [hsettled]; rfl) hn, ht.calls⟩
      exact hlanded.setLoad hload rfl (fun _ h => h) hnamed
    · exact ht.setLoad hload rfl (fun _ h => h) hnamed
  cases outcome with
  | ok doc => exact hland _ ⟨h.kept.eraseFailure _, h.loading, h.calls⟩ hload
  | error error => exact hland _ ⟨h.kept.rememberFailure _ _, h.loading, h.calls⟩ hload

theorem deliver (h : ResolverInvariant env s) {c n : ℕ} {owner : Bool} {call : DidCall}
    {load : DidLoad} {outcome : Except DidWebError JsonObject} (hcall : s.calls[c]? = some call)
    (hsource : call.source = .load n owner) (hload : s.loads[n]? = some load)
    (hsettled : load.phase = .settled outcome) :
    ResolverInvariant env
      { s with calls := s.calls.set c { call with outcome := some outcome } } where
  kept := h.kept
  loading := h.loading
  calls other hmem := by
    rcases List.mem_or_eq_of_mem_set hmem with hmem | rfl
    · exact h.calls other hmem
    · obtain ⟨hspec, hshared⟩ := h.calls call (List.mem_of_getElem? hcall)
      refine ⟨?_, hshared⟩
      unfold CallSpec at hspec ⊢
      rw [hsource] at hspec
      obtain ⟨load', hload', hname, -⟩ := hspec
      rw [hload] at hload'
      obtain rfl := Option.some.inj hload'
      dsimp only
      rw [hsource]
      exact ⟨load, hload, hname, fun o ho => by rw [hsettled, Option.some.inj ho]⟩

theorem init (env : DidResolverEnv) (now : ℤ) : ResolverInvariant env { now := now } where
  kept := {
    named := nofun
    noted := fun _ => rfl
    cached := nofun
    cooled := trivial
    timely := trivial
    cacheBound := Nat.zero_le _
    failuresBound := Nat.zero_le _ }
  loading := ⟨nofun, nofun, nofun⟩
  calls := nofun

theorem step (h : ResolverInvariant env s) {event : DidWebEvent} (henabled : s.enabled event) :
    ResolverInvariant env (s.apply env event) := by
  cases event with
  | tick time => exact ⟨h.kept.tick henabled, h.loading, h.calls⟩
  | resolve issuer refresh => exact h.resolve issuer refresh
  | addresses n addresses =>
      dsimp only [SafeDidWebResolver.apply]
      split
      · rename_i issuer url finished hload
        exact h.setLoad hload rfl nofun fun doc hdoc =>
          absurd hdoc (afterAddresses_ne_ok env url addresses doc)
      · exact h
  | document n raw =>
      dsimp only [SafeDidWebResolver.apply]
      split
      · rename_i hload
        exact h.onDocument hload rfl raw
      · exact h
  | fails n error =>
      dsimp only [SafeDidWebResolver.apply]
      split
      · rename_i hload
        split
        · exact h
        · rename_i hopen
          refine h.setLoad hload rfl (fun outcome houtcome => ?_) nofun
          dsimp only at houtcome
          rw [houtcome] at hopen
          exact absurd rfl hopen
      · exact h
  | finish n =>
      dsimp only [SafeDidWebResolver.apply]
      split
      · rename_i hload
        exact h.finish hload rfl
      · exact h
  | deliver c =>
      dsimp only [SafeDidWebResolver.apply]
      split
      · rename_i hcall
        split
        · rename_i hload
          split
          · exact h
          · exact h.deliver hcall rfl hload rfl
        · exact h
      · exact h

theorem of_reachable (h : (didResolverSystem env).Reachable s) : ResolverInvariant env s := by
  refine h.invariant ?_ ?_
  · rintro _ ⟨now, rfl⟩
    exact init env now
  · rintro s event _ hinv ⟨henabled, rfl⟩
    exact hinv.step henabled

end ResolverInvariant

/-! ## The cache from step to step -/

namespace SafeDidWebResolver

variable {env : DidResolverEnv} {s : SafeDidWebResolver}

theorem cache_resolveAnew (issuer : JsText) (refresh : Bool) :
    (s.resolveAnew env issuer refresh).cache = s.cache := by
  unfold resolveAnew
  split
  · rfl
  · split <;> rfl

theorem cache_finish (n : ℕ) (load : DidLoad) (outcome : Except DidWebError JsonObject) :
    (s.finish env n load outcome).cache = s.cache := by
  unfold finish
  cases outcome <;> dsimp only [setLoad] <;> split <;> rfl

theorem get?_resolve {issuer other : JsText} (refresh : Bool) {entry : DidCacheEntry}
    (hget : s.cache.get? other = some entry) :
    (s.resolve env issuer refresh).cache.get? other = some entry := by
  unfold resolve
  split
  · rename_i found hfound
    have hfresh : s.fresh issuer = some found := by
      split at hfound
      · contradiction
      · exact hfound
    obtain ⟨hcached, -⟩ := ResolverInvariant.fresh_spec hfresh
    exact (InsertionMap.get?_erase_set hcached other).trans hget
  · split
    · exact hget
    · split
      · rw [cache_resolveAnew]
        exact hget
      · split
        · exact hget
        · rw [cache_resolveAnew]
          exact hget

/-- A load that fails takes nothing out of the cache. -/
theorem keepsCached (env : DidResolverEnv) (s : SafeDidWebResolver) (event : DidWebEvent) :
    KeepsCached env s event := by
  intro other entry hget
  cases event with
  | tick time => exact .inl hget
  | resolve issuer refresh => exact .inl (get?_resolve refresh hget)
  | addresses n addresses =>
      refine .inl ?_
      dsimp only [apply]
      split <;> exact hget
  | document n raw =>
      dsimp only [apply]
      split
      · rename_i issuer url address finished hload
        cases hcheck : checkDocument issuer raw with
        | ok doc => exact .inr ⟨n, _, raw, doc, rfl, hload, hcheck⟩
        | error error =>
            refine .inl ?_
            dsimp only [onDocument]
            rw [hcheck]
            exact hget
      · exact .inl hget
  | fails n error =>
      refine .inl ?_
      dsimp only [apply]
      split
      · split <;> exact hget
      · exact hget
  | finish n =>
      refine .inl ?_
      dsimp only [apply]
      split
      · rw [cache_finish]
        exact hget
      · exact hget
  | deliver c =>
      refine .inl ?_
      dsimp only [apply]
      split
      · split
        · split <;> exact hget
        · exact hget
      · exact hget

end SafeDidWebResolver

/-! ## Every run -/

theorem didResolver_discipline (env : DidResolverEnv) (s : SafeDidWebResolver)
    (h : (didResolverSystem env).Reachable s) :
    ResolverSpec env s ∧ ∀ event, KeepsCached env s event :=
  ⟨(ResolverInvariant.of_reachable h).spec, SafeDidWebResolver.keepsCached env s⟩

/-! ### A cache of one entry -/

def smallCache : DidResolverEnv where
  hosts := DidWeb.sampleHosts
  isIP _ := 0
  isDisallowedIpAddress _ := false
  maxCacheEntries := 1

/-- A call that loads the document of a DID. -/
def loadEvents (did : String) (refresh : Bool) (n : ℕ) : List DidWebEvent :=
  [.resolve (JsText.ofAscii did) refresh, .addresses n ["8.8.8.8".toList],
    .document n (.obj [("id", .str did)]), .finish n, .deliver n]

/-- The refresh of one issuer, the document of another, and the refresh again. -/
def evictingEvents : List DidWebEvent :=
  loadEvents "did:web:issuer.example" false 0 ++ loadEvents "did:web:issuer.example" true 1 ++
    loadEvents "did:web:issuer.example:other" false 2 ++
    loadEvents "did:web:issuer.example" false 3 ++ loadEvents "did:web:issuer.example" true 4

def evicted : SafeDidWebResolver :=
  evictingEvents.foldl (SafeDidWebResolver.apply smallCache) { now := 0 }

theorem evicted_reachable : (didResolverSystem smallCache).Reachable evicted := by
  refine System.Legal.reachable ?_ (System.Reachable.of_init ⟨0, rfl⟩)
  decide +kernel

theorem didResolver_discipline_evicted :
    ResolverSpec smallCache evicted ∧ ∀ event, KeepsCached smallCache evicted event :=
  didResolver_discipline smallCache evicted evicted_reachable

/-- Where the entry has been evicted in between, the refresh starts again at once. -/
theorem didResolver_cooldown_fails :
    ¬ ∀ (env : DidResolverEnv) (s : SafeDidWebResolver), (didResolverSystem env).Reachable s →
      ∀ issuer time time' after between before,
        s.notes = after ++ .refreshed issuer time' ::
          (between ++ .refreshed issuer time :: before) →
            env.refreshCooldownMs ≤ time' - time := by
  intro h
  have hnotes : evicted.notes =
      [.refreshed (JsText.ofAscii "did:web:issuer.example") 0,
        .evicted (JsText.ofAscii "did:web:issuer.example:other"),
        .evicted (JsText.ofAscii "did:web:issuer.example"),
        .refreshed (JsText.ofAscii "did:web:issuer.example") 0] := by
    decide +kernel
  exact absurd (h smallCache evicted evicted_reachable _ 0 0 [] [_, _] [] hnotes) (by decide)

end VicoopBridge
