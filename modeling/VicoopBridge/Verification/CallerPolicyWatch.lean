import VicoopBridge.Library.Transition
import VicoopBridge.Model.CallerPolicyWatch

/-! # Cached policy against the row

Copies of a row are stored in an order of their own. A connection ends up with the row as it
is, as long as no copy that is out of date is stored last. -/

namespace VicoopBridge

open Library

def policySystem {π : Type} [DecidableEq π] (servers : List ℕ)
    (parseX402Pricing : Option Json → Option π) : System (PolicyWatch π) (PolicyAction π) :=
  .ofApply (fun s => ∃ rows, s = { rows := rows }) (PolicyWatch.enabled servers)
    (PolicyWatch.apply servers parseX402Pricing)

namespace PolicyWatch

variable {π : Type} {servers : List ℕ} {parseX402Pricing : Option Json → Option π}
  {s t : PolicyWatch π}

/-! ## What is still to come -/

/-- The instance is going to read the column of the agent again. -/
def Pending (s : PolicyWatch π) (server : ℕ) (agentId : String) (channel : WatchChannel) : Prop :=
  (∃ w ∈ s.writes, w.notifies = true ∧ w.agentId = agentId ∧ w.copy.channel = channel) ∨
    (∃ n ∈ s.notifications, n.server = server ∧ n.agentId = agentId ∧ n.channel = channel) ∨
    ∃ r ∈ s.refreshes, r.server = server ∧ r.agentId = agentId ∧ r.channel = channel

/-- The copy is the column of the row as it is. -/
def Current (parseX402Pricing : Option Json → Option π) (s : PolicyWatch π) (agentId : String)
    (copy : PolicyCopy π) : Prop :=
  copy = ((s.rows agentId).policy parseX402Pricing).column copy.channel

/-- The copy may be stored with the instance: it is up to date or not the last one. -/
def Timely (parseX402Pricing : Option Json → Option π) (s : PolicyWatch π) (server : ℕ)
    (agentId : String) (copy : PolicyCopy π) : Prop :=
  s.Current parseX402Pricing agentId copy ∨ s.Pending server agentId copy.channel

/-- No connection has a column that stays out of date. -/
def AllTimely (parseX402Pricing : Option Json → Option π) (s : PolicyWatch π) : Prop :=
  ∀ server agentId policy channel, s.agents server agentId = some policy →
    s.Timely parseX402Pricing server agentId (policy.column channel)

/-- The step stores no copy that stays out of date. A refresh does not wait for itself. -/
def KeepsUp [DecidableEq π] (parseX402Pricing : Option Json → Option π) (s : PolicyWatch π) :
    PolicyAction π → Prop
  | .updateRegistry w => w.notifies = true ∨ (s.agents w.server w.agentId).isNone ∨
      s.Timely parseX402Pricing w.server w.agentId w.copy
  | .refreshed r copy => (s.agents r.server r.agentId).isNone ∨
      { s with refreshes := s.refreshes.erase r }.Timely parseX402Pricing r.server r.agentId copy
  | .register g => ∀ channel,
      s.Timely parseX402Pricing g.server g.agentId (g.policy.column channel)
  | _ => True

instance decidablePending (server : ℕ) (agentId : String) (channel : WatchChannel) :
    Decidable (s.Pending server agentId channel) :=
  inferInstanceAs (Decidable ((∃ w ∈ s.writes, _) ∨ (∃ n ∈ s.notifications, _) ∨
    ∃ r ∈ s.refreshes, _))

instance decidableTimely [DecidableEq π] (server : ℕ) (agentId : String) (copy : PolicyCopy π) :
    Decidable (s.Timely parseX402Pricing server agentId copy) :=
  inferInstanceAs (Decidable (copy = _ ∨ s.Pending server agentId copy.channel))

instance decidableKeepsUp [DecidableEq π] : ∀ a, Decidable (s.KeepsUp parseX402Pricing a)
  | .updateRegistry w => inferInstanceAs (Decidable (w.notifies = true ∨
      (s.agents w.server w.agentId).isNone ∨
      s.Timely parseX402Pricing w.server w.agentId w.copy))
  | .refreshed r copy => inferInstanceAs (Decidable ((s.agents r.server r.agentId).isNone ∨
      { s with refreshes := s.refreshes.erase r }.Timely parseX402Pricing r.server r.agentId copy))
  | .register g => decidable_of_iff
      (s.Timely parseX402Pricing g.server g.agentId (g.policy.column .callerPolicyChanged) ∧
        s.Timely parseX402Pricing g.server g.agentId (g.policy.column .x402PricingChanged))
      ⟨fun h channel => by cases channel; exacts [h.1, h.2], fun h => ⟨h _, h _⟩⟩
  | .addCaller .. | .removeCaller .. | .readCallers .. | .setX402Pricing .. | .clearX402Pricing ..
  | .notify _ | .deliver _ | .query _ | .readRow .. | .reject _ | .unregister .. => isTrue trivial

/-! ## The invariant -/

theorem channel_column (policy : CachedPolicy π) (channel : WatchChannel) :
    (policy.column channel).channel = channel := by
  cases channel <;> rfl

theorem column_store_self (policy : CachedPolicy π) (copy : PolicyCopy π) :
    (policy.store copy).column copy.channel = copy := by
  cases copy <;> rfl

theorem column_store_of_ne (policy : CachedPolicy π) {copy : PolicyCopy π} {channel : WatchChannel}
    (h : channel ≠ copy.channel) : (policy.store copy).column channel = policy.column channel := by
  cases copy <;> cases channel <;> first | rfl | exact absurd rfl h

theorem eq_of_column {policy policy' : CachedPolicy π}
    (h : ∀ channel, policy.column channel = policy'.column channel) : policy = policy' := by
  have hcallers := h .callerPolicyChanged
  have hpricing := h .x402PricingChanged
  cases policy
  cases policy'
  simp_all [CachedPolicy.column]

/-- A connection with a column that differs from the row is going to read it again. -/
structure Invariant (servers : List ℕ) (parseX402Pricing : Option Json → Option π)
    (s : PolicyWatch π) : Prop where
  listening : ∀ server agentId, (s.agents server agentId).isSome → server ∈ servers
  registering : ∀ g ∈ s.registrations, g.server ∈ servers
  timely : ∀ server agentId policy channel, s.agents server agentId = some policy →
    s.Timely parseX402Pricing server agentId (policy.column channel)
  refreshing : ∀ r ∈ s.refreshes, ∀ copy ∈ r.result, copy.channel = r.channel

theorem store_agents (server : ℕ) (agentId : String) (copy : PolicyCopy π) (server' : ℕ)
    (agentId' : String) :
    (s.store server agentId copy).agents server' agentId' =
      if server' = server ∧ agentId' = agentId then
        (s.agents server agentId).map (CachedPolicy.store · copy)
      else s.agents server' agentId' := by
  by_cases hserver : server' = server
  · subst hserver
    by_cases hagent : agentId' = agentId <;> simp [store, hagent]
  · simp [store, hserver]

theorem Pending.mono {server : ℕ} {agentId : String} {channel : WatchChannel}
    (h : s.Pending server agentId channel)
    (hwrites : ∀ w ∈ s.writes, w.notifies = true → w.agentId = agentId → w.copy.channel = channel →
      t.Pending server agentId channel)
    (hnotifications : ∀ n ∈ s.notifications, n.server = server → n.agentId = agentId →
      n.channel = channel → t.Pending server agentId channel)
    (hrefreshes : ∀ r ∈ s.refreshes, r.server = server → r.agentId = agentId →
      r.channel = channel → t.Pending server agentId channel) : t.Pending server agentId channel := by
  obtain ⟨w, hw, hnotifies, hagent, hchannel⟩ | ⟨n, hn, hserver, hagent, hchannel⟩ |
    ⟨r, hr, hserver, hagent, hchannel⟩ := h
  · exact hwrites w hw hnotifies hagent hchannel
  · exact hnotifications n hn hserver hagent hchannel
  · exact hrefreshes r hr hserver hagent hchannel

theorem Pending.of_write {server : ℕ} {w : PolicyWrite π} (hw : w ∈ s.writes)
    (hnotifies : w.notifies = true) : s.Pending server w.agentId w.copy.channel :=
  .inl ⟨w, hw, hnotifies, rfl, rfl⟩

/-- The rows and the connections are as before, and so is all that is still to come. -/
theorem Invariant.same (inv : s.Invariant servers parseX402Pricing) (hrows : t.rows = s.rows)
    (hagents : t.agents = s.agents)
    (hpending : ∀ server agentId channel, (s.agents server agentId).isSome →
      s.Pending server agentId channel → t.Pending server agentId channel)
    (hregistrations : ∀ g ∈ t.registrations, g ∈ s.registrations ∨ g.server ∈ servers)
    (hrefreshes : ∀ r ∈ t.refreshes, r ∈ s.refreshes ∨
      ∀ copy ∈ r.result, copy.channel = r.channel) :
    t.Invariant servers parseX402Pricing where
  listening server agentId h := inv.listening server agentId (hagents ▸ h)
  registering g hg := (hregistrations g hg).elim (inv.registering g) id
  refreshing r hr := (hrefreshes r hr).elim (inv.refreshing r) id
  timely server agentId policy channel h := by
    rw [hagents] at h
    obtain hcurrent | hpends := inv.timely server agentId policy channel h
    · refine .inl ?_
      rw [Current, hrows]
      exact hcurrent
    · exact .inr (hpending server agentId _ (by simp [h]) hpends)

/-- A timely copy is stored. -/
theorem Invariant.store (inv : s.Invariant servers parseX402Pricing) {server : ℕ}
    {agentId : String} {copy : PolicyCopy π} (htimely : (s.agents server agentId).isSome →
      s.Timely parseX402Pricing server agentId copy) :
    (s.store server agentId copy).Invariant servers parseX402Pricing := by
  have hagents := store_agents (s := s) server agentId copy
  constructor
  case registering => exact inv.registering
  case refreshing => exact inv.refreshing
  case listening =>
      intro server' agentId' h
      rw [hagents] at h
      split at h
      · rename_i heq
        rw [heq.1]
        exact inv.listening server agentId (by simpa using h)
      · exact inv.listening server' agentId' h
  case timely =>
      intro server' agentId' policy channel h
      rw [hagents] at h
      split at h
      · rename_i heq
        obtain ⟨rfl, rfl⟩ := heq
        obtain ⟨policy, hpolicy, rfl⟩ := Option.map_eq_some_iff.mp h
        by_cases hchannel : channel = copy.channel
        · subst hchannel
          rw [column_store_self]
          exact htimely (by simp [hpolicy])
        · rw [column_store_of_ne policy hchannel]
          exact inv.timely server' agentId' policy channel hpolicy
      · exact inv.timely server' agentId' policy channel h

theorem AllTimely.timely_of_store {server : ℕ} {agentId : String} {copy : PolicyCopy π}
    (h : (s.store server agentId copy).AllTimely parseX402Pricing) :
    (s.agents server agentId).isNone ∨ s.Timely parseX402Pricing server agentId copy := by
  cases hagent : s.agents server agentId with
  | none => exact .inl rfl
  | some policy =>
      have hstored : (s.store server agentId copy).agents server agentId =
          some (policy.store copy) := by
        rw [store_agents, if_pos ⟨rfl, rfl⟩, hagent]
        rfl
      have htimely := h server agentId _ copy.channel hstored
      rw [column_store_self] at htimely
      exact .inr htimely

/-- A committed write is going to notify. -/
theorem Invariant.commit (inv : s.Invariant servers parseX402Pricing) {server : ℕ}
    {agentId : String} {row : PolicyRow} {copy : PolicyCopy π}
    (hrow : ∀ channel, channel ≠ copy.channel →
      (row.policy parseX402Pricing).column channel =
        ((s.rows agentId).policy parseX402Pricing).column channel) :
    (s.commit server agentId row copy).Invariant servers parseX402Pricing := by
  set t := s.commit server agentId row copy
  have hpending (server' : ℕ) (agentId' : String) (channel : WatchChannel)
      (h : s.Pending server' agentId' channel) : t.Pending server' agentId' channel :=
    h.mono (fun w hw hnotifies hagent hchannel =>
        .inl ⟨w, List.mem_append_left _ hw, hnotifies, hagent, hchannel⟩)
      (fun n hn hserver hagent hchannel => .inr (.inl ⟨n, hn, hserver, hagent, hchannel⟩))
      fun r hr hserver hagent hchannel => .inr (.inr ⟨r, hr, hserver, hagent, hchannel⟩)
  constructor
  case listening => exact inv.listening
  case registering => exact inv.registering
  case refreshing => exact inv.refreshing
  case timely =>
      intro server' agentId' policy channel h
      obtain hcurrent | hpends := inv.timely server' agentId' policy channel h
      rotate_left
      · exact .inr (hpending _ _ _ hpends)
      by_cases hagent : agentId' = agentId
      · subst hagent
        by_cases hchannel : channel = copy.channel
        · refine .inr (.inl ⟨_, List.mem_append_right _ (List.mem_singleton_self _), rfl, rfl, ?_⟩)
          rw [channel_column]
          exact hchannel.symm
        · refine .inl ?_
          rw [Current, channel_column] at hcurrent ⊢
          rw [hcurrent, ← hrow channel hchannel]
          simp [t, PolicyWatch.commit]
      · refine .inl ?_
        rw [Current, channel_column] at hcurrent ⊢
        rw [hcurrent]
        simp [t, PolicyWatch.commit, hagent]

theorem Invariant.commitCallers (inv : s.Invariant servers parseX402Pricing) (server : ℕ)
    (agentId : String) (callers : List String) :
    (s.commitCallers server agentId callers).Invariant servers parseX402Pricing := by
  refine inv.commit fun channel hchannel => ?_
  cases channel
  · exact absurd rfl hchannel
  · rfl

section Steps

variable [DecidableEq π]

/-- An admin call has updated its own registry. -/
theorem Invariant.updateRegistry (inv : s.Invariant servers parseX402Pricing)
    {w : PolicyWrite π} (hw : w ∈ s.writes)
    (hkeeps : w.notifies = true ∨ (s.agents w.server w.agentId).isNone ∨
      s.Timely parseX402Pricing w.server w.agentId w.copy) :
    (s.apply servers parseX402Pricing (.updateRegistry w)).Invariant servers parseX402Pricing := by
  set t : PolicyWatch π := { s with
    writes := s.writes.erase w ++ if w.notifies then [{ w with updated := true }] else [] } with ht
  have hpending (server' : ℕ) (agentId' : String) (channel : WatchChannel)
      (h : s.Pending server' agentId' channel) : t.Pending server' agentId' channel := by
    refine h.mono (fun w' hw' hnotifies hagent hchannel => .inl ?_)
      (fun n hn hserver hagent hchannel => .inr (.inl ⟨n, hn, hserver, hagent, hchannel⟩))
      fun r hr hserver hagent hchannel => .inr (.inr ⟨r, hr, hserver, hagent, hchannel⟩)
    by_cases heq : w' = w
    · subst heq
      refine ⟨{ w' with updated := true }, List.mem_append_right _ ?_, hnotifies, hagent, hchannel⟩
      rw [if_pos hnotifies]
      exact List.mem_singleton_self _
    · refine ⟨w', List.mem_append_left _ ?_, hnotifies, hagent, hchannel⟩
      exact (List.mem_erase_of_ne heq).mpr hw'
  have inv' : t.Invariant servers parseX402Pricing :=
    inv.same rfl rfl (fun server agentId channel _ => hpending server agentId channel)
      (fun g hg => .inl hg) fun r hr => .inl hr
  refine inv'.store fun hregistered => ?_
  obtain hnotifies | hnone | htimely := hkeeps
  · exact .inr (hpending _ _ _ (.of_write hw hnotifies))
  · have hsome : (s.agents w.server w.agentId).isSome := hregistered
    rw [Option.isNone_iff_eq_none] at hnone
    simp [hnone] at hsome
  · exact htimely.imp_right (hpending _ _ _)

theorem Invariant.notify (inv : s.Invariant servers parseX402Pricing) (w : PolicyWrite π) :
    (s.apply servers parseX402Pricing (.notify w)).Invariant servers parseX402Pricing := by
  refine inv.same rfl rfl (fun server agentId channel hregistered h => ?_) (fun g hg => .inl hg)
    fun r hr => .inl hr
  refine h.mono (fun w' hw' hnotifies hagent hchannel => ?_)
    (fun n hn hserver hagent hchannel =>
      .inr (.inl ⟨n, List.mem_append_left _ hn, hserver, hagent, hchannel⟩))
    fun r hr hserver hagent hchannel => .inr (.inr ⟨r, hr, hserver, hagent, hchannel⟩)
  by_cases heq : w' = w
  · subst heq
    have hserver := inv.listening server agentId hregistered
    exact .inr (.inl ⟨_, List.mem_append_right _ (List.mem_map_of_mem hserver), rfl, hagent,
      hchannel⟩)
  · exact .inl ⟨w', (List.mem_erase_of_ne heq).mpr hw', hnotifies, hagent, hchannel⟩

theorem Invariant.deliver (inv : s.Invariant servers parseX402Pricing)
    (n : PolicyNotification) :
    (s.apply servers parseX402Pricing (.deliver n)).Invariant servers parseX402Pricing := by
  refine inv.same rfl rfl (fun server agentId channel hregistered h => ?_) (fun g hg => .inl hg)
    fun r hr => ?_
  · refine h.mono (fun w hw hnotifies hagent hchannel => .inl ⟨w, hw, hnotifies, hagent, hchannel⟩)
      (fun n' hn' hserver hagent hchannel => ?_) fun r hr hserver hagent hchannel => ?_
    · by_cases heq : n' = n
      · subst heq
        subst hserver hagent hchannel
        refine .inr (.inr ?_)
        have hsome : ¬ (s.agents n'.server n'.agentId).isNone = true := by
          rw [← Option.isSome_iff_ne_none.trans Option.isNone_iff_eq_none.not.symm]
          exact hregistered
        refine ⟨{ server := n'.server, channel := n'.channel, agentId := n'.agentId }, ?_, rfl, rfl,
          rfl⟩
        simp only [apply, hsome]
        exact List.mem_append_right _ (List.mem_singleton_self _)
      · exact .inr (.inl ⟨n', (List.mem_erase_of_ne heq).mpr hn', hserver, hagent, hchannel⟩)
    · refine .inr (.inr ⟨r, ?_, hserver, hagent, hchannel⟩)
      simp only [apply]
      split
      · exact hr
      · exact List.mem_append_left _ hr
  · simp only [apply] at hr
    split at hr
    · exact .inl hr
    · rcases List.mem_append.mp hr with hr | hr
      · exact .inl hr
      · rw [List.mem_singleton.mp hr]
        exact .inr (by simp)

theorem Invariant.query (inv : s.Invariant servers parseX402Pricing) (r : PolicyRefresh π) :
    (s.apply servers parseX402Pricing (.query r)).Invariant servers parseX402Pricing := by
  refine inv.same rfl rfl (fun server agentId channel _ h => ?_) (fun g hg => .inl hg)
    fun r' hr' => ?_
  · refine h.mono (fun w hw hnotifies hagent hchannel => .inl ⟨w, hw, hnotifies, hagent, hchannel⟩)
      (fun n hn hserver hagent hchannel => .inr (.inl ⟨n, hn, hserver, hagent, hchannel⟩))
      fun r' hr' hserver hagent hchannel => ?_
    by_cases heq : r' = r
    · subst heq
      exact .inr (.inr ⟨_, List.mem_append_right _ (List.mem_singleton_self _), hserver, hagent,
        hchannel⟩)
    · exact .inr (.inr ⟨r', List.mem_append_left _ ((List.mem_erase_of_ne heq).mpr hr'), hserver,
        hagent, hchannel⟩)
  · rcases List.mem_append.mp hr' with hr' | hr'
    · exact .inl (List.mem_of_mem_erase hr')
    · rw [List.mem_singleton.mp hr']
      refine .inr fun copy hcopy => ?_
      obtain rfl := Option.some.inj hcopy
      exact channel_column _ _

/-- The refresh is over, and its copy is stored. -/
theorem Invariant.refreshed (inv : s.Invariant servers parseX402Pricing) {r : PolicyRefresh π}
    (hr : r ∈ s.refreshes) {copy : PolicyCopy π} (hcopy : r.result = some copy)
    (hkeeps : (s.agents r.server r.agentId).isNone ∨
      { s with refreshes := s.refreshes.erase r }.Timely parseX402Pricing r.server r.agentId copy) :
    (s.apply servers parseX402Pricing (.refreshed r copy)).Invariant servers parseX402Pricing := by
  set t : PolicyWatch π := { s with refreshes := s.refreshes.erase r } with ht
  have hagents := store_agents (s := t) r.server r.agentId copy
  have hchannel : copy.channel = r.channel := inv.refreshing r hr copy hcopy
  -- Only what the refresh itself is going to store waits for it.
  have hpending (server : ℕ) (agentId : String) (channel : WatchChannel)
      (hne : ¬ (server = r.server ∧ agentId = r.agentId ∧ channel = copy.channel))
      (h : s.Pending server agentId channel) : t.Pending server agentId channel := by
    refine h.mono (fun w hw hnotifies hagent hchannel => .inl ⟨w, hw, hnotifies, hagent, hchannel⟩)
      (fun n hn hserver hagent hchannel => .inr (.inl ⟨n, hn, hserver, hagent, hchannel⟩))
      fun r' hr' hserver hagent hchannel' => .inr (.inr ⟨r', ?_, hserver, hagent, hchannel'⟩)
    refine (List.mem_erase_of_ne ?_).mpr hr'
    rintro rfl
    exact hne ⟨hserver.symm, hagent.symm, hchannel'.symm.trans hchannel.symm⟩
  have htimely (server : ℕ) (agentId : String) (policy : CachedPolicy π) (channel : WatchChannel)
      (hne : ¬ (server = r.server ∧ agentId = r.agentId ∧ channel = copy.channel))
      (h : s.agents server agentId = some policy) :
      t.Timely parseX402Pricing server agentId (policy.column channel) := by
    refine (inv.timely server agentId policy channel h).imp_right fun hpends => ?_
    rw [channel_column] at hpends ⊢
    exact hpending server agentId channel hne hpends
  constructor
  case registering => exact inv.registering
  case refreshing => exact fun r' hr' => inv.refreshing r' (List.mem_of_mem_erase hr')
  case listening =>
      intro server agentId h
      simp only [apply, ← ht, hagents] at h
      split at h
      · rename_i heq
        rw [heq.1]
        exact inv.listening r.server r.agentId (by simpa using h)
      · exact inv.listening server agentId h
  case timely =>
      intro server agentId policy channel h
      simp only [apply, ← ht, hagents] at h
      split at h
      · rename_i heq
        obtain ⟨rfl, rfl⟩ := heq
        obtain ⟨policy, hpolicy, rfl⟩ := Option.map_eq_some_iff.mp h
        by_cases heq : channel = copy.channel
        · subst heq
          rw [column_store_self]
          refine hkeeps.resolve_left fun hnone => ?_
          have hsome : s.agents r.server r.agentId = some policy := hpolicy
          simp [hsome] at hnone
        · rw [column_store_of_ne policy heq]
          exact htimely r.server r.agentId policy channel (fun h => heq h.2.2) hpolicy
      · rename_i hne
        exact htimely server agentId policy channel (fun h => hne ⟨h.1, h.2.1⟩) h

/-- A connection is registered with the row its authentication has read. -/
theorem Invariant.register (inv : s.Invariant servers parseX402Pricing)
    {g : PolicyRegistration π} (hg : g ∈ s.registrations)
    (hkeeps : ∀ channel, s.Timely parseX402Pricing g.server g.agentId (g.policy.column channel)) :
    (s.apply servers parseX402Pricing (.register g)).Invariant servers parseX402Pricing := by
  have hagents (server : ℕ) (agentId : String) :
      (s.apply servers parseX402Pricing (.register g)).agents server agentId =
        if server = g.server ∧ agentId = g.agentId then some g.policy
        else s.agents server agentId := by
    by_cases hserver : server = g.server
    · subst hserver
      by_cases hagent : agentId = g.agentId <;> simp [apply, hagent]
    · simp [apply, hserver]
  constructor
  case registering => exact fun g' hg' => inv.registering g' (List.mem_of_mem_erase hg')
  case refreshing => exact inv.refreshing
  case listening =>
      intro server agentId h
      rw [hagents] at h
      split at h
      · rename_i heq
        rw [heq.1]
        exact inv.registering g hg
      · exact inv.listening server agentId h
  case timely =>
      intro server agentId policy channel h
      rw [hagents] at h
      split at h
      · rename_i heq
        obtain ⟨rfl, rfl⟩ := heq
        obtain rfl := Option.some.inj h
        exact hkeeps channel
      · exact inv.timely server agentId policy channel h

theorem Invariant.unregister (inv : s.Invariant servers parseX402Pricing) (server : ℕ)
    (agentId : String) :
    (s.apply servers parseX402Pricing (.unregister server agentId)).Invariant servers
      parseX402Pricing := by
  have hagents (server' : ℕ) (agentId' : String) (policy : CachedPolicy π)
      (h : (s.apply servers parseX402Pricing (.unregister server agentId)).agents server' agentId' =
        some policy) : s.agents server' agentId' = some policy := by
    by_cases hserver : server' = server
    · subst hserver
      by_cases hagent : agentId' = agentId
      · simp [apply, hagent] at h
      · simpa [apply, hagent] using h
    · simpa [apply, hserver] using h
  constructor
  case registering => exact inv.registering
  case refreshing => exact inv.refreshing
  case listening =>
      intro server' agentId' h
      obtain ⟨policy, hpolicy⟩ := Option.isSome_iff_exists.mp h
      exact inv.listening server' agentId' (by simp [hagents server' agentId' policy hpolicy])
  case timely =>
      exact fun server' agentId' policy channel h =>
        inv.timely server' agentId' policy channel (hagents server' agentId' policy h)

theorem Invariant.step (inv : s.Invariant servers parseX402Pricing) {a : PolicyAction π}
    (henabled : s.enabled servers a) (hkeeps : s.KeepsUp parseX402Pricing a) :
    (s.apply servers parseX402Pricing a).Invariant servers parseX402Pricing := by
  cases a with
  | addCaller server agentId principal =>
      simp only [apply, PolicyWatch.addCaller]
      split
      · exact inv
      · exact inv.commitCallers server agentId _
  | removeCaller server agentId principal =>
      simp only [apply, PolicyWatch.removeCaller]
      split
      · exact inv.commitCallers server agentId _
      · exact inv
  | readCallers server agentId =>
      refine inv.same rfl rfl (fun server' agentId' channel _ h => ?_) (fun g hg => .inl hg)
        fun r hr => .inl hr
      exact h.mono (fun w hw hnotifies hagent hchannel =>
          .inl ⟨w, List.mem_append_left _ hw, hnotifies, hagent, hchannel⟩)
        (fun n hn hserver hagent hchannel => .inr (.inl ⟨n, hn, hserver, hagent, hchannel⟩))
        fun r hr hserver hagent hchannel => .inr (.inr ⟨r, hr, hserver, hagent, hchannel⟩)
  | setX402Pricing server agentId stored pricing =>
      refine inv.commit fun channel hchannel => ?_
      cases channel
      · rfl
      · exact absurd rfl hchannel
  | clearX402Pricing server agentId =>
      refine inv.commit fun channel hchannel => ?_
      cases channel
      · rfl
      · exact absurd rfl hchannel
  | updateRegistry w => exact inv.updateRegistry henabled.1 hkeeps
  | notify w => exact inv.notify w
  | deliver n => exact inv.deliver n
  | query r => exact inv.query r
  | refreshed r copy => exact inv.refreshed henabled.1 henabled.2 hkeeps
  | readRow server agentId =>
      refine inv.same rfl rfl (fun _ _ _ _ h => h) (fun g hg => ?_) fun r hr => .inl hr
      rcases List.mem_append.mp hg with hg | hg
      · exact .inl hg
      · rw [List.mem_singleton.mp hg]
        exact .inr henabled
  | register g => exact inv.register henabled hkeeps
  | reject g =>
      exact inv.same rfl rfl (fun _ _ _ _ h => h) (fun g' hg' => .inl (List.mem_of_mem_erase hg'))
        fun r hr => .inl hr
  | unregister server agentId => exact inv.unregister server agentId

theorem AllTimely.keepsUp {a : PolicyAction π}
    (hall : (s.apply servers parseX402Pricing a).AllTimely parseX402Pricing) :
    s.KeepsUp parseX402Pricing a := by
  cases a with
  | updateRegistry w =>
      by_cases hnotifies : w.notifies = true
      · exact .inl hnotifies
      refine .inr (hall.timely_of_store.imp_right fun htimely => htimely.imp_right fun h => ?_)
      refine h.mono (fun w' hw' hnotifies' hagent hchannel => ?_)
        (fun n hn hserver hagent hchannel => .inr (.inl ⟨n, hn, hserver, hagent, hchannel⟩))
        fun r hr hserver hagent hchannel => .inr (.inr ⟨r, hr, hserver, hagent, hchannel⟩)
      have hw'' : w' ∈ s.writes.erase w := by simpa [hnotifies] using hw'
      exact .inl ⟨w', List.mem_of_mem_erase hw'', hnotifies', hagent, hchannel⟩
  | refreshed r copy => exact hall.timely_of_store
  | register g =>
      exact fun channel => hall g.server g.agentId g.policy channel (by simp [apply])
  | _ => trivial

end Steps

/-! ## Runs -/

/-- No write, notification, refresh or registration is under way. -/
def Quiescent (s : PolicyWatch π) : Prop :=
  s.writes = [] ∧ s.notifications = [] ∧ s.refreshes = [] ∧ s.registrations = []

/-- Every connection has the row of its agent. -/
def Converged (parseX402Pricing : Option Json → Option π) (s : PolicyWatch π) : Prop :=
  ∀ server agentId policy, s.agents server agentId = some policy →
    policy = (s.rows agentId).policy parseX402Pricing

theorem Invariant.converged (inv : s.Invariant servers parseX402Pricing) (h : s.Quiescent) :
    s.Converged parseX402Pricing := by
  intro server agentId policy hpolicy
  refine eq_of_column fun channel => ?_
  obtain hcurrent | hpends := inv.timely server agentId policy channel hpolicy
  · rw [Current, channel_column] at hcurrent
    exact hcurrent
  · obtain ⟨hwrites, hnotifications, hrefreshes, -⟩ := h
    simp [Pending, hwrites, hnotifications, hrefreshes] at hpends

variable [DecidableEq π]

theorem invariant_of_reachable
    (h : ((policySystem servers parseX402Pricing).restrict
      fun s a => s.KeepsUp parseX402Pricing a).Reachable s) :
    s.Invariant servers parseX402Pricing := by
  refine h.invariant (fun s hs => ?_) fun s a t inv hstep => ?_
  · obtain ⟨rows, rfl⟩ := hs
    constructor <;> simp
  · obtain ⟨hkeeps, henabled, rfl⟩ := hstep
    exact inv.step henabled hkeeps

/-- Where every copy that is stored late is followed by another read, the connections end up with
the rows. -/
theorem converged_of_keepsUp
    (h : ((policySystem servers parseX402Pricing).restrict
      fun s a => s.KeepsUp parseX402Pricing a).Reachable s) (hquiet : s.Quiescent) :
    s.Converged parseX402Pricing :=
  (invariant_of_reachable h).converged hquiet

/-- No weaker condition on a step would do: where it fails, the step leaves a column with a connection
that differs from the row, and nothing is under way that reads it again. -/
theorem keepsUp_iff_allTimely
    (h : ((policySystem servers parseX402Pricing).restrict
      fun s a => s.KeepsUp parseX402Pricing a).Reachable s) {a : PolicyAction π}
    (henabled : s.enabled servers a) :
    s.KeepsUp parseX402Pricing a ↔
      (s.apply servers parseX402Pricing a).AllTimely parseX402Pricing :=
  ⟨fun hkeeps => ((invariant_of_reachable h).step henabled hkeeps).timely, AllTimely.keepsUp⟩

section Witness

private def exampleRow : PolicyRow := { allowedCallers := ["google:alice"], x402Pricing := none }

private def examplePrice : Json :=
  .obj [("scheme", .str "exact"), ("network", .str "base"), ("amount", .str "10000"),
    ("asset", .str "0x833589fCD6eDb6E08f4c7C32D4f71b54bdA02913"),
    ("payTo", .str "0x209693Bc6afc0C5328bA36FaF03C514EF312287C")]

private def exampleWatch : PolicyWatch Json := { rows := fun _ => exampleRow }

private def exampleWrite (pricing : Option Json) : PolicyWrite Json :=
  { server := 0, agentId := "agent", copy := .x402Pricing pricing, notifies := true }

private def exampleNotification : PolicyNotification :=
  { server := 0, channel := .x402PricingChanged, agentId := "agent" }

private def exampleRefresh (result : Option (PolicyCopy Json)) : PolicyRefresh Json :=
  { server := 0, channel := .x402PricingChanged, agentId := "agent", result := result }

private def registerExample : List (PolicyAction Json) :=
  [.readRow 0 "agent", .register { server := 0, agentId := "agent", policy := exampleRow.policy id }]

/-- An admin call from its transaction to its notification, and the refresh it leads to. -/
private def repriceExample (write : PolicyAction Json) (pricing : Option Json) :
    List (PolicyAction Json) :=
  [write, .updateRegistry (exampleWrite pricing),
    .notify { exampleWrite pricing with updated := true },
    .deliver exampleNotification, .query (exampleRefresh none)]

private def storeExample (pricing : Option Json) : PolicyAction Json :=
  .refreshed (exampleRefresh (some (.x402Pricing pricing))) (.x402Pricing pricing)

/-- A price is set and cleared. The first refresh has read the price, and its answer comes after
that of the second. -/
private def lateAnswer : List (PolicyAction Json) :=
  registerExample ++ repriceExample (.setX402Pricing 0 "agent" examplePrice examplePrice)
    (some examplePrice) ++ repriceExample (.clearX402Pricing 0 "agent") none ++
    [storeExample none, storeExample (some examplePrice)]

private def answersInOrder : List (PolicyAction Json) :=
  registerExample ++ repriceExample (.setX402Pricing 0 "agent" examplePrice examplePrice)
    (some examplePrice) ++ repriceExample (.clearX402Pricing 0 "agent") none ++
    [storeExample (some examplePrice), storeExample none]

private def afterScript (script : List (PolicyAction Json)) : PolicyWatch Json :=
  script.foldl (PolicyWatch.apply [0] id) exampleWatch

/-- A price that was cleared stays with the connection after everything is done. -/
theorem converged_of_keepsUp_late :
    ∃ s : PolicyWatch Json, (policySystem [0] id).Reachable s ∧ s.Quiescent ∧ ¬ s.Converged id := by
  refine ⟨afterScript lateAnswer, ?_, ⟨?_, ?_, ?_, ?_⟩, fun h => ?_⟩
  · exact System.Legal.reachable (by decide +kernel) (.of_init ⟨_, rfl⟩)
  iterate 4 decide +kernel
  · have hpolicy := h 0 "agent"
      { allowedCallers := ["google:alice"], x402Pricing := some examplePrice } (by decide +kernel)
    revert hpolicy
    decide +kernel

theorem converged_of_keepsUp_inOrder :
    (afterScript answersInOrder).agents 0 "agent" = some (exampleRow.policy id) ∧
      (afterScript answersInOrder).Converged id := by
  refine ⟨by decide +kernel, @converged_of_keepsUp Json [0] id _ _ ?_ ⟨?_, ?_, ?_, ?_⟩⟩
  · exact System.Legal.reachable_restrict (by decide +kernel) (.of_init ⟨_, rfl⟩)
  iterate 4 decide +kernel

/-- The late answer is still out. -/
theorem keepsUp_iff_allTimely_late :
    ¬ (afterScript lateAnswer.dropLast).KeepsUp id (storeExample (some examplePrice)) ∧
      ((afterScript lateAnswer.dropLast).KeepsUp id (storeExample (some examplePrice)) ↔
        ((afterScript lateAnswer.dropLast).apply [0] id
          (storeExample (some examplePrice))).AllTimely id) := by
  refine ⟨by decide +kernel, keepsUp_iff_allTimely ?_ (by decide +kernel)⟩
  exact System.Legal.reachable_restrict (by decide +kernel) (.of_init ⟨_, rfl⟩)

end Witness

end PolicyWatch

end VicoopBridge
