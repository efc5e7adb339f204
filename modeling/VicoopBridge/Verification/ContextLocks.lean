import VicoopBridge.Model.ContextLocks
import Mathlib.Algebra.BigOperators.Group.Finset.Basic
import Mathlib.Algebra.Order.BigOperators.Group.Finset

/-! # What the context locks keep, and what they leave behind

Turns of one context follow each other as their calls did. A release compares the tail with
its own `next`, and the tail is never that promise: no entry is ever dropped. -/

namespace VicoopBridge

open Library

universe u

variable {κ : Type u}

/-- The call that made the promise. -/
def LockPromise.call : LockPromise → ℕ
  | .resolved call | .next call | .tail call => call

namespace ContextLocks

variable {d d' : ContextLocks κ} {call : ℕ}

/-- No later call is for the context. -/
structure Last (d : ContextLocks κ) (contextId : κ) (call : ℕ) : Prop where
  of : d.contextIdOf call = some contextId
  none_after : ∀ later, call < later → d.contextIdOf later ≠ some contextId

/-- What `prev` of a call is: the tail of the call before, or nothing to wait for. -/
def Follows (d : ContextLocks κ) (call : ℕ) (entry : LockCall κ) : Prop :=
  (∃ before, entry.prev = .tail before ∧ before < call ∧
    d.contextIdOf before = some entry.contextId ∧
    ∀ between, before < between → between < call →
      d.contextIdOf between ≠ some entry.contextId) ∨
  entry.prev = .resolved call ∧ (d.promises (.resolved call)).isSettled = true ∧
    ∀ before < call, d.contextIdOf before ≠ some entry.contextId

/-- The tail waits for `prev` first, then for `next`. -/
inductive Tail (d : ContextLocks κ) (call : ℕ) : Prop where
  | waiting (tail : d.promises (.tail call) = .pending)
  | held (tail : d.promises (.tail call) = .following (.next call))
      (prev : d.prevSettled call = true)
  | passed (tail : d.promises (.tail call) = .settled (.fulfilled ()))
      (next : d.promises (.next call) = .settled (.fulfilled ()))
      (prev : d.prevSettled call = true)

structure Chained (d : ContextLocks κ) : Prop where
  fresh : ∀ p : LockPromise, d.calls.length ≤ p.call → d.promises p = .pending
  follows : ∀ call entry, d.calls[call]? = some entry → Follows d call entry
  /-- Only an admitted call is released. -/
  next : ∀ call, d.promises (.next call) = .pending ∨
    d.promises (.next call) = .settled (.fulfilled ()) ∧ call ∈ d.admitted
  tail : ∀ call, Tail d call
  admitted : ∀ call ∈ d.admitted, d.prevSettled call = true
  entry : ∀ contextId p, d.contextLocks contextId = some p →
    ∃ call, p = .tail call ∧ Last d contextId call
  noEntry : ∀ contextId call, d.contextLocks contextId = none →
    d.contextIdOf call ≠ some contextId
  inOrder : d.admitted.Pairwise fun a b => d.contextIdOf a = d.contextIdOf b → a < b

theorem contextIdOf_eq_some {contextId : κ} :
    d.contextIdOf call = some contextId ↔
      ∃ entry, d.calls[call]? = some entry ∧ entry.contextId = contextId := by
  simp [contextIdOf]

theorem lt_of_contextIdOf {contextId : κ} (h : d.contextIdOf call = some contextId) :
    call < d.calls.length := by
  obtain ⟨entry, hentry, -⟩ := contextIdOf_eq_some.mp h
  exact (List.getElem?_eq_some_iff.mp hentry).1

theorem prevSettled_iff :
    d.prevSettled call = true ↔
      ∃ entry, d.calls[call]? = some entry ∧ (d.promises entry.prev).isSettled = true := by
  unfold prevSettled
  cases d.calls[call]? <;> simp

theorem contextIdOf_of_prevSettled (h : d.prevSettled call = true) :
    ∃ contextId, d.contextIdOf call = some contextId := by
  obtain ⟨entry, hentry, -⟩ := prevSettled_iff.mp h
  exact ⟨_, contextIdOf_eq_some.mpr ⟨entry, hentry, rfl⟩⟩

/-! ## What a call waits for -/

/-- A call is let in only when every earlier one of its context has been released. -/
theorem Chained.released_before (h : Chained d) (hprev : d.prevSettled call = true) :
    ∀ before < call, d.contextIdOf before = d.contextIdOf call →
      d.promises (.next before) = .settled (.fulfilled ()) := by
  induction call using Nat.strongRecOn with
  | ind call ih =>
      obtain ⟨entry, hentry, hsettled⟩ := prevSettled_iff.mp hprev
      intro before hbefore hsame
      have hof : d.contextIdOf call = some entry.contextId :=
        contextIdOf_eq_some.mpr ⟨entry, hentry, rfl⟩
      rw [hof] at hsame
      rcases h.follows call entry hentry with ⟨last, heq, hlast, hlastOf, hbetween⟩ | ⟨-, -, hall⟩
      · rw [heq] at hsettled
        cases h.tail last with
        | waiting htail => simp [htail] at hsettled
        | held htail _ => simp [htail] at hsettled
        | passed _ hnext hlastPrev =>
            rcases Nat.lt_trichotomy before last with hlt | rfl | hgt
            · exact ih last hlast hlastPrev before hlt (by rw [hsame, hlastOf])
            · exact hnext
            · exact absurd hsame (hbetween before hgt hbefore)
      · exact absurd hsame (hall before hbefore)

/-! ## One step of a call -/

/-- A step that makes no call: the tails stay in the table, what has settled stays so. -/
structure Advance (d d' : ContextLocks κ) : Prop where
  calls : d'.calls = d.calls
  contextLocks : d'.contextLocks = d.contextLocks
  later : Promises.Later d.promises d'.promises
  admitted : ∀ call ∈ d.admitted, call ∈ d'.admitted

theorem Advance.contextIdOf (h : Advance d d') (call : ℕ) :
    d'.contextIdOf call = d.contextIdOf call := by
  rw [ContextLocks.contextIdOf, ContextLocks.contextIdOf, h.calls]

theorem Advance.prevSettled (h : Advance d d') (hprev : d.prevSettled call = true) :
    d'.prevSettled call = true := by
  obtain ⟨entry, hentry, hsettled⟩ := prevSettled_iff.mp hprev
  exact prevSettled_iff.mpr ⟨entry, by rw [h.calls, hentry], h.later.isSettled hsettled⟩

theorem Advance.last (h : Advance d d') {contextId : κ} (hlast : Last d contextId call) :
    Last d' contextId call := by
  refine ⟨by rw [h.contextIdOf, hlast.of], fun later hlater => ?_⟩
  rw [h.contextIdOf]
  exact hlast.none_after later hlater

theorem Advance.follows (h : Advance d d') {entry : LockCall κ} (hfollows : Follows d call entry) :
    Follows d' call entry := by
  rcases hfollows with ⟨before, heq, hlt, hof, hbetween⟩ | ⟨heq, hresolved, hall⟩
  · refine .inl ⟨before, heq, hlt, by rw [h.contextIdOf, hof], fun between h₁ h₂ => ?_⟩
    rw [h.contextIdOf]
    exact hbetween between h₁ h₂
  · refine .inr ⟨heq, h.later.isSettled hresolved, fun before hlt => ?_⟩
    rw [h.contextIdOf]
    exact hall before hlt

theorem Tail.advance (h : Tail d call) (hadvance : Advance d d')
    (htail : d'.promises (.tail call) = d.promises (.tail call)) : Tail d' call := by
  cases h with
  | waiting hw => exact .waiting (by rw [htail, hw])
  | held hheld hprev => exact .held (by rw [htail, hheld]) (hadvance.prevSettled hprev)
  | passed hpassed hnext hprev =>
      exact .passed (by rw [htail, hpassed]) (hadvance.later.settled _ _ hnext)
        (hadvance.prevSettled hprev)

theorem Chained.advance (h : Chained d) (hadvance : Advance d d')
    (hfresh : ∀ p : LockPromise, d.calls.length ≤ p.call → d'.promises p = d.promises p)
    (hnext : ∀ call, d'.promises (.next call) = .pending ∨
      d'.promises (.next call) = .settled (.fulfilled ()) ∧ call ∈ d'.admitted)
    (htail : ∀ call, Tail d' call)
    (hadmitted : ∀ call ∈ d'.admitted, d'.prevSettled call = true)
    (hinOrder : d'.admitted.Pairwise fun a b => d.contextIdOf a = d.contextIdOf b → a < b) :
    Chained d' where
  fresh p hp := by
    rw [hadvance.calls] at hp
    rw [hfresh p hp, h.fresh p hp]
  follows call entry hentry := by
    rw [hadvance.calls] at hentry
    exact hadvance.follows (h.follows call entry hentry)
  next := hnext
  tail := htail
  admitted := hadmitted
  entry contextId p hp := by
    rw [hadvance.contextLocks] at hp
    obtain ⟨last, heq, hlast⟩ := h.entry contextId p hp
    exact ⟨last, heq, hadvance.last hlast⟩
  noEntry contextId call hnone := by
    rw [hadvance.contextLocks] at hnone
    rw [hadvance.contextIdOf]
    exact h.noEntry contextId call hnone
  inOrder := by
    simp only [hadvance.contextIdOf]
    exact hinOrder

theorem Chained.lt_of_prevSettled (hprev : d.prevSettled call = true) :
    call < d.calls.length := by
  obtain ⟨entry, hentry, -⟩ := prevSettled_iff.mp hprev
  exact (List.getElem?_eq_some_iff.mp hentry).1

theorem Chained.chain (h : Chained d) (hprev : d.prevSettled call = true)
    (htail : (d.promises (.tail call)).isPending = true) : Chained (d.chain call) := by
  have hadvance : Advance d (d.chain call) :=
    ⟨rfl, rfl, Promises.later_follow _ _ _, fun _ ha => ha⟩
  have hlt := Chained.lt_of_prevSettled hprev
  have hpending := PromiseState.isPending_iff.mp htail
  refine h.advance hadvance (fun p hp => Promises.follow_ne ?_) (fun other => ?_)
    (fun other => ?_) (fun other hother => hadvance.prevSettled (h.admitted other hother))
    h.inOrder
  · rintro rfl
    exact absurd hp (Nat.not_le.mpr hlt)
  · have hkept : (d.chain call).promises (.next other) = d.promises (.next other) :=
      Promises.follow_ne (by simp)
    rw [hkept]
    exact h.next other
  · by_cases heq : other = call
    · subst heq
      exact .held (Promises.follow_self hpending) (hadvance.prevSettled hprev)
    · exact (h.tail other).advance hadvance (Promises.follow_ne (by simpa using heq))

theorem Chained.adopt (h : Chained d) (hadopts : d.promises.adopts (.tail call) = true) :
    Chained (d.adopt call) := by
  have hadvance : Advance d (d.adopt call) :=
    ⟨rfl, rfl, Promises.later_adopt _ _, fun _ ha => ha⟩
  obtain ⟨q, o, htail, ho⟩ := Promises.adopts_iff.mp hadopts
  have hheld : d.promises (.tail call) = .following (.next call) ∧ d.prevSettled call = true := by
    cases h.tail call with
    | waiting hw => simp [htail] at hw
    | held hheld hprev => exact ⟨hheld, hprev⟩
    | passed hpassed _ _ => simp [htail] at hpassed
  obtain rfl : q = .next call := by simpa [htail] using hheld.1
  have hlt := Chained.lt_of_prevSettled hheld.2
  refine h.advance hadvance (fun p hp => Promises.adopt_ne ?_) (fun other => ?_)
    (fun other => ?_) (fun other hother => hadvance.prevSettled (h.admitted other hother))
    h.inOrder
  · rintro rfl
    exact absurd hp (Nat.not_le.mpr hlt)
  · have hkept : (d.adopt call).promises (.next other) = d.promises (.next other) :=
      Promises.adopt_ne (by simp)
    rw [hkept]
    exact h.next other
  · by_cases heq : other = call
    · subst heq
      obtain rfl : o = .fulfilled () := by
        rcases h.next other with hnext | ⟨hnext, -⟩
        · simp [hnext] at ho
        · simpa [hnext] using ho.symm
      exact .passed (Promises.adopt_self htail ho) (hadvance.later.settled _ _ ho)
        (hadvance.prevSettled hheld.2)
    · exact (h.tail other).advance hadvance (Promises.adopt_ne (by simpa using heq))

theorem Chained.enter (h : Chained d) (hprev : d.prevSettled call = true)
    (hnot : call ∉ d.admitted) : Chained (d.enter call) := by
  have hadvance : Advance d (d.enter call) :=
    ⟨rfl, rfl, .refl _, fun _ ha => List.mem_append_left _ ha⟩
  refine h.advance hadvance (fun _ _ => rfl) (fun other => ?_)
    (fun other => (h.tail other).advance hadvance rfl) (fun other hother => ?_) ?_
  · rcases h.next other with hnext | ⟨hnext, hmem⟩
    · exact .inl hnext
    · exact .inr ⟨hnext, hadvance.admitted other hmem⟩
  · rcases List.mem_append.mp hother with hmem | hmem
    · exact hadvance.prevSettled (h.admitted other hmem)
    · obtain rfl := List.mem_singleton.mp hmem
      exact hadvance.prevSettled hprev
  · refine List.pairwise_append.mpr ⟨h.inOrder, List.pairwise_singleton _ _, ?_⟩
    intro a ha b hb hsame
    obtain rfl := List.mem_singleton.mp hb
    by_contra hge
    have hne : a ≠ b := fun heq => hnot (heq ▸ ha)
    have hreleased := h.released_before (h.admitted a ha) b (by omega) hsame.symm
    rcases h.next b with hnext | ⟨-, hmem⟩
    · simp [hnext] at hreleased
    · exact hnot hmem

section Table

variable [DecidableEq κ]

/-- The tail is never the promise a release looks for: no release changes the table. -/
theorem Chained.contextLocks_release (h : Chained d) (call : ℕ) (contextId : κ) :
    (d.release call contextId).contextLocks = d.contextLocks := by
  simp only [ContextLocks.release]
  rw [if_neg]
  intro hentry
  obtain ⟨last, heq, -⟩ := h.entry contextId _ hentry
  exact LockPromise.noConfusion heq

theorem Chained.release (h : Chained d) (hadmitted : call ∈ d.admitted) (contextId : κ) :
    Chained (d.release call contextId) := by
  have hadvance : Advance d (d.release call contextId) :=
    ⟨rfl, h.contextLocks_release call contextId, Promises.later_settle _ _ _, fun _ ha => ha⟩
  have hlt := Chained.lt_of_prevSettled (h.admitted call hadmitted)
  refine h.advance hadvance (fun p hp => Promises.settle_ne ?_ _) (fun other => ?_)
    (fun other => (h.tail other).advance hadvance (Promises.settle_ne (by simp) _))
    (fun other hother => hadvance.prevSettled (h.admitted other hother)) h.inOrder
  · rintro rfl
    exact absurd hp (Nat.not_le.mpr hlt)
  · by_cases heq : other = call
    · subst heq
      refine .inr ⟨?_, hadmitted⟩
      rcases h.next other with hnext | ⟨hnext, -⟩
      · exact Promises.settle_self hnext _
      · exact hadvance.later.settled _ _ hnext
    · have hkept : (d.release call contextId).promises (.next other) =
          d.promises (.next other) := Promises.settle_ne (by simpa using heq) _
      rw [hkept]
      exact h.next other

/-! ## A new call -/

theorem calls_acquireContextLock (d : ContextLocks κ) (contextId : κ) :
    ∃ prev, (d.acquireContextLock contextId).calls = d.calls ++ [⟨contextId, prev⟩] ∧
      (d.contextLocks contextId = some prev ∧
          (d.acquireContextLock contextId).promises = d.promises ∨
        d.contextLocks contextId = none ∧ prev = .resolved d.calls.length ∧
          (d.acquireContextLock contextId).promises =
            d.promises.settle (.resolved d.calls.length) (.fulfilled ())) := by
  cases h : d.contextLocks contextId with
  | none =>
      exact ⟨_, by simp only [acquireContextLock, h],
        .inr ⟨rfl, rfl, by simp only [acquireContextLock, h]⟩⟩
  | some prev =>
      exact ⟨prev, by simp only [acquireContextLock, h],
        .inl ⟨rfl, by simp only [acquireContextLock, h]⟩⟩

/-- A call settles at most what it made from nothing. -/
theorem promises_acquireContextLock (d : ContextLocks κ) (contextId : κ) :
    Promises.Later d.promises (d.acquireContextLock contextId).promises ∧
      ∀ p : LockPromise, p ≠ .resolved d.calls.length →
        (d.acquireContextLock contextId).promises p = d.promises p := by
  obtain ⟨prev, -, ⟨-, hpromises⟩ | ⟨-, -, hpromises⟩⟩ := calls_acquireContextLock d contextId
  · rw [hpromises]
    exact ⟨.refl _, fun _ _ => rfl⟩
  · rw [hpromises]
    exact ⟨Promises.later_settle _ _ _, fun p hp => Promises.settle_ne hp _⟩

theorem contextIdOf_acquireContextLock (d : ContextLocks κ) (contextId : κ) (call : ℕ) :
    (d.acquireContextLock contextId).contextIdOf call =
      if call = d.calls.length then some contextId else d.contextIdOf call := by
  obtain ⟨prev, hcalls, -⟩ := calls_acquireContextLock d contextId
  rw [contextIdOf, contextIdOf, hcalls, getElem?_append_singleton]
  split <;> rfl

theorem Chained.acquireContextLock (h : Chained d) (contextId : κ) :
    Chained (d.acquireContextLock contextId) := by
  obtain ⟨hlater, hothers⟩ := promises_acquireContextLock d contextId
  obtain ⟨prev, hcalls, hprev⟩ := calls_acquireContextLock d contextId
  have hlength : (d.acquireContextLock contextId).calls.length = d.calls.length + 1 := by
    simp [hcalls]
  have hlocks : (d.acquireContextLock contextId).contextLocks =
      Function.update d.contextLocks contextId (some (.tail d.calls.length)) := by
    simp [ContextLocks.acquireContextLock]
  have hadmitted : (d.acquireContextLock contextId).admitted = d.admitted := by
    simp [ContextLocks.acquireContextLock]
  have hof : ∀ other < d.calls.length,
      (d.acquireContextLock contextId).contextIdOf other = d.contextIdOf other :=
    fun other hother => by
    rw [contextIdOf_acquireContextLock, if_neg (by omega)]
  have hnew : (d.acquireContextLock contextId).contextIdOf d.calls.length = some contextId := by
    rw [contextIdOf_acquireContextLock, if_pos rfl]
  have hprevSettled : ∀ other, d.prevSettled other = true →
      (d.acquireContextLock contextId).prevSettled other = true := fun other hother => by
    obtain ⟨entry, hentry, hsettled⟩ := prevSettled_iff.mp hother
    have hlt := (List.getElem?_eq_some_iff.mp hentry).1
    refine prevSettled_iff.mpr ⟨entry, ?_, hlater.isSettled hsettled⟩
    rw [hcalls, List.getElem?_append_left hlt, hentry]
  refine ⟨?_, ?_, ?_, ?_, ?_, ?_, ?_, ?_⟩
  · intro p hp
    rw [hlength] at hp
    rw [hothers p (by rintro rfl; simp only [LockPromise.call] at hp; omega), h.fresh p (by omega)]
  · intro other entry hentry
    rw [hcalls, getElem?_append_singleton] at hentry
    split at hentry
    · subst other
      obtain rfl := Option.some.inj hentry
      rcases hprev with ⟨hsome, -⟩ | ⟨hnone, hresolved, hpromises⟩
      · obtain ⟨last, heq, hlast⟩ := h.entry contextId prev hsome
        have hlt := lt_of_contextIdOf hlast.of
        refine .inl ⟨last, heq, hlt, by rw [hof last hlt, hlast.of], fun b h₁ h₂ => ?_⟩
        rw [hof b h₂]
        exact hlast.none_after b h₁
      · refine .inr ⟨hresolved, ?_, fun before hbefore => ?_⟩
        · rw [hpromises, Promises.settle_self (h.fresh (.resolved _) le_rfl)]
          rfl
        · rw [hof before hbefore]
          exact h.noEntry contextId before hnone
    · have hlt := (List.getElem?_eq_some_iff.mp hentry).1
      rcases h.follows other entry hentry with ⟨before, heq, hbefore, hbof, hbetween⟩ | ⟨heq, hres, hall⟩
      · refine .inl ⟨before, heq, hbefore, by rwa [hof before (by omega)], fun b h₁ h₂ => ?_⟩
        rw [hof b (by omega)]
        exact hbetween b h₁ h₂
      · refine .inr ⟨heq, hlater.isSettled hres, fun before hbefore => ?_⟩
        rw [hof before (by omega)]
        exact hall before hbefore
  · intro other
    rw [hothers (.next other) (by simp), hadmitted]
    exact h.next other
  · intro other
    cases h.tail other with
    | waiting hw => exact .waiting (by rw [hothers _ (by simp), hw])
    | held hheld hsettled =>
        exact .held (by rw [hothers _ (by simp), hheld]) (hprevSettled other hsettled)
    | passed hpassed hnext hsettled =>
        exact .passed (by rw [hothers _ (by simp), hpassed]) (by rw [hothers _ (by simp), hnext])
          (hprevSettled other hsettled)
  · intro other hother
    rw [hadmitted] at hother
    exact hprevSettled other (h.admitted other hother)
  · intro contextId' p hp
    rw [hlocks] at hp
    by_cases heq : contextId' = contextId
    · subst heq
      obtain rfl : .tail d.calls.length = p := by simpa using hp
      refine ⟨d.calls.length, rfl, hnew, fun later hlater hlaterOf => ?_⟩
      have := lt_of_contextIdOf hlaterOf
      omega
    · rw [Function.update_of_ne heq] at hp
      obtain ⟨last, rfl, hlast⟩ := h.entry contextId' p hp
      have hlt := lt_of_contextIdOf hlast.of
      refine ⟨last, rfl, by rw [hof last hlt, hlast.of], fun later hlater hlaterOf => ?_⟩
      rw [contextIdOf_acquireContextLock] at hlaterOf
      split at hlaterOf
      · exact heq (Option.some.inj hlaterOf).symm
      · exact hlast.none_after later hlater hlaterOf
  · intro contextId' other hnone hotherOf
    rw [hlocks] at hnone
    by_cases heq : contextId' = contextId
    · simp [heq] at hnone
    · rw [Function.update_of_ne heq] at hnone
      rw [contextIdOf_acquireContextLock] at hotherOf
      split at hotherOf
      · exact heq (Option.some.inj hotherOf).symm
      · exact h.noEntry contextId' other hnone hotherOf
  · rw [hadmitted]
    refine h.inOrder.imp_of_mem fun {a b} ha hb himp heq => ?_
    rw [hof a (Chained.lt_of_prevSettled (h.admitted a ha)),
      hof b (Chained.lt_of_prevSettled (h.admitted b hb))] at heq
    exact himp heq

/-! ## Runs -/

omit [DecidableEq κ] in
theorem chained_empty : Chained ({} : ContextLocks κ) where
  fresh _ _ := rfl
  follows := by simp
  next _ := .inl rfl
  tail _ := .waiting rfl
  admitted := by simp
  entry := by simp
  noEntry _ _ _ h := by simp [contextIdOf] at h
  inOrder := .nil

theorem Chained.apply_release (h : Chained d) (hadmitted : call ∈ d.admitted) :
    ∃ contextId, d.contextIdOf call = some contextId ∧
      d.apply (.release call) = d.release call contextId := by
  obtain ⟨contextId, hof⟩ := contextIdOf_of_prevSettled (h.admitted call hadmitted)
  exact ⟨contextId, hof, by simp only [apply, hof]⟩

theorem Chained.step (h : Chained d) {a : Action κ} (hstep : system.step d a d') :
    Chained d' := by
  obtain ⟨henabled, rfl⟩ := hstep
  cases a with
  | acquireContextLock contextId => exact h.acquireContextLock contextId
  | release call =>
      have hadmitted : call ∈ d.admitted := of_decide_eq_true henabled
      obtain ⟨contextId, -, happly⟩ := h.apply_release hadmitted
      rw [happly]
      exact h.release hadmitted contextId
  | chain call =>
      obtain ⟨hprev, htail⟩ := Bool.and_eq_true_iff.mp henabled
      exact h.chain hprev htail
  | adopt call => exact h.adopt henabled
  | enter call =>
      obtain ⟨hprev, hnot⟩ := Bool.and_eq_true_iff.mp henabled
      exact h.enter hprev (by simpa using hnot)

/-! ## What the calls have asked for -/

/-- The context ids of the calls, in their order. -/
def acquired (labels : List (Action κ)) : List κ :=
  labels.filterMap fun
    | .acquireContextLock contextId => some contextId
    | _ => none

/-- Every context that was ever locked has a call whose release has not been called yet. -/
def InUse (labels : List (Action κ)) : Prop :=
  ∀ contextId ∈ acquired labels,
    ∃ call, (acquired labels)[call]? = some contextId ∧ .release call ∉ labels

/-- The state of a run, against what the callers did. -/
structure Tracks (labels : List (Action κ)) (d : ContextLocks κ) : Prop where
  chained : Chained d
  calls : d.calls.map (·.contextId) = acquired labels
  released : ∀ call, (d.promises (.next call)).isSettled = true ↔ .release call ∈ labels

theorem Tracks.step {labels : List (Action κ)} {a : Action κ} (h : Tracks labels d)
    (hstep : system.step d a d') : Tracks (labels ++ [a]) d' := by
  have hchained := h.chained.step hstep
  obtain ⟨henabled, rfl⟩ := hstep
  have hsame : acquired (labels ++ [a]) = acquired labels ++ acquired [a] :=
    List.filterMap_append
  have hkept : (∀ call, a ≠ .release call) → (∀ call, (d.apply a).promises (.next call) =
      d.promises (.next call)) → ∀ call, ((d.apply a).promises (.next call)).isSettled = true ↔
        .release call ∈ labels ++ [a] := fun hne hpromises call => by
    rw [hpromises, h.released, List.mem_append, List.mem_singleton]
    exact ⟨.inl, fun hor => hor.resolve_right fun heq => hne call heq.symm⟩
  cases a with
  | acquireContextLock contextId =>
      refine ⟨hchained, ?_, hkept (by simp) fun call => ?_⟩
      · obtain ⟨prev, hcalls, -⟩ := calls_acquireContextLock d contextId
        change (d.acquireContextLock contextId).calls.map _ = _
        rw [hcalls, hsame, List.map_append, h.calls]
        rfl
      · exact (promises_acquireContextLock d contextId).2 _ (by simp)
  | release call =>
      have hadmitted : call ∈ d.admitted := of_decide_eq_true henabled
      obtain ⟨contextId, -, happly⟩ := h.chained.apply_release hadmitted
      refine ⟨hchained, ?_, fun other => ?_⟩
      · rw [happly, hsame]
        exact h.calls.trans (List.append_nil _).symm
      · rw [happly, List.mem_append, List.mem_singleton]
        by_cases heq : other = call
        · subst heq
          have hsettled : ((d.release other contextId).promises (.next other)).isSettled = true := by
            rcases h.chained.next other with hnext | ⟨hnext, -⟩
            · have hself := Promises.settle_self hnext (.fulfilled ())
              change (d.promises.settle _ _ _).isSettled = true
              rw [hself]
              rfl
            · exact (Promises.later_settle _ _ _).isSettled (by rw [hnext]; rfl)
          exact iff_of_true hsettled (.inr rfl)
        · have hpromises : (d.release call contextId).promises (.next other) =
              d.promises (.next other) := Promises.settle_ne (by simpa using heq) _
          rw [hpromises, h.released]
          exact ⟨.inl, fun hor => hor.resolve_right fun he => heq (by simpa using he)⟩
  | chain call =>
      refine ⟨hchained, ?_, hkept (by simp) fun other => Promises.follow_ne (by simp)⟩
      rw [hsame]
      exact h.calls.trans (List.append_nil _).symm
  | adopt call =>
      refine ⟨hchained, ?_, hkept (by simp) fun other => Promises.adopt_ne (by simp)⟩
      rw [hsame]
      exact h.calls.trans (List.append_nil _).symm
  | enter call =>
      refine ⟨hchained, ?_, hkept (by simp) fun other => rfl⟩
      rw [hsame]
      exact h.calls.trans (List.append_nil _).symm

theorem tracks_of_run {labels : List (Action κ)} (h : system.Run {} labels d) :
    Tracks labels d := by
  generalize hs : ({} : ContextLocks κ) = start at h
  induction h with
  | nil =>
      subst hs
      exact ⟨chained_empty, rfl, fun call => iff_of_false (by simp) (by simp)⟩
  | snoc _ hstep ih => exact ih.step hstep

/-! ## When the jobs of a context are done -/

/-- The caller has the lock: it was let in and has not released. -/
structure IsHolder (d : ContextLocks κ) (contextId : κ) (call : ℕ) : Prop where
  of : d.contextIdOf call = some contextId
  admitted : call ∈ d.admitted
  holding : (d.promises (.next call)).isSettled = false

structure IsWaiter (d : ContextLocks κ) (contextId : κ) (call : ℕ) : Prop where
  of : d.contextIdOf call = some contextId
  waiting : call ∉ d.admitted

/-- The event loop has run every job of the context's calls. -/
def Quiet (d : ContextLocks κ) (contextId : κ) : Prop :=
  ∀ (a : Action κ) (call : ℕ), a.job = some call → d.contextIdOf call = some contextId →
    d.enabled a = false

omit [DecidableEq κ] in
theorem Quiet.not_enabled {contextId : κ} {P : Prop} (h : Quiet d contextId) (a : Action κ)
    (hjob : a.job = some call) (hof : d.contextIdOf call = some contextId)
    (henabled : d.enabled a = true) : P := by
  rw [h a call hjob hof] at henabled
  exact absurd henabled Bool.false_ne_true

omit [DecidableEq κ] in
/-- A caller waits only behind one that holds the same context. -/
theorem Chained.waits (h : Chained d) {contextId : κ} (hquiet : Quiet d contextId)
    (hof : d.contextIdOf call = some contextId) (hprev : d.prevSettled call = false) :
    ∃ before < call, IsHolder d contextId before := by
  induction call using Nat.strongRecOn with
  | ind call ih =>
      obtain ⟨entry, hentry, rfl⟩ := contextIdOf_eq_some.mp hof
      have hsettled : (d.promises entry.prev).isSettled = false := by
        simpa [prevSettled, hentry] using hprev
      rcases h.follows call entry hentry with ⟨before, heq, hlt, hbof, -⟩ | ⟨heq, hresolved, -⟩
      · rw [heq] at hsettled
        cases h.tail before with
        | waiting htail =>
            cases hbefore : d.prevSettled before with
            | true =>
                exact hquiet.not_enabled (.chain before) rfl hbof
                  (by simp [enabled, hbefore, htail])
            | false =>
                obtain ⟨first, hfirst, hholder⟩ := ih before hlt hbof hbefore
                exact ⟨first, hfirst.trans hlt, hholder⟩
        | held htail hbefore =>
            refine ⟨before, hlt, hbof, ?_, ?_⟩
            · by_contra hnot
              exact hquiet.not_enabled (.enter before) rfl hbof
                (by simp [enabled, hbefore, hnot])
            · cases hnext : (d.promises (.next before)).isSettled with
              | false => rfl
              | true =>
                  exact hquiet.not_enabled (.adopt before) rfl hbof
                    (by simp [enabled, Promises.adopts, htail, hnext])
        | passed htail _ _ => simp [htail] at hsettled
      · rw [heq, hresolved] at hsettled
        exact absurd hsettled.symm Bool.false_ne_true

/-! ## Jobs come to an end -/

/-- The jobs of a call: two of its tail, and its own admission. -/
def work (d : ContextLocks κ) (call : ℕ) : ℕ :=
  (d.promises (.tail call)).toGo + if call ∈ d.admitted then 0 else 1

def jobsLeft (d : ContextLocks κ) : ℕ := ∑ call ∈ Finset.range d.calls.length, d.work call

def Action.isCall : Action κ → Bool
  | .acquireContextLock _ => true
  | _ => false

omit [DecidableEq κ] in
theorem Advance.work_le (h : Advance d d') (call : ℕ) : d'.work call ≤ d.work call := by
  have hadmitted : (if call ∈ d'.admitted then 0 else 1) ≤ if call ∈ d.admitted then 0 else 1 := by
    by_cases hmem : call ∈ d.admitted
    · simp [hmem, h.admitted call hmem]
    · rw [if_neg hmem]
      split <;> omega
  exact Nat.add_le_add (h.later.toGo_le (.tail call)) hadmitted

omit [DecidableEq κ] in
theorem Advance.jobsLeft_le (h : Advance d d') : d'.jobsLeft ≤ d.jobsLeft := by
  rw [jobsLeft, jobsLeft, h.calls]
  exact Finset.sum_le_sum fun other _ => h.work_le other

omit [DecidableEq κ] in
theorem Advance.jobsLeft_lt (h : Advance d d') (hlt : call < d.calls.length)
    (hwork : d'.work call < d.work call) : d'.jobsLeft < d.jobsLeft := by
  rw [jobsLeft, jobsLeft, h.calls]
  exact Finset.sum_lt_sum (fun other _ => h.work_le other) ⟨call, Finset.mem_range.mpr hlt, hwork⟩

theorem Chained.jobsLeft_job (h : Chained d) {a : Action κ} (hjob : a.job = some call)
    (henabled : d.enabled a = true) : (d.apply a).jobsLeft < d.jobsLeft := by
  cases a with
  | acquireContextLock contextId => exact absurd hjob (by simp [Action.job])
  | release _ => exact absurd hjob (by simp [Action.job])
  | chain call' =>
      obtain ⟨hprev, htail⟩ := Bool.and_eq_true_iff.mp henabled
      have hadvance : Advance d (d.chain call') :=
        ⟨rfl, rfl, Promises.later_follow _ _ _, fun _ ha => ha⟩
      have hpending := PromiseState.isPending_iff.mp htail
      refine hadvance.jobsLeft_lt (Chained.lt_of_prevSettled hprev) (Nat.add_lt_add_right ?_ _)
      change (d.promises.follow _ _ _).toGo < _
      rw [Promises.follow_self hpending, hpending]
      exact Nat.one_lt_two
  | adopt call' =>
      obtain ⟨q, o, htail, ho⟩ := Promises.adopts_iff.mp henabled
      have hadvance : Advance d (d.adopt call') :=
        ⟨rfl, rfl, Promises.later_adopt _ _, fun _ ha => ha⟩
      have hlt : call' < d.calls.length := by
        by_contra hge
        rw [h.fresh (.tail call') (Nat.le_of_not_lt hge)] at htail
        simp at htail
      refine hadvance.jobsLeft_lt hlt (Nat.add_lt_add_right ?_ _)
      change (d.promises.adopt _ _).toGo < _
      rw [Promises.adopt_self htail ho, htail]
      exact Nat.zero_lt_one
  | enter call' =>
      obtain ⟨hprev, hnot⟩ := Bool.and_eq_true_iff.mp henabled
      have hnotMem : call' ∉ d.admitted := by simpa using hnot
      have hadvance : Advance d (d.enter call') :=
        ⟨rfl, rfl, .refl _, fun _ ha => List.mem_append_left _ ha⟩
      refine hadvance.jobsLeft_lt (Chained.lt_of_prevSettled hprev) ?_
      have hmem : call' ∈ (d.enter call').admitted := List.mem_append_right _ (by simp)
      simp only [work, hmem, hnotMem, if_true, if_false]
      exact Nat.lt_succ_self _

theorem jobsLeft_acquireContextLock (d : ContextLocks κ) (contextId : κ) :
    (d.acquireContextLock contextId).jobsLeft ≤ d.jobsLeft + 3 := by
  obtain ⟨hlater, -⟩ := promises_acquireContextLock d contextId
  obtain ⟨prev, hcalls, -⟩ := calls_acquireContextLock d contextId
  have hadmitted : (d.acquireContextLock contextId).admitted = d.admitted := by
    simp [acquireContextLock]
  have hnew : (d.acquireContextLock contextId).work d.calls.length ≤ 3 := by
    simp only [work]
    cases (d.acquireContextLock contextId).promises (.tail d.calls.length) <;>
      simp only [PromiseState.toGo] <;> split <;> omega
  have hold : ∑ call ∈ Finset.range d.calls.length, (d.acquireContextLock contextId).work call ≤
      d.jobsLeft := by
    refine Finset.sum_le_sum fun other _ => ?_
    simp only [work, hadmitted]
    exact Nat.add_le_add_right (hlater.toGo_le _) _
  rw [jobsLeft, hcalls, List.length_append, List.length_singleton, Finset.sum_range_succ]
  exact Nat.add_le_add hold hnew

theorem Chained.jobs (h : Chained d) {more : List (Action κ)} (hrun : system.Run d more d') :
    Chained d' ∧ more.countP (·.job.isSome) + d'.jobsLeft ≤
      d.jobsLeft + 3 * more.countP Action.isCall := by
  induction hrun with
  | nil => exact ⟨h, by simp⟩
  | @snoc labels t a u _ hstep ih =>
      obtain ⟨ht, hcount⟩ := ih
      refine ⟨ht.step hstep, ?_⟩
      obtain ⟨henabled, rfl⟩ := hstep
      rw [List.countP_append, List.countP_append, List.countP_singleton, List.countP_singleton]
      cases hjob : a.job with
      | some call =>
          have hless := ht.jobsLeft_job hjob henabled
          simp only [Option.isSome_some, if_true]
          omega
      | none =>
          cases a with
          | acquireContextLock contextId =>
              have hmore := jobsLeft_acquireContextLock t contextId
              simp only [Option.isSome_none, Bool.false_eq_true, if_false, Action.isCall, if_true]
              change _ + (t.acquireContextLock contextId).jobsLeft ≤ _
              omega
          | release call =>
              have hadmitted : call ∈ t.admitted := of_decide_eq_true henabled
              obtain ⟨contextId, -, happly⟩ := ht.apply_release hadmitted
              have hadvance : Advance t (t.release call contextId) :=
                ⟨rfl, ht.contextLocks_release call contextId, Promises.later_settle _ _ _,
                  fun _ ha => ha⟩
              have hless := hadvance.jobsLeft_le
              simp only [Option.isSome_none, Bool.false_eq_true, if_false, Action.isCall, happly]
              omega
          | _ => simp [Action.job] at hjob

/-! ## What the lock keeps, and what it does not -/

/-- The lock as such. -/
structure Locks (d : ContextLocks κ) : Prop where
  exclusive : ∀ contextId call other, IsHolder d contextId call → IsHolder d contextId other →
    call = other
  /-- Admitted in the order of the calls, and each once. -/
  inOrder : d.admitted.Pairwise fun a b => d.contextIdOf a = d.contextIdOf b → a < b
  /-- None is admitted before an earlier one of its context. -/
  noneSkipped : ∀ call ∈ d.admitted, ∀ before < call,
    d.contextIdOf before = d.contextIdOf call → before ∈ d.admitted
  /-- What other contexts do, or have yet to do, keeps nobody waiting. -/
  independent : ∀ contextId, Quiet d contextId → ∀ call, IsWaiter d contextId call →
    ∃ before < call, IsHolder d contextId before
  /-- The jobs do come to an end. -/
  jobs : ∀ more d', system.Run d more d' →
    more.countP (·.job.isSome) ≤ d.jobsLeft + 3 * more.countP Action.isCall

/-- The table has no entry for a context that nobody holds or waits for. -/
def Clean (d : ContextLocks κ) : Prop :=
  ∀ contextId, (∀ call, ¬ IsHolder d contextId call ∧ ¬ IsWaiter d contextId call) →
    d.contextLocks contextId = none

omit [DecidableEq κ] in
theorem Chained.released_of_admitted (h : Chained d) {other : ℕ} (hother : other ∈ d.admitted)
    (hlt : call < other) (hsame : d.contextIdOf call = d.contextIdOf other) :
    (d.promises (.next call)).isSettled = true := by
  rw [h.released_before (h.admitted other hother) call hlt hsame]
  rfl

theorem Chained.locks (h : Chained d) : Locks d := by
  refine ⟨?_, h.inOrder, ?_, ?_, ?_⟩
  · intro contextId call other hcall hother
    have hsame : d.contextIdOf call = d.contextIdOf other := hcall.of.trans hother.of.symm
    rcases Nat.lt_trichotomy call other with hlt | heq | hgt
    · have := h.released_of_admitted hother.admitted hlt hsame
      rw [hcall.holding] at this
      exact absurd this Bool.false_ne_true
    · exact heq
    · have := h.released_of_admitted hcall.admitted hgt hsame.symm
      rw [hother.holding] at this
      exact absurd this Bool.false_ne_true
  · intro call hcall before hbefore hsame
    have hreleased := h.released_before (h.admitted call hcall) before hbefore hsame
    rcases h.next before with hnext | ⟨-, hmem⟩
    · simp [hnext] at hreleased
    · exact hmem
  · intro contextId hquiet call hwaiter
    refine h.waits hquiet hwaiter.of ?_
    cases hprev : d.prevSettled call with
    | false => rfl
    | true =>
        exact hquiet.not_enabled (.enter call) rfl hwaiter.of
          (by simp [enabled, hprev, hwaiter.waiting])
  · intro more d' hrun
    have hcount := (h.jobs hrun).2
    omega

omit [DecidableEq κ] in
theorem Tracks.acquired_getElem? {labels : List (Action κ)} (h : Tracks labels d) (call : ℕ) :
    (acquired labels)[call]? = d.contextIdOf call := by
  rw [← h.calls, List.getElem?_map]
  rfl

omit [DecidableEq κ] in
/-- An entry stays from the first call for its context on. -/
theorem Tracks.entry_iff {labels : List (Action κ)} (h : Tracks labels d) (contextId : κ) :
    d.contextLocks contextId = none ↔ contextId ∉ acquired labels := by
  constructor
  · intro hnone hmem
    obtain ⟨call, hcall⟩ := List.mem_iff_getElem?.mp hmem
    rw [h.acquired_getElem?] at hcall
    exact h.chained.noEntry contextId call hnone hcall
  · intro hnot
    cases hentry : d.contextLocks contextId with
    | none => rfl
    | some p =>
        obtain ⟨last, -, hlast⟩ := h.chained.entry contextId p hentry
        refine absurd (List.mem_iff_getElem?.mpr ⟨last, ?_⟩) hnot
        rw [h.acquired_getElem?, hlast.of]

theorem Tracks.clean_iff {labels : List (Action κ)} (h : Tracks labels d) :
    Clean d ↔ InUse labels := by
  have hin : ∀ contextId call, d.contextIdOf call = some contextId →
      (.release call ∉ labels ↔ IsHolder d contextId call ∨ IsWaiter d contextId call) := by
    intro contextId call hof
    rw [← h.released, Bool.not_eq_true]
    constructor
    · intro hnot
      by_cases hmem : call ∈ d.admitted
      · exact .inl ⟨hof, hmem, hnot⟩
      · exact .inr ⟨hof, hmem⟩
    · rintro (hholder | hwaiter)
      · exact hholder.holding
      · rcases h.chained.next call with hnext | ⟨-, hmem⟩
        · rw [hnext]
          rfl
        · exact absurd hmem hwaiter.waiting
  constructor
  · intro hclean contextId hmem
    by_contra hnone
    refine (h.entry_iff contextId).mp (hclean contextId fun call => ?_) hmem
    have hreleased : ∀ call, d.contextIdOf call = some contextId → .release call ∈ labels :=
      fun call hof => by
        by_contra hnot
        exact hnone ⟨call, by rw [h.acquired_getElem?, hof], hnot⟩
    constructor
    · intro hholder
      exact (hin contextId call hholder.of).mpr (.inl hholder) (hreleased call hholder.of)
    · intro hwaiter
      exact (hin contextId call hwaiter.of).mpr (.inr hwaiter) (hreleased call hwaiter.of)
  · intro huse contextId hnobody
    rw [h.entry_iff]
    intro hmem
    obtain ⟨call, hcall, hnot⟩ := huse contextId hmem
    rw [h.acquired_getElem?] at hcall
    rcases (hin contextId call hcall).mp hnot with hholder | hwaiter
    · exact (hnobody call).1 hholder
    · exact (hnobody call).2 hwaiter

/-- The lock excludes, admits in order and keeps contexts apart in every run. Its table is
clean exactly as long as no context that was ever locked is free again. -/
theorem locks_and_clean_iff {labels : List (Action κ)} (h : system.Run {} labels d) :
    Locks d ∧ (Clean d ↔ InUse labels) :=
  ⟨(tracks_of_run h).chained.locks, (tracks_of_run h).clean_iff⟩

/-- Two turns of one context, the second let in by the release of the first. -/
theorem locks_and_clean_iff_example :
    Locks (List.foldl apply ({} : ContextLocks ℕ)
        [.acquireContextLock 7, .acquireContextLock 7, .enter 0, .chain 0, .release 0, .adopt 0,
          .enter 1]) ∧
      (Clean (List.foldl apply ({} : ContextLocks ℕ)
          [.acquireContextLock 7, .acquireContextLock 7, .enter 0, .chain 0, .release 0, .adopt 0,
            .enter 1]) ↔
        InUse ([.acquireContextLock 7, .acquireContextLock 7, .enter 0, .chain 0, .release 0,
          .adopt 0, .enter 1] : List (Action ℕ))) :=
  locks_and_clean_iff (System.Legal.run (by decide +kernel))

/-- One turn, released: its entry stays. -/
theorem not_clean_after_release :
    ¬ ∀ (labels : List (Action ℕ)) (d : ContextLocks ℕ), system.Run {} labels d → Clean d := by
  intro hclean
  have hrun : system.Run ({} : ContextLocks ℕ) [.acquireContextLock 7, .enter 0, .release 0]
      (List.foldl apply {} [.acquireContextLock 7, .enter 0, .release 0]) :=
    System.Legal.run (by decide +kernel)
  generalize hd : List.foldl apply ({} : ContextLocks ℕ)
    [.acquireContextLock 7, .enter 0, .release 0] = d at hrun
  have hlength : d.calls.length = 1 := by rw [← hd]; rfl
  have hfirst : ∀ call, d.contextIdOf call = some 7 → call = 0 := fun call hof => by
    have := lt_of_contextIdOf hof
    omega
  have hnobody : ∀ call, ¬ IsHolder d 7 call ∧ ¬ IsWaiter d 7 call := by
    intro call
    constructor
    · intro hholder
      obtain rfl := hfirst call hholder.of
      exact absurd hholder.holding (by rw [← hd]; decide +kernel)
    · intro hwaiter
      obtain rfl := hfirst call hwaiter.of
      exact hwaiter.waiting (by rw [← hd]; decide +kernel)
  exact absurd (hclean _ _ hrun 7 hnobody) (by rw [← hd]; decide +kernel)

end Table

end ContextLocks

end VicoopBridge
