import VicoopBridge.Verification.TaskStore.WriteGuard

/-! # Whose task it is

The columns that say whose a task is are filled once, and what only hands values over inside the
server is never stored. -/

namespace VicoopBridge

open Library

/-! ## Rows -/

/-- The metadata holds none of the server's own values. -/
def Bare (metadata : Option JsonObject) : Prop :=
  ∀ key ∈ internalMetadataKeys, metadata.bind (JsonObject.field · key) = none

structure Task.Sealed (task : Task) : Prop where
  metadata : Bare task.metadata
  history : ∀ m ∈ task.history.getD [], Bare m.metadata
  message : ∀ m ∈ task.status.message, Bare m.metadata

/-- What a row says of its owner, it goes on to say. -/
structure TaskRow.Later (r r' : TaskRow) : Prop where
  agent : r'.ownerAgent = r.ownerAgent
  principal : r.ownerPrincipal.isSome → r'.ownerPrincipal = r.ownerPrincipal
  actor : r.ownerActor.isSome → r'.ownerActor = r.ownerActor
  profile : r.authorizationProfile.isSome → r'.authorizationProfile = r.authorizationProfile
  key : r.authorizationKey.isSome → r'.authorizationKey = r.authorizationKey

theorem TaskRow.Later.refl (r : TaskRow) : r.Later r :=
  ⟨rfl, fun _ => rfl, fun _ => rfl, fun _ => rfl, fun _ => rfl⟩

theorem TaskRow.Later.trans {r r' r'' : TaskRow} (h : r.Later r') (h' : r'.Later r'') :
    r.Later r'' := by
  have hkept {x x' x'' : Option String} (hx : x.isSome → x' = x) (hx' : x'.isSome → x'' = x') :
      x.isSome → x'' = x := fun hsome => (hx' (by rwa [hx hsome])).trans (hx hsome)
  exact ⟨h'.agent.trans h.agent, hkept h.principal h'.principal, hkept h.actor h'.actor,
    hkept h.profile h'.profile, hkept h.key h'.key⟩

theorem bare_without (o : JsonObject) : Bare (o.without internalMetadataKeys).nonEmpty := by
  intro key hkey
  rw [JsonObject.bind_nonEmpty_field, JsonObject.field_without, if_pos hkey]

theorem bare_stripTaskMetadata (metadata : Option JsonObject) :
    Bare (stripTaskMetadata metadata) := by
  cases metadata with
  | none => exact fun _ _ => rfl
  | some m => exact bare_without m

theorem sealed_stripSensitiveMetadata (task : Task) (preserveEnvelope : Bool) :
    (stripSensitiveMetadata task preserveEnvelope).Sealed where
  metadata := bare_stripTaskMetadata _
  history m hm := by
    have hstripped (history : Option (List Message))
        (hm : m ∈ (history.map (·.map stripMessageMetadata)).getD []) : Bare m.metadata := by
      cases history with
      | none => cases hm
      | some history =>
          obtain ⟨m', -, rfl⟩ := List.mem_map.mp hm
          exact bare_without _
    exact hstripped _ hm
  message m hm := by
    obtain ⟨m', -, rfl⟩ := Option.map_eq_some_iff.mp hm
    exact bare_without _

/-! ## Writes -/

/-- The row is there after the step, as it was or written. -/
def RowStep (row row' : Option TaskRow) : Prop :=
  (∀ r, row = some r → ∃ r', row' = some r' ∧ r.Later r') ∧
    ((∀ r, row = some r → r.task.Sealed) → ∀ r', row' = some r' → r'.task.Sealed)

theorem RowStep.refl (row : Option TaskRow) : RowStep row row :=
  ⟨fun r h => ⟨r, h, .refl r⟩, id⟩

namespace TaskStore

variable {store : TaskStore} {row : Option TaskRow}

theorem writeTask_step (row : Option TaskRow) (task : Task) (initial : TaskAuthorizationBinding) :
    RowStep row (store.writeTask row task initial) := by
  have hsealed := sealed_stripSensitiveMetadata task store.persistRequestEnvelope
  cases row with
  | none =>
      refine ⟨by simp, fun _ r' hr' => ?_⟩
      obtain rfl := Option.some.inj hr'
      exact hsealed
  | some r =>
      simp only [writeTask]
      split
      · have hor {x : Option String} (y : Option String) (hx : x.isSome) : x.or y = x := by
          rw [Option.or_of_isSome hx]
        refine ⟨fun r₀ h => ?_, fun _ r' hr' => ?_⟩
        · obtain rfl := Option.some.inj h
          exact ⟨_, rfl, rfl, hor _, hor _, hor _, hor _⟩
        · obtain rfl := Option.some.inj hr'
          exact hsealed
      · exact .refl _

theorem updateTask_step {writer : Option ExecutionWriter} {taskId : String} {update : TaskUpdate}
    {result : TaskUpdateResult} (h : store.updateTask row writer taskId update = .ok result) :
    RowStep row result.row := by
  unfold updateTask at h
  dsimp only at h
  repeat' split at h
  all_goals cases h
  all_goals first | exact .refl row | exact writeTask_step row _ _

theorem markExecution_step {taskId freshId dispatchId : String} {executionId : Option String}
    {row' : Option TaskRow}
    (h : store.markExecution row taskId freshId executionId = .ok (dispatchId, row')) :
    RowStep row row' := by
  unfold markExecution at h
  dsimp only at h
  split at h
  · cases h
  · obtain ⟨-, rfl⟩ := Prod.mk.inj (Except.ok.inj h)
    obtain ⟨hkept, hsealed⟩ := @writeTask_step store row _ _
    refine ⟨fun r hr => ?_, fun hs r' hr' => ?_⟩
    · obtain ⟨r', hr', hlater⟩ := hkept r hr
      exact ⟨{ r' with dispatchId := some (executionId.getD freshId) }, by rw [hr']; rfl,
        hlater.agent, hlater.principal, hlater.actor, hlater.profile, hlater.key⟩
    · obtain ⟨written, hwritten, rfl⟩ := Option.map_eq_some_iff.mp hr'
      exact hsealed hs written hwritten

end TaskStore

/-! ## Runs -/

namespace StoreState

variable {s t : StoreState}

theorem row_step {a : StoreAction} (hstep : storeSystem.step s a t) (ha : a ≠ .delete) :
    RowStep s.row t.row := by
  obtain ⟨henabled, rfl⟩ := hstep
  cases a with
  | create id freshContext contextId metadata =>
      rw [henabled.1]
      exact TaskStore.writeTask_step none _ _
  | messageRequest request => exact .refl _
  | update request update =>
      simp only [apply]
      split
      · exact .refl _
      · exact TaskStore.updateTask_step ‹_›
  | mark request freshId executionId acknowledged =>
      simp only [apply, commitMark]
      split
      · exact .refl _
      · split <;> exact TaskStore.markExecution_step ‹_›
  | produce request artifacts =>
      simp only [apply, produce]
      repeat' split
      all_goals exact .refl _
  | delete => exact absurd rfl ha

structure OwnershipSpec (s : StoreState) : Prop where
  /-- No credential and no identity of a request is stored with the task. -/
  sealed : ∀ r, s.row = some r → r.task.Sealed
  /-- Until the task is deleted. -/
  kept : ∀ r, s.row = some r → ∀ labels t, storeSystem.Run s labels t → StoreAction.delete ∉ labels →
    ∃ r', t.row = some r' ∧ r.Later r'

theorem ownership_of_reachable (h : storeSystem.Reachable s) : s.OwnershipSpec where
  sealed := by
    refine h.invariant (I := fun s => ∀ r, s.row = some r → r.task.Sealed) ?_ ?_
    · rintro s ⟨taskId, store, writers, rfl, -⟩ r hr
      cases hr
    · intro s a t hsealed hstep
      by_cases ha : a = .delete
      · obtain ⟨-, rfl⟩ := ha ▸ hstep
        exact fun r hr => by cases hr
      · exact (row_step hstep ha).2 hsealed
  kept r hr labels t hrun hkeep := by
    induction hrun with
    | nil => exact ⟨r, hr, .refl r⟩
    | snoc _ hlast ih =>
        rw [List.mem_append, List.mem_singleton, not_or] at hkeep
        obtain ⟨r', hr', hlater⟩ := ih hkeep.1
        obtain ⟨r'', hr'', hlater'⟩ := (row_step hlast (Ne.symm hkeep.2)).1 r' hr'
        exact ⟨r'', hr'', hlater.trans hlater'⟩

/-- A task that was created in the name of a caller. -/
theorem ownership_of_reachable_created :
    let s : StoreState := { taskId := "task", store := {}, writers := fun _ => none }
    let a := StoreAction.create "task" "context" none (some [("_principalId", .str "alice")])
    (s.apply a).row.bind (·.ownerPrincipal) = some "alice" ∧ (s.apply a).OwnershipSpec := by
  intro s a
  have hinit : storeSystem.Reachable s :=
    .of_init ⟨"task", {}, fun _ => none, rfl, fun _ => .inl rfl⟩
  have henabled : s.enabled a := ⟨rfl, rfl⟩
  exact ⟨by decide +kernel, ownership_of_reachable (hinit.step ⟨henabled, rfl⟩)⟩

end StoreState

end VicoopBridge
