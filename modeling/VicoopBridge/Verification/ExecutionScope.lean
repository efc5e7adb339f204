import VicoopBridge.Model.ExecutionScope

/-! # Agreement on execution scopes

The server derives a scope from an identity, and the client derives the identity from the
scope again and compares it with the caller context beside it. -/

namespace VicoopBridge

open Library

/-- One dispatch of a task to an agent, on behalf of a caller. -/
structure CallerDispatch where
  agentId : String
  capabilities : Option (List String)
  handoff : AuthenticatedHandoff
  presented : List CallerAttestationV2 := []
  freshId : String

/-- Who the HTTP boundary has authenticated: a direct principal, or a subject on behalf of
which an issuer acts. -/
inductive CallerIdentity where
  | direct (principalId : Option String)
  | federated (issuer subject : Option String)
  deriving DecidableEq

namespace CallerDispatch

variable (sha256 : String → String) (d : CallerDispatch)

def assigned : AssignedCaller :=
  assignCaller sha256 d.agentId d.capabilities d.handoff d.presented d.freshId

def identity : CallerIdentity :=
  if d.handoff.delegated then .federated d.handoff.actorId d.handoff.principalId
  else .direct d.handoff.principalId

end CallerDispatch

/-! ## The preimage -/

/-- The hashed text tells the agent and the principal. -/
theorem executionScopePreimage_inj {agentId agentId' principalId principalId' : String}
    (h : executionScopePreimage agentId principalId =
      executionScopePreimage agentId' principalId') :
    agentId = agentId' ∧ principalId = principalId' := by
  have harray := JsonString.array_injective (String.ofList_injective h)
  simp only [List.cons.injEq, and_true, true_and] at harray
  exact ⟨harray.2.1, harray.2.2⟩

/-- The identity that an environment is keyed by. -/
def identityOfPrincipal (principalId : String) : CallerIdentity :=
  match parseFederatedPrincipal principalId with
  | some tuple => .federated (some tuple.issuer) (some tuple.subject)
  | none => .direct (some principalId)

/-- What a scope's principal says about the identity behind it. -/
inductive ScopePrincipal (input : AuthenticatedHandoff) (principalId : String) : Prop where
  | direct : input.delegated = false → input.principalId = some principalId →
      parseFederatedPrincipal principalId = none → ScopePrincipal input principalId
  | federated (tuple : FederatedPrincipalInput) : input.delegated = true →
      parseFederatedPrincipal principalId = some tuple → input.actorId = some tuple.issuer →
      input.principalId = some tuple.subject → ScopePrincipal input principalId

theorem scopePrincipal_cases {capabilities : Option (List String)}
    {input : AuthenticatedHandoff} {principalId : String}
    (h : scopePrincipal capabilities input = some principalId) :
    ScopePrincipal input principalId := by
  simp only [scopePrincipal, Option.bind_eq_bind, Option.bind_eq_some_iff] at h
  obtain ⟨subject, hsubject, h⟩ := h
  have hprincipal : input.principalId = some subject := (Option.filter_eq_some_iff.mp hsubject).1
  cases hdelegated : input.delegated with
  | true =>
      simp only [hdelegated, if_true, Option.bind_none] at h
      split at h
      · simp at h
      · simp only [Option.bind_eq_some_iff] at h
        obtain ⟨key, -, tuple, htuple, h⟩ := h
        split at h
        · simp at h
        · rename_i hmatch
          push Not at hmatch
          obtain rfl := Option.some.inj h
          exact .federated tuple hdelegated htuple hmatch.1.symm (hmatch.2 ▸ hprincipal)
  | false =>
      simp only [hdelegated, Bool.false_eq_true, if_false] at h
      split at h
      · simp at h
      · rename_i hdirect
        obtain rfl := Option.some.inj h
        exact .direct hdelegated hprincipal (by simpa using hdirect)

/-- A scope that is resolved is well formed and carries the digest of its own preimage. -/
structure ResolvedScope (sha256 : String → String) (agentId : String)
    (capabilities : Option (List String)) (input : AuthenticatedHandoff)
    (scope : ExecutionScopeV1) : Prop where
  supported : supportsExecutionScopeV1 capabilities = true
  principal : ScopePrincipal input scope.principalId
  policy : scope.policy = executionScopePolicy scope.principalId
  id : scope.id = sha256 (executionScopePreimage agentId scope.principalId)
  agentId_eq : scope.agentId = agentId
  valid : scope.valid = true

theorem resolveExecutionScope_spec {sha256 : String → String} {agentId : String}
    {capabilities : Option (List String)} {input : AuthenticatedHandoff}
    {scope : ExecutionScopeV1}
    (h : resolveExecutionScope sha256 agentId capabilities input = some scope) :
    ResolvedScope sha256 agentId capabilities input scope := by
  simp only [resolveExecutionScope, Option.bind_eq_bind] at h
  split at h
  · simp at h
  · rename_i hsupported
    simp only [Option.bind_eq_some_iff] at h
    obtain ⟨principalId, hprincipal, h⟩ := h
    split at h
    · rename_i hvalid
      obtain rfl := Option.some.inj h
      exact ⟨by simpa using hsupported, scopePrincipal_cases hprincipal, rfl, rfl, rfl, hvalid⟩
    · simp at h

/-! ## Agreement -/

/-- With execution scopes the caller context has the second version, and the frame has an
execution. -/
theorem supportsExecutionScopeV1_iff {capabilities : Option (List String)} :
    supportsExecutionScopeV1 capabilities = true ↔
      advertises capabilities executionScopeV1Capability = true ∧
        advertises capabilities callerContextV2Capability = true ∧
        advertises capabilities taskReplayCapability = true := by
  simp [supportsExecutionScopeV1]

theorem createCanonicalCallerContext_spec {principalId actorId : Option String}
    {presented : List CallerAttestationV2} {context : CallerContextV2}
    (h : createCanonicalCallerContext principalId actorId presented = some context) :
    (context.valid && !context.isEmpty) = true ∧ context.principal = principalId ∧
      context.actor = actorId := by
  simp only [createCanonicalCallerContext] at h
  generalize (if presented = [] then none else some presented) = attestations at h
  split at h
  · rename_i hvalid
    obtain rfl := Option.some.inj h
    exact ⟨hvalid, rfl, rfl⟩
  · simp at h

/-- A caller context that is sent is the identity as it was handed over. -/
theorem serialized_context {principalId actorId : Option String}
    {presented : List CallerAttestationV2} {caller : CallerContext}
    (h : serializeCallerContext (createCanonicalCallerContext principalId actorId presented)
      (some .v2) = some caller) :
    ∃ context : CallerContextV2, caller = .v2 context ∧ context.valid = true ∧
      context.principal = principalId ∧ context.actor = actorId := by
  cases hcreated : createCanonicalCallerContext principalId actorId presented with
  | none => simp [hcreated, serializeCallerContext] at h
  | some context =>
      obtain ⟨hvalid, hprincipal, hactor⟩ := createCanonicalCallerContext_spec hcreated
      simp only [hcreated, serializeCallerContext, serializeCallerContextV2, hvalid, if_true,
        Option.map_some, Option.some.injEq] at h
      exact ⟨context, h.symm, (Bool.and_eq_true_iff.mp hvalid).1, hprincipal, hactor⟩

variable {sha256 : String → String} {d d' : CallerDispatch} {scope scope' : ExecutionScopeV1}

/-- An assignment with a scope has the caller context, and the execution, that belong to it. -/
structure ScopedAssignment (sha256 : String → String) (d : CallerDispatch)
    (scope : ExecutionScopeV1) : Prop where
  resolved : ResolvedScope sha256 d.agentId d.capabilities d.handoff scope
  executionId : (d.assigned sha256).executionId = some d.freshId
  caller : ∃ context : CallerContextV2, (d.assigned sha256).caller = some (.v2 context) ∧
    context.valid = true ∧ context.principal = d.handoff.principalId ∧
      context.actor = d.handoff.actorId

theorem scopedAssignment (h : (d.assigned sha256).executionScope = some scope) :
    ScopedAssignment sha256 d scope := by
  have hscope : (d.assigned sha256).caller.isNone = false ∧
      resolveExecutionScope sha256 d.agentId d.capabilities d.handoff = some scope := by
    have hguard : (d.assigned sha256).executionScope =
        if (d.assigned sha256).caller.isNone then none
        else resolveExecutionScope sha256 d.agentId d.capabilities d.handoff := rfl
    rw [hguard] at h
    split at h
    · simp at h
    · rename_i hcaller
      exact ⟨Bool.eq_false_of_not_eq_true hcaller, h⟩
  have hresolved := resolveExecutionScope_spec hscope.2
  obtain ⟨-, hcontext, hreplay⟩ := supportsExecutionScopeV1_iff.mp hresolved.supported
  refine ⟨hresolved, by simp [CallerDispatch.assigned, assignCaller, hreplay], ?_⟩
  obtain ⟨caller, hcaller⟩ : ∃ caller, (d.assigned sha256).caller = some caller :=
    Option.isSome_iff_exists.mp (by simpa using hscope.1)
  have hsent := hcaller
  simp only [CallerDispatch.assigned, assignCaller, selectCallerContextVersion, hcontext,
    if_true, Option.isSome_some, Bool.true_and] at hsent
  split at hsent
  · obtain ⟨context, rfl, hrest⟩ := serialized_context hsent
    exact ⟨context, hcaller, hrest⟩
  · simp [serializeCallerContext] at hsent

/-- The client finds the identity of the scope in the context beside it. -/
theorem identityMatches_of_scoped (h : ScopedAssignment sha256 d scope) :
    identityMatches (d.assigned sha256).caller scope.principalId = true := by
  obtain ⟨context, hcaller, -, hprincipal, hactor⟩ := h.caller
  cases h.resolved.principal with
  | direct hdirect hp hparse =>
      have hnone : d.handoff.actorId = none := by
        by_contra hsome
        simp [AuthenticatedHandoff.delegated, Option.ne_none_iff_isSome.mp hsome] at hdirect
      simp [identityMatches, hcaller, hparse, hprincipal, hp, hactor, hnone]
  | federated tuple hdelegated hparse hissuer hsubject =>
      simp [identityMatches, hcaller, hparse, hprincipal, hsubject, hactor, hissuer]

theorem validateCaller_of_scoped (h : (d.assigned sha256).executionScope = some scope)
    (hfresh : d.freshId ≠ "") :
    validateCaller sha256 d.agentId (d.assigned sha256) = some scope.id := by
  have hscoped := scopedAssignment h
  have hresolved := hscoped.resolved
  simp [validateCaller, h, hresolved.valid, hscoped.executionId, hfresh,
    identityMatches_of_scoped hscoped, ← hresolved.policy, hresolved.agentId_eq, scopeDigest,
    ← hresolved.id, Option.filter]

/-! ## Isolation -/

theorem identity_of_scoped (h : ScopedAssignment sha256 d scope) :
    d.identity = identityOfPrincipal scope.principalId := by
  unfold identityOfPrincipal CallerDispatch.identity
  cases h.resolved.principal with
  | direct hdirect hp hparse => simp [hdirect, hp, hparse]
  | federated tuple hdelegated hparse hissuer hsubject =>
      simp [hdelegated, hparse, hissuer, hsubject]

/-- The text that the scope of an assignment is the hash of. -/
def scopePreimage (d : CallerDispatch) (scope : ExecutionScopeV1) : String :=
  executionScopePreimage d.agentId scope.principalId

/-- Dispatches to different agents, or of different identities, hash different texts. -/
theorem scopePreimage_ne (h : ScopedAssignment sha256 d scope)
    (h' : ScopedAssignment sha256 d' scope')
    (hdiffer : d.agentId ≠ d'.agentId ∨ d.identity ≠ d'.identity) :
    scopePreimage d scope ≠ scopePreimage d' scope' := by
  intro heq
  obtain ⟨hagent, hprincipal⟩ := executionScopePreimage_inj heq
  rcases hdiffer with hne | hne
  · exact hne hagent
  · exact hne (by rw [identity_of_scoped h, identity_of_scoped h', hprincipal])

/-- The client accepts every scope it is sent, and callers that differ share none unless the
hash collides. -/
theorem executionScope_agreement (sha256 : String → String) :
    (∀ (d : CallerDispatch) (scope : ExecutionScopeV1), d.freshId ≠ "" →
      (d.assigned sha256).executionScope = some scope →
      validateCaller sha256 d.agentId (d.assigned sha256) = some scope.id) ∧
    ∀ (d d' : CallerDispatch) (scope scope' : ExecutionScopeV1),
      (d.assigned sha256).executionScope = some scope →
      (d'.assigned sha256).executionScope = some scope' →
      d.agentId ≠ d'.agentId ∨ d.identity ≠ d'.identity →
      scopePreimage d scope ≠ scopePreimage d' scope' ∧
        (scope.id = scope'.id →
          sha256 (scopePreimage d scope) = sha256 (scopePreimage d' scope')) := by
  refine ⟨fun d scope hfresh h => validateCaller_of_scoped h hfresh,
    fun d d' scope scope' h h' hdiffer => ?_⟩
  have hscoped := scopedAssignment h
  have hscoped' := scopedAssignment h'
  refine ⟨scopePreimage_ne hscoped hscoped' hdiffer, fun hid => ?_⟩
  calc sha256 (scopePreimage d scope) = scope.id := hscoped.resolved.id.symm
    _ = scope'.id := hid
    _ = sha256 (scopePreimage d' scope') := hscoped'.resolved.id

section Witness

private def directCaller : CallerDispatch where
  agentId := "agent"
  capabilities := some ["task-replay-v1", "caller-context-v2", "execution-scope-v1"]
  handoff := { principalId := some "apikey:alice" }
  freshId := "6f1c"

private def federatedCaller : CallerDispatch where
  agentId := "agent"
  capabilities := some ["task-replay-v1", "caller-context-v2", "execution-scope-v1",
    "federated-execution-scope-v1"]
  handoff := {
    principalId := some "U1234"
    actorId := some "did:web:gate.example"
    authorizationKey := some "federated:v1:20:did:web:gate.example8:urn:team5:U1234"
    authorizationProfile := some mentionableOauthProfile }
  freshId := "92ab"

/-- The digests of the two preimages. -/
private def digest (text : String) : String :=
  if text = executionScopePreimage "agent" "apikey:alice" then
    "9a581b5ecefe1b7a4bdb0e305a0c521bb643ddc247d40575808c5bde49e280ca"
  else "3d1d1871694a61625f431805ba18be01b3b73eec2a3ecbfcf2b663d5dc987eb6"

private def directScope : ExecutionScopeV1 where
  policy := .directPrincipalV1
  id := digest (executionScopePreimage "agent" "apikey:alice")
  agentId := "agent"
  principalId := "apikey:alice"

private def federatedScope : ExecutionScopeV1 where
  policy := .federatedPrincipalV1
  id := digest (executionScopePreimage "agent"
    "federated:v1:20:did:web:gate.example8:urn:team5:U1234")
  agentId := "agent"
  principalId := "federated:v1:20:did:web:gate.example8:urn:team5:U1234"

theorem executionScope_agreement_two_callers :
    validateCaller digest "agent" (federatedCaller.assigned digest) = some federatedScope.id ∧
      scopePreimage directCaller directScope ≠ scopePreimage federatedCaller federatedScope := by
  have hdirect : (directCaller.assigned digest).executionScope = some directScope := by
    decide +kernel
  have hfederated : (federatedCaller.assigned digest).executionScope = some federatedScope := by
    decide +kernel
  obtain ⟨haccept, hisolate⟩ := executionScope_agreement digest
  exact ⟨haccept federatedCaller federatedScope (by decide) hfederated,
    (hisolate _ _ _ _ hdirect hfederated (.inr (by decide))).1⟩

end Witness

end VicoopBridge
