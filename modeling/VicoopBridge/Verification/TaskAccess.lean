import VicoopBridge.Model.TaskAccess

/-! # Stored tasks stay with their owners

An operation that names a stored task is allowed to whoever the columns of its row name: a
plain principal, the public, or the holder of one federated grant. -/

namespace VicoopBridge

/-! ## Operations that name a task -/

theorem truthy_eq_some {s : Option String} {t : String} (h : truthy s = some t) :
    s = some t ∧ t ≠ "" := by
  simpa [truthy, Option.filter_eq_some_iff] using h

theorem truthy_eq_none_iff (s : Option String) : truthy s = none ↔ s = none ∨ s = some "" := by
  cases s <;> simp [truthy]

theorem truthy_of_ne {t : String} (h : t ≠ "") : truthy (some t) = some t := by
  simp [truthy, h]

namespace TokenExchangeOperation

/-- A request whose operation names the task. -/
def Names (operation : TokenExchangeOperation) (taskId : String) : Prop :=
  operation.taskId = some taskId ∧
    ((∃ body version, parseTokenExchangeJsonRpcOperation body version = some operation) ∨
      ∃ method path body,
        parseTokenExchangeHttpJsonOperation method path body = .ok (some operation))

/-- The id is not empty, and it is about one task. -/
structure OnTask (operation : TokenExchangeOperation) (taskId : String) : Prop where
  named : operation.taskId = some taskId
  nonempty : taskId ≠ ""
  kind : operation.kind = .task ∨ operation.kind = .message

end TokenExchangeOperation

theorem taskIdFromMessage_ne_empty {params : Option JsonObject} {taskId : String}
    (h : taskIdFromMessage params = some taskId) : taskId ≠ "" := by
  obtain ⟨message, -, hfield⟩ := Option.bind_eq_some_iff.mp h
  exact (truthy_eq_some hfield).2

theorem taskIdFromParams_ne_empty {params : Option JsonObject} {taskId : String}
    (h : taskIdFromParams params = some taskId) : taskId ≠ "" := by
  unfold taskIdFromParams at h
  obtain h | ⟨-, h⟩ := Option.or_eq_some_iff.mp h
  all_goals
    obtain ⟨fields, -, hfield⟩ := Option.bind_eq_some_iff.mp h
    exact (truthy_eq_some hfield).2

theorem jsonRpcOperation_taskId {method : String} {base : TokenExchangeOperation}
    (h : jsonRpcOperation method = some base) : base.taskId = none := by
  unfold jsonRpcOperation at h
  split at h <;> simp_all <;> subst h <;> rfl

theorem onTask_of_jsonRpc {body : Json} {version : BindingVersion}
    {operation : TokenExchangeOperation} {taskId : String}
    (h : parseTokenExchangeJsonRpcOperation body version = some operation)
    (htask : operation.taskId = some taskId) : operation.OnTask taskId := by
  unfold parseTokenExchangeJsonRpcOperation at h
  split at h
  · simp at h
  split at h
  · simp at h
  rename_i base hbase
  split at h
  · obtain rfl := Option.some.inj h
    simp [jsonRpcOperation_taskId hbase] at htask
  rename_i hkind
  obtain rfl := Option.some.inj h
  refine ⟨htask, ?_, ?_⟩
  · simp only at htask
    split at htask
    · exact taskIdFromMessage_ne_empty htask
    split at htask
    · obtain ⟨fields, -, hfield⟩ := Option.bind_eq_some_iff.mp htask
      exact (truthy_eq_some hfield).2
    · exact taskIdFromParams_ne_empty htask
  · cases hbase' : base.kind <;> simp_all

theorem percentDecode_ne_nil {text : List Char} {bytes : List UInt8} (htext : text ≠ [])
    (h : percentDecode text = some bytes) : bytes ≠ [] := by
  unfold percentDecode at h
  split at h
  · exact absurd rfl htext
  · simp only [Option.pure_def, Option.bind_eq_bind, Option.bind_eq_some_iff] at h
    obtain ⟨high, -, low, -, rest, -, h⟩ := h
    obtain rfl := Option.some.inj h
    simp
  · simp at h
  · rename_i c rest _ _
    simp only [Option.pure_def, Option.bind_eq_bind, Option.bind_eq_some_iff] at h
    obtain ⟨more, -, h⟩ := h
    obtain rfl := Option.some.inj h
    have hsize : (String.utf8EncodeChar c).length ≠ 0 := by
      rw [String.length_utf8EncodeChar]
      exact c.utf8Size_pos.ne'
    intro hnil
    simp [(List.append_eq_nil_iff.mp hnil).1] at hsize

/-- Decoding leaves no text empty. -/
theorem decodePathId_ne_empty {value id : String} (hvalue : value ≠ "")
    (h : decodePathId value = .ok id) : id ≠ "" := by
  unfold decodePathId at h
  split at h
  · rename_i decoded hdecoded
    obtain rfl := Except.ok.inj h
    obtain ⟨bytes, hbytes, hutf8⟩ := Option.bind_eq_some_iff.mp hdecoded
    have hsome := percentDecode_ne_nil (by simpa using hvalue) hbytes
    unfold String.fromUTF8? at hutf8
    split at hutf8
    · rintro rfl
      have hempty := congrArg (fun s => s.toByteArray.data.toList) (Option.some.inj hutf8)
      exact hsome (by simpa [String.fromUTF8] using hempty)
    · simp at hutf8
  · simp at h

theorem onTask_of_taskOperation {name : TokenExchangeOperationName} {id taskId : String}
    {operation : TokenExchangeOperation} (h : taskOperation name id = .ok (some operation))
    (htask : operation.taskId = some taskId) : operation.OnTask taskId := by
  unfold taskOperation at h
  split at h
  · simp at h
  rename_i hid
  cases hdecoded : decodePathId id with
  | error message => simp [hdecoded, Except.map] at h
  | ok decoded =>
      simp only [hdecoded, Except.map, Except.ok.injEq, Option.some.injEq] at h
      subst h
      obtain rfl := Option.some.inj htask
      exact ⟨rfl, decodePathId_ne_empty hid hdecoded, .inl rfl⟩

theorem onTask_of_http {method path : String} {body : Json} {operation : TokenExchangeOperation}
    {taskId : String}
    (h : parseTokenExchangeHttpJsonOperation method path body = .ok (some operation))
    (htask : operation.taskId = some taskId) : operation.OnTask taskId := by
  have hmessage (name : TokenExchangeOperationName)
      (h : some { name := name, kind := .message, taskId := taskIdFromMessage body.record } =
        some operation) : operation.OnTask taskId := by
    obtain rfl := Option.some.inj h
    exact ⟨htask, taskIdFromMessage_ne_empty htask, .inr rfl⟩
  have hnothing (base : TokenExchangeOperation) (hbase : base.taskId = none)
      (h : some base = some operation) : operation.OnTask taskId := by
    obtain rfl := Option.some.inj h
    simp [hbase] at htask
  unfold parseTokenExchangeHttpJsonOperation at h
  split at h
  rotate_left
  · simp at h
  unfold matchHttpJsonRoute at h
  split at h
  case h_1 | h_4 =>
    split at h
    · exact hnothing _ rfl (Except.ok.inj h)
    · simp at h
  case h_2 | h_3 =>
    split at h
    · exact hmessage _ (Except.ok.inj h)
    · simp at h
  case h_5 =>
    split at h
    · exact onTask_of_taskOperation h htask
    split at h
    · split at h
      · exact onTask_of_taskOperation h htask
      · simp at h
    · simp at h
  case h_6 => exact onTask_of_taskOperation h htask
  case h_7 =>
    split at h
    · simp at h
    · exact onTask_of_taskOperation h htask
  case h_8 => simp at h

theorem TokenExchangeOperation.Names.onTask {operation : TokenExchangeOperation} {taskId : String}
    (h : operation.Names taskId) : operation.OnTask taskId := by
  obtain ⟨htask, ⟨body, version, hparse⟩ | ⟨method, path, body, hparse⟩⟩ := h
  · exact onTask_of_jsonRpc hparse htask
  · exact onTask_of_http hparse htask

/-! ## Plain callers -/

/-- An empty column counts as none. -/
def Absent (column : Option String) : Prop := column = none ∨ column = some ""

section Row

variable {db : AccessDb} {agentId taskId : String} {row : StoredTask}
  {operation : TokenExchangeOperation}

theorem load_eq (hrow : db.task agentId taskId = some row) :
    db.loadTokenExchangeTaskAuthorization agentId taskId = some {
      principalId := row.ownerPrincipal
      actorId := row.ownerActor
      profileId := row.authorizationProfile
      authorizationKey := row.authorizationKey
      authorizationRevoked := row.authorizationRevoked } := by
  simp [AccessDb.loadTokenExchangeTaskAuthorization, hrow]

theorem authorizePlainOperation_iff (hop : operation.OnTask taskId)
    (hrow : db.task agentId taskId = some row) (caller : Option VerifiedCaller) :
    authorizePlainOperation db agentId caller (some operation) = .ok () ↔
      Absent row.authorizationKey ∧ Absent row.ownerActor ∧ row.authorizationRevoked = false ∧
        match caller with
        | some caller =>
            row.ownerPrincipal = some caller.principalId ∧ row.authorizationProfile = none
        | none =>
            row.ownerPrincipal = none ∧ row.authorizationProfile = some publicTaskProfile := by
  have htask : truthy operation.taskId = some taskId := by
    rw [hop.named, truthy_of_ne hop.nonempty]
  unfold authorizePlainOperation Absent
  rw [← truthy_eq_none_iff, ← truthy_eq_none_iff]
  obtain hkind | hkind := hop.kind
  all_goals
    simp only [hkind, htask, load_eq hrow]
    cases hkey : truthy row.authorizationKey with
    | some key => simp
    | none => cases caller <;> cases row.authorizationRevoked <;> simp [ownsTask]

/-! ## Federated grants -/

/-- The row is of the grant that the caller presents. -/
structure HeldBy (names : FederationNames) (db : AccessDb) (agentId : String) (row : StoredTask)
    (caller : VerifiedCaller) (tokenExchange : TokenExchangeGrant) : Prop where
  registered : tokenExchange.profileId = names.extensionUri
  profile : row.authorizationProfile = some tokenExchange.profileId
  actor : row.ownerActor = some tokenExchange.actorId
  principal : row.ownerPrincipal = some caller.principalId
  key : row.authorizationKey = some tokenExchange.allowedCaller
  present : tokenExchange.allowedCaller ≠ ""
  rowActive : row.authorizationRevoked = false
  keyActive : db.isTokenExchangeAuthorizationActive agentId tokenExchange.allowedCaller

theorem heldBy_of_authorizeTaskGrant {names : FederationNames} {caller : VerifiedCaller}
    {tokenExchange : TokenExchangeGrant}
    (hprofile : tokenExchange.profileId = names.extensionUri)
    (h : authorizeTaskGrant names db agentId caller tokenExchange {
      principalId := row.ownerPrincipal
      actorId := row.ownerActor
      profileId := row.authorizationProfile
      authorizationKey := row.authorizationKey
      authorizationRevoked := row.authorizationRevoked } = .ok ()) :
    HeldBy names db agentId row caller tokenExchange := by
  unfold authorizeTaskGrant at h
  split at h
  · simp at h
  rename_i hrevoked
  split at h
  · simp at h
  rename_i hregistered
  split at h
  · rename_i actorId key hactor hkey
    split_ifs at h with h₁ h₂ h₃ h₄
    obtain ⟨hactor, -⟩ := truthy_eq_some hactor
    obtain ⟨hkey, hpresent⟩ := truthy_eq_some hkey
    obtain ⟨hprincipal, -⟩ := truthy_eq_some (not_not.mp h₂)
    obtain rfl := not_not.mp h₁
    obtain rfl := not_not.mp h₃
    exact {
      registered := hprofile
      profile := hprofile ▸ not_not.mp hregistered
      actor := hactor
      principal := hprincipal
      key := hkey
      present := hpresent
      rowActive := by simpa using hrevoked
      keyActive := h₄ }
  · simp at h

theorem authorizeMentionableOperation_ok {names : FederationNames} {caller : VerifiedCaller}
    {tokenExchange : TokenExchangeGrant} (hop : operation.OnTask taskId)
    (hrow : db.task agentId taskId = some row)
    (hprofile : tokenExchange.profileId = names.extensionUri)
    (h : authorizeMentionableOperation names db agentId caller tokenExchange (some operation) =
      .ok ()) :
    (∃ scope ∈ tokenExchange.scopes, names.requiredScope operation.name = some scope) ∧
      (∀ id ∈ tokenExchange.taskId, id = taskId) ∧
      HeldBy names db agentId row caller tokenExchange := by
  unfold authorizeMentionableOperation at h
  simp only [hop.named, truthy_of_ne hop.nonempty, load_eq hrow, reduceCtorEq, and_false,
    if_false] at h
  split at h
  · simp at h
  rename_i scope hscope
  split_ifs at h with hheld hlist hother
  refine ⟨⟨scope, hheld, hscope⟩, fun id hid => ?_, ?_⟩
  · by_contra hne
    exact hother (by simp [Option.mem_def.mp hid, hne])
  · exact heldBy_of_authorizeTaskGrant hprofile h

end Row

section Access

variable {names : FederationNames} {db : AccessDb} {agentId taskId : String} {row : StoredTask}
  {operation : TokenExchangeOperation}

theorem authorize_plain (caller : Option VerifiedCaller)
    (hplain : caller.bind VerifiedCaller.tokenExchange = none)
    (operation : Option TokenExchangeOperation) (profiles : List TokenExchangeResourceProfile) :
    authorizeTokenExchangeOperation db agentId caller operation profiles =
      authorizePlainOperation db agentId caller operation := by
  unfold authorizeTokenExchangeOperation
  rw [hplain]
  cases caller <;> rfl

theorem authorize_grant {caller : VerifiedCaller} {tokenExchange : TokenExchangeGrant}
    (hgrant : caller.tokenExchange = some tokenExchange)
    (h : authorizeTokenExchangeOperation db agentId (some caller) (some operation)
      [createMentionableResourceProfile names] = .ok ()) :
    tokenExchange.profileId = names.extensionUri ∧
      authorizeMentionableOperation names db agentId caller tokenExchange (some operation) =
        .ok () := by
  unfold authorizeTokenExchangeOperation at h
  simp only [Option.bind_some, hgrant, createMentionableResourceProfile] at h
  by_cases hprofile : names.extensionUri = tokenExchange.profileId
  · exact ⟨hprofile.symm, by simpa [hprofile] using h⟩
  · simp [hprofile] at h

/-- Whom a caller acts for. -/
def identityOf (caller : Option VerifiedCaller) :
    Option (String × Option (String × String × String)) :=
  caller.map fun caller => (caller.principalId, caller.tokenExchange.map fun tokenExchange =>
    (tokenExchange.profileId, tokenExchange.actorId, tokenExchange.allowedCaller))

/-- Whose a row is. -/
def StoredTask.owner (row : StoredTask) : Option (String × Option (String × String × String)) :=
  row.ownerPrincipal.map fun principal => (principal,
    match row.authorizationProfile, row.ownerActor, truthy row.authorizationKey with
    | some profile, some actor, some key => some (profile, actor, key)
    | _, _, _ => none)

theorem owner_of_ok {caller : Option VerifiedCaller} (hop : operation.OnTask taskId)
    (hrow : db.task agentId taskId = some row)
    (h : authorizeTokenExchangeOperation db agentId caller (some operation)
      [createMentionableResourceProfile names] = .ok ()) : identityOf caller = row.owner := by
  cases hgrant : caller.bind VerifiedCaller.tokenExchange with
  | none =>
      rw [authorize_plain caller hgrant, authorizePlainOperation_iff hop hrow] at h
      obtain ⟨hkey, -, -, howner⟩ := h
      rw [Absent, ← truthy_eq_none_iff] at hkey
      cases caller with
      | none => simp [identityOf, StoredTask.owner, howner.1]
      | some caller =>
          have hplain : caller.tokenExchange = none := hgrant
          simp [identityOf, StoredTask.owner, howner.1, howner.2, hplain]
  | some tokenExchange =>
      cases caller with
      | none => simp at hgrant
      | some caller =>
          have hgrant : caller.tokenExchange = some tokenExchange := hgrant
          obtain ⟨hprofile, hok⟩ := authorize_grant hgrant h
          obtain ⟨-, -, held⟩ := authorizeMentionableOperation_ok hop hrow hprofile hok
          simp [identityOf, StoredTask.owner, held.principal, held.profile, held.actor, held.key,
            truthy_of_ne held.present, hgrant]

/-- The stored token a raw token belongs to. -/
theorem verifyTokenExchangeAccessToken_ok {hashToken : String → String}
    {parseAttestation : Json → Option Json} {now : ℤ} {rawToken : String}
    {token : TokenExchangeAccessToken}
    (h : db.verifyTokenExchangeAccessToken hashToken parseAttestation now rawToken agentId =
      .ok token) :
    ∃ stored ∈ db.tokens, stored.tokenHash = hashToken rawToken ∧ stored.agentId = agentId ∧
      stored.revoked = false ∧ now < stored.expiresAt ∧ stored.profileId = token.profileId ∧
      stored.principalId = some token.principalId ∧ stored.actorId = token.actorId ∧
      stored.allowedCaller = some token.allowedCaller ∧ stored.scopes = token.scopes ∧
      stored.taskId = token.taskId := by
  unfold AccessDb.verifyTokenExchangeAccessToken at h
  simp only at h
  split at h
  · simp at h
  split at h
  · simp at h
  rename_i stored hfound
  have hmem := List.mem_of_find?_eq_some hfound
  have hhash : stored.tokenHash = hashToken rawToken := by
    simpa using List.find?_some hfound
  split at h
  · simp at h
  rename_i hagent
  split at h
  · rename_i resource principalId allowedCaller hresource hprincipal hallowed
    split_ifs at h with hexpired hactive hcontext
    obtain rfl := Except.ok.inj h
    rw [not_or] at hexpired
    exact ⟨stored, (List.mem_filter.mp hmem).1, hhash, not_not.mp hagent,
      by simpa using hexpired.1, Int.not_le.mp hexpired.2, rfl, hprincipal, rfl, hallowed, rfl, rfl⟩
  · simp at h

/-- `storedDb` is the database when a token was presented. -/
structure TaskAccessSpec (names : FederationNames) (db : AccessDb) (agentId taskId : String)
    (row : StoredTask) (operation : TokenExchangeOperation) : Prop where
  plain : ∀ caller : VerifiedCaller, caller.tokenExchange = none →
    (authorizeTokenExchangeOperation db agentId (some caller) (some operation)
        [createMentionableResourceProfile names] = .ok () ↔
      Absent row.authorizationKey ∧ Absent row.ownerActor ∧ row.authorizationRevoked = false ∧
        row.ownerPrincipal = some caller.principalId ∧ row.authorizationProfile = none)
  anonymous : authorizeTokenExchangeOperation db agentId none (some operation)
      [createMentionableResourceProfile names] = .ok () ↔
    Absent row.authorizationKey ∧ Absent row.ownerActor ∧ row.authorizationRevoked = false ∧
      row.ownerPrincipal = none ∧ row.authorizationProfile = some publicTaskProfile
  grant : ∀ (caller : VerifiedCaller) (tokenExchange : TokenExchangeGrant),
    caller.tokenExchange = some tokenExchange →
    authorizeTokenExchangeOperation db agentId (some caller) (some operation)
      [createMentionableResourceProfile names] = .ok () →
    (∃ scope ∈ tokenExchange.scopes, names.requiredScope operation.name = some scope) ∧
      (∀ id ∈ tokenExchange.taskId, id = taskId) ∧
      HeldBy names db agentId row caller tokenExchange
  token : ∀ (storedDb : AccessDb) (hashToken : String → String)
    (parseAttestation : Json → Option Json) (now : ℤ) (rawToken : String)
    (token : TokenExchangeAccessToken),
    storedDb.verifyTokenExchangeAccessToken hashToken parseAttestation now rawToken agentId =
      .ok token →
    authorizeTokenExchangeOperation db agentId (some token.caller) (some operation)
      [createMentionableResourceProfile names] = .ok () →
    ∃ stored ∈ storedDb.tokens, stored.tokenHash = hashToken rawToken ∧
      stored.agentId = agentId ∧ stored.revoked = false ∧ now < stored.expiresAt ∧
      (∃ scope ∈ stored.scopes, names.requiredScope operation.name = some scope) ∧
      (∀ id ∈ stored.taskId, id = taskId) ∧
      row.authorizationProfile = some stored.profileId ∧
      row.ownerActor = some stored.actorId ∧ row.ownerPrincipal = stored.principalId ∧
      row.authorizationKey = stored.allowedCaller
  isolated : ∀ (other : TokenExchangeOperation) (caller caller' : Option VerifiedCaller),
    other.Names taskId →
    authorizeTokenExchangeOperation db agentId caller (some operation)
      [createMentionableResourceProfile names] = .ok () →
    authorizeTokenExchangeOperation db agentId caller' (some other)
      [createMentionableResourceProfile names] = .ok () →
    identityOf caller = identityOf caller'

/-- Who may reach an existing task is written in its row, and it is one identity. -/
theorem taskAccessSpec_of_names (hnames : operation.Names taskId)
    (hrow : db.task agentId taskId = some row) :
    TaskAccessSpec names db agentId taskId row operation := by
  have hop := hnames.onTask
  constructor
  case plain =>
      intro caller hplain
      rw [authorize_plain (some caller) hplain]
      exact authorizePlainOperation_iff hop hrow (some caller)
  case anonymous =>
      rw [authorize_plain none rfl]
      exact authorizePlainOperation_iff hop hrow none
  case grant =>
      intro caller tokenExchange hgrant h
      obtain ⟨hprofile, hok⟩ := authorize_grant hgrant h
      exact authorizeMentionableOperation_ok hop hrow hprofile hok
  case token =>
      intro storedDb hashToken parseAttestation now rawToken token hverified h
      obtain ⟨stored, hmem, hhash, hagent, hrevoked, hexpires, hprofile, hprincipal, hactor,
        hallowed, hscopes, htaskId⟩ := verifyTokenExchangeAccessToken_ok hverified
      obtain ⟨hregistered, hok⟩ := authorize_grant rfl h
      obtain ⟨hscope, htoken, held⟩ :=
        authorizeMentionableOperation_ok hop hrow hregistered hok
      exact ⟨stored, hmem, hhash, hagent, hrevoked, hexpires, hscopes ▸ hscope,
        htaskId ▸ htoken, hprofile ▸ held.profile, hactor ▸ held.actor,
        hprincipal ▸ held.principal, hallowed ▸ held.key⟩
  case isolated =>
      intro other caller caller' hother h h'
      rw [owner_of_ok hop hrow h, owner_of_ok hother.onTask hrow h']

end Access

section Witness

private def exampleNames : FederationNames where
  extensionUri := "https://mentionable.dev/ns/oauth-federation/v0.1"
  scopeMessageSend := "message.send"
  scopeMessageStream := "message.stream"
  scopeTaskRead := "task.read"
  scopeTaskCancel := "task.cancel"
  scopeTaskResubscribe := "task.resubscribe"
  scopeTaskPushConfig := "task.push-config"

private def read : TokenExchangeOperation :=
  { name := .taskRead, kind := .task, taskId := some "task" }

private def getTask : Json :=
  .obj [("method", .str "tasks/get"), ("params", .obj [("id", .str "task")])]

private def federatedRow : StoredTask where
  taskId := "task"
  ownerAgent := some "agent"
  ownerPrincipal := some "subject"
  ownerActor := some "connector"
  authorizationProfile := some exampleNames.extensionUri
  authorizationKey := some "federated:v1:key"

private def exampleDb (row : StoredTask) : AccessDb where
  tasks := [row]
  agents := [("agent", ["federated:v1:key"])]

private def holder : VerifiedCaller where
  principalId := "subject"
  actorId := some "connector"
  tokenExchange := some {
    tokenId := "token", profileId := exampleNames.extensionUri, agentId := "agent"
    resource := "resource", actorId := "connector", scopes := ["task.read"]
    allowedCaller := "federated:v1:key" }

theorem taskAccessSpec_of_names_federated :
    authorizeTokenExchangeOperation (exampleDb federatedRow) "agent" (some holder) (some read)
        [createMentionableResourceProfile exampleNames] = .ok () ∧
      TaskAccessSpec exampleNames (exampleDb federatedRow) "agent" "task" federatedRow read :=
  ⟨by decide +kernel,
    taskAccessSpec_of_names ⟨rfl, .inl ⟨getTask, .v0_3, by decide +kernel⟩⟩ (by decide +kernel)⟩

/-- A row whose key is the empty text is open to the principal it names. -/
theorem taskAccessSpec_of_names_empty :
    ∃ row, (exampleDb row).task "agent" "task" = some row ∧ row.authorizationKey ≠ none ∧
      read.Names "task" ∧
      authorizeTokenExchangeOperation (exampleDb row) "agent"
        (some { principalId := "subject" }) (some read)
        [createMentionableResourceProfile exampleNames] = .ok () :=
  ⟨{ taskId := "task", ownerAgent := some "agent", ownerPrincipal := some "subject"
     authorizationKey := some "" },
    by decide +kernel, by decide, ⟨rfl, .inl ⟨getTask, .v0_3, by decide +kernel⟩⟩,
    by decide +kernel⟩

end Witness

end VicoopBridge
