import VicoopBridge.Model.Json
import VicoopBridge.Model.ToolApprovals

/-! # Who may reach a stored task

Every request to an agent is mapped to an operation, and an operation that names a stored task
is authorized against the columns of its row that say whose task it is. Profile and scope names
of the federation come from a package and are parameters. -/

namespace VicoopBridge

/-! ## Operations -/

inductive TokenExchangeOperationName where
  | agentCard
  | messageSend
  | messageStream
  | taskRead
  | taskCancel
  | taskResubscribe
  | taskPushConfig
  deriving DecidableEq, Repr

inductive TokenExchangeOperationKind where
  | message
  | task
  | taskList
  | agent
  deriving DecidableEq, Repr

structure TokenExchangeOperation where
  name : TokenExchangeOperationName
  kind : TokenExchangeOperationKind
  taskId : Option String := none
  deriving DecidableEq, Repr

def Json.record : Json → Option JsonObject
  | .obj fields => some fields
  | _ => none

def JsonObject.stringField (o : JsonObject) (key : String) : Option String :=
  truthy (o.string? key)

def taskIdFromMessage (params : Option JsonObject) : Option String :=
  (params.bind fun p => (p.field "message").bind Json.record).bind (JsonObject.stringField · "taskId")

def taskIdFromParams (params : Option JsonObject) : Option String :=
  (params.bind (JsonObject.stringField · "id")).or (params.bind (JsonObject.stringField · "taskId"))

/-- `JSON_RPC_OPERATIONS` -/
def jsonRpcOperation : String → Option TokenExchangeOperation
  | "agent/getAuthenticatedExtendedCard" | "GetExtendedAgentCard" =>
      some { name := .agentCard, kind := .agent }
  | "message/send" | "SendMessage" => some { name := .messageSend, kind := .message }
  | "message/stream" | "SendStreamingMessage" => some { name := .messageStream, kind := .message }
  | "tasks/get" | "GetTask" => some { name := .taskRead, kind := .task }
  | "tasks/list" | "ListTasks" => some { name := .taskRead, kind := .taskList }
  | "tasks/cancel" | "CancelTask" => some { name := .taskCancel, kind := .task }
  | "tasks/resubscribe" | "SubscribeToTask" => some { name := .taskResubscribe, kind := .task }
  | "tasks/pushNotificationConfig/set" | "tasks/pushNotificationConfig/get"
  | "tasks/pushNotificationConfig/list" | "tasks/pushNotificationConfig/delete"
  | "CreateTaskPushNotificationConfig" | "GetTaskPushNotificationConfig"
  | "ListTaskPushNotificationConfigs" | "DeleteTaskPushNotificationConfig" =>
      some { name := .taskPushConfig, kind := .task }
  | _ => none

inductive BindingVersion where
  | v0_3
  | v1_0
  deriving DecidableEq, Repr

def parseTokenExchangeJsonRpcOperation (body : Json) (version : BindingVersion) :
    Option TokenExchangeOperation :=
  match body.record.bind (JsonObject.stringField · "method") with
  | none => none
  | some method =>
      match jsonRpcOperation method with
      | none => none
      | some base =>
          if base.kind = .agent ∨ base.kind = .taskList then some base
          else
            let params := (body.record.bind (JsonObject.field · "params")).bind Json.record
            -- The `id` of a v1 push config names the config and not the task.
            let taskId :=
              if base.kind = .message then taskIdFromMessage params
              else if base.name = .taskPushConfig then
                params.bind (JsonObject.stringField ·
                  (if version = .v1_0 ∨ method = "tasks/pushNotificationConfig/set" then "taskId"
                    else "id"))
              else taskIdFromParams params
            some { base with taskId := taskId }

/-! ## Paths -/

def hexDigit (c : Char) : Option ℕ :=
  if '0' ≤ c ∧ c ≤ '9' then some (c.toNat - '0'.toNat)
  else if 'a' ≤ c ∧ c ≤ 'f' then some (c.toNat - 'a'.toNat + 10)
  else if 'A' ≤ c ∧ c ≤ 'F' then some (c.toNat - 'A'.toNat + 10)
  else none

/-- The bytes that the text stands for. -/
def percentDecode : List Char → Option (List UInt8)
  | [] => some []
  | '%' :: a :: b :: rest => do
      let high ← hexDigit a
      let low ← hexDigit b
      return UInt8.ofNat (16 * high + low) :: (← percentDecode rest)
  | '%' :: _ => none
  | c :: rest => return String.utf8EncodeChar c ++ (← percentDecode rest)

/-- `decodeURIComponent`: what the bytes spell in UTF-8. -/
def decodeURIComponent (value : String) : Option String :=
  (percentDecode value.toList).bind fun bytes => String.fromUTF8? ⟨bytes.toArray⟩

def decodePathId (value : String) : Except String String :=
  match decodeURIComponent value with
  | some id => .ok id
  | none => .error "Invalid percent-encoding in resource ID"

/-- The segments of a path that begins with a slash. -/
def pathSegments (path : String) : Option (List String) :=
  match (path.toList.splitOn '/').map String.ofList with
  | "" :: segments => some segments
  | _ => none

def isEndpointRoute : List String → Bool
  | ["message:send"] | ["message:stream"] | ["extendedAgentCard"] => true
  | "tasks" :: _ => true
  | _ => false

/-- The characters that a dot of a regular expression does not match. -/
def isLineTerminator (c : Char) : Bool :=
  c = '\n' || c = '\x0d' || c = '\u2028' || c = '\u2029'

/-- The route without the optional tenant in front of it. -/
def stripTenant (route : List String) : List String :=
  if isEndpointRoute route then route
  else
    match route with
    | tenant :: rest =>
        if tenant ≠ "" ∧ isEndpointRoute rest ∧
          rest.all fun segment => !segment.toList.any isLineTerminator then rest
        else route
    | [] => route

/-- The id and the action of a segment such as `id:cancel`. -/
def taskAction (segment : String) : Option (String × TokenExchangeOperationName) :=
  let before (suffix : String) : Option String :=
    if suffix.toList <:+ segment.toList then
      truthy (some (String.ofList (segment.toList.take
        (segment.toList.length - suffix.toList.length))))
    else none
  ((before ":cancel").map (·, .taskCancel)).or ((before ":subscribe").map (·, .taskResubscribe))

/-- What a route matches only with an id in it. -/
def taskOperation (name : TokenExchangeOperationName) (id : String) :
    Except String (Option TokenExchangeOperation) :=
  if id = "" then .ok none
  else (decodePathId id).map fun taskId => some { name := name, kind := .task, taskId := some taskId }

def matchHttpJsonRoute (method : String) (body : Json) :
    List String → Except String (Option TokenExchangeOperation)
  | ["extendedAgentCard"] =>
      .ok (if method = "GET" then some { name := .agentCard, kind := .agent } else none)
  | ["message:send"] =>
      .ok (if method = "POST" then
        some { name := .messageSend, kind := .message, taskId := taskIdFromMessage body.record }
        else none)
  | ["message:stream"] =>
      .ok (if method = "POST" then
        some { name := .messageStream, kind := .message, taskId := taskIdFromMessage body.record }
        else none)
  | ["tasks"] => .ok (if method = "GET" then some { name := .taskRead, kind := .taskList } else none)
  | ["tasks", segment] =>
      if method = "GET" then taskOperation .taskRead segment
      else if method = "POST" then
        match taskAction segment with
        | some (id, name) => taskOperation name id
        | none => .ok none
      else .ok none
  | ["tasks", id, "pushNotificationConfigs"] => taskOperation .taskPushConfig id
  | ["tasks", id, "pushNotificationConfigs", config] =>
      if config = "" then .ok none else taskOperation .taskPushConfig id
  | _ => .ok none

def parseTokenExchangeHttpJsonOperation (method path : String) (body : Json) :
    Except String (Option TokenExchangeOperation) :=
  match pathSegments path with
  | some segments => matchHttpJsonRoute method body (stripTenant segments)
  | none => .ok none

/-! ## Stored rows -/

/-- The columns of a task row that say whose it is. -/
structure StoredTask where
  taskId : String
  ownerAgent : Option String
  ownerPrincipal : Option String := none
  ownerActor : Option String := none
  authorizationProfile : Option String := none
  authorizationKey : Option String := none
  authorizationRevoked : Bool := false
  deriving DecidableEq

/-- A row of the table of access tokens, with the columns that older rows lack. -/
structure StoredToken where
  tokenHash : String
  id : String
  profileId : String
  agentId : String
  resource : Option String
  principalId : Option String
  actorId : String
  allowedCaller : Option String
  attestation : Option Json := none
  scopes : List String
  taskId : Option String := none
  expiresAt : ℤ
  revoked : Bool := false

/-- `agents` has the allowed callers of each agent. -/
structure AccessDb where
  tasks : List StoredTask := []
  tokens : List StoredToken := []
  agents : List (String × List String) := []

structure TokenExchangeTaskAuthorization where
  principalId : Option String
  actorId : Option String
  profileId : Option String
  authorizationKey : Option String
  authorizationRevoked : Bool
  deriving DecidableEq

structure TokenExchangeAccessToken where
  tokenId : String
  profileId : String
  agentId : String
  resource : String
  principalId : String
  actorId : String
  allowedCaller : String
  attestation : Option Json
  scopes : List String
  taskId : Option String
  expiresAt : ℤ

namespace AccessDb

variable (db : AccessDb)

def task (agentId taskId : String) : Option StoredTask :=
  db.tasks.find? fun row => row.ownerAgent = some agentId ∧ row.taskId = taskId

def loadTokenExchangeTaskAuthorization (agentId taskId : String) :
    Option TokenExchangeTaskAuthorization :=
  (db.task agentId taskId).map fun row => {
    principalId := row.ownerPrincipal
    actorId := row.ownerActor
    profileId := row.authorizationProfile
    authorizationKey := row.authorizationKey
    authorizationRevoked := row.authorizationRevoked }

def isTokenExchangeAuthorizationActive (agentId authorizationKey : String) : Bool :=
  (db.agents.lookup agentId).any fun allowedCallers => authorizationKey ∈ allowedCallers

def agentHasTokenExchangeTaskBindings (agentId : String) : Bool :=
  db.tasks.any fun row => row.ownerAgent = some agentId ∧ row.authorizationKey.isSome

def tokenExchangeAccessTokenPrefix : String := "vbc_oauth_"

/-- `parseAttestation` is the schema of a stored attestation. -/
def verifyTokenExchangeAccessToken (hashToken : String → String)
    (parseAttestation : Json → Option Json) (now : ℤ) (rawToken expectedAgentId : String) :
    Except String TokenExchangeAccessToken :=
  if ¬ tokenExchangeAccessTokenPrefix.toList <+: rawToken.toList then
    .error "Invalid OAuth token-exchange token format"
  else
    let joined := db.tokens.filter fun row => (db.agents.lookup row.agentId).isSome
    match joined.find? fun row => row.tokenHash = hashToken rawToken with
    | none => .error "OAuth token-exchange token not found"
    | some row =>
        if row.agentId ≠ expectedAgentId then
          .error "OAuth token-exchange token resource mismatch"
        else
          match row.resource, row.principalId, row.allowedCaller with
          | some resource, some principalId, some allowedCaller =>
              if row.revoked ∨ row.expiresAt ≤ now then
                .error "OAuth token-exchange token expired or revoked"
              else if ¬ db.isTokenExchangeAuthorizationActive row.agentId allowedCaller then
                .error "OAuth token-exchange authorization was removed"
              else if row.attestation.any fun attestation => (parseAttestation attestation).isNone then
                .error "OAuth token-exchange token has invalid normalized context"
              else .ok {
                tokenId := row.id
                profileId := row.profileId
                agentId := row.agentId
                resource := resource
                principalId := principalId
                actorId := row.actorId
                allowedCaller := allowedCaller
                attestation := row.attestation.bind parseAttestation
                scopes := row.scopes
                taskId := row.taskId
                expiresAt := row.expiresAt }
          | _, _, _ => .error "OAuth token-exchange token has incomplete authorization context"

end AccessDb

/-! ## Callers -/

structure TokenExchangeGrant where
  tokenId : String
  profileId : String
  agentId : String
  resource : String
  actorId : String
  scopes : List String
  allowedCaller : String
  taskId : Option String := none
  attestations : Option (List Json) := none

structure VerifiedCaller where
  principalId : String
  actorId : Option String := none
  tokenExchange : Option TokenExchangeGrant := none

/-- The caller that a verified access token stands for. -/
def TokenExchangeAccessToken.caller (token : TokenExchangeAccessToken) : VerifiedCaller where
  principalId := token.principalId
  actorId := if token.actorId ≠ token.principalId then some token.actorId else none
  tokenExchange := some {
    tokenId := token.tokenId
    profileId := token.profileId
    agentId := token.agentId
    resource := token.resource
    actorId := token.actorId
    scopes := token.scopes
    allowedCaller := token.allowedCaller
    taskId := token.taskId
    attestations := token.attestation.map fun attestation => [attestation] }

/-! ## Authorization -/

/-- What the federation package defines. -/
structure FederationNames where
  extensionUri : String
  scopeMessageSend : String
  scopeMessageStream : String
  scopeTaskRead : String
  scopeTaskCancel : String
  scopeTaskResubscribe : String
  scopeTaskPushConfig : String

def publicTaskProfile : String := "vicoop:public-task:v1"

abbrev TokenExchangeAuthorizationResult := Except String Unit

/-- `authorize` is asked about callers with a grant. -/
structure TokenExchangeResourceProfile where
  id : String
  authorize : AccessDb → String → VerifiedCaller → TokenExchangeGrant →
    Option TokenExchangeOperation → TokenExchangeAuthorizationResult

/-- `REQUIRED_SCOPE`, which has no entry for the agent card. -/
def FederationNames.requiredScope (names : FederationNames) :
    TokenExchangeOperationName → Option String
  | .agentCard => none
  | .messageSend => some names.scopeMessageSend
  | .messageStream => some names.scopeMessageStream
  | .taskRead => some names.scopeTaskRead
  | .taskCancel => some names.scopeTaskCancel
  | .taskResubscribe => some names.scopeTaskResubscribe
  | .taskPushConfig => some names.scopeTaskPushConfig

/-- The row against the token, once it is found. -/
def authorizeTaskGrant (names : FederationNames) (db : AccessDb) (agentId : String)
    (caller : VerifiedCaller) (tokenExchange : TokenExchangeGrant)
    (task : TokenExchangeTaskAuthorization) : TokenExchangeAuthorizationResult :=
  if task.authorizationRevoked then .error "task_grant_revoked"
  else if task.profileId ≠ some names.extensionUri then .error "task_profile_mismatch"
  else
    match truthy task.actorId, truthy task.authorizationKey with
    | some actorId, some authorizationKey =>
        if actorId ≠ tokenExchange.actorId then .error "task_actor_mismatch"
        else if truthy task.principalId ≠ some caller.principalId then
          .error "task_principal_mismatch"
        else if tokenExchange.allowedCaller ≠ authorizationKey then .error "task_grant_mismatch"
        else if ¬ db.isTokenExchangeAuthorizationActive agentId authorizationKey then
          .error "task_grant_revoked"
        else .ok ()
    | _, _ => .error "task_actor_mismatch"

def authorizeMentionableOperation (names : FederationNames) (db : AccessDb) (agentId : String)
    (caller : VerifiedCaller) (tokenExchange : TokenExchangeGrant) :
    Option TokenExchangeOperation → TokenExchangeAuthorizationResult
  | none => .error "unknown_operation"
  | some operation =>
      match names.requiredScope operation.name with
      | none => .error "unknown_operation"
      | some scope =>
          if scope ∉ tokenExchange.scopes then .error "insufficient_scope"
          else if operation.kind = .taskList then .error "federated_task_list_not_supported"
          else if operation.kind = .message ∧ operation.taskId = none then
            if tokenExchange.taskId.isSome then .error "token_task_mismatch" else .ok ()
          else
            match truthy operation.taskId with
            | none => .error "missing_task_id"
            | some taskId =>
                if tokenExchange.taskId.any (· ≠ taskId) then .error "token_task_mismatch"
                else
                  match db.loadTokenExchangeTaskAuthorization agentId taskId with
                  | none => .ok ()
                  | some task => authorizeTaskGrant names db agentId caller tokenExchange task

def createMentionableResourceProfile (names : FederationNames) : TokenExchangeResourceProfile where
  id := names.extensionUri
  authorize := authorizeMentionableOperation names

/-- An existing task against a caller without a grant. -/
def ownsTask (caller : Option VerifiedCaller) (task : TokenExchangeTaskAuthorization) : Bool :=
  !task.authorizationRevoked && (truthy task.actorId).isNone &&
    match caller with
    | some caller => task.principalId = some caller.principalId && task.profileId.isNone
    | none => task.principalId.isNone && task.profileId = some publicTaskProfile

def authorizePlainOperation (db : AccessDb) (agentId : String) (caller : Option VerifiedCaller) :
    Option TokenExchangeOperation → TokenExchangeAuthorizationResult
  | none => .error "unknown_operation"
  | some operation =>
      match operation.kind, truthy operation.taskId with
      | .task, none => .error "missing_task_id"
      | .taskList, _ =>
          if caller.isNone then .error "anonymous_task_list_not_allowed"
          else if db.agentHasTokenExchangeTaskBindings agentId then
            .error "federated_task_list_not_supported"
          else .ok ()
      | kind, some taskId =>
          match db.loadTokenExchangeTaskAuthorization agentId taskId with
          | none => if kind = .message then .ok () else .error "task_not_accessible"
          | some task =>
              if (truthy task.authorizationKey).isSome then .error "federated_task_requires_token"
              else if ownsTask caller task then .ok ()
              else .error "task_not_accessible"
      | _, none => .ok ()

def authorizeTokenExchangeOperation (db : AccessDb) (agentId : String)
    (caller : Option VerifiedCaller) (operation : Option TokenExchangeOperation)
    (profiles : List TokenExchangeResourceProfile) : TokenExchangeAuthorizationResult :=
  match caller, caller.bind VerifiedCaller.tokenExchange with
  | some caller, some tokenExchange =>
      match profiles.find? fun candidate => candidate.id = tokenExchange.profileId with
      | none => .error "unsupported_token_profile"
      | some profile => profile.authorize db agentId caller tokenExchange operation
  | caller, _ => authorizePlainOperation db agentId caller operation

end VicoopBridge
