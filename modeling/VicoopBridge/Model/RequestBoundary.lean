import VicoopBridge.Model.Executor
import VicoopBridge.Model.TaskAccess

/-! # The body of a message request

What the HTTP boundary makes of the body before the protocol library reads it: the caller's
own `_` keys go, identity carriers go, and what the server has verified is stamped on. The
library takes the metadata and the parts from there as they are. -/

namespace VicoopBridge

/-- `{ ...o, ...fields }` -/
def JsonObject.assign (o fields : JsonObject) : JsonObject :=
  fields.foldl (fun o f => o.set f.1 f.2) o

/-- The property, when it holds an object. -/
def JsonObject.object? (o : JsonObject) (key : String) : Option JsonObject :=
  (o.field key).bind Json.record

inductive A2ATransport where
  | jsonrpc
  | httpJson
  deriving DecidableEq

def stripCallerSuppliedInternalKeys (message : JsonObject) : JsonObject :=
  match message.object? "metadata" with
  | none => message
  | some metadata =>
      match (JsonObject.nonEmpty (metadata.filter fun f => ¬ f.1.startsWith "_")) with
      | none => message.without ["metadata"]
      | some kept => message.set "metadata" (.obj kept)

/-! ## Identity carriers -/

def legacyCarrierKey : String := "identity_evidence"

def vcCarrierKey : String := "verifiable_credentials"

/-- The metadata that `extractAndStripIdentityCarrier` gives back. -/
def stripIdentityCarrier (metadata : Option Json) : Option JsonObject :=
  match metadata with
  | some (.obj metadata) =>
      let rest := JsonObject.without metadata ["mentionable"]
      match JsonObject.field metadata "mentionable" with
      | none => some metadata
      | some (.obj mentionable) =>
          match (JsonObject.without mentionable [vcCarrierKey, legacyCarrierKey]).nonEmpty with
          | none => rest.nonEmpty
          | some clean => some (JsonObject.set metadata "mentionable" (.obj clean))
      | some _ => rest.nonEmpty
  | _ => none

def replaceMetadata (message : JsonObject) (metadata : Option JsonObject) : JsonObject :=
  match metadata with
  | none => message.without ["metadata"]
  | some metadata => message.set "metadata" (.obj metadata)

/-- `identities` are what the verifier has accepted of the credentials on the message. -/
def prepareIdentityVcAtBoundary (identities : JsonObject → List Json) (message : JsonObject) :
    JsonObject :=
  let stripped := replaceMetadata message (stripIdentityCarrier (message.field "metadata"))
  match identities message with
  | [] => stripped
  | accepted =>
      stripped.set "metadata" (.obj (JsonObject.assign
        ((stripped.object? "metadata").getD []) [(identityVcPresentedMetadataKey, .arr accepted)]))

/-! ## The boundary -/

/-- The stamp of the request: whom the server has authenticated, or that access is public. -/
def authorizationMetadata : Option VerifiedCaller → JsonObject
  | none => [("_authorizationProfile", .str publicTaskProfile)]
  | some caller =>
      [("_principalId", .str caller.principalId)] ++
        (caller.actorId.map fun id => ("_actorId", Json.str id)).toList ++
        (caller.tokenExchange.map fun grant =>
          ("_authorizationKey", Json.str grant.allowedCaller)).toList ++
        (caller.tokenExchange.map fun grant =>
          ("_authorizationProfile", Json.str grant.profileId)).toList

/-- What the message is stamped with beyond that: attestations of the token exchange, behind
those that the message has brought itself. -/
def attestationMetadata (caller : Option VerifiedCaller) (metadata : JsonObject) : JsonObject :=
  match caller.bind (·.tokenExchange) |>.bind (·.attestations) with
  | none => []
  | some attestations =>
      let existing := match metadata.field identityVcPresentedMetadataKey with
        | some (.arr items) => items
        | _ => []
      [(identityVcPresentedMetadataKey, .arr (existing ++ attestations))]

def mergeExtensions (message : JsonObject) (requested : List String) : JsonObject :=
  if requested = [] then message
  else
    let existing := match message.field "extensions" with
      | some (.arr items) => items.filterMap fun
          | .str s => some s
          | _ => none
      | _ => []
    message.set "extensions" (.arr ((existing ++ requested).eraseDups.map .str))

/-- Parts that are no objects stay for the validation of the request. -/
def normalizeRequestParts (message : JsonObject) : JsonObject :=
  match message.field "parts" with
  | some (.arr parts) => message.set "parts" (.arr (parts.map fun
      | .obj part => .obj (normalizePart part)
      | part => part))
  | _ => message

/-- `requested` are the extensions that the headers ask for. -/
def prepareMessage (identities : JsonObject → List Json) (requested : List String)
    (caller : Option VerifiedCaller) (message : JsonObject) : JsonObject :=
  let message := stripCallerSuppliedInternalKeys (mergeExtensions message requested)
  let message := normalizeRequestParts (prepareIdentityVcAtBoundary identities message)
  let metadata := (message.object? "metadata").getD []
  message.set "metadata" (.obj
    ((metadata.assign (authorizationMetadata caller)).assign (attestationMetadata caller metadata)))

def prepareRequest (identities : JsonObject → List Json) (requested : List String)
    (caller : Option VerifiedCaller) (request : JsonObject) : JsonObject :=
  match request.object? "message" with
  | none => request
  | some message =>
      let request := stripCallerSuppliedInternalKeys request
      let request :=
        request.set "message" (.obj (prepareMessage identities requested caller message))
      request.set "metadata" (.obj
        (((request.object? "metadata").getD []).assign (authorizationMetadata caller)))

def prepareAgentRequestBody (transport : A2ATransport) (identities : JsonObject → List Json)
    (requested : List String) (caller : Option VerifiedCaller) (body : Json) : Json :=
  match body, transport with
  | .obj body, .jsonrpc =>
      match JsonObject.object? body "params" with
      | some request =>
          .obj (JsonObject.set body "params"
            (.obj (prepareRequest identities requested caller request)))
      | none => .obj body
  | .obj body, .httpJson => .obj (prepareRequest identities requested caller body)
  | body, _ => body

/-! ## Where it goes -/

/-- The request of the body, as the transport carries it. -/
def requestOf (transport : A2ATransport) (body : Json) : Option JsonObject :=
  match body, transport with
  | .obj body, .jsonrpc => JsonObject.object? body "params"
  | .obj body, .httpJson => some body
  | _, _ => none

def messageOf (transport : A2ATransport) (body : Json) : Option JsonObject :=
  (requestOf transport body).bind (·.object? "message")

/-- The metadata of the message in `task.assign`. -/
def forwardMetadata (message : JsonObject) : Option JsonObject :=
  stripInternalMetadata
    ((message.object? "metadata").map (·.without [identityVcPresentedMetadataKey]))

/-- Its parts. -/
def forwardParts (message : JsonObject) : Option (Except String (List JsonObject)) :=
  match message.field "parts" with
  | some (.arr parts) => (parts.mapM Json.record).map partsToWire
  | _ => none

end VicoopBridge
