import VicoopBridge.Library.LineReader
import VicoopBridge.Library.Utf8Decoder
import VicoopBridge.Model.JsString
import VicoopBridge.Model.Json

/-! # The RPC client of the Codex app server

It reads JSON messages, one to a line, from the standard output of its child, and hands them to the
requests, the handler and the listeners they are for. What throws in a `data` listener ends the
process. -/

namespace VicoopBridge

open Library

/-- What the backend calls. Listeners and requests are numbers. -/
inductive RpcCall where
  | request (method : String)
  | onNotification (listener : ℕ)
  | offNotification (listener : ℕ)
  | setServerRequestHandler (handler : Option ℕ)

/-- What becomes of a message or a request. A rejection carries the message of the error, and the code
that the server gave. Without a number the promise of the request is rejected where it is made. With
`expired` the caller waits no longer, and the promise goes on. -/
inductive RpcEffect where
  | resolved (id : ℕ) (result : Option Json)
  | rejected (id : ℕ) (message : String) (code : Option Json)
  | refused (method message : String)
  | unsent (id : ℕ)
  | closed (id : ℕ) (message : String)
  | expired (id : ℕ)
  | declined (id : Json)
  | requested (handler : ℕ) (id method : Json) (params : Option Json)
  | notified (listener : ℕ) (method : Json) (params : Option Json)

/-- What a listener does with a notification: the requests it makes, if it takes itself off the
client, and if it throws. -/
structure RpcReaction where
  requests : List String := []
  leaves : Bool := false
  throws : Bool := false

/-- What comes of writing a request: `JSON.stringify` throws before there is a promise, or the
`write` throws behind it, or it goes out. -/
inductive RpcSend where
  | unserializable
  | unwritten
  | written

/-- `parse` is `JSON.parse`, `toNumber` is `Number` and `print` is `String`, on what they do not throw
at. `send` says what comes of writing the request with a number. -/
structure RpcEnv where
  parse : String → Option Json
  toNumber : Json → Option ℚ
  print : Json → String
  logger : Bool
  react : ℕ → Json → Option Json → RpcReaction
  stdin : Bool := true
  send : ℕ → RpcSend := fun _ => .written

/-- `written` are the bytes that have come so far. `dispatched`, `effects` and `answers` are a record
of what has been done: `answers` are the responses that have settled a request, with its number.
`threw` says that the `data` listener has thrown. -/
structure RpcClient where
  stdoutBuf : List Char := []
  nextId : ℕ := 0
  pending : List (ℕ × String) := []
  notificationHandlers : List ℕ := []
  serverRequestHandler : Option ℕ := none
  closed : Bool := false
  written : List UInt8 := []
  dispatched : List JsonObject := []
  effects : List RpcEffect := []
  answers : List (ℕ × JsonObject) := []
  threw : Bool := false

/-- Why the transport has ended, with the message of the error. -/
structure RpcCloseReason where
  error : Option String := none
  signal : Option String := none
  code : Option ℤ := none

def RpcCloseReason.detail (reason : RpcCloseReason) : String :=
  match reason.error, reason.signal, reason.code with
  | some message, _, _ => ": " ++ message
  | none, some signal, _ => " (signal " ++ signal ++ ")"
  | none, none, some code => " (code " ++ toString code ++ ")"
  | none, none, none => ""

namespace RpcClient

def transportClosed : String := "transport_closed"

def effect (s : RpcClient) (e : RpcEffect) : RpcClient := { s with effects := s.effects ++ [e] }

variable (env : RpcEnv)

/-- A request, or a change of the listeners. -/
def call (s : RpcClient) : RpcCall → RpcClient
  | .request method =>
      if s.closed then s.effect (.refused method transportClosed)
      else if !env.stdin then
        s.effect (.refused method "AppServerRpcClient.request before start (no stdin)")
      else
        let id := s.nextId
        let s := { s with nextId := id + 1 }
        match env.send id with
        | .unserializable => s
        | .unwritten => s.effect (.unsent id)
        | .written => { s with pending := s.pending ++ [(id, method)] }
  | .onNotification listener =>
      if listener ∈ s.notificationHandlers then s
      else { s with notificationHandlers := s.notificationHandlers ++ [listener] }
  | .offNotification listener =>
      { s with notificationHandlers := s.notificationHandlers.filter (· ≠ listener) }
  | .setServerRequestHandler handler => { s with serverRequestHandler := handler }

/-- ``resp.error.message ?? `rpc error (${resp.error.code ?? 'unknown'})` `` as the text of an error.
None where no string can be made of what it takes. -/
def errorMessage (error : Json) : Option String :=
  match (error.property "message").bind Json.nonNull with
  | some message => if message.unprintable then none else some (env.print message)
  | none =>
      match (error.property "code").bind Json.nonNull with
      | some code =>
          if code.unprintable then none else some ("rpc error (" ++ env.print code ++ ")")
      | none => some "rpc error (unknown)"

/-- The request that waits under `typeof id === 'number' ? id : Number(id)`. -/
def waiting (s : RpcClient) (id : Json) : Option (ℕ × String) :=
  match id with
  | .num n => s.pending.find? fun p => (p.1 : ℚ) = n
  | id => (env.toNumber id).bind fun n => s.pending.find? fun p => (p.1 : ℚ) = n

/-- A response to a request of the client. -/
def onResponse (s : RpcClient) (msg : JsonObject) (id : Json) : RpcClient × Bool :=
  if id.unprintable then (s, true)
  else match waiting env s id with
    | none => (s, false)
    | some p =>
        let pending := s.pending.filter fun q => q.1 ≠ p.1
        let answered := { s with pending := pending, answers := s.answers ++ [(p.1, msg)] }
        match msg.field "error" with
        | some error =>
            if error.truthy then
              match errorMessage env error with
              | none => ({ s with pending := pending }, true)
              | some message =>
                  (answered.effect (.rejected p.1 message (error.property "code")), false)
            else (answered.effect (.resolved p.1 (msg.field "result")), false)
        | none => (answered.effect (.resolved p.1 (msg.field "result")), false)

/-- A request of the server. A handler runs later, and cannot throw in here. -/
def onServerRequest (s : RpcClient) (msg : JsonObject) (id method : Json) : RpcClient × Bool :=
  match s.serverRequestHandler with
  | none =>
      if env.logger && method.unprintable then (s, true) else (s.effect (.declined id), false)
  | some handler => (s.effect (.requested handler id method (msg.field "params")), false)

/-- What a listener leaves behind. -/
def react (s : RpcClient) (listener : ℕ) (r : RpcReaction) : RpcClient :=
  let s := r.requests.foldl (fun s method => call env s (.request method)) s
  if r.leaves then call env s (.offNotification listener) else s

/-- A notification goes to every listener, up to one whose failure cannot be logged. -/
def notifyAll (method : Json) (params : Option Json) : List ℕ → RpcClient → RpcClient × Bool
  | [], s => (s, false)
  | h :: rest, s =>
      let r := env.react h method params
      let s := react env (s.effect (.notified h method params)) h r
      if r.throws && env.logger && method.unprintable then (s, true)
      else notifyAll method params rest s

/-- The second component says that it throws. -/
def dispatch (s : RpcClient) (msg : Json) : RpcClient × Bool :=
  match msg with
  | .null | .bool _ | .num _ | .str _ => (s, true)  -- `'id' in msg` needs an object
  | .arr _ => (s, false)
  | .obj msg =>
      let s := { s with dispatched := s.dispatched ++ [msg] }
      match JsonObject.field msg "id", JsonObject.field msg "method" with
      | some id, none => onResponse env s msg id
      | some id, some method => onServerRequest env s msg id method
      | none, some method =>
          notifyAll env method (JsonObject.field msg "params") s.notificationHandlers s
      | none, none => (s, false)

/-- A line that is not JSON is logged and skipped. -/
def onLine (s : RpcClient) (line : List Char) : RpcClient × Bool :=
  let line := trim (String.ofList line)
  if line = "" then (s, false)
  else match env.parse line with
    | none => (s, false)
    | some msg => dispatch env s msg

def drainStdout (s : RpcClient) : RpcClient :=
  match LineReader.drain '\n' (onLine env) s.stdoutBuf.length s.stdoutBuf s with
  | (buffer, s, threw) => { s with stdoutBuf := buffer, threw := threw }

/-- The `data` listener: `this.stdoutBuf += chunk.toString('utf8')`. -/
def onData (s : RpcClient) (chunk : List UInt8) : RpcClient :=
  drainStdout env
    { s with stdoutBuf := s.stdoutBuf ++ decodeUtf8 chunk, written := s.written ++ chunk }

def handleTransportEnd (s : RpcClient) (reason : RpcCloseReason) : RpcClient :=
  if s.closed then s
  else
    { s with
      closed := true
      pending := []
      effects := s.effects ++
        s.pending.map fun p => .closed p.1 (transportClosed ++ reason.detail) }

/-- The timer of `withTimeout`. What settles the request clears it. -/
def expire (s : RpcClient) (id : ℕ) : RpcClient :=
  if id ∈ s.pending.map Prod.fst then s.effect (.expired id) else s

end RpcClient

inductive RpcEvent where
  | data (chunk : List UInt8)
  | call (c : RpcCall)
  | timeout (id : ℕ)
  | transportEnd (reason : RpcCloseReason)

namespace RpcClient

variable (env : RpcEnv)

/-- Nothing happens any more once the listener has thrown. -/
def step (s : RpcClient) (e : RpcEvent) : RpcClient :=
  if s.threw then s
  else match e with
    | .data chunk => onData env s chunk
    | .call c => call env s c
    | .timeout id => expire s id
    | .transportEnd reason => handleTransportEnd s reason

def run (events : List RpcEvent) : RpcClient := events.foldl (step env) {}

end RpcClient

/-! ## What the bytes say -/

/-- One line of the stream, read the way the client reads it. -/
def RpcEnv.parseLine (env : RpcEnv) (line : List UInt8) : Option Json :=
  let text := trim (String.ofList (decodeUtf8 line))
  if text = "" then none else env.parse text

/-- The messages in a stream: what its lines hold, as far as that is an object. -/
def rpcMessages (env : RpcEnv) (written : List UInt8) : List JsonObject :=
  (LineReader.splitLines 10 written).1.filterMap fun line =>
    match env.parseLine line with
    | some (.obj msg) => some msg
    | _ => none

end VicoopBridge
