import Mathlib.Data.List.Basic
import Mathlib.Data.Rat.Defs
import VicoopBridge.Library.CrashProgram
import VicoopBridge.Model.JsString

/-! # Fetching the file behind a URI

The filter of addresses in front of every request, and the fetch that goes through it at every
redirect. The parser of URLs and the functions of the runtime are parameters, and what the network
answers is open. -/

namespace VicoopBridge

namespace FetchUri

/-- `/^\d+$/` -/
def isDigits (part : List Char) : Bool := part ≠ [] && part.all Char.isDigit

/-- `Number` of a text of digits. -/
def numberOf (digits : List Char) : ℕ := Nat.ofDigitChars 10 digits 0

def parseIpv4 (ip : List Char) : Option (List ℕ) :=
  let parts := ip.splitOn '.'
  if parts.length ≠ 4 then none
  else parts.mapM fun part =>
    if !isDigits part then none
    else if 255 < numberOf part then none
    else some (numberOf part)

def isBlockedIpv4 (ip : List Char) : Bool :=
  match parseIpv4 ip with
  | some (a :: b :: _) =>
      a = 0 || a = 10 || a = 127 || (a = 169 && b = 254) || (a = 172 && 16 ≤ b && b ≤ 31) ||
        (a = 192 && b = 168) || (a = 100 && 64 ≤ b && b ≤ 127) || 224 ≤ a
  | _ => true

/-- `split('::')` -/
def splitDoubleColon : List Char → List (List Char)
  | [] => [[]]
  | ':' :: ':' :: rest => [] :: splitDoubleColon rest
  | c :: rest =>
      match splitDoubleColon rest with
      | [] => [[c]]
      | piece :: pieces => (c :: piece) :: pieces

/-- `piece ? piece.split(':') : []` -/
def splitColon (piece : List Char) : List (List Char) :=
  if piece = [] then [] else piece.splitOn ':'

/-- The group that `/^::ffff:(\d+\.\d+\.\d+\.\d+)$/` captures. -/
def mappedTail (clean : List Char) : Option (List Char) :=
  if "::ffff:".toList <+: clean then
    let tail := clean.drop 7
    let parts := tail.splitOn '.'
    if parts.length = 4 && parts.all isDigits then some tail else none
  else none

def isLowerHexDigit (c : Char) : Bool := c.isDigit || ('a' ≤ c && c ≤ 'f')

/-- `Number.parseInt(part, 16)` of a text of digits in lower case. -/
def parseHex (part : List Char) : ℕ :=
  part.foldl (fun n c => 16 * n + (if c.isDigit then c.toNat - 48 else c.toNat - 87)) 0

/-- `/^[0-9a-f]{1,4}$/.test(part) ? Number.parseInt(part, 16) : -1` -/
def parseGroup (part : List Char) : Option ℕ :=
  if 1 ≤ part.length && part.length ≤ 4 && part.all isLowerHexDigit then some (parseHex part)
  else none

def expandIpv6 (ip : List Char) : Option (List ℕ) :=
  let clean := (ip.takeWhile (· ≠ '%')).map Char.toLower
  match mappedTail clean with
  | some mapped =>
      match parseIpv4 mapped with
      | some [a, b, c, d] => some [0, 0, 0, 0, 0, 0xffff, a <<< 8 ||| b, c <<< 8 ||| d]
      | _ => none
  | none =>
      let pieces := splitDoubleColon clean
      if 2 < pieces.length then none
      else
        let left := splitColon (pieces.headD [])
        let right := splitColon (pieces.getD 1 [])
        if pieces.length = 1 ∧ left.length ≠ 8 then none
        else if 8 < left.length + right.length then none
        else
          let missing := 8 - left.length - right.length
          (left ++ List.replicate missing ['0'] ++ right).mapM parseGroup

/-- `` `${a}.${b}.${c}.${d}` `` -/
def dotted (a b c d : ℕ) : List Char :=
  (toString a).toList ++ '.' :: (toString b).toList ++ '.' :: (toString c).toList ++
    '.' :: (toString d).toList

def isBlockedIpv6 (ip : List Char) : Bool :=
  match expandIpv6 ip with
  | none => true
  | some p =>
      let group := fun i => p.getD i 0
      let isUnspecified := p.all (· = 0)
      let isLoopback := (p.take 7).all (· = 0) && group 7 = 1
      let firstByte := group 0 >>> 8
      let secondByte := group 0 &&& 0xff
      let isUniqueLocal := firstByte &&& 0xfe = 0xfc
      let isLinkLocal := firstByte = 0xfe && secondByte &&& 0xc0 = 0x80
      let isMulticast := firstByte = 0xff
      let isMappedIpv4 := (p.take 5).all (· = 0) && group 5 = 0xffff
      if isMappedIpv4 then
        isBlockedIpv4
          (dotted (group 6 >>> 8) (group 6 &&& 0xff) (group 7 >>> 8) (group 7 &&& 0xff))
      else isUnspecified || isLoopback || isUniqueLocal || isLinkLocal || isMulticast

end FetchUri

/-! ## Fetching -/

inductive FetchUriErrorCode where
  | fetchBlockedHost
  | fetchFailed
  | fetchTooLarge
  | fetchMimeMismatch
  deriving DecidableEq

/-- `invalidUrl` is what `new URL` throws at a redirect, and `terminated` what reading the body
throws. -/
inductive FetchError where
  | fetchUri (code : FetchUriErrorCode) (message : String)
  | invalidUrl
  | terminated
  | outOfFuel
  deriving DecidableEq

structure FetchUrl where
  protocol : String
  username : String := ""
  password : String := ""
  hostname : String
  port : String := ""
  pathname : String := "/"
  search : String := ""
  deriving DecidableEq

structure FetchResponse where
  status : ℕ
  location : Option String := none
  contentLength : Option String := none
  contentType : Option String := none
  deriving DecidableEq

structure FetchedUriFile where
  bytes : List UInt8
  mimeType : String
  deriving DecidableEq

/-- `parseUrl` is `new URL`, `isIP` that of `node:net`, `toNumber` is `Number` where it is finite,
`printNumber` its text, and `toLowerCase` that of strings. -/
structure FetchEnv where
  parseUrl : String → Option FetchUrl → Option FetchUrl
  isIP : String → ℕ
  toNumber : String → Option ℚ
  printNumber : ℚ → String
  toLowerCase : String → String

inductive ResolveAnswer where
  | addresses (addresses : List String)
  | aborted
  | failed

inductive ReadAnswer where
  | done
  | chunk (bytes : List UInt8)
  | failed

/-- What the fetch asks of its surroundings. A request goes to one of the addresses of its host. -/
inductive FetchOp where
  | aborted
  | resolveHost (hostname : String)
  | request (url : FetchUrl) (address : String)
  | read
  | cancel

abbrev FetchOp.Answer : FetchOp → Type
  | .aborted => Bool
  | .resolveHost _ => ResolveAnswer
  | .request .. => Option FetchResponse
  | .read => ReadAnswer
  | .cancel => Unit

namespace FetchUri

open Library

abbrev Fetch (α : Type) := Program FetchOp FetchOp.Answer FetchError α

def ask (op : FetchOp) : Fetch op.Answer := Program.call op fun answer => .done (.ok answer)

def fail {α : Type} (code : FetchUriErrorCode) (message : String) : Fetch α :=
  Program.throw (.fetchUri code message)

def inputFileMaxBytes : ℕ := 5 * 1024 * 1024

variable (env : FetchEnv)

def isBlockedIp (ip : String) : Bool :=
  if env.isIP ip = 4 then isBlockedIpv4 ip.toList
  else if env.isIP ip = 6 then isBlockedIpv6 ip.toList
  else true

def abortedMessage : String := "file.uri fetch timed out or was aborted"

def throwIfAborted : Fetch Unit := do
  if ← ask .aborted then fail .fetchFailed abortedMessage else pure ()

def waitForResolution (hostname : String) : Fetch (List String) := do
  throwIfAborted
  match ← ask (.resolveHost hostname) with
  | .addresses addresses => pure addresses
  | .aborted => fail .fetchFailed abortedMessage
  | .failed => fail .fetchFailed ("failed to resolve " ++ hostname)

def stripIpv6Brackets (hostname : String) : String :=
  if hostname.toList.head? = some '[' ∧ hostname.toList.getLast? = some ']' then
    String.ofList hostname.toList.tail.dropLast
  else hostname

/-- The loop over the addresses. -/
def refuseBlocked : List String → Fetch Unit
  | [] => pure ()
  | address :: rest =>
      if isBlockedIp env address then
        fail .fetchBlockedHost ("file.uri host resolves to a blocked address (" ++ address ++ ")")
      else refuseBlocked rest

def validateUrlForFetch (url : FetchUrl) : Fetch (List String) := do
  throwIfAborted
  if url.protocol ≠ "https:" then
    fail .fetchBlockedHost ("file.uri must use https (got " ++
      (if url.protocol = "" then "unknown" else url.protocol) ++ ")")
  else if url.username ≠ "" ∨ url.password ≠ "" then
    fail .fetchBlockedHost "file.uri must not include userinfo"
  else do
    let addresses ← waitForResolution url.hostname
    if addresses = [] then fail .fetchFailed ("failed to resolve " ++ url.hostname)
    else do
      refuseBlocked env addresses
      throwIfAborted
      pure addresses

/-- The first address that answers. -/
def fetchPinned (url : FetchUrl) : List String → Fetch FetchResponse
  | [] => fail .fetchFailed ("failed to resolve " ++ url.hostname)
  | address :: rest => do
      throwIfAborted
      match ← ask (.request url address) with
      | some res => pure res
      | none => fetchPinned url rest

/-- What it throws is wrapped. -/
def fetchWrapped (url : FetchUrl) (addresses : List String) : Fetch FetchResponse :=
  (fetchPinned url addresses).andThen fun result =>
    match result with
    | .ok res => .done (.ok res)
    | .error _ => fail .fetchFailed ("failed to fetch file.uri (" ++ url.hostname ++ ")")

def normalizeMime (raw : Option String) : String :=
  env.toLowerCase (trim (String.ofList ((raw.getD "").toList.takeWhile (· ≠ ';'))))

def isSupportedInputFileMime (mime : String) : Bool :=
  mime ∈ ["image/png", "image/jpeg", "image/webp", "image/gif"] || mime = "application/pdf"

/-- The loop of `responseStreamToBase64`, as far as `fuel` goes. -/
def readBody (maxBytes : ℕ) : ℕ → List UInt8 → Fetch (List UInt8)
  | 0, _ => Program.throw .outOfFuel
  | fuel + 1, chunks => do
      match ← ask .read with
      | .failed => Program.throw .terminated
      | .done =>
          if chunks = [] then fail .fetchFailed "file.uri response body was empty"
          else pure chunks
      | .chunk bytes =>
          let total := chunks.length + bytes.length
          if maxBytes < total then do
            ask .cancel
            fail .fetchTooLarge ("file.uri response exceeded INPUT_FILE_MAX_BYTES (" ++
              toString total ++ " > " ++ toString maxBytes ++ ")")
          else readBody maxBytes fuel (chunks ++ bytes)

/-- What is done with a response that is no redirect. -/
def readResponse (fuel : ℕ) (declaredMimeType : Option String) (res : FetchResponse) :
    Fetch FetchedUriFile := do
  if ¬ (200 ≤ res.status ∧ res.status < 300) then do
    ask .cancel
    fail .fetchFailed ("file.uri fetch returned HTTP " ++ toString res.status)
  else
    match (res.contentLength.bind env.toNumber).filter fun n => (inputFileMaxBytes : ℚ) < n with
    | some n => do
        ask .cancel
        fail .fetchTooLarge ("file.uri Content-Length exceeds INPUT_FILE_MAX_BYTES (" ++
          env.printNumber n ++ " > " ++ toString inputFileMaxBytes ++ ")")
    | none =>
      let observedMime := normalizeMime env res.contentType
      let declared := normalizeMime env declaredMimeType
      if observedMime = "" ∨ !isSupportedInputFileMime observedMime then do
        ask .cancel
        fail .fetchMimeMismatch ("file.uri Content-Type is not supported (" ++
          (if observedMime = "" then "unknown" else observedMime) ++ ")")
      else if declared ≠ "" ∧ declared ≠ observedMime then do
        ask .cancel
        fail .fetchMimeMismatch ("file.uri declared mimeType " ++ declared ++
          " does not match Content-Type " ++ observedMime)
      else do
        let bytes ← readBody inputFileMaxBytes fuel []
        pure ⟨bytes, observedMime⟩

/-- The request of one pass of the loop. -/
def fetchHop (current : FetchUrl) : Fetch FetchResponse := do
  let addresses ← validateUrlForFetch env current
  fetchWrapped current addresses

def isRedirect (res : FetchResponse) : Bool := 300 ≤ res.status && res.status < 400

def redirectLocation (res : FetchResponse) : Fetch String :=
  match res.location.filter (· ≠ "") with
  | none => do
      ask .cancel
      fail .fetchFailed ("file.uri redirect missing Location header (" ++ toString res.status ++ ")")
  | some location => pure location

/-- The loop, with so many redirects left. -/
def fetchHops (fuel maxRedirects : ℕ) (declaredMimeType : Option String) :
    ℕ → FetchUrl → Fetch FetchedUriFile
  | 0, current => do
      let res ← fetchHop env current
      if isRedirect res then do
        let _ ← redirectLocation res
        ask .cancel
        fail .fetchFailed ("file.uri exceeded max redirects (" ++ toString maxRedirects ++ ")")
      else readResponse env fuel declaredMimeType res
  | redirectsLeft + 1, current => do
      let res ← fetchHop env current
      if isRedirect res then do
        let location ← redirectLocation res
        ask .cancel
        match env.parseUrl location (some current) with
        | none => Program.throw .invalidUrl
        | some next => fetchHops fuel maxRedirects declaredMimeType redirectsLeft next
      else readResponse env fuel declaredMimeType res

def fetchUriToBytes (fuel : ℕ) (uri : String) (declaredMimeType : Option String)
    (maxRedirects : ℕ) : Fetch FetchedUriFile :=
  match env.parseUrl uri none with
  | none => fail .fetchBlockedHost "file.uri must be an absolute https URL"
  | some url => fetchHops env fuel maxRedirects declaredMimeType maxRedirects url

end FetchUri

/-! ## The network -/

/-- One resolution of a host, and the requests since. -/
structure FetchHop where
  hostname : String
  addresses : List String
  requests : List (FetchUrl × String) := []

/-- `defaultResolveHost`: the address that the host is, or else what DNS says. -/
def resolves (env : FetchEnv) (hostname : String) : ResolveAnswer → Prop
  | .addresses addresses =>
      env.isIP (FetchUri.stripIpv6Brackets hostname) ≠ 0 →
        addresses = [FetchUri.stripIpv6Brackets hostname]
  | .aborted => True
  | .failed => env.isIP (FetchUri.stripIpv6Brackets hostname) = 0

/-- Where a request connects: `node:net` looks no address up for a host that is one. -/
def connectsTo (env : FetchEnv) (url : FetchUrl) (address : String) : String :=
  let host := FetchUri.stripIpv6Brackets url.hostname
  if env.isIP host ≠ 0 then host else address

/-- The requests of the last hop go on. -/
def addRequest (url : FetchUrl) (address : String) : List FetchHop → List FetchHop
  | [] => [⟨url.hostname, [], [(url, address)]⟩]
  | [hop] => [{ hop with requests := hop.requests ++ [(url, address)] }]
  | hop :: hops => hop :: addRequest url address hops

/-- What the network does, and the record of it. -/
def networkStep (env : FetchEnv) : (op : FetchOp) → List FetchHop → op.Answer → List FetchHop → Prop
  | .resolveHost hostname, hops, .addresses addresses, hops' =>
      resolves env hostname (.addresses addresses) ∧ hops' = hops ++ [⟨hostname, addresses, []⟩]
  | .resolveHost hostname, hops, answer, hops' => resolves env hostname answer ∧ hops' = hops
  | .request url address, hops, _, hops' => hops' = addRequest url address hops
  | .aborted, hops, _, hops' | .read, hops, _, hops' | .cancel, hops, _, hops' => hops' = hops

end VicoopBridge
