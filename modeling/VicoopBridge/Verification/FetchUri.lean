import VicoopBridge.Model.FetchUriFile

/-! # The fetch of a file behind a URI

Every hop of the chain is checked before it is requested, and every request goes to an address that
has been checked. -/

namespace VicoopBridge

namespace FetchUri

open Library Program

variable (env : FetchEnv)

/-! ## What a hop may be -/

def Secure (url : FetchUrl) : Prop :=
  url.protocol = "https:" ∧ url.username = "" ∧ url.password = ""

/-- The requests of a hop are for one secure URL, once for each of the first addresses of its host,
none of which is blocked, and connect to one of them. -/
structure HopSpec (hop : FetchHop) : Prop where
  oneUrl : ∃ url, ∀ request ∈ hop.requests, request.1 = url
  secure : ∀ request ∈ hop.requests, Secure request.1 ∧ request.1.hostname = hop.hostname
  unblocked : hop.requests ≠ [] → ∀ address ∈ hop.addresses, isBlockedIp env address = false
  tried : hop.requests.map Prod.snd <+: hop.addresses
  connected : ∀ request ∈ hop.requests, connectsTo env request.1 request.2 ∈ hop.addresses

/-- No more URLs have been requested than the limit says, and each of them as it may be. -/
structure Contained (limit : ℕ) (hops : List FetchHop) : Prop where
  limited : hops.length ≤ limit
  hops : ∀ hop ∈ hops, HopSpec env hop

/-- The next request of a hop may be made. -/
structure Ready (hop : FetchHop) (url : FetchUrl) (address : String) : Prop where
  secure : Secure url
  host : url.hostname = hop.hostname
  oneUrl : ∀ request ∈ hop.requests, request.1 = url
  unblocked : ∀ address ∈ hop.addresses, isBlockedIp env address = false
  next : hop.requests.map Prod.snd ++ [address] <+: hop.addresses
  connected : connectsTo env url address ∈ hop.addresses

/-- A hop is begun within the limit, and a request is made where it is ready. -/
def Permitted (limit : ℕ) : FetchOp → List FetchHop → Prop
  | .resolveHost _, hops => hops.length < limit
  | .request url address, hops => ∃ before hop, hops = before ++ [hop] ∧ Ready env hop url address
  | .aborted, _ | .read, _ | .cancel, _ => True

variable {env} {limit : ℕ}

theorem addRequest_append (url : FetchUrl) (address : String) (before : List FetchHop)
    (hop : FetchHop) : addRequest url address (before ++ [hop]) =
      before ++ [{ hop with requests := hop.requests ++ [(url, address)] }] := by
  induction before with
  | nil => rfl
  | cons first before ih =>
      obtain ⟨second, rest, heq⟩ := List.exists_cons_of_ne_nil
        (List.append_ne_nil_of_right_ne_nil before (List.cons_ne_nil hop []))
      rw [List.cons_append, heq, addRequest, ← heq, ih]
      · rfl
      · exact fun h => nomatch h

theorem Ready.hopSpec {hop : FetchHop} {url : FetchUrl} {address : String}
    (h : Ready env hop url address) (hspec : HopSpec env hop) :
    HopSpec env { hop with requests := hop.requests ++ [(url, address)] } := by
  refine ⟨⟨url, ?_⟩, ?_, fun _ => h.unblocked, ?_, ?_⟩
  · intro request hmem
    rcases List.mem_append.mp hmem with hmem | hmem
    · exact h.oneUrl request hmem
    · rw [List.mem_singleton.mp hmem]
  · intro request hmem
    rcases List.mem_append.mp hmem with hmem | hmem
    · exact hspec.secure request hmem
    · rw [List.mem_singleton.mp hmem]
      exact ⟨h.secure, h.host⟩
  · dsimp only
    rw [List.map_append]
    exact h.next
  · intro request hmem
    rcases List.mem_append.mp hmem with hmem | hmem
    · exact hspec.connected request hmem
    · rw [List.mem_singleton.mp hmem]
      exact h.connected

theorem hopSpec_empty (hostname : String) (addresses : List String) :
    HopSpec env ⟨hostname, addresses, []⟩ where
  oneUrl := ⟨⟨"", "", "", "", "", "", ""⟩, nofun⟩
  secure := nofun
  unblocked h := absurd rfl h
  tried := List.nil_prefix
  connected := nofun

/-- What is permitted keeps the fetch contained. -/
theorem Contained.call {op : FetchOp} {hops hops' : List FetchHop} {answer : op.Answer}
    (h : Contained env limit hops) (hop : Permitted env limit op hops)
    (hstep : networkStep env op hops answer hops') : Contained env limit hops' := by
  cases op with
  | aborted | read | cancel =>
      obtain rfl : hops' = hops := hstep
      exact h
  | resolveHost hostname =>
      cases answer with
      | addresses addresses =>
          obtain ⟨-, rfl⟩ := hstep
          refine ⟨?_, fun hop' hmem => ?_⟩
          · rw [List.length_append]
            exact hop
          · rcases List.mem_append.mp hmem with hmem | hmem
            · exact h.hops hop' hmem
            · rw [List.mem_singleton.mp hmem]
              exact hopSpec_empty hostname addresses
      | aborted | failed =>
          obtain ⟨-, rfl⟩ := hstep
          exact h
  | request url address =>
      obtain rfl : hops' = addRequest url address hops := hstep
      obtain ⟨before, hop, rfl, hready⟩ := hop
      rw [addRequest_append]
      refine ⟨by simpa using h.limited, fun hop' hmem => ?_⟩
      rcases List.mem_append.mp hmem with hmem | hmem
      · exact h.hops hop' (List.mem_append_left _ hmem)
      · rw [List.mem_singleton.mp hmem]
        exact hready.hopSpec (h.hops hop (by simp))

/-! ## Each function -/

/-- The function may be run, and what it returns is as said. -/
abbrev SafeFetch (env : FetchEnv) (limit : ℕ) {α : Type} (p : Fetch α) (hops : List FetchHop)
    (post : α → List FetchHop → Prop) : Prop :=
  Safe (networkStep env) (Permitted env limit) (Returns post) p hops

theorem safe_aborted (hops : List FetchHop) :
    SafeFetch env limit (ask .aborted) hops fun _ hops' => hops' = hops :=
  ⟨trivial, fun _ _ h => h⟩

theorem safe_cancel (hops : List FetchHop) :
    SafeFetch env limit (ask .cancel) hops fun _ _ => True :=
  ⟨trivial, fun _ _ _ => trivial⟩

theorem safe_fail {α : Type} {post : α → List FetchHop → Prop} (code : FetchUriErrorCode)
    (message : String) (hops : List FetchHop) :
    SafeFetch env limit (fail code message) hops post := trivial

/-- The response is given up, with an error. -/
theorem safe_cancel_fail {α : Type} {post : α → List FetchHop → Prop} (code : FetchUriErrorCode)
    (message : String) (hops : List FetchHop) :
    SafeFetch env limit (do ask .cancel; fail code message) hops post :=
  (safe_cancel hops).bind fun _ hops _ => safe_fail code message hops

theorem safe_throwIfAborted (hops : List FetchHop) :
    SafeFetch env limit throwIfAborted hops fun _ hops' => hops' = hops := by
  refine (safe_aborted hops).bind fun aborted hops' h => ?_
  cases aborted with
  | true => exact safe_fail _ _ _
  | false => exact h

theorem safe_waitForResolution {hops : List FetchHop} (h : hops.length < limit)
    (hostname : String) :
    SafeFetch env limit (waitForResolution hostname) hops fun addresses hops' =>
      resolves env hostname (.addresses addresses) ∧ hops' = hops ++ [⟨hostname, addresses, []⟩] := by
  refine (safe_throwIfAborted hops).bind fun _ hops' heq => ?_
  subst heq
  have hask : SafeFetch env limit (ask (.resolveHost hostname)) hops' fun answer hops'' =>
      networkStep env (.resolveHost hostname) hops' answer hops'' := ⟨h, fun _ _ hstep => hstep⟩
  refine hask.bind fun answer hops'' hstep => ?_
  cases answer with
  | addresses addresses => exact hstep
  | aborted => exact safe_fail _ _ _
  | failed => exact safe_fail _ _ _

theorem safe_refuseBlocked (addresses : List String) (hops : List FetchHop) :
    SafeFetch env limit (refuseBlocked env addresses) hops fun _ hops' =>
      hops' = hops ∧ ∀ address ∈ addresses, isBlockedIp env address = false := by
  induction addresses with
  | nil => exact ⟨rfl, nofun⟩
  | cons address rest ih =>
      unfold refuseBlocked
      split
      · exact safe_fail _ _ _
      · rename_i hopen
        refine ih.mono fun _ hops' h => ⟨h.1, fun address' hmem => ?_⟩
        rcases List.mem_cons.mp hmem with rfl | hmem
        · exact (Bool.not_eq_true _).mp hopen
        · exact h.2 address' hmem

/-- A validated URL is secure, and its host has been resolved to addresses that are not blocked. -/
structure Validated (env : FetchEnv) (url : FetchUrl) (hops : List FetchHop)
    (addresses : List String) (hops' : List FetchHop) : Prop where
  secure : Secure url
  resolved : resolves env url.hostname (.addresses addresses)
  unblocked : ∀ address ∈ addresses, isBlockedIp env address = false
  hops : hops' = hops ++ [⟨url.hostname, addresses, []⟩]

theorem safe_validateUrlForFetch {hops : List FetchHop} (h : hops.length < limit)
    (url : FetchUrl) :
    SafeFetch env limit (validateUrlForFetch env url) hops (Validated env url hops) := by
  refine (safe_throwIfAborted hops).bind fun _ hops' heq => ?_
  subst heq
  split
  · exact safe_fail _ _ _
  rename_i hprotocol
  split
  · exact safe_fail _ _ _
  rename_i huser
  push Not at hprotocol huser
  refine (safe_waitForResolution h url.hostname).bind fun addresses hops'' hresolved => ?_
  split
  · exact safe_fail _ _ _
  refine (safe_refuseBlocked addresses hops'').bind fun _ hops₃ hopen => ?_
  refine (safe_throwIfAborted hops₃).bind fun _ hops₄ heq => ?_
  exact ⟨⟨hprotocol, huser.1, huser.2⟩, hresolved.1, hopen.2,
    heq.trans (hopen.1.trans hresolved.2)⟩

/-- A host that is an address is resolved to itself, and so connects to what has been checked. -/
theorem connectsTo_mem {url : FetchUrl} {addresses : List String} {address : String}
    (h : resolves env url.hostname (.addresses addresses)) (hmem : address ∈ addresses) :
    connectsTo env url address ∈ addresses := by
  unfold connectsTo
  dsimp only
  split
  · rename_i hliteral
    rw [h hliteral]
    exact List.mem_singleton_self _
  · exact hmem

/-- The addresses are tried in their order, up to one that answers. -/
theorem safe_fetchPinned {before : List FetchHop} {url : FetchUrl} {addresses tried : List String}
    (hsecure : Secure url) (hresolved : resolves env url.hostname (.addresses addresses))
    (hopen : ∀ address ∈ addresses, isBlockedIp env address = false) (rest : List String)
    (h : tried ++ rest = addresses) :
    SafeFetch env limit (fetchPinned url rest)
      (before ++ [⟨url.hostname, addresses, tried.map fun address => (url, address)⟩])
      fun _ hops' => hops'.length = before.length + 1 := by
  induction rest generalizing tried with
  | nil => exact safe_fail _ _ _
  | cons address rest ih =>
      refine (safe_throwIfAborted _).bind fun _ hops' heq => ?_
      subst heq
      have hmem : address ∈ addresses := by rw [← h]; simp
      have htried : (tried.map fun address => (url, address)).map Prod.snd = tried := by
        rw [List.map_map]
        exact List.map_id tried
      have hready : Ready env
          ⟨url.hostname, addresses, tried.map fun address => (url, address)⟩ url address := by
        refine ⟨hsecure, rfl, ?_, hopen, ?_, connectsTo_mem hresolved hmem⟩
        · intro request hrequest
          obtain ⟨_, -, rfl⟩ := List.mem_map.mp hrequest
          rfl
        · dsimp only
          rw [htried, ← h]
          exact ⟨rest, by simp⟩
      have hask : SafeFetch env limit (ask (.request url address))
          (before ++ [⟨url.hostname, addresses, tried.map fun address => (url, address)⟩])
          fun _ hops' => hops' = before ++ [⟨url.hostname, addresses,
            (tried ++ [address]).map fun address => (url, address)⟩] := by
        refine ⟨⟨before, _, rfl, hready⟩, fun answer hops' hstep => ?_⟩
        obtain rfl : hops' = _ := hstep
        change _ = _
        rw [addRequest_append, List.map_append]
        rfl
      refine hask.bind fun answer hops' heq => ?_
      subst heq
      cases answer with
      | some res => exact List.length_append
      | none => exact ih (by rw [← h]; simp)

theorem safe_fetchWrapped {hops hops' : List FetchHop} {url : FetchUrl} {addresses : List String}
    (h : Validated env url hops addresses hops') :
    SafeFetch env limit (fetchWrapped url addresses) hops' fun _ hops'' =>
      hops''.length = hops.length + 1 := by
  obtain ⟨hsecure, hresolved, hopen, rfl⟩ := h
  refine Safe.andThen
    (safe_fetchPinned hsecure hresolved hopen addresses (List.nil_append _)) fun result _ h => ?_
  cases result with
  | ok res => exact h
  | error _ => exact safe_fail _ _ _

/-- The body is never longer than it may be. -/
theorem safe_readBody (maxBytes fuel : ℕ) (chunks : List UInt8) (hops : List FetchHop)
    (h : chunks.length ≤ maxBytes) :
    SafeFetch env limit (readBody maxBytes fuel chunks) hops fun bytes _ =>
      bytes.length ≤ maxBytes := by
  induction fuel generalizing chunks hops with
  | zero => exact Safe.throw
  | succ fuel ih =>
      refine ⟨trivial, fun answer hops' _ => ?_⟩
      cases answer with
      | failed => exact Safe.throw
      | done =>
          change SafeFetch env limit (if _ then _ else _) _ _
          split
          · exact safe_fail _ _ _
          · exact h
      | chunk bytes =>
          change SafeFetch env limit (if _ then _ else _) _ _
          split
          · exact safe_cancel_fail _ _ _
          · rename_i hfit
            refine ih _ _ ?_
            rw [List.length_append]
            exact Nat.le_of_not_lt hfit

theorem safe_readResponse (fuel : ℕ) (declared : Option String) (res : FetchResponse)
    (hops : List FetchHop) :
    SafeFetch env limit (readResponse env fuel declared res) hops fun file _ =>
      file.bytes.length ≤ inputFileMaxBytes := by
  unfold readResponse
  split
  · exact safe_cancel_fail _ _ _
  split
  · exact safe_cancel_fail _ _ _
  dsimp only
  split
  · exact safe_cancel_fail _ _ _
  split
  · exact safe_cancel_fail _ _ _
  exact (safe_readBody _ fuel [] hops (Nat.zero_le _)).bind fun _ _ h => h

theorem safe_fetchHop {hops : List FetchHop} (h : hops.length < limit) (current : FetchUrl) :
    SafeFetch env limit (fetchHop env current) hops fun _ hops' =>
      hops'.length = hops.length + 1 :=
  (safe_validateUrlForFetch h current).bind fun _ _ hvalid => safe_fetchWrapped hvalid

theorem safe_redirectLocation (res : FetchResponse) (hops : List FetchHop) :
    SafeFetch env limit (redirectLocation res) hops fun _ hops' => hops' = hops := by
  unfold redirectLocation
  split
  · exact safe_cancel_fail _ _ _
  · exact Safe.pure rfl

/-- Every redirect is validated like the URL before it, while there are redirects left. -/
theorem safe_fetchHops (fuel maxRedirects : ℕ) (declared : Option String) (redirectsLeft : ℕ)
    (current : FetchUrl) (hops : List FetchHop) (h : hops.length + redirectsLeft < limit) :
    SafeFetch env limit (fetchHops env fuel maxRedirects declared redirectsLeft current) hops
      fun file _ => file.bytes.length ≤ inputFileMaxBytes := by
  induction redirectsLeft generalizing current hops with
  | zero =>
      refine (safe_fetchHop (by omega) current).bind fun res hops' _ => ?_
      split
      · exact (safe_redirectLocation res hops').bind fun _ _ _ => safe_cancel_fail _ _ _
      · exact safe_readResponse _ _ _ _
  | succ redirectsLeft ih =>
      refine (safe_fetchHop (by omega) current).bind fun res hops' hlength => ?_
      split
      · refine (safe_redirectLocation res hops').bind fun location hops'' heq => ?_
        subst heq
        refine ⟨trivial, fun _ hops₃ heq => ?_⟩
        obtain rfl : hops₃ = hops'' := heq
        split
        · exact Safe.throw
        · rename_i next _
          exact ih next hops₃ (by omega)
      · exact safe_readResponse _ _ _ _

theorem safe_fetchUriToBytes (fuel : ℕ) (uri : String) (declared : Option String)
    (maxRedirects : ℕ) :
    SafeFetch env (maxRedirects + 1) (fetchUriToBytes env fuel uri declared maxRedirects) []
      fun file _ => file.bytes.length ≤ inputFileMaxBytes := by
  unfold fetchUriToBytes
  split
  · exact safe_fail _ _ _
  · refine safe_fetchHops _ _ _ _ _ _ ?_
    rw [List.length_nil, Nat.zero_add]
    exact Nat.lt_succ_self maxRedirects

/-! ## The whole fetch -/

def sampleUrl (pathname : String) : FetchUrl :=
  { protocol := "https:", hostname := "files.example", pathname := pathname }

def sampleEnv : FetchEnv where
  parseUrl uri base :=
    if base = none then if uri = "https://files.example/a" then some (sampleUrl "/a") else none
    else if uri = "/b" then some (sampleUrl "/b") else none
  isIP text := if text = "files.example" then 0 else 4
  toNumber _ := none
  printNumber _ := ""
  toLowerCase text := text

def sampleHops : List FetchHop :=
  [⟨"files.example", ["8.8.8.8", "8.8.4.4"],
      [(sampleUrl "/a", "8.8.8.8"), (sampleUrl "/a", "8.8.4.4")]⟩,
    ⟨"files.example", ["8.8.8.8"], [(sampleUrl "/b", "8.8.8.8")]⟩]

theorem sample_resolveHost (addresses : List String) (hops : List FetchHop) (pathname : String) :
    networkStep sampleEnv (.resolveHost (sampleUrl pathname).hostname) hops
      (.addresses addresses) (hops ++ [⟨"files.example", addresses, []⟩]) := by
  have hname : sampleEnv.isIP (stripIpv6Brackets "files.example") = 0 := by decide
  exact ⟨fun h => absurd hname h, rfl⟩

theorem sample_request (answer : Option FetchResponse) (hops : List FetchHop)
    (pathname address : String) :
    networkStep sampleEnv (.request (sampleUrl pathname) address) hops answer
      (addRequest (sampleUrl pathname) address hops) := rfl

theorem sample_open :
    refuseBlocked sampleEnv ["8.8.8.8", "8.8.4.4"] = pure () ∧
      refuseBlocked sampleEnv ["8.8.8.8"] = pure () := ⟨by rfl, by rfl⟩

/-- The first address does not answer, and the second one redirects. -/
theorem sample_run :
    Run (networkStep sampleEnv) (fetchUriToBytes sampleEnv 2 "https://files.example/a" none 1) []
      (.done (.ok ⟨[1], "image/png"⟩)) sampleHops := by
  refine .call (a := false) rfl (.call (a := false) rfl ?_)
  refine .call (sample_resolveHost ["8.8.8.8", "8.8.4.4"] _ "/a") ?_
  dsimp only [bind, Program.andThen, ↓reduceIte, pure]
  rw [sample_open.1]
  refine .call (a := false) rfl (.call (a := false) rfl ?_)
  refine .call (sample_request none _ "/a" "8.8.8.8") (.call (a := false) rfl ?_)
  refine .call (sample_request (some ⟨302, some "/b", none, none⟩) _ "/a" "8.8.4.4") ?_
  refine .call (a := ()) rfl (.call (a := false) rfl (.call (a := false) rfl ?_))
  refine .call (sample_resolveHost ["8.8.8.8"] _ "/b") ?_
  dsimp only [bind, Program.andThen, ↓reduceIte, pure]
  rw [sample_open.2]
  refine .call (a := false) rfl (.call (a := false) rfl ?_)
  refine .call (sample_request (some ⟨200, none, none, some "image/png"⟩) _ "/b" "8.8.8.8") ?_
  refine .call (a := ReadAnswer.chunk [1]) rfl ?_
  refine .call (a := ReadAnswer.done) rfl ?_
  exact .refl _ _

end FetchUri

end VicoopBridge
