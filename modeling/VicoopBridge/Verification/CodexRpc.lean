import VicoopBridge.Model.CodexRpc

/-! # Messages of the Codex app server

What the client dispatches are the messages in the stream, however it comes in chunks, as long as no
chunk cuts a character and no line holds what throws. -/

namespace VicoopBridge

open Library

/-! ## What cannot throw -/

namespace Json

/-- `describe` of an error only makes strings of what strings can be made of. -/
def describable (error : Json) : Bool :=
  match (error.property "message").bind nonNull with
  | some message => !message.unprintable
  | none => ((error.property "code").bind nonNull).all fun code => !code.unprintable

/-- A value that the reader takes without a string or a number failing to be made: an array, or an
object with printable fields where it prints them. -/
def readable : Json → Bool
  | .null | .bool _ | .num _ | .str _ => false
  | .arr _ => true
  | .obj msg =>
      match JsonObject.field msg "method" with
      | some method => !method.unprintable
      | none =>
          (JsonObject.field msg "id").all (fun id => !id.unprintable) &&
            (JsonObject.field msg "error").all fun error => !error.truthy || error.describable

/-- The object of a message. -/
def message? : Json → Option JsonObject
  | .obj msg => some msg
  | _ => none

end Json

namespace RpcClient

variable {env : RpcEnv} {s : RpcClient}

theorem errorMessage_isSome (env : RpcEnv) {error : Json} (h : error.describable = true) :
    (errorMessage env error).isSome = true := by
  unfold Json.describable at h
  unfold errorMessage
  cases hmessage : (error.property "message").bind Json.nonNull with
  | some message =>
      rw [hmessage] at h
      dsimp only at h ⊢
      rw [if_neg (by simpa using h)]
      rfl
  | none =>
      rw [hmessage] at h
      dsimp only at h ⊢
      cases hcode : (error.property "code").bind Json.nonNull with
      | some code =>
          dsimp only
          rw [if_neg (by simpa [hcode] using h)]
          rfl
      | none => rfl

/-! ## What the handling of a message leaves alone -/

/-- The reader's part of the client has dispatched the messages, and is as it was. -/
structure Reads (s : RpcClient) (messages : List JsonObject) (t : RpcClient) : Prop where
  stdoutBuf : t.stdoutBuf = s.stdoutBuf
  written : t.written = s.written
  dispatched : t.dispatched = s.dispatched ++ messages
  threw : t.threw = s.threw

theorem Reads.nothing {t : RpcClient} (hbuffer : t.stdoutBuf = s.stdoutBuf)
    (hwritten : t.written = s.written) (hdispatched : t.dispatched = s.dispatched)
    (hthrew : t.threw = s.threw) : Reads s [] t :=
  ⟨hbuffer, hwritten, by rw [hdispatched, List.append_nil], hthrew⟩

theorem Reads.refl (s : RpcClient) : Reads s [] s := .nothing rfl rfl rfl rfl

theorem Reads.trans {messages messages' : List JsonObject} {t u : RpcClient}
    (h : Reads s messages t) (h' : Reads t messages' u) : Reads s (messages ++ messages') u where
  stdoutBuf := h'.stdoutBuf.trans h.stdoutBuf
  written := h'.written.trans h.written
  dispatched := by rw [h'.dispatched, h.dispatched, List.append_assoc]
  threw := h'.threw.trans h.threw

theorem reads_effect (s : RpcClient) (e : RpcEffect) : Reads s [] (s.effect e) :=
  .nothing rfl rfl rfl rfl

theorem reads_call (s : RpcClient) (c : RpcCall) : Reads s [] (call env s c) := by
  cases c with
  | request method =>
      unfold call
      dsimp only
      repeat' split
      all_goals exact .nothing rfl rfl rfl rfl
  | onNotification listener => unfold call; dsimp only; split <;> exact .nothing rfl rfl rfl rfl
  | offNotification listener => exact .nothing rfl rfl rfl rfl
  | setServerRequestHandler handler => exact .nothing rfl rfl rfl rfl

theorem reads_react (s : RpcClient) (listener : ℕ) (r : RpcReaction) :
    Reads s [] (react env s listener r) := by
  have hrequests :
      Reads s [] (r.requests.foldl (fun s method => call env s (.request method)) s) := by
    induction r.requests generalizing s with
    | nil => exact .refl s
    | cons method rest ih => exact (reads_call s _).trans (ih _)
  unfold react
  dsimp only
  split
  · exact hrequests.trans (reads_call _ _)
  · exact hrequests

theorem reads_onResponse (s : RpcClient) (msg : JsonObject) (id : Json) :
    Reads s [] (onResponse env s msg id).1 := by
  unfold onResponse
  split
  · exact .refl s
  · split
    · exact .refl s
    · dsimp only
      repeat' split
      all_goals exact .nothing rfl rfl rfl rfl

theorem reads_onServerRequest (s : RpcClient) (msg : JsonObject) (id method : Json) :
    Reads s [] (onServerRequest env s msg id method).1 := by
  unfold onServerRequest
  repeat' split
  all_goals exact .nothing rfl rfl rfl rfl

theorem reads_notifyAll (method : Json) (params : Option Json) (listeners : List ℕ)
    (s : RpcClient) : Reads s [] (notifyAll env method params listeners s).1 := by
  induction listeners generalizing s with
  | nil => exact .refl s
  | cons h rest ih =>
      have hreact : Reads s [] (react env (s.effect (.notified h method params)) h
          (env.react h method params)) := (reads_effect s _).trans (reads_react _ h _)
      unfold notifyAll
      dsimp only
      split
      · exact hreact
      · exact hreact.trans (ih _)

theorem notifyAll_of_printable {method : Json} (h : method.unprintable = false)
    (params : Option Json) (listeners : List ℕ) (s : RpcClient) :
    (notifyAll env method params listeners s).2 = false := by
  induction listeners generalizing s with
  | nil => rfl
  | cons listener rest ih =>
      unfold notifyAll
      simp only [h, Bool.and_false, Bool.false_eq_true, if_false]
      exact ih _

/-! ## One message -/

theorem onResponse_of_readable {msg : JsonObject} {id : Json} (hid : id.unprintable = false)
    (herror : ∀ error, msg.field "error" = some error → error.truthy = true →
      error.describable = true) : (onResponse env s msg id).2 = false := by
  unfold onResponse
  rw [if_neg (by simp [hid])]
  split
  · rfl
  · dsimp only
    split
    · rename_i error hfield
      split
      · rename_i htruthy
        obtain ⟨message, hmessage⟩ :=
          Option.isSome_iff_exists.mp (errorMessage_isSome env (herror error hfield htruthy))
        rw [hmessage]
      · rfl
    · rfl

/-- A readable value is dispatched if it is an object, and nothing throws. -/
theorem dispatch_of_readable {msg : Json} (h : msg.readable = true) :
    (dispatch env s msg).2 = false ∧
      Reads s msg.message?.toList (dispatch env s msg).1 := by
  cases msg with
  | null | bool b | num n | str text => cases h
  | arr items => exact ⟨rfl, .refl s⟩
  | obj msg =>
      have hlogged : Reads s [msg] { s with dispatched := s.dispatched ++ [msg] } :=
        ⟨rfl, rfl, rfl, rfl⟩
      unfold Json.readable at h
      unfold dispatch
      dsimp only
      split
      · rename_i id hid hmethod
        simp only [hmethod, hid, Option.all_some, Bool.and_eq_true, Bool.not_eq_true'] at h
        refine ⟨onResponse_of_readable h.1 fun error herror htruthy => ?_,
          hlogged.trans (reads_onResponse _ msg id)⟩
        simpa [herror, htruthy] using h.2
      · rename_i id method hid hmethod
        simp only [hmethod, Bool.not_eq_true'] at h
        refine ⟨?_, hlogged.trans (reads_onServerRequest _ msg id method)⟩
        unfold onServerRequest
        simp only [h, Bool.and_false, Bool.false_eq_true, if_false]
        split <;> rfl
      · rename_i method hid hmethod
        simp only [hmethod, Bool.not_eq_true'] at h
        exact ⟨notifyAll_of_printable h _ _ _, hlogged.trans (reads_notifyAll _ _ _ _)⟩
      · exact ⟨rfl, hlogged⟩

/-! ## The messages of a chunk -/

/-- What a line of text holds. -/
def parseText (env : RpcEnv) (line : List Char) : Option Json :=
  let text := trim (String.ofList line)
  if text = "" then none else env.parse text

theorem onLine_eq (env : RpcEnv) (s : RpcClient) (line : List Char) :
    onLine env s line = ((parseText env line).map (dispatch env s)).getD (s, false) := by
  unfold onLine parseText
  dsimp only
  split
  · rfl
  · cases env.parse (trim (String.ofList line)) <;> rfl

/-- Readable values are dispatched one after the other. -/
theorem runMessages_of_readable {messages : List Json}
    (h : ∀ msg ∈ messages, msg.readable = true) (s : RpcClient) :
    (LineReader.runMessages (dispatch env) s messages).2 = false ∧
      Reads s (messages.filterMap Json.message?)
        (LineReader.runMessages (dispatch env) s messages).1 := by
  induction messages generalizing s with
  | nil => exact ⟨rfl, .refl s⟩
  | cons msg rest ih =>
      obtain ⟨hquiet, hdone⟩ : (dispatch env s msg).2 = false ∧ _ :=
        dispatch_of_readable (h msg List.mem_cons_self)
      unfold LineReader.runMessages
      rcases hresult : dispatch env s msg with ⟨t, threw⟩
      rw [hresult] at hquiet hdone
      obtain rfl : threw = false := hquiet
      obtain ⟨hthrew, hreads⟩ := ih (fun msg' hmem => h msg' (List.mem_cons_of_mem _ hmem)) t
      refine ⟨hthrew, ?_⟩
      have hall := hdone.trans hreads
      cases hobject : msg.message? <;> simpa [List.filterMap_cons, hobject] using hall

end RpcClient

/-! ## The whole stream -/

open RpcClient

/-- What has been dispatched are the messages in the stream so far, each once and in order, and the
listener has not thrown. -/
structure RpcSpec (env : RpcEnv) (s : RpcClient) : Prop where
  messages : s.dispatched = rpcMessages env s.written
  threw : s.threw = false

/-- The chunk does not start in the middle of a character, and no line it ends holds a value at which
the reader throws. -/
def RpcEvent.Whole (env : RpcEnv) (s : RpcClient) : RpcEvent → Prop
  | .data chunk =>
      (Utf8State.run .start s.written).1.cuts chunk = false ∧
        ∀ line ∈ (LineReader.splitLines 10 (s.written ++ chunk)).1,
          (env.parseLine line).all Json.readable = true
  | .call _ | .timeout _ | .transportEnd _ => True

instance (env : RpcEnv) (s : RpcClient) (e : RpcEvent) : Decidable (e.Whole env s) :=
  match e with
  | .data _ => inferInstanceAs (Decidable (_ ∧ _))
  | .call _ | .timeout _ | .transportEnd _ => .isTrue trivial

namespace RpcClient

/-- Every event of the run is whole where it happens. -/
def WholeRun (env : RpcEnv) : RpcClient → List RpcEvent → Prop
  | _, [] => True
  | s, e :: events => e.Whole env s ∧ WholeRun env (step env s e) events

instance decidableWholeRun (env : RpcEnv) : ∀ s events, Decidable (WholeRun env s events)
  | _, [] => .isTrue trivial
  | s, e :: events =>
      have := decidableWholeRun env (step env s e) events
      inferInstanceAs (Decidable (_ ∧ _))

/-- The buffer holds the line that has not ended. -/
structure Invariant (env : RpcEnv) (s : RpcClient) : Prop extends RpcSpec env s where
  buffer : s.stdoutBuf = decodeUtf8 (LineReader.splitLines 10 s.written).2

variable {env : RpcEnv} {s t : RpcClient}

theorem Invariant.same (hs : Invariant env s) (h : Reads s [] t) : Invariant env t where
  messages := by rw [h.dispatched, h.written, hs.messages, List.append_nil]
  threw := h.threw.trans hs.threw
  buffer := by rw [h.stdoutBuf, h.written, hs.buffer]

/-- The messages are the objects on the decoded lines. -/
theorem rpcMessages_eq (env : RpcEnv) (bytes : List UInt8) :
    rpcMessages env bytes = ((LineReader.splitLines 10 bytes).1.filterMap fun line =>
      parseText env (decodeUtf8 line)).filterMap Json.message? := by
  rw [List.filterMap_filterMap]
  refine List.filterMap_congr fun line _ => ?_
  change _ = (env.parseLine line).bind Json.message?
  cases env.parseLine line with
  | none => rfl
  | some msg => cases msg <;> rfl

theorem Invariant.data (hs : Invariant env s) {chunk : List UInt8}
    (h : (RpcEvent.data chunk).Whole env s) : Invariant env (onData env s chunk) := by
  obtain ⟨hcuts, hlines⟩ := h
  rw [LineReader.splitLines_append_text] at hlines
  unfold onData drainStdout
  rcases hdrain : LineReader.drain '\n' (onLine env) (s.stdoutBuf ++ decodeUtf8 chunk).length
    (s.stdoutBuf ++ decodeUtf8 chunk)
    { s with stdoutBuf := s.stdoutBuf ++ decodeUtf8 chunk, written := s.written ++ chunk }
    with ⟨rest, t, threw⟩
  obtain ⟨hrun, hrest⟩ := Utf8State.drain_chunk (onLine_eq env) hs.buffer hcuts hdrain
  have hreadable : ∀ msg ∈ (LineReader.splitLines 10
      ((LineReader.splitLines 10 s.written).2 ++ chunk)).1.filterMap
        (fun line => parseText env (decodeUtf8 line)), msg.readable = true := by
    intro msg hmem
    obtain ⟨line, hline, hmsg⟩ := List.mem_filterMap.mp hmem
    have hall := hlines line (List.mem_append_right _ hline)
    rwa [show env.parseLine line = some msg from hmsg] at hall
  obtain ⟨hthrew, hreads⟩ := runMessages_of_readable hreadable
    { s with stdoutBuf := s.stdoutBuf ++ decodeUtf8 chunk, written := s.written ++ chunk }
  rw [hrun] at hthrew hreads
  obtain rfl : threw = false := hthrew
  refine ⟨⟨?_, rfl⟩, ?_⟩
  · dsimp only
    rw [hreads.dispatched, hreads.written, hs.messages, rpcMessages_eq, rpcMessages_eq,
      LineReader.splitLines_append_text s.written, List.filterMap_append, List.filterMap_append]
  · dsimp only
    rw [hrest rfl, hreads.written]

theorem Invariant.step (hs : Invariant env s) {e : RpcEvent} (h : e.Whole env s) :
    Invariant env (step env s e) := by
  unfold RpcClient.step
  rw [if_neg (by simp [hs.threw])]
  cases e with
  | data chunk => exact hs.data h
  | call c => exact hs.same (reads_call s c)
  | timeout id =>
      refine hs.same ?_
      dsimp only
      unfold expire
      split
      · exact reads_effect s _
      · exact .refl s
  | transportEnd reason =>
      refine hs.same ?_
      dsimp only
      unfold handleTransportEnd
      split
      · exact .refl s
      · exact .nothing rfl rfl rfl rfl

/-- An environment that knows the lines of the streams below. -/
def someLines : RpcEnv where
  parse text :=
    if text = "\x7b\"method\":\"é\"\x7d" then some (.obj [("method", .str "é")])
    else if text = "\x7b\"method\":\"��\"\x7d" then some (.obj [("method", .str "��")])
    else if text = "\x7b\"id\":0\x7d" then some (.obj [("id", .num 0)])
    else if text = "null" then some .null
    else none
  toNumber _ := none
  print _ := ""
  logger := true
  react _ _ _ := {}

/-- `{"method":"é"}` and a newline. -/
def accented : List UInt8 :=
  [0x7B, 0x22, 0x6D, 0x65, 0x74, 0x68, 0x6F, 0x64, 0x22, 0x3A, 0x22, 0xC3, 0xA9, 0x22, 0x7D, 0x0A]

end RpcClient

end VicoopBridge
