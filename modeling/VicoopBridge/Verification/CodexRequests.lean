import VicoopBridge.Verification.CodexRpc
import Mathlib.Data.List.Range

/-! # Requests to the Codex app server

Every request that the client has numbered waits, or has been settled once. A response settles the
request whose number it carries, as long as no other value that counts as the number of a waiting
request comes as an id, and nothing throws. -/

namespace VicoopBridge

open Library

namespace RpcEffect

/-- The request whose promise is settled. -/
def settles : RpcEffect → Option ℕ
  | .resolved id _ | .rejected id _ _ | .unsent id | .closed id _ => some id
  | .refused _ _ | .expired _ | .declined _ | .requested _ _ _ _ | .notified _ _ _ => none

/-- A promise settled with a response. -/
def isAnswer : RpcEffect → Bool
  | .resolved _ _ | .rejected _ _ _ => true
  | _ => false

end RpcEffect

namespace RpcEnv

/-- The request with the number has a promise. -/
def promises (env : RpcEnv) (id : ℕ) : Bool :=
  match env.send id with
  | .unserializable => false
  | .unwritten | .written => true

/-- What a response does to the request it settles. -/
def answer (env : RpcEnv) (id : ℕ) (response : JsonObject) : Option RpcEffect :=
  match response.field "error" with
  | some error =>
      if error.truthy then
        (RpcClient.errorMessage env error).map fun message =>
          .rejected id message (error.property "code")
      else some (.resolved id (response.field "result"))
  | none => some (.resolved id (response.field "result"))

/-- `typeof id === 'number' ? id : Number(id)` -/
def number (env : RpcEnv) : Json → Option ℚ
  | .num n => some n
  | id => env.toNumber id

end RpcEnv

/-- The numbers that have promises are those of the settled and the waiting requests, each once. A
promise settled with a response has been settled with one of its own id. Once the transport has
ended nothing waits. -/
structure RpcClient.Matched (env : RpcEnv) (s : RpcClient) : Prop where
  settled : (s.effects.filterMap RpcEffect.settles ++ s.pending.map Prod.fst).Perm
    ((List.range s.nextId).filter env.promises)
  answered : (s.effects.filter RpcEffect.isAnswer).map some =
    s.answers.map fun a => env.answer a.1 a.2
  named : ∀ a ∈ s.answers, a.2 ∈ s.dispatched ∧ a.2.field "id" = some (.num a.1) ∧
    a.2.field "method" = none
  idle : s.closed = true → s.pending = []

/-- What is requested once the transport has ended is refused. -/
structure RequestsSpec (env : RpcEnv) (s : RpcClient) : Prop extends RpcClient.Matched env s where
  refused : s.closed = true → ∀ method,
    s.call env (.request method) = s.effect (.refused method RpcClient.transportClosed)
  threw : s.threw = false

namespace RpcClient

variable (env : RpcEnv)

/-- The reader takes the message in the state without throwing, and nothing waits under an id that
is not its number. -/
def fits (s : RpcClient) : Json → Bool
  | .null | .bool _ | .num _ | .str _ => false
  | .arr _ => true
  | .obj msg =>
      match JsonObject.field msg "id", JsonObject.field msg "method" with
      | some id, none =>
          !id.unprintable && s.pending.all fun p =>
            env.number id ≠ some (p.1 : ℚ) ||
              (id = .num p.1 && (JsonObject.field msg "error").all fun error =>
                !error.truthy || error.describable)
      | some _, some method =>
          !(s.serverRequestHandler.isNone && env.logger && method.unprintable)
      | none, some method =>
          !(env.logger && method.unprintable) || s.notificationHandlers.all fun h =>
            !(env.react h method (JsonObject.field msg "params")).throws
      | none, none => true

/-- Each message fits where it comes. -/
def Fitting (s : RpcClient) : List Json → Prop
  | [] => True
  | msg :: rest => fits env s msg = true ∧ Fitting (dispatch env s msg).1 rest

instance decidableFitting : ∀ s messages, Decidable (Fitting env s messages)
  | _, [] => .isTrue trivial
  | s, msg :: rest =>
      have := decidableFitting (dispatch env s msg).1 rest
      inferInstanceAs (Decidable (_ ∧ _))

/-- The messages on the lines that the chunk ends fit where they come. -/
def CarefulStep (s : RpcClient) : RpcEvent → Prop
  | .data chunk =>
      let text := s.stdoutBuf ++ decodeUtf8 chunk
      Fitting env { s with stdoutBuf := text, written := s.written ++ chunk }
        ((LineReader.splitLines '\n' text).1.filterMap (parseText env))
  | .call _ | .timeout _ | .transportEnd _ => True

instance (s : RpcClient) (e : RpcEvent) : Decidable (CarefulStep env s e) :=
  match e with
  | .data _ => decidableFitting env _ _
  | .call _ | .timeout _ | .transportEnd _ => .isTrue trivial

def CarefulRun : RpcClient → List RpcEvent → Prop
  | _, [] => True
  | s, e :: events => CarefulStep env s e ∧ CarefulRun (step env s e) events

instance decidableCarefulRun : ∀ s events, Decidable (CarefulRun env s events)
  | _, [] => .isTrue trivial
  | s, e :: events =>
      have := decidableCarefulRun (step env s e) events
      inferInstanceAs (Decidable (_ ∧ _))

variable {env} {s t : RpcClient}

/-! ## The records -/

theorem Matched.nodup (hs : Matched env s) :
    (s.effects.filterMap RpcEffect.settles ++ s.pending.map Prod.fst).Nodup :=
  hs.settled.nodup_iff.mpr (List.nodup_range.filter _)

/-- The records of requests are as they were. -/
structure SameRequests (s t : RpcClient) : Prop where
  settled : t.effects.filterMap RpcEffect.settles = s.effects.filterMap RpcEffect.settles
  answers : t.effects.filter RpcEffect.isAnswer = s.effects.filter RpcEffect.isAnswer
  answered : t.answers = s.answers
  dispatched : s.dispatched ⊆ t.dispatched
  pending : t.pending = s.pending
  nextId : t.nextId = s.nextId
  closed : t.closed = s.closed

theorem Matched.same (hs : Matched env s) (h : SameRequests s t) : Matched env t where
  settled := by rw [h.settled, h.pending, h.nextId]; exact hs.settled
  answered := by rw [h.answers, h.answered]; exact hs.answered
  named := by
    rw [h.answered]
    intro a ha
    obtain ⟨hmem, hnamed⟩ := hs.named a ha
    exact ⟨h.dispatched hmem, hnamed⟩
  idle := by rw [h.closed, h.pending]; exact hs.idle

theorem same_effect (s : RpcClient) {e : RpcEffect} (hsettles : e.settles = none)
    (hanswer : e.isAnswer = false) : SameRequests s (s.effect e) where
  settled := by
    unfold effect
    rw [List.filterMap_append, List.filterMap_cons_none hsettles]
    exact List.append_nil _
  answers := by
    unfold effect
    rw [List.filter_append, List.filter_cons_of_neg (by simp [hanswer])]
    exact List.append_nil _
  answered := rfl
  dispatched := List.Subset.refl _
  pending := rfl
  nextId := rfl
  closed := rfl

theorem Matched.effect (hs : Matched env s) {e : RpcEffect} (hsettles : e.settles = none)
    (hanswer : e.isAnswer = false) : Matched env (s.effect e) :=
  hs.same (same_effect s hsettles hanswer)

/-! ## Requests -/

/-- The next number is a promise's, or nobody's. -/
theorem issued_succ (env : RpcEnv) (n : ℕ) : (List.range (n + 1)).filter env.promises =
    (List.range n).filter env.promises ++ if env.promises n then [n] else [] := by
  rw [List.range_succ, List.filter_append]
  cases h : env.promises n <;> simp [h]

theorem Matched.request (hs : Matched env s) (method : String) :
    Matched env (call env s (.request method)) := by
  unfold call
  dsimp only
  split
  · exact hs.effect rfl rfl
  · rename_i hopen
    split
    · exact hs.effect rfl rfl
    · cases hsend : env.send s.nextId with
      | unserializable =>
          have hno : env.promises s.nextId = false := by unfold RpcEnv.promises; rw [hsend]
          refine ⟨?_, hs.answered, hs.named, hs.idle⟩
          dsimp only
          rw [issued_succ, hno]
          simpa using hs.settled
      | unwritten =>
          have hyes : env.promises s.nextId = true := by unfold RpcEnv.promises; rw [hsend]
          refine ⟨?_, ?_, hs.named, hs.idle⟩
          · simp only [RpcClient.effect]
            rw [issued_succ, hyes, List.filterMap_append]
            refine List.Perm.trans ?_ (hs.settled.append_right [s.nextId])
            simp only [RpcEffect.settles, List.append_assoc]
            exact List.perm_append_comm.append_left _
          · simp only [RpcClient.effect]
            rw [List.filter_append]
            simpa [RpcEffect.isAnswer] using hs.answered
      | written =>
          have hyes : env.promises s.nextId = true := by unfold RpcEnv.promises; rw [hsend]
          refine ⟨?_, hs.answered, hs.named, fun hclosed => absurd hclosed hopen⟩
          dsimp only
          rw [issued_succ, hyes, List.map_append, ← List.append_assoc]
          exact hs.settled.append_right _

theorem Matched.call (hs : Matched env s) (c : RpcCall) : Matched env (call env s c) := by
  cases c with
  | request method => exact hs.request method
  | onNotification listener =>
      unfold RpcClient.call
      dsimp only
      split
      · exact hs
      · exact ⟨hs.settled, hs.answered, hs.named, hs.idle⟩
  | offNotification listener => exact ⟨hs.settled, hs.answered, hs.named, hs.idle⟩
  | setServerRequestHandler handler => exact ⟨hs.settled, hs.answered, hs.named, hs.idle⟩

theorem Matched.react (hs : Matched env s) (listener : ℕ) (r : RpcReaction) :
    Matched env (react env s listener r) := by
  have hrequests : Matched env
      (r.requests.foldl (fun s method => RpcClient.call env s (.request method)) s) := by
    induction r.requests generalizing s with
    | nil => exact hs
    | cons method rest ih => exact ih (hs.request method)
  unfold RpcClient.react
  dsimp only
  split
  · exact hrequests.call _
  · exact hrequests

theorem Matched.notifyAll (hs : Matched env s) (method : Json) (params : Option Json)
    (listeners : List ℕ) : Matched env (notifyAll env method params listeners s).1 := by
  induction listeners generalizing s with
  | nil => exact hs
  | cons h rest ih =>
      have hreact : Matched env (RpcClient.react env (s.effect (.notified h method params)) h
          (env.react h method params)) := (hs.effect rfl rfl).react h _
      unfold RpcClient.notifyAll
      dsimp only
      split
      · exact hreact
      · exact ih hreact

/-- Nothing throws where each listener returns, or its failure can be logged. -/
theorem notifyAll_quiet {method : Json} {params : Option Json} {listeners : List ℕ}
    (h : (env.logger && method.unprintable) = false ∨
      ∀ listener ∈ listeners, (env.react listener method params).throws = false) (s : RpcClient) :
    (notifyAll env method params listeners s).2 = false := by
  induction listeners generalizing s with
  | nil => rfl
  | cons listener rest ih =>
      have hquiet : ((env.react listener method params).throws && env.logger &&
          method.unprintable) = false := by
        rcases h with h | h
        · rw [Bool.and_assoc, h, Bool.and_false]
        · rw [h listener List.mem_cons_self, Bool.false_and, Bool.false_and]
      unfold notifyAll
      dsimp only
      rw [hquiet, if_neg Bool.false_ne_true]
      exact ih (h.imp_right fun hall l hl => hall l (List.mem_cons_of_mem _ hl)) _

/-! ## Responses -/

theorem waiting_eq (env : RpcEnv) (s : RpcClient) (id : Json) :
    waiting env s id = (env.number id).bind fun n => s.pending.find? fun p => (p.1 : ℚ) = n := by
  cases id <;> rfl

theorem answer_isSome (env : RpcEnv) (n : ℕ) {msg : JsonObject}
    (herror : ∀ error, msg.field "error" = some error → error.truthy = true →
      error.describable = true) : (env.answer n msg).isSome = true := by
  unfold RpcEnv.answer
  split
  · rename_i error hfield
    split
    · rename_i htruthy
      rw [Option.isSome_map]
      exact errorMessage_isSome env (herror error hfield htruthy)
    · rfl
  · rfl

theorem answer_spec {n : ℕ} {msg : JsonObject} {e : RpcEffect} (h : env.answer n msg = some e) :
    e.settles = some n ∧ e.isAnswer = true := by
  unfold RpcEnv.answer at h
  split at h
  · split at h
    · obtain ⟨message, -, rfl⟩ := Option.map_eq_some_iff.mp h
      exact ⟨rfl, rfl⟩
    · obtain rfl := Option.some.inj h
      exact ⟨rfl, rfl⟩
  · obtain rfl := Option.some.inj h
    exact ⟨rfl, rfl⟩

/-- The request is settled with the response. -/
def settle (s : RpcClient) (n : ℕ) (msg : JsonObject) (e : RpcEffect) : RpcClient :=
  { s with
    pending := s.pending.filter fun q => q.1 ≠ n
    answers := s.answers ++ [(n, msg)]
    effects := s.effects ++ [e] }

/-- The client takes no note of the response, or settles the request that it names. -/
theorem onResponse_cases {msg : JsonObject} {id : Json} (hprint : id.unprintable = false)
    (hfits : ∀ p ∈ s.pending, env.number id = some (p.1 : ℚ) → id = .num p.1 ∧
      ∀ error, msg.field "error" = some error → error.truthy = true → error.describable = true) :
    onResponse env s msg id = (s, false) ∨
      ∃ p ∈ s.pending, ∃ e, id = .num p.1 ∧ env.answer p.1 msg = some e ∧
        onResponse env s msg id = (s.settle p.1 msg e, false) := by
  unfold onResponse
  rw [if_neg (by simp [hprint])]
  split
  · exact .inl rfl
  · rename_i p hwaiting
    rw [waiting_eq] at hwaiting
    obtain ⟨n, hn, hfind⟩ := Option.bind_eq_some_iff.mp hwaiting
    have hmem : p ∈ s.pending := List.mem_of_find?_eq_some hfind
    have hkey : (p.1 : ℚ) = n := by simpa using List.find?_some hfind
    obtain ⟨hid, herror⟩ := hfits p hmem (by rw [hn, hkey])
    obtain ⟨e, he⟩ := Option.isSome_iff_exists.mp (answer_isSome env p.1 herror)
    refine .inr ⟨p, hmem, e, hid, he, ?_⟩
    unfold RpcEnv.answer at he
    dsimp only
    cases hfield : msg.field "error" with
    | none =>
        rw [hfield] at he
        obtain rfl := Option.some.inj he
        rfl
    | some error =>
        rw [hfield] at he
        dsimp only at he ⊢
        split at he
        · rename_i htruthy
          obtain ⟨message, hmessage, rfl⟩ := Option.map_eq_some_iff.mp he
          rw [if_pos htruthy, hmessage]
          rfl
        · rename_i htruthy
          obtain rfl := Option.some.inj he
          rw [if_neg htruthy]
          rfl

/-- A waiting request moves over to the settled ones. -/
theorem perm_settle (hs : Matched env s) {p : ℕ × String} (hmem : p ∈ s.pending) :
    (p.1 :: (s.pending.filter fun q => q.1 ≠ p.1).map Prod.fst).Perm (s.pending.map Prod.fst) := by
  have hids : (s.pending.filter fun q => q.1 ≠ p.1).map Prod.fst =
      (s.pending.map Prod.fst).filter (· ≠ p.1) := by
    rw [List.filter_map]
    rfl
  have hnodup : (s.pending.map Prod.fst).Nodup := (List.nodup_append.mp hs.nodup).2.1
  have herase : (s.pending.map Prod.fst).filter (· ≠ p.1) = (s.pending.map Prod.fst).erase p.1 := by
    rw [hnodup.erase_eq_filter]
    exact List.filter_congr fun n _ => by by_cases h : n = p.1 <;> simp [h]
  rw [hids, herase]
  exact (List.perm_cons_erase (List.mem_map_of_mem hmem)).symm

theorem Matched.settle (hs : Matched env s) {p : ℕ × String} {msg : JsonObject} {e : RpcEffect}
    (hmem : p ∈ s.pending) (hanswer : env.answer p.1 msg = some e) (hdone : msg ∈ s.dispatched)
    (hid : msg.field "id" = some (.num p.1)) (hmethod : msg.field "method" = none) :
    Matched env (s.settle p.1 msg e) := by
  obtain ⟨hsettles, his⟩ := answer_spec hanswer
  refine ⟨?_, ?_, ?_, ?_⟩
  · unfold RpcClient.settle
    dsimp only
    rw [List.filterMap_append, List.filterMap_cons_some hsettles, List.filterMap_nil,
      List.append_assoc]
    exact ((perm_settle hs hmem).append_left _).trans hs.settled
  · unfold RpcClient.settle
    dsimp only
    rw [List.filter_append, List.filter_cons_of_pos his, List.filter_nil, List.map_append,
      List.map_append, hs.answered, List.map_singleton, List.map_singleton, hanswer]
  · intro a ha
    rcases List.mem_append.mp ha with ha | ha
    · exact hs.named a ha
    · obtain rfl := List.mem_singleton.mp ha
      exact ⟨hdone, hid, hmethod⟩
  · intro hclosed
    rw [hs.idle hclosed] at hmem
    exact absurd hmem List.not_mem_nil

theorem Matched.dispatch (hs : Matched env s) {msg : Json} (h : fits env s msg = true) :
    (dispatch env s msg).2 = false ∧ Matched env (dispatch env s msg).1 := by
  cases msg with
  | null | bool b | num n | str text => cases h
  | arr items => exact ⟨rfl, hs⟩
  | obj msg =>
      have hlogged : Matched env { s with dispatched := s.dispatched ++ [msg] } :=
        hs.same ⟨rfl, rfl, rfl, List.subset_append_left _ _, rfl, rfl, rfl⟩
      have hdone : msg ∈ s.dispatched ++ [msg] := by simp
      unfold fits at h
      dsimp only at h
      unfold RpcClient.dispatch
      dsimp only
      split
      · rename_i id hid hmethod
        rw [hid, hmethod] at h
        obtain ⟨hprint, hfits⟩ := Bool.and_eq_true_iff.mp h
        have hall : ∀ p ∈ s.pending, env.number id = some (p.1 : ℚ) → id = .num p.1 ∧
            ∀ error, JsonObject.field msg "error" = some error → error.truthy = true →
              error.describable = true := by
          intro p hp hnumber
          have hone := List.all_eq_true.mp hfits p hp
          simp only [hnumber, ne_eq, not_true_eq_false, decide_false, Bool.false_or,
            Bool.and_eq_true, decide_eq_true_eq] at hone
          refine ⟨hone.1, fun error herror htruthy => ?_⟩
          simpa [herror, htruthy] using hone.2
        rcases onResponse_cases (s := { s with dispatched := s.dispatched ++ [msg] })
          (by simpa using hprint) hall with heq | ⟨p, hp, e, hnum, he, heq⟩
        · rw [heq]
          exact ⟨rfl, hlogged⟩
        · rw [heq]
          exact ⟨rfl, hlogged.settle hp he hdone (hid.trans (by rw [hnum])) hmethod⟩
      · rename_i id method hid hmethod
        rw [hid, hmethod] at h
        unfold onServerRequest
        dsimp only
        split
        · rename_i hnone
          rw [hnone] at h
          simp only [Option.isNone_none, Bool.true_and, Bool.not_eq_eq_eq_not, Bool.not_true] at h
          rw [h, if_neg Bool.false_ne_true]
          exact ⟨rfl, hlogged.effect rfl rfl⟩
        · exact ⟨rfl, hlogged.effect rfl rfl⟩
      · rename_i method hid hmethod
        rw [hid, hmethod] at h
        refine ⟨notifyAll_quiet ?_ _, hlogged.notifyAll _ _ _⟩
        rcases Bool.or_eq_true_iff.mp h with h | h
        · exact .inl (by simpa only [Bool.not_eq_eq_eq_not, Bool.not_true] using h)
        · exact .inr fun l hl => by simpa using List.all_eq_true.mp h l hl
      · exact ⟨rfl, hlogged⟩

/-! ## The end of the transport -/

theorem Matched.handleTransportEnd (hs : Matched env s) (reason : RpcCloseReason) :
    Matched env (handleTransportEnd s reason) := by
  unfold RpcClient.handleTransportEnd
  split
  · exact hs
  · refine ⟨?_, ?_, hs.named, fun _ => rfl⟩
    · dsimp only
      rw [List.filterMap_append, List.filterMap_map, List.map_nil, List.append_nil]
      have hids : s.pending.filterMap (RpcEffect.settles ∘ fun p =>
          .closed p.1 (transportClosed ++ reason.detail)) = s.pending.map Prod.fst := by
        rw [← List.filterMap_eq_map]
        rfl
      rw [hids]
      exact hs.settled
    · dsimp only
      rw [List.filter_append, List.filter_map]
      have hnone : s.pending.filter (RpcEffect.isAnswer ∘ fun p =>
          .closed p.1 (transportClosed ++ reason.detail)) = [] :=
        List.filter_eq_nil_iff.mpr fun _ _ => nofun
      rw [hnone, List.map_nil, List.append_nil]
      exact hs.answered

/-! ## What has closed stays closed -/

theorem closed_call (s : RpcClient) (c : RpcCall) : (call env s c).closed = s.closed := by
  unfold call
  dsimp only
  repeat' split
  all_goals rfl

theorem closed_react (s : RpcClient) (listener : ℕ) (r : RpcReaction) :
    (react env s listener r).closed = s.closed := by
  have hrequests : (r.requests.foldl (fun s method => call env s (.request method)) s).closed =
      s.closed := by
    induction r.requests generalizing s with
    | nil => rfl
    | cons method rest ih => exact (ih _).trans (closed_call s _)
  unfold react
  dsimp only
  split
  · exact (closed_call _ _).trans hrequests
  · exact hrequests

theorem closed_notifyAll (method : Json) (params : Option Json) (listeners : List ℕ)
    (s : RpcClient) : (notifyAll env method params listeners s).1.closed = s.closed := by
  induction listeners generalizing s with
  | nil => rfl
  | cons h rest ih =>
      have hreact : (react env (s.effect (.notified h method params)) h
          (env.react h method params)).closed = s.closed := closed_react _ h _
      unfold notifyAll
      dsimp only
      split
      · exact hreact
      · exact (ih _).trans hreact

theorem closed_dispatch (s : RpcClient) (msg : Json) :
    (dispatch env s msg).1.closed = s.closed := by
  unfold dispatch
  dsimp only
  split
  · rfl
  · rfl
  · rfl
  · rfl
  · rfl
  · split
    · unfold onResponse
      dsimp only
      repeat' split
      all_goals rfl
    · unfold onServerRequest
      repeat' split
      all_goals rfl
    · exact closed_notifyAll _ _ _ _
    · rfl

/-- What a chunk does is what the messages of the lines it completes do, one after the other. -/
theorem onData_eq (env : RpcEnv) (s : RpcClient) (chunk : List UInt8) :
    ∃ rest, onData env s chunk =
      let s : RpcClient :=
        { s with stdoutBuf := s.stdoutBuf ++ decodeUtf8 chunk, written := s.written ++ chunk }
      let run := LineReader.runMessages (dispatch env) s
        ((LineReader.splitLines '\n' s.stdoutBuf).1.filterMap (parseText env))
      { run.1 with stdoutBuf := rest, threw := run.2 } := by
  unfold onData drainStdout
  dsimp only
  rcases hdrain : LineReader.drain '\n' (onLine env) (s.stdoutBuf ++ decodeUtf8 chunk).length
    (s.stdoutBuf ++ decodeUtf8 chunk)
    { s with stdoutBuf := s.stdoutBuf ++ decodeUtf8 chunk, written := s.written ++ chunk }
    with ⟨rest, t, threw⟩
  obtain ⟨hrun, -⟩ := LineReader.runLines_of_drain le_rfl hdrain
  rw [LineReader.runLines_eq_runMessages (onLine_eq env)] at hrun
  exact ⟨rest, by rw [hrun]⟩

theorem closed_onData (s : RpcClient) (chunk : List UInt8) :
    (onData env s chunk).closed = s.closed := by
  have hkeeps : ∀ (u : RpcClient) (msg : Json), u.closed = s.closed →
      (dispatch env u msg).1.closed = s.closed := fun u msg hu => (closed_dispatch u msg).trans hu
  obtain ⟨rest, heq⟩ := onData_eq env s chunk
  rw [heq]
  dsimp only
  refine LineReader.runMessages_preserves (P := (RpcClient.closed · = s.closed)) hkeeps ?_ _
  rfl

/-! ## Whole runs -/

theorem Matched.runMessages {messages : List Json} (hs : Matched env s)
    (h : Fitting env s messages) :
    (LineReader.runMessages (RpcClient.dispatch env) s messages).2 = false ∧
      Matched env (LineReader.runMessages (RpcClient.dispatch env) s messages).1 := by
  induction messages generalizing s with
  | nil => exact ⟨rfl, hs⟩
  | cons msg rest ih =>
      obtain ⟨hfits, hrest⟩ := h
      obtain ⟨hquiet, hdone⟩ := hs.dispatch hfits
      unfold LineReader.runMessages
      rcases hresult : RpcClient.dispatch env s msg with ⟨t, threw⟩
      rw [hresult] at hquiet hdone hrest
      obtain rfl : threw = false := hquiet
      exact ih hdone hrest

theorem Matched.data (hs : Matched env s) {chunk : List UInt8}
    (h : CarefulStep env s (.data chunk)) :
    (onData env s chunk).threw = false ∧ Matched env (onData env s chunk) := by
  obtain ⟨rest, heq⟩ := onData_eq env s chunk
  have hfed : Matched env
      { s with stdoutBuf := s.stdoutBuf ++ decodeUtf8 chunk, written := s.written ++ chunk } :=
    hs.same ⟨rfl, rfl, rfl, List.Subset.refl _, rfl, rfl, rfl⟩
  obtain ⟨hquiet, hdone⟩ := hfed.runMessages h
  rw [heq]
  exact ⟨hquiet, hdone.same ⟨rfl, rfl, rfl, List.Subset.refl _, rfl, rfl, rfl⟩⟩

theorem Matched.expire (hs : Matched env s) (id : ℕ) : Matched env (expire s id) := by
  unfold RpcClient.expire
  split
  · exact hs.effect rfl rfl
  · exact hs

/-- What the step keeps, and when the transport has ended. -/
theorem Matched.step (hs : Matched env s) (hthrew : s.threw = false) {e : RpcEvent}
    (h : CarefulStep env s e) :
    Matched env (step env s e) ∧ (step env s e).threw = false ∧
      ((s.closed = true ∨ ∃ reason, e = .transportEnd reason) → (step env s e).closed = true) := by
  unfold RpcClient.step
  rw [if_neg (by simp [hthrew])]
  cases e with
  | data chunk =>
      refine ⟨(hs.data h).2, (hs.data h).1, ?_⟩
      rintro (hclosed | ⟨_, hnot⟩)
      · exact (closed_onData s chunk).trans hclosed
      · cases hnot
  | call c =>
      refine ⟨hs.call c, (reads_call s c).threw.trans hthrew, ?_⟩
      rintro (hclosed | ⟨_, hnot⟩)
      · exact (closed_call s c).trans hclosed
      · cases hnot
  | timeout id =>
      refine ⟨hs.expire id, ?_, ?_⟩
      · dsimp only
        unfold RpcClient.expire
        split <;> exact hthrew
      · rintro (hclosed | ⟨_, hnot⟩)
        · dsimp only
          unfold RpcClient.expire
          split <;> exact hclosed
        · cases hnot
  | transportEnd reason =>
      refine ⟨hs.handleTransportEnd reason, ?_, fun _ => ?_⟩
      · dsimp only
        unfold RpcClient.handleTransportEnd
        split <;> exact hthrew
      · dsimp only
        unfold RpcClient.handleTransportEnd
        split
        · assumption
        · rfl

theorem Matched.run {events : List RpcEvent} (hs : Matched env s) (hthrew : s.threw = false)
    (h : CarefulRun env s events) :
    Matched env (events.foldl (RpcClient.step env) s) ∧
      (events.foldl (RpcClient.step env) s).threw = false ∧
      ((s.closed = true ∨ ∃ reason, .transportEnd reason ∈ events) →
        (events.foldl (RpcClient.step env) s).closed = true) := by
  induction events generalizing s with
  | nil =>
      refine ⟨hs, hthrew, ?_⟩
      rintro (hclosed | ⟨_, hnot⟩)
      · exact hclosed
      · exact absurd hnot List.not_mem_nil
  | cons e events ih =>
      obtain ⟨hnext, hquiet, hclosing⟩ := hs.step hthrew h.1
      obtain ⟨hdone, hquiet', hclosed'⟩ := ih hnext hquiet h.2
      refine ⟨hdone, hquiet', ?_⟩
      rintro (hclosed | ⟨reason, hmem⟩)
      · exact hclosed' (.inl (hclosing (.inl hclosed)))
      · rcases List.mem_cons.mp hmem with heq | hmem
        · exact hclosed' (.inl (hclosing (.inr ⟨reason, heq.symm⟩)))
        · exact hclosed' (.inr ⟨reason, hmem⟩)

/-- As long as every message fits where it comes, each request is settled once, by the end of the
transport at the latest, and with a response only if that names it. -/
theorem requestsSpec_of_careful (env : RpcEnv) (events : List RpcEvent)
    (h : CarefulRun env {} events) :
    RequestsSpec env (RpcClient.run env events) ∧
      ((∃ reason, .transportEnd reason ∈ events) → (RpcClient.run env events).closed = true) := by
  have hstart : Matched env {} := ⟨.refl _, rfl, nofun, fun _ => rfl⟩
  obtain ⟨hmatched, hthrew, hclosed⟩ := hstart.run rfl h
  refine ⟨⟨hmatched, fun hclosed method => ?_, hthrew⟩, fun hend => hclosed (.inr hend)⟩
  unfold RpcClient.call
  exact if_pos hclosed

/-- An environment that knows the lines of the runs below. -/
def answeringLines : RpcEnv where
  parse text :=
    if text = "\x7b\"id\":1,\"result\":true\x7d" then
      some (.obj [("id", .num 1), ("result", .bool true)])
    else if text = "\x7b\"id\":null\x7d" then some (.obj [("id", .null)])
    else if text = "\x7b\"id\":0,\"error\":\x7b\"message\":\x7b\"toString\":1\x7d\x7d\x7d" then
      some (.obj [("id", .num 0), ("error", .obj [("message", .obj [("toString", .num 1)])])])
    else none
  toNumber
    | .null | .bool false | .str "" => some 0
    | .bool true => some 1
    | _ => none
  print _ := ""
  logger := true
  react _ _ _ := {}

/-- A line of ASCII characters. -/
def lineOf (text : String) : List UInt8 := (text.toList.map fun c => UInt8.ofNat c.toNat) ++ [10]

/-- A response out of turn, a caller that stops waiting, the response once more, and the end. -/
def answeredRun : List RpcEvent :=
  [.call (.request "initialize"), .call (.request "thread/start"),
    .data (lineOf "\x7b\"id\":1,\"result\":true\x7d"), .timeout 0,
    .data (lineOf "\x7b\"id\":1,\"result\":true\x7d"), .transportEnd { code := some 1 }]

theorem requestsSpec_of_careful_lines :
    RequestsSpec answeringLines (run answeringLines answeredRun) ∧
      ((∃ reason, .transportEnd reason ∈ answeredRun) →
        (run answeringLines answeredRun).closed = true) :=
  requestsSpec_of_careful answeringLines answeredRun (by decide +kernel)

/-- A response under `null` settles request 0, and one whose message is no text takes it away from
the waiting ones unsettled. -/
theorem requestsSpec_fails :
    ¬ RequestsSpec answeringLines (run answeringLines
        [.call (.request "initialize"), .data (lineOf "\x7b\"id\":null\x7d")]) ∧
      ¬ RequestsSpec answeringLines (run answeringLines [.call (.request "initialize"),
        .data (lineOf "\x7b\"id\":0,\"error\":\x7b\"message\":\x7b\"toString\":1\x7d\x7d\x7d")]) :=
  ⟨fun h => absurd h.named (by decide +kernel), fun h => absurd h.settled (by decide +kernel)⟩

end RpcClient

end VicoopBridge
