import Mathlib.Data.List.Sort
import VicoopBridge.Model.VicoopCodexStream

/-! # What comes of a stream

The frames of a text are those of its lines, wherever it is cut. The response is what the chunks say
that come before the first frame that ends the stream. -/

namespace VicoopBridge.VicoopCodexStream

open Library LineReader

variable {parse : JsText → Option Data} {s t : Fold} {text : JsText}

/-! ## Frames -/

/-- What the payload of a line is. -/
inductive Frame where
  | done
  | error (message : JsText)
  | null
  | chunk (value : Data)

def frameOf (parse : JsText → Option Data) (data : JsText) : Option Frame :=
  if data = JsText.ofAscii "[DONE]" then some .done
  else
    match parse data with
    | none => none
    | some .null => some .null
    | some value =>
        match errorFrame value with
        | some message => some (.error message)
        | none => some (.chunk value)

def applyFrame (s : Fold) : Frame → Fold × Bool
  | .done => stop s .done
  | .error message => stop s (.error message)
  | .null => stop s .threw
  | .chunk value => applyChunk s value

def lineFrame (parse : JsText → Option Data) (line : JsText) : Option Frame :=
  (payload line).bind (frameOf parse)

/-- The complete lines of a text, and the last one. -/
def lines (text : JsText) : List JsText :=
  (splitLines JsonText.lineFeed text).1 ++ [(splitLines JsonText.lineFeed text).2]

def frames (parse : JsText → Option Data) (text : JsText) : List Frame :=
  (lines text).filterMap (lineFrame parse)

theorem consume_eq (s : Fold) (data : JsText) :
    consume parse s data = ((frameOf parse data).map (applyFrame s)).getD (s, false) := by
  unfold consume frameOf
  split
  · rfl
  · cases parse data with
    | none => rfl
    | some value =>
        cases value with
        | null => rfl
        | _ =>
            dsimp only
            generalize errorFrame _ = frame
            cases frame <;> rfl

theorem onLine_eq (s : Fold) (line : JsText) :
    onLine parse s line = ((lineFrame parse line).map (applyFrame s)).getD (s, false) := by
  unfold onLine lineFrame
  cases payload line with
  | none => rfl
  | some data => exact consume_eq s data

/-- The pieces are read as one text. -/
theorem readPieces_eq {buf : JsText} (h : JsonText.lineFeed ∉ buf) (pieces : List JsText) :
    readPieces parse buf s pieces =
      (runLines (onLine parse) s (lines (buf ++ pieces.flatten))).1 := by
  induction pieces generalizing buf s with
  | nil =>
      rw [List.flatten_nil, List.append_nil, lines, splitLines_of_not_mem h, List.nil_append]
      unfold readPieces runLines
      rcases onLine parse s buf with ⟨t, _ | _⟩
      · rfl
      · rfl
  | cons piece rest ih =>
      rw [List.flatten_cons, ← List.append_assoc]
      have hsplit : lines (buf ++ piece ++ rest.flatten) =
          (splitLines JsonText.lineFeed (buf ++ piece)).1 ++
            lines ((splitLines JsonText.lineFeed (buf ++ piece)).2 ++ rest.flatten) := by
        rw [lines, splitLines_append_text, lines, List.append_assoc]
      rw [hsplit, runLines_append]
      unfold readPieces
      dsimp only
      rcases hdrain : drain JsonText.lineFeed (onLine parse) (buf ++ piece).length (buf ++ piece) s
        with ⟨last, t, threw⟩
      obtain ⟨hrun, hlast⟩ := runLines_of_drain le_rfl hdrain
      rw [hrun]
      cases threw with
      | true => rfl
      | false =>
          obtain rfl := hlast rfl
          exact ih (not_mem_last _)

theorem stream_eq (pieces : List JsText) :
    streamChatCompletions parse pieces =
      (runMessages applyFrame {} (frames parse pieces.flatten)).1.streamed := by
  rw [streamChatCompletions, readPieces_eq List.not_mem_nil, List.nil_append,
    runLines_eq_runMessages onLine_eq]
  rfl

/-! ## Tool calls -/

/-- What the fragments of an index add up to. -/
def assembled (fragments : List Data) (i : JsonNumber) : ToolCallBuffer :=
  (fragments.filter fun tc => indexOf tc = i).foldl ToolCallBuffer.add {}

def isNull : Data → Bool
  | .null => true
  | _ => false

theorem arguments_foldl (fragments : List Data) (cur : ToolCallBuffer) :
    (fragments.foldl ToolCallBuffer.add cur).arguments =
      cur.arguments ++ fragments.flatMap argumentsOf := by
  induction fragments generalizing cur with
  | nil => rw [List.foldl_nil, List.flatMap_nil, List.append_nil]
  | cons tc fragments ih =>
      rw [List.foldl_cons, ih, List.flatMap_cons, ← List.append_assoc]
      rfl

/-- The buffers of a map are those of the fragments. -/
def Buffers (toolCalls : InsertionMap JsonNumber ToolCallBuffer) (fragments : List Data) : Prop :=
  ∀ i, toolCalls.get? i =
    if ∃ tc ∈ fragments, indexOf tc = i then some (assembled fragments i) else none

theorem assembled_append_self (fragments : List Data) (tc : Data) :
    assembled (fragments ++ [tc]) (indexOf tc) = (assembled fragments (indexOf tc)).add tc := by
  have hown : [tc].filter (fun tc' => indexOf tc' = indexOf tc) = [tc] := by simp
  rw [assembled, List.filter_append, hown, List.foldl_append]
  rfl

theorem assembled_append_of_ne {i : JsonNumber} (fragments : List Data) {tc : Data}
    (h : indexOf tc ≠ i) : assembled (fragments ++ [tc]) i = assembled fragments i := by
  have hother : [tc].filter (fun tc' => indexOf tc' = i) = [] := by simp [h]
  rw [assembled, List.filter_append, hother, List.append_nil]
  rfl

theorem assembled_of_none {i : JsonNumber} {fragments : List Data}
    (h : ¬ ∃ tc ∈ fragments, indexOf tc = i) : assembled fragments i = {} := by
  have hnone : (fragments.filter fun tc => indexOf tc = i) = [] := by
    rw [List.filter_eq_nil_iff]
    intro tc htc hi
    exact h ⟨tc, htc, of_decide_eq_true hi⟩
  rw [assembled, hnone]
  rfl

theorem Buffers.set {toolCalls : InsertionMap JsonNumber ToolCallBuffer} {fragments : List Data}
    (h : Buffers toolCalls fragments) (tc : Data) :
    Buffers (toolCalls.set (indexOf tc) (((toolCalls.get? (indexOf tc)).getD {}).add tc))
      (fragments ++ [tc]) := by
  intro i
  rw [InsertionMap.get?_set]
  by_cases hi : indexOf tc = i
  · subst hi
    have hcur : (toolCalls.get? (indexOf tc)).getD {} = assembled fragments (indexOf tc) := by
      rw [h]
      split
      · rfl
      · next hnone => rw [assembled_of_none hnone]; rfl
    rw [if_pos rfl, hcur, if_pos ⟨tc, by simp, rfl⟩, assembled_append_self]
  · rw [if_neg hi, h, assembled_append_of_ne fragments hi]
    refine if_congr ?_ rfl rfl
    simp [hi]

theorem Buffers.add {toolCalls : InsertionMap JsonNumber ToolCallBuffer} {fragments : List Data}
    (h : Buffers toolCalls fragments) (tcs : List Data) :
    (tcs.any isNull = true ∧ addToolCalls toolCalls tcs = none) ∨
      (tcs.any isNull = false ∧ ∃ toolCalls', addToolCalls toolCalls tcs = some toolCalls' ∧
        Buffers toolCalls' (fragments ++ tcs)) := by
  induction tcs generalizing toolCalls fragments with
  | nil => exact .inr ⟨rfl, toolCalls, rfl, by rwa [List.append_nil]⟩
  | cons tc tcs ih =>
      cases hnull : isNull tc with
      | true =>
          cases tc with
          | null => exact .inl ⟨rfl, rfl⟩
          | _ => cases hnull
      | false =>
          have hadd : addToolCalls toolCalls (tc :: tcs) = addToolCalls (toolCalls.set (indexOf tc)
              (((toolCalls.get? (indexOf tc)).getD {}).add tc)) tcs := by
            cases tc with
            | null => cases hnull
            | _ => rfl
          rw [List.any_cons, hnull, Bool.false_or, hadd, List.append_cons]
          exact ih (h.set tc)

/-! ## Chunks -/

/-- Applying the chunk throws. -/
def breaks (chunk : Data) : Bool := (toolCallsOf chunk).any isNull

/-- What has been folded of these chunks. -/
structure Folded (s : Fold) (chunks : List Data) : Prop where
  deltas : s.deltas = chunks.flatMap deltasOf
  content : s.acc.content = chunks.flatMap fun chunk => (contentOf chunk).getD []
  toolCalls : s.stopped ≠ some .threw → Buffers s.acc.toolCalls (chunks.flatMap toolCallsOf)

theorem folded_init : Folded {} [] := ⟨rfl, rfl, fun _ _ => rfl⟩

theorem Folded.stop {chunks : List Data} (h : Folded s chunks) (hs : s.stopped = none)
    (reason : Stop) : Folded (stop s reason).1 chunks := by
  refine ⟨h.deltas, h.content, fun _ => h.toolCalls ?_⟩
  rw [hs]
  intro heq
  cases heq

theorem Folded.applyChunk {chunks : List Data} (h : Folded s chunks) (hs : s.stopped = none)
    (chunk : Data) :
    Folded (applyChunk s chunk).1 (chunks ++ [chunk]) ∧ (applyChunk s chunk).2 = breaks chunk ∧
      (applyChunk s chunk).1.stopped = if breaks chunk then some .threw else none := by
  have hbuffers := h.toolCalls (by rw [hs]; intro heq; cases heq)
  have hdeltas : s.deltas ++ deltasOf chunk = (chunks ++ [chunk]).flatMap deltasOf := by
    rw [List.flatMap_append, h.deltas, List.flatMap_singleton]
  have hcontent : s.acc.content ++ (contentOf chunk).getD [] =
      (chunks ++ [chunk]).flatMap fun chunk => (contentOf chunk).getD [] := by
    rw [List.flatMap_append, h.content, List.flatMap_singleton]
  have hhead : (s.acc.head chunk).toolCalls = s.acc.toolCalls := rfl
  unfold VicoopCodexStream.applyChunk breaks
  dsimp only
  rw [hhead]
  rcases hbuffers.add (toolCallsOf chunk) with ⟨hnull, hadd⟩ | ⟨hnull, toolCalls, hadd, hnew⟩
  · rw [hadd, hnull]
    exact ⟨⟨hdeltas, hcontent, fun hne => absurd rfl hne⟩, rfl, rfl⟩
  · rw [hadd, hnull]
    refine ⟨⟨hdeltas, hcontent, fun _ => ?_⟩, rfl, hs⟩
    rw [List.flatMap_append, List.flatMap_singleton]
    exact hnew

/-! ## Runs -/

/-- The chunks up to the end of the stream, or to one that throws. -/
def applied : List Frame → List Data
  | [] => []
  | .done :: _ => []
  | .error _ :: _ => []
  | .null :: _ => []
  | .chunk value :: rest => if breaks value then [value] else value :: applied rest

/-- What ends the stream before its text does. -/
def outcome : List Frame → Option Stop
  | [] => none
  | .done :: _ => some .done
  | .error message :: _ => some (.error message)
  | .null :: _ => some .threw
  | .chunk value :: rest => if breaks value then some .threw else outcome rest

theorem Folded.run {chunks : List Data} (h : Folded s chunks) (hs : s.stopped = none)
    (fs : List Frame) :
    Folded (runMessages applyFrame s fs).1 (chunks ++ applied fs) ∧
      (runMessages applyFrame s fs).1.stopped = outcome fs := by
  induction fs generalizing s chunks with
  | nil =>
      rw [applied, List.append_nil]
      exact ⟨h, hs⟩
  | cons f fs ih =>
      cases f with
      | done => exact ⟨(List.append_nil chunks).symm ▸ h.stop hs .done, rfl⟩
      | error message => exact ⟨(List.append_nil chunks).symm ▸ h.stop hs (.error message), rfl⟩
      | null => exact ⟨(List.append_nil chunks).symm ▸ h.stop hs .threw, rfl⟩
      | chunk value =>
          obtain ⟨hfolded, hbreaks, hstopped⟩ := h.applyChunk hs value
          rcases happly : VicoopCodexStream.applyChunk s value with ⟨u, threw⟩
          have hstep : applyFrame s (.chunk value) = (u, threw) := happly
          rw [happly] at hfolded hbreaks hstopped
          dsimp only at hfolded hbreaks hstopped
          unfold runMessages applied outcome
          rw [hstep, ← hbreaks]
          rw [← hbreaks] at hstopped
          cases threw with
          | true => exact ⟨hfolded, hstopped⟩
          | false =>
              rw [if_neg Bool.false_ne_true, if_neg Bool.false_ne_true, List.append_cons]
              exact ih hfolded hstopped

/-! ## The response -/

theorem pairwise_sortedCalls (acc : StreamAccumulator) :
    ((sortedCalls acc).map Prod.fst).Pairwise fun i j => i.value < j.value := by
  have hle : (sortedCalls acc).Pairwise fun a b => a.1.value ≤ b.1.value := by
    refine (List.pairwise_mergeSort ?_ ?_ acc.toolCalls.entries).imp fun h => of_decide_eq_true h
    · intro a b c hab hbc
      exact decide_eq_true ((of_decide_eq_true hab).trans (of_decide_eq_true hbc))
    · intro a b
      simp only [Bool.or_eq_true, decide_eq_true_eq]
      exact le_total _ _
  have hnodup : ((sortedCalls acc).map Prod.fst).Nodup :=
    ((List.mergeSort_perm acc.toolCalls.entries indexLe).map Prod.fst).nodup_iff.mpr
      acc.toolCalls.nodup
  have hmap : ((sortedCalls acc).map Prod.fst).Pairwise fun i j => i.value ≤ j.value :=
    List.pairwise_map.mpr hle
  refine (hmap.and hnodup).imp ?_
  rintro i j ⟨hij, hne⟩
  exact lt_of_le_of_ne hij fun heq => hne (JsonNumber.value_injective heq)

/-- The call that the fragments of an index make. -/
def callOf (fragments : List Data) (i : JsonNumber) : ToolCall := toToolCall (assembled fragments i)

theorem arguments_callOf (fragments : List Data) (i : JsonNumber) :
    (callOf fragments i).arguments =
      (fragments.filter fun tc => indexOf tc = i).flatMap argumentsOf :=
  arguments_foldl _ {}

theorem Buffers.calls {acc : StreamAccumulator} {fragments : List Data}
    (h : Buffers acc.toolCalls fragments) :
    (synthesizeStreamedResponse acc).toolCalls =
        ((sortedCalls acc).map Prod.fst).map (callOf fragments) ∧
      ∀ i, i ∈ (sortedCalls acc).map Prod.fst ↔ ∃ tc ∈ fragments, indexOf tc = i := by
  refine ⟨?_, fun i => ?_⟩
  · change (sortedCalls acc).map (fun entry => toToolCall entry.2) = _
    rw [List.map_map]
    refine List.map_congr_left fun entry hentry => ?_
    have hmem : entry ∈ acc.toolCalls.entries := List.mem_mergeSort.mp hentry
    have hget := (acc.toolCalls.mem_entries_iff entry.1 entry.2).mp hmem
    rw [h] at hget
    split at hget
    · exact congrArg toToolCall (Option.some.inj hget).symm
    · cases hget
  · have hkeys : i ∈ (sortedCalls acc).map Prod.fst ↔ i ∈ acc.toolCalls.keys :=
      ((List.mergeSort_perm acc.toolCalls.entries indexLe).map Prod.fst).mem_iff
    refine hkeys.trans ((acc.toolCalls.mem_keys_iff i).trans ?_)
    rw [h]
    split
    · next hsome => exact iff_of_true rfl hsome
    · next hnone => exact iff_of_false Bool.false_ne_true hnone

/-- The text that a callback adds to the answer. -/
def Delta.answer : Delta → JsText
  | .content text => text
  | .reasoning _ => []

theorem answer_deltasOf (chunk : Data) :
    (deltasOf chunk).flatMap Delta.answer = (contentOf chunk).getD [] := by
  unfold deltasOf
  cases reasoningOf chunk <;> cases contentOf chunk <;> simp [Delta.answer]

/-- The content is what the callbacks have told of the answer. -/
theorem Folded.content_eq {chunks : List Data} (h : Folded s chunks) :
    s.acc.content = s.deltas.flatMap Delta.answer := by
  rw [h.content, h.deltas, List.flatMap_assoc]
  exact List.flatMap_congr fun chunk _ => (answer_deltasOf chunk).symm

/-! ## The whole stream -/

/-- The frame ends the stream as it should. -/
def Frame.terminal : Frame → Bool
  | .done => true
  | .error _ => true
  | _ => false

def Frame.throws : Frame → Bool
  | .null => true
  | .chunk value => breaks value
  | _ => false

theorem outcome_eq_error {fs rest : List Frame} {message : JsText}
    (hterminal : ∀ f ∈ fs, f.terminal = false) :
    outcome (fs ++ .error message :: rest) = some (.error message) ↔
      ∀ f ∈ fs, f.throws = false := by
  induction fs with
  | nil => exact iff_of_true rfl fun f hf => (by cases hf)
  | cons f fs ih =>
      have hrest := ih fun g hg => hterminal g (List.mem_cons_of_mem f hg)
      have hf := hterminal f List.mem_cons_self
      rw [List.forall_mem_cons, ← hrest]
      cases f with
      | done => cases hf
      | error message => cases hf
      | null =>
          refine iff_of_false (fun h => ?_) fun h => ?_
          · cases h
          · cases h.1
      | chunk value =>
          rw [List.cons_append, outcome, Frame.throws]
          cases breaks value with
          | true =>
              refine iff_of_false (fun h => ?_) fun h => ?_
              · cases h
              · cases h.1
          | false =>
              rw [if_neg Bool.false_ne_true]
              exact (and_iff_right rfl).symm

/-- What comes behind the end of a stream is not looked at. -/
theorem runMessages_terminal {f : Frame} (hf : f.terminal = true) (s : Fold)
    (fs rest rest' : List Frame) :
    runMessages applyFrame s (fs ++ f :: rest) = runMessages applyFrame s (fs ++ f :: rest') := by
  have hstop : ∀ u : Fold, ∀ more, runMessages applyFrame u (f :: more) = applyFrame u f := by
    intro u more
    cases f with
    | done => rfl
    | error message => rfl
    | null => cases hf
    | chunk value => cases hf
  rw [runMessages_append, runMessages_append, hstop, hstop]

/-- What a stream of this text should come to, however it is cut. -/
structure Meets (parse : JsText → Option Data) (text : JsText) : Prop where
  pieces : ∀ pieces : List JsText, pieces.flatten = text →
    streamChatCompletions parse pieces = streamChatCompletions parse [text]
  content : ∀ response, (streamChatCompletions parse [text]).result = .ok response →
    response.toolCalls = [] → response.content =
      some ((streamChatCompletions parse [text]).deltas.flatMap Delta.answer)
  deltas : (streamChatCompletions parse [text]).deltas =
    (applied (frames parse text)).flatMap deltasOf
  calls : ∀ response, (streamChatCompletions parse [text]).result = .ok response →
    ∃ indices : List JsonNumber, indices.Pairwise (fun i j => i.value < j.value) ∧
      (∀ i, i ∈ indices ↔
        ∃ tc ∈ (applied (frames parse text)).flatMap toolCallsOf, indexOf tc = i) ∧
      response.toolCalls =
        indices.map (callOf ((applied (frames parse text)).flatMap toolCallsOf)) ∧
      response.toolCalls.map ToolCall.arguments = indices.map fun i =>
        (((applied (frames parse text)).flatMap toolCallsOf).filter
          fun tc => indexOf tc = i).flatMap argumentsOf
  ended : ∀ text' fs f rest rest', frames parse text = fs ++ f :: rest →
    frames parse text' = fs ++ f :: rest' → f.terminal = true →
      streamChatCompletions parse [text] = streamChatCompletions parse [text']
  error : ∀ fs message rest, frames parse text = fs ++ .error message :: rest →
    (∀ f ∈ fs, f.terminal = false) →
      (streamChatCompletions parse [text]).result = .error (.upstream message)

theorem stream_singleton (parse : JsText → Option Data) (text : JsText) :
    streamChatCompletions parse [text] =
      (runMessages applyFrame {} (frames parse text)).1.streamed := by
  rw [stream_eq, List.flatten_singleton]

/-- The fold of a text, and how it has ended. -/
theorem folded_text (parse : JsText → Option Data) (text : JsText) :
    Folded (runMessages applyFrame {} (frames parse text)).1 (applied (frames parse text)) ∧
      (runMessages applyFrame {} (frames parse text)).1.stopped = outcome (frames parse text) :=
  folded_init.run rfl _

theorem result_eq_error_iff {message : JsText} :
    (s.streamed).result = .error (.upstream message) ↔ s.stopped = some (.error message) := by
  unfold Fold.streamed
  dsimp only
  cases s.stopped with
  | none => exact iff_of_false (fun h => (by cases h)) fun h => (by cases h)
  | some reason =>
      cases reason with
      | done => exact iff_of_false (fun h => (by cases h)) fun h => (by cases h)
      | threw => exact iff_of_false (fun h => (by cases h)) fun h => (by cases h)
      | error message' =>
          constructor
          · intro h
            cases h
            rfl
          · intro h
            cases h
            rfl

theorem response_of_result {response : ChatCompletionResponse}
    (h : s.streamed.result = .ok response) :
    s.stopped ≠ some .threw ∧ response = synthesizeStreamedResponse s.acc := by
  unfold Fold.streamed at h
  dsimp only at h
  split at h
  · cases h
  · cases h
  · next hthrew =>
      cases h
      exact ⟨hthrew, rfl⟩

/-- A stream comes to what it should, if and only if nothing before its first error frame throws: no
payload is `null`, and none has `null` among its tool calls. -/
theorem stream_meets_iff (parse : JsText → Option Data) (text : JsText) :
    Meets parse text ↔ ∀ fs message rest, frames parse text = fs ++ .error message :: rest →
      (∀ f ∈ fs, f.terminal = false) → ∀ f ∈ fs, f.throws = false := by
  obtain ⟨hfolded, hstopped⟩ := folded_text parse text
  have herror : ∀ fs message rest, frames parse text = fs ++ .error message :: rest →
      (∀ f ∈ fs, f.terminal = false) →
        ((streamChatCompletions parse [text]).result = .error (.upstream message) ↔
          ∀ f ∈ fs, f.throws = false) := by
    intro fs message rest heq hterminal
    rw [stream_singleton, result_eq_error_iff, hstopped, heq, outcome_eq_error hterminal]
  refine ⟨fun h fs message rest heq hterminal =>
    (herror fs message rest heq hterminal).mp (h.error fs message rest heq hterminal),
    fun h => ⟨fun pieces heq => ?_, fun response hresponse hnone => ?_, ?_,
      fun response hresponse => ?_, fun text' fs f rest rest' heq heq' hf => ?_,
      fun fs message rest heq hterminal =>
        (herror fs message rest heq hterminal).mpr (h fs message rest heq hterminal)⟩⟩
  · rw [stream_eq, heq, stream_singleton]
  · rw [stream_singleton] at hresponse ⊢
    obtain ⟨-, rfl⟩ := response_of_result hresponse
    have hcontent : (synthesizeStreamedResponse
        (runMessages applyFrame {} (frames parse text)).1.acc).content =
          some (runMessages applyFrame {} (frames parse text)).1.acc.content := if_pos hnone
    rw [hcontent, hfolded.content_eq]
    rfl
  · rw [stream_singleton]
    exact hfolded.deltas
  · rw [stream_singleton] at hresponse
    obtain ⟨hthrew, rfl⟩ := response_of_result hresponse
    obtain ⟨hcalls, hindices⟩ := (hfolded.toolCalls hthrew).calls
    refine ⟨_, pairwise_sortedCalls _, hindices, hcalls, ?_⟩
    rw [hcalls, List.map_map]
    exact List.map_congr_left fun i _ => arguments_callOf _ i
  · rw [stream_singleton, stream_singleton, heq, heq', runMessages_terminal hf _ fs rest rest']

/-- What `JSON.parse` makes of the two payloads below. -/
def parseSample (data : JsText) : Option Data :=
  if data = JsText.ofAscii "null" then some .null
  else if data = JsText.ofAscii "\x7b\"error\":\x7b\"message\":\"too long\"\x7d\x7d" then
    some (.object [(JsText.ofAscii "error",
      .object [(JsText.ofAscii "message", .string (JsText.ofAscii "too long"))])])
  else none

def nullThenError : JsText := JsText.ofAscii
  "data: null\ndata: \x7b\"error\":\x7b\"message\":\"too long\"\x7d\x7d\n"

/-- Behind a payload that is `null` the message of the error frame is lost. -/
theorem error_behind_null_lost :
    ¬ ∀ (parse : JsText → Option Data) (text : JsText), Meets parse text := by
  intro h
  have hframes : frames parseSample nullThenError =
      [.null] ++ .error (messagePrefix ++ JsText.ofAscii "too long") :: [] := by rfl
  have hnothrow := (stream_meets_iff parseSample nullThenError).mp (h _ _) _ _ _ hframes
    (fun f hf => by rw [List.mem_singleton.mp hf]; rfl) .null List.mem_cons_self
  cases hnothrow

end VicoopBridge.VicoopCodexStream
