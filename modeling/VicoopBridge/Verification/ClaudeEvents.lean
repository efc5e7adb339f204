import VicoopBridge.Model.ClaudeEvents

/-! # Events of a Claude child

The events that are handled are those in the stream, however it comes in chunks, as long as no chunk
cuts a character and no event throws. What throws is known for each event. -/

namespace VicoopBridge

open Library

namespace ClaudeRun

variable (opts : ClaudeOptions)

/-! ## What throws -/

/-- Each tool result up to the first that says so has a content. -/
def resultsHaveContent (blocks : List Json) : Bool :=
  ((blocks.filter (·.isAt "type" "tool_result")).takeWhile fun b =>
    !(b.property "content").any (saysUnknownTool opts)).all fun b => (b.property "content").isSome

/-- The events that a run takes: no `null`, no type and no subtype that has to be printed and cannot
be, and no tool result without a content where the contents are searched. -/
def Takes (s : ClaudeRun) (evt : Json) : Prop :=
  s.settled = true ∨
    evt ≠ .null ∧
    (opts.openaiCompatTrace = true → (evt.property "type").any Json.unprintable = false) ∧
    (evt.isAt "type" "system" = true → (evt.property "subtype").any Json.unprintable = false) ∧
    (evt.isAt "type" "user" = true → opts.nativeDispatchActive = true →
      s.sawUnknownToolError = false →
      resultsHaveContent opts (((messageContent evt).bind Json.array?).getD []) = true)

instance (s : ClaudeRun) (evt : Json) : Decidable (s.Takes opts evt) :=
  inferInstanceAs (Decidable (_ ∨ _))

variable {opts} {s : ClaudeRun} {evt : Json}

theorem stringAt_eq_some {key text : String} :
    evt.stringAt key = some text ↔ evt.isAt key text = true := by
  unfold Json.stringAt Json.isAt
  cases evt.property key with
  | none => simp [Json.string?]
  | some value => cases value <;> simp [Json.string?]

theorem isAt_of_isAt {key text text' : String} (h : evt.isAt key text = true) :
    evt.isAt key text' = decide (text = text') := by
  unfold Json.isAt at h ⊢
  rw [of_decide_eq_true h]
  simp

theorem property_of_stringAt {key text : String} (h : evt.stringAt key = some text) :
    evt.property key = some (.str text) := by
  rw [stringAt_eq_some] at h
  exact of_decide_eq_true h

/-- The scan throws exactly at a result without a content that it gets to. -/
theorem scanToolResults_eq_none (blocks : List Json) :
    scanToolResults opts blocks = none ↔ resultsHaveContent opts blocks = false := by
  induction blocks with
  | nil => exact ⟨nofun, nofun⟩
  | cons b rest ih =>
      unfold scanToolResults
      cases hresult : b.isAt "type" "tool_result" with
      | false =>
          rw [if_neg Bool.false_ne_true, ih]
          unfold resultsHaveContent
          rw [List.filter_cons_of_neg (by simp [hresult])]
      | true =>
          rw [if_pos rfl]
          unfold resultsHaveContent at ih ⊢
          rw [List.filter_cons_of_pos (by exact hresult), List.takeWhile_cons]
          cases hcontent : b.property "content" with
          | none => simp [hcontent]
          | some content =>
              cases hunknown : saysUnknownTool opts content with
              | true => simp [hunknown]
              | false => simp [hcontent, hunknown, ih]

theorem onSystem_throws :
    (onSystem opts s evt).2 = (evt.property "subtype").any Json.unprintable := by
  unfold onSystem
  cases evt.property "subtype" with
  | none => rfl
  | some subtype =>
      cases subtype with
      | null => rfl
      | bool b | num n | str text | arr items | obj fields =>
          simp only [Option.bind_some, Json.nonNull, Option.any_some]
          split <;> simp_all

theorem onUser_throws : (onUser opts s evt).2 = true ↔
    opts.nativeDispatchActive = true ∧ s.sawUnknownToolError = false ∧
      resultsHaveContent opts (((messageContent evt).bind Json.array?).getD []) = false := by
  unfold onUser
  dsimp only
  cases hscans : !s.sawUnknownToolError && opts.nativeDispatchActive with
  | false =>
      simp only [Bool.false_eq_true, if_false, false_iff, not_and]
      intro hnative hsaw
      simp [hnative, hsaw] at hscans
  | true =>
      simp only [Bool.and_eq_true, Bool.not_eq_true'] at hscans
      simp only [if_true, hscans, true_and]
      rw [← scanToolResults_eq_none]
      cases scanToolResults opts (((messageContent evt).bind Json.array?).getD []) <;> simp

/-- An event throws exactly if the run does not take it. -/
theorem onEvent_throws : (onEvent opts s evt).2 = true ↔
    evt.isAt "type" "system" = true ∧ (evt.property "subtype").any Json.unprintable = true ∨
      evt.isAt "type" "user" = true ∧ opts.nativeDispatchActive = true ∧
        s.sawUnknownToolError = false ∧
        resultsHaveContent opts (((messageContent evt).bind Json.array?).getD []) = false := by
  unfold onEvent
  split
  all_goals rename_i htype
  case h_2 =>
    have hat := stringAt_eq_some.mp htype
    rw [isAt_of_isAt hat, isAt_of_isAt hat]
    simp only [decide_true, true_and, String.reduceEq, decide_false, Bool.false_eq_true, false_and,
      or_false]
    split
    · rename_i hinit
      have hprinted := of_decide_eq_true hinit
      simp [hprinted, Json.unprintable]
    · rw [onSystem_throws]
  case h_5 =>
    have hat := stringAt_eq_some.mp htype
    rw [isAt_of_isAt hat, isAt_of_isAt hat, onUser_throws]
    simp
  case h_7 _ hsystem _ _ huser =>
    have hnot : evt.isAt "type" "system" = false ∧ evt.isAt "type" "user" = false := by
      constructor
      · rw [Bool.eq_false_iff]
        exact fun h => hsystem (stringAt_eq_some.mpr h)
      · rw [Bool.eq_false_iff]
        exact fun h => huser (stringAt_eq_some.mpr h)
    simp [hnot]
  all_goals
    have hat := stringAt_eq_some.mp htype
    rw [isAt_of_isAt hat, isAt_of_isAt hat]
    simp

/-- What throws are the events that the run does not take. -/
theorem handleEvent_throws : (handleEvent opts s evt).2 = true ↔ ¬ s.Takes opts evt := by
  unfold handleEvent Takes
  cases hsettled : s.settled with
  | true => simp
  | false =>
      rw [if_neg Bool.false_ne_true]
      by_cases hnull : evt = .null
      · simp [hnull]
      · rw [if_neg hnull]
        have htraced : (s.onTraced opts evt).2 = true ↔
            ¬ ((opts.openaiCompatTrace = true →
                (evt.property "type").any Json.unprintable = false) ∧
              (evt.isAt "type" "system" = true →
                (evt.property "subtype").any Json.unprintable = false) ∧
              (evt.isAt "type" "user" = true → opts.nativeDispatchActive = true →
                s.sawUnknownToolError = false →
                resultsHaveContent opts
                  (((messageContent evt).bind Json.array?).getD []) = true)) := by
          unfold onTraced
          split
          · rename_i htrace
            rw [Bool.and_eq_true] at htrace
            simp [htrace]
          · rename_i htrace
            rw [onEvent_throws]
            simp only [Bool.and_eq_true, not_and, Bool.not_eq_true] at htrace
            rw [not_and_or, not_and_or]
            constructor
            · rintro (⟨hsystem, hprints⟩ | ⟨huser, hnative, hsaw, hcontent⟩)
              · exact .inr (.inl fun h => by simp [h hsystem] at hprints)
              · exact .inr (.inr fun h => by simp [h huser hnative hsaw] at hcontent)
            · rintro (h | h | h)
              · exact absurd htrace h
              · simp only [Classical.not_imp, Bool.not_eq_false] at h
                exact .inl h
              · simp only [Classical.not_imp, Bool.not_eq_true] at h
                exact .inr h
        have hcontrol : ∀ text, evt.stringAt "type" = some text → text ≠ "system" →
            text ≠ "user" → (evt.property "type").any Json.unprintable = false ∧
              evt.isAt "type" "system" = false ∧ evt.isAt "type" "user" = false := by
          intro text htype hsystem huser
          have hat := stringAt_eq_some.mp htype
          rw [property_of_stringAt htype, isAt_of_isAt hat, isAt_of_isAt hat]
          simp [Json.unprintable, hsystem, huser]
        split
        · rename_i requestId htype hrequest
          obtain ⟨hprints, hsystem, huser⟩ := hcontrol _ htype (by decide) (by decide)
          simp [hnull, hprints, hsystem, huser]
        · rename_i requestId htype hrequest
          obtain ⟨hprints, hsystem, huser⟩ := hcontrol _ htype (by decide) (by decide)
          split
          · simp [hnull, hprints, hsystem, huser]
          · rw [htraced]
            simp [hnull]
        · rw [htraced]
          simp [hnull]

end ClaudeRun

/-! ## The whole stream -/

/-- What has been handled are the events in the stream, each once and in order, and the listener has
not thrown. -/
structure ClaudeReaderSpec (opts : ClaudeOptions) (s : ClaudeReader) : Prop where
  events : s.handled = claudeEvents opts s.written s.ended
  threw : s.threw = false

namespace ClaudeReader

variable (opts : ClaudeOptions)

/-- The run takes the events one after the other. -/
def TakesAll : ClaudeRun → List Json → Prop
  | _, [] => True
  | run, evt :: evts => run.Takes opts evt ∧ TakesAll (run.handleEvent opts evt).1 evts

instance decidableTakesAll : ∀ run evts, Decidable (TakesAll opts run evts)
  | _, [] => .isTrue trivial
  | run, evt :: evts =>
      have := decidableTakesAll (run.handleEvent opts evt).1 evts
      inferInstanceAs (Decidable (_ ∧ _))

/-- The events on the lines that a chunk ends. -/
def chunkEvents (s : ClaudeReader) (chunk : List UInt8) : List Json :=
  (LineReader.splitLines 10 ((LineReader.splitLines 10 s.written).2 ++ chunk)).1.filterMap fun line =>
    parseText opts (decodeUtf8 line)

/-- The chunk does not start in the middle of a character, and the run takes the events it ends. -/
def Whole (s : ClaudeReader) : ClaudeOutput → Prop
  | .data chunk =>
      (Utf8State.run .start s.written).1.cuts chunk = false ∧
        TakesAll opts s.run (s.chunkEvents opts chunk)
  | .close => True

instance (s : ClaudeReader) (e : ClaudeOutput) : Decidable (s.Whole opts e) :=
  match e with
  | .data _ => inferInstanceAs (Decidable (_ ∧ _))
  | .close => .isTrue trivial

/-- All the output is whole where it comes, until its end. -/
def WholeRun : ClaudeReader → List ClaudeOutput → Prop
  | _, [] => True
  | s, e :: output => (s.ended = false → s.Whole opts e) ∧ WholeRun (step opts s e) output

instance decidableWholeRun : ∀ s output, Decidable (WholeRun opts s output)
  | _, [] => .isTrue trivial
  | s, e :: output =>
      have := decidableWholeRun (step opts s e) output
      inferInstanceAs (Decidable (_ ∧ _))

variable {opts} {s : ClaudeReader}

theorem onLine_eq (opts : ClaudeOptions) (s : ClaudeReader) (line : List Char) :
    onLine opts s line = ((parseText opts line).map (handle opts s)).getD (s, false) := by
  unfold onLine
  cases parseText opts line <;> rfl

/-- Events that the run takes are handled one after the other. -/
theorem runMessages_of_takesAll {evts : List Json} (h : TakesAll opts s.run evts) :
    (LineReader.runMessages (handle opts) s evts).2 = false ∧
      ∃ run, (LineReader.runMessages (handle opts) s evts).1 =
        { s with run := run, handled := s.handled ++ evts } := by
  induction evts generalizing s with
  | nil => exact ⟨rfl, s.run, by simp [LineReader.runMessages]⟩
  | cons evt evts ih =>
      obtain ⟨htakes, hrest⟩ := h
      have hquiet : (s.run.handleEvent opts evt).2 = false := by
        rw [← Bool.not_eq_true, ClaudeRun.handleEvent_throws, not_not]
        exact htakes
      have hhandle : handle opts s evt =
          ({ s with run := (s.run.handleEvent opts evt).1, handled := s.handled ++ [evt] },
            false) := by
        rw [← hquiet]
        rfl
      unfold LineReader.runMessages
      rw [hhandle]
      obtain ⟨hthrew, run, hrun⟩ := ih (s := { s with
        run := (s.run.handleEvent opts evt).1, handled := s.handled ++ [evt] }) hrest
      refine ⟨hthrew, run, ?_⟩
      rw [hrun, List.append_assoc]
      rfl

/-- The buffer holds the line that has not ended, as long as the child has not. -/
structure Invariant (opts : ClaudeOptions) (s : ClaudeReader) : Prop
    extends ClaudeReaderSpec opts s where
  buffer : s.ended = false → s.stdoutBuf = decodeUtf8 (LineReader.splitLines 10 s.written).2

theorem Invariant.data (hs : Invariant opts s) (hopen : s.ended = false) {chunk : List UInt8}
    (h : s.Whole opts (.data chunk)) : Invariant opts (onData opts s chunk) := by
  obtain ⟨hcuts, htakes⟩ := h
  unfold onData
  dsimp only
  rcases hdrain : LineReader.drain '\n' (onLine opts) (s.stdoutBuf ++ decodeUtf8 chunk).length
    (s.stdoutBuf ++ decodeUtf8 chunk)
    { s with stdoutBuf := s.stdoutBuf ++ decodeUtf8 chunk, written := s.written ++ chunk }
    with ⟨rest, t, threw⟩
  obtain ⟨hrun, hrest⟩ := Utf8State.drain_chunk (onLine_eq opts) (hs.buffer hopen) hcuts hdrain
  obtain ⟨hthrew, run, ht⟩ := runMessages_of_takesAll (s :=
    { s with stdoutBuf := s.stdoutBuf ++ decodeUtf8 chunk, written := s.written ++ chunk }) htakes
  unfold chunkEvents at hthrew ht
  dsimp only at hthrew ht
  rw [hrun] at hthrew ht
  obtain rfl : threw = false := hthrew
  obtain rfl : t = _ := ht
  refine ⟨⟨?_, rfl⟩, fun _ => hrest rfl⟩
  dsimp only
  rw [hs.events, hopen]
  unfold claudeEvents
  dsimp only
  rw [if_neg Bool.false_ne_true, if_neg Bool.false_ne_true,
    LineReader.splitLines_append_text s.written, List.filterMap_append]

theorem Invariant.close (hs : Invariant opts s) (hopen : s.ended = false) :
    Invariant opts (onClose opts s) := by
  have hevents := hs.events
  have hbuffer := hs.buffer hopen
  rw [hopen] at hevents
  unfold onClose
  rw [onLine_eq]
  cases hline : parseText opts s.stdoutBuf with
  | none =>
      refine ⟨⟨?_, hs.threw⟩, nofun⟩
      rw [hbuffer] at hline
      simp [claudeEvents, hevents, hline]
  | some evt =>
      refine ⟨⟨?_, hs.threw⟩, nofun⟩
      rw [hbuffer] at hline
      simp [claudeEvents, handle, hevents, hline]

/-- As long as every chunk is whole, the reader has handled the events in the stream. -/
theorem readerSpec_of_wholeRun (opts : ClaudeOptions) (run : ClaudeRun) (output : List ClaudeOutput)
    (h : WholeRun opts { run := run } output) : ClaudeReaderSpec opts (read opts run output) := by
  suffices hread : ∀ s : ClaudeReader, Invariant opts s → WholeRun opts s output →
      Invariant opts (output.foldl (step opts) s) from
    (hread { run := run } ⟨⟨rfl, rfl⟩, fun _ => rfl⟩ h).toClaudeReaderSpec
  clear h
  intro s hs h
  induction output generalizing s with
  | nil => exact hs
  | cons e output ih =>
      refine ih _ ?_ h.2
      unfold step
      cases hended : s.ended with
      | true => simpa using hs
      | false =>
          rw [if_neg (by simp [hs.threw])]
          cases e with
          | data chunk => exact hs.data hended (h.1 hended)
          | close => exact hs.close hended

/-- A message of the user with a tool result that has no content, as a line and as an event. -/
def contentlessLine : String :=
  "\x7b\"type\":\"user\",\"message\":\x7b\"content\":[\x7b\"type\":\"tool_result\"\x7d]\x7d\x7d"

def contentlessResult : Json :=
  .obj [("type", .str "user"), ("message", .obj [("content",
    .arr [.obj [("type", .str "tool_result")]])])]

/-- A run for a caller with tools of its own, and the lines of the streams below. -/
def someEvents : ClaudeOptions where
  parse text :=
    if text = "\"é\"" then some (.str "é")
    else if text = "\"��\"" then some (.str "��")
    else if text = contentlessLine then some contentlessResult
    else if text = "null" then some .null
    else none
  stringify _ := ""
  print _ := ""
  keepsMedia _ := true
  nativeDispatchActive := true

/-- `"é"`, a newline, and `"é"` without one. -/
def accentedTwice : List UInt8 := [0x22, 0xC3, 0xA9, 0x22, 0x0A, 0x22, 0xC3, 0xA9, 0x22]

/-- The second line has no newline, and comes in two chunks. -/
theorem readerSpec_of_wholeRun_lines :
    ClaudeReaderSpec someEvents (read someEvents {}
      [.data (accentedTwice.take 6), .data (accentedTwice.drop 6), .close]) :=
  readerSpec_of_wholeRun someEvents {} _ (by decide)

/-- A character in two chunks is lost, `null` throws, and so does a tool result without a content. -/
theorem readerSpec_fails :
    ¬ ClaudeReaderSpec someEvents (read someEvents {}
        [.data (accentedTwice.take 2), .data (accentedTwice.drop 2), .close]) ∧
      ¬ ClaudeReaderSpec someEvents (read someEvents {} [.data [0x6E, 0x75, 0x6C, 0x6C, 0x0A]]) ∧
      ¬ ClaudeReaderSpec someEvents (read someEvents {}
        [.data (contentlessLine.toList.map (fun c => UInt8.ofNat c.toNat) ++ [0x0A])]) :=
  ⟨fun h => absurd h.events (by decide), fun h => absurd h.threw (by decide),
    fun h => absurd h.threw (by decide)⟩

end ClaudeReader

end VicoopBridge
