import VicoopBridge.Model.ChatHistory
import VicoopBridge.Verification.OrphanedToolCalls

/-! # Calls and outputs of an injected history

The items of a history are paired when its entries are. The repair adds what is missing for a call
whose id has no result at all, and for no other one. -/

namespace VicoopBridge.CodexHistory

open Library OpenAICompat
open Library.JsonText (Value)

variable {entry : HistoryEntry} {history : List HistoryEntry} {id : JsText}

/-! ## The items of one entry -/

/-- The items call the id. -/
def CallsItem (items : List ResponsesApiItem) (id : JsText) : Prop :=
  ∃ name arguments, .functionCall id name arguments ∈ items

/-- The items give an output for the id. -/
def OutputsItem (items : List ResponsesApiItem) (id : JsText) : Prop :=
  ∃ output, .functionCallOutput id output ∈ items

/-- Each call has its output behind it, and each output its call before it. -/
def WellPaired (items : List ResponsesApiItem) : Prop :=
  (∀ before id name arguments after, items = before ++ .functionCall id name arguments :: after →
    OutputsItem after id) ∧
  ∀ before id output after, items = before ++ .functionCallOutput id output :: after →
    CallsItem before id

/-- The entry is one of the three kinds that a history has. -/
def Readable (entry : HistoryEntry) : Prop :=
  hasRole entry "user" = true ∨ hasRole entry "assistant" = true ∨ ∃ id, Answers entry id

theorem hasRole_eq_false_of_ne {role role' : String} (h : hasRole entry role = true)
    (hne : JsText.ofAscii role ≠ JsText.ofAscii role') : hasRole entry role' = false := by
  rw [hasRole, decide_eq_true_eq] at h
  rw [hasRole, h, decide_eq_false_iff_not, Option.some.injEq]
  exact hne

/-- The mapping skips the calls that the repair skips, and no others. -/
theorem functionCallItem_eq_some_iff {tc : Value} {item : ResponsesApiItem} :
    functionCallItem tc = some item ↔ ∃ id name fn, usableCall tc = some (id, name) ∧
      property tc "function" = some fn ∧ item = .functionCall id name
        (CallerBlock.neutralizeCallerContextMarkers (argumentsText fn)) := by
  unfold functionCallItem usableCall callId
  cases string? (property tc "id") with
  | none => simp
  | some id =>
      simp only [Option.bind_eq_bind, Option.bind_some]
      split
      · simp
      · cases property tc "function" with
        | none => simp
        | some fn =>
            simp only [Option.bind_some]
            cases string? (property fn "name") with
            | none => simp
            | some name =>
                simp only [Option.bind_some]
                split
                · simp
                · simp [eq_comm]

theorem callItems_eq (h : hasRole entry "assistant" = true) :
    callItems entry = (toolCalls entry).filterMap functionCallItem := by
  unfold callItems toolCalls
  rw [if_pos h]
  cases field entry "tool_calls" with
  | none => rfl
  | some calls => cases calls <;> rfl

theorem callsItem_callItems (h : hasRole entry "assistant" = true) :
    CallsItem (callItems entry) id ↔ Calls entry id := by
  rw [callItems_eq h]
  constructor
  · rintro ⟨name, arguments, hmem⟩
    obtain ⟨call, hcall, hitem⟩ := List.mem_filterMap.mp hmem
    obtain ⟨id', name', fn, husable, -, heq⟩ := functionCallItem_eq_some_iff.mp hitem
    cases heq
    exact ⟨call, hcall, name, husable⟩
  · rintro ⟨call, hcall, name, husable⟩
    obtain ⟨fn, hfn⟩ : ∃ fn, property call "function" = some fn := by
      unfold usableCall at husable
      obtain ⟨id', -, husable⟩ := Option.bind_eq_some_iff.mp husable
      split at husable
      · cases husable
      · obtain ⟨fn, hfn, -⟩ := Option.bind_eq_some_iff.mp husable
        exact ⟨fn, hfn⟩
    have hitem := functionCallItem_eq_some_iff.mpr ⟨id, name, fn, husable, hfn, rfl⟩
    exact ⟨name, _, List.mem_filterMap.mpr ⟨call, hcall, hitem⟩⟩

theorem messageItem_message {role : MessageRole} {item : ResponsesApiItem}
    (h : item ∈ messageItem role entry) : ∃ text, item = .message role text := by
  obtain ⟨text, -, rfl⟩ := List.mem_map.mp h
  exact ⟨text, rfl⟩

theorem callItems_functionCall {item : ResponsesApiItem} (h : item ∈ callItems entry) :
    ∃ id name arguments, item = .functionCall id name arguments := by
  unfold callItems at h
  split at h
  · obtain ⟨call, -, hitem⟩ := List.mem_filterMap.mp h
    obtain ⟨id, name, fn, -, -, rfl⟩ := functionCallItem_eq_some_iff.mp hitem
    exact ⟨id, name, _, rfl⟩
  · cases h

theorem not_calls_of_not_assistant (h : hasRole entry "assistant" = false) : ¬ Calls entry id := by
  rintro ⟨call, hcall, -⟩
  unfold toolCalls at hcall
  rw [h] at hcall
  cases hcall

theorem not_answers_of_not_tool (h : hasRole entry "tool" = false) : ¬ Answers entry id := by
  unfold Answers toolCallId
  rw [h]
  intro hnone
  cases hnone

theorem callsItem_itemsOf : CallsItem (itemsOf entry) id ↔ Calls entry id := by
  unfold itemsOf
  split
  · next huser =>
      refine iff_of_false ?_ (not_calls_of_not_assistant
        (hasRole_eq_false_of_ne huser (by decide)))
      rintro ⟨name, arguments, hmem⟩
      obtain ⟨text, heq⟩ := messageItem_message hmem
      cases heq
  · split
    · next hassistant =>
        rw [← callsItem_callItems hassistant]
        constructor
        · rintro ⟨name, arguments, hmem⟩
          rcases List.mem_append.mp hmem with hmem | hmem
          · obtain ⟨text, heq⟩ := messageItem_message hmem
            cases heq
          · exact ⟨name, arguments, hmem⟩
        · rintro ⟨name, arguments, hmem⟩
          exact ⟨name, arguments, List.mem_append_right _ hmem⟩
    · next hassistant =>
        rw [Bool.not_eq_true] at hassistant
        refine iff_of_false ?_ (not_calls_of_not_assistant hassistant)
        rintro ⟨name, arguments, hmem⟩
        cases List.mem_singleton.mp hmem

theorem outputsItem_itemsOf (h : Readable entry) :
    OutputsItem (itemsOf entry) id ↔ Answers entry id := by
  unfold itemsOf
  split
  · next huser =>
      refine iff_of_false ?_ (not_answers_of_not_tool (hasRole_eq_false_of_ne huser (by decide)))
      rintro ⟨output, hmem⟩
      obtain ⟨text, heq⟩ := messageItem_message hmem
      cases heq
  · split
    · next hassistant =>
        refine iff_of_false ?_
          (not_answers_of_not_tool (hasRole_eq_false_of_ne hassistant (by decide)))
        rintro ⟨output, hmem⟩
        rcases List.mem_append.mp hmem with hmem | hmem
        · obtain ⟨text, heq⟩ := messageItem_message hmem
          cases heq
        · obtain ⟨id', name, arguments, heq⟩ := callItems_functionCall hmem
          cases heq
    · next huser hassistant =>
        obtain ⟨id', hanswers⟩ := (h.resolve_left huser).resolve_left hassistant
        have hid : string? (field entry "tool_call_id") = some id' := by
          unfold Answers toolCallId at hanswers
          split at hanswers
          · exact hanswers
          · cases hanswers
        have hsame : toolCallId entry = some id' := hanswers
        rw [Answers, hsame, toolItem, hid, Option.getD_some, Option.some.injEq]
        constructor
        · rintro ⟨output, hmem⟩
          cases List.mem_singleton.mp hmem
          rfl
        · rintro rfl
          exact ⟨_, List.mem_singleton_self _⟩

/-- An entry of the calls gives no output, nor one of a result a call. -/
theorem not_answers_of_calls {id' : JsText} (h : Calls entry id) : ¬ Answers entry id' :=
  fun hanswers => not_callsId_of_answers hanswers h.callsId

/-! ## The items of a history -/

/-- Where an item of a history comes from. -/
theorem exists_of_flatMap {α β : Type} {f : α → List β} {l : List α} {before after : List β}
    {x : β} (h : l.flatMap f = before ++ x :: after) :
    ∃ before' a after' inner inner', l = before' ++ a :: after' ∧ f a = inner ++ x :: inner' ∧
      before = before'.flatMap f ++ inner ∧ after = inner' ++ after'.flatMap f := by
  induction l generalizing before with
  | nil => simp at h
  | cons a l ih =>
      rw [List.flatMap_cons] at h
      rcases List.append_eq_append_iff.mp h with ⟨rest, rfl, hrest⟩ | ⟨rest, hfirst, hrest⟩
      · obtain ⟨before', a', after', inner, inner', rfl, hfa, rfl, rfl⟩ := ih hrest
        exact ⟨a :: before', a', after', inner, inner', rfl, hfa, by simp, rfl⟩
      · cases rest with
        | nil =>
            have hnext : l.flatMap f = [] ++ x :: after := hrest.symm
            obtain ⟨before', a', after', inner, inner', rfl, hfa, hinner, rfl⟩ := ih hnext
            refine ⟨a :: before', a', after', inner, inner', rfl, hfa, ?_, rfl⟩
            rw [List.flatMap_cons, List.append_assoc, ← hinner, hfirst, List.append_nil,
              List.append_nil]
        | cons y rest =>
            obtain ⟨rfl, rfl⟩ := List.cons.inj hrest
            exact ⟨[], a, l, before, rest, rfl, hfirst, rfl, rfl⟩

/-- Each call of the history has a result in a later entry, and each result a call in an earlier
one. -/
def EntriesPaired (history : List HistoryEntry) : Prop :=
  ∀ before entry after, history = before ++ entry :: after →
    (∀ id, Calls entry id → ∃ e ∈ after, Answers e id) ∧
      ∀ id, Answers entry id → ∃ e ∈ before, Calls e id

theorem outputsItem_flatMap (h : ∀ e ∈ history, Readable e) :
    OutputsItem (history.flatMap itemsOf) id ↔ ∃ e ∈ history, Answers e id := by
  constructor
  · rintro ⟨output, hmem⟩
    obtain ⟨e, he, hitem⟩ := List.mem_flatMap.mp hmem
    exact ⟨e, he, (outputsItem_itemsOf (h e he)).mp ⟨output, hitem⟩⟩
  · rintro ⟨e, he, hanswers⟩
    obtain ⟨output, hitem⟩ := (outputsItem_itemsOf (h e he)).mpr hanswers
    exact ⟨output, List.mem_flatMap.mpr ⟨e, he, hitem⟩⟩

theorem callsItem_flatMap :
    CallsItem (history.flatMap itemsOf) id ↔ ∃ e ∈ history, Calls e id := by
  constructor
  · rintro ⟨name, arguments, hmem⟩
    obtain ⟨e, he, hitem⟩ := List.mem_flatMap.mp hmem
    exact ⟨e, he, callsItem_itemsOf.mp ⟨name, arguments, hitem⟩⟩
  · rintro ⟨e, he, hcalls⟩
    obtain ⟨name, arguments, hitem⟩ := callsItem_itemsOf.mpr hcalls
    exact ⟨name, arguments, List.mem_flatMap.mpr ⟨e, he, hitem⟩⟩

theorem items_of_entry {inner inner' : List ResponsesApiItem} {item : ResponsesApiItem}
    (before after : List HistoryEntry) (h : itemsOf entry = inner ++ item :: inner') :
    historyToInjectItems (before ++ entry :: after) =
      (before.flatMap itemsOf ++ inner) ++ item :: (inner' ++ after.flatMap itemsOf) := by
  rw [historyToInjectItems, List.flatMap_append, List.flatMap_cons, h]
  simp only [List.append_assoc, List.cons_append]

/-- The items are paired exactly when the entries are. -/
theorem wellPaired_iff (h : ∀ e ∈ history, Readable e) :
    WellPaired (historyToInjectItems history) ↔ EntriesPaired history := by
  constructor
  · rintro ⟨hcalls, houtputs⟩ before entry after rfl
    have hreadable : Readable entry := h entry (by simp)
    refine ⟨fun id hid => ?_, fun id hid => ?_⟩
    · obtain ⟨name, arguments, hmem⟩ := callsItem_itemsOf.mpr hid
      obtain ⟨inner, inner', hitems⟩ := List.append_of_mem hmem
      obtain ⟨output, hout⟩ := hcalls _ _ _ _ _ (items_of_entry before after hitems)
      rcases List.mem_append.mp hout with hown | hlater
      · have hanswers : Answers entry id := by
          rw [← outputsItem_itemsOf hreadable, OutputsItem, hitems]
          exact ⟨output, by simp [hown]⟩
        exact absurd hanswers (not_answers_of_calls hid)
      · exact (outputsItem_flatMap fun e he => h e (by simp [he])).mp ⟨output, hlater⟩
    · obtain ⟨output, hmem⟩ := (outputsItem_itemsOf hreadable).mpr hid
      obtain ⟨inner, inner', hitems⟩ := List.append_of_mem hmem
      obtain ⟨name, arguments, hcall⟩ := houtputs _ _ _ _ (items_of_entry before after hitems)
      rcases List.mem_append.mp hcall with hearlier | hown
      · exact callsItem_flatMap.mp ⟨name, arguments, hearlier⟩
      · have hcalls' : Calls entry id := by
          rw [← callsItem_itemsOf, CallsItem, hitems]
          exact ⟨name, arguments, by simp [hown]⟩
        exact absurd hid (not_answers_of_calls hcalls')
  · intro hpaired
    refine ⟨fun before id name arguments after heq => ?_, fun before id output after heq => ?_⟩
    · obtain ⟨before', e, after', inner, inner', rfl, hitems, rfl, rfl⟩ := exists_of_flatMap heq
      have hcalls : Calls e id := by
        rw [← callsItem_itemsOf, hitems]
        exact ⟨name, arguments, by simp⟩
      obtain ⟨output, hout⟩ := (outputsItem_flatMap fun a ha => h a (by simp [ha])).mpr
        ((hpaired before' e after' rfl).1 id hcalls)
      exact ⟨output, List.mem_append_right _ hout⟩
    · obtain ⟨before', e, after', inner, inner', rfl, hitems, rfl, rfl⟩ := exists_of_flatMap heq
      have hanswers : Answers e id := by
        rw [← outputsItem_itemsOf (h e (by simp)), hitems]
        exact ⟨output, by simp⟩
      obtain ⟨name, arguments, hcall⟩ := callsItem_flatMap.mpr
        ((hpaired before' e after' rfl).2 id hanswers)
      exact ⟨name, arguments, List.mem_append_left _ hcall⟩

/-! ## Behind the repair -/

/-- Each call has a result in a later entry, or is one that the repair answers; and each result has
a call before it that names its function. -/
def Repairable (history : List HistoryEntry) : Prop :=
  ∀ before entry after, history = before ++ entry :: after →
    (∀ id, Calls entry id → (∃ e ∈ after, Answers e id) ∨ Orphaned history before id) ∧
      ∀ id, Answers entry id → ∃ e ∈ before, Calls e id

/-- An entry of the repaired history is one of the input's, or a result behind one. -/
theorem origin_of_repairFrom {answered : List JsText} {before' after' : List HistoryEntry}
    (h : repairFrom answered history = before' ++ entry :: after') :
    (∃ before after, history = before ++ entry :: after ∧ before' = repairFrom answered before) ∨
      ∃ before caller after inner, history = before ++ caller :: after ∧
        before' = repairFrom answered before ++ caller :: inner ∧
          entry ∈ (answerCalls (answeredAfter answered before) (toolCalls caller)).2 := by
  induction history generalizing answered before' with
  | nil => simp [repairFrom] at h
  | cons first rest ih =>
      rw [repairFrom] at h
      cases before' with
      | nil =>
          obtain ⟨rfl, rfl⟩ := List.cons_eq_cons.mp h
          exact .inl ⟨[], rest, rfl, rfl⟩
      | cons first' before' =>
          obtain ⟨rfl, htail⟩ := List.cons_eq_cons.mp h
          rcases List.append_eq_append_iff.mp htail with
            ⟨inner, rfl, hrest⟩ | ⟨inner, hresults, hrest⟩
          · rcases ih hrest with ⟨before, after, rfl, rfl⟩ |
              ⟨before, caller, after, inner', rfl, rfl, hmem⟩
            · exact .inl ⟨first :: before, after, rfl, rfl⟩
            · refine .inr ⟨first :: before, caller, after, inner', rfl, ?_, hmem⟩
              simp only [repairFrom, List.cons_append, List.append_assoc]
          · cases inner with
            | nil =>
                rw [List.append_nil] at hresults
                have hnext : repairFrom (answerCalls answered (toolCalls first)).1 rest =
                    [] ++ entry :: after' := hrest.symm
                rcases ih hnext with ⟨before, after, rfl, hbefore⟩ |
                  ⟨before, caller, after, inner', rfl, hbefore, -⟩
                · refine .inl ⟨first :: before, after, rfl, ?_⟩
                  rw [repairFrom, ← hbefore, hresults, List.append_nil]
                · simp at hbefore
            | cons e inner =>
                obtain ⟨rfl, rfl⟩ := List.cons_eq_cons.mp hrest
                exact .inr ⟨[], first, rest, before', rfl, rfl, by simp [hresults, answeredAfter]⟩

/-- The repair has nothing to add for an id that counts as answered. -/
theorem exists_answers_repairFrom_iff {answered : List JsText} (hid : id ∈ answered) :
    (∃ e ∈ repairFrom answered history, Answers e id) ↔ ∃ e ∈ history, Answers e id := by
  constructor
  · rintro ⟨e, he, hanswers⟩
    obtain ⟨before', after', heq⟩ := List.append_of_mem he
    rcases origin_of_repairFrom heq with ⟨before, after, rfl, -⟩ |
      ⟨before, caller, after, inner, -, -, hmem⟩
    · exact ⟨e, by simp, hanswers⟩
    · obtain ⟨id', name, rfl, hnot, -⟩ := (answerCalls_spec _ _).results e hmem
      have heq : id' = id :=
        Option.some_inj.mp ((answers_orphanedResult id' name).symm.trans hanswers)
      exact absurd (mem_answeredAfter.mpr (.inl (heq ▸ hid))) hnot
  · rintro ⟨e, he, hanswers⟩
    exact ⟨e, (sublist_repairFrom answered history).subset he, hanswers⟩

/-- The results of the repair make no calls. -/
theorem exists_calls_repairFrom_iff {answered : List JsText} :
    (∃ e ∈ repairFrom answered history, Calls e id) ↔ ∃ e ∈ history, Calls e id := by
  constructor
  · rintro ⟨e, he, hcalls⟩
    obtain ⟨before', after', heq⟩ := List.append_of_mem he
    obtain ⟨before, after, rfl, -, -⟩ := exists_of_repairFrom heq hcalls
    exact ⟨e, by simp, hcalls⟩
  · rintro ⟨e, he, hcalls⟩
    exact ⟨e, (sublist_repairFrom answered history).subset he, hcalls⟩

/-- A call has a result behind it in the repaired history if it had one before, or was orphaned. -/
theorem answered_iff {before after : List HistoryEntry} (hcalls : Calls entry id) :
    (∃ e ∈ (answerCalls (answeredAfter (answeredIds history) before) (toolCalls entry)).2 ++
        repairFrom (answeredAfter (answeredIds history) (before ++ [entry])) after,
      Answers e id) ↔ (∃ e ∈ after, Answers e id) ∨ Orphaned history before id := by
  have hanswered : id ∈ answeredAfter (answeredIds history) (before ++ [entry]) :=
    mem_answeredAfter.mpr (.inr ⟨entry, by simp, hcalls⟩)
  simp only [List.mem_append, or_and_right, exists_or]
  rw [results_answer_iff hcalls, exists_answers_repairFrom_iff hanswered, orphaned_iff, or_comm]

theorem repair_split {before after : List HistoryEntry}
    (h : history = before ++ entry :: after) :
    repairOrphanedToolCalls history = repairFrom (answeredIds history) before ++ entry ::
      ((answerCalls (answeredAfter (answeredIds history) before) (toolCalls entry)).2 ++
        repairFrom (answeredAfter (answeredIds history) (before ++ [entry])) after) := by
  unfold repairOrphanedToolCalls
  generalize answeredIds history = answered
  rw [h, repairFrom_append, repairFrom]
  simp only [answeredAfter, List.foldl_append, List.foldl_cons, List.foldl_nil]

theorem entriesPaired_repair_iff :
    EntriesPaired (repairOrphanedToolCalls history) ↔ Repairable history := by
  constructor
  · intro hpaired before entry after hhistory
    obtain ⟨hcalls, hanswers⟩ := hpaired _ entry _ (repair_split hhistory)
    refine ⟨fun id hid => ?_, fun id hid => ?_⟩
    · exact (answered_iff hid).mp (hcalls id hid)
    · exact exists_calls_repairFrom_iff.mp (hanswers id hid)
  · intro hrepairable before' entry after' heq
    refine ⟨fun id hid => ?_, fun id hid => ?_⟩
    · obtain ⟨before, after, hhistory, -, rfl⟩ := exists_of_repairFrom heq hid
      exact (answered_iff hid).mpr ((hrepairable before entry after hhistory).1 id hid)
    · rcases origin_of_repairFrom heq with ⟨before, after, hhistory, rfl⟩ |
        ⟨before, caller, after, inner, -, rfl, hmem⟩
      · exact exists_calls_repairFrom_iff.mpr ((hrepairable before entry after hhistory).2 id hid)
      · obtain ⟨id', name, rfl, -, hcalls⟩ := (answerCalls_spec _ _).results entry hmem
        have hsame : id' = id :=
          Option.some_inj.mp ((answers_orphanedResult id' name).symm.trans hid)
        exact ⟨caller, by simp, hsame ▸ hcalls⟩

/-! ## From the messages -/

theorem forall₂_of_mapM {α β : Type} {f : α → Option β} {l : List α} {l' : List β}
    (h : l.mapM f = some l') : List.Forall₂ (fun a b => f a = some b) l l' := by
  induction l generalizing l' with
  | nil =>
      rw [List.mapM_nil] at h
      cases h
      exact .nil
  | cons a l ih =>
      rw [List.mapM_cons] at h
      obtain ⟨b, hb, h⟩ := Option.bind_eq_some_iff.mp h
      obtain ⟨rest, hrest, h⟩ := Option.bind_eq_some_iff.mp h
      cases h
      exact .cons hb (ih hrest)

theorem hasRole_of_roleField (role : String) (fields : List (JsText × Value)) :
    hasRole (roleField role :: fields) role = true := decide_eq_true rfl

theorem readable_parseTool {e : HistoryEntry} (h : parseTool e = some entry) : Readable entry := by
  unfold parseTool at h
  split at h
  · next id _ =>
      split at h
      · cases h
      · cases h
        refine .inr (.inr ⟨id, ?_⟩)
        unfold Answers toolCallId
        rw [List.cons_append, hasRole_of_roleField]
        rfl
  · cases h

theorem readable_parseAssistant {e : HistoryEntry} (h : parseAssistant e = some entry) :
    Readable entry := by
  unfold parseAssistant at h
  refine .inr (.inl ?_)
  dsimp only at h
  split at h
  · obtain ⟨content, -, rfl⟩ := Option.map_eq_some_iff.mp h
    exact hasRole_of_roleField _ _
  · obtain ⟨content, -, rfl⟩ := Option.map_eq_some_iff.mp h
    exact hasRole_of_roleField _ _

theorem readable_of_parse {e : HistoryEntry} (h : parseHistoryEntry e = some entry) :
    Readable entry := by
  unfold parseHistoryEntry at h
  split at h
  · obtain ⟨content, -, rfl⟩ := Option.map_eq_some_iff.mp h
    exact .inl (hasRole_of_roleField _ _)
  · split at h
    · exact readable_parseAssistant h
    · split at h
      · exact readable_parseTool h
      · cases h

theorem readable_of_forall₂ {es : List HistoryEntry}
    (h : List.Forall₂ (fun e entry => parseHistoryEntry e = some entry) es history) :
    ∀ e ∈ history, Readable e := by
  induction h with
  | nil =>
      intro e he
      cases he
  | cons hparse _ ih =>
      intro e he
      rcases List.mem_cons.mp he with rfl | he
      · exact readable_of_parse hparse
      · exact ih e he

theorem readable_repair (h : ∀ e ∈ history, Readable e) :
    ∀ e ∈ repairOrphanedToolCalls history, Readable e := by
  intro e he
  obtain ⟨before', after', heq⟩ := List.append_of_mem he
  rcases origin_of_repairFrom heq with ⟨before, after, rfl, -⟩ |
    ⟨before, caller, after, inner, -, -, hmem⟩
  · exact h e (by simp)
  · obtain ⟨id, name, rfl, -⟩ := (answerCalls_spec _ _).results e hmem
    exact .inr (.inr ⟨id, answers_orphanedResult id name⟩)

/-- The items of the history are those of the earlier entries of the messages, in their order, with
more outputs between them. They are well paired if and only if the entries are repairable. -/
theorem injected_items_paired_iff {messages : List Value}
    (h : chatHistoryFromMessages messages = some history) :
    ∃ parsed, parsedHistory messages = some parsed ∧
      List.Forall₂ (fun e entry => parseHistoryEntry e = some entry) (earlierEntries messages)
        parsed ∧
      (historyToInjectItems parsed).Sublist (historyToInjectItems history) ∧
      (WellPaired (historyToInjectItems history) ↔ Repairable parsed) := by
  unfold chatHistoryFromMessages at h
  split at h
  · next entry rest hparsed =>
      cases h
      have hparse := forall₂_of_mapM hparsed
      refine ⟨entry :: rest, hparsed, hparse, ?_, ?_⟩
      · exact (sublist_repairFrom _ _).flatMap itemsOf
      · rw [wellPaired_iff (readable_repair (readable_of_forall₂ hparse)),
          entriesPaired_repair_iff]
  · cases h

def stringField (key value : String) : JsText × Value :=
  (JsText.ofAscii key, .string (JsText.ofAscii value))

/-- The assistant calls `list` as `c1`, with this in the place of the function. -/
def callMessage (fn : List (JsText × Value)) : Value :=
  .object [roleField "assistant", (JsText.ofAscii "tool_calls", .array
    [.object [stringField "id" "c1", (JsText.ofAscii "function", .object fn)]])]

def userMessage : Value := .object [roleField "user", stringField "content" "go on"]

def resultMessage : Value :=
  .object [roleField "tool", stringField "tool_call_id" "c1", stringField "content" "done"]

/-- The entry that is read from the message. -/
def callEntry (fn : List (JsText × Value)) : HistoryEntry :=
  [roleField "assistant", contentField .null, (JsText.ofAscii "tool_calls", .array
    [.object [stringField "id" "c1", (JsText.ofAscii "function", .object fn)]])]

theorem not_answers_callEntry (fn : List (JsText × Value)) : ¬ Answers (callEntry fn) id :=
  not_answers_of_not_tool (hasRole_eq_false_of_ne (hasRole_of_roleField "assistant" _) (by decide))

/-- A call that stays unanswered is answered by the repair. -/
theorem injected_items_paired_iff_example : ∃ history,
    chatHistoryFromMessages [callMessage [stringField "name" "list"], userMessage] = some history ∧
      WellPaired (historyToInjectItems history) := by
  have hhistory : ∃ history, chatHistoryFromMessages
      [callMessage [stringField "name" "list"], userMessage] = some history := ⟨_, rfl⟩
  have hread : parsedHistory [callMessage [stringField "name" "list"], userMessage] =
      some [callEntry [stringField "name" "list"]] := rfl
  obtain ⟨history, hhistory⟩ := hhistory
  obtain ⟨parsed, hparsed, -, -, hiff⟩ := injected_items_paired_iff hhistory
  rw [hread] at hparsed
  cases hparsed
  refine ⟨history, hhistory, hiff.mpr fun before entry after heq => ?_⟩
  cases before with
  | nil =>
      obtain ⟨rfl, rfl⟩ := List.cons.inj heq
      refine ⟨fun id _ => .inr ⟨fun e he => ?_, fun e he => (by cases he)⟩, fun id hanswers => ?_⟩
      · rw [List.mem_singleton.mp he]
        exact not_answers_callEntry _
      · exact absurd hanswers (not_answers_callEntry _)
  | cons first before => simp at heq

/-- Each result of the history is for an earlier call of its. -/
def AnswersEarlier (history : List HistoryEntry) : Prop :=
  ∀ before entry after, history = before ++ entry :: after → ∀ id, Answers entry id →
    ∃ e ∈ before, CallsId e id

/-- The result of a call that names no function is injected, and the call is not. -/
theorem result_of_nameless_call_unpaired :
    ¬ ∀ messages history, chatHistoryFromMessages messages = some history →
      AnswersEarlier history → WellPaired (historyToInjectItems history) := by
  intro h
  have hread : parsedHistory [callMessage [], resultMessage, userMessage] =
      some [callEntry [], [roleField "tool", stringField "tool_call_id" "c1",
        stringField "content" "done"]] := rfl
  have hhistory : chatHistoryFromMessages [callMessage [], resultMessage, userMessage] =
      some [callEntry [], [roleField "tool", stringField "tool_call_id" "c1",
        stringField "content" "done"]] := rfl
  obtain ⟨parsed, hparsed, -, -, hiff⟩ := injected_items_paired_iff hhistory
  rw [hread] at hparsed
  cases hparsed
  have hrepairable := hiff.mp (h _ _ hhistory ?_)
  · obtain ⟨e, he, call, hcall, name, husable⟩ :=
      (hrepairable [callEntry []] _ [] rfl).2 (JsText.ofAscii "c1") rfl
    rw [List.mem_singleton.mp he] at hcall
    cases List.mem_singleton.mp hcall
    cases husable
  · intro before entry after heq id hanswers
    cases before with
    | nil =>
        obtain ⟨rfl, -⟩ := List.cons.inj heq
        exact absurd hanswers (not_answers_callEntry _)
    | cons first before =>
        obtain ⟨rfl, hrest⟩ := List.cons.inj heq
        cases before with
        | nil =>
            obtain ⟨rfl, -⟩ := List.cons.inj hrest
            cases hanswers
            exact ⟨callEntry [], List.mem_cons_self, _, List.mem_singleton_self _, rfl⟩
        | cons second before => simp at hrest

end VicoopBridge.CodexHistory
