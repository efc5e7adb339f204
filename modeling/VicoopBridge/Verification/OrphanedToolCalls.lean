import Mathlib.Data.List.Basic
import VicoopBridge.Model.OpenAICompat

/-! # Calls without a result

The repair only puts results behind the entries whose calls have none, each for an id that has no
result anywhere. It works on each id by itself, and does not look at the names. -/

namespace VicoopBridge.OpenAICompat

open Library
open Library.JsonText (Value)

/-- The entry makes a call that wants a result under the id. -/
def Calls (entry : HistoryEntry) (id : JsText) : Prop :=
  ∃ call ∈ toolCalls entry, ∃ name, usableCall call = some (id, name)

/-- The entry makes some call with the id. -/
def CallsId (entry : HistoryEntry) (id : JsText) : Prop :=
  ∃ call ∈ toolCalls entry, callId call = some id

def Answers (entry : HistoryEntry) (id : JsText) : Prop := toolCallId entry = some id

/-- The id gets a result before a later entry makes a call with it again. -/
def AnsweredNext (id : JsText) (after : List HistoryEntry) : Prop :=
  ∃ between result rest, after = between ++ result :: rest ∧ Answers result id ∧
    ∀ entry ∈ between, ¬ CallsId entry id

def Paired (history : List HistoryEntry) : Prop :=
  ∀ before entry after, history = before ++ entry :: after → ∀ id, Calls entry id →
    AnsweredNext id after

/-- The id has no result anywhere, and is called for the first time. -/
def Orphaned (history before : List HistoryEntry) (id : JsText) : Prop :=
  (∀ entry ∈ history, ¬ Answers entry id) ∧ ∀ entry ∈ before, ¬ Calls entry id

/-! ## Entries -/

theorem usableCall_spec {call : Value} {id name : JsText} (h : usableCall call = some (id, name)) :
    callId call = some id ∧ id ≠ [] ∧ name ≠ [] := by
  rw [usableCall] at h
  obtain ⟨id', hid, h⟩ := Option.bind_eq_some_iff.mp h
  split at h
  · cases h
  · next hne =>
      obtain ⟨fn, -, h⟩ := Option.bind_eq_some_iff.mp h
      obtain ⟨name', -, h⟩ := Option.bind_eq_some_iff.mp h
      split at h
      · cases h
      · next hname =>
          cases h
          exact ⟨hid, hne, hname⟩

theorem Calls.callsId {entry : HistoryEntry} {id : JsText} (h : Calls entry id) :
    CallsId entry id := by
  obtain ⟨call, hcall, name, husable⟩ := h
  exact ⟨call, hcall, (usableCall_spec husable).1⟩

theorem hasRole_orphanedResult (id name : JsText) :
    hasRole (orphanedResult id name) "assistant" = false ∧
      hasRole (orphanedResult id name) "tool" = true := by
  have hrole : field (orphanedResult id name) "role" = some (.string (JsText.ofAscii "tool")) :=
    rfl
  rw [hasRole, hasRole, hrole]
  exact ⟨by decide, by decide⟩

theorem toolCalls_orphanedResult (id name : JsText) : toolCalls (orphanedResult id name) = [] := by
  rw [toolCalls, (hasRole_orphanedResult id name).1]
  rfl

theorem answers_orphanedResult (id name : JsText) : Answers (orphanedResult id name) id := by
  rw [Answers, toolCallId, if_pos (hasRole_orphanedResult id name).2]
  rfl

theorem not_callsId_orphanedResult (id name id' : JsText) :
    ¬ CallsId (orphanedResult id name) id' := by
  rintro ⟨call, hcall, -⟩
  rw [toolCalls_orphanedResult] at hcall
  cases hcall

theorem not_callsId_of_answers {entry : HistoryEntry} {id id' : JsText} (h : Answers entry id) :
    ¬ CallsId entry id' := by
  rintro ⟨call, hcall, -⟩
  rw [toolCalls] at hcall
  split at hcall
  · next hassistant =>
      rw [Answers, toolCallId] at h
      split at h
      · next htool =>
          rw [hasRole, decide_eq_true_eq] at hassistant htool
          rw [hassistant] at htool
          exact absurd htool (by decide)
      · cases h
  · cases hcall

theorem mem_answeredIds {history : List HistoryEntry} {id : JsText} :
    id ∈ answeredIds history ↔ ∃ entry ∈ history, Answers entry id := List.mem_filterMap

/-! ## The calls of one entry -/

/-- What the loop over the calls of an entry does. -/
structure CallsAnswered (answered : List JsText) (calls : List Value)
    (out : List JsText × List HistoryEntry) : Prop where
  ids : ∀ id, id ∈ out.1 ↔
    id ∈ answered ∨ ∃ call ∈ calls, ∃ name, usableCall call = some (id, name)
  results : ∀ entry ∈ out.2, ∃ id name, entry = orphanedResult id name ∧ id ∉ answered ∧
    ∃ call ∈ calls, ∃ name, usableCall call = some (id, name)
  answers : ∀ id, id ∉ answered → (∃ call ∈ calls, ∃ name, usableCall call = some (id, name)) →
    ∃ name, orphanedResult id name ∈ out.2

theorem answerCalls_spec (answered : List JsText) (calls : List Value) :
    CallsAnswered answered calls (answerCalls answered calls) := by
  induction calls generalizing answered with
  | nil =>
      refine ⟨fun id => ?_, ?_, ?_⟩
      · simp [answerCalls]
      · intro entry hentry
        cases hentry
      · rintro id - ⟨call, hcall, -⟩
        cases hcall
  | cons call calls ih =>
      rw [answerCalls]
      cases husable : usableCall call with
      | none =>
          have h := ih answered
          have hsame : ∀ id, (∃ c ∈ call :: calls, ∃ name, usableCall c = some (id, name)) ↔
              ∃ c ∈ calls, ∃ name, usableCall c = some (id, name) := by
            intro id
            simp [husable]
          refine ⟨fun id => ?_, fun entry hentry => ?_, fun id hid hcalls => ?_⟩
          · rw [hsame]
            exact h.ids id
          · obtain ⟨id, name, heq, hid, hcalls⟩ := h.results entry hentry
            exact ⟨id, name, heq, hid, (hsame id).mpr hcalls⟩
          · exact h.answers id hid ((hsame id).mp hcalls)
      | some found =>
          obtain ⟨id₀, name₀⟩ := found
          have hmore : ∀ id, (∃ c ∈ call :: calls, ∃ name, usableCall c = some (id, name)) ↔
              id = id₀ ∨ ∃ c ∈ calls, ∃ name, usableCall c = some (id, name) := by
            intro id
            simp [husable, eq_comm]
          dsimp only
          split
          · next hanswered =>
              have h := ih answered
              refine ⟨fun id => ?_, fun entry hentry => ?_, fun id hid hcalls => ?_⟩
              · rw [hmore, h.ids]
                constructor
                · rintro (hid | hid)
                  · exact .inl hid
                  · exact .inr (.inr hid)
                · rintro (hid | rfl | hid)
                  · exact .inl hid
                  · exact .inl hanswered
                  · exact .inr hid
              · obtain ⟨id, name, heq, hid, hcalls⟩ := h.results entry hentry
                exact ⟨id, name, heq, hid, (hmore id).mpr (.inr hcalls)⟩
              · rcases (hmore id).mp hcalls with rfl | hcalls
                · exact absurd hanswered hid
                · exact h.answers id hid hcalls
          · next hanswered =>
              have h := ih (answered ++ [id₀])
              refine ⟨fun id => ?_, fun entry hentry => ?_, fun id hid hcalls => ?_⟩
              · rw [hmore, h.ids, List.mem_append, List.mem_singleton, or_assoc]
              · rcases List.mem_cons.mp hentry with rfl | hentry
                · exact ⟨id₀, name₀, rfl, hanswered, (hmore id₀).mpr (.inl rfl)⟩
                · obtain ⟨id, name, heq, hid, hcalls⟩ := h.results entry hentry
                  rw [List.mem_append, not_or] at hid
                  exact ⟨id, name, heq, hid.1, (hmore id).mpr (.inr hcalls)⟩
              · by_cases heq : id = id₀
                · subst heq
                  exact ⟨name₀, List.mem_cons_self⟩
                · have hcalls := ((hmore id).mp hcalls).resolve_left heq
                  have hnew : id ∉ answered ++ [id₀] := by
                    rw [List.mem_append, List.mem_singleton, not_or]
                    exact ⟨hid, heq⟩
                  obtain ⟨name, hname⟩ := h.answers id hnew hcalls
                  exact ⟨name, List.mem_cons_of_mem _ hname⟩

/-- Only ids that have been called are answered on the way. -/
theorem answerCalls_eq_of_subset {answered : List JsText} {calls : List Value}
    (h : ∀ call ∈ calls, ∀ id name, usableCall call = some (id, name) → id ∈ answered) :
    answerCalls answered calls = (answered, []) := by
  induction calls with
  | nil => rfl
  | cons call calls ih =>
      have hrest := ih fun c hc => h c (List.mem_cons_of_mem call hc)
      rw [answerCalls]
      cases husable : usableCall call with
      | none => exact hrest
      | some found =>
          dsimp only
          rw [if_pos (h call List.mem_cons_self found.1 found.2 husable)]
          exact hrest

/-! ## The next result -/

theorem answeredNext_cons {id : JsText} {entry : HistoryEntry} {rest : List HistoryEntry} :
    AnsweredNext id (entry :: rest) ↔
      Answers entry id ∨ ¬ CallsId entry id ∧ AnsweredNext id rest := by
  constructor
  · rintro ⟨between, result, later, heq, hresult, hbetween⟩
    cases between with
    | nil =>
        cases heq
        exact .inl hresult
    | cons first between =>
        cases heq
        exact .inr ⟨hbetween _ List.mem_cons_self, between, result, later, rfl, hresult,
          fun e he => hbetween e (List.mem_cons_of_mem _ he)⟩
  · rintro (hentry | ⟨hcalls, between, result, later, rfl, hresult, hbetween⟩)
    · exact ⟨[], entry, rest, rfl, hentry, fun e he => nomatch he⟩
    · refine ⟨entry :: between, result, later, rfl, hresult, fun e he => ?_⟩
      rcases List.mem_cons.mp he with rfl | he
      · exact hcalls
      · exact hbetween e he

theorem answeredNext_append {id : JsText} {results rest : List HistoryEntry}
    (h : ∀ entry ∈ results, ¬ CallsId entry id) :
    AnsweredNext id (results ++ rest) ↔
      (∃ entry ∈ results, Answers entry id) ∨ AnsweredNext id rest := by
  induction results with
  | nil => simp
  | cons entry results ih =>
      have hcalls := h entry List.mem_cons_self
      rw [List.cons_append, answeredNext_cons, ih fun e he => h e (List.mem_cons_of_mem entry he)]
      simp only [List.exists_mem_cons_iff, hcalls, not_false_eq_true, true_and, or_assoc]

theorem AnsweredNext.exists_answers {id : JsText} {after : List HistoryEntry}
    (h : AnsweredNext id after) : ∃ entry ∈ after, Answers entry id := by
  obtain ⟨between, result, rest, rfl, hresult, -⟩ := h
  exact ⟨result, by simp, hresult⟩

/-- What the loop puts behind an entry makes no call. -/
theorem not_callsId_of_results {answered : List JsText} {calls : List Value} {entry : HistoryEntry}
    (h : entry ∈ (answerCalls answered calls).2) (id : JsText) : ¬ CallsId entry id := by
  obtain ⟨id', name, rfl, -⟩ := (answerCalls_spec answered calls).results entry h
  exact not_callsId_orphanedResult id' name id

theorem results_answer_iff {answered : List JsText} {entry : HistoryEntry} {id : JsText}
    (hcalls : Calls entry id) :
    (∃ result ∈ (answerCalls answered (toolCalls entry)).2, Answers result id) ↔
      id ∉ answered := by
  have h := answerCalls_spec answered (toolCalls entry)
  constructor
  · rintro ⟨result, hresult, hanswers⟩
    obtain ⟨id', name, rfl, hid, -⟩ := h.results result hresult
    have heq : id' = id :=
      Option.some_inj.mp ((answers_orphanedResult id' name).symm.trans hanswers)
    rwa [← heq]
  · intro hid
    obtain ⟨name, hname⟩ := h.answers id hid hcalls
    exact ⟨_, hname, answers_orphanedResult id name⟩

/-! ## All entries -/

theorem sublist_repairFrom (answered : List JsText) (history : List HistoryEntry) :
    history.Sublist (repairFrom answered history) := by
  induction history generalizing answered with
  | nil => exact List.Sublist.slnil
  | cons entry rest ih =>
      exact ((ih _).trans (List.sublist_append_right _ _)).cons_cons entry

/-- The ids that count as answered behind the entries. -/
def answeredAfter (answered : List JsText) (before : List HistoryEntry) : List JsText :=
  before.foldl (fun answered entry => (answerCalls answered (toolCalls entry)).1) answered

theorem mem_answeredAfter {answered : List JsText} {before : List HistoryEntry} {id : JsText} :
    id ∈ answeredAfter answered before ↔ id ∈ answered ∨ ∃ entry ∈ before, Calls entry id := by
  induction before generalizing answered with
  | nil => simp [answeredAfter]
  | cons entry before ih =>
      have hids := (answerCalls_spec answered (toolCalls entry)).ids id
      rw [answeredAfter, List.foldl_cons]
      refine ih.trans ?_
      rw [hids, List.exists_mem_cons_iff, or_assoc]
      rfl

theorem repairFrom_append (answered : List JsText) (before after : List HistoryEntry) :
    repairFrom answered (before ++ after) =
      repairFrom answered before ++ repairFrom (answeredAfter answered before) after := by
  induction before generalizing answered with
  | nil => rfl
  | cons entry before ih =>
      rw [List.cons_append, repairFrom, ih, repairFrom]
      simp only [List.cons_append, List.append_assoc]
      rfl

/-- Each entry that makes a call is one of the input's, with the results behind it. -/
theorem exists_of_repairFrom {answered : List JsText} {history before' after' : List HistoryEntry}
    {entry : HistoryEntry} {id : JsText}
    (h : repairFrom answered history = before' ++ entry :: after') (hcalls : Calls entry id) :
    ∃ before after, history = before ++ entry :: after ∧ before' = repairFrom answered before ∧
      after' = (answerCalls (answeredAfter answered before) (toolCalls entry)).2 ++
        repairFrom (answeredAfter answered (before ++ [entry])) after := by
  induction history generalizing answered before' with
  | nil => simp [repairFrom] at h
  | cons first rest ih =>
      rw [repairFrom] at h
      cases before' with
      | nil =>
          obtain ⟨rfl, rfl⟩ := List.cons_eq_cons.mp h
          exact ⟨[], rest, rfl, rfl, rfl⟩
      | cons first' before' =>
          obtain ⟨rfl, htail⟩ := List.cons_eq_cons.mp h
          have hlater : ∃ inner, before' = (answerCalls answered (toolCalls first)).2 ++ inner ∧
              repairFrom (answerCalls answered (toolCalls first)).1 rest =
                inner ++ entry :: after' := by
            rcases List.append_eq_append_iff.mp htail with
              ⟨inner, hbefore, hrest⟩ | ⟨inner, hresults, hrest⟩
            · exact ⟨inner, hbefore, hrest⟩
            · cases inner with
              | nil => exact ⟨[], by simpa using hresults.symm, by simpa using hrest.symm⟩
              | cons e inner =>
                  obtain ⟨rfl, -⟩ := List.cons_eq_cons.mp hrest
                  have hmem : entry ∈ (answerCalls answered (toolCalls first)).2 := by
                    rw [hresults]
                    simp
                  exact absurd hcalls.callsId (not_callsId_of_results hmem id)
          obtain ⟨inner, rfl, hinner⟩ := hlater
          obtain ⟨before, after, rfl, rfl, rfl⟩ := ih hinner
          exact ⟨first :: before, after, rfl, rfl, rfl⟩

/-- For an id that counts as answered nothing changes. -/
theorem answeredNext_repairFrom {answered : List JsText} {id : JsText} (hid : id ∈ answered)
    (history : List HistoryEntry) :
    AnsweredNext id (repairFrom answered history) ↔ AnsweredNext id history := by
  induction history generalizing answered with
  | nil => rfl
  | cons entry rest ih =>
      have hspec := answerCalls_spec answered (toolCalls entry)
      have hnone : ¬ ∃ result ∈ (answerCalls answered (toolCalls entry)).2, Answers result id := by
        rintro ⟨result, hresult, hanswers⟩
        obtain ⟨id', name, rfl, hnot, -⟩ := hspec.results result hresult
        have heq : id' = id :=
          Option.some_inj.mp ((answers_orphanedResult id' name).symm.trans hanswers)
        exact hnot (heq ▸ hid)
      rw [repairFrom, answeredNext_cons, answeredNext_cons,
        answeredNext_append fun e he => not_callsId_of_results he id,
        ih ((hspec.ids id).mpr (.inl hid))]
      simp only [hnone, false_or]

theorem orphaned_iff {history before : List HistoryEntry} {id : JsText} :
    Orphaned history before id ↔ id ∉ answeredAfter (answeredIds history) before := by
  rw [mem_answeredAfter, mem_answeredIds, Orphaned]
  push Not
  rfl

/-- Exactly the calls that had a next result, or were orphaned, have one behind the repair. -/
theorem answeredNext_iff {history before after after' : List HistoryEntry} {entry : HistoryEntry}
    {id : JsText} (hcalls : Calls entry id)
    (hafter : after' =
      (answerCalls (answeredAfter (answeredIds history) before) (toolCalls entry)).2 ++
        repairFrom (answeredAfter (answeredIds history) (before ++ [entry])) after) :
    AnsweredNext id after' ↔ AnsweredNext id after ∨ Orphaned history before id := by
  have hanswered : id ∈ answeredAfter (answeredIds history) (before ++ [entry]) :=
    mem_answeredAfter.mpr (.inr ⟨entry, by simp, hcalls⟩)
  rw [hafter, answeredNext_append fun e he => not_callsId_of_results he id,
    results_answer_iff hcalls, answeredNext_repairFrom hanswered, orphaned_iff, or_comm]

theorem repairFrom_eq_self {answered : List JsText} {history : List HistoryEntry}
    (h : ∀ entry ∈ history, ∀ id, Calls entry id → id ∈ answered) :
    repairFrom answered history = history := by
  induction history with
  | nil => rfl
  | cons entry rest ih =>
      have hnone : answerCalls answered (toolCalls entry) = (answered, []) :=
        answerCalls_eq_of_subset fun call hcall id name husable =>
          h entry List.mem_cons_self id ⟨call, hcall, name, husable⟩
      rw [repairFrom, hnone]
      exact congrArg (entry :: ·) (ih fun e he => h e (List.mem_cons_of_mem entry he))

theorem exists_answers_repairFrom {answered : List JsText} {history : List HistoryEntry}
    {entry : HistoryEntry} {id : JsText} (hentry : entry ∈ history) (hcalls : Calls entry id)
    (hid : id ∉ answered) : ∃ result ∈ repairFrom answered history, Answers result id := by
  induction history generalizing answered with
  | nil => cases hentry
  | cons first rest ih =>
      rw [repairFrom]
      by_cases hfirst : Calls first id
      · obtain ⟨result, hresult, hanswers⟩ := (results_answer_iff hfirst).mpr hid
        exact ⟨result, by simp [hresult], hanswers⟩
      · have hrest : entry ∈ rest := by
          rcases List.mem_cons.mp hentry with rfl | hrest
          · exact absurd hcalls hfirst
          · exact hrest
        have hstill : id ∉ (answerCalls answered (toolCalls first)).1 := by
          rw [(answerCalls_spec answered (toolCalls first)).ids, not_or]
          exact ⟨hid, hfirst⟩
        obtain ⟨result, hresult, hanswers⟩ := ih hrest hstill
        exact ⟨result, by simp [hresult], hanswers⟩

/-- Each call in the repaired history has a result somewhere in it. -/
theorem exists_answers_repair {history : List HistoryEntry} {entry : HistoryEntry} {id : JsText}
    (hentry : entry ∈ repairOrphanedToolCalls history) (hcalls : Calls entry id) :
    ∃ result ∈ repairOrphanedToolCalls history, Answers result id := by
  obtain ⟨before', after', heq⟩ := List.append_of_mem hentry
  obtain ⟨before, after, rfl, -, -⟩ := exists_of_repairFrom heq hcalls
  by_cases hfound : id ∈ answeredIds (before ++ entry :: after)
  · obtain ⟨result, hresult, hanswers⟩ := mem_answeredIds.mp hfound
    exact ⟨result, (sublist_repairFrom _ _).subset hresult, hanswers⟩
  · exact exists_answers_repairFrom (by simp) hcalls hfound

theorem repair_eq_self {history : List HistoryEntry}
    (h : ∀ entry ∈ history, ∀ id, Calls entry id → ∃ result ∈ history, Answers result id) :
    repairOrphanedToolCalls history = history :=
  repairFrom_eq_self fun entry hentry id hcalls => mem_answeredIds.mpr (h entry hentry id hcalls)

theorem Paired.exists_answers {history : List HistoryEntry} (h : Paired history)
    {entry : HistoryEntry} (hentry : entry ∈ history) {id : JsText} (hcalls : Calls entry id) :
    ∃ result ∈ history, Answers result id := by
  obtain ⟨before, after, rfl⟩ := List.append_of_mem hentry
  obtain ⟨result, hresult, hanswers⟩ := (h before entry after rfl id hcalls).exists_answers
  exact ⟨result, by simp [hresult], hanswers⟩

/-! ## Renaming -/

section Rename

theorem lookup_setField (key key' : JsText) (value : Value) (fields : List (JsText × Value)) :
    (setField key value fields).lookup key' =
      if key' = key then some value else fields.lookup key' := by
  induction fields with
  | nil =>
      rw [setField, List.lookup_cons]
      by_cases h : key' = key
      · simp [h]
      · simp [h, beq_false_of_ne h]
  | cons f rest ih =>
      obtain ⟨k, v⟩ := f
      rw [setField]
      split
      · next hk =>
          subst hk
          rw [List.lookup_cons, List.lookup_cons]
          by_cases h : key' = k
          · simp [h]
          · simp [h, beq_false_of_ne h]
      · next hk =>
          rw [List.lookup_cons, List.lookup_cons, ih]
          by_cases h : key' = k
          · subst h
            simp [hk]
          · simp [beq_false_of_ne h]

variable {rename : JsText → JsText}

theorem property_setField (key : String) (key' : String) (value : Value)
    (fields : List (JsText × Value)) :
    property (.object (setField (JsText.ofAscii key) value fields)) key' =
      if JsText.ofAscii key' = JsText.ofAscii key then some value
      else property (.object fields) key' :=
  lookup_setField _ _ value fields

theorem property_setField_self (key : String) (value : Value) (fields : List (JsText × Value)) :
    property (.object (setField (JsText.ofAscii key) value fields)) key = some value := by
  rw [property_setField, if_pos rfl]

theorem property_setField_of_ne {key key' : String} (h : JsText.ofAscii key' ≠ JsText.ofAscii key)
    (value : Value) (fields : List (JsText × Value)) :
    property (.object (setField (JsText.ofAscii key) value fields)) key' =
      property (.object fields) key' := by
  rw [property_setField, if_neg h]

def callName (call : Value) : Option JsText :=
  (property call "function").bind fun fn => string? (property fn "name")

theorem usableCall_eq (call : Value) :
    usableCall call = (callId call).bind fun id => if id = [] then none else
      (callName call).bind fun name => if name = [] then none else some (id, name) := by
  rw [usableCall, callName]
  cases callId call with
  | none => rfl
  | some id =>
      cases property call "function" with
      | none => rfl
      | some fn => rfl

theorem callId_requalifyCall (call : Value) : callId (requalifyCall rename call) = callId call := by
  have hkey : JsText.ofAscii "id" ≠ JsText.ofAscii "function" := by decide
  unfold requalifyCall
  split
  · split
    · rw [callId, callId, property_setField_of_ne hkey]
    · rfl
  · rfl

theorem callName_requalifyCall (call : Value) :
    callName (requalifyCall rename call) = (callName call).map rename := by
  unfold requalifyCall
  split
  · next fields fn hfunction =>
      split
      · next name hname =>
          rw [callName, callName, property_setField_self, hfunction, Option.bind_some,
            Option.bind_some, property_setField_self, hname]
          rfl
      · next hname =>
          have hnone : string? (property (.object fn) "name") = none := by
            unfold string?
            split
            · next name heq => exact absurd heq (hname name)
            · rfl
          rw [callName, hfunction, Option.bind_some, hnone]
          rfl
  · next call _ _ hfunction =>
      have hnone : callName call = none := by
        rw [callName]
        cases hfn : property call "function" with
        | none => rfl
        | some fn =>
            cases call with
            | object fields =>
                cases fn with
                | object fn => exact absurd hfn (hfunction fields fn rfl)
                | _ => rfl
            | _ => cases hfn
      rw [hnone]
      rfl

theorem usableCall_requalifyCall (hnames : ∀ name, name ≠ [] → rename name ≠ [])
    (hempty : rename [] = []) (call : Value) :
    usableCall (requalifyCall rename call) =
      (usableCall call).map fun found => (found.1, rename found.2) := by
  rw [usableCall_eq, usableCall_eq, callId_requalifyCall, callName_requalifyCall]
  cases callId call with
  | none => rfl
  | some id =>
      cases callName call with
      | none =>
          simp only [Option.bind_some, Option.map_none, Option.bind_none]
          split <;> rfl
      | some name =>
          simp only [Option.bind_some, Option.map_some]
          by_cases hid : id = []
          · rw [if_pos hid, if_pos hid]
            rfl
          · by_cases hname : name = []
            · rw [if_neg hid, if_neg hid, hname, hempty, if_pos rfl]
              rfl
            · rw [if_neg hid, if_neg hid, if_neg hname, if_neg (hnames name hname)]
              rfl

theorem hasRole_setField {key : String} (h : JsText.ofAscii "role" ≠ JsText.ofAscii key)
    (value : Value) (entry : HistoryEntry) (role : String) :
    hasRole (setField (JsText.ofAscii key) value entry) role = hasRole entry role := by
  rw [hasRole, hasRole, field, property_setField_of_ne h]
  rfl

theorem hasRole_requalifyEntry (entry : HistoryEntry) (role : String) :
    hasRole (requalifyEntry rename entry) role = hasRole entry role := by
  have hcalls : JsText.ofAscii "role" ≠ JsText.ofAscii "tool_calls" := by decide
  have hname : JsText.ofAscii "role" ≠ JsText.ofAscii "name" := by decide
  rw [requalifyEntry]
  repeat' split
  · exact hasRole_setField hcalls _ entry role
  · rfl
  · exact hasRole_setField hname _ entry role
  · rfl
  · rfl

theorem toolCalls_requalifyEntry (entry : HistoryEntry) :
    toolCalls (requalifyEntry rename entry) = (toolCalls entry).map (requalifyCall rename) := by
  rw [toolCalls, hasRole_requalifyEntry, toolCalls]
  split
  · next hassistant =>
      rw [requalifyEntry, if_pos hassistant]
      cases hcalls : field entry "tool_calls" with
      | none =>
          dsimp only
          rw [hcalls]
          rfl
      | some value =>
          cases value with
          | array calls =>
              dsimp only
              rw [field, property_setField_self]
          | _ =>
              dsimp only
              rw [hcalls]
              rfl
  · rfl

theorem not_tool_of_assistant {entry : HistoryEntry} (h : hasRole entry "assistant" = true) :
    hasRole entry "tool" = false := by
  rw [hasRole, decide_eq_true_eq] at h
  rw [hasRole, h]
  decide

theorem toolCallId_requalifyEntry (entry : HistoryEntry) :
    toolCallId (requalifyEntry rename entry) = toolCallId entry := by
  have hkey : JsText.ofAscii "tool_call_id" ≠ JsText.ofAscii "name" := by decide
  rw [toolCallId, hasRole_requalifyEntry, toolCallId]
  split
  · next htool =>
      have hassistant : ¬ hasRole entry "assistant" = true := by
        intro h
        rw [not_tool_of_assistant h] at htool
        cases htool
      rw [requalifyEntry, if_neg hassistant, if_pos htool]
      split
      · rw [field, property_setField_of_ne hkey]
        rfl
      · rfl
  · rfl

theorem requalifyEntry_orphanedResult (id name : JsText) :
    requalifyEntry rename (orphanedResult id name) = orphanedResult id (rename name) := by
  obtain ⟨hassistant, htool⟩ := hasRole_orphanedResult id name
  have hname : field (orphanedResult id name) "name" = some (.string name) := rfl
  rw [requalifyEntry, hassistant, htool, hname]
  rfl

theorem answeredIds_requalify (history : List HistoryEntry) :
    answeredIds (requalifyHistoryToolNames history rename) = answeredIds history := by
  rw [answeredIds, requalifyHistoryToolNames, List.filterMap_map]
  exact List.filterMap_congr fun entry _ => toolCallId_requalifyEntry entry

theorem answerCalls_requalify (hnames : ∀ name, name ≠ [] → rename name ≠ [])
    (hempty : rename [] = []) (answered : List JsText) (calls : List Value) :
    answerCalls answered (calls.map (requalifyCall rename)) =
      ((answerCalls answered calls).1,
        (answerCalls answered calls).2.map (requalifyEntry rename)) := by
  induction calls generalizing answered with
  | nil => rfl
  | cons call calls ih =>
      rw [List.map_cons, answerCalls, usableCall_requalifyCall hnames hempty, answerCalls]
      cases usableCall call with
      | none => exact ih answered
      | some found =>
          dsimp only [Option.map_some]
          by_cases hid : found.1 ∈ answered
          · rw [if_pos hid, if_pos hid]
            exact ih answered
          · rw [if_neg hid, if_neg hid, ih]
            dsimp only
            rw [List.map_cons, requalifyEntry_orphanedResult]

theorem repairFrom_requalify (hnames : ∀ name, name ≠ [] → rename name ≠ [])
    (hempty : rename [] = []) (answered : List JsText) (history : List HistoryEntry) :
    repairFrom answered (requalifyHistoryToolNames history rename) =
      requalifyHistoryToolNames (repairFrom answered history) rename := by
  induction history generalizing answered with
  | nil => rfl
  | cons entry rest ih =>
      have hcons : requalifyHistoryToolNames (entry :: rest) rename =
          requalifyEntry rename entry :: requalifyHistoryToolNames rest rename := rfl
      rw [hcons, repairFrom, toolCalls_requalifyEntry, answerCalls_requalify hnames hempty]
      dsimp only
      rw [ih, repairFrom, requalifyHistoryToolNames, requalifyHistoryToolNames, List.map_cons,
        List.map_append]

theorem repair_requalify (hnames : ∀ name, name ≠ [] → rename name ≠ [])
    (hempty : rename [] = []) (history : List HistoryEntry) :
    repairOrphanedToolCalls (requalifyHistoryToolNames history rename) =
      requalifyHistoryToolNames (repairOrphanedToolCalls history) rename := by
  rw [repairOrphanedToolCalls, answeredIds_requalify]
  exact repairFrom_requalify hnames hempty _ history

end Rename

/-! ## The repair -/

theorem repairOrphanedToolCalls_spec (history : List HistoryEntry) :
    history.Sublist (repairOrphanedToolCalls history) ∧
      (∀ before' entry after', repairOrphanedToolCalls history = before' ++ entry :: after' →
        ∀ id, Calls entry id → ∃ before after, history = before ++ entry :: after ∧
          before' = repairFrom (answeredIds history) before ∧
          (AnsweredNext id after ∨ Orphaned history before id → AnsweredNext id after')) ∧
      (∀ entry ∈ repairOrphanedToolCalls history, ∀ id, Calls entry id →
        ∃ result ∈ repairOrphanedToolCalls history, Answers result id) ∧
      (Paired history → repairOrphanedToolCalls history = history) ∧
      repairOrphanedToolCalls (repairOrphanedToolCalls history) =
        repairOrphanedToolCalls history ∧
      ∀ rename : JsText → JsText, (∀ name, name ≠ [] → rename name ≠ []) → rename [] = [] →
        repairOrphanedToolCalls (requalifyHistoryToolNames history rename) =
          requalifyHistoryToolNames (repairOrphanedToolCalls history) rename := by
  refine ⟨sublist_repairFrom _ history, fun before' entry after' heq id hcalls => ?_,
    fun entry hentry id hcalls => exists_answers_repair hentry hcalls, fun h => ?_, ?_,
    fun rename hnames hempty => repair_requalify hnames hempty history⟩
  · obtain ⟨before, after, hhistory, hbefore, hafter⟩ := exists_of_repairFrom heq hcalls
    exact ⟨before, after, hhistory, hbefore, (answeredNext_iff hcalls hafter).mpr⟩
  · exact repair_eq_self fun entry hentry id hcalls => h.exists_answers hentry hcalls
  · exact repair_eq_self fun entry hentry id hcalls => exists_answers_repair hentry hcalls

def callSample (id name : String) : Value :=
  .object [(JsText.ofAscii "id", .string (JsText.ofAscii id)),
    (JsText.ofAscii "function",
      .object [(JsText.ofAscii "name", .string (JsText.ofAscii name))])]

def callingEntry (call : Value) : HistoryEntry :=
  [(JsText.ofAscii "role", .string (JsText.ofAscii "assistant")), (JsText.ofAscii "content", .null),
    (JsText.ofAscii "tool_calls", .array [call])]

def firstCall : HistoryEntry := callingEntry (callSample "call_0" "read")

def firstResult : HistoryEntry :=
  [(JsText.ofAscii "role", .string (JsText.ofAscii "tool")),
    (JsText.ofAscii "tool_call_id", .string (JsText.ofAscii "call_0")),
    (JsText.ofAscii "content", .string (JsText.ofAscii "done"))]

theorem calls_firstCall : Calls firstCall (JsText.ofAscii "call_0") :=
  ⟨callSample "call_0" "read", List.mem_cons_self, JsText.ofAscii "read", by rfl⟩

def qualified (name : JsText) : JsText := if name = [] then [] else JsText.ofAscii "mcp_" ++ name

theorem repairOrphanedToolCalls_spec_single :
    repairOrphanedToolCalls [firstCall] =
        [firstCall, orphanedResult (JsText.ofAscii "call_0") (JsText.ofAscii "read")] ∧
      repairOrphanedToolCalls (requalifyHistoryToolNames [firstCall] qualified) =
        requalifyHistoryToolNames (repairOrphanedToolCalls [firstCall]) qualified := by
  refine ⟨by rfl, (repairOrphanedToolCalls_spec [firstCall]).2.2.2.2.2 qualified ?_ (if_pos rfl)⟩
  intro name hname
  rw [qualified, if_neg hname]
  simp [JsText.ofAscii]

/-- The id of a call is used again, and the second call stays without a result. A name for what has
none makes a call that has been left out one that wants a result. -/
theorem repairOrphanedToolCalls_fails :
    ¬ Paired (repairOrphanedToolCalls [firstCall, firstResult, firstCall]) ∧
      (∀ name : JsText, name ≠ [] → JsText.ofAscii "mcp_" ++ name ≠ []) ∧
      repairOrphanedToolCalls (requalifyHistoryToolNames
          [callingEntry (callSample "call_0" "")] (JsText.ofAscii "mcp_" ++ ·)) ≠
        requalifyHistoryToolNames (repairOrphanedToolCalls
          [callingEntry (callSample "call_0" "")]) (JsText.ofAscii "mcp_" ++ ·) := by
  have hsame : repairOrphanedToolCalls [firstCall, firstResult, firstCall] =
      [firstCall, firstResult, firstCall] := by rfl
  refine ⟨fun h => ?_, fun name _ => by simp [JsText.ofAscii], fun h => ?_⟩
  · rw [hsame] at h
    obtain ⟨result, hresult, -⟩ :=
      (h [firstCall, firstResult] firstCall [] rfl _ calls_firstCall).exists_answers
    cases hresult
  · exact absurd (congrArg List.length h) (by decide +kernel)

end VicoopBridge.OpenAICompat
