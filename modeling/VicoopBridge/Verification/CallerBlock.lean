import VicoopBridge.Verification.CallerSessionKey

/-! # What the block of a caller's context says

No text of a caller gets out of its line, and none looks like a tag. The marker is gone from every
other text, in whatever letters it was written. -/

namespace VicoopBridge.CallerBlock

open Library
open Library.JsonText (Value)

/-! ## The fixed texts -/

theorem ofAscii_ofList (cs : List Char) :
    JsText.ofAscii (String.ofList cs) = cs.map fun c => UInt16.ofNat c.toNat := by
  rw [JsText.ofAscii, String.toList_ofList]

theorem ofAscii_append (s t : String) :
    JsText.ofAscii (s ++ t) = JsText.ofAscii s ++ JsText.ofAscii t := by
  rw [JsText.ofAscii, String.toList_append, List.map_append]
  rfl

def lessThan : UInt16 := 0x3C

/-- Neither ends a line nor opens a tag, and begins as said. -/
structure Plain (first : UInt16) (text : JsText) : Prop where
  newline : newline ∉ text
  lessThan : lessThan ∉ text
  head : text.head? = some first

instance (first : UInt16) (text : JsText) : Decidable (Plain first text) :=
  decidable_of_iff (CallerBlock.newline ∉ text ∧ CallerBlock.lessThan ∉ text ∧
      text.head? = some first)
    ⟨fun h => ⟨h.1, h.2.1, h.2.2⟩, fun h => ⟨h.newline, h.lessThan, h.head⟩⟩

theorem plain_header : Plain 0x54 header := by
  rw [header, ofAscii_ofList]
  decide +kernel

theorem plain_footer : Plain 0x4F footer := by
  rw [footer, ofAscii_append, ofAscii_append, ofAscii_ofList, ofAscii_ofList, ofAscii_ofList]
  decide +kernel

theorem plain_introduction : Plain 0x54 payloadIntroduction := by
  rw [payloadIntroduction, ofAscii_append, ofAscii_ofList, ofAscii_ofList]
  decide +kernel

/-! ## Markers -/

/-- The marker stands somewhere in the text, in any case of its letters. -/
def HasMarker (text : JsText) : Prop := reservedContextMarker <:+: text.map lower

theorem startsWithMarker_iff (text : JsText) :
    startsWithMarker text = true ↔ reservedContextMarker <+: text.map lower := by
  rw [startsWithMarker, decide_eq_true_eq, List.map_take, List.prefix_iff_eq_take, eq_comm]

theorem neutralizeFrom_eq_drop (skip : ℕ) (text : JsText) :
    neutralizeFrom skip text = neutralizeFrom 0 (text.drop skip) := by
  induction skip generalizing text with
  | zero => rfl
  | succ skip ih =>
      cases text with
      | nil => rfl
      | cons u rest => exact ih rest

theorem neutralize_cons (u : UInt16) (rest : JsText) :
    neutralizeCallerContextMarkers (u :: rest) =
      if startsWithMarker (u :: rest) then
        neutralizedContextMarker ++
          neutralizeCallerContextMarkers (rest.drop (reservedContextMarker.length - 1))
      else u :: neutralizeCallerContextMarkers rest := by
  rw [neutralizeCallerContextMarkers, neutralizeFrom, neutralizeFrom_eq_drop]
  rfl

/-- A spelling of the marker makes way for the other text, and all else stays. -/
inductive Neutralized : JsText → JsText → Prop
  | nil : Neutralized [] []
  | keep {s t : JsText} (u : UInt16) (h : Neutralized s t) : Neutralized (u :: s) (u :: t)
  | claim {s t spelling : JsText} (hspelling : spelling.map lower = reservedContextMarker)
      (h : Neutralized s t) : Neutralized (spelling ++ s) (neutralizedContextMarker ++ t)

theorem neutralized_neutralize (text : JsText) :
    Neutralized text (neutralizeCallerContextMarkers text) := by
  induction hlength : text.length using Nat.strong_induction_on generalizing text with
  | _ n ih =>
      cases text with
      | nil => exact .nil
      | cons u rest =>
          rw [List.length_cons] at hlength
          rw [neutralize_cons]
          split
          · next hmarker =>
              have hrest := ih _ (by rw [List.length_drop]; omega)
                (rest.drop (reservedContextMarker.length - 1)) rfl
              rw [startsWithMarker, decide_eq_true_eq] at hmarker
              have hsplit : u :: rest = (u :: rest).take reservedContextMarker.length ++
                  rest.drop (reservedContextMarker.length - 1) :=
                (List.take_append_drop reservedContextMarker.length (u :: rest)).symm
              conv => lhs; rw [hsplit]
              exact .claim hmarker hrest
          · exact .keep u (ih _ (by omega) rest rfl)

/-- No end of the marker begins the text that takes its place. -/
theorem not_start_neutralized : ∀ d < reservedContextMarker.length,
    ¬ reservedContextMarker.drop d <+: neutralizedContextMarker := by
  rw [neutralizedContextMarker, ofAscii_ofList, reservedContextMarker, ofAscii_ofList]
  decide +kernel

/-- Neither is the other text, from anywhere on, the beginning of the marker, nor the other way. -/
theorem not_comparable_drop : ∀ d < neutralizedContextMarker.length,
    ¬ reservedContextMarker <+: neutralizedContextMarker.drop d ∧
      ¬ neutralizedContextMarker.drop d <+: reservedContextMarker := by
  rw [neutralizedContextMarker, ofAscii_ofList, reservedContextMarker, ofAscii_ofList]
  decide +kernel

theorem map_lower_neutralized : neutralizedContextMarker.map lower = neutralizedContextMarker := by
  rw [neutralizedContextMarker, ofAscii_ofList]
  decide +kernel

/-- What begins like an end of the marker has done so before. -/
theorem marker_drop_start {d : ℕ} (hd : 0 < d) (text : JsText)
    (h : reservedContextMarker.drop d <+: (neutralizeCallerContextMarkers text).map lower) :
    reservedContextMarker.drop d <+: text.map lower := by
  induction text generalizing d with
  | nil => exact h
  | cons u rest ih =>
      by_cases hlt : d < reservedContextMarker.length
      · rw [neutralize_cons] at h
        split at h
        · rw [List.map_append, map_lower_neutralized] at h
          have hlong : (reservedContextMarker.drop d).length ≤ neutralizedContextMarker.length := by
            rw [List.length_drop]
            have hmarkers : reservedContextMarker.length ≤ neutralizedContextMarker.length := by
              decide
            omega
          have hprefix := List.prefix_of_prefix_length_le h (List.prefix_append _ _) hlong
          exact absurd hprefix (not_start_neutralized d hlt)
        · rw [List.drop_eq_getElem_cons hlt, List.map_cons, List.cons_prefix_cons] at h ⊢
          exact ⟨h.1, ih (Nat.succ_pos d) h.2⟩
      · rw [List.drop_eq_nil_of_le (Nat.le_of_not_lt hlt)]
        exact List.nil_prefix

theorem not_start_neutralize (text : JsText) {d : ℕ}
    (h : reservedContextMarker <+: ((neutralizeCallerContextMarkers text).drop d).map lower) :
    False := by
  induction hlength : text.length using Nat.strong_induction_on generalizing text d with
  | _ n ih =>
      cases text with
      | nil =>
          rw [show neutralizeCallerContextMarkers [] = [] from rfl, List.drop_nil] at h
          exact absurd h (by decide)
      | cons u rest =>
          rw [List.length_cons] at hlength
          rw [neutralize_cons] at h
          split at h
          · by_cases hd : d < neutralizedContextMarker.length
            · rw [List.drop_append_of_le_length (Nat.le_of_lt hd), List.map_append,
                List.map_drop, map_lower_neutralized] at h
              rcases List.prefix_or_prefix_of_prefix h (List.prefix_append _ _) with hp | hp
              · exact (not_comparable_drop d hd).1 hp
              · exact (not_comparable_drop d hd).2 hp
            · rw [List.drop_append, List.drop_eq_nil_of_le (Nat.le_of_not_lt hd),
                List.nil_append] at h
              exact ih _ (by rw [List.length_drop]; omega) _ h rfl
          · next hmarker =>
              cases d with
              | succ d => exact ih _ (by omega) rest h rfl
              | zero =>
                  rw [List.drop_zero, List.map_cons] at h
                  have hmarkerCons : reservedContextMarker =
                      reservedContextMarker.head (by decide) :: reservedContextMarker.drop 1 := by
                    decide
                  rw [hmarkerCons, List.cons_prefix_cons] at h
                  refine hmarker ((startsWithMarker_iff _).mpr ?_)
                  rw [hmarkerCons, List.map_cons, List.cons_prefix_cons]
                  exact ⟨h.1, marker_drop_start Nat.one_pos rest h.2⟩

theorem not_hasMarker_neutralize (text : JsText) :
    ¬ HasMarker (neutralizeCallerContextMarkers text) := by
  rintro ⟨before, after, heq⟩
  rw [List.append_assoc] at heq
  refine not_start_neutralize text (d := before.length) ?_
  rw [List.map_drop, ← heq, List.drop_left]
  exact List.prefix_append _ _

theorem neutralize_eq_self {text : JsText} (h : ¬ HasMarker text) :
    neutralizeCallerContextMarkers text = text := by
  induction text with
  | nil => rfl
  | cons u rest ih =>
      have hstart : ¬ startsWithMarker (u :: rest) = true := fun hmarker =>
        h ((startsWithMarker_iff _).mp hmarker).isInfix
      have hrest : ¬ HasMarker rest := fun hmarker => h (List.infix_cons hmarker)
      rw [neutralize_cons, if_neg hstart, ih hrest]

/-! ## JSON inside the block -/

theorem foreign_isHtmlUnit : JsonText.Foreign isHtmlUnit :=
  JsonText.foreign_of_all (by decide +kernel)

theorem parse_safeJson {value : Value} (h : value.numberless = true) :
    JsonText.parse (safeJson value) = some value :=
  JsonText.parse_escapeSpecial_compact foreign_isHtmlUnit h

theorem lessThan_not_mem_safeJson (value : Value) : lessThan ∉ safeJson value :=
  JsonText.not_mem_escapeSpecial foreign_isHtmlUnit (by decide) _

theorem newline_not_mem_safeJson (value : Value) : newline ∉ safeJson value :=
  JsonText.not_mem_escapeSpecial_of_not_mem (by decide) (JsonText.lineFeed_not_mem_compact value)

theorem numberless_attestation (a : AttestationV2) : a.json.numberless = true := by
  have hplatform : ∀ fields ∈ a.platform.map Platform.fields,
      JsonText.numberlessFields fields = true := by
    intro fields hfields
    obtain ⟨p, -, rfl⟩ := Option.mem_map.mp hfields
    exact numberlessFields_platform p
  have htarget : ∀ fields ∈ a.observedTarget.map (stringField "target"),
      JsonText.numberlessFields fields = true := by
    intro fields hfields
    obtain ⟨target, -, rfl⟩ := Option.mem_map.mp hfields
    exact numberlessFields_stringField "target" target
  have hprofile : ∀ fields ∈ a.profile.map fun p =>
      stringField "displayName" p.displayName ++ stringField "username" p.username,
      JsonText.numberlessFields fields = true := by
    intro fields hfields
    obtain ⟨p, -, rfl⟩ := Option.mem_map.mp hfields
    rw [numberlessFields_append, numberlessFields_stringField, numberlessFields_stringField]
    rfl
  rw [AttestationV2.json, Value.numberless]
  simp only [numberlessFields_append, numberlessFields_stringField,
    numberlessFields_objectField hplatform, numberlessFields_objectField htarget,
    numberlessFields_objectField hprofile, Bool.and_self]

theorem numberless_attestationsJson (attestations : List AttestationV2) :
    (attestationsJson attestations).numberless = true := by
  rw [attestationsJson, Value.numberless, numberlessItems_iff]
  intro item hitem
  obtain ⟨a, -, rfl⟩ := List.mem_map.mp hitem
  exact numberless_attestation a

/-! ## The lines -/

def payloadLine (userMessage : JsText) : JsText :=
  JsText.ofAscii "User payload: " ++ safeJson (.string userMessage)

/-- The lines of a wrapped message. -/
def wrappedLines (canonical : CanonicalCallerContext) (userMessage : JsText) : List JsText :=
  [openingTag] ++ contextLines canonical ++
    [closingTag, [], payloadIntroduction, payloadLine userMessage]

theorem intercalate_wrapped {lines : List JsText} (hlines : lines ≠ [])
    (opening closing introduction payload : JsText) :
    [newline].intercalate ([opening] ++ lines ++ [closing, [], introduction, payload]) =
      opening ++ [newline] ++ [newline].intercalate lines ++ [newline] ++ closing ++
        [newline, newline] ++ introduction ++ [newline] ++ payload := by
  rw [List.append_assoc [opening], JsonText.intercalate_append (List.cons_ne_nil _ _) (by simp),
    JsonText.intercalate_append hlines (by simp)]
  simp only [List.intercalate_cons_cons, List.intercalate_singleton, List.append_assoc,
    List.nil_append, List.cons_append]

theorem wrap_eq_intercalate {caller : Option WireContext} {canonical : CanonicalCallerContext}
    (h : normalizeCallerContext caller = some canonical) (userMessage : JsText) :
    wrapUserMessageWithCallerContext userMessage caller =
      [newline].intercalate (wrappedLines canonical userMessage) := by
  have hlines : contextLines canonical ≠ [] := by simp [contextLines]
  have hrendered : renderCallerContext caller = some (openingTag ++ [newline] ++
      [newline].intercalate (contextLines canonical) ++ [newline] ++ closingTag) := by
    rw [renderCallerContext, h, Option.map_some]
  rw [wrappedLines, intercalate_wrapped hlines, wrapUserMessageWithCallerContext, hrendered,
    payloadLine]
  simp only [List.append_assoc]

theorem newline_not_mem_lines (canonical : CanonicalCallerContext) (userMessage : JsText) :
    ∀ line ∈ wrappedLines canonical userMessage, newline ∉ line := by
  have hlabel : ∀ (label : JsText) (value : Value), newline ∉ label →
      newline ∉ label ++ safeJson value := by
    intro label value hlabel hmem
    rcases List.mem_append.mp hmem with hmem | hmem
    · exact hlabel hmem
    · exact newline_not_mem_safeJson value hmem
  intro line hline
  simp only [wrappedLines, contextLines, List.mem_append, List.mem_cons, List.not_mem_nil,
    or_false, Option.mem_toList, Option.map_eq_some_iff] at hline
  rcases hline with (h | (((h | ⟨id, -, h⟩) | ⟨id, -, h⟩) | ⟨as, -, h⟩) | h) | h | h | h | h
  · rw [h]; decide
  · rw [h]; exact plain_header.newline
  · rw [← h]; exact hlabel _ _ (by decide)
  · rw [← h]; exact hlabel _ _ (by decide)
  · rw [← h]; exact hlabel _ _ (by decide)
  · rw [h]; exact plain_footer.newline
  · rw [h]; decide
  · rw [h]; decide
  · rw [h]; exact plain_introduction.newline
  · rw [h]; exact hlabel _ _ (by decide)

theorem splitOn_wrap {caller : Option WireContext} {canonical : CanonicalCallerContext}
    (h : normalizeCallerContext caller = some canonical) (userMessage : JsText) :
    (wrapUserMessageWithCallerContext userMessage caller).splitOn newline =
      wrappedLines canonical userMessage := by
  rw [wrap_eq_intercalate h]
  exact List.splitOn_intercalate newline (newline_not_mem_lines canonical userMessage)
    (by simp [wrappedLines])

/-! ## What the lines say -/

/-- The value behind the label, in a line that begins with it. -/
def decodeLine (label line : JsText) : Option Value :=
  if label <+: line then JsonText.parse (line.drop label.length) else none

/-- The values behind the label in all lines of the text. -/
def decoded (label : String) (text : JsText) : List Value :=
  (text.splitOn newline).filterMap (decodeLine (JsText.ofAscii label))

theorem decodeLine_label (label : JsText) {value : Value} (h : value.numberless = true) :
    decodeLine label (label ++ safeJson value) = some value := by
  rw [decodeLine, if_pos (List.prefix_append _ _), List.drop_left, parse_safeJson h]

theorem decodeLine_eq_none {label line : JsText} (h : ¬ label <+: line) :
    decodeLine label line = none := if_neg h

/-- Neither label begins the other. -/
def Distinct (label other : String) : Prop :=
  ¬ JsText.ofAscii label <+: JsText.ofAscii other ∧ ¬ JsText.ofAscii other <+: JsText.ofAscii label

instance (label other : String) : Decidable (Distinct label other) :=
  inferInstanceAs (Decidable (_ ∧ _))

/-- A line with another label. -/
theorem decodeLine_other {label other : String} (h : Distinct label other) (value : Value) :
    decodeLine (JsText.ofAscii label) (JsText.ofAscii other ++ safeJson value) = none := by
  refine decodeLine_eq_none fun hprefix => ?_
  rcases List.prefix_or_prefix_of_prefix hprefix (List.prefix_append _ _) with hp | hp
  · exact h.1 hp
  · exact h.2 hp

theorem filterMap_toList {α β γ : Type} (f : β → Option γ) (g : α → β) (o : Option α) :
    (o.map g).toList.filterMap f = (o.bind fun a => f (g a)).toList := by
  cases o with
  | none => rfl
  | some a =>
      rw [Option.map_some, Option.toList_some, Option.bind_some]
      cases h : f (g a) with
      | none => exact List.filterMap_cons_none h
      | some c => exact List.filterMap_cons_some h

theorem not_start_of_head {first u : UInt16} {label line : JsText} (h : label.head? = some u)
    (hline : line.head? = some first) (hne : u ≠ first) : ¬ label <+: line := by
  rintro ⟨rest, rfl⟩
  cases label with
  | nil => exact nomatch h
  | cons v label => exact hne (Option.some.inj (h.symm.trans hline))

/-- The lines without a label say nothing, whatever is looked for. -/
theorem filterMap_wrappedLines {label : JsText} {u : UInt16} (h : label.head? = some u)
    (hu : u ∉ [0x3C, 0x54, 0x4F])
    (canonical : CanonicalCallerContext) (userMessage : JsText) :
    (wrappedLines canonical userMessage).filterMap (decodeLine label) =
      (canonical.principal.bind fun id =>
          decodeLine label (JsText.ofAscii "Principal: " ++ safeJson (.string id))).toList ++
        (canonical.actor.bind fun id =>
          decodeLine label (JsText.ofAscii "Actor: " ++ safeJson (.string id))).toList ++
        (canonical.attestations.bind fun attestations => decodeLine label
          (JsText.ofAscii "Attestations: " ++ safeJson (attestationsJson attestations))).toList ++
        (decodeLine label (payloadLine userMessage)).toList := by
  simp only [List.mem_cons, List.not_mem_nil, or_false, not_or] at hu
  obtain ⟨hangle, hthis, honly⟩ := hu
  have hopening : ¬ label <+: openingTag :=
    not_start_of_head h (show openingTag.head? = some 0x3C by decide) hangle
  have hclosing : ¬ label <+: closingTag :=
    not_start_of_head h (show closingTag.head? = some 0x3C by decide) hangle
  have hheader : ¬ label <+: header := not_start_of_head h plain_header.head hthis
  have hfooter : ¬ label <+: footer := not_start_of_head h plain_footer.head honly
  have hintroduction : ¬ label <+: payloadIntroduction :=
    not_start_of_head h plain_introduction.head hthis
  have hempty : ¬ label <+: [] := by
    intro hnil
    rw [List.prefix_nil.mp hnil] at h
    cases h
  have hone : ∀ line : JsText, [line].filterMap (decodeLine label) =
      (decodeLine label line).toList := by
    intro line
    cases hline : decodeLine label line with
    | none => exact List.filterMap_cons_none hline
    | some value => exact List.filterMap_cons_some hline
  rw [wrappedLines, contextLines]
  simp only [List.filterMap_append, filterMap_toList, hone, decodeLine_eq_none hopening,
    decodeLine_eq_none hheader, decodeLine_eq_none hfooter,
    List.filterMap_cons_none (decodeLine_eq_none hclosing),
    List.filterMap_cons_none (decodeLine_eq_none hempty),
    List.filterMap_cons_none (decodeLine_eq_none hintroduction), Option.toList_none,
    List.nil_append, List.append_nil]

theorem numberless_string (s : JsText) : (Value.string s).numberless = true := rfl

/-- The lines decode to the values they were made of. -/
theorem decoded_wrap {caller : Option WireContext} {canonical : CanonicalCallerContext}
    (h : normalizeCallerContext caller = some canonical) (userMessage : JsText) :
    decoded "Principal: " (wrapUserMessageWithCallerContext userMessage caller) =
        (canonical.principal.map Value.string).toList ∧
      decoded "Actor: " (wrapUserMessageWithCallerContext userMessage caller) =
        (canonical.actor.map Value.string).toList ∧
      decoded "Attestations: " (wrapUserMessageWithCallerContext userMessage caller) =
        (canonical.attestations.map attestationsJson).toList ∧
      decoded "User payload: " (wrapUserMessageWithCallerContext userMessage caller) =
        [.string userMessage] := by
  have hnone : ∀ {γ : Type} (o : Option γ), (o.bind fun _ => (none : Option Value)) = none := by
    intro γ o
    cases o <;> rfl
  have hsome : ∀ {γ : Type} (o : Option γ) (g : γ → Value),
      (o.bind fun a => some (g a)) = o.map g := fun o g => Option.map_eq_bind.symm
  have hlabels : ∀ label ∈ ["Principal: ", "Actor: ", "Attestations: ", "User payload: "],
      ∀ other ∈ ["Principal: ", "Actor: ", "Attestations: ", "User payload: "],
        label ≠ other → Distinct label other := by decide +kernel
  simp only [decoded, splitOn_wrap h]
  refine ⟨?_, ?_, ?_, ?_⟩
  · have hother := hlabels "Principal: " (by decide)
    rw [filterMap_wrappedLines rfl (by decide), payloadLine]
    simp only [decodeLine_label _ (numberless_string _),
      decodeLine_other (hother "Actor: " (by decide) (by decide)),
      decodeLine_other (hother "Attestations: " (by decide) (by decide)),
      decodeLine_other (hother "User payload: " (by decide) (by decide)),
      hnone, hsome, Option.toList_none, List.append_nil]
  · have hother := hlabels "Actor: " (by decide)
    rw [filterMap_wrappedLines rfl (by decide), payloadLine]
    simp only [decodeLine_label _ (numberless_string _),
      decodeLine_other (hother "Principal: " (by decide) (by decide)),
      decodeLine_other (hother "Attestations: " (by decide) (by decide)),
      decodeLine_other (hother "User payload: " (by decide) (by decide)),
      hnone, hsome, Option.toList_none, List.append_nil, List.nil_append]
  · have hother := hlabels "Attestations: " (by decide)
    rw [filterMap_wrappedLines rfl (by decide), payloadLine]
    simp only [decodeLine_label _ (numberless_attestationsJson _),
      decodeLine_other (hother "Principal: " (by decide) (by decide)),
      decodeLine_other (hother "Actor: " (by decide) (by decide)),
      decodeLine_other (hother "User payload: " (by decide) (by decide)),
      hnone, hsome, Option.toList_none, List.append_nil, List.nil_append]
  · have hother := hlabels "User payload: " (by decide)
    rw [filterMap_wrappedLines rfl (by decide), payloadLine]
    simp only [decodeLine_label _ (numberless_string _),
      decodeLine_other (hother "Principal: " (by decide) (by decide)),
      decodeLine_other (hother "Actor: " (by decide) (by decide)),
      decodeLine_other (hother "Attestations: " (by decide) (by decide)),
      hnone, Option.toList_none, List.nil_append, Option.toList_some]

/-! ## Tags -/

/-- The text begins with the opening tag, has the closing tag once behind it, and no other tag can
stand anywhere: nothing else in it opens one. -/
structure TaggedOnce (text : JsText) : Prop where
  tags : ∃ block rest, text = openingTag ++ block ++ (closingTag ++ rest) ∧
    lessThan ∉ block ∧ lessThan ∉ rest
  opening : ∀ before after, text = before ++ (openingTag ++ after) → before = []
  closing : ∃ block, ∀ before after, text = before ++ (closingTag ++ after) →
    before = openingTag ++ block

/-- Where a text with two marks can be cut before a mark. -/
theorem eq_of_cut_before_mark {α : Type} {mark : α} {a b before after : List α} (ha : mark ∉ a)
    (hb : mark ∉ b) (h : mark :: (a ++ mark :: b) = before ++ mark :: after) :
    before = [] ∧ after = a ++ mark :: b ∨ before = mark :: a ∧ after = b := by
  cases before with
  | nil => exact .inl ⟨rfl, (List.cons_eq_cons.mp h).2.symm⟩
  | cons c before =>
      obtain ⟨rfl, htail⟩ := List.cons_eq_cons.mp h
      rcases List.append_eq_append_iff.mp htail with ⟨between, rfl, hrest⟩ | ⟨between, rfl, hrest⟩
      · cases between with
        | nil =>
            obtain ⟨-, rfl⟩ := List.cons_eq_cons.mp hrest
            exact .inr ⟨by rw [List.append_nil], rfl⟩
        | cons c between =>
            obtain ⟨-, rfl⟩ := List.cons_eq_cons.mp hrest
            exact absurd (by simp) hb
      · cases between with
        | nil =>
            obtain ⟨-, rfl⟩ := List.cons_eq_cons.mp hrest
            exact .inr ⟨by rw [List.append_nil], rfl⟩
        | cons c between =>
            obtain ⟨rfl, -⟩ := List.cons_eq_cons.mp hrest
            exact absurd (by simp) ha

theorem taggedOnce_of_tags {block rest : JsText} (hblock : lessThan ∉ block)
    (hrest : lessThan ∉ rest) : TaggedOnce (openingTag ++ block ++ (closingTag ++ rest)) := by
  have hopening : openingTag = lessThan :: openingTag.tail := by decide
  have hclosing : closingTag = lessThan :: closingTag.tail := by decide
  have ha : lessThan ∉ openingTag.tail ++ block := by
    rw [List.mem_append, not_or]
    exact ⟨by decide, hblock⟩
  have hb : lessThan ∉ closingTag.tail ++ rest := by
    rw [List.mem_append, not_or]
    exact ⟨by decide, hrest⟩
  have htext : openingTag ++ block ++ (closingTag ++ rest) =
      lessThan :: ((openingTag.tail ++ block) ++ lessThan :: (closingTag.tail ++ rest)) := by
    conv_lhs => rw [hopening, hclosing]
    rfl
  refine ⟨⟨block, rest, rfl, hblock, hrest⟩, fun before after h => ?_, block,
    fun before after h => ?_⟩
  · rw [htext, hopening, List.cons_append] at h
    rcases eq_of_cut_before_mark ha hb h with ⟨hnil, -⟩ | ⟨-, hafter⟩
    · exact hnil
    · -- the second tag has a slash where the first one has a letter
      have hsecond : some (0x62 : UInt16) = some 0x2F := congrArg List.head? hafter
      exact absurd hsecond (by decide)
  · rw [htext, hclosing, List.cons_append] at h
    rcases eq_of_cut_before_mark ha hb h with ⟨-, hafter⟩ | ⟨hbefore, -⟩
    · have hfirst : some (0x2F : UInt16) = some 0x62 := congrArg List.head? hafter
      exact absurd hfirst (by decide)
    · rw [hbefore, hopening]
      rfl

/-- Between the tags. -/
def blockBody (canonical : CanonicalCallerContext) : JsText :=
  [newline] ++ [newline].intercalate (contextLines canonical) ++ [newline]

theorem render_eq {caller : Option WireContext} {canonical : CanonicalCallerContext}
    (h : normalizeCallerContext caller = some canonical) :
    renderCallerContext caller = some (openingTag ++ blockBody canonical ++ closingTag) := by
  rw [renderCallerContext, h, Option.map_some, blockBody]
  simp only [List.append_assoc]

theorem not_mem_intercalate {u : UInt16} {lines : List JsText} (hu : u ≠ newline)
    (h : ∀ line ∈ lines, u ∉ line) : u ∉ [newline].intercalate lines := by
  induction lines with
  | nil => exact fun hmem => by cases hmem
  | cons line lines ih =>
      have hrest := ih fun l hl => h l (List.mem_cons_of_mem line hl)
      have hline := h line List.mem_cons_self
      cases lines with
      | nil => simpa using hline
      | cons second lines =>
          rw [List.intercalate_cons_cons]
          simp only [List.mem_append, List.mem_singleton, not_or]
          exact ⟨⟨hline, hu⟩, hrest⟩

theorem lessThan_not_mem_labelled {label : JsText} (h : lessThan ∉ label) (value : Value) :
    lessThan ∉ label ++ safeJson value := by
  rw [List.mem_append, not_or]
  exact ⟨h, lessThan_not_mem_safeJson value⟩

theorem lessThan_not_mem_blockBody (canonical : CanonicalCallerContext) :
    lessThan ∉ blockBody canonical := by
  have hlines : ∀ line ∈ contextLines canonical, lessThan ∉ line := by
    intro line hline
    simp only [contextLines, List.mem_append, List.mem_cons, List.not_mem_nil, or_false,
      Option.mem_toList, Option.map_eq_some_iff] at hline
    rcases hline with (((h | ⟨id, -, h⟩) | ⟨id, -, h⟩) | ⟨as, -, h⟩) | h
    · rw [h]; exact plain_header.lessThan
    · rw [← h]; exact lessThan_not_mem_labelled (by decide) _
    · rw [← h]; exact lessThan_not_mem_labelled (by decide) _
    · rw [← h]; exact lessThan_not_mem_labelled (by decide) _
    · rw [h]; exact plain_footer.lessThan
  have hne : lessThan ≠ newline := by decide
  rw [blockBody, List.mem_append, List.mem_append, not_or, not_or, List.mem_singleton]
  exact ⟨⟨hne, not_mem_intercalate hne hlines⟩, hne⟩

/-- Behind the block. -/
def payloadPart (userMessage : JsText) : JsText :=
  [newline, newline] ++ payloadIntroduction ++ [newline] ++ payloadLine userMessage

theorem wrap_eq {caller : Option WireContext} {canonical : CanonicalCallerContext}
    (h : normalizeCallerContext caller = some canonical) (userMessage : JsText) :
    wrapUserMessageWithCallerContext userMessage caller =
      openingTag ++ blockBody canonical ++ (closingTag ++ payloadPart userMessage) := by
  rw [wrapUserMessageWithCallerContext, render_eq h]
  simp only [payloadPart, payloadLine, List.append_assoc]

theorem lessThan_not_mem_payloadPart (userMessage : JsText) :
    lessThan ∉ payloadPart userMessage := by
  have hlines : lessThan ∉ [newline, newline] ++ payloadIntroduction ++ [newline] := by
    simp only [List.mem_append, not_or]
    exact ⟨⟨by decide, plain_introduction.lessThan⟩, by decide⟩
  rw [payloadPart, List.mem_append, not_or]
  exact ⟨hlines, lessThan_not_mem_labelled (by decide) _⟩

/-- The block is the bridge's own, whatever the caller's ids and text are: its tags are the only
ones, its lines and the payload decode to what they were made of. And no other text keeps the
marker, in whatever letters, once it has been neutralized. -/
theorem block_cannot_be_forged {caller : Option WireContext} {rendered : JsText}
    (h : renderCallerContext caller = some rendered) (userMessage : JsText) :
    (∃ canonical, normalizeCallerContext caller = some canonical ∧
      rendered <+: wrapUserMessageWithCallerContext userMessage caller ∧
      TaggedOnce (wrapUserMessageWithCallerContext userMessage caller) ∧
      decoded "Principal: " (wrapUserMessageWithCallerContext userMessage caller) =
        (canonical.principal.map Value.string).toList ∧
      decoded "Actor: " (wrapUserMessageWithCallerContext userMessage caller) =
        (canonical.actor.map Value.string).toList ∧
      decoded "Attestations: " (wrapUserMessageWithCallerContext userMessage caller) =
        (canonical.attestations.map attestationsJson).toList ∧
      decoded "User payload: " (wrapUserMessageWithCallerContext userMessage caller) =
        [.string userMessage]) ∧
    ∀ text, Neutralized text (neutralizeCallerContextMarkers text) ∧
      ¬ HasMarker (neutralizeCallerContextMarkers text) ∧
      neutralizeCallerContextMarkers (neutralizeCallerContextMarkers text) =
        neutralizeCallerContextMarkers text := by
  refine ⟨?_, fun text => ⟨neutralized_neutralize text, not_hasMarker_neutralize text,
    neutralize_eq_self (not_hasMarker_neutralize text)⟩⟩
  obtain ⟨canonical, hcanonical, -⟩ := Option.map_eq_some_iff.mp h
  have hrendered := Option.some.inj (h.symm.trans (render_eq hcanonical))
  refine ⟨canonical, hcanonical, ?_, ?_, decoded_wrap hcanonical userMessage⟩
  · rw [wrap_eq hcanonical, hrendered, ← List.append_assoc]
    exact List.prefix_append _ _
  · rw [wrap_eq hcanonical]
    exact taggedOnce_of_tags (lessThan_not_mem_blockBody canonical)
      (lessThan_not_mem_payloadPart userMessage)

/-- A caller whose id closes the block, and a text that opens another one. -/
theorem block_cannot_be_forged_example :
    TaggedOnce (wrapUserMessageWithCallerContext openingTag
        (some (.v2 (some closingTag) none none))) ∧
      decoded "User payload: " (wrapUserMessageWithCallerContext openingTag
        (some (.v2 (some closingTag) none none))) = [.string openingTag] := by
  have hrender : renderCallerContext (some (.v2 (some closingTag) none none)) =
      some (openingTag ++ blockBody ⟨some closingTag, none, none⟩ ++ closingTag) :=
    render_eq (by decide)
  obtain ⟨⟨canonical, -, -, htagged, -, -, -, hpayload⟩, -⟩ :=
    block_cannot_be_forged hrender openingTag
  exact ⟨htagged, hpayload⟩

end VicoopBridge.CallerBlock
