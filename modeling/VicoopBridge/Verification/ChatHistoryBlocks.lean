import Mathlib.Data.List.Basic
import Mathlib.Data.PNat.Basic
import VicoopBridge.Model.OpenAICompat

/-! # The blocks of a history

The frozen entries are cut at multiples of the step, whatever follows them. So the blocks give the
text of the history, and those before the last one stay when the history grows. -/

namespace VicoopBridge.OpenAICompat

open Library
open Library.JsonText (Value)

/-! ## The text -/

/-- What stands after each separator may stand before each part instead. -/
theorem append_intercalate (s before : JsText) {parts : List JsText} (hparts : parts ≠ []) :
    before ++ (s ++ before).intercalate parts = s.intercalate (parts.map (before ++ ·)) := by
  induction parts with
  | nil => exact absurd rfl hparts
  | cons part parts ih =>
      cases parts with
      | nil => simp
      | cons second parts =>
          have htail := ih (List.cons_ne_nil second parts)
          rw [List.map_cons] at htail
          rw [List.intercalate_cons_cons, List.map_cons, List.map_cons,
            List.intercalate_cons_cons, ← htail]
          simp only [List.append_assoc]

theorem serializeHistoryEntries_append {a b : List HistoryEntry} (ha : a ≠ []) (hb : b ≠ []) :
    serializeHistoryEntries (a ++ b) =
      serializeHistoryEntries a ++ (entrySeparator ++ serializeHistoryEntries b) := by
  rw [serializeHistoryEntries, List.map_append, JsonText.intercalate_append (by simpa) (by simpa)]
  rfl

theorem serializeHistoryEntries_eq (history : List HistoryEntry) :
    serializeHistoryEntries history = entrySeparator.intercalate
      (((history.map Value.object).map (JsonText.write 2)).map (JsText.ofAscii "  " ++ ·)) := by
  rw [serializeHistoryEntries, List.map_map, List.map_map]
  refine congrArg _ (List.map_congr_left fun e _ => ?_)
  exact congrArg (JsText.ofAscii "  " ++ ·) (JsonText.deepen_write 0 (.object e))

theorem formatChatHistory_eq {history : List HistoryEntry} (h : history ≠ []) :
    formatChatHistory history =
      historyOpening ++ (serializeHistoryEntries history ++ historyClosing) := by
  obtain ⟨entry, rest, rfl⟩ := List.exists_cons_of_ne_nil h
  have hparts : ((entry :: rest).map Value.object).map (JsonText.write 2) ≠ [] := by simp
  have hformat : formatChatHistory (entry :: rest) = (JsText.ofAscii "\n").intercalate
      [JsText.ofAscii "<chat_history>",
        JsonText.write 0 (.array ((entry :: rest).map Value.object)),
        JsText.ofAscii "</chat_history>"] := rfl
  rw [serializeHistoryEntries_eq, ← append_intercalate _ _ hparts, hformat, JsonText.write,
    JsonText.writeItems_eq_map, Nat.zero_add, JsonText.enclose, if_neg hparts,
    List.intercalate_cons_cons, List.intercalate_cons_cons, List.intercalate_singleton]
  have hopening : historyOpening ++ JsText.ofAscii "  " =
      JsText.ofAscii "<chat_history>" ++ (JsText.ofAscii "\n" ++ 0x5B :: JsonText.breakLine 2) := by
    decide
  have hclosing : historyClosing = JsonText.breakLine 0 ++ [0x5D] ++
      (JsText.ofAscii "\n" ++ JsText.ofAscii "</chat_history>") := by
    decide
  have hseparator : entrySeparator ++ JsText.ofAscii "  " = 0x2C :: JsonText.breakLine 2 := by
    decide
  rw [hseparator, hclosing]
  dsimp only
  generalize (0x2C :: JsonText.breakLine 2).intercalate _ = inner
  calc _ = (JsText.ofAscii "<chat_history>" ++
        (JsText.ofAscii "\n" ++ 0x5B :: JsonText.breakLine 2)) ++ (inner ++
          (JsonText.breakLine 0 ++ [0x5D] ++
            (JsText.ofAscii "\n" ++ JsText.ofAscii "</chat_history>"))) := by
        simp only [List.append_assoc, List.cons_append]
    _ = _ := by
        rw [← hopening]
        simp only [List.append_assoc]

theorem length_serializeHistoryEntries_le (a b : List HistoryEntry) :
    (serializeHistoryEntries a).length ≤ (serializeHistoryEntries (a ++ b)).length := by
  by_cases ha : a = []
  · rw [ha]
    exact Nat.zero_le _
  · by_cases hb : b = []
    · rw [hb, List.append_nil]
    · rw [serializeHistoryEntries_append ha hb, List.length_append]
      omega

/-! ## The segments -/

theorem slice_append_slice (history : List HistoryEntry) {start middle stop : ℕ}
    (hstart : start ≤ middle) (hstop : middle ≤ stop) :
    slice history start middle ++ slice history middle stop = slice history start stop := by
  have hmiddle : slice history start middle = ((history.take stop).drop start).take
      (middle - start) := by
    rw [slice, ← List.drop_take, List.take_take]
    congr 2
    omega
  have hrest : slice history middle stop = ((history.take stop).drop start).drop
      (middle - start) := by
    rw [slice, List.drop_drop]
    congr 1
    omega
  rw [hmiddle, hrest, List.take_append_drop]
  rfl

theorem slice_ne_nil {history : List HistoryEntry} {start stop : ℕ} (h : start < stop)
    (hstop : stop ≤ history.length) : slice history start stop ≠ [] := by
  intro hnil
  have hlength := congrArg List.length hnil
  simp only [slice, List.length_drop, List.length_take, List.length_nil] at hlength
  omega

theorem slice_append {history : List HistoryEntry} {stop : ℕ} (hstop : stop ≤ history.length)
    (later : List HistoryEntry) (start : ℕ) :
    slice (history ++ later) start stop = slice history start stop := by
  rw [slice, List.take_append_of_le_length hstop]
  rfl

theorem frozenBlocks_of_le {history : List HistoryEntry} {step frozenCount start : ℕ}
    (h : frozenCount ≤ start) (fuel : ℕ) :
    frozenBlocks history step frozenCount fuel start = [] := by
  cases fuel with
  | zero => rfl
  | succ fuel => exact if_neg (Nat.not_lt.mpr h)

theorem flatMap_frozenBlocks (history : List HistoryEntry) {step frozenCount : ℕ}
    (hstep : 0 < step) (hcount : frozenCount ≤ history.length) {fuel start : ℕ}
    (hstart : start < frozenCount) (hfuel : frozenCount ≤ start + fuel) :
    (frozenBlocks history step frozenCount fuel start).flatMap ChatHistoryBlock.text =
      (if start = 0 then historyOpening else entrySeparator) ++
        serializeHistoryEntries (slice history start frozenCount) := by
  induction fuel generalizing start with
  | zero => omega
  | succ fuel ih =>
      rw [frozenBlocks, if_pos hstart, List.flatMap_cons]
      dsimp only
      by_cases hlast : frozenCount ≤ start + step
      · rw [frozenBlocks_of_le hlast, min_eq_right hlast, List.flatMap_nil, List.append_nil]
      · have hnext : start + step < frozenCount := Nat.lt_of_not_le hlast
        have hhead : start + step ≠ 0 := by omega
        rw [ih hnext (by omega), if_neg hhead, min_eq_left hnext.le,
          ← slice_append_slice history (Nat.le_add_right start step) hnext.le,
          serializeHistoryEntries_append (slice_ne_nil (by omega) (by omega))
            (slice_ne_nil hnext hcount), List.append_assoc]

theorem length_cached_frozenBlocks (history : List HistoryEntry) (step frozenCount fuel : ℕ)
    (start : ℕ) :
    ((frozenBlocks history step frozenCount fuel start).filter ChatHistoryBlock.cache).length ≤
      1 := by
  induction fuel generalizing start with
  | zero => exact Nat.zero_le 1
  | succ fuel ih =>
      rw [frozenBlocks]
      split
      · dsimp only
        by_cases hlast : frozenCount ≤ start + step
        · rw [frozenBlocks_of_le hlast, min_eq_right hlast]
          exact List.length_filter_le _ _
        · have hnext : start + step < frozenCount := Nat.lt_of_not_le hlast
          rw [min_eq_left hnext.le, List.filter_cons_of_neg (by simpa using hlast)]
          exact ih (start + step)
      · exact Nat.zero_le 1

/-- The segments of a history that has grown begin with the segments it had. -/
theorem frozenBlocks_start {history : List HistoryEntry} (later : List HistoryEntry)
    {step n n' : ℕ} (hstep : 0 < step) (hcount : n * step ≤ history.length) (hn : n ≤ n')
    (fuel : ℕ) {fuel' i : ℕ} (hfuel : n' * step ≤ i * step + fuel') :
    (frozenBlocks history step (n * step) fuel (i * step)).map ChatHistoryBlock.text <+:
      (frozenBlocks (history ++ later) step (n' * step) fuel' (i * step)).map
        ChatHistoryBlock.text := by
  induction fuel generalizing fuel' i with
  | zero => exact List.nil_prefix
  | succ fuel ih =>
      rw [frozenBlocks]
      split
      · next hlt =>
          have hi : i < n := lt_of_mul_lt_mul_right hlt (Nat.zero_le step)
          have hnext : i * step + step = (i + 1) * step := (Nat.succ_mul i step).symm
          have hstop : (i + 1) * step ≤ n * step := Nat.mul_le_mul_right step hi
          have hgrown : n * step ≤ n' * step := Nat.mul_le_mul_right step hn
          cases fuel' with
          | zero => omega
          | succ fuel' =>
              rw [frozenBlocks, if_pos (hlt.trans_le hgrown)]
              dsimp only
              rw [hnext, min_eq_left hstop, min_eq_left (hstop.trans hgrown),
                slice_append (hstop.trans hcount)]
              have hrest : n' * step ≤ (i + 1) * step + fuel' := by
                rw [← hnext]
                omega
              exact (List.prefix_cons_inj _).mpr (ih hrest)
      · exact List.nil_prefix

/-! ## The blocks -/

def stepOf (opts : ChatHistoryOptions) : ℕ := opts.stepEntries.getD freezeStepEntries

theorem stepOf_pos (opts : ChatHistoryOptions) : 0 < stepOf opts :=
  (opts.stepEntries.getD freezeStepEntries).pos

/-- How many segments are frozen. -/
def frozenSegments (history : List HistoryEntry) (opts : ChatHistoryOptions) : ℕ :=
  (history.length - 2) / stepOf opts

def frozenCount (history : List HistoryEntry) (opts : ChatHistoryOptions) : ℕ :=
  frozenSegments history opts * stepOf opts

/-- When a history is cut at all. -/
structure Splits (history : List HistoryEntry) (opts : ChatHistoryOptions) : Prop where
  split : opts.split = true
  long : 2 < history.length
  frozen : 0 < frozenCount history opts
  cacheable : (opts.minFrozenChars.getD minCacheableFrozenChars).exceeds
    (historyOpening ++
      serializeHistoryEntries (history.take (frozenCount history opts))).length = false

theorem frozenCount_le (history : List HistoryEntry) (opts : ChatHistoryOptions) :
    frozenCount history opts ≤ history.length - 2 := Nat.div_mul_le_self _ _

def frozen (history : List HistoryEntry) (opts : ChatHistoryOptions) : List ChatHistoryBlock :=
  frozenBlocks history (stepOf opts) (frozenCount history opts) (frozenCount history opts) 0

def tailBlock (history : List HistoryEntry) (opts : ChatHistoryOptions) : ChatHistoryBlock :=
  ⟨entrySeparator ++ serializeHistoryEntries (history.drop (frozenCount history opts)) ++
    historyClosing, false⟩

theorem blocks_cases (history : List HistoryEntry) (opts : ChatHistoryOptions) :
    history = [] ∧ formatChatHistoryBlocks history opts = [] ∨
    history ≠ [] ∧ ¬ Splits history opts ∧
      formatChatHistoryBlocks history opts = [⟨formatChatHistory history, false⟩] ∨
    Splits history opts ∧
      formatChatHistoryBlocks history opts = frozen history opts ++ [tailBlock history opts] := by
  unfold formatChatHistoryBlocks
  dsimp only
  split
  · next hnil => exact .inl ⟨List.eq_nil_of_length_eq_zero hnil, rfl⟩
  · next hne =>
      have hne : history ≠ [] := fun h => hne (congrArg List.length h)
      split
      · next hshort =>
          refine .inr (.inl ⟨hne, fun h => ?_, rfl⟩)
          simp [h.split, Nat.not_le.mpr h.long] at hshort
      · next hlong =>
          simp only [Bool.or_eq_true, Bool.not_eq_true', decide_eq_true_eq, not_or,
            Bool.not_eq_false, Nat.not_le] at hlong
          split
          · next hnone => exact .inr (.inl ⟨hne, fun h => absurd h.frozen (by
              simpa [frozenCount, frozenSegments, stepOf] using hnone), rfl⟩)
          · next hsome =>
              split
              · next hsmall => exact .inr (.inl ⟨hne, fun h =>
                  Bool.false_ne_true (h.cacheable.symm.trans hsmall), rfl⟩)
              · next hlarge =>
                  refine .inr (.inr ⟨⟨hlong.1, hlong.2, Nat.pos_of_ne_zero ?_,
                    Bool.eq_false_iff.mpr hlarge⟩, rfl⟩)
                  intro hzero
                  exact hsome (Nat.lt_one_iff.mpr hzero)

theorem exceeds_anti {bound : JsNumber} {n n' : ℕ} (h : n ≤ n')
    (hn : bound.exceeds n = false) : bound.exceeds n' = false := by
  cases bound with
  | nan => rfl
  | infinite negative => exact hn
  | finite value =>
      have hvalue : value ≤ (n : ℚ) := by simpa [JsNumber.exceeds] using hn
      have hgrown : (n : ℚ) ≤ n' := Nat.cast_le.mpr h
      simpa [JsNumber.exceeds] using hvalue.trans hgrown

theorem Splits.append {history : List HistoryEntry} {opts : ChatHistoryOptions}
    (h : Splits history opts) (later : List HistoryEntry) : Splits (history ++ later) opts := by
  have hlength : history.length ≤ (history ++ later).length := by simp
  have hcount : frozenCount history opts ≤ frozenCount (history ++ later) opts :=
    Nat.mul_le_mul_right _ (Nat.div_le_div_right (Nat.sub_le_sub_right hlength 2))
  refine ⟨h.split, h.long.trans_le hlength, h.frozen.trans_le hcount, exceeds_anti ?_ h.cacheable⟩
  have hle := (frozenCount_le history opts).trans (Nat.sub_le _ 2)
  have htake : (history ++ later).take (frozenCount (history ++ later) opts) =
      history.take (frozenCount history opts) ++
        ((history ++ later).take (frozenCount (history ++ later) opts)).drop
          (frozenCount history opts) := by
    conv_lhs => rw [← List.take_append_drop (frozenCount history opts)
      ((history ++ later).take (frozenCount (history ++ later) opts))]
    rw [List.take_take, min_eq_left hcount, List.take_append_of_le_length hle]
  rw [htake, List.length_append, List.length_append]
  exact Nat.add_le_add_left (length_serializeHistoryEntries_le _ _) _

def IsSplit (history : List HistoryEntry) (opts : ChatHistoryOptions) : Prop :=
  1 < (formatChatHistoryBlocks history opts).length

theorem isSplit_iff (history : List HistoryEntry) (opts : ChatHistoryOptions) :
    IsSplit history opts ↔ Splits history opts := by
  rcases blocks_cases history opts with ⟨hnil, heq⟩ | ⟨-, hnot, heq⟩ | ⟨h, heq⟩
  · rw [IsSplit, heq]
    refine iff_of_false (Nat.not_lt_zero 1) fun h => ?_
    have hlong := h.long
    rw [hnil] at hlong
    exact Nat.not_lt_zero 2 hlong
  · rw [IsSplit, heq]
    exact iff_of_false (lt_irrefl 1) hnot
  · refine iff_of_true ?_ h
    have hpos : 0 < (frozen history opts).length := by
      obtain ⟨fuel, hfuel⟩ := Nat.exists_eq_succ_of_ne_zero h.frozen.ne'
      rw [frozen]
      nth_rewrite 2 [hfuel]
      rw [frozenBlocks, if_pos h.frozen]
      exact Nat.succ_pos _
    rw [IsSplit, heq, List.length_append]
    exact Nat.succ_lt_succ hpos

/-- The blocks give the text of the history. -/
theorem flatMap_blocks (history : List HistoryEntry) (opts : ChatHistoryOptions) :
    (formatChatHistoryBlocks history opts).flatMap ChatHistoryBlock.text =
      formatChatHistory history := by
  rcases blocks_cases history opts with ⟨rfl, heq⟩ | ⟨-, -, heq⟩ | ⟨h, heq⟩
  · rw [heq]
    rfl
  · rw [heq, List.flatMap_singleton]
  · have hle : frozenCount history opts < history.length := by
      have := frozenCount_le history opts
      have := h.long
      omega
    have hne : history ≠ [] := by
      rintro rfl
      exact Nat.not_lt_zero _ hle
    have hfront : history.take (frozenCount history opts) ≠ [] := by
      have := h.frozen
      intro hnil
      simp [hne] at hnil
      omega
    have hback : history.drop (frozenCount history opts) ≠ [] := by
      intro hnil
      exact absurd (List.drop_eq_nil_iff.mp hnil) (Nat.not_le.mpr hle)
    have hsegments := flatMap_frozenBlocks history (stepOf_pos opts) hle.le h.frozen
      (Nat.le_add_left (frozenCount history opts) 0)
    rw [heq, List.flatMap_append, frozen, hsegments, if_pos rfl, List.flatMap_singleton,
      formatChatHistory_eq hne]
    conv_rhs => rw [← List.take_append_drop (frozenCount history opts) history,
      serializeHistoryEntries_append hfront hback]
    rw [tailBlock, slice, List.drop_zero]
    simp only [List.append_assoc]

theorem length_cached_blocks (history : List HistoryEntry) (opts : ChatHistoryOptions) :
    ((formatChatHistoryBlocks history opts).filter ChatHistoryBlock.cache).length ≤ 1 := by
  rcases blocks_cases history opts with ⟨rfl, heq⟩ | ⟨-, -, heq⟩ | ⟨h, heq⟩
  · rw [heq]
    exact Nat.zero_le 1
  · rw [heq]
    exact Nat.zero_le 1
  · have htail : [tailBlock history opts].filter ChatHistoryBlock.cache = [] := rfl
    rw [heq, List.filter_append, htail, List.append_nil]
    exact length_cached_frozenBlocks _ _ _ _ _

theorem blocks_start {history : List HistoryEntry} {opts : ChatHistoryOptions}
    (h : Splits history opts) (later : List HistoryEntry) :
    (formatChatHistoryBlocks history opts).dropLast.map ChatHistoryBlock.text <+:
      (formatChatHistoryBlocks (history ++ later) opts).map ChatHistoryBlock.text := by
  have hcut : ∀ {history : List HistoryEntry}, Splits history opts →
      formatChatHistoryBlocks history opts =
        frozen history opts ++ [tailBlock history opts] := by
    intro history h
    rcases blocks_cases history opts with ⟨rfl, -⟩ | ⟨-, hnot, -⟩ | ⟨-, heq⟩
    · exact absurd h.long (Nat.not_lt_zero 2)
    · exact absurd h hnot
    · exact heq
  rw [hcut h, hcut (h.append later), List.dropLast_concat, List.map_append]
  have hsegments : frozenSegments history opts ≤ frozenSegments (history ++ later) opts := by
    refine Nat.div_le_div_right (Nat.sub_le_sub_right ?_ 2)
    simp
  have hle := (frozenCount_le history opts).trans (Nat.sub_le _ 2)
  have hfuel := Nat.le_add_left (frozenCount (history ++ later) opts) (0 * stepOf opts)
  have hstart := frozenBlocks_start later (stepOf_pos opts) hle hsegments
    (frozenCount history opts) hfuel
  rw [Nat.zero_mul] at hstart
  exact hstart.trans (List.prefix_append _ _)

theorem formatChatHistoryBlocks_spec (history : List HistoryEntry) (opts : ChatHistoryOptions) :
    (formatChatHistoryBlocks history opts).flatMap ChatHistoryBlock.text =
        formatChatHistory history ∧
      ((formatChatHistoryBlocks history opts).filter ChatHistoryBlock.cache).length ≤ 1 ∧
      ∀ later, IsSplit history opts → IsSplit (history ++ later) opts ∧
        (formatChatHistoryBlocks history opts).dropLast.map ChatHistoryBlock.text <+:
          (formatChatHistoryBlocks (history ++ later) opts).map ChatHistoryBlock.text := by
  refine ⟨flatMap_blocks history opts, length_cached_blocks history opts, fun later h => ?_⟩
  have hsplits := (isSplit_iff history opts).mp h
  exact ⟨(isSplit_iff _ _).mpr (hsplits.append later), blocks_start hsplits later⟩

def turnSample : HistoryEntry :=
  [(JsText.ofAscii "role", .string (JsText.ofAscii "user")),
    (JsText.ofAscii "content", .string (JsText.ofAscii "more"))]

def optionsSample : ChatHistoryOptions where
  split := true
  minFrozenChars := some (.finite 0)
  stepEntries := some 1

theorem formatChatHistoryBlocks_spec_sample :
    IsSplit (List.replicate 4 turnSample) optionsSample ∧
      IsSplit (List.replicate 4 turnSample ++ [turnSample]) optionsSample := by
  have hsplit : IsSplit (List.replicate 4 turnSample) optionsSample := by
    unfold IsSplit
    decide +kernel
  exact ⟨hsplit, ((formatChatHistoryBlocks_spec (List.replicate 4 turnSample)
    optionsSample).2.2 [turnSample] hsplit).1⟩

end VicoopBridge.OpenAICompat
