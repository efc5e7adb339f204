import Mathlib.Data.List.Basic

/-! # Reading lines from a growing buffer

A reader keeps what has no separator yet, and hands every complete line to a handler that may throw.
What it has handed over are the complete lines of all that it has been fed. -/

namespace VicoopBridge.Library

universe u v w

namespace LineReader

variable {α : Type u} [DecidableEq α] (sep : α)

/-- The first complete line, and what follows it. -/
def takeLine : List α → Option (List α × List α)
  | [] => none
  | a :: rest =>
      if a = sep then some ([], rest)
      else (takeLine rest).map fun split => (a :: split.1, split.2)

/-- The complete lines, and the line that has not ended. -/
def splitLines : List α → List (List α) × List α
  | [] => ([], [])
  | a :: rest =>
      if a = sep then ([] :: (splitLines rest).1, (splitLines rest).2)
      else match splitLines rest with
        | ([], last) => ([], a :: last)
        | (line :: lines, last) => ((a :: line) :: lines, last)

variable {σ : Type v} (onLine : σ → List α → σ × Bool)

/-- The loop over the complete lines. It stops where the handler throws. -/
def drain : ℕ → List α → σ → List α × σ × Bool
  | 0, buffer, s => (buffer, s, false)
  | rounds + 1, buffer, s =>
      match takeLine sep buffer with
      | none => (buffer, s, false)
      | some (line, rest) =>
          match onLine s line with
          | (s, true) => (rest, s, true)
          | (s, false) => drain rounds rest s

/-- The lines one after the other, up to one at which the handler throws. -/
def runLines : σ → List (List α) → σ × Bool
  | s, [] => (s, false)
  | s, line :: lines =>
      match onLine s line with
      | (s, true) => (s, true)
      | (s, false) => runLines s lines

variable {μ : Type w} (handle : σ → μ → σ × Bool)

/-- Messages one after the other, up to one at which the handler throws. -/
def runMessages : σ → List μ → σ × Bool
  | s, [] => (s, false)
  | s, message :: messages =>
      match handle s message with
      | (s, true) => (s, true)
      | (s, false) => runMessages s messages

variable {sep onLine handle}

theorem splitLines_of_takeLine {buffer line rest : List α}
    (h : takeLine sep buffer = some (line, rest)) :
    buffer = line ++ sep :: rest ∧ sep ∉ line ∧
      splitLines sep buffer = (line :: (splitLines sep rest).1, (splitLines sep rest).2) := by
  induction buffer generalizing line with
  | nil => cases h
  | cons a buffer ih =>
      unfold takeLine at h
      split at h
      · rename_i heq
        obtain ⟨rfl, rfl⟩ := Prod.mk.inj (Option.some.inj h)
        exact ⟨by rw [heq]; rfl, List.not_mem_nil, by simp [splitLines, heq]⟩
      · rename_i hne
        obtain ⟨split, hsplit, heq⟩ := Option.map_eq_some_iff.mp h
        obtain ⟨rfl, rfl⟩ := Prod.mk.inj heq
        obtain ⟨rfl, hnot, hrest⟩ := ih hsplit
        refine ⟨rfl, ?_, ?_⟩
        · rw [List.mem_cons, not_or]
          exact ⟨Ne.symm hne, hnot⟩
        · simp only [splitLines, if_neg hne, hrest]

theorem splitLines_of_takeLine_none {buffer : List α} (h : takeLine sep buffer = none) :
    sep ∉ buffer ∧ splitLines sep buffer = ([], buffer) := by
  induction buffer with
  | nil => exact ⟨List.not_mem_nil, rfl⟩
  | cons a buffer ih =>
      unfold takeLine at h
      split at h
      · cases h
      · rename_i hne
        obtain ⟨hnot, hrest⟩ := ih (Option.map_eq_none_iff.mp h)
        exact ⟨by rw [List.mem_cons, not_or]; exact ⟨Ne.symm hne, hnot⟩,
          by simp only [splitLines, if_neg hne, hrest]⟩

/-- The first line is the one that ends first. -/
theorem splitLines_append {line : List α} (h : sep ∉ line) (rest : List α) :
    splitLines sep (line ++ sep :: rest) =
      (line :: (splitLines sep rest).1, (splitLines sep rest).2) := by
  induction line with
  | nil => simp [splitLines]
  | cons a line ih =>
      rw [List.mem_cons, not_or] at h
      simp only [List.cons_append, splitLines, if_neg (Ne.symm h.1), ih h.2]

theorem splitLines_of_not_mem {buffer : List α} (h : sep ∉ buffer) :
    splitLines sep buffer = ([], buffer) := by
  induction buffer with
  | nil => rfl
  | cons a buffer ih =>
      rw [List.mem_cons, not_or] at h
      simp only [splitLines, if_neg (Ne.symm h.1), ih h.2]

/-- Every text is a line that has not ended, or a line with the rest behind it. -/
theorem line_induction (sep : α) {motive : List α → Prop} (last : ∀ buffer, sep ∉ buffer → motive buffer)
    (line : ∀ line rest, sep ∉ line → motive rest → motive (line ++ sep :: rest))
    (buffer : List α) : motive buffer := by
  induction hn : buffer.length using Nat.strongRecOn generalizing buffer with
  | ind n ih =>
      subst hn
      cases htake : takeLine sep buffer with
      | none => exact last buffer (splitLines_of_takeLine_none htake).1
      | some split =>
          obtain ⟨heq, hnot, -⟩ := splitLines_of_takeLine htake
          rw [heq]
          refine line split.1 split.2 hnot (ih _ ?_ split.2 rfl)
          rw [heq, List.length_append, List.length_cons]
          omega

/-- What has not ended goes on with what comes next. -/
theorem splitLines_append_text (buffer text : List α) :
    splitLines sep (buffer ++ text) =
      ((splitLines sep buffer).1 ++ (splitLines sep ((splitLines sep buffer).2 ++ text)).1,
        (splitLines sep ((splitLines sep buffer).2 ++ text)).2) := by
  induction buffer using line_induction sep with
  | last buffer hnot => simp [splitLines_of_not_mem hnot]
  | line line rest hnot ih =>
      rw [List.append_assoc, List.cons_append, splitLines_append hnot, splitLines_append hnot, ih]
      rfl

theorem not_mem_last (buffer : List α) : sep ∉ (splitLines sep buffer).2 := by
  induction buffer using line_induction sep with
  | last buffer hnot => rwa [splitLines_of_not_mem hnot]
  | line line rest hnot ih => rwa [splitLines_append hnot]

/-! ## The loop -/

/-- With a round for every character the loop comes to the end of the buffer. -/
theorem runLines_of_drain {rounds : ℕ} {buffer rest : List α} {s t : σ} {threw : Bool}
    (h : buffer.length ≤ rounds) (hdrain : drain sep onLine rounds buffer s = (rest, t, threw)) :
    runLines onLine s (splitLines sep buffer).1 = (t, threw) ∧
      (threw = false → rest = (splitLines sep buffer).2) := by
  induction rounds generalizing buffer s with
  | zero =>
      obtain rfl := List.length_eq_zero_iff.mp (Nat.le_zero.mp h)
      obtain ⟨rfl, rfl, rfl⟩ := hdrain
      exact ⟨rfl, fun _ => rfl⟩
  | succ rounds ih =>
      unfold drain at hdrain
      cases htake : takeLine sep buffer with
      | none =>
          rw [htake] at hdrain
          obtain ⟨rfl, rfl, rfl⟩ := hdrain
          rw [(splitLines_of_takeLine_none htake).2]
          exact ⟨rfl, fun _ => rfl⟩
      | some split =>
          obtain ⟨heq, -, hsplit⟩ := splitLines_of_takeLine htake
          rw [htake] at hdrain
          rw [hsplit]
          dsimp only at hdrain ⊢
          unfold runLines
          rcases hline : onLine s split.1 with ⟨u, _ | _⟩
          · rw [hline] at hdrain
            refine ih ?_ hdrain
            rw [heq, List.length_append, List.length_cons] at h
            omega
          · rw [hline] at hdrain
            obtain ⟨rfl, rfl, rfl⟩ := hdrain
            exact ⟨rfl, nofun⟩

omit [DecidableEq α] in
theorem runLines_append (s : σ) (lines lines' : List (List α)) :
    runLines onLine s (lines ++ lines') =
      if (runLines onLine s lines).2 then runLines onLine s lines
      else runLines onLine (runLines onLine s lines).1 lines' := by
  induction lines generalizing s with
  | nil => rfl
  | cons line lines ih =>
      rcases hline : onLine s line with ⟨t, _ | _⟩
      · simpa [runLines, hline] using ih t
      · simp [runLines, hline]

omit [DecidableEq α] in
/-- Where a line is a message or nothing, lines are handled as the messages on them. -/
theorem runLines_eq_runMessages {parse : List α → Option μ}
    (h : ∀ s line, onLine s line = ((parse line).map (handle s)).getD (s, false)) (s : σ)
    (lines : List (List α)) :
    runLines onLine s lines = runMessages handle s (lines.filterMap parse) := by
  induction lines generalizing s with
  | nil => rfl
  | cons line lines ih =>
      unfold runLines
      rw [h, List.filterMap_cons]
      cases parse line with
      | none => exact ih s
      | some message =>
          dsimp only [Option.map_some, Option.getD_some]
          unfold runMessages
          rcases handle s message with ⟨t, _ | _⟩
          · exact ih t
          · rfl

omit [DecidableEq α] in
theorem runMessages_append (s : σ) (messages messages' : List μ) :
    runMessages handle s (messages ++ messages') =
      if (runMessages handle s messages).2 then runMessages handle s messages
      else runMessages handle (runMessages handle s messages).1 messages' := by
  induction messages generalizing s with
  | nil => rfl
  | cons message messages ih =>
      rcases hmessage : handle s message with ⟨t, _ | _⟩
      · simpa [runMessages, hmessage] using ih t
      · simp [runMessages, hmessage]

omit [DecidableEq α] in
/-- What every message leaves alone, all of them leave alone. -/
theorem runMessages_preserves {P : σ → Prop} (h : ∀ s message, P s → P (handle s message).1)
    {s : σ} (hs : P s) (messages : List μ) : P (runMessages handle s messages).1 := by
  induction messages generalizing s with
  | nil => exact hs
  | cons message messages ih =>
      have hnext := h s message hs
      unfold runMessages
      rcases hresult : handle s message with ⟨t, _ | _⟩
      · rw [hresult] at hnext
        exact ih hnext
      · rw [hresult] at hnext
        exact hnext

end LineReader

end VicoopBridge.Library
