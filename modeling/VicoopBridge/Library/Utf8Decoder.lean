import VicoopBridge.Library.LineReader
import Mathlib.Tactic.Ring
import Mathlib.Tactic.Linarith

/-! # Decoding UTF-8 with replacement

The decoder that puts U+FFFD in the place of what is not UTF-8, byte after byte. A stream that is
decoded in pieces comes out the same as one that is decoded whole, exactly if no piece starts with the
rest of a character. -/

namespace VicoopBridge.Library

universe u v

/-- Between characters, or with `more + 1` bytes of one to come, the next of them in `lower` to
`upper`. -/
inductive Utf8State where
  | start
  | inside (more lower upper codePoint : ℕ)
  deriving DecidableEq, Repr

namespace Utf8State

def replacement : Char := Char.ofNat 0xFFFD

/-- The lead byte of a character. -/
def lead (b : ℕ) : Utf8State × List Char :=
  if b ≤ 0x7F then (start, [Char.ofNat b])
  else if 0xC2 ≤ b ∧ b ≤ 0xDF then (inside 0 0x80 0xBF (b - 0xC0), [])
  else if b = 0xE0 then (inside 1 0xA0 0xBF 0, [])
  else if b = 0xED then (inside 1 0x80 0x9F 0xD, [])
  else if 0xE1 ≤ b ∧ b ≤ 0xEF then (inside 1 0x80 0xBF (b - 0xE0), [])
  else if b = 0xF0 then (inside 2 0x90 0xBF 0, [])
  else if b = 0xF4 then (inside 2 0x80 0x8F 4, [])
  else if 0xF1 ≤ b ∧ b ≤ 0xF3 then (inside 2 0x80 0xBF (b - 0xF0), [])
  else (start, [replacement])

/-- What stands for the end of a stream. -/
def flush : Utf8State → List Char
  | start => []
  | inside .. => [replacement]

def continues : Utf8State → ℕ → Bool
  | start, _ => false
  | inside _ lower upper _, b => lower ≤ b && b ≤ upper

/-- A byte that does not continue the character begins the next one. -/
def step : Utf8State → ℕ → Utf8State × List Char
  | start, b => lead b
  | inside more lower upper codePoint, b =>
      if lower ≤ b ∧ b ≤ upper then
        match more with
        | 0 => (start, [Char.ofNat (codePoint * 64 + (b - 0x80))])
        | more + 1 => (inside more 0x80 0xBF (codePoint * 64 + (b - 0x80)), [])
      else ((lead b).1, replacement :: (lead b).2)

def run : Utf8State → List UInt8 → Utf8State × List Char
  | d, [] => (d, [])
  | d, b :: bs => ((run (step d b.toNat).1 bs).1, (step d b.toNat).2 ++ (run (step d b.toNat).1 bs).2)

def decodeFrom (d : Utf8State) (bytes : List UInt8) : List Char :=
  (run d bytes).2 ++ (run d bytes).1.flush

end Utf8State

open Utf8State

def decodeUtf8 (bytes : List UInt8) : List Char := decodeFrom .start bytes

namespace Utf8State

variable {d : Utf8State} {b : UInt8} {bs cs : List UInt8}

@[simp] theorem run_nil (d : Utf8State) : run d [] = (d, []) := rfl

theorem decodeFrom_cons (d : Utf8State) (b : UInt8) (bs : List UInt8) :
    decodeFrom d (b :: bs) = (step d b.toNat).2 ++ decodeFrom (step d b.toNat).1 bs := by
  simp only [decodeFrom, run, List.append_assoc]

theorem run_append (d : Utf8State) (bs cs : List UInt8) :
    run d (bs ++ cs) = ((run (run d bs).1 cs).1, (run d bs).2 ++ (run (run d bs).1 cs).2) := by
  induction bs generalizing d with
  | nil => rfl
  | cons b bs ih => simp only [List.cons_append, run, ih, List.append_assoc]

theorem decodeFrom_append (d : Utf8State) (bs cs : List UInt8) :
    decodeFrom d (bs ++ cs) = (run d bs).2 ++ decodeFrom (run d bs).1 cs := by
  simp only [decodeFrom, run_append, List.append_assoc]

/-! ## Breaking off a character -/

theorem step_of_not_continues (h : d.continues b.toNat = false) :
    step d b.toNat = ((lead b.toNat).1, d.flush ++ (lead b.toNat).2) := by
  cases d with
  | start => rfl
  | inside more lower upper codePoint =>
      have hout : ¬ (lower ≤ b.toNat ∧ b.toNat ≤ upper) := by simpa [continues] using h
      simp only [step, hout, if_false, flush, List.singleton_append]

/-- The bytes start with the rest of a character. -/
def cuts (d : Utf8State) (bytes : List UInt8) : Bool := bytes.head?.any fun b => d.continues b.toNat

theorem decodeFrom_of_not_cuts (h : d.cuts bs = false) :
    decodeFrom d bs = d.flush ++ decodeUtf8 bs := by
  cases bs with
  | nil => simp [decodeUtf8, decodeFrom, flush]
  | cons b bs =>
      rw [decodeUtf8, decodeFrom_cons, decodeFrom_cons, step_of_not_continues h, List.append_assoc]
      rfl

/-- The bytes that continue a character are none that begin one. -/
def Sound : Utf8State → Prop
  | start => True
  | inside more lower upper codePoint => 0x80 ≤ lower ∧ upper ≤ 0xBF ∧
      128 ≤ (codePoint * 64 + (lower - 0x80)) * 64 ^ more

theorem sound_lead (byte : ℕ) : (lead byte).1.Sound := by
  unfold lead
  split_ifs
  all_goals first | exact trivial | exact ⟨by decide, by decide, by norm_num; try omega⟩

theorem sound_step (h : d.Sound) (byte : ℕ) : (step d byte).1.Sound := by
  cases d with
  | start => exact sound_lead byte
  | inside more lower upper codePoint =>
      simp only [step]
      split
      · rename_i hin
        cases more with
        | zero => trivial
        | succ more =>
            obtain ⟨hlower, -, hbig⟩ := h
            refine ⟨Nat.le_refl _, Nat.le_refl _, hbig.trans ?_⟩
            have hle : codePoint * 64 + (lower - 0x80) ≤ codePoint * 64 + (byte - 0x80) := by omega
            calc (codePoint * 64 + (lower - 0x80)) * 64 ^ (more + 1)
                ≤ (codePoint * 64 + (byte - 0x80)) * 64 ^ (more + 1) := Nat.mul_le_mul_right _ hle
              _ = ((codePoint * 64 + (byte - 0x80)) * 64 + (0x80 - 0x80)) * 64 ^ more := by ring
      · exact sound_lead byte

theorem sound_run (h : d.Sound) (bs : List UInt8) : (run d bs).1.Sound := by
  induction bs generalizing d with
  | nil => exact h
  | cons b bs ih => exact ih (sound_step h b.toNat)

/-! ## Streams in pieces -/

/-- No piece starts with the rest of a character. -/
def Unbroken : Utf8State → List (List UInt8) → Prop
  | _, [] => True
  | d, chunk :: chunks => d.cuts chunk = false ∧ Unbroken (run d chunk).1 chunks

instance decidableUnbroken : ∀ d chunks, Decidable (Unbroken d chunks)
  | _, [] => .isTrue trivial
  | d, chunk :: chunks =>
      have := decidableUnbroken (run d chunk).1 chunks
      inferInstanceAs (Decidable (_ ∧ _))

/-! ## Lines -/

theorem ofNat_ne_newline {n : ℕ} (h : n ≠ 10) : Char.ofNat n ≠ '\n' := by
  intro heq
  have hval : (Char.ofNat n).toNat = 10 := congrArg Char.toNat heq
  by_cases hvalid : n.isValidChar
  · rw [Char.ofNat, dif_pos hvalid] at hval
    exact h hval
  · rw [Char.ofNat, dif_neg hvalid] at hval
    cases hval

theorem replacement_ne_newline : replacement ≠ '\n' := by decide

theorem not_mem_flush (d : Utf8State) : '\n' ∉ d.flush := by
  cases d <;> simp [flush, replacement_ne_newline.symm]

theorem not_mem_lead {byte : ℕ} (h : byte ≠ 10) : '\n' ∉ (lead byte).2 := by
  unfold lead
  split_ifs <;> simp [replacement_ne_newline.symm, (ofNat_ne_newline h).symm]

theorem not_mem_step (hd : d.Sound) {byte : ℕ} (h : byte ≠ 10) : '\n' ∉ (step d byte).2 := by
  cases d with
  | start => exact not_mem_lead h
  | inside more lower upper codePoint =>
      simp only [step]
      split
      · rename_i hin
        cases more with
        | zero =>
            have hbig : 128 ≤ codePoint * 64 + (byte - 0x80) := by
              have hlower := hd.2.2
              omega
            simpa using (ofNat_ne_newline (by omega)).symm
        | succ more => exact List.not_mem_nil
      · simp [replacement_ne_newline.symm, not_mem_lead h]

/-- A newline is a character of its own. -/
theorem step_newline (hd : d.Sound) : step d 10 = (start, d.flush ++ ['\n']) := by
  have hnot : d.continues 10 = false := by
    cases d with
    | start => rfl
    | inside more lower upper codePoint =>
        have hlower := hd.1
        simp only [continues, Bool.and_eq_false_iff, decide_eq_false_iff_not]
        exact .inl (by omega)
  exact step_of_not_continues (b := 10) hnot

theorem not_mem_decodeFrom (hd : d.Sound) (h : 10 ∉ bs) : '\n' ∉ decodeFrom d bs := by
  induction bs generalizing d with
  | nil => exact not_mem_flush d
  | cons b bs ih =>
      rw [List.mem_cons, not_or] at h
      rw [decodeFrom_cons, List.mem_append, not_or]
      refine ⟨not_mem_step hd fun heq => h.1 ?_, ih (sound_step hd _) h.2⟩
      exact UInt8.toNat_inj.mp heq.symm

theorem decodeFrom_newline (hd : d.Sound) (bs cs : List UInt8) :
    decodeFrom d (bs ++ 10 :: cs) = decodeFrom d bs ++ '\n' :: decodeUtf8 cs := by
  rw [decodeFrom_append, decodeFrom_cons, show (10 : UInt8).toNat = 10 from rfl,
    step_newline (sound_run hd bs)]
  simp [decodeFrom, decodeUtf8]

/-- The lines of the text are the decoded lines of the bytes. -/
theorem splitLines_decodeUtf8 (bytes : List UInt8) :
    LineReader.splitLines '\n' (decodeUtf8 bytes) =
      ((LineReader.splitLines 10 bytes).1.map decodeUtf8,
        decodeUtf8 (LineReader.splitLines 10 bytes).2) := by
  induction bytes using LineReader.line_induction (10 : UInt8) with
  | last bytes hnot =>
      rw [LineReader.splitLines_of_not_mem hnot, decodeUtf8,
        LineReader.splitLines_of_not_mem (not_mem_decodeFrom (d := .start) trivial hnot)]
      rfl
  | line line rest hnot ih =>
      rw [LineReader.splitLines_append hnot, decodeUtf8, decodeFrom_newline (d := .start) trivial,
        LineReader.splitLines_append (not_mem_decodeFrom (d := .start) trivial hnot), ih]
      rfl

/-- A line that has not ended tells if a character has. -/
theorem run_last (bytes : List UInt8) :
    (run .start (LineReader.splitLines 10 bytes).2).1 = (run .start bytes).1 := by
  induction bytes using LineReader.line_induction (10 : UInt8) with
  | last bytes hnot => rw [LineReader.splitLines_of_not_mem hnot]
  | line line rest hnot ih =>
      have hnewline : step (run .start line).1 (10 : UInt8).toNat =
          (start, (run .start line).1.flush ++ ['\n']) := step_newline (sound_run (d := .start) trivial line)
      rw [LineReader.splitLines_append hnot, ih, run_append, run, hnewline]

theorem decodeUtf8_append_of_not_cuts {bytes chunk : List UInt8}
    (h : (run .start bytes).1.cuts chunk = false) :
    decodeUtf8 (bytes ++ chunk) = decodeUtf8 bytes ++ decodeUtf8 chunk := by
  rw [decodeUtf8, decodeFrom_append, decodeFrom_of_not_cuts h, ← List.append_assoc]
  rfl

/-- A reader that decodes chunk by chunk sees the lines of the bytes, as long as no chunk cuts a
character. -/
theorem splitLines_chunk {bytes chunk : List UInt8} {buffer : List Char}
    (hbuffer : buffer = decodeUtf8 (LineReader.splitLines 10 bytes).2)
    (h : (run .start bytes).1.cuts chunk = false) :
    LineReader.splitLines '\n' (buffer ++ decodeUtf8 chunk) =
      ((LineReader.splitLines 10 ((LineReader.splitLines 10 bytes).2 ++ chunk)).1.map decodeUtf8,
        decodeUtf8 (LineReader.splitLines 10 (bytes ++ chunk)).2) := by
  rw [← run_last] at h
  rw [hbuffer, ← decodeUtf8_append_of_not_cuts h, splitLines_decodeUtf8,
    LineReader.splitLines_append_text bytes]

/-- So it handles the messages on the lines of the bytes. -/
theorem drain_chunk {σ : Type u} {μ : Type v} {onLine : σ → List Char → σ × Bool}
    {handle : σ → μ → σ × Bool} {parse : List Char → Option μ}
    (honLine : ∀ s line, onLine s line = ((parse line).map (handle s)).getD (s, false))
    {bytes chunk : List UInt8} {buffer rest : List Char} {s t : σ} {threw : Bool}
    (hbuffer : buffer = decodeUtf8 (LineReader.splitLines 10 bytes).2)
    (h : (run .start bytes).1.cuts chunk = false)
    (hdrain : LineReader.drain '\n' onLine (buffer ++ decodeUtf8 chunk).length
      (buffer ++ decodeUtf8 chunk) s = (rest, t, threw)) :
    LineReader.runMessages handle s
        ((LineReader.splitLines 10 ((LineReader.splitLines 10 bytes).2 ++ chunk)).1.filterMap
          fun line => parse (decodeUtf8 line)) = (t, threw) ∧
      (threw = false → rest = decodeUtf8 (LineReader.splitLines 10 (bytes ++ chunk)).2) := by
  obtain ⟨hlines, hrest⟩ := LineReader.runLines_of_drain (Nat.le_refl _) hdrain
  rw [splitLines_chunk hbuffer h] at hlines hrest
  rw [LineReader.runLines_eq_runMessages honLine, List.filterMap_map] at hlines
  exact ⟨hlines, hrest⟩

end Utf8State

end VicoopBridge.Library
