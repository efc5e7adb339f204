import VicoopBridge.Library.Utf16
import VicoopBridge.Library.Utf8Decoder

/-! # Components of URIs

`encodeURIComponent` and `decodeURIComponent` on strings of UTF-16 units. Decoding undoes encoding,
and an encoded component has no delimiter in it. -/

namespace VicoopBridge.Library.UriComponent

open Utf16

def percentUnit : UInt16 := 0x25

def hexDigit (u : UInt16) : Option ℕ :=
  let n := u.toNat
  if 48 ≤ n ∧ n ≤ 57 then some (n - 48)
  else if 65 ≤ n ∧ n ≤ 70 then some (n - 55)
  else if 97 ≤ n ∧ n ≤ 102 then some (n - 87)
  else none

def hexByte (high low : UInt16) : Option ℕ := do
  let high ← hexDigit high
  let low ← hexDigit low
  return 16 * high + low

/-- The next byte of a well-formed UTF-8 sequence. -/
def strictStep (d : Utf8State) (b : ℕ) : Option (Utf8State × List Char) :=
  match d with
  | .start => if b ≤ 0x7F ∨ 0xC2 ≤ b ∧ b ≤ 0xF4 then some (Utf8State.lead b) else none
  | .inside .. => if d.continues b then some (d.step b) else none

/-- `decodeURIComponent`, within an escaped character. -/
def decodeFrom : Utf8State → List UInt16 → Option (List UInt16)
  | d, [] => if d = .start then some [] else none
  | d, u :: rest =>
      if u = percentUnit then
        match rest with
        | high :: low :: rest =>
            match (hexByte high low).bind (strictStep d) with
            | some (d, cs) => (decodeFrom d rest).map (encode cs ++ ·)
            | none => none
        | _ => none
      else if d = .start then (decodeFrom .start rest).map (u :: ·)
      else none

def decodeURIComponent (s : List UInt16) : Option (List UInt16) := decodeFrom .start s

def isUnreserved (c : Char) : Bool :=
  c.isAlphanum || c.toNat ∈ [0x2D, 0x5F, 0x2E, 0x21, 0x7E, 0x2A, 0x27, 0x28, 0x29]

def upperHexDigit (n : ℕ) : Char := if n < 10 then Char.ofNat (48 + n) else Char.ofNat (55 + n)

def escape (b : UInt8) : List Char :=
  ['%', upperHexDigit (b.toNat / 16), upperHexDigit (b.toNat % 16)]

def encodeScalar (c : Char) : List Char :=
  if isUnreserved c then [c] else (String.utf8EncodeChar c).flatMap escape

/-- `encodeURIComponent` throws at a surrogate on its own. -/
def encodeURIComponent (s : List UInt16) : Option (List Char) :=
  ((chars s).mapM scalar).map fun cs => cs.flatMap encodeScalar

/-- The units of an ASCII text. -/
def units (text : List Char) : List UInt16 := text.map fun c => UInt16.ofNat c.toNat

/-! ## Decoding what was encoded -/

theorem hexDigit_upperHexDigit {n : ℕ} (h : n < 16) :
    hexDigit (UInt16.ofNat (upperHexDigit n).toNat) = some n := by
  have hall : ∀ n : Fin 16, hexDigit (UInt16.ofNat (upperHexDigit n).toNat) = some n.val := by
    decide
  exact hall ⟨n, h⟩

theorem decodeFrom_escape (d : Utf8State) (b : UInt8) (rest : List UInt16) :
    decodeFrom d (units (escape b) ++ rest) =
      (strictStep d b.toNat).bind fun next =>
        (decodeFrom next.1 rest).map (encode next.2 ++ ·) := by
  have hb := b.toNat_lt
  have hbyte : hexByte (UInt16.ofNat (upperHexDigit (b.toNat / 16)).toNat)
      (UInt16.ofNat (upperHexDigit (b.toNat % 16)).toNat) = some b.toNat := by
    rw [hexByte, hexDigit_upperHexDigit (by omega), hexDigit_upperHexDigit (by omega)]
    exact congrArg some (Nat.div_add_mod b.toNat 16)
  have hunits : units (escape b) ++ rest = percentUnit ::
      UInt16.ofNat (upperHexDigit (b.toNat / 16)).toNat ::
      UInt16.ofNat (upperHexDigit (b.toNat % 16)).toNat :: rest := rfl
  rw [hunits, decodeFrom, if_pos rfl, hbyte, Option.bind_some]
  cases strictStep d b.toNat <;> rfl

theorem decodeFrom_single {u : UInt16} (h : u ≠ percentUnit) (rest : List UInt16) :
    decodeFrom .start (u :: rest) = (decodeFrom .start rest).map (u :: ·) := by
  conv_lhs => unfold decodeFrom
  rw [if_neg h, if_pos rfl]

def strictRun : Utf8State → List UInt8 → Option (Utf8State × List Char)
  | d, [] => some (d, [])
  | d, b :: bytes => (strictStep d b.toNat).bind fun next =>
      (strictRun next.1 bytes).map fun last => (last.1, next.2 ++ last.2)

theorem decodeFrom_escapes (d : Utf8State) (bytes : List UInt8) (rest : List UInt16) :
    decodeFrom d (units (bytes.flatMap escape) ++ rest) =
      (strictRun d bytes).bind fun last =>
        (decodeFrom last.1 rest).map (encode last.2 ++ ·) := by
  induction bytes generalizing d with
  | nil => simp [strictRun, units, encode]
  | cons b bytes ih =>
      have hsplit : units ((b :: bytes).flatMap escape) ++ rest =
          units (escape b) ++ (units (bytes.flatMap escape) ++ rest) := by
        simp [units]
      rw [hsplit, decodeFrom_escape, strictRun]
      cases strictStep d b.toNat with
      | none => rfl
      | some next =>
          rw [Option.bind_some, Option.bind_some, ih]
          cases strictRun next.1 bytes with
          | none => rfl
          | some last => simp [encode, Function.comp_def]

theorem strictStep_last {lower upper codePoint b : ℕ} (h : lower ≤ b ∧ b ≤ upper) :
    strictStep (.inside 0 lower upper codePoint) b =
      some (.start, [Char.ofNat (codePoint * 64 + (b - 0x80))]) := by
  simp [strictStep, Utf8State.continues, Utf8State.step, h]

theorem strictStep_more {more lower upper codePoint b : ℕ} (h : lower ≤ b ∧ b ≤ upper) :
    strictStep (.inside (more + 1) lower upper codePoint) b =
      some (.inside more 0x80 0xBF (codePoint * 64 + (b - 0x80)), []) := by
  simp [strictStep, Utf8State.continues, Utf8State.step, h]

theorem strictStep_lead {b : ℕ} (h : b ≤ 0x7F ∨ 0xC2 ≤ b ∧ b ≤ 0xF4) :
    strictStep .start b = some (Utf8State.lead b) := if_pos h

/-- The lead byte of a character of three bytes. -/
theorem lead_three {b : ℕ} (h : 0xE0 ≤ b ∧ b ≤ 0xEF) :
    Utf8State.lead b = (.inside 1 (if b = 0xE0 then 0xA0 else 0x80)
      (if b = 0xED then 0x9F else 0xBF) (b - 0xE0), []) := by
  unfold Utf8State.lead
  rw [if_neg (by omega), if_neg (by omega)]
  by_cases h0 : b = 0xE0
  · simp [h0]
  · by_cases hd : b = 0xED
    · simp [hd]
    · rw [if_neg h0, if_neg hd, if_pos (by omega), if_neg h0, if_neg hd]

/-- The lead byte of a character of four bytes. -/
theorem lead_four {b : ℕ} (h : 0xF0 ≤ b ∧ b ≤ 0xF4) :
    Utf8State.lead b = (.inside 2 (if b = 0xF0 then 0x90 else 0x80)
      (if b = 0xF4 then 0x8F else 0xBF) (b - 0xF0), []) := by
  unfold Utf8State.lead
  rw [if_neg (by omega), if_neg (by omega), if_neg (by omega), if_neg (by omega),
    if_neg (by omega)]
  by_cases h0 : b = 0xF0
  · simp [h0]
  · by_cases h4 : b = 0xF4
    · simp [h4]
    · rw [if_neg h0, if_neg h4, if_pos (by omega), if_neg h0, if_neg h4]

theorem strictRun_utf8EncodeChar (c : Char) :
    strictRun .start (String.utf8EncodeChar c) = some (.start, [c]) := by
  have hvalid : c.toNat < 0xD800 ∨ 0xDFFF < c.toNat ∧ c.toNat < 0x110000 := c.valid
  have hback : Char.ofNat c.toNat = c := Char.ofNat_toNat c
  have hval : c.val.toNat = c.toNat := rfl
  have hbyte : ∀ n, n < 256 → (UInt8.ofNat n).toNat = n := fun n h => by
    rw [UInt8.toNat_ofNat', Nat.mod_eq_of_lt h]
  unfold String.utf8EncodeChar
  rw [hval]
  generalize c.toNat = n at hvalid hback
  dsimp only
  split
  · rw [strictRun, hbyte n (by omega), strictStep_lead (by omega), Utf8State.lead,
      if_pos (by omega)]
    simp [strictRun, hback]
  split
  · have h0 : n / 64 % 32 = n / 64 := Nat.mod_eq_of_lt (by omega)
    rw [h0, strictRun, hbyte _ (by omega), strictStep_lead (by omega), Utf8State.lead,
      if_neg (by omega), if_pos (by omega), Option.bind_some, strictRun, hbyte _ (by omega),
      strictStep_last (by omega)]
    have hn : (n / 64 + 0xC0 - 0xC0) * 64 + (n % 64 + 0x80 - 0x80) = n := by omega
    rw [hn, hback]
    rfl
  split
  · have h0 : n / 4096 % 16 = n / 4096 := Nat.mod_eq_of_lt (by omega)
    rw [h0, strictRun, hbyte _ (by omega), strictStep_lead (by omega), lead_three (by omega),
      Option.bind_some, strictRun, hbyte _ (by omega),
      strictStep_more (by split <;> split <;> omega),
      Option.bind_some, strictRun, hbyte _ (by omega), strictStep_last (by omega)]
    have hn : ((n / 4096 + 0xE0 - 0xE0) * 64 + (n / 64 % 64 + 0x80 - 0x80)) * 64 +
        (n % 64 + 0x80 - 0x80) = n := by omega
    rw [hn, hback]
    rfl
  · have h0 : n / 262144 % 8 = n / 262144 := Nat.mod_eq_of_lt (by omega)
    rw [h0, strictRun, hbyte _ (by omega), strictStep_lead (by omega), lead_four (by omega),
      Option.bind_some, strictRun, hbyte _ (by omega),
      strictStep_more (by split <;> split <;> omega),
      Option.bind_some, strictRun, hbyte _ (by omega), strictStep_more (by omega),
      Option.bind_some, strictRun, hbyte _ (by omega), strictStep_last (by omega)]
    have hn : (((n / 262144 + 0xF0 - 0xF0) * 64 + (n / 4096 % 64 + 0x80 - 0x80)) * 64 +
        (n / 64 % 64 + 0x80 - 0x80)) * 64 + (n % 64 + 0x80 - 0x80) = n := by omega
    rw [hn, hback]
    rfl

theorem isUnreserved_toNat_lt {c : Char} (h : isUnreserved c = true) : c.toNat < 0x80 := by
  have halpha : c.isAlpha = (decide (c.val ≥ 'A'.val ∧ c.val ≤ 'Z'.val) ||
      (decide (c.val ≥ 'a'.val) && decide (c.val ≤ 'z'.val))) := rfl
  simp only [isUnreserved, Char.isAlphanum, halpha, Char.isDigit, Bool.or_eq_true,
    Bool.and_eq_true, decide_eq_true_eq] at h
  have hval : c.val.toNat = c.toNat := rfl
  have hz : 'z'.val.toNat = 122 ∧ 'Z'.val.toNat = 90 ∧ '9'.val.toNat = 57 := ⟨rfl, rfl, rfl⟩
  simp only [ge_iff_le, UInt32.le_iff_toNat_le, hval] at h
  rcases h with h | h
  · omega
  · simp only [List.mem_cons, List.not_mem_nil, or_false] at h
    omega

theorem decodeFrom_encodeScalar (c : Char) (rest : List UInt16) :
    decodeFrom .start (units (encodeScalar c) ++ rest) =
      (decodeFrom .start rest).map (encodeChar c ++ ·) := by
  unfold encodeScalar
  split
  · rename_i h
    have hlt := isUnreserved_toNat_lt h
    have hne : UInt16.ofNat c.toNat ≠ percentUnit := by
      intro heq
      have hnat := congrArg UInt16.toNat heq
      rw [UInt16.toNat_ofNat', Nat.mod_eq_of_lt (by omega)] at hnat
      obtain rfl : c = '%' := Char.toNat_inj.mp hnat
      exact absurd h (by decide)
    have hunits : units [c] ++ rest = UInt16.ofNat c.toNat :: rest := rfl
    rw [hunits, decodeFrom_single hne, encodeChar, if_pos (by omega)]
    rfl
  · rw [decodeFrom_escapes, strictRun_utf8EncodeChar]
    simp [encode]

/-- Each element has its own result. -/
theorem forall₂_of_mapM {α β : Type} {f : α → Option β} {xs : List α} {ys : List β}
    (h : xs.mapM f = some ys) : List.Forall₂ (fun x y => f x = some y) xs ys := by
  induction xs generalizing ys with
  | nil =>
      obtain rfl := Option.some.inj h
      exact .nil
  | cons x xs ih =>
      rw [List.mapM_cons] at h
      obtain ⟨y, hy, h⟩ := Option.bind_eq_some_iff.mp h
      obtain ⟨rest, hrest, h⟩ := Option.bind_eq_some_iff.mp h
      obtain rfl := Option.some.inj h
      exact .cons hy (ih hrest)

theorem map_encodeChar_of_mapM {chs : List (List UInt16)} {cs : List Char}
    (hchs : ∀ ch ∈ chs, IsChar ch) (h : chs.mapM scalar = some cs) : cs.map encodeChar = chs := by
  have hall := forall₂_of_mapM h
  clear h
  induction hall with
  | nil => rfl
  | cons hone _ ih =>
      rw [List.map_cons, encodeChar_scalar (hchs _ List.mem_cons_self) hone,
        ih fun ch hmem => hchs ch (List.mem_cons_of_mem _ hmem)]

theorem decode_encode {s : List UInt16} {text : List Char} (h : encodeURIComponent s = some text) :
    decodeURIComponent (units text) = some s := by
  obtain ⟨cs, hcs, rfl⟩ := Option.map_eq_some_iff.mp h
  have hencode : encode cs = s := by
    rw [encode, List.flatMap_def,
      map_encodeChar_of_mapM (fun _ hmem => isChar_of_mem_chars hmem) hcs, flatten_chars]
  have hdecode : ∀ cs, decodeFrom .start (units (cs.flatMap encodeScalar)) = some (encode cs) := by
    intro cs
    induction cs with
    | nil => rfl
    | cons c cs ih =>
        have hsplit : units ((c :: cs).flatMap encodeScalar) =
            units (encodeScalar c) ++ units (cs.flatMap encodeScalar) := by
          simp [units]
        rw [hsplit, decodeFrom_encodeScalar, ih]
        rfl
  rw [decodeURIComponent, hdecode, hencode]

/-! ## What an encoded component is made of -/

theorem isUnreserved_upperHexDigit {n : ℕ} (h : n < 16) : isUnreserved (upperHexDigit n) = true := by
  have hall : ∀ n : Fin 16, isUnreserved (upperHexDigit n) = true := by decide
  exact hall ⟨n, h⟩

theorem isUnreserved_or_percent {s : List UInt16} {text : List Char}
    (h : encodeURIComponent s = some text) {c : Char} (hmem : c ∈ text) :
    isUnreserved c = true ∨ c = '%' := by
  obtain ⟨cs, -, rfl⟩ := Option.map_eq_some_iff.mp h
  obtain ⟨d, -, hmem⟩ := List.mem_flatMap.mp hmem
  unfold encodeScalar at hmem
  split at hmem
  · rename_i hd
    rw [List.mem_singleton.mp hmem]
    exact .inl hd
  · obtain ⟨b, -, hmem⟩ := List.mem_flatMap.mp hmem
    have hb := b.toNat_lt
    simp only [escape, List.mem_cons, List.not_mem_nil, or_false] at hmem
    rcases hmem with rfl | rfl | rfl
    · exact .inr rfl
    · exact .inl (isUnreserved_upperHexDigit (by omega))
    · exact .inl (isUnreserved_upperHexDigit (by omega))

/-! ## UTF-8 -/

theorem run_of_strictRun {d : Utf8State} {bytes : List UInt8} {last : Utf8State × List Char}
    (h : strictRun d bytes = some last) : Utf8State.run d bytes = last := by
  induction bytes generalizing d last with
  | nil => exact Option.some.inj h
  | cons b bytes ih =>
      obtain ⟨next, hnext, h⟩ := Option.bind_eq_some_iff.mp h
      obtain ⟨rest, hrest, rfl⟩ := Option.map_eq_some_iff.mp h
      have hstep : d.step b.toNat = next := by
        unfold strictStep at hnext
        split at hnext
        · split at hnext
          · exact Option.some.inj hnext
          · contradiction
        · split at hnext
          · exact Option.some.inj hnext
          · contradiction
      rw [Utf8State.run, hstep, ih hrest]

theorem decodeUtf8_encode (cs : List Char) : decodeUtf8 (cs.flatMap String.utf8EncodeChar) = cs := by
  induction cs with
  | nil => rfl
  | cons c cs ih =>
      have hrun := run_of_strictRun (strictRun_utf8EncodeChar c)
      rw [List.flatMap_cons, decodeUtf8, Utf8State.decodeFrom_append, hrun]
      exact congrArg (c :: ·) ih

end VicoopBridge.Library.UriComponent
