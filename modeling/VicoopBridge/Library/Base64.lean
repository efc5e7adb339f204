import Mathlib.Algebra.BigOperators.Ring.List
import Mathlib.Algebra.Ring.Nat
import Mathlib.Data.List.GetD

/-! # Base64

The encoding with padding, and how long the encodings of several texts can get together: every
text is padded for itself. -/

namespace VicoopBridge.Library.Base64

def alphabet : List Char :=
  "ABCDEFGHIJKLMNOPQRSTUVWXYZabcdefghijklmnopqrstuvwxyz0123456789+/".toList

def digit (n : ℕ) : Char := alphabet.getD n '='

/-- Three bytes at a time. -/
def encode : List UInt8 → List Char
  | [] => []
  | [a] => [digit (a.toNat / 4), digit (a.toNat % 4 * 16), '=', '=']
  | [a, b] =>
      [digit (a.toNat / 4), digit (a.toNat % 4 * 16 + b.toNat / 16), digit (b.toNat % 16 * 4), '=']
  | a :: b :: c :: rest =>
      [digit (a.toNat / 4), digit (a.toNat % 4 * 16 + b.toNat / 16),
        digit (b.toNat % 16 * 4 + c.toNat / 64), digit (c.toNat % 64)] ++ encode rest

/-- The bytes of the groups of four digits. Of the last group two digits give one byte and three
give two; a digit alone gives none. -/
def bytesOf : List ℕ → List UInt8
  | a :: b :: c :: d :: rest =>
      [UInt8.ofNat (a * 4 + b / 16), UInt8.ofNat (b % 16 * 16 + c / 4),
        UInt8.ofNat (c % 4 * 64 + d)] ++ bytesOf rest
  | [a, b, c] => [UInt8.ofNat (a * 4 + b / 16), UInt8.ofNat (b % 16 * 16 + c / 4)]
  | [a, b] => [UInt8.ofNat (a * 4 + b / 16)]
  | [_] | [] => []

theorem length_bytesOf (digits : List ℕ) : (bytesOf digits).length = digits.length * 3 / 4 := by
  induction digits using bytesOf.induct with
  | case1 a b c d rest ih =>
      rw [bytesOf, List.length_append, ih]
      simp only [List.length_cons, List.length_nil]
      omega
  | case2 a b c => simp [bytesOf]
  | case3 a b => simp [bytesOf]
  | case4 a => simp [bytesOf]
  | case5 => rfl

/-- The characters of an encoding of `n` bytes. -/
def encodedLength (n : ℕ) : ℕ := 4 * ((n + 2) / 3)

@[simp] theorem length_encode (bytes : List UInt8) :
    (encode bytes).length = encodedLength bytes.length := by
  induction bytes using encode.induct with
  | case1 => rfl
  | case2 a => simp [encode, encodedLength]
  | case3 a b => simp [encode, encodedLength]
  | case4 a b c rest ih =>
      rw [encode, List.length_append, ih]
      simp only [encodedLength, List.length_cons, List.length_nil]
      omega

/-- An encoding is the digits of its bytes, filled up to groups of four. -/
theorem encode_eq (bytes : List UInt8) :
    ∃ digits pad, encode bytes = digits.map digit ++ List.replicate pad '=' ∧ pad ≤ 2 ∧
      (∀ n ∈ digits, n < 64) ∧ bytesOf digits = bytes := by
  have hlast (k : ℕ) (x : UInt8) (h : k = x.toNat) : UInt8.ofNat k = x := by
    rw [h, UInt8.ofNat_toNat]
  induction bytes using encode.induct with
  | case1 => exact ⟨[], 0, rfl, by simp, by simp, rfl⟩
  | case2 a =>
      have ha := a.toNat_lt
      refine ⟨[a.toNat / 4, a.toNat % 4 * 16], 2, rfl, by simp, ?_, ?_⟩
      · simp only [List.forall_mem_cons, List.not_mem_nil, false_implies, implies_true, and_true]
        omega
      · rw [bytesOf, hlast _ a (by omega)]
  | case3 a b =>
      have ha := a.toNat_lt
      have hb := b.toNat_lt
      refine ⟨[a.toNat / 4, a.toNat % 4 * 16 + b.toNat / 16, b.toNat % 16 * 4], 1, rfl, by simp,
        ?_, ?_⟩
      · simp only [List.forall_mem_cons, List.not_mem_nil, false_implies, implies_true, and_true]
        omega
      · rw [bytesOf, hlast _ a (by omega), hlast _ b (by omega)]
  | case4 a b c rest ih =>
      have ha := a.toNat_lt
      have hb := b.toNat_lt
      have hc := c.toNat_lt
      obtain ⟨digits, pad, heq, hpad, hlt, hbytes⟩ := ih
      refine ⟨a.toNat / 4 :: (a.toNat % 4 * 16 + b.toNat / 16) ::
        (b.toNat % 16 * 4 + c.toNat / 64) :: c.toNat % 64 :: digits, pad, ?_, hpad, ?_, ?_⟩
      · rw [encode, heq]
        rfl
      · simp only [List.forall_mem_cons]
        exact ⟨by omega, by omega, by omega, by omega, hlt⟩
      · rw [bytesOf, hbytes, hlast _ a (by omega), hlast _ b (by omega), hlast _ c (by omega)]
        rfl

theorem utf8Size_digit (n : ℕ) : (digit n).utf8Size = 1 := by
  have hall : alphabet.all (fun c => c.utf8Size == 1) = true := by decide +kernel
  unfold digit
  by_cases h : n < alphabet.length
  · rw [List.getD_eq_getElem _ _ h]
    exact eq_of_beq (List.all_eq_true.mp hall _ (List.getElem_mem h))
  · rw [List.getD_eq_default _ _ (Nat.le_of_not_lt h)]
    rfl

/-- An encoding is all ASCII. -/
theorem utf8Size_encode (bytes : List UInt8) : ∀ c ∈ encode bytes, c.utf8Size = 1 := by
  have hpad : Char.utf8Size '=' = 1 := rfl
  induction bytes using encode.induct with
  | case1 => simp [encode]
  | case2 a => simp [encode, utf8Size_digit, hpad]
  | case3 a b => simp [encode, utf8Size_digit, hpad]
  | case4 a b c rest ih =>
      intro x hx
      rw [encode, List.mem_append] at hx
      rcases hx with hx | hx
      · simp only [List.mem_cons, List.not_mem_nil, or_false] at hx
        rcases hx with rfl | rfl | rfl | rfl <;> exact utf8Size_digit _
      · exact ih x hx

/-- Each text adds two bytes of padding at most. -/
theorem sum_groups_le (sizes : List ℕ) :
    (sizes.map fun n => (n + 2) / 3).sum ≤ (sizes.sum + 2 * sizes.length) / 3 := by
  induction sizes with
  | nil => simp
  | cons n rest ih =>
      simp only [List.map_cons, List.sum_cons, List.length_cons]
      omega

theorem sum_encodedLength_le {sizes : List ℕ} {total count : ℕ} (htotal : sizes.sum ≤ total)
    (hcount : sizes.length ≤ count) :
    (sizes.map encodedLength).sum ≤ 4 * ((total + 2 * count) / 3) := by
  have hsum : (sizes.map encodedLength).sum = 4 * (sizes.map fun n => (n + 2) / 3).sum := by
    exact List.sum_map_mul_left sizes (fun n => (n + 2) / 3) 4
  have hgroups := sum_groups_le sizes
  rw [hsum]
  omega

end VicoopBridge.Library.Base64
