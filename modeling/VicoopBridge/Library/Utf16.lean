import Mathlib.Algebra.GroupWithZero.Nat
import Mathlib.Data.List.Basic
import Mathlib.Data.List.Flatten

/-! # Strings of UTF-16 units

A string is the list of its units. Its characters are the surrogate pairs and the other units: a
surrogate without its half stands alone, and takes the three bytes of the replacement character in
UTF-8. -/

namespace VicoopBridge.Library.Utf16

def isHigh (u : UInt16) : Bool := 0xD800 ≤ u.toNat && u.toNat < 0xDC00

def isLow (u : UInt16) : Bool := 0xDC00 ≤ u.toNat && u.toNat < 0xE000

/-- The characters, each as its units. -/
def chars : List UInt16 → List (List UInt16)
  | [] => []
  | [u] => [[u]]
  | u :: v :: rest =>
      if isHigh u && isLow v then [u, v] :: chars rest else [u] :: chars (v :: rest)

/-- The bytes of a character in UTF-8. -/
def charBytes : List UInt16 → ℕ
  | [] => 0
  | [u] => if u.toNat < 0x80 then 1 else if u.toNat < 0x800 then 2 else 3
  | _ :: _ :: _ => 4

def utf8Length (s : List UInt16) : ℕ := ((chars s).map charBytes).sum

/-- No pair of surrogates lies across the seam. -/
def Apart (s t : List UInt16) : Prop :=
  ∀ u ∈ s.getLast?, ∀ v ∈ t.head?, ¬ (isHigh u ∧ isLow v)

/-- The units of a Unicode scalar value. -/
def encodeChar (c : Char) : List UInt16 :=
  if c.toNat < 0x10000 then [UInt16.ofNat c.toNat]
  else [UInt16.ofNat (0xD800 + (c.toNat - 0x10000) / 1024),
    UInt16.ofNat (0xDC00 + (c.toNat - 0x10000) % 1024)]

def encode (cs : List Char) : List UInt16 := cs.flatMap encodeChar

@[simp] theorem chars_nil : chars [] = [] := rfl

theorem chars_pair {u v : UInt16} (hu : isHigh u = true) (hv : isLow v = true)
    (rest : List UInt16) : chars (u :: v :: rest) = [u, v] :: chars rest := by
  simp [chars, hu, hv]

theorem chars_cons {u : UInt16} {rest : List UInt16} (h : Apart [u] rest) :
    chars (u :: rest) = [u] :: chars rest := by
  cases rest with
  | nil => rfl
  | cons v rest =>
      have hnot : (isHigh u && isLow v) = false := by
        simpa using h u rfl v rfl
      simp [chars, hnot]

/-- Every text is empty, or starts with a pair or with a unit that stands alone. -/
theorem chars_induction {motive : List UInt16 → Prop} (nil : motive [])
    (pair : ∀ u v rest, isHigh u = true → isLow v = true → motive rest → motive (u :: v :: rest))
    (single : ∀ u rest, Apart [u] rest → motive rest → motive (u :: rest))
    (s : List UInt16) : motive s := by
  induction s using chars.induct with
  | case1 => exact nil
  | case2 u => exact single u [] (by simp [Apart]) nil
  | case3 u v rest h ih =>
      obtain ⟨hu, hv⟩ := Bool.and_eq_true_iff.mp h
      exact pair u v rest hu hv ih
  | case4 u v rest h ih =>
      refine single u (v :: rest) ?_ ih
      intro u' hu' v' hv'
      obtain rfl := Option.mem_some_iff.mp hu'
      obtain rfl := Option.mem_some_iff.mp hv'
      simpa using h

theorem flatten_chars (s : List UInt16) : (chars s).flatten = s := by
  induction s using chars_induction with
  | nil => rfl
  | pair u v rest hu hv ih => rw [chars_pair hu hv, List.flatten_cons, ih]; rfl
  | single u rest h ih => rw [chars_cons h, List.flatten_cons, ih]; rfl

theorem Apart.tail {u : UInt16} {s t : List UInt16} (h : Apart (u :: s) t) (hs : s ≠ []) :
    Apart s t := by
  intro v hv w hw
  refine h v ?_ w hw
  rwa [List.getLast?_cons_of_ne_nil hs]

theorem apart_nil (t : List UInt16) : Apart [] t := nofun

/-- Texts without a pair across their seam have the characters of both. -/
theorem chars_append {s t : List UInt16} (h : Apart s t) : chars (s ++ t) = chars s ++ chars t := by
  induction s using chars_induction with
  | nil => rfl
  | pair u v rest hu hv ih =>
      have hrest : Apart rest t := by
        by_cases hnil : rest = []
        · rw [hnil]; exact apart_nil t
        · exact (h.tail (List.cons_ne_nil v rest)).tail hnil
      rw [chars_pair hu hv, List.cons_append, List.cons_append, chars_pair hu hv, ih hrest]
      rfl
  | single u rest hapart ih =>
      have hrest : Apart rest t := by
        by_cases hnil : rest = []
        · rw [hnil]; exact apart_nil t
        · exact h.tail hnil
      have hcut : Apart [u] (rest ++ t) := by
        cases rest with
        | nil => exact h
        | cons v rest => exact hapart
      rw [chars_cons hapart, List.cons_append, chars_cons hcut, ih hrest]
      rfl

/-- One character: a unit, or a pair. -/
def IsChar (ch : List UInt16) : Prop :=
  (∃ u, ch = [u]) ∨ ∃ u v, ch = [u, v] ∧ isHigh u = true ∧ isLow v = true

/-- Characters that stay what they are where they stand next to each other. -/
def Proper : List (List UInt16) → Prop
  | [] => True
  | ch :: rest => IsChar ch ∧ Apart ch rest.flatten ∧ Proper rest

theorem not_high_of_low {u : UInt16} (h : isLow u = true) : isHigh u = false := by
  simp only [isLow, isHigh, Bool.and_eq_true, decide_eq_true_eq, Bool.and_eq_false_iff,
    decide_eq_false_iff_not] at h ⊢
  omega

theorem apart_of_last {s t : List UInt16} {u : UInt16} (hlast : s.getLast? = some u)
    (h : isHigh u = false) : Apart s t := by
  intro v hv w _ hpair
  rw [hlast] at hv
  obtain rfl := Option.mem_some_iff.mp hv
  exact absurd hpair.1 (by simp [h])

theorem proper_chars (s : List UInt16) : Proper (chars s) := by
  induction s using chars_induction with
  | nil => trivial
  | pair u v rest hu hv ih =>
      rw [chars_pair hu hv]
      exact ⟨.inr ⟨u, v, rfl, hu, hv⟩, apart_of_last rfl (not_high_of_low hv), ih⟩
  | single u rest h ih =>
      rw [chars_cons h]
      exact ⟨.inl ⟨u, rfl⟩, by rwa [flatten_chars], ih⟩

theorem chars_flatten {xs : List (List UInt16)} (h : Proper xs) : chars xs.flatten = xs := by
  induction xs with
  | nil => rfl
  | cons ch rest ih =>
      obtain ⟨hchar, hapart, hrest⟩ := h
      rw [List.flatten_cons, chars_append hapart, ih hrest]
      rcases hchar with ⟨u, rfl⟩ | ⟨u, v, rfl, hu, hv⟩
      · rfl
      · rw [chars_pair hu hv, chars_nil]
        rfl

theorem utf8Length_le (s : List UInt16) : utf8Length s ≤ 3 * s.length := by
  unfold utf8Length
  induction s using chars_induction with
  | nil => exact Nat.le_refl 0
  | pair u v rest hu hv ih =>
      rw [chars_pair hu hv, List.map_cons, List.sum_cons]
      simp only [charBytes, List.length_cons]
      omega
  | single u rest h ih =>
      have hone : charBytes [u] ≤ 3 := by
        simp only [charBytes]
        split
        · omega
        · split <;> omega
      rw [chars_cons h, List.map_cons, List.sum_cons, List.length_cons]
      omega

theorem charBytes_pos {ch : List UInt16} (h : ch ≠ []) : 0 < charBytes ch := by
  cases ch with
  | nil => exact absurd rfl h
  | cons u rest =>
      cases rest with
      | nil =>
          simp only [charBytes]
          split
          · exact Nat.one_pos
          · split <;> exact Nat.succ_pos _
      | cons v rest => exact Nat.succ_pos 3

theorem ne_nil_of_mem_chars {s ch : List UInt16} (h : ch ∈ chars s) : ch ≠ [] := by
  induction s using chars_induction with
  | nil => cases h
  | pair u v rest hu hv ih =>
      rw [chars_pair hu hv] at h
      rcases List.mem_cons.mp h with rfl | h
      · exact List.cons_ne_nil _ _
      · exact ih h
  | single u rest hapart ih =>
      rw [chars_cons hapart] at h
      rcases List.mem_cons.mp h with rfl | h
      · exact List.cons_ne_nil _ _
      · exact ih h

/-! ## Unicode texts -/

/-- The scalar value of a character, unless it is a surrogate on its own. -/
def scalar : List UInt16 → Option Char
  | [u] => if isHigh u || isLow u then none else some (Char.ofNat u.toNat)
  | [u, v] => some (Char.ofNat (0x10000 + (u.toNat - 0xD800) * 1024 + (v.toNat - 0xDC00)))
  | _ => none

/-- A surrogate on its own becomes the replacement character. -/
def toScalars (s : List UInt16) : List Char := (chars s).map fun ch => (scalar ch).getD '\uFFFD'

theorem toNat_ofNat {n : ℕ} (h : n.isValidChar) : (Char.ofNat n).toNat = n := by
  rw [Char.ofNat, dif_pos h]
  rfl

theorem encodeChar_scalar {ch : List UInt16} {c : Char} (hch : IsChar ch) (h : scalar ch = some c) :
    encodeChar c = ch := by
  rcases hch with ⟨u, rfl⟩ | ⟨u, v, rfl, hu, hv⟩
  · have hlt := u.toNat_lt
    simp only [scalar, isHigh, isLow, Bool.or_eq_true, Bool.and_eq_true, decide_eq_true_eq] at h
    split at h
    · contradiction
    · rename_i hsingle
      obtain rfl := Option.some.inj h
      have hnat : (Char.ofNat u.toNat).toNat = u.toNat := toNat_ofNat (by
        simp only [Nat.isValidChar]
        omega)
      rw [encodeChar, hnat, if_pos hlt, UInt16.ofNat_toNat]
  · have hu' := hu
    have hv' := hv
    simp only [isHigh, isLow, Bool.and_eq_true, decide_eq_true_eq] at hu' hv'
    obtain rfl := Option.some.inj h
    have hnat : (Char.ofNat (0x10000 + (u.toNat - 0xD800) * 1024 + (v.toNat - 0xDC00))).toNat =
        0x10000 + (u.toNat - 0xD800) * 1024 + (v.toNat - 0xDC00) :=
      toNat_ofNat (by
        simp only [Nat.isValidChar]
        omega)
    rw [encodeChar, hnat, if_neg (by omega)]
    have hhigh : 0xD800 + (0x10000 + (u.toNat - 0xD800) * 1024 + (v.toNat - 0xDC00) - 0x10000) /
        1024 = u.toNat := by omega
    have hlow : 0xDC00 + (0x10000 + (u.toNat - 0xD800) * 1024 + (v.toNat - 0xDC00) - 0x10000) %
        1024 = v.toNat := by omega
    rw [hhigh, hlow, UInt16.ofNat_toNat, UInt16.ofNat_toNat]

theorem isChar_of_mem_chars {s ch : List UInt16} (h : ch ∈ chars s) : IsChar ch := by
  induction s using chars_induction with
  | nil => cases h
  | pair u v rest hu hv ih =>
      rw [chars_pair hu hv] at h
      rcases List.mem_cons.mp h with rfl | h
      · exact .inr ⟨u, v, rfl, hu, hv⟩
      · exact ih h
  | single u rest hapart ih =>
      rw [chars_cons hapart] at h
      rcases List.mem_cons.mp h with rfl | h
      · exact .inl ⟨u, rfl⟩
      · exact ih h

end VicoopBridge.Library.Utf16
