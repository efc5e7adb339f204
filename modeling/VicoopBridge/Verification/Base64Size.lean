import VicoopBridge.Model.Base64Size
import Mathlib.Data.List.TakeWhile

/-! # Whether the estimate bounds the file

Characters that the decoder skips only make the file smaller. The estimate takes the padding off
the bytes, though, where the decoder takes it off the characters: padding that the digits do not
call for makes the estimate too small, by one byte. -/

namespace VicoopBridge.Base64Size

open Library

/-- Digits only, and more padding than they call for. -/
def OverPadded (b64 : JsText) : Prop :=
  ∃ (text : JsText) (pad : ℕ), b64 = text ++ List.replicate pad equalsSign ∧ text ≠ [] ∧
    (∀ u ∈ text, (sextet? u).isSome) ∧ (pad = 1 ∨ pad = 2) ∧
    (text.length % 4 = 0 ∨ pad = 2 ∧ text.length % 4 = 3)

theorem padding_le (b64 : JsText) : padding b64 ≤ 2 := by
  rw [padding]
  split
  · exact le_rfl
  · split <;> omega

theorem exists_core (b64 : JsText) :
    ∃ text, b64 = text ++ List.replicate (padding b64) equalsSign := by
  rw [padding]
  split
  · next htwo =>
      obtain ⟨text, rfl⟩ := htwo
      exact ⟨text, rfl⟩
  · split
    · next hone =>
        obtain ⟨text, rfl⟩ := hone
        exact ⟨text, rfl⟩
    · exact ⟨b64, (List.append_nil b64).symm⟩

theorem ne_equalsSign {u : UInt16} (h : (sextet? u).isSome) : u ≠ equalsSign := by
  rintro rfl
  exact absurd h (by decide)

/-- Behind digits the padding is what is written. -/
theorem padding_append {text : JsText} (htext : ∀ u ∈ text, (sextet? u).isSome) {pad : ℕ}
    (hpad : pad = 1 ∨ pad = 2) : padding (text ++ List.replicate pad equalsSign) = pad := by
  obtain rfl | rfl := hpad
  · have hnot : ¬ [equalsSign, equalsSign] <:+ text ++ [equalsSign] := by
      intro hsuffix
      have hlast : [equalsSign] <:+ text := List.suffix_append_self_iff.mp hsuffix
      exact ne_equalsSign (htext _ (hlast.subset (List.mem_singleton_self _))) rfl
    rw [padding, List.replicate_one, if_neg hnot, if_pos (List.suffix_append _ _)]
  · have hsuffix : [equalsSign, equalsSign] <:+ text ++ List.replicate 2 equalsSign :=
      List.suffix_append _ _
    rw [padding, if_pos hsuffix]

theorem digits_append (text : JsText) (pad : ℕ) :
    digits (text ++ List.replicate pad equalsSign) =
      (text.takeWhile (· ≠ equalsSign)).filterMap sextet? := by
  have hnone : (List.replicate pad equalsSign).takeWhile (· ≠ equalsSign) = [] := by
    simp
  rw [digits, List.takeWhile_append, hnone, List.append_nil]
  split
  · next hall => rw [(List.takeWhile_prefix _).eq_of_length hall]
  · rfl

/-- Every digit is a character, and what is no digit is lost. -/
theorem length_digits_le (text : JsText) (pad : ℕ) :
    (digits (text ++ List.replicate pad equalsSign)).length ≤ text.length := by
  rw [digits_append]
  exact (List.length_filterMap_le _ _).trans (List.takeWhile_prefix _).length_le

theorem length_digits_eq_iff (text : JsText) (pad : ℕ) :
    (digits (text ++ List.replicate pad equalsSign)).length = text.length ↔
      ∀ u ∈ text, (sextet? u).isSome := by
  rw [digits_append]
  constructor
  · intro hlength
    have hread := List.length_filterMap_le sextet? (text.takeWhile (· ≠ equalsSign))
    have hall : text.takeWhile (· ≠ equalsSign) = text :=
      (List.takeWhile_prefix _).eq_of_length
        ((List.takeWhile_prefix _).length_le.antisymm (hlength ▸ hread))
    rw [hall] at hlength
    exact List.filterMap_length_eq_length.mp hlength
  · intro hall
    have hread : text.takeWhile (· ≠ equalsSign) = text := by
      refine List.takeWhile_eq_self_iff.mpr fun u hu => ?_
      simpa using ne_equalsSign (hall u hu)
    rw [hread]
    exact List.filterMap_length_eq_length.mpr hall

/-- The estimate is short only where every character in front of the padding is a digit. -/
theorem length_decodeBase64 (text : JsText) (pad : ℕ) (hpad : pad ≤ 2)
    (hpadding : padding (text ++ List.replicate pad equalsSign) = pad) :
    ((decodeBase64 (text ++ List.replicate pad equalsSign)).length : ℤ) ≤
        decodedBase64Size (text ++ List.replicate pad equalsSign) ↔
      ¬ ((digits (text ++ List.replicate pad equalsSign)).length = text.length ∧ text ≠ [] ∧
        (pad = 1 ∨ pad = 2) ∧ (text.length % 4 = 0 ∨ pad = 2 ∧ text.length % 4 = 3)) := by
  have hle := length_digits_le text pad
  have hnil : text ≠ [] ↔ 0 < text.length := List.length_pos_iff.symm
  rw [decodeBase64, Base64.length_bytesOf, decodedBase64Size, hpadding, List.length_append,
    List.length_replicate, hnil]
  generalize (digits (text ++ List.replicate pad equalsSign)).length = m at hle ⊢
  clear hpadding hnil
  generalize text.length = n at hle ⊢
  obtain ⟨k, r, hr, rfl⟩ : ∃ k r, r < 4 ∧ n = 4 * k + r := ⟨n / 4, n % 4, by omega, by omega⟩
  obtain rfl | rfl | rfl : pad = 0 ∨ pad = 1 ∨ pad = 2 := by omega
  all_goals
    obtain rfl | rfl | rfl | rfl : r = 0 ∨ r = 1 ∨ r = 2 ∨ r = 3 := by omega
    all_goals split <;> omega

theorem sextet?_digit {n : ℕ} (h : n < 64) :
    sextet? (UInt16.ofNat (Base64.digit n).toNat) = some n := by
  have hall : ∀ n : Fin 64, sextet? (UInt16.ofNat (Base64.digit n).toNat) = some n.val := by
    decide +kernel
  exact hall ⟨n, h⟩

/-- The decoder gives back the bytes that were encoded, and the estimate is their number. -/
theorem decodeBase64_encode (bytes : List UInt8) :
    decodeBase64 (JsText.ofAscii (String.ofList (Base64.encode bytes))) = bytes ∧
      decodedBase64Size (JsText.ofAscii (String.ofList (Base64.encode bytes))) = bytes.length := by
  obtain ⟨ds, pad, heq, hpad, hlt, rfl⟩ := Base64.encode_eq bytes
  have hlength := congrArg List.length heq
  rw [Base64.length_encode, Base64.encodedLength, Base64.length_bytesOf, List.length_append,
    List.length_map, List.length_replicate] at hlength
  let text : JsText := ds.map fun n => UInt16.ofNat (Base64.digit n).toNat
  have htext : ∀ u ∈ text, (sextet? u).isSome := by
    intro u hu
    obtain ⟨n, hn, rfl⟩ := List.mem_map.mp hu
    rw [sextet?_digit (hlt n hn)]
    rfl
  have hencoded : JsText.ofAscii (String.ofList (Base64.encode (Base64.bytesOf ds))) =
      text ++ List.replicate pad equalsSign := by
    rw [heq, JsText.ofAscii, String.toList_ofList, List.map_append, List.map_map,
      List.map_replicate]
    rfl
  have hread : text.takeWhile (· ≠ equalsSign) = text :=
    List.takeWhile_eq_self_iff.mpr fun u hu => by simpa using ne_equalsSign (htext u hu)
  have hdigits : text.filterMap sextet? = ds := by
    rw [List.filterMap_map]
    exact (List.filterMap_congr fun n hn => sextet?_digit (hlt n hn)).trans List.filterMap_some
  have hpadding : padding (text ++ List.replicate pad equalsSign) = pad := by
    obtain rfl | hpad : pad = 0 ∨ pad = 1 ∨ pad = 2 := by omega
    · have hnot (before : JsText) : ¬ before ++ [equalsSign] = text := fun h =>
        ne_equalsSign (htext equalsSign (h ▸ List.mem_append_right _ (by simp))) rfl
      rw [List.replicate_zero, List.append_nil, padding, if_neg, if_neg]
      · rintro ⟨before, h⟩
        exact hnot before h
      · rintro ⟨before, h⟩
        exact hnot (before ++ [equalsSign]) (by simpa using h)
    · exact padding_append htext hpad
  rw [hencoded, decodedBase64Size, hpadding, decodeBase64, digits_append, hread, hdigits,
    Base64.length_bytesOf, List.length_append, List.length_map, List.length_replicate]
  refine ⟨rfl, ?_⟩
  split <;> omega

end VicoopBridge.Base64Size
