import VicoopBridge.Model.FederatedPrincipal
import Mathlib.Data.List.TakeDrop

/-! # The codec of federated principals

What is formatted is read back, and only what is formatted is read. A length counts the bytes of its
component, and the digits and colons in a component are never taken for a prefix. -/

namespace VicoopBridge

open Library

/-! ## Lengths in the text -/

theorem isDigit_bounds {c : Char} (h : c.isDigit = true) : 48 ≤ c.toNat ∧ c.toNat ≤ 57 := by
  simpa using Char.isDigit_iff_toNat.mp h

theorem toNat_unit {c : Char} (h : c.isDigit = true) : (UInt16.ofNat c.toNat).toNat = c.toNat := by
  have hbounds := isDigit_bounds h
  rw [UInt16.toNat_ofNat', Nat.mod_eq_of_lt (by omega)]

theorem toDigits_head_ne_zero {n : ℕ} (h : 0 < n) : (Nat.toDigits 10 n).head? ≠ some '0' := by
  induction n using Nat.strongRecOn with
  | ind n ih =>
      by_cases hsmall : n < 10
      · rw [Nat.toDigits_of_lt_base hsmall]
        interval_cases n <;> decide
      · rw [Nat.toDigits_of_base_le (by decide) (by omega), List.head?_append_of_ne_nil _
          Nat.toDigits_ne_nil]
        exact ih (n / 10) (by omega) (by omega)

/-- A length is written so that it is read back. -/
theorem parseLength_toDigits {n : ℕ} (h : 0 < n) : parseLength (Nat.toDigits 10 n) = some n := by
  have hdigits : ∀ c ∈ Nat.toDigits 10 n, c.isDigit = true := fun c hc =>
    Nat.isDigit_of_mem_toDigits (by decide) (by decide) hc
  have hnot : ¬ (Nat.toDigits 10 n = [] ∨ (Nat.toDigits 10 n).any (fun c => !c.isDigit) = true ∨
      (Nat.toDigits 10 n).head? = some '0' ∧ Nat.toDigits 10 n ≠ ['0']) := by
    rintro (hnil | hany | ⟨hzero, -⟩)
    · exact Nat.toDigits_ne_nil hnil
    · obtain ⟨c, hc, hnot⟩ := List.any_eq_true.mp hany
      simp [hdigits c hc] at hnot
    · exact toDigits_head_ne_zero h hzero
  unfold parseLength
  rw [if_neg hnot]
  exact congrArg some (Nat.ofDigitChars_ten_toDigits (n := n))

/-- What comes before a unit and what starts with it. -/
theorem span_of_not_mem {sep : UInt16} {s : JsText} (h : sep ∉ s) (body : JsText) :
    (s ++ sep :: body).span (· ≠ sep) = (s, sep :: body) := by
  have hnot : ∀ u ∈ s, decide (u ≠ sep) = true := fun u hu =>
    decide_eq_true fun heq => h (heq ▸ hu)
  rw [List.span_eq_takeWhile_dropWhile, List.takeWhile_append_of_pos hnot,
    List.dropWhile_append_of_pos hnot]
  simp

namespace FederatedTuple

/-- The units of a length. -/
def lengthUnits (n : ℕ) : JsText := (Nat.toDigits 10 n).map fun c => UInt16.ofNat c.toNat

theorem ofAscii_toString (n : ℕ) : JsText.ofAscii (toString n) = lengthUnits n := by
  simp [JsText.ofAscii, lengthUnits]

theorem component_eq (value : JsText) :
    component value = lengthUnits (Utf16.utf8Length value) ++ colon :: value := by
  rw [component, ofAscii_toString]

theorem lengthUnits_digit {n : ℕ} {u : UInt16} (h : u ∈ lengthUnits n) :
    48 ≤ u.toNat ∧ u.toNat ≤ 57 := by
  obtain ⟨c, hc, rfl⟩ := List.mem_map.mp h
  have hdigit := Nat.isDigit_of_mem_toDigits (by decide) (by decide) hc
  rw [toNat_unit hdigit]
  exact isDigit_bounds hdigit

theorem lengthUnits_chars (n : ℕ) :
    ((lengthUnits n).map fun u => Char.ofNat u.toNat) = Nat.toDigits 10 n := by
  rw [lengthUnits, List.map_map]
  conv_rhs => rw [← List.map_id (Nat.toDigits 10 n)]
  refine List.map_congr_left fun c hc => ?_
  have hdigit := Nat.isDigit_of_mem_toDigits (by decide) (by decide) hc
  rw [Function.comp_apply, toNat_unit hdigit, Char.ofNat_toNat]
  rfl

theorem lengthUnits_ne_nil (n : ℕ) : lengthUnits n ≠ [] :=
  fun h => Nat.toDigits_ne_nil (List.map_eq_nil_iff.mp h)

theorem span_component (n : ℕ) (body : JsText) :
    (lengthUnits n ++ colon :: body).span (· ≠ colon) = (lengthUnits n, colon :: body) := by
  refine span_of_not_mem (fun hmem => ?_) body
  exact absurd (lengthUnits_digit hmem).2 (by decide)

/-! ## Cutting -/

/-- The loop stops behind the characters whose bytes are left. -/
theorem consume_append {byteLength consumed stop : ℕ} {taken rest : List (List UInt16)}
    (hne : taken ≠ []) (hchars : ∀ ch ∈ taken, ch ≠ [])
    (h : consumed + (taken.map Utf16.charBytes).sum = byteLength) :
    consume byteLength consumed stop (taken ++ rest) = some (stop + taken.flatten.length) := by
  induction taken generalizing consumed stop with
  | nil => exact absurd rfl hne
  | cons ch taken ih =>
      rw [List.map_cons, List.sum_cons] at h
      rw [List.cons_append, consume]
      dsimp only
      rw [if_neg (by omega)]
      by_cases hlast : taken = []
      · subst hlast
        rw [if_pos (by simpa using h)]
        simp
      · have hpos : 0 < (taken.map Utf16.charBytes).sum := by
          obtain ⟨first, others, rfl⟩ := List.exists_cons_of_ne_nil hlast
          have := Utf16.charBytes_pos (hchars first (by simp))
          rw [List.map_cons, List.sum_cons]
          omega
        rw [if_neg (by omega), ih hlast (fun ch' h' => hchars ch' (List.mem_cons_of_mem _ h'))
          (by omega), List.flatten_cons, List.length_append]
        congr 1
        omega

/-- A component is taken off whatever follows, unless that ends a pair of surrogates. -/
theorem takeLengthPrefixed_component {value rest : JsText} (hne : value ≠ [])
    (hsafe : Utf16.utf8Length value ≤ 2 ^ 53 - 1) (hapart : Utf16.Apart value rest) :
    takeLengthPrefixed (component value ++ rest) = some (value, rest) := by
  have hchars : Utf16.chars value ≠ [] := by
    intro h
    exact hne (by rw [← Utf16.flatten_chars value, h]; rfl)
  have hpos : 0 < Utf16.utf8Length value := by
    obtain ⟨first, others, heq⟩ := List.exists_cons_of_ne_nil hchars
    have hmem : first ∈ Utf16.chars value := by rw [heq]; exact List.mem_cons_self
    have := Utf16.charBytes_pos (Utf16.ne_nil_of_mem_chars hmem)
    rw [Utf16.utf8Length, heq, List.map_cons, List.sum_cons]
    omega
  have hstop : consume (Utf16.utf8Length value) 0 0 (Utf16.chars (value ++ rest)) =
      some value.length := by
    rw [Utf16.chars_append hapart, consume_append hchars
      (fun ch hch => Utf16.ne_nil_of_mem_chars hch) (by rw [Nat.zero_add]; rfl),
      Utf16.flatten_chars, Nat.zero_add]
  have hspan : (component value ++ rest).span (· ≠ colon) =
      (lengthUnits (Utf16.utf8Length value), colon :: (value ++ rest)) := by
    rw [component_eq, List.append_assoc, List.cons_append, span_component]
  unfold takeLengthPrefixed
  rw [hspan]
  obtain ⟨first, others, heq⟩ := List.exists_cons_of_ne_nil
    (lengthUnits_ne_nil (Utf16.utf8Length value))
  rw [heq]
  dsimp only
  rw [← heq, lengthUnits_chars, parseLength_toDigits hpos]
  dsimp only
  rw [if_neg (by simp [isSafeInteger]; omega), hstop]
  simp

/-! ## Whole principals -/

/-- A length starts with a digit, which ends no pair. -/
theorem apart_component (s value rest : JsText) : Utf16.Apart s (component value ++ rest) := by
  obtain ⟨first, others, heq⟩ := List.exists_cons_of_ne_nil
    (lengthUnits_ne_nil (Utf16.utf8Length value))
  have hdigit : first.toNat ≤ 57 :=
    (lengthUnits_digit (n := Utf16.utf8Length value) (u := first) (by simp [heq])).2
  intro u _ v hv hpair
  rw [component_eq, heq] at hv
  obtain rfl : first = v := Option.some.inj hv
  have hlow := hpair.2
  simp only [Utf16.isLow, Bool.and_eq_true, decide_eq_true_eq] at hlow
  omega

theorem apart_end (s : JsText) : Utf16.Apart s [] := fun _ _ _ hv => nomatch hv

/-- What a formatted tuple is like, and its text. -/
theorem format_eq_some {t : FederatedTuple} {s : JsText} (h : format t = some s) :
    (t.issuer ≠ [] ∧ t.method ≠ [] ∧ t.subject ≠ []) ∧
      (t.issuer.length ≤ 512 ∧ t.method.length ≤ 256 ∧ t.subject.length ≤ 512) ∧
      s = JsText.ofAscii federatedPrefix ++ component t.issuer ++ component t.method ++
        component t.subject := by
  unfold format at h
  dsimp only at h
  split at h
  · cases h
  · rename_i htrim
    push Not at htrim
    obtain ⟨hissuer, hmethod, hsubject⟩ := htrim
    rw [hissuer, hmethod, hsubject] at h
    split at h
    · cases h
    · rename_i hempty
      push Not at hempty
      split at h
      · cases h
      · split at h
        · cases h
        · rename_i hlong
          push Not at hlong
          split at h
          · refine ⟨⟨?_, hempty.2⟩, hlong, (Option.some.inj h).symm⟩
            intro hnil
            rw [hnil] at hempty
            exact absurd hempty.1 (by decide)
          · cases h

theorem parse_of_format {t : FederatedTuple} {s : JsText} (h : format t = some s) :
    parse s = some t := by
  obtain ⟨⟨hissuer, hmethod, hsubject⟩, ⟨hissuer', hmethod', hsubject'⟩, hs⟩ := format_eq_some h
  have hsafe : ∀ value : JsText, value.length ≤ 512 →
      Utf16.utf8Length value ≤ 2 ^ 53 - 1 := by
    intro value hvalue
    have := Utf16.utf8Length_le value
    omega
  have htext : s = JsText.ofAscii federatedPrefix ++
      (component t.issuer ++ (component t.method ++ (component t.subject ++ []))) := by
    rw [hs]
    simp only [List.append_assoc, List.append_nil]
  have hdrop : s.drop federatedPrefix.length =
      component t.issuer ++ (component t.method ++ (component t.subject ++ [])) := by
    rw [htext]
    rw [show federatedPrefix.length = (JsText.ofAscii federatedPrefix).length from by decide]
    exact List.drop_left
  have hprefix : JsText.ofAscii federatedPrefix <+: s := by
    rw [htext]
    exact List.prefix_append _ _
  simp only [parse, hprefix, not_true_eq_false, if_false, hdrop, Option.bind_eq_bind]
  rw [takeLengthPrefixed_component hissuer (hsafe _ hissuer') (apart_component _ _ _)]
  simp only [Option.bind_some]
  rw [takeLengthPrefixed_component hmethod (hsafe _ (by omega)) (apart_component _ _ _)]
  simp only [Option.bind_some]
  rw [takeLengthPrefixed_component hsubject (hsafe _ hsubject') (apart_end _)]
  simp [h]

theorem format_of_parse {t : FederatedTuple} {s : JsText} (h : parse s = some t) :
    format t = some s := by
  simp only [parse, Option.bind_eq_bind] at h
  split at h
  · cases h
  · obtain ⟨issuer, -, h⟩ := Option.bind_eq_some_iff.mp h
    obtain ⟨method, -, h⟩ := Option.bind_eq_some_iff.mp h
    obtain ⟨subject, -, h⟩ := Option.bind_eq_some_iff.mp h
    split at h
    · cases h
    · split at h
      · rename_i hcanonical
        obtain rfl := Option.some.inj h
        exact hcanonical
      · cases h

/-- The parser reads exactly what the formatter writes, and no text is written for two tuples. -/
theorem codec (s : JsText) (t : FederatedTuple) :
    (parse s = some t ↔ format t = some s) ∧
      ∀ t', format t = some s → format t' = some s → t' = t := by
  refine ⟨⟨format_of_parse, parse_of_format⟩, fun t' h h' => ?_⟩
  exact Option.some.inj ((parse_of_format h').symm.trans (parse_of_format h))

end FederatedTuple

end VicoopBridge
