import VicoopBridge.Model.Principal
import VicoopBridge.Verification.FederatedPrincipal

/-! # Allow lists as they are stored

The normalised form of an entry is its own, and matches whom the entry as written matches. -/

namespace VicoopBridge

open Library

namespace JsText

namespace CaseTable

variable {table : CaseTable}

/-! ## Lower case -/

/-- What stays as it is in lower case. -/
def Lowered (table : CaseTable) (ch : JsText) : Prop :=
  ch ≠ capitalSigma ∧ table.lower ch = [ch]

theorem lowered_smallSigma (table : CaseTable) (final : Bool) :
    table.Lowered (smallSigma final) := by
  cases final with
  | true => exact ⟨by decide, table.lower_finalSigma⟩
  | false =>
      exact table.lower_lower capitalSigma _ (by rw [table.lower_sigma]; exact List.mem_cons_self)

theorem lowered_of_mem_image {before rest : List JsText} {ch d : JsText}
    (h : d ∈ table.image before ch rest) : table.Lowered d := by
  unfold image at h
  split at h
  · rw [List.mem_singleton.mp h]
    exact lowered_smallSigma table _
  · exact table.lower_lower ch d h

theorem image_of_lowered {before rest : List JsText} {ch : JsText} (h : table.Lowered ch) :
    table.image before ch rest = [ch] := by
  unfold image
  rw [if_neg h.1, h.2]

theorem lowered_of_mem_lowerFrom {before chars : List JsText} {d : JsText}
    (h : d ∈ table.lowerFrom before chars) : table.Lowered d := by
  induction chars generalizing before with
  | nil => cases h
  | cons ch rest ih =>
      rcases List.mem_append.mp h with h | h
      · exact lowered_of_mem_image h
      · exact ih h

theorem lowerFrom_of_lowered {before chars : List JsText} (h : ∀ ch ∈ chars, table.Lowered ch) :
    table.lowerFrom before chars = chars := by
  induction chars generalizing before with
  | nil => rfl
  | cons ch rest ih =>
      rw [lowerFrom, image_of_lowered (h ch List.mem_cons_self),
        ih fun ch' hmem => h ch' (List.mem_cons_of_mem _ hmem)]
      rfl

/-! ## Lower case, unit by unit -/

theorem isChar_of_isScalar {ch : JsText} (h : isScalar ch = true) : Utf16.IsChar ch := by
  unfold isScalar at h
  split at h
  · rename_i u
    exact .inl ⟨u, rfl⟩
  · rename_i u v
    obtain ⟨hu, hv⟩ := Bool.and_eq_true_iff.mp h
    exact .inr ⟨u, v, rfl, hu, hv⟩
  · cases h

/-- A character is a scalar value, or a surrogate alone. -/
theorem isScalar_or_surrogate {ch : JsText} (h : Utf16.IsChar ch) :
    isScalar ch = true ∨ ∃ u, ch = [u] ∧ isSurrogate u = true := by
  rcases h with ⟨u, rfl⟩ | ⟨u, v, rfl, hu, hv⟩
  · cases hsurrogate : isSurrogate u with
    | true => exact .inr ⟨u, rfl, hsurrogate⟩
    | false => exact .inl (by simp [isScalar, hsurrogate])
  · exact .inl (by simp only [isScalar, hu, hv, Bool.and_self])

theorem isScalar_smallSigma (final : Bool) : isScalar (smallSigma final) = true := by
  cases final <;> decide

/-- A scalar value has scalar values for its image, and a surrogate alone itself. -/
theorem image_scalar {before rest : List JsText} {ch : JsText} (h : isScalar ch = true) :
    table.image before ch rest ≠ [] ∧ ∀ d ∈ table.image before ch rest, isScalar d = true := by
  unfold image
  split
  · refine ⟨List.cons_ne_nil _ _, fun d hd => ?_⟩
    rw [List.mem_singleton.mp hd]
    exact isScalar_smallSigma _
  · exact table.lower_scalar ch h

theorem image_surrogate {before rest : List JsText} {u : UInt16} (h : isSurrogate u = true) :
    table.image before [u] rest = [[u]] := by
  have hne : [u] ≠ capitalSigma := by
    intro heq
    obtain rfl : u = 0x3A3 := by simpa [capitalSigma] using heq
    exact absurd h (by decide)
  unfold image
  rw [if_neg hne, table.lower_surrogate u h]

theorem not_high_of_isScalar {ch : JsText} (h : isScalar ch = true) :
    ∃ u, ch.getLast? = some u ∧ Utf16.isHigh u = false := by
  unfold isScalar at h
  split at h
  · rename_i u
    refine ⟨u, rfl, ?_⟩
    simp only [isSurrogate, Bool.not_eq_eq_eq_not, Bool.not_true, Bool.or_eq_false_iff] at h
    exact h.1
  · rename_i u v
    exact ⟨v, rfl, Utf16.not_high_of_low (Bool.and_eq_true_iff.mp h).2⟩
  · cases h

theorem not_low_of_isScalar {ch : JsText} (h : isScalar ch = true) :
    ∃ u, ch.head? = some u ∧ Utf16.isLow u = false := by
  unfold isScalar at h
  split at h
  · rename_i u
    refine ⟨u, rfl, ?_⟩
    simp only [isSurrogate, Bool.not_eq_eq_eq_not, Bool.not_true, Bool.or_eq_false_iff] at h
    exact h.2
  · rename_i u v
    refine ⟨u, rfl, ?_⟩
    by_contra hlow
    have hnot := Utf16.not_high_of_low ((Bool.not_eq_false _).mp hlow)
    rw [(Bool.and_eq_true_iff.mp h).1] at hnot
    cases hnot
  · cases h

/-- A lower-case text starts with the second half of a pair only where the text does. -/
theorem low_head_of_lowerFrom {before chars : List JsText} (h : Utf16.Proper chars) {v : UInt16}
    (hv : (table.lowerFrom before chars).flatten.head? = some v) (hlow : Utf16.isLow v = true) :
    chars.flatten.head? = some v := by
  cases chars with
  | nil => cases hv
  | cons ch rest =>
      rw [lowerFrom] at hv
      rcases isScalar_or_surrogate h.1 with hscalar | ⟨u, rfl, hu⟩
      · obtain ⟨hne, hall⟩ : table.image before ch rest ≠ [] ∧ _ := image_scalar hscalar
        obtain ⟨d, ds, heq⟩ := List.exists_cons_of_ne_nil hne
        obtain ⟨w, hw, hnot⟩ := not_low_of_isScalar (hall d (by simp [heq]))
        rw [heq, List.cons_append, List.flatten_cons, List.head?_append, hw] at hv
        obtain rfl : w = v := Option.some.inj hv
        rw [hlow] at hnot
        cases hnot
      · rw [image_surrogate hu] at hv
        exact hv

theorem proper_append {ds xs : List JsText} (hds : ∀ d ∈ ds, isScalar d = true)
    (hxs : Utf16.Proper xs) : Utf16.Proper (ds ++ xs) := by
  induction ds with
  | nil => exact hxs
  | cons d ds ih =>
      have hd := hds d List.mem_cons_self
      obtain ⟨u, hlast, hnot⟩ := not_high_of_isScalar hd
      exact ⟨isChar_of_isScalar hd, Utf16.apart_of_last hlast hnot,
        ih fun d' hmem => hds d' (List.mem_cons_of_mem _ hmem)⟩

theorem proper_lowerFrom {before chars : List JsText} (h : Utf16.Proper chars) :
    Utf16.Proper (table.lowerFrom before chars) := by
  induction chars generalizing before with
  | nil => trivial
  | cons ch rest ih =>
      obtain ⟨hchar, hapart, hrest⟩ := h
      rw [lowerFrom]
      rcases isScalar_or_surrogate hchar with hscalar | ⟨u, rfl, hu⟩
      · exact proper_append (image_scalar hscalar).2 (ih hrest)
      · rw [image_surrogate hu]
        refine ⟨.inl ⟨u, rfl⟩, ?_, ih hrest⟩
        intro w hw v hv hpair
        exact hapart w hw v (low_head_of_lowerFrom hrest hv hpair.2) hpair

end CaseTable

variable {table : CaseTable}

theorem chars_toLowerCase (table : CaseTable) (s : JsText) :
    Utf16.chars (toLowerCase table s) = table.lowerFrom [] (Utf16.chars s) :=
  Utf16.chars_flatten (CaseTable.proper_lowerFrom (Utf16.proper_chars s))

/-- A text in lower case is its own lower case. -/
@[simp] theorem toLowerCase_toLowerCase (table : CaseTable) (s : JsText) :
    toLowerCase table (toLowerCase table s) = toLowerCase table s := by
  rw [toLowerCase, chars_toLowerCase, CaseTable.lowerFrom_of_lowered]
  · rfl
  · intro ch hmem
    exact CaseTable.lowered_of_mem_lowerFrom hmem

/-! ## What is no letter -/

/-- An ASCII unit that is no letter, or white space. -/
def Plain (u : UInt16) : Prop :=
  u.toNat < 0x80 ∧ isAsciiLetter u = false ∨ isWhitespace u = true

theorem asciiLower_plain {u : UInt16} (h : Plain u) : asciiLower u = u := by
  unfold asciiLower
  split
  · rename_i hcapital
    exfalso
    rcases h with ⟨-, h⟩ | h
    · rw [isAsciiLetter, hcapital, Bool.true_or] at h
      cases h
    · simp only [Bool.and_eq_true, decide_eq_true_eq, UInt16.le_iff_toNat_le] at hcapital
      unfold isWhitespace at h
      simp only [List.mem_cons, List.not_mem_nil, or_false, Bool.or_eq_true, decide_eq_true_eq,
        Bool.and_eq_true, UInt16.le_iff_toNat_le, ← UInt16.toNat_inj] at h
      simp at h hcapital
      omega
  · rfl

theorem CaseTable.eq_of_mem_image {before rest : List JsText} {ch : JsText} {u : UInt16}
    (hu : Plain u) (h : [u] ∈ table.image before ch rest) : ch = [u] := by
  unfold CaseTable.image at h
  split at h
  · exfalso
    have hsigma : ∀ final, [u] = smallSigma final → ¬ Plain u := by
      intro final heq
      cases final with
      | true =>
          obtain rfl : u = 0x3C2 := by simpa [smallSigma] using heq
          rintro (h | h) <;> revert h <;> decide
      | false =>
          obtain rfl : u = 0x3C3 := by simpa [smallSigma] using heq
          rintro (h | h) <;> revert h <;> decide
    exact hsigma _ (List.mem_singleton.mp h) hu
  · exact table.lower_plain ch u h hu

theorem not_surrogate_of_plain {u : UInt16} (h : Plain u) :
    Utf16.isHigh u = false ∧ Utf16.isLow u = false := by
  have hsmall : u.toNat < 0xD800 ∨ 0xE000 ≤ u.toNat := by
    rcases h with ⟨h, -⟩ | h
    · omega
    · unfold isWhitespace at h
      simp only [List.mem_cons, List.not_mem_nil, or_false, Bool.or_eq_true, decide_eq_true_eq,
        Bool.and_eq_true] at h
      rcases h with h | ⟨-, h⟩
      · rcases h with rfl | rfl | rfl | rfl | rfl | rfl | rfl | rfl | rfl | rfl | rfl | rfl | rfl |
          rfl
        all_goals decide
      · have := UInt16.le_iff_toNat_le.mp h
        left
        exact Nat.lt_of_le_of_lt this (by decide)
  constructor
  · simp only [Utf16.isHigh, Bool.and_eq_false_iff, decide_eq_false_iff_not]
    omega
  · simp only [Utf16.isLow, Bool.and_eq_false_iff, decide_eq_false_iff_not]
    omega

/-- A character with such a unit is the unit. -/
theorem eq_of_plain_mem {ch : JsText} {u : UInt16} (hu : Plain u) (hchar : Utf16.IsChar ch)
    (h : u ∈ ch) : ch = [u] := by
  obtain ⟨hhigh, hlow⟩ := not_surrogate_of_plain hu
  rcases hchar with ⟨v, rfl⟩ | ⟨v, w, rfl, hv, hw⟩
  · rw [List.mem_singleton.mp h]
  · rcases List.mem_cons.mp h with rfl | h
    · rw [hv] at hhigh
      cases hhigh
    · rw [List.mem_singleton.mp h, hw] at hlow
      cases hlow

theorem CaseTable.isChar_of_mem_image {before rest : List JsText} {ch d : JsText}
    (hchar : Utf16.IsChar ch) (h : d ∈ table.image before ch rest) : Utf16.IsChar d := by
  rcases isScalar_or_surrogate hchar with hscalar | ⟨u, rfl, hu⟩
  · exact isChar_of_isScalar ((image_scalar hscalar).2 d h)
  · rw [image_surrogate hu] at h
    rw [List.mem_singleton.mp h]
    exact hchar

theorem CaseTable.image_ne_nil {before rest : List JsText} {ch : JsText}
    (hchar : Utf16.IsChar ch) : table.image before ch rest ≠ [] := by
  rcases isScalar_or_surrogate hchar with hscalar | ⟨u, rfl, hu⟩
  · exact (image_scalar hscalar).1
  · rw [image_surrogate hu]
    exact List.cons_ne_nil _ _

/-- A plain unit among the units of an image is the character itself. -/
theorem CaseTable.eq_of_mem_flatten_image {before rest : List JsText} {ch : JsText} {u : UInt16}
    (hu : Plain u) (hchar : Utf16.IsChar ch) (h : u ∈ (table.image before ch rest).flatten) :
    ch = [u] := by
  obtain ⟨d, hd, hmem⟩ := List.mem_flatten.mp h
  obtain rfl := eq_of_plain_mem hu (isChar_of_mem_image hchar hd) hmem
  exact eq_of_mem_image hu hd

theorem CaseTable.flatten_image_ne_nil {before rest : List JsText} {ch : JsText}
    (hchar : Utf16.IsChar ch) : (table.image before ch rest).flatten ≠ [] := by
  have hne : table.image before ch rest ≠ [] := image_ne_nil hchar
  obtain ⟨d, ds, heq⟩ := List.exists_cons_of_ne_nil hne
  have hd : Utf16.IsChar d := isChar_of_mem_image hchar (by rw [heq]; exact List.mem_cons_self)
  rw [heq, List.flatten_cons]
  rcases hd with ⟨u, rfl⟩ | ⟨u, v, rfl, -, -⟩ <;> exact List.cons_ne_nil _ _

theorem isChar_of_proper {chars : List JsText} (h : Utf16.Proper chars) :
    ∀ ch ∈ chars, Utf16.IsChar ch := by
  induction chars with
  | nil => nofun
  | cons ch rest ih =>
      intro ch' hmem
      rcases List.mem_cons.mp hmem with rfl | hmem
      · exact h.1
      · exact ih h.2.2 ch' hmem

/-- A plain unit comes first in the lower case only where it comes first. -/
theorem head_of_toLowerCase {s : JsText} {u : UInt16} (hu : Plain u)
    (h : (toLowerCase table s).head? = some u) : s.head? = some u := by
  have hchars := isChar_of_proper (Utf16.proper_chars s)
  rw [toLowerCase] at h
  rw [← Utf16.flatten_chars s]
  cases heq : Utf16.chars s with
  | nil => rw [heq] at h; cases h
  | cons ch rest =>
      rw [heq] at h hchars
      have hchar := hchars ch List.mem_cons_self
      rw [CaseTable.lowerFrom, List.flatten_append, List.head?_append_of_ne_nil _
        (CaseTable.flatten_image_ne_nil hchar)] at h
      have hone := CaseTable.eq_of_mem_flatten_image hu hchar (List.mem_of_mem_head? h)
      rw [hone]
      rfl

theorem CaseTable.getLast_of_lowerFrom {before chars : List JsText} {u : UInt16} (hu : Plain u)
    (hchars : ∀ ch ∈ chars, Utf16.IsChar ch)
    (h : (table.lowerFrom before chars).flatten.getLast? = some u) :
    chars.flatten.getLast? = some u := by
  induction chars generalizing before with
  | nil => cases h
  | cons ch rest ih =>
      have hchar := hchars ch List.mem_cons_self
      have hothers := fun ch' hmem => hchars ch' (List.mem_cons_of_mem ch hmem)
      rw [lowerFrom, List.flatten_append, List.getLast?_append] at h
      rw [List.flatten_cons, List.getLast?_append]
      cases rest with
      | nil =>
          have hlast : (table.image before ch []).flatten.getLast? = some u := h
          have hone := eq_of_mem_flatten_image hu hchar (List.mem_of_getLast? hlast)
          rw [hone]
          rfl
      | cons next others =>
          have hne : (table.lowerFrom (ch :: before) (next :: others)).flatten ≠ [] := by
            rw [lowerFrom, List.flatten_append]
            exact List.append_ne_nil_of_left_ne_nil
              (flatten_image_ne_nil (hothers next List.mem_cons_self)) _
          have hlast := List.getLast?_eq_some_getLast hne
          rw [hlast, Option.some_or] at h
          rw [ih hothers (hlast.trans h), Option.some_or]

theorem getLast_of_toLowerCase {s : JsText} {u : UInt16} (hu : Plain u)
    (h : (toLowerCase table s).getLast? = some u) : s.getLast? = some u := by
  rw [← Utf16.flatten_chars s]
  exact CaseTable.getLast_of_lowerFrom hu (isChar_of_proper (Utf16.proper_chars s)) h

theorem CaseTable.image_plain {before rest : List JsText} {u : UInt16} (hu : Plain u)
    (hascii : u.toNat < 0x80) : table.image before [u] rest = [[u]] := by
  have hne : [u] ≠ capitalSigma := by
    intro heq
    obtain rfl : u = 0x3A3 := by simpa [capitalSigma] using heq
    exact absurd hascii (by decide)
  unfold image
  rw [if_neg hne, table.lower_ascii u hascii, asciiLower_plain hu]

theorem CaseTable.count_lowerFrom {before chars : List JsText} {u : UInt16} (hu : Plain u)
    (hascii : u.toNat < 0x80) (hchars : ∀ ch ∈ chars, Utf16.IsChar ch) :
    (table.lowerFrom before chars).flatten.count u = chars.flatten.count u := by
  induction chars generalizing before with
  | nil => rfl
  | cons ch rest ih =>
      have hchar := hchars ch List.mem_cons_self
      rw [lowerFrom, List.flatten_append, List.flatten_cons, List.count_append, List.count_append,
        ih fun ch' hmem => hchars ch' (List.mem_cons_of_mem ch hmem)]
      congr 1
      by_cases hone : ch = [u]
      · rw [hone, image_plain hu hascii]
        rfl
      · rw [List.count_eq_zero_of_not_mem fun hmem =>
            hone (eq_of_mem_flatten_image hu hchar hmem),
          List.count_eq_zero_of_not_mem fun hmem => hone (eq_of_plain_mem hu hchar hmem)]

theorem count_toLowerCase (table : CaseTable) {u : UInt16} (hu : Plain u) (hascii : u.toNat < 0x80)
    (s : JsText) : (toLowerCase table s).count u = s.count u := by
  conv_rhs => rw [← Utf16.flatten_chars s]
  exact CaseTable.count_lowerFrom hu hascii (isChar_of_proper (Utf16.proper_chars s))

theorem toLowerCase_ne_nil (table : CaseTable) {s : JsText} (h : s ≠ []) :
    toLowerCase table s ≠ [] := by
  have hchars := isChar_of_proper (Utf16.proper_chars s)
  have hne : Utf16.chars s ≠ [] := by
    intro hnil
    exact h (by rw [← Utf16.flatten_chars s, hnil]; rfl)
  obtain ⟨ch, rest, heq⟩ := List.exists_cons_of_ne_nil hne
  rw [toLowerCase, heq, CaseTable.lowerFrom, List.flatten_append]
  exact List.append_ne_nil_of_left_ne_nil
    (CaseTable.flatten_image_ne_nil (hchars ch (by simp [heq]))) _

/-! ## ASCII texts -/

theorem chars_of_ascii {s : JsText} (h : ∀ u ∈ s, u.toNat < 0x80) :
    Utf16.chars s = s.map fun u => [u] := by
  induction s with
  | nil => rfl
  | cons u rest ih =>
      have hhigh : Utf16.isHigh u = false := by
        have := h u List.mem_cons_self
        simp only [Utf16.isHigh, Bool.and_eq_false_iff, decide_eq_false_iff_not]
        omega
      rw [Utf16.chars_cons (Utf16.apart_of_last rfl hhigh),
        ih fun v hv => h v (List.mem_cons_of_mem _ hv)]
      rfl

theorem CaseTable.lowerFrom_of_ascii {before : List JsText} {s : JsText}
    (h : ∀ u ∈ s, u.toNat < 0x80) :
    (table.lowerFrom before (s.map fun u => [u])).flatten = s.map asciiLower := by
  induction s generalizing before with
  | nil => rfl
  | cons u rest ih =>
      have hu := h u List.mem_cons_self
      have hne : [u] ≠ capitalSigma := by
        intro heq
        obtain rfl : u = 0x3A3 := by simpa [capitalSigma] using heq
        exact absurd hu (by decide)
      rw [List.map_cons, lowerFrom, List.flatten_append,
        ih fun v hv => h v (List.mem_cons_of_mem _ hv), image, if_neg hne, table.lower_ascii u hu]
      rfl

theorem toLowerCase_of_ascii (table : CaseTable) {s : JsText} (h : ∀ u ∈ s, u.toNat < 0x80) :
    toLowerCase table s = s.map asciiLower := by
  rw [toLowerCase, chars_of_ascii h]
  exact CaseTable.lowerFrom_of_ascii h

/-! ## Trimming -/

theorem trim_eq_self {s : JsText} (hhead : ∀ u, s.head? = some u → isWhitespace u = false)
    (hlast : ∀ u, s.getLast? = some u → isWhitespace u = false) : trim s = s := by
  have hfirst : s.dropWhile isWhitespace = s := by
    cases s with
    | nil => rfl
    | cons u rest => rw [List.dropWhile_cons_of_neg (by simp [hhead u rfl])]
  have hback : s.reverse.dropWhile isWhitespace = s.reverse := by
    cases heq : s.reverse with
    | nil => rfl
    | cons u rest =>
        have hu : s.getLast? = some u := by rw [← List.head?_reverse, heq]; rfl
        rw [List.dropWhile_cons_of_neg (by simp [hlast u hu])]
  rw [trim, hfirst, hback, List.reverse_reverse]

theorem last_of_trim {s : JsText} {u : UInt16} (h : (trim s).getLast? = some u) :
    isWhitespace u = false := by
  rw [trim, List.getLast?_reverse] at h
  have hnot := List.head?_dropWhile_not isWhitespace (s.dropWhile isWhitespace).reverse
  rw [h] at hnot
  simpa using hnot

end JsText

namespace Principal

open JsText

variable {table : CaseTable}

/-! ## Prefixes -/

theorem length_ofAscii (s : String) : (ofAscii s).length = s.length := by
  rw [ofAscii, List.length_map, String.length_toList]

theorem afterPrefix_eq_some {pre : String} {s r : JsText} (h : afterPrefix pre s = some r) :
    s = ofAscii pre ++ r := by
  unfold afterPrefix at h
  split at h
  · rename_i hprefix
    obtain ⟨rest, rfl⟩ := hprefix
    obtain rfl := Option.some.inj h
    rw [← length_ofAscii, List.drop_left]
  · cases h

theorem afterPrefix_append (pre : String) (r : JsText) :
    afterPrefix pre (ofAscii pre ++ r) = some r := by
  rw [afterPrefix, if_pos (List.prefix_append _ _), ← length_ofAscii, List.drop_left]

/-- Two prefixes, of which none starts with the other. -/
theorem afterPrefix_of_ne {pre pre' : String} (r : JsText)
    (h : ¬ ofAscii pre <+: ofAscii pre') (h' : ¬ ofAscii pre' <+: ofAscii pre) :
    afterPrefix pre (ofAscii pre' ++ r) = none := by
  rw [afterPrefix, if_neg]
  intro hprefix
  exact (List.prefix_or_prefix_of_prefix hprefix (List.prefix_append (ofAscii pre') r)).elim h h'

theorem parse_eth (a : JsText) : parsePrincipal table (ofAscii "eth:" ++ a) =
    if isEthAddr a then some (.eth (toLowerCase table a)) else none := by
  simp only [parsePrincipal, afterPrefix_append]

theorem parse_email (e : JsText) : parsePrincipal table (ofAscii "google:email:" ++ e) =
    if isEmail e then some (.googleEmail (toLowerCase table e)) else none := by
  rw [parsePrincipal, afterPrefix_of_ne _ (by decide) (by decide)]
  dsimp only
  rw [afterPrefix_of_ne _ (by decide) (by decide)]
  simp only [afterPrefix_append]

theorem parse_domain (d : JsText) : parsePrincipal table (ofAscii "google:domain:" ++ d) =
    if isDomain (toLowerCase table d) then some (.googleDomain (toLowerCase table d))
    else none := by
  rw [parsePrincipal, afterPrefix_of_ne _ (by decide) (by decide)]
  dsimp only
  rw [afterPrefix_of_ne _ (by decide) (by decide)]
  dsimp only
  rw [afterPrefix_of_ne _ (by decide) (by decide)]
  simp only [afterPrefix_append]

/-! ## Normal forms -/

/-- What `validatePrincipal` makes of a parsed entry. -/
def render : ParsedPrincipal → Option JsText
  | .eth address => some (ofAscii "eth:" ++ address)
  | .googleSub sub => some (ofAscii "google:sub:" ++ sub)
  | .googleEmail email => some (ofAscii "google:email:" ++ email)
  | .googleDomain domain => some (ofAscii "google:domain:" ++ domain)
  | .apikey keyId => some (ofAscii "apikey:" ++ keyId)
  | .federated tuple => tuple.format

theorem validatePrincipal_eq (table : CaseTable) (raw : JsText) :
    validatePrincipal table raw =
      if JsText.trim raw = [] then none
      else if isEthAddr (JsText.trim raw) then
        some (ofAscii "eth:" ++ toLowerCase table (JsText.trim raw))
      else (parsePrincipal table (JsText.trim raw)).bind render := by
  rw [validatePrincipal]
  split
  · rfl
  · split
    · rfl
    · cases parsePrincipal table (JsText.trim raw) with
      | none => rfl
      | some p => cases p <;> rfl

theorem isHexDigit_lower {u : UInt16} (h : isHexDigit u = true) :
    isHexDigit (asciiLower u) = true ∧ u.toNat < 0x80 := by
  simp only [isHexDigit, Bool.or_eq_true, Bool.and_eq_true, decide_eq_true_eq,
    UInt16.le_iff_toNat_le] at h
  have hsmall : u.toNat < 0x80 := by simp at h; omega
  refine ⟨?_, hsmall⟩
  have hall : ∀ n : Fin 0x80, isHexDigit (UInt16.ofNat n) = true →
      isHexDigit (asciiLower (UInt16.ofNat n)) = true := by decide
  have hn := hall ⟨u.toNat, hsmall⟩
  simp only [UInt16.ofNat_toNat] at hn
  refine hn ?_
  simp only [isHexDigit, Bool.or_eq_true, Bool.and_eq_true, decide_eq_true_eq,
    UInt16.le_iff_toNat_le]
  exact h

/-- An address in lower case is an address. -/
theorem isEthAddr_toLowerCase (table : CaseTable) {s : JsText} (h : isEthAddr s = true) :
    isEthAddr (toLowerCase table s) = true := by
  unfold isEthAddr at h
  split at h
  · rename_i z x digits
    simp only [Bool.and_eq_true, Bool.or_eq_true, decide_eq_true_eq] at h
    obtain ⟨⟨⟨rfl, hx⟩, hlength⟩, hdigits⟩ := h
    have hhex : ∀ u ∈ digits, isHexDigit u = true := List.all_eq_true.mp hdigits
    have hascii : ∀ u ∈ (0x30 : UInt16) :: x :: digits, u.toNat < 0x80 := by
      intro u hu
      rcases List.mem_cons.mp hu with rfl | hu
      · decide
      · rcases List.mem_cons.mp hu with rfl | hu
        · rcases hx with rfl | rfl <;> decide
        · exact (isHexDigit_lower (hhex u hu)).2
    rw [toLowerCase_of_ascii table hascii]
    have hx' : asciiLower x = 0x78 := by rcases hx with rfl | rfl <;> decide
    have hall : (digits.map asciiLower).all isHexDigit = true := by
      rw [List.all_eq_true]
      intro u hu
      obtain ⟨v, hv, rfl⟩ := List.mem_map.mp hu
      exact (isHexDigit_lower (hhex v hv)).1
    simp only [List.map_cons, isEthAddr, hx', List.length_map, hlength, hall]
    decide
  · cases h

theorem plain_at : Plain at_ := .inl (by decide)

theorem isEmail_iff (e : JsText) : isEmail e = true ↔
    e.count at_ = 1 ∧ e.head? ≠ some at_ ∧ e.getLast? ≠ some at_ := by
  by_cases hmem : at_ ∈ e
  · obtain ⟨localPart, domain, rfl, hlocal⟩ := List.eq_append_cons_of_mem hmem
    rw [isEmail, span_of_not_mem hlocal, List.count_append, List.count_cons_self,
      List.count_eq_zero_of_not_mem hlocal, List.head?_append, List.getLast?_append_cons]
    simp only [Bool.and_eq_true, decide_eq_true_eq]
    constructor
    · rintro ⟨⟨hne, hne'⟩, hdomain⟩
      refine ⟨by rw [List.count_eq_zero_of_not_mem hdomain], ?_, ?_⟩
      · obtain ⟨u, rest, rfl⟩ := List.exists_cons_of_ne_nil hne
        rintro hu
        obtain rfl : u = at_ := Option.some.inj hu
        exact hlocal List.mem_cons_self
      · rw [List.getLast?_cons_of_ne_nil hne']
        exact fun hlast => hdomain (List.mem_of_getLast? hlast)
    · rintro ⟨hcount, hhead, hlast⟩
      refine ⟨⟨?_, ?_⟩, ?_⟩
      · rintro rfl
        exact hhead rfl
      · rintro rfl
        exact hlast rfl
      · exact List.count_eq_zero.mp (by omega)
  · rw [isEmail, List.span_eq_takeWhile_dropWhile, List.count_eq_zero_of_not_mem hmem]
    have hnone : e.dropWhile (fun u => decide (u ≠ at_)) = [] := by
      have hall : ∀ u ∈ e, decide (u ≠ at_) = true := fun u hu =>
        decide_eq_true fun heq => hmem (heq ▸ hu)
      rw [← List.append_nil e, List.dropWhile_append_of_pos hall]
      rfl
    rw [hnone]
    simp

theorem isEmail_toLowerCase (table : CaseTable) {e : JsText} (h : isEmail e = true) :
    isEmail (toLowerCase table e) = true := by
  rw [isEmail_iff] at h ⊢
  refine ⟨?_, fun hhead => h.2.1 (head_of_toLowerCase plain_at hhead),
    fun hlast => h.2.2 (getLast_of_toLowerCase plain_at hlast)⟩
  rw [count_toLowerCase table plain_at (by decide)]
  exact h.1

/-- A prefix stays in front of a text that ends as the trimmed one does. -/
theorem trim_lowered (table : CaseTable) {pre : String} {x : JsText} {u : UInt16}
    (hpre : (ofAscii pre).head? = some u) (hu : isWhitespace u = false) (hne : x ≠ [])
    (hlast : ∀ v, x.getLast? = some v → isWhitespace v = false) :
    JsText.trim (ofAscii pre ++ toLowerCase table x) = ofAscii pre ++ toLowerCase table x := by
  refine trim_eq_self (fun v hv => ?_) fun v hv => ?_
  · rw [List.head?_append, hpre, Option.some_or] at hv
    rwa [← Option.some.inj hv]
  · rw [List.getLast?_append_of_ne_nil _ (toLowerCase_ne_nil table hne)] at hv
    by_contra hspace
    have hspace := (Bool.not_eq_false _).mp hspace
    rw [hlast v (getLast_of_toLowerCase (.inr hspace) hv)] at hspace
    cases hspace

/-- What a parsed entry reads, and what is known of its parts. -/
inductive Reads (table : CaseTable) (s : JsText) : ParsedPrincipal → Prop where
  | eth (addr : JsText) : s = ofAscii "eth:" ++ addr → isEthAddr addr = true →
      Reads table s (.eth (toLowerCase table addr))
  | googleSub (sub : JsText) : s = ofAscii "google:sub:" ++ sub → Reads table s (.googleSub sub)
  | googleEmail (email : JsText) : s = ofAscii "google:email:" ++ email → isEmail email = true →
      Reads table s (.googleEmail (toLowerCase table email))
  | googleDomain (domain : JsText) : s = ofAscii "google:domain:" ++ domain →
      isDomain (toLowerCase table domain) = true →
      Reads table s (.googleDomain (toLowerCase table domain))
  | apikey (keyId : JsText) : s = ofAscii "apikey:" ++ keyId → Reads table s (.apikey keyId)
  | federated (tuple : FederatedTuple) : FederatedTuple.parse s = some tuple →
      Reads table s (.federated tuple)

theorem reads_of_parse {s : JsText} {p : ParsedPrincipal}
    (h : parsePrincipal table s = some p) : Reads table s p := by
  rw [parsePrincipal] at h
  split at h
  · rename_i addr hpre
    split at h
    · obtain rfl := Option.some.inj h
      exact .eth addr (afterPrefix_eq_some hpre) ‹_›
    · cases h
  split at h
  · rename_i sub hpre
    split at h
    · cases h
    · obtain rfl := Option.some.inj h
      exact .googleSub sub (afterPrefix_eq_some hpre)
  split at h
  · rename_i email hpre
    split at h
    · obtain rfl := Option.some.inj h
      exact .googleEmail email (afterPrefix_eq_some hpre) ‹_›
    · cases h
  split at h
  · rename_i domain hpre
    split at h
    · obtain rfl := Option.some.inj h
      exact .googleDomain domain (afterPrefix_eq_some hpre) ‹_›
    · cases h
  split at h
  · rename_i keyId hpre
    split at h
    · obtain rfl := Option.some.inj h
      exact .apikey keyId (afterPrefix_eq_some hpre)
    · cases h
  · obtain ⟨tuple, htuple, rfl⟩ := Option.map_eq_some_iff.mp h
    exact .federated tuple htuple

theorem ne_nil_of_isEthAddr {s : JsText} (h : isEthAddr s = true) : s ≠ [] := by
  rintro rfl
  cases h

theorem ne_nil_of_isEmail {s : JsText} (h : isEmail s = true) : s ≠ [] := by
  rintro rfl
  cases h

/-- The normal form of what is read from a trimmed text is read as the same, and is trimmed. -/
structure Normal (table : CaseTable) (n : JsText) (p : ParsedPrincipal) : Prop where
  parsed : parsePrincipal table n = some p
  rendered : render p = some n
  trimmed : JsText.trim n = n
  bare : isEthAddr n = false

theorem Normal.validate {n : JsText} {p : ParsedPrincipal} (h : Normal table n p) :
    validatePrincipal table n = some n := by
  have hne : n ≠ [] := by
    rintro rfl
    have hnone : parsePrincipal table [] = none := rfl
    exact absurd (hnone.symm.trans h.parsed) nofun
  rw [validatePrincipal_eq, h.trimmed, if_neg hne, if_neg (by simp [h.bare]), h.parsed,
    Option.bind_some, h.rendered]

/-- The address of an entry in lower case is the normal form, with or without its prefix. -/
theorem normal_eth {addr : JsText} (h : isEthAddr addr = true)
    (hlast : ∀ v, addr.getLast? = some v → isWhitespace v = false) :
    Normal table (ofAscii "eth:" ++ toLowerCase table addr) (.eth (toLowerCase table addr)) where
  parsed := by
    rw [parse_eth, if_pos (isEthAddr_toLowerCase table h), toLowerCase_toLowerCase]
  rendered := rfl
  trimmed := trim_lowered table (u := 0x65) rfl (by decide) (ne_nil_of_isEthAddr h) hlast
  bare := rfl

theorem normal_of_parse {s n : JsText} {p : ParsedPrincipal}
    (hparse : parsePrincipal table s = some p) (hrender : render p = some n)
    (htrim : JsText.trim s = s) (hbare : isEthAddr s = false) : Normal table n p := by
  have hends : ∀ v, s.getLast? = some v → isWhitespace v = false := by
    intro v hv
    rw [← htrim] at hv
    exact last_of_trim hv
  have hlast : ∀ {pre : String} {x : JsText}, s = ofAscii pre ++ x → x ≠ [] →
      ∀ v, x.getLast? = some v → isWhitespace v = false := by
    intro pre x hs hne v hv
    exact hends v (by rw [hs, List.getLast?_append_of_ne_nil _ hne]; exact hv)
  cases reads_of_parse hparse with
  | eth addr hs haddr =>
      obtain rfl := Option.some.inj hrender
      exact normal_eth haddr (hlast hs (ne_nil_of_isEthAddr haddr))
  | googleSub sub hs =>
      obtain rfl := Option.some.inj hrender
      exact ⟨by rwa [← hs], rfl, by rwa [← hs], by rwa [← hs]⟩
  | googleEmail email hs hemail =>
      obtain rfl := Option.some.inj hrender
      refine ⟨?_, rfl, ?_, rfl⟩
      · rw [parse_email, if_pos (isEmail_toLowerCase table hemail), toLowerCase_toLowerCase]
      · exact trim_lowered table (u := 0x67) rfl (by decide) (ne_nil_of_isEmail hemail)
          (hlast hs (ne_nil_of_isEmail hemail))
  | googleDomain domain hs hdomain =>
      obtain rfl := Option.some.inj hrender
      have hne : domain ≠ [] := by
        rintro rfl
        cases hdomain
      refine ⟨?_, rfl, ?_, rfl⟩
      · rw [parse_domain, toLowerCase_toLowerCase, if_pos hdomain]
      · exact trim_lowered table (u := 0x67) rfl (by decide) hne (hlast hs hne)
  | apikey keyId hs =>
      obtain rfl := Option.some.inj hrender
      exact ⟨by rwa [← hs], rfl, by rwa [← hs], by rwa [← hs]⟩
  | federated tuple htuple =>
      have hformat := FederatedTuple.format_of_parse htuple
      obtain rfl : s = n := Option.some.inj (hformat.symm.trans hrender)
      exact ⟨hparse, hrender, htrim, hbare⟩

/-! ## Entries as they are written -/

/-- The principal that an administrator writes, where a bare address stands for its principal. -/
def written (raw : JsText) : JsText :=
  if isEthAddr (JsText.trim raw) then ofAscii "eth:" ++ JsText.trim raw else JsText.trim raw

theorem trim_trim (raw : JsText) : JsText.trim (JsText.trim raw) = JsText.trim raw := by
  refine trim_eq_self (fun u hu => ?_) fun u hu => last_of_trim hu
  have hpre : JsText.trim raw <+: raw.dropWhile isWhitespace := by
    rw [← List.reverse_reverse (raw.dropWhile isWhitespace)]
    exact List.reverse_prefix.mpr (List.dropWhile_suffix _)
  obtain ⟨rest, hrest⟩ := hpre
  have hnot := List.head?_dropWhile_not isWhitespace raw
  rw [← hrest, List.head?_append, hu, Option.some_or] at hnot
  simpa using hnot

/-- What is read from a normal form is read from the text as written, and so is the normal form of a
federated principal. -/
theorem normal_of_validate {raw n : JsText} (h : validatePrincipal table raw = some n) :
    ∃ p, Normal table n p ∧ parsePrincipal table (written raw) = some p ∧
      (∀ tuple, p = .federated tuple → n = written raw) := by
  rw [validatePrincipal_eq] at h
  split at h
  · cases h
  split at h
  · rename_i hbare
    obtain rfl := Option.some.inj h
    refine ⟨_, normal_eth hbare fun v hv => last_of_trim hv, ?_, nofun⟩
    rw [written, if_pos hbare, parse_eth, if_pos hbare]
  · rename_i hbare
    obtain ⟨p, hparse, hrender⟩ := Option.bind_eq_some_iff.mp h
    have hbare := (Bool.not_eq_true _).mp hbare
    refine ⟨p, normal_of_parse hparse hrender (trim_trim raw) hbare, ?_, ?_⟩
    · rwa [written, hbare, if_neg Bool.false_ne_true]
    · rintro tuple rfl
      cases reads_of_parse hparse with
      | federated tuple htuple =>
          rw [written, hbare, if_neg Bool.false_ne_true]
          exact Option.some.inj (hrender.symm.trans (FederatedTuple.format_of_parse htuple))

theorem matchPrincipal_congr {entry entry' : JsText} {p : ParsedPrincipal}
    (h : parsePrincipal table entry = some p) (h' : parsePrincipal table entry' = some p)
    (hfederated : ∀ tuple, p = .federated tuple → entry = entry') (caller : VerifiedCaller) :
    matchPrincipal table entry caller = matchPrincipal table entry' caller := by
  rw [matchPrincipal, matchPrincipal, h, h']
  cases p with
  | federated tuple => rw [hfederated tuple rfl]
  | eth _ | googleSub _ | googleEmail _ | googleDomain _ | apikey _ => rfl

/-- The normal form of an entry is its own normal form, and it admits whom the entry as written
admits. -/
theorem normalised_matches (table : CaseTable) (raw n : JsText)
    (h : validatePrincipal table raw = some n) :
    validatePrincipal table n = some n ∧
      ∀ caller, matchPrincipal table n caller = matchPrincipal table (written raw) caller := by
  obtain ⟨p, hnormal, hwritten, hfederated⟩ := normal_of_validate h
  exact ⟨hnormal.validate, matchPrincipal_congr hnormal.parsed hwritten hfederated⟩

/-! ## A table of ASCII and of sigma -/

def lowerUnit (u : UInt16) : UInt16 :=
  if u.toNat < 0x80 then asciiLower u else if u = 0x3A3 then 0x3C3 else u

theorem lowerUnit_of_ge {u : UInt16} (h : ¬ u.toNat < 0x80) (hne : u ≠ 0x3A3) :
    lowerUnit u = u := by
  rw [lowerUnit, if_neg h, if_neg hne]

/-- A unit is ASCII, a capital sigma, or its own lower case. -/
theorem lowerUnit_cases (u : UInt16) :
    (∃ n : Fin 0x80, u = UInt16.ofNat n) ∨ u = 0x3A3 ∨ (¬ u.toNat < 0x80 ∧ u ≠ 0x3A3) := by
  by_cases h : u.toNat < 0x80
  · exact .inl ⟨⟨u.toNat, h⟩, UInt16.ofNat_toNat.symm⟩
  · by_cases hsigma : u = 0x3A3
    · exact .inr (.inl hsigma)
    · exact .inr (.inr ⟨h, hsigma⟩)

theorem isSurrogate_lowerUnit (u : UInt16) : isSurrogate (lowerUnit u) = isSurrogate u := by
  rcases lowerUnit_cases u with ⟨n, rfl⟩ | rfl | ⟨h, hne⟩
  · revert n
    decide
  · decide
  · rw [lowerUnit_of_ge h hne]

theorem lowerUnit_lowerUnit (u : UInt16) :
    lowerUnit u ≠ 0x3A3 ∧ lowerUnit (lowerUnit u) = lowerUnit u := by
  rcases lowerUnit_cases u with ⟨n, rfl⟩ | rfl | ⟨h, hne⟩
  · revert n
    decide
  · decide
  · rw [lowerUnit_of_ge h hne]
    exact ⟨hne, lowerUnit_of_ge h hne⟩

theorem eq_of_plain_lowerUnit {u : UInt16}
    (h : (lowerUnit u).toNat < 0x80 ∧ isAsciiLetter (lowerUnit u) = false ∨
      isWhitespace (lowerUnit u) = true) : u = lowerUnit u := by
  rcases lowerUnit_cases u with ⟨n, rfl⟩ | rfl | ⟨hge, hne⟩
  · revert n
    decide
  · revert h
    decide
  · rw [lowerUnit_of_ge hge hne]

def asciiTable : CaseTable where
  lower
    | [u] => [[lowerUnit u]]
    | ch => [ch]
  cased
    | [u] => isAsciiLetter u || u = 0x3A3 || u = 0x3C2 || u = 0x3C3
    | _ => false
  caseIgnorable _ := false
  lower_ascii u h := by simp [lowerUnit, h]
  lower_surrogate u h := by
    rcases lowerUnit_cases u with ⟨n, rfl⟩ | rfl | ⟨hge, hne⟩
    · revert n
      decide
    · cases h
    · simp [lowerUnit_of_ge hge hne]
  lower_sigma := by decide
  lower_finalSigma := by decide
  lower_scalar ch h := by
    refine ⟨by split <;> exact List.cons_ne_nil _ _, fun d hd => ?_⟩
    split at hd
    · rename_i u
      rw [List.mem_singleton.mp hd]
      simpa [isScalar, isSurrogate_lowerUnit] using h
    · rwa [List.mem_singleton.mp hd]
  lower_lower ch d h := by
    split at h
    · rename_i u
      obtain ⟨hne, hsame⟩ := lowerUnit_lowerUnit u
      rw [List.mem_singleton.mp h]
      exact ⟨by simpa [capitalSigma] using hne, by simp [hsame]⟩
    · rename_i hmany
      rw [List.mem_singleton.mp h]
      refine ⟨fun heq => hmany 0x3A3 heq, ?_⟩
      split
      · rename_i u
        exact absurd rfl (hmany u)
      · rfl
  lower_plain ch u h hu := by
    split at h
    · rename_i v
      obtain rfl : u = lowerUnit v := by simpa using h
      rw [← eq_of_plain_lowerUnit hu]
    · exact (List.mem_singleton.mp h).symm

/-- An address in capitals, with blanks around it. -/
def someAddress : JsText := ofAscii " eth:0xABCDEFabcdef0123456789ABCDEFabcdef012345 "

theorem normalised_matches_address :
    validatePrincipal asciiTable (ofAscii "eth:0xabcdefabcdef0123456789abcdefabcdef012345") =
        some (ofAscii "eth:0xabcdefabcdef0123456789abcdefabcdef012345") ∧
      ∀ caller, matchPrincipal asciiTable
        (ofAscii "eth:0xabcdefabcdef0123456789abcdefabcdef012345") caller =
          matchPrincipal asciiTable (written someAddress) caller :=
  normalised_matches asciiTable someAddress _ (by decide +kernel)

/-- A bare address admits its caller once it is normalised, and nobody as it is written. -/
theorem normalised_differs :
    let bare := ofAscii "0xabcdefabcdef0123456789abcdefabcdef012345"
    let caller : VerifiedCaller := { principalId := ofAscii "eth:" ++ bare }
    validatePrincipal asciiTable bare = some (ofAscii "eth:" ++ bare) ∧
      matchPrincipal asciiTable (ofAscii "eth:" ++ bare) caller = true ∧
      matchPrincipal asciiTable (JsText.trim bare) caller = false := by
  decide +kernel

end Principal

end VicoopBridge
