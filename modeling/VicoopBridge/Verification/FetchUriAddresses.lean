import VicoopBridge.Library.IpText
import VicoopBridge.Model.FetchUriFile

/-! # Spellings of IPv6 addresses

What the filter reads of each text of an address, and which of the addresses that embed a blocked
IPv4 address it blocks. -/

namespace VicoopBridge

open Library

namespace FetchUri

open IpText

/-! ## IPv4 -/

theorem isDigit_of_mem_decimal {n : ℕ} {c : Char} (h : c ∈ decimal n) : c.isDigit = true :=
  Nat.isDigit_of_mem_toDigits (by decide) (by decide) h

theorem isDigits_decimal (n : ℕ) : isDigits (decimal n) = true := by
  simp only [isDigits, Bool.and_eq_true, decide_eq_true_eq, List.all_eq_true]
  exact ⟨Nat.toDigits_ne_nil, fun c hc => isDigit_of_mem_decimal hc⟩

theorem dot_not_mem_decimal (n : ℕ) : '.' ∉ decimal n := fun h =>
  absurd (isDigit_of_mem_decimal h) (by decide)

theorem splitOn_octets (o : Octets) : o.text.splitOn '.' =
    [decimal o.a.toNat, decimal o.b.toNat, decimal o.c.toNat, decimal o.d.toNat] := by
  simp only [Octets.text, List.append_assoc, List.cons_append]
  rw [List.splitOn_append_cons_self_of_not_mem (dot_not_mem_decimal _),
    List.splitOn_append_cons_self_of_not_mem (dot_not_mem_decimal _),
    List.splitOn_append_cons_self_of_not_mem (dot_not_mem_decimal _),
    List.splitOn_eq_singleton (dot_not_mem_decimal _)]

/-- The text of four octets is read as the octets. -/
theorem parseIpv4_text (o : Octets) :
    parseIpv4 o.text = some [o.a.toNat, o.b.toNat, o.c.toNat, o.d.toNat] := by
  have hone : ∀ u : UInt8, (if (!isDigits (decimal u.toNat)) = true then none
      else if 255 < numberOf (decimal u.toNat) then none
      else some (numberOf (decimal u.toNat))) = some u.toNat := by
    intro u
    have hvalue : numberOf (decimal u.toNat) = u.toNat := Nat.ofDigitChars_ten_toDigits
    have hlt := u.toNat_lt
    rw [isDigits_decimal, hvalue, if_neg (by simp), if_neg (by omega)]
  rw [parseIpv4, splitOn_octets]
  rw [if_neg (by simp)]
  simp only [List.mapM_cons, List.mapM_nil, hone, Option.bind_eq_bind, Option.bind_some]
  rfl

/-! ## Parts of an IPv6 text -/

theorem toLower_hexDigit {c : Char} (h : isHexDigit c = true) :
    isLowerHexDigit c.toLower = true ∧ (if c.toLower.isDigit then c.toLower.toNat - 48
      else c.toLower.toNat - 87) = hexDigitValue c := by
  have hsmall : c.toNat < 128 := by
    simp only [isHexDigit, Bool.or_eq_true, Bool.and_eq_true, decide_eq_true_eq,
      Char.isDigit_iff_toNat, Char.le_def, UInt32.le_iff_toNat_le] at h
    rcases h with (⟨-, h⟩ | ⟨-, h⟩) | ⟨-, h⟩ <;> exact Nat.lt_of_le_of_lt h (by decide)
  have hall : ∀ n : Fin 128, isHexDigit (Char.ofNat n) = true →
      isLowerHexDigit (Char.ofNat n).toLower = true ∧
        (if (Char.ofNat n).toLower.isDigit then (Char.ofNat n).toLower.toNat - 48
          else (Char.ofNat n).toLower.toNat - 87) = hexDigitValue (Char.ofNat n) := by
    decide
  simpa only [Char.ofNat_toNat] using hall ⟨c.toNat, hsmall⟩ (by simpa only [Char.ofNat_toNat])

/-- The digits as the filter sees them. -/
def lowerDigits (g : Group) : List Char := g.digits.map Char.toLower

theorem parseGroup_lowerDigits (g : Group) : parseGroup (lowerDigits g) = some g.value := by
  have hlower : (lowerDigits g).all isLowerHexDigit = true := by
    rw [List.all_eq_true]
    intro c hc
    obtain ⟨c', hc', rfl⟩ := List.mem_map.mp hc
    exact (toLower_hexDigit (g.hex c' hc')).1
  have hvalue : parseHex (lowerDigits g) = g.value := by
    rw [parseHex, lowerDigits, List.foldl_map, Group.value, hexValue]
    refine List.foldl_ext _ _ 0 fun n c hc => ?_
    rw [(toLower_hexDigit (g.hex c hc)).2]
  have hlength : (lowerDigits g).length = g.digits.length := List.length_map _
  have hpos := g.length_pos
  have hle := g.length_le
  rw [parseGroup, if_pos, hvalue]
  simp only [hlower, hlength, Bool.and_eq_true, decide_eq_true_eq, and_true]
  omega

/-! ## Splitting -/

/-- A text between colons: it is not empty, and has no colon. -/
def IsPart (part : List Char) : Prop := part ≠ [] ∧ ':' ∉ part

theorem splitDoubleColon_ne_nil (t : List Char) : splitDoubleColon t ≠ [] := by
  induction t using splitDoubleColon.induct with
  | case1 => exact List.cons_ne_nil _ _
  | case2 rest ih => exact List.cons_ne_nil _ _
  | case3 c rest hnot hnil ih => exact absurd hnil ih
  | case4 c rest hnot piece pieces heq ih =>
      rw [splitDoubleColon, heq]
      · exact List.cons_ne_nil _ _
      · exact hnot

/-- A character goes to the first piece, unless a pair of colons starts with it. -/
theorem splitDoubleColon_cons {c : Char} {rest : List Char}
    (h : ¬ (c = ':' ∧ rest.head? = some ':')) :
    splitDoubleColon (c :: rest) = (splitDoubleColon rest).modifyHead (c :: ·) := by
  have hcolons : ∀ rest', c = ':' → rest = ':' :: rest' → False := by
    intro rest' hc hrest
    exact h ⟨hc, by rw [hrest]; rfl⟩
  obtain ⟨piece, pieces, heq⟩ := List.exists_cons_of_ne_nil (splitDoubleColon_ne_nil rest)
  rw [splitDoubleColon, heq]
  · rfl
  · exact hcolons

theorem splitDoubleColon_append {part : List Char} (h : ':' ∉ part) (rest : List Char) :
    splitDoubleColon (part ++ rest) = (splitDoubleColon rest).modifyHead (part ++ ·) := by
  induction part with
  | nil =>
      obtain ⟨piece, pieces, heq⟩ := List.exists_cons_of_ne_nil (splitDoubleColon_ne_nil rest)
      rw [List.nil_append, heq]
      rfl
  | cons c part ih =>
      rw [List.mem_cons, not_or] at h
      rw [List.cons_append, splitDoubleColon_cons fun hc => h.1 hc.1.symm, ih h.2]
      obtain ⟨piece, pieces, heq⟩ := List.exists_cons_of_ne_nil (splitDoubleColon_ne_nil rest)
      rw [heq]
      rfl

/-- Parts between single colons go to the first piece together. -/
theorem splitDoubleColon_intercalate {parts : List (List Char)} (h : ∀ part ∈ parts, IsPart part)
    (rest : List Char) : splitDoubleColon ([':'].intercalate parts ++ rest) =
      (splitDoubleColon rest).modifyHead ([':'].intercalate parts ++ ·) := by
  obtain ⟨piece, pieces, heq⟩ := List.exists_cons_of_ne_nil (splitDoubleColon_ne_nil rest)
  induction parts with
  | nil =>
      rw [List.intercalate_nil, List.nil_append, heq]
      rfl
  | cons part parts ih =>
      have hpart := h part List.mem_cons_self
      cases parts with
      | nil => rw [List.intercalate_singleton, splitDoubleColon_append hpart.2]
      | cons next parts =>
          have hnext := h next (by simp)
          have ih := ih fun p hp => h p (List.mem_cons_of_mem _ hp)
          obtain ⟨c, others, rfl⟩ := List.exists_cons_of_ne_nil hnext.1
          have hc : c ≠ ':' := fun heq => hnext.2 (by rw [heq]; exact List.mem_cons_self)
          have hhead : ([':'].intercalate ((c :: others) :: parts) ++ rest).head? = some c := by
            cases parts with
            | nil => rfl
            | cons p ps => simp [List.intercalate_cons_cons]
          rw [List.intercalate_cons_cons, List.append_assoc, List.append_assoc,
            splitDoubleColon_append hpart.2, List.singleton_append,
            splitDoubleColon_cons (fun hcolon => hc (by
              rw [hhead] at hcolon
              exact Option.some.inj hcolon.2)), ih, heq]
          simp

theorem splitColon_intercalate {parts : List (List Char)} (h : ∀ part ∈ parts, IsPart part) :
    splitColon ([':'].intercalate parts) = parts := by
  cases parts with
  | nil => rfl
  | cons part parts =>
      have hne : [':'].intercalate (part :: parts) ≠ [] := by
        have hpart := (h part List.mem_cons_self).1
        cases parts with
        | nil => simpa using hpart
        | cons next parts => simp [List.intercalate_cons_cons]
      rw [splitColon, if_neg hne,
        List.splitOn_intercalate ':' (fun l hl => (h l hl).2) (List.cons_ne_nil _ _)]

/-! ## The text without its zone, in lower case -/

namespace Text

variable (s : Spelling)

/-- The parts behind a list of groups, in lower case. -/
def lowerParts (groups : List Group) : List (List Char) :=
  groups.map lowerDigits ++ s.dotted.toList.map Octets.text

def clean : List Char :=
  match s.tail with
  | none => [':'].intercalate (lowerParts s s.head)
  | some tail =>
      [':'].intercalate (s.head.map lowerDigits) ++
        ':' :: ':' :: [':'].intercalate (lowerParts s tail)

end Text

open Text

theorem map_intercalate (f : Char → Char) (sep : Char) (parts : List (List Char)) :
    ([sep].intercalate parts).map f = [f sep].intercalate (parts.map (List.map f)) := by
  induction parts with
  | nil => rfl
  | cons part parts ih =>
      cases parts with
      | nil => simp
      | cons next parts =>
          rw [List.intercalate_cons_cons, List.map_append, List.map_append, ih]
          simp [List.intercalate_cons_cons]

theorem mem_octets {o : Octets} {c : Char} (h : c ∈ o.text) : c.isDigit = true ∨ c = '.' := by
  simp only [Octets.text, List.append_assoc, List.cons_append, List.mem_append, List.mem_cons] at h
  rcases h with h | h | h | h | h | h | h
  · exact .inl (isDigit_of_mem_decimal h)
  · exact .inr h
  · exact .inl (isDigit_of_mem_decimal h)
  · exact .inr h
  · exact .inl (isDigit_of_mem_decimal h)
  · exact .inr h
  · exact .inl (isDigit_of_mem_decimal h)

theorem toLower_of_isDigit {c : Char} (h : c.isDigit = true) : c.toLower = c := by
  have hbounds : 48 ≤ c.toNat ∧ c.toNat ≤ 57 := by simpa using Char.isDigit_iff_toNat.mp h
  have hall : ∀ n : Fin 58, 48 ≤ n.val → (Char.ofNat n).toLower = Char.ofNat n := by decide
  simpa only [Char.ofNat_toNat] using hall ⟨c.toNat, by omega⟩ hbounds.1

theorem map_toLower_octets (o : Octets) : o.text.map Char.toLower = o.text := by
  conv_rhs => rw [← List.map_id o.text]
  refine List.map_congr_left fun c hc => ?_
  rcases mem_octets hc with hdigit | rfl
  · exact toLower_of_isDigit hdigit
  · rfl

theorem map_parts (s : Spelling) (groups : List Group) :
    (s.parts groups).map (List.map Char.toLower) = lowerParts s groups := by
  rw [Spelling.parts, lowerParts, List.map_append, List.map_map, List.map_map]
  congr 1
  exact List.map_congr_left fun o _ => map_toLower_octets o

theorem map_body (s : Spelling) : s.body.map Char.toLower = clean s := by
  unfold Spelling.body clean
  cases s.tail with
  | none =>
      dsimp only
      rw [map_intercalate, map_parts]
      rfl
  | some tail =>
      dsimp only
      rw [List.map_append, map_intercalate, List.map_cons, List.map_cons, map_intercalate,
        map_parts, List.map_map]
      rfl

theorem not_percent_of_mem_parts {s : Spelling} {groups : List Group} {part : List Char}
    (h : part ∈ s.parts groups) : '%' ∉ part := by
  rcases List.mem_append.mp h with h | h
  · obtain ⟨g, -, rfl⟩ := List.mem_map.mp h
    intro hmem
    exact absurd (g.hex _ hmem) (by decide)
  · obtain ⟨o, -, rfl⟩ := List.mem_map.mp h
    intro hmem
    rcases mem_octets hmem with hdigit | hdot
    · exact absurd hdigit (by decide)
    · exact absurd hdot (by decide)

theorem mem_intercalate {c sep : Char} {parts : List (List Char)}
    (h : c ∈ [sep].intercalate parts) : c = sep ∨ ∃ part ∈ parts, c ∈ part := by
  induction parts with
  | nil => cases h
  | cons part parts ih =>
      cases parts with
      | nil => exact .inr ⟨part, List.mem_cons_self, by simpa using h⟩
      | cons next parts =>
          rw [List.intercalate_cons_cons, List.mem_append, List.mem_append] at h
          rcases h with (h | h) | h
          · exact .inr ⟨part, List.mem_cons_self, h⟩
          · exact .inl (List.mem_singleton.mp h)
          · rcases ih h with h | ⟨p, hp, hmem⟩
            · exact .inl h
            · exact .inr ⟨p, List.mem_cons_of_mem _ hp, hmem⟩

theorem not_percent_of_mem_body (s : Spelling) : '%' ∉ s.body := by
  intro hmem
  unfold Spelling.body at hmem
  have hparts : ∀ groups, '%' ∉ [':'].intercalate (s.parts groups) := by
    intro groups h
    rcases mem_intercalate h with h | ⟨part, hpart, h⟩
    · exact absurd h (by decide)
    · exact not_percent_of_mem_parts hpart h
  cases htail : s.tail with
  | none =>
      rw [htail] at hmem
      exact hparts _ hmem
  | some tail =>
      rw [htail] at hmem
      dsimp only at hmem
      rw [List.mem_append, List.mem_cons, List.mem_cons] at hmem
      rcases hmem with h | h | h | h
      · rcases mem_intercalate h with h | ⟨part, hpart, h⟩
        · exact absurd h (by decide)
        · obtain ⟨g, -, rfl⟩ := List.mem_map.mp hpart
          exact absurd (g.hex _ h) (by decide)
      · exact absurd h (by decide)
      · exact absurd h (by decide)
      · exact hparts _ h

/-- Neither the zone nor the case of the digits matters. -/
theorem clean_text (s : Spelling) :
    (s.text.takeWhile (· ≠ '%')).map Char.toLower = clean s := by
  have hall : ∀ c ∈ s.body, decide (c ≠ '%') = true := fun c hc =>
    decide_eq_true fun heq => not_percent_of_mem_body s (heq ▸ hc)
  have hbody : s.text.takeWhile (· ≠ '%') = s.body := by
    unfold Spelling.text
    cases s.zone with
    | none =>
        dsimp only
        rw [← List.append_nil s.body, List.takeWhile_append_of_pos hall]
        rfl
    | some zone => rw [List.takeWhile_append_of_pos hall]; simp
  rw [hbody, map_body]

theorem isPart_lowerDigits (g : Group) : IsPart (lowerDigits g) := by
  refine ⟨fun h => ?_, fun h => ?_⟩
  · have := g.length_pos
    rw [List.map_eq_nil_iff.mp h] at this
    exact absurd this (by decide)
  · obtain ⟨c, hc, heq⟩ := List.mem_map.mp h
    have hlower := (toLower_hexDigit (g.hex c hc)).1
    rw [heq] at hlower
    exact absurd hlower (by decide)

theorem isPart_octets (o : Octets) : IsPart o.text := by
  refine ⟨?_, fun h => ?_⟩
  · simp [Octets.text]
  · rcases mem_octets h with hdigit | hdot
    · exact absurd hdigit (by decide)
    · exact absurd hdot (by decide)

theorem isPart_of_mem_digits {groups : List Group} {part : List Char}
    (h : part ∈ groups.map lowerDigits) : IsPart part := by
  obtain ⟨g, -, rfl⟩ := List.mem_map.mp h
  exact isPart_lowerDigits g

theorem isPart_of_mem_lowerParts {s : Spelling} {groups : List Group} {part : List Char}
    (h : part ∈ lowerParts s groups) : IsPart part := by
  rcases List.mem_append.mp h with h | h
  · exact isPart_of_mem_digits h
  · obtain ⟨o, -, rfl⟩ := List.mem_map.mp h
    exact isPart_octets o

/-! ## The mapped spelling -/

/-- `::ffff:` before a dotted address. -/
def mappedOctets (s : Spelling) : Option Octets :=
  match s.head, s.tail with
  | [], some [g] => if lowerDigits g = "ffff".toList then s.dotted else none
  | _, _ => none

theorem mappedTail_of_head {c : Char} {rest : List Char} (h : c ≠ ':') :
    mappedTail (c :: rest) = none := by
  rw [mappedTail, if_neg]
  rintro ⟨t, ht⟩
  exact h (List.cons.inj ht).1.symm

theorem mappedTail_of_part {part rest : List Char} (h : IsPart part) :
    mappedTail (part ++ rest) = none := by
  obtain ⟨c, others, rfl⟩ := List.exists_cons_of_ne_nil h.1
  exact mappedTail_of_head fun heq => h.2 (by rw [heq]; exact List.mem_cons_self)

theorem mappedTail_of_parts {parts : List (List Char)} (h : ∀ part ∈ parts, IsPart part)
    (hne : parts ≠ []) (rest : List Char) :
    mappedTail ([':'].intercalate parts ++ rest) = none := by
  obtain ⟨part, parts, rfl⟩ := List.exists_cons_of_ne_nil hne
  have hpart := h part List.mem_cons_self
  cases parts with
  | nil => rw [List.intercalate_singleton]; exact mappedTail_of_part hpart
  | cons next parts =>
      rw [List.intercalate_cons_cons, List.append_assoc, List.append_assoc]
      exact mappedTail_of_part hpart

/-- What the expression captures is a dotted text behind the fixed characters. -/
theorem mappedTail_eq_some {clean tail : List Char} (h : mappedTail clean = some tail) :
    clean = "::ffff:".toList ++ tail ∧ (tail.splitOn '.').length = 4 ∧
      (tail.splitOn '.').all isDigits = true := by
  rw [mappedTail] at h
  split at h
  · rename_i hprefix
    obtain ⟨rest, rfl⟩ := hprefix
    dsimp only at h
    split at h
    · rename_i hdotted
      rw [show List.drop 7 ("::ffff:".toList ++ rest) = rest from rfl] at h hdotted
      obtain rfl := Option.some.inj h
      simpa using hdotted
    · cases h
  · cases h

theorem mappedTail_octets (o : Octets) : mappedTail ("::ffff:".toList ++ o.text) = some o.text := by
  rw [mappedTail, if_pos (List.prefix_append _ _)]
  rw [show List.drop 7 ("::ffff:".toList ++ o.text) = o.text from rfl]
  dsimp only
  rw [splitOn_octets]
  simp [isDigits_decimal]

/-- A dotted text is between colons. -/
theorem isPart_of_dotted {tail : List Char} (hall : (tail.splitOn '.').all isDigits = true) :
    ':' ∉ tail := by
  intro hmem
  have hjoined : ['.'].intercalate (tail.splitOn '.') = tail := List.intercalate_splitOn '.'
  rw [← hjoined] at hmem
  rcases mem_intercalate hmem with h | ⟨part, hpart, h⟩
  · exact absurd h (by decide)
  · have hdigits := List.all_eq_true.mp hall part hpart
    simp only [isDigits, Bool.and_eq_true, List.all_eq_true] at hdigits
    exact absurd (hdigits.2 _ h) (by decide)

theorem dot_mem_of_dotted {tail : List Char} (h : (tail.splitOn '.').length = 4) :
    '.' ∈ tail := by
  by_contra hnot
  rw [List.splitOn_eq_singleton hnot] at h
  cases h

theorem dot_not_mem_lowerDigits (g : Group) : '.' ∉ lowerDigits g := by
  intro h
  obtain ⟨c, hc, heq⟩ := List.mem_map.mp h
  have hlower := (toLower_hexDigit (g.hex c hc)).1
  rw [heq] at hlower
  exact absurd hlower (by decide)

/-- Two parts, the second dotted, are a group and the dotted address. -/
theorem lowerParts_eq_pair {s : Spelling} {groups : List Group} {first tail : List Char}
    (h : lowerParts s groups = [first, tail]) (hdot : '.' ∈ tail) :
    ∃ g o, groups = [g] ∧ s.dotted = some o ∧ lowerDigits g = first ∧ o.text = tail := by
  unfold lowerParts at h
  cases hdotted : s.dotted with
  | none =>
      rw [hdotted, Option.toList_none, List.map_nil, List.append_nil] at h
      have hmem : tail ∈ groups.map lowerDigits := by rw [h]; simp
      obtain ⟨g, -, rfl⟩ := List.mem_map.mp hmem
      exact absurd hdot (dot_not_mem_lowerDigits g)
  | some o =>
      rw [hdotted, Option.toList_some, List.map_singleton] at h
      have hpair : groups.map lowerDigits ++ [o.text] = [first] ++ [tail] := h
      obtain ⟨hgroups, htail⟩ := List.append_inj' hpair rfl
      obtain ⟨g, rfl, hg⟩ := List.map_eq_singleton_iff.mp hgroups
      exact ⟨g, o, rfl, rfl, hg, (List.cons.inj htail).1⟩

theorem mappedOctets_eq_some {s : Spelling} {tail : List Group} {o : Octets}
    (htail : s.tail = some tail) (h : mappedOctets s = some o) :
    ∃ g, tail = [g] ∧ lowerDigits g = "ffff".toList ∧ s.dotted = some o := by
  rw [mappedOctets, htail] at h
  split at h
  · rename_i g _ heq
    split at h
    · exact ⟨g, Option.some.inj heq, ‹_›, h⟩
    · cases h
  · cases h

theorem mappedTail_clean (s : Spelling) :
    mappedTail (clean s) = (mappedOctets s).map Octets.text := by
  have hfits := s.fits
  cases htail : s.tail with
  | none =>
      have hnone : mappedOctets s = none := by
        rw [mappedOctets, htail]
        cases s.head <;> rfl
      have hne : lowerParts s s.head ≠ [] := by
        intro hnil
        obtain ⟨hhead, -⟩ := List.append_eq_nil_iff.mp hnil
        rw [htail, List.map_eq_nil_iff.mp hhead] at hfits
        dsimp only at hfits
        split at hfits <;> cases hfits
      rw [clean, htail, hnone]
      dsimp only
      rw [← List.append_nil ([':'].intercalate (lowerParts s s.head)),
        mappedTail_of_parts (fun part hp => isPart_of_mem_lowerParts hp) hne]
      rfl
  | some tail =>
      rw [clean, htail]
      dsimp only
      cases hhead : s.head with
      | cons g others =>
          have hnone : mappedOctets s = none := by rw [mappedOctets, hhead]
          rw [hnone, mappedTail_of_parts (fun part hp => isPart_of_mem_digits hp) (by simp)]
          rfl
      | nil =>
          rw [List.map_nil, List.intercalate_nil, List.nil_append]
          cases hmapped : mappedTail (':' :: ':' :: [':'].intercalate (lowerParts s tail)) with
          | none =>
              cases hoctets : mappedOctets s with
              | none => rfl
              | some o =>
                  obtain ⟨g, rfl, hg, hdotted⟩ := mappedOctets_eq_some htail hoctets
                  have hparts : lowerParts s [g] = ["ffff".toList, o.text] := by
                    rw [lowerParts, hdotted, ← hg]
                    rfl
                  have hsome := mappedTail_octets o
                  rw [hparts, List.intercalate_cons_cons, List.intercalate_singleton] at hmapped
                  exact absurd (hmapped.symm.trans hsome) nofun
          | some captured =>
              obtain ⟨htext, hfour, hdigits⟩ := mappedTail_eq_some hmapped
              have hjoined : [':'].intercalate (lowerParts s tail) =
                  "ffff".toList ++ ':' :: captured := by simpa using htext
              have hsplit : splitColon ([':'].intercalate (lowerParts s tail)) =
                  lowerParts s tail :=
                splitColon_intercalate fun part hp => isPart_of_mem_lowerParts hp
              have hpair : lowerParts s tail = ["ffff".toList, captured] := by
                rw [← hsplit, hjoined, splitColon, if_neg (by simp),
                  List.splitOn_append_cons_self_of_not_mem (by decide),
                  List.splitOn_eq_singleton (isPart_of_dotted hdigits)]
              obtain ⟨g, o, rfl, hdotted, hg, ho⟩ :=
                lowerParts_eq_pair hpair (dot_mem_of_dotted hfour)
              rw [mappedOctets, hhead, htail]
              dsimp only
              rw [if_pos hg, hdotted, Option.map_some, ho]

/-! ## The groups -/

/-- The reader finds the groups, as none is dotted or the spelling is the mapped one. -/
def Readable (s : Spelling) : Prop := s.dotted = none ∨ (mappedOctets s).isSome = true

instance (s : Spelling) : Decidable (Readable s) := inferInstanceAs (Decidable (_ ∨ _))

theorem mapM_parseGroup (groups : List Group) :
    (groups.map lowerDigits).mapM parseGroup = some (groups.map Group.value) := by
  induction groups with
  | nil => rfl
  | cons g groups ih =>
      rw [List.map_cons, List.mapM_cons, parseGroup_lowerDigits, ih]
      rfl

theorem mapM_append {α β : Type} (f : α → Option β) (xs ys : List α) :
    (xs ++ ys).mapM f = (xs.mapM f).bind fun xs' => (ys.mapM f).map (xs' ++ ·) := by
  rw [List.mapM_append]
  cases xs.mapM f with
  | none => rfl
  | some xs' => cases ys.mapM f <;> rfl

theorem mapM_zeros (n : ℕ) :
    (List.replicate n ['0']).mapM parseGroup = some (List.replicate n 0) := by
  induction n with
  | zero => rfl
  | succ n ih =>
      rw [List.replicate_succ, List.mapM_cons, ih]
      rfl

theorem parseGroup_octets (o : Octets) : parseGroup o.text = none := by
  rw [parseGroup, if_neg]
  intro h
  simp only [Bool.and_eq_true, List.all_eq_true] at h
  have hdot : '.' ∈ o.text := by simp [Octets.text]
  exact absurd (h.2 _ hdot) (by decide)

/-- A dotted part is no group. -/
theorem mapM_dotted {xs : List (List Char)} {o : Octets} (h : o.text ∈ xs) :
    xs.mapM parseGroup = none := by
  induction xs with
  | nil => cases h
  | cons x xs ih =>
      rw [List.mapM_cons]
      rcases List.mem_cons.mp h with rfl | h
      · rw [parseGroup_octets]
        rfl
      · rw [ih h]
        cases parseGroup x <;> rfl

theorem lowerParts_of_plain {s : Spelling} (h : s.dotted = none) (groups : List Group) :
    lowerParts s groups = groups.map lowerDigits ∧ s.values groups = groups.map Group.value := by
  rw [lowerParts, Spelling.values, h]
  simp

theorem splitDoubleColon_clean (s : Spelling) : splitDoubleColon (clean s) =
    match s.tail with
    | none => [[':'].intercalate (lowerParts s s.head)]
    | some tail => [[':'].intercalate (s.head.map lowerDigits),
        [':'].intercalate (lowerParts s tail)] := by
  have hall : ∀ groups, splitDoubleColon ([':'].intercalate (lowerParts s groups)) =
      [[':'].intercalate (lowerParts s groups)] := by
    intro groups
    have hparts : ∀ part ∈ lowerParts s groups, IsPart part := fun part hp =>
      isPart_of_mem_lowerParts hp
    simpa [splitDoubleColon] using splitDoubleColon_intercalate hparts []
  unfold clean
  cases s.tail with
  | none => exact hall s.head
  | some tail =>
      dsimp only
      rw [splitDoubleColon_intercalate (fun part hp => isPart_of_mem_digits hp),
        splitDoubleColon, hall]
      simp

/-- What the filter makes of the two lists of parts. -/
theorem expandIpv6_of_unmapped {s : Spelling} (h : mappedOctets s = none) :
    expandIpv6 s.text =
      match s.tail with
      | none =>
          if (lowerParts s s.head).length ≠ 8 then none
          else (lowerParts s s.head).mapM parseGroup
      | some tail =>
          if 8 < s.head.length + (lowerParts s tail).length then none
          else (s.head.map lowerDigits ++
            List.replicate (8 - s.head.length - (lowerParts s tail).length) ['0'] ++
              lowerParts s tail).mapM parseGroup := by
  have hleft : ∀ groups, splitColon ([':'].intercalate (lowerParts s groups)) =
      lowerParts s groups := fun groups =>
    splitColon_intercalate fun part hp => isPart_of_mem_lowerParts hp
  have hdigits : splitColon ([':'].intercalate (s.head.map lowerDigits)) =
      s.head.map lowerDigits := splitColon_intercalate fun part hp => isPart_of_mem_digits hp
  unfold expandIpv6
  rw [clean_text]
  dsimp only
  rw [mappedTail_clean, h, splitDoubleColon_clean]
  cases s.tail with
  | none =>
      have htwo : ¬ 2 < 1 := by omega
      simp only [Option.map_none, List.length_singleton, htwo, if_false, List.headD_cons,
        List.getD_cons_succ, List.getD_nil, hleft, true_and]
      split
      · rfl
      · rename_i hlength
        have hlength := Decidable.not_not.mp hlength
        have hempty : splitColon [] = [] := rfl
        rw [hempty, hlength]
        simp
  | some tail =>
      simp [hleft, hdigits]

theorem shiftLeft_or_octets (a b : UInt8) :
    a.toNat <<< 8 ||| b.toNat = 256 * a.toNat + b.toNat := by
  rw [← Nat.shiftLeft_add_eq_or_of_lt b.toNat_lt, Nat.shiftLeft_eq]
  omega

theorem expandIpv6_of_mapped {s : Spelling} {o : Octets} (h : mappedOctets s = some o) :
    expandIpv6 s.text = some s.address := by
  have hread : expandIpv6 s.text = some ([0, 0, 0, 0, 0, 0xffff] ++ o.groups) := by
    unfold expandIpv6
    rw [clean_text]
    dsimp only
    rw [mappedTail_clean, h, Option.map_some]
    dsimp only
    rw [parseIpv4_text]
    dsimp only
    rw [shiftLeft_or_octets, shiftLeft_or_octets]
    rfl
  have haddress : s.address = [0, 0, 0, 0, 0, 0xffff] ++ o.groups := by
    rw [mappedOctets] at h
    split at h
    · rename_i g hhead htail
      split at h
      · rename_i hg
        have hvalue : g.value = 0xffff := by
          have hgroup := parseGroup_lowerDigits g
          rw [hg] at hgroup
          exact (Option.some.inj hgroup).symm
        simp [Spelling.address, Spelling.values, htail, hhead, h, hvalue, Octets.groups]
      · cases h
    · cases h
  rw [hread, haddress]

/-- The reader finds the groups of a readable spelling, and none of any other. -/
theorem expandIpv6_text (s : Spelling) :
    expandIpv6 s.text = if Readable s then some s.address else none := by
  cases hmapped : mappedOctets s with
  | some o =>
      have hreadable : Readable s := .inr (by rw [hmapped]; rfl)
      rw [if_pos hreadable, expandIpv6_of_mapped hmapped]
  | none =>
      have hfits := s.fits
      rw [expandIpv6_of_unmapped hmapped]
      cases hdotted : s.dotted with
      | none =>
          have hreadable : Readable s := .inl hdotted
          rw [if_pos hreadable, Spelling.address]
          cases htail : s.tail with
          | none =>
              obtain ⟨hparts, hvalues⟩ := lowerParts_of_plain hdotted s.head
              rw [htail, hdotted] at hfits
              dsimp only
              rw [hparts, hvalues, if_neg (by simpa using hfits), mapM_parseGroup]
          | some tail =>
              obtain ⟨hparts, hvalues⟩ := lowerParts_of_plain hdotted tail
              rw [htail, hdotted] at hfits
              have hlength : s.head.length + tail.length ≤ 7 := by simpa using hfits
              dsimp only
              rw [hparts, hvalues, List.length_map, List.length_map, if_neg (by omega),
                mapM_append, mapM_append, mapM_parseGroup, mapM_zeros, mapM_parseGroup]
              rfl
      | some o =>
          have hnot : ¬ Readable s := by
            rintro (h | h)
            · rw [hdotted] at h
              cases h
            · rw [hmapped] at h
              cases h
          have hmem : ∀ groups, o.text ∈ lowerParts s groups := by
            intro groups
            rw [lowerParts, hdotted]
            simp
          rw [if_neg hnot]
          cases htail : s.tail with
          | none =>
              dsimp only
              rw [mapM_dotted (hmem s.head)]
              split <;> rfl
          | some tail =>
              dsimp only
              rw [mapM_dotted (List.mem_append_right _ (hmem tail))]
              split <;> rfl

/-! ## Embedded addresses -/

theorem dotted_octets (o : Octets) :
    dotted o.a.toNat o.b.toNat o.c.toNat o.d.toNat = o.text := by
  simp [dotted, Octets.text, decimal]

theorem high_octet (a b : UInt8) : (256 * a.toNat + b.toNat) >>> 8 = a.toNat := by
  have := b.toNat_lt
  rw [Nat.shiftRight_eq_div_pow]
  omega

theorem low_octet (a b : UInt8) : (256 * a.toNat + b.toNat) &&& 0xff = b.toNat := by
  have := b.toNat_lt
  rw [show 0xff = 2 ^ 8 - 1 from rfl, Nat.and_two_pow_sub_one_eq_mod]
  omega

section Embedded

variable {ip : List Char} {o : Octets}

theorem isBlockedIpv6_mapped (h : expandIpv6 ip = some ([0, 0, 0, 0, 0, 0xffff] ++ o.groups)) :
    isBlockedIpv6 ip = isBlockedIpv4 o.text := by
  unfold isBlockedIpv6
  rw [h]
  simp [Octets.groups, high_octet, low_octet, dotted_octets]

theorem isBlockedIpv6_compatible
    (h : expandIpv6 ip = some ([0, 0, 0, 0, 0, 0] ++ o.groups)) :
    isBlockedIpv6 ip = true ↔ o.groups = [0, 0] ∨ o.groups = [0, 1] := by
  unfold isBlockedIpv6
  rw [h]
  simp [Octets.groups]

theorem isBlockedIpv6_nat64
    (h : expandIpv6 ip = some ([0x64, 0xff9b, 0, 0, 0, 0] ++ o.groups)) :
    isBlockedIpv6 ip = false := by
  unfold isBlockedIpv6
  rw [h]
  simp

theorem isBlockedIpv6_sixToFour {rest : List ℕ}
    (h : expandIpv6 ip = some (0x2002 :: o.groups ++ rest)) : isBlockedIpv6 ip = false := by
  unfold isBlockedIpv6
  rw [h]
  simp [Octets.groups]

end Embedded

/-- The address is mapped, unspecified or the loopback address. -/
def Covered (address : List ℕ) : Prop :=
  address.take 6 = [0, 0, 0, 0, 0, 0xffff] ∨ address = [0, 0, 0, 0, 0, 0, 0, 0] ∨
    address = [0, 0, 0, 0, 0, 0, 0, 1]

/-- An address that embeds a blocked one is blocked if its spelling is not readable, or if it is
covered. -/
theorem isBlockedIpv6_embedded {s : Spelling} {o : Octets} (hblocked : isBlockedIpv4 o.text = true)
    (h : Embeds o s.address) :
    isBlockedIpv6 s.text = true ↔ ¬ Readable s ∨ Covered s.address := by
  by_cases hreadable : Readable s
  · have hread : expandIpv6 s.text = some s.address := by rw [expandIpv6_text, if_pos hreadable]
    have hsimp : ¬ Readable s ∨ Covered s.address ↔ Covered s.address :=
      ⟨fun h => h.resolve_left (not_not.mpr hreadable), .inr⟩
    rw [hsimp]
    generalize s.address = address at h hread
    cases h with
    | mapped =>
        rw [isBlockedIpv6_mapped hread, hblocked]
        exact ⟨fun _ => .inl rfl, fun _ => rfl⟩
    | compatible =>
        rw [isBlockedIpv6_compatible hread]
        simp [Covered, Octets.groups]
    | nat64 =>
        rw [isBlockedIpv6_nat64 hread]
        simp [Covered]
    | sixToFour rest hrest =>
        rw [isBlockedIpv6_sixToFour hread]
        simp [Covered, Octets.groups]
  · have hread : expandIpv6 s.text = none := by rw [expandIpv6_text, if_neg hreadable]
    have hclosed : isBlockedIpv6 s.text = true := by rw [isBlockedIpv6, hread]
    exact ⟨fun _ => .inl hreadable, fun _ => hclosed⟩

/-- The reader finds the groups of a spelling if and only if that is readable, and the filter blocks
a spelling with a blocked address in it if and only if it is not readable or its address is
covered. -/
theorem embedded_blocked_iff (s : Spelling) :
    (expandIpv6 s.text = some s.address ↔ Readable s) ∧
      ∀ o, isBlockedIpv4 o.text = true → Embeds o s.address →
        (isBlockedIpv6 s.text = true ↔ ¬ Readable s ∨ Covered s.address) := by
  refine ⟨?_, fun o hblocked h => isBlockedIpv6_embedded hblocked h⟩
  rw [expandIpv6_text]
  split
  · rename_i hreadable
    exact ⟨fun _ => hreadable, fun _ => rfl⟩
  · rename_i hreadable
    exact ⟨nofun, fun h => absurd h hreadable⟩

/-! ## Spellings that pass -/

def loopback : Octets := ⟨127, 0, 0, 1⟩

def group7f00 : Group := ⟨"7F00".toList, List.all_eq_true.mp (by decide), by decide, by decide⟩

def group1 : Group := ⟨"1".toList, List.all_eq_true.mp (by decide), by decide, by decide⟩

def group0 : Group := ⟨"0".toList, List.all_eq_true.mp (by decide), by decide, by decide⟩

def groupFfff : Group := ⟨"ffff".toList, List.all_eq_true.mp (by decide), by decide, by decide⟩

/-- `::7F00:1` -/
def compatibleLoopback : Spelling := ⟨[], some [group7f00, group1], none, none, by decide⟩

/-- `64:ff9b::7F00:1` -/
def nat64Loopback : Spelling :=
  ⟨[⟨"64".toList, List.all_eq_true.mp (by decide), by decide, by decide⟩,
      ⟨"ff9b".toList, List.all_eq_true.mp (by decide), by decide, by decide⟩],
    some [group7f00, group1], none, none, by decide⟩

/-- `2002:7F00:1::` -/
def sixToFourLoopback : Spelling :=
  ⟨[⟨"2002".toList, List.all_eq_true.mp (by decide), by decide, by decide⟩, group7f00, group1], some [], none, none,
    by decide⟩

/-- `0:0:0:0:0:ffff:127.0.0.1` -/
def longMappedLoopback : Spelling :=
  ⟨[group0, group0, group0, group0, group0, groupFfff], none, some loopback, none, by decide⟩

/-- The loopback address passes in three of its embeddings, and a mapped address is not read when
its zeros are written out. -/
theorem embedded_blocked_fails :
    isBlockedIpv4 loopback.text = true ∧
      (Embeds loopback compatibleLoopback.address ∧
        isBlockedIpv6 compatibleLoopback.text = false) ∧
      (Embeds loopback nat64Loopback.address ∧ isBlockedIpv6 nat64Loopback.text = false) ∧
      (Embeds loopback sixToFourLoopback.address ∧
        isBlockedIpv6 sixToFourLoopback.text = false) ∧
      longMappedLoopback.address = [0, 0, 0, 0, 0, 0xffff, 0x7f00, 1] ∧
      expandIpv6 longMappedLoopback.text = none :=
  ⟨by decide +kernel, ⟨.compatible, by decide +kernel⟩, ⟨.nat64, by decide +kernel⟩,
    ⟨.sixToFour [0, 0, 0, 0, 0] rfl, by decide +kernel⟩, by decide +kernel, by decide +kernel⟩

end FetchUri

end VicoopBridge
