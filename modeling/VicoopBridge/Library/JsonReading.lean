import VicoopBridge.Library.JsonText

/-! # Compact JSON, and reading it back

What `JSON.stringify(value)` writes of values without numbers. A reader gets the value back from
the text, also when more units of its strings have been escaped than the writer escapes. -/

namespace VicoopBridge.Library.JsonText

/-! ## Writing -/

def comma : UInt16 := 0x2C

/-- `q` writes one character of a string. -/
def quoteWith (q : Text → Text) (s : Text) : Text :=
  quotes :: ((Utf16.chars s).flatMap q ++ [quotes])

mutual

def compactWith (q : Text → Text) : Value → Text
  | .null => ascii "null"
  | .bool true => ascii "true"
  | .bool false => ascii "false"
  | .number n => n.text
  | .string s => quoteWith q s
  | .array [] => [0x5B, 0x5D]
  | .array (item :: items) => 0x5B :: (compactWith q item ++ compactItems q items)
  | .object [] => [0x7B, 0x7D]
  | .object ((key, value) :: fields) =>
      0x7B :: (quoteWith q key ++ 0x3A :: (compactWith q value ++ compactFields q fields))

/-- The other items, and the end of the array. -/
def compactItems (q : Text → Text) : List Value → Text
  | [] => [0x5D]
  | item :: items => comma :: (compactWith q item ++ compactItems q items)

def compactFields (q : Text → Text) : List (Text × Value) → Text
  | [] => [0x7D]
  | (key, value) :: fields =>
      comma :: (quoteWith q key ++ 0x3A :: (compactWith q value ++ compactFields q fields))

end

/-- `JSON.stringify(value)` -/
def compact (value : Value) : Text := compactWith quoteChar value

mutual

def Value.numberless : Value → Bool
  | .number _ => false
  | .array items => numberlessItems items
  | .object fields => numberlessFields fields
  | _ => true

def numberlessItems : List Value → Bool
  | [] => true
  | item :: items => item.numberless && numberlessItems items

def numberlessFields : List (Text × Value) → Bool
  | [] => true
  | (_, value) :: fields => value.numberless && numberlessFields fields

end

/-! ## Reading -/

def unhex (u : UInt16) : ℕ := if u.toNat < 58 then u.toNat - 48 else u.toNat - 87

/-- The unit of a short escape. -/
def readShort (letter : UInt16) : Option UInt16 :=
  if letter = 0x62 then some 0x8
  else if letter = 0x74 then some 0x9
  else if letter = 0x6E then some lineFeed
  else if letter = 0x66 then some 0xC
  else if letter = 0x72 then some 0xD
  else if letter = quotes ∨ letter = backslash then some letter
  else none

def readEscape : Text → Option (UInt16 × Text)
  | [] => none
  | letter :: rest =>
      if letter = 0x75 then
        match rest with
        | a :: b :: c :: d :: rest =>
            some (UInt16.ofNat (4096 * unhex a + 256 * unhex b + 16 * unhex c + unhex d), rest)
        | _ => none
      else (readShort letter).map fun u => (u, rest)

/-- One unit of a string; none at its end. -/
def readUnit : Text → Option (UInt16 × Text)
  | [] => none
  | u :: rest =>
      if u = quotes then none
      else if u = backslash then readEscape rest
      else if u < 0x20 then none
      else some (u, rest)

/-- The rest of a string behind its opening quotes. -/
def readUnits : ℕ → Text → Option (Text × Text)
  | 0, _ => none
  | n + 1, text =>
      match readUnit text with
      | some (u, rest) => (readUnits n rest).map fun p => (u :: p.1, p.2)
      | none =>
          match text with
          | [] => none
          | u :: rest => if u = quotes then some ([], rest) else none

def readString : Text → Option (Text × Text)
  | [] => none
  | u :: rest => if u = quotes then readUnits (rest.length + 1) rest else none

/-- The rest of the text behind the word. -/
def readWord (word text : Text) : Option Text :=
  if word <+: text then some (text.drop word.length) else none

def readAtom (text : Text) : Option (Value × Text) :=
  match readWord (ascii "null") text, readWord (ascii "true") text,
      readWord (ascii "false") text with
  | some rest, _, _ => some (.null, rest)
  | none, some rest, _ => some (.bool true, rest)
  | none, none, some rest => some (.bool false, rest)
  | none, none, none => none

def readKey (text : Text) : Option (Text × Text) :=
  match readString text with
  | some (key, colon :: rest) => if colon = 0x3A then some (key, rest) else none
  | _ => none

mutual

def readValue : ℕ → Text → Option (Value × Text)
  | 0, _ => none
  | _ + 1, [] => none
  | n + 1, u :: rest =>
      if u = quotes then (readString (u :: rest)).map fun p => (.string p.1, p.2)
      else if u = 0x5B then
        if rest.head? = some 0x5D then some (.array [], rest.tail)
        else
          match readValue n rest with
          | none => none
          | some (item, rest) => (readItems n rest).map fun p => (.array (item :: p.1), p.2)
      else if u = 0x7B then
        if rest.head? = some 0x7D then some (.object [], rest.tail)
        else
          match readKey rest with
          | none => none
          | some (key, rest) =>
              match readValue n rest with
              | none => none
              | some (value, rest) =>
                  (readFields n rest).map fun p => (.object ((key, value) :: p.1), p.2)
      else readAtom (u :: rest)

def readItems : ℕ → Text → Option (List Value × Text)
  | 0, _ => none
  | _ + 1, [] => none
  | n + 1, u :: rest =>
      if u = 0x5D then some ([], rest)
      else if u = comma then
        match readValue n rest with
        | none => none
        | some (item, rest) => (readItems n rest).map fun p => (item :: p.1, p.2)
      else none

def readFields : ℕ → Text → Option (List (Text × Value) × Text)
  | 0, _ => none
  | _ + 1, [] => none
  | n + 1, u :: rest =>
      if u = 0x7D then some ([], rest)
      else if u = comma then
        match readKey rest with
        | none => none
        | some (key, rest) =>
            match readValue n rest with
            | none => none
            | some (value, rest) => (readFields n rest).map fun p => ((key, value) :: p.1, p.2)
      else none

end

/-- `JSON.parse(text)`, of a text without white space outside of its strings. -/
def parse (text : Text) : Option Value :=
  match readValue (text.length + 1) text with
  | some (value, []) => some value
  | _ => none

/-! ## Characters -/

/-- What is written for a character reads back as its units. -/
structure Faithful (q : Text → Text) : Prop where
  reads : ∀ ch, Utf16.IsChar ch → ∀ n rest,
    readUnits (ch.length + n) (q ch ++ rest) =
      (readUnits n rest).map fun p => (ch ++ p.1, p.2)
  long : ∀ ch, Utf16.IsChar ch → ch.length ≤ (q ch).length

theorem readUnits_of_unit {text rest : Text} {u : UInt16} (h : readUnit text = some (u, rest))
    (n : ℕ) : readUnits (n + 1) text = (readUnits n rest).map fun p => (u :: p.1, p.2) := by
  conv_lhs => unfold readUnits
  rw [h]

theorem readUnits_quotes (n : ℕ) (rest : Text) :
    readUnits (n + 1) (quotes :: rest) = some ([], rest) := by
  have hnone : readUnit (quotes :: rest) = none := by
    rw [readUnit, if_pos rfl]
  unfold readUnits
  rw [hnone]
  exact if_pos rfl

theorem unhex_hexDigit : ∀ n < 16, unhex (hexDigit n) = n := by decide

theorem readUnit_escapeUnit (u : UInt16) (rest : Text) :
    readUnit (escapeUnit u ++ rest) = some (u, rest) := by
  have hu : u.toNat < 65536 := u.toNat_lt
  have hread : readUnit (escapeUnit u ++ rest) =
      some (UInt16.ofNat (4096 * unhex (hexDigit (u.toNat / 4096)) +
        256 * unhex (hexDigit (u.toNat / 256 % 16)) + 16 * unhex (hexDigit (u.toNat / 16 % 16)) +
          unhex (hexDigit (u.toNat % 16))), rest) := rfl
  rw [hread, unhex_hexDigit _ (by omega), unhex_hexDigit _ (by omega), unhex_hexDigit _ (by omega),
    unhex_hexDigit _ (by omega)]
  have hsum : 4096 * (u.toNat / 4096) + 256 * (u.toNat / 256 % 16) + 16 * (u.toNat / 16 % 16) +
      u.toNat % 16 = u.toNat := by omega
  rw [hsum, UInt16.ofNat_toNat]

theorem readUnit_shortEscape {u letter : UInt16} (h : shortEscape u = some letter) (rest : Text) :
    readUnit (backslash :: letter :: rest) = some (u, rest) := by
  unfold shortEscape at h
  split_ifs at h with h1 h2 h3 h4 h5 h6
  all_goals (obtain rfl := Option.some.inj h)
  · rw [h1]; rfl
  · rw [h2]; rfl
  · rw [h3]; rfl
  · rw [h4]; rfl
  · rw [h5]; rfl
  · rcases h6 with rfl | rfl <;> rfl

theorem shortEscape_eq_none {u : UInt16} (h : shortEscape u = none) :
    u ≠ quotes ∧ u ≠ backslash := by
  constructor
  · rintro rfl
    cases h
  · rintro rfl
    cases h

theorem readUnit_plain {u : UInt16} (h : shortEscape u = none) (hu : ¬ u < 0x20) (rest : Text) :
    readUnit (u :: rest) = some (u, rest) := by
  obtain ⟨hquotes, hbackslash⟩ := shortEscape_eq_none h
  rw [readUnit, if_neg hquotes, if_neg hbackslash, if_neg hu]

theorem surrogate_plain {u : UInt16} (h : Utf16.isHigh u = true ∨ Utf16.isLow u = true) :
    shortEscape u = none ∧ ¬ u < 0x20 := by
  have hlarge : 0xD800 ≤ u.toNat := by
    rcases h with h | h
    · simp only [Utf16.isHigh, Bool.and_eq_true, decide_eq_true_eq] at h
      exact h.1
    · simp only [Utf16.isLow, Bool.and_eq_true, decide_eq_true_eq] at h
      omega
  have hne : ∀ c : UInt16, c.toNat < 0xD800 → u ≠ c := by
    rintro c hc rfl
    omega
  refine ⟨?_, fun hlt => ?_⟩
  · unfold shortEscape
    rw [if_neg (hne _ (by decide)), if_neg (hne _ (by decide)), if_neg (hne _ (by decide)),
      if_neg (hne _ (by decide)), if_neg (hne _ (by decide)), if_neg]
    rintro (h | h)
    · exact hne _ (by decide) h
    · exact hne _ (by decide) h
  · have := UInt16.lt_iff_toNat_lt.mp hlt
    have h20 : (0x20 : UInt16).toNat = 32 := rfl
    omega

/-- The three ways in which a unit that stands alone is written. -/
theorem readUnit_quoteChar (u : UInt16) (rest : Text) :
    readUnit (quoteChar [u] ++ rest) = some (u, rest) := by
  rw [quoteChar]
  split
  · next letter h => exact readUnit_shortEscape h rest
  · next h =>
      split
      · exact readUnit_escapeUnit u rest
      · next hplain =>
          refine readUnit_plain h ?_ rest
          intro hlt
          exact hplain (by simp [hlt])

theorem length_quoteChar_pos (u : UInt16) : 1 ≤ (quoteChar [u]).length := by
  rw [quoteChar]
  split
  · exact Nat.le_of_ble_eq_true rfl
  · split
    · exact Nat.le_of_ble_eq_true rfl
    · exact Nat.le_refl _

theorem faithful_quoteChar : Faithful quoteChar where
  reads ch hch n rest := by
    rcases hch with ⟨u, rfl⟩ | ⟨u, v, rfl, hu, hv⟩
    · rw [Nat.add_comm]
      exact readUnits_of_unit (readUnit_quoteChar u rest) n
    · obtain ⟨hushort, hulow⟩ := surrogate_plain (.inl hu)
      obtain ⟨hvshort, hvlow⟩ := surrogate_plain (.inr hv)
      have hlength : [u, v].length + n = n + 1 + 1 := Nat.add_comm 2 n
      rw [hlength]
      change readUnits (n + 1 + 1) (u :: v :: rest) = _
      rw [readUnits_of_unit (readUnit_plain hushort hulow _),
        readUnits_of_unit (readUnit_plain hvshort hvlow _), Option.map_map]
      rfl
  long ch hch := by
    rcases hch with ⟨u, rfl⟩ | ⟨u, v, rfl, -, -⟩
    · exact length_quoteChar_pos u
    · exact Nat.le_refl _

/-! ## Strings -/

variable {q : Text → Text}

theorem Faithful.readUnits_chars (hq : Faithful q) {s : Text} {n : ℕ} (hn : s.length < n)
    (rest : Text) :
    readUnits n ((Utf16.chars s).flatMap q ++ quotes :: rest) = some (s, rest) := by
  have hall : ∀ chs : List Text, (∀ ch ∈ chs, Utf16.IsChar ch) → ∀ n, chs.flatten.length < n →
      readUnits n (chs.flatMap q ++ quotes :: rest) = some (chs.flatten, rest) := by
    intro chs
    induction chs with
    | nil =>
        intro _ n hn
        obtain ⟨m, rfl⟩ := Nat.exists_eq_add_of_lt hn
        exact readUnits_quotes _ rest
    | cons ch chs ih =>
        intro hchs n hn
        rw [List.flatten_cons, List.length_append] at hn
        obtain ⟨m, rfl⟩ : ∃ m, n = ch.length + m := ⟨n - ch.length, by omega⟩
        rw [List.flatMap_cons, List.append_assoc, hq.reads ch (hchs ch List.mem_cons_self),
          ih (fun c hc => hchs c (List.mem_cons_of_mem ch hc)) m (by omega)]
        rfl
  have hs := hall (Utf16.chars s) (fun ch hch => Utf16.isChar_of_mem_chars hch) n
  rw [Utf16.flatten_chars] at hs
  exact hs hn

theorem Faithful.length_le (hq : Faithful q) (s : Text) :
    s.length ≤ ((Utf16.chars s).flatMap q).length := by
  have hall : ∀ chs : List Text, (∀ ch ∈ chs, Utf16.IsChar ch) →
      chs.flatten.length ≤ (chs.flatMap q).length := by
    intro chs
    induction chs with
    | nil => exact fun _ => Nat.le_refl _
    | cons ch chs ih =>
        intro hchs
        have hch := hq.long ch (hchs ch List.mem_cons_self)
        have hrest := ih fun c hc => hchs c (List.mem_cons_of_mem ch hc)
        rw [List.flatten_cons, List.flatMap_cons, List.length_append, List.length_append]
        omega
  have hs := hall (Utf16.chars s) fun ch hch => Utf16.isChar_of_mem_chars hch
  rwa [Utf16.flatten_chars] at hs

theorem Faithful.readString_quoteWith (hq : Faithful q) (s rest : Text) :
    readString (quoteWith q s ++ rest) = some (s, rest) := by
  have htext : quoteWith q s ++ rest =
      quotes :: ((Utf16.chars s).flatMap q ++ quotes :: rest) := by
    rw [quoteWith, List.cons_append, List.append_assoc]
    rfl
  rw [htext, readString, if_pos rfl]
  refine hq.readUnits_chars ?_ rest
  have hlength := hq.length_le s
  rw [List.length_append, List.length_cons]
  omega

theorem Faithful.readKey_quoteWith (hq : Faithful q) (key rest : Text) :
    readKey (quoteWith q key ++ 0x3A :: rest) = some (key, rest) := by
  rw [readKey, hq.readString_quoteWith]
  exact if_pos rfl

/-! ## Values -/

/-- No value is written like the end of an array. -/
theorem compactWith_eq_cons (q : Text → Text) {value : Value} (h : value.numberless = true) :
    ∃ u text, compactWith q value = u :: text ∧ u ≠ 0x5D := by
  cases value with
  | null => exact ⟨_, _, rfl, by decide⟩
  | bool b => cases b <;> exact ⟨_, _, rfl, by decide⟩
  | number n => cases h
  | string s => exact ⟨_, _, rfl, by decide⟩
  | array items => cases items <;> exact ⟨_, _, by rw [compactWith], by decide⟩
  | object fields => cases fields <;> exact ⟨_, _, by rw [compactWith], by decide⟩

theorem readAtom_null (rest : Text) : readAtom (ascii "null" ++ rest) = some (.null, rest) := by
  have hword : readWord (ascii "null") (ascii "null" ++ rest) = some rest := by
    rw [readWord, if_pos (List.prefix_append _ _), List.drop_left]
  rw [readAtom, hword]

theorem readWord_of_head {word text : Text} (h : word.head? ≠ text.head?) (hword : word ≠ []) :
    readWord word text = none := by
  refine if_neg ?_
  rintro ⟨rest, rfl⟩
  cases word with
  | nil => exact hword rfl
  | cons u word => exact h rfl

theorem readAtom_true (rest : Text) :
    readAtom (ascii "true" ++ rest) = some (.bool true, rest) := by
  have hword : readWord (ascii "true") (ascii "true" ++ rest) = some rest := by
    rw [readWord, if_pos (List.prefix_append _ _), List.drop_left]
  have hhead : (ascii "true" ++ rest).head? = some 0x74 := rfl
  rw [readAtom, hword, readWord_of_head (by rw [hhead]; decide) (by decide)]

theorem readAtom_false (rest : Text) :
    readAtom (ascii "false" ++ rest) = some (.bool false, rest) := by
  have hword : readWord (ascii "false") (ascii "false" ++ rest) = some rest := by
    rw [readWord, if_pos (List.prefix_append _ _), List.drop_left]
  have hhead : (ascii "false" ++ rest).head? = some 0x66 := rfl
  rw [readAtom, hword, readWord_of_head (by rw [hhead]; decide) (by decide),
    readWord_of_head (by rw [hhead]; decide) (by decide)]

theorem readValue_atom {n : ℕ} {u : UInt16} (rest : Text)
    (h : u ≠ quotes ∧ u ≠ 0x5B ∧ u ≠ 0x7B) : readValue (n + 1) (u :: rest) =
      readAtom (u :: rest) := by
  rw [readValue, if_neg h.1, if_neg h.2.1, if_neg h.2.2]

mutual

theorem Faithful.readValue_compactWith (hq : Faithful q) :
    ∀ (value : Value) (n : ℕ) (rest : Text), value.numberless = true →
      (compactWith q value).length ≤ n →
      readValue n (compactWith q value ++ rest) = some (value, rest)
  | .null, 0, _, _, hn | .bool true, 0, _, _, hn | .bool false, 0, _, _, hn => by
      cases hn
  | .null, n + 1, rest, _, _ => by
      rw [compactWith]
      exact (readValue_atom _ (by decide)).trans (readAtom_null rest)
  | .bool true, n + 1, rest, _, _ => by
      rw [compactWith]
      exact (readValue_atom _ (by decide)).trans (readAtom_true rest)
  | .bool false, n + 1, rest, _, _ => by
      rw [compactWith]
      exact (readValue_atom _ (by decide)).trans (readAtom_false rest)
  | .number _, _, _, h, _ => by cases h
  | .string s, 0, _, _, hn => by cases hn
  | .string s, n + 1, rest, _, _ => by
      have hread := hq.readString_quoteWith s rest
      rw [compactWith]
      rw [quoteWith, List.cons_append] at hread ⊢
      rw [readValue, if_pos rfl, hread]
      rfl
  | .array [], 0, _, _, hn => by cases hn
  | .array [], n + 1, rest, _, _ => by
      rw [compactWith]
      rfl
  | .array (item :: items), 0, _, _, hn => by
      rw [compactWith] at hn
      cases hn
  | .array (item :: items), n + 1, rest, h, hn => by
      rw [Value.numberless, numberlessItems, Bool.and_eq_true] at h
      rw [compactWith] at hn ⊢
      rw [List.length_cons, List.length_append] at hn
      have hitem := hq.readValue_compactWith item n (compactItems q items ++ rest) h.1 (by omega)
      have hitems := hq.readItems_compactItems items n rest h.2 (by omega)
      obtain ⟨u, text, htext, hu⟩ := compactWith_eq_cons q h.1
      rw [List.cons_append, List.append_assoc, readValue, if_neg (by decide), if_pos rfl,
        if_neg (by rw [htext]; simpa using hu), hitem]
      dsimp only
      rw [hitems]
      rfl
  | .object [], 0, _, _, hn => by cases hn
  | .object [], n + 1, rest, _, _ => by
      rw [compactWith]
      rfl
  | .object ((key, value) :: fields), 0, _, _, hn => by
      rw [compactWith] at hn
      cases hn
  | .object ((key, value) :: fields), n + 1, rest, h, hn => by
      rw [Value.numberless, numberlessFields, Bool.and_eq_true] at h
      rw [compactWith] at hn ⊢
      simp only [List.length_cons, List.length_append] at hn
      have hvalue := hq.readValue_compactWith value n (compactFields q fields ++ rest) h.1
        (by omega)
      have hfields := hq.readFields_compactFields fields n rest h.2 (by omega)
      have hkey := hq.readKey_quoteWith key
        (compactWith q value ++ (compactFields q fields ++ rest))
      have hfirst : (quoteWith q key ++
          0x3A :: (compactWith q value ++ (compactFields q fields ++ rest))).head? ≠ some 0x7D := by
        change some quotes ≠ some 0x7D
        decide
      rw [List.cons_append, List.append_assoc, List.cons_append, List.append_assoc, readValue,
        if_neg (by decide), if_neg (by decide), if_pos rfl, if_neg hfirst, hkey]
      dsimp only
      rw [hvalue]
      dsimp only
      rw [hfields]
      rfl

theorem Faithful.readItems_compactItems (hq : Faithful q) :
    ∀ (items : List Value) (n : ℕ) (rest : Text), numberlessItems items = true →
      (compactItems q items).length ≤ n →
      readItems n (compactItems q items ++ rest) = some (items, rest)
  | [], 0, _, _, hn => by cases hn
  | [], n + 1, rest, _, _ => by
      rw [compactItems]
      rfl
  | item :: items, 0, _, _, hn => by
      rw [compactItems] at hn
      cases hn
  | item :: items, n + 1, rest, h, hn => by
      rw [numberlessItems, Bool.and_eq_true] at h
      rw [compactItems] at hn ⊢
      rw [List.length_cons, List.length_append] at hn
      have hitem := hq.readValue_compactWith item n (compactItems q items ++ rest) h.1 (by omega)
      have hitems := hq.readItems_compactItems items n rest h.2 (by omega)
      rw [List.cons_append, List.append_assoc, readItems, if_neg (by decide), if_pos rfl, hitem]
      dsimp only
      rw [hitems]
      rfl

theorem Faithful.readFields_compactFields (hq : Faithful q) :
    ∀ (fields : List (Text × Value)) (n : ℕ) (rest : Text), numberlessFields fields = true →
      (compactFields q fields).length ≤ n →
      readFields n (compactFields q fields ++ rest) = some (fields, rest)
  | [], 0, _, _, hn => by cases hn
  | [], n + 1, rest, _, _ => by
      rw [compactFields]
      rfl
  | (key, value) :: fields, 0, _, _, hn => by
      rw [compactFields] at hn
      cases hn
  | (key, value) :: fields, n + 1, rest, h, hn => by
      rw [numberlessFields, Bool.and_eq_true] at h
      rw [compactFields] at hn ⊢
      simp only [List.length_cons, List.length_append] at hn
      have hvalue := hq.readValue_compactWith value n (compactFields q fields ++ rest) h.1
        (by omega)
      have hfields := hq.readFields_compactFields fields n rest h.2 (by omega)
      have hkey := hq.readKey_quoteWith key
        (compactWith q value ++ (compactFields q fields ++ rest))
      rw [List.cons_append, List.append_assoc, List.cons_append, List.append_assoc, readFields,
        if_neg (by decide), if_pos rfl, hkey]
      dsimp only
      rw [hvalue]
      dsimp only
      rw [hfields]
      rfl

end

theorem Faithful.parse_compactWith (hq : Faithful q) {value : Value}
    (h : value.numberless = true) : parse (compactWith q value) = some value := by
  have hread := hq.readValue_compactWith value ((compactWith q value).length + 1) [] h
    (Nat.le_succ _)
  rw [List.append_nil] at hread
  rw [parse, hread]

theorem parse_compact {value : Value} (h : value.numberless = true) :
    parse (compact value) = some value := faithful_quoteChar.parse_compactWith h

/-- The text tells the value. -/
theorem compact_inj {value value' : Value} (h : value.numberless = true)
    (h' : value'.numberless = true) (heq : compact value = compact value') : value = value' := by
  have hparse := parse_compact h
  rw [heq, parse_compact h'] at hparse
  exact (Option.some.inj hparse).symm

/-! ## Escaping more -/

/-- The units the writer puts around those of the strings, or for them. -/
def writerUnits : Text := ascii "\"\\[]\x7b\x7d,:0123456789abcdeflnrstu"

/-- Each of the special units by its number. -/
def escapeSpecial (special : UInt16 → Bool) (text : Text) : Text :=
  text.flatMap fun u => if special u then escapeUnit u else [u]

section Special

variable {special : UInt16 → Bool}

theorem escapeSpecial_append (s t : Text) :
    escapeSpecial special (s ++ t) = escapeSpecial special s ++ escapeSpecial special t :=
  List.flatMap_append

theorem escapeSpecial_cons (u : UInt16) (s : Text) : escapeSpecial special (u :: s) =
    (if special u then escapeUnit u else [u]) ++ escapeSpecial special s := List.flatMap_cons

theorem escapeSpecial_eq_self {s : Text} (h : ∀ u ∈ s, special u = false) :
    escapeSpecial special s = s := by
  induction s with
  | nil => rfl
  | cons u s ih =>
      rw [escapeSpecial_cons, h u List.mem_cons_self,
        ih fun v hv => h v (List.mem_cons_of_mem u hv)]
      rfl

/-- None of the special units is the writer's own. -/
def Foreign (special : UInt16 → Bool) : Prop := ∀ u ∈ writerUnits, special u = false

theorem subset_writerUnits {s : Text} (h : s.all (writerUnits.contains ·) = true) :
    ∀ u ∈ s, u ∈ writerUnits := fun u hu => List.contains_iff_mem.mp (List.all_eq_true.mp h u hu)

theorem foreign_of_all (h : writerUnits.all (fun u => !special u) = true) : Foreign special :=
  fun u hu => (Bool.not_eq_true' _).mp (List.all_eq_true.mp h u hu)

theorem hexDigit_mem_writerUnits : ∀ n < 16, hexDigit n ∈ writerUnits := by decide +kernel

theorem escapeUnit_subset (u : UInt16) : ∀ v ∈ escapeUnit u, v ∈ writerUnits := by
  have hu : u.toNat < 65536 := u.toNat_lt
  intro v hv
  simp only [escapeUnit, List.mem_cons, List.not_mem_nil, or_false] at hv
  rcases hv with rfl | rfl | rfl | rfl | rfl | rfl
  · decide
  · decide
  · exact hexDigit_mem_writerUnits _ (by omega)
  · exact hexDigit_mem_writerUnits _ (by omega)
  · exact hexDigit_mem_writerUnits _ (by omega)
  · exact hexDigit_mem_writerUnits _ (by omega)

theorem shortEscape_mem_writerUnits {u letter : UInt16} (h : shortEscape u = some letter) :
    letter ∈ writerUnits := by
  unfold shortEscape at h
  split_ifs at h with h1 h2 h3 h4 h5 h6
  all_goals (obtain rfl := Option.some.inj h)
  · decide
  · decide
  · decide
  · decide
  · decide
  · rcases h6 with rfl | rfl <;> decide

/-- A special unit does not stay in the text. -/
theorem not_mem_escapeSpecial (hforeign : Foreign special) {u : UInt16} (hu : special u = true)
    (s : Text) : u ∉ escapeSpecial special s := by
  intro hmem
  obtain ⟨v, -, hv⟩ := List.mem_flatMap.mp hmem
  split at hv
  · have hwriter := hforeign u (escapeUnit_subset v u hv)
    rw [hu] at hwriter
    exact absurd hwriter.symm Bool.false_ne_true
  · next hspecial =>
      obtain rfl := List.mem_singleton.mp hv
      exact hspecial hu

/-- What comes into a text that had it not is the writer's. -/
theorem not_mem_escapeSpecial_of_not_mem {u : UInt16} (hu : u ∉ writerUnits) {s : Text}
    (hs : u ∉ s) : u ∉ escapeSpecial special s := by
  intro hmem
  obtain ⟨v, hvs, hv⟩ := List.mem_flatMap.mp hmem
  split at hv
  · exact hu (escapeUnit_subset v u hv)
  · obtain rfl := List.mem_singleton.mp hv
    exact hs hvs

def escapedChar (special : UInt16 → Bool) (ch : Text) : Text := escapeSpecial special (quoteChar ch)

theorem escapeSpecial_writer (hforeign : Foreign special) {s : Text}
    (h : ∀ u ∈ s, u ∈ writerUnits) : escapeSpecial special s = s :=
  escapeSpecial_eq_self fun u hu => hforeign u (h u hu)

theorem readUnit_escapeSpecial_plain {u : UInt16} (h : shortEscape u = none) (hu : ¬ u < 0x20)
    (rest : Text) : readUnit (escapeSpecial special [u] ++ rest) = some (u, rest) := by
  rw [escapeSpecial, List.flatMap_singleton]
  split
  · exact readUnit_escapeUnit u rest
  · exact readUnit_plain h hu rest

theorem readUnit_escapedChar (hforeign : Foreign special) (u : UInt16) (rest : Text) :
    readUnit (escapedChar special [u] ++ rest) = some (u, rest) := by
  rw [escapedChar, quoteChar]
  split
  · next letter h =>
      rw [escapeSpecial_writer hforeign]
      · exact readUnit_shortEscape h rest
      · intro v hv
        simp only [List.mem_cons, List.not_mem_nil, or_false] at hv
        rcases hv with rfl | rfl
        · decide
        · exact shortEscape_mem_writerUnits h
  · next h =>
      split
      · rw [escapeSpecial_writer hforeign (escapeUnit_subset u)]
        exact readUnit_escapeUnit u rest
      · next hplain =>
          refine readUnit_escapeSpecial_plain h ?_ rest
          intro hlt
          exact hplain (by simp [hlt])

theorem length_le_escapeSpecial (s : Text) : s.length ≤ (escapeSpecial special s).length := by
  induction s with
  | nil => exact Nat.le_refl _
  | cons u s ih =>
      have hone : 1 ≤ (if special u then escapeUnit u else [u]).length := by
        split
        · exact Nat.le_of_ble_eq_true rfl
        · exact Nat.le_refl _
      rw [escapeSpecial_cons, List.length_append, List.length_cons]
      omega

theorem faithful_escapedChar (hforeign : Foreign special) : Faithful (escapedChar special) where
  reads ch hch n rest := by
    rcases hch with ⟨u, rfl⟩ | ⟨u, v, rfl, hu, hv⟩
    · rw [Nat.add_comm]
      exact readUnits_of_unit (readUnit_escapedChar hforeign u rest) n
    · obtain ⟨hushort, hulow⟩ := surrogate_plain (.inl hu)
      obtain ⟨hvshort, hvlow⟩ := surrogate_plain (.inr hv)
      have hlength : [u, v].length + n = n + 1 + 1 := Nat.add_comm 2 n
      have hpair : escapedChar special [u, v] ++ rest =
          escapeSpecial special [u] ++ (escapeSpecial special [v] ++ rest) := by
        rw [escapedChar, ← List.append_assoc, ← escapeSpecial_append]
        rfl
      rw [hlength, hpair,
        readUnits_of_unit (readUnit_escapeSpecial_plain hushort hulow _),
        readUnits_of_unit (readUnit_escapeSpecial_plain hvshort hvlow _), Option.map_map]
      rfl
  long ch hch := Nat.le_trans (faithful_quoteChar.long ch hch) (length_le_escapeSpecial _)

theorem escapeSpecial_flatMap (q : Text → Text) (chs : List Text) :
    escapeSpecial special (chs.flatMap q) = chs.flatMap fun ch => escapeSpecial special (q ch) := by
  induction chs with
  | nil => rfl
  | cons ch chs ih => rw [List.flatMap_cons, escapeSpecial_append, ih, List.flatMap_cons]

theorem escapeSpecial_quoteWith (hforeign : Foreign special) (q : Text → Text) (s : Text) :
    escapeSpecial special (quoteWith q s) =
      quoteWith (fun ch => escapeSpecial special (q ch)) s := by
  have hquotes : special quotes = false := hforeign quotes (by decide)
  have hlast : escapeSpecial special [quotes] = [quotes] :=
    escapeSpecial_eq_self (by simpa using hquotes)
  rw [quoteWith, escapeSpecial_cons, hquotes, escapeSpecial_append, escapeSpecial_flatMap, hlast]
  rfl

theorem escapeSpecial_writer_cons (hforeign : Foreign special) {u : UInt16}
    (hu : u ∈ writerUnits) (s : Text) :
    escapeSpecial special (u :: s) = u :: escapeSpecial special s := by
  rw [escapeSpecial_cons, hforeign u hu]
  rfl

mutual

theorem escapeSpecial_compactWith (hforeign : Foreign special) (q : Text → Text) :
    ∀ value : Value, value.numberless = true → escapeSpecial special (compactWith q value) =
      compactWith (fun ch => escapeSpecial special (q ch)) value
  | .null, _ => by
      rw [compactWith, compactWith]
      exact escapeSpecial_writer hforeign (subset_writerUnits (by decide))
  | .bool true, _ => by
      rw [compactWith, compactWith]
      exact escapeSpecial_writer hforeign (subset_writerUnits (by decide))
  | .bool false, _ => by
      rw [compactWith, compactWith]
      exact escapeSpecial_writer hforeign (subset_writerUnits (by decide))
  | .number _, h => by cases h
  | .string s, _ => by
      rw [compactWith, compactWith]
      exact escapeSpecial_quoteWith hforeign q s
  | .array [], _ => by
      rw [compactWith, compactWith]
      exact escapeSpecial_writer hforeign (subset_writerUnits (by decide))
  | .array (item :: items), h => by
      rw [Value.numberless, numberlessItems, Bool.and_eq_true] at h
      rw [compactWith, compactWith, escapeSpecial_writer_cons hforeign (by decide),
        escapeSpecial_append, escapeSpecial_compactWith hforeign q item h.1,
        escapeSpecial_compactItems hforeign q items h.2]
  | .object [], _ => by
      rw [compactWith, compactWith]
      exact escapeSpecial_writer hforeign (subset_writerUnits (by decide))
  | .object ((key, value) :: fields), h => by
      rw [Value.numberless, numberlessFields, Bool.and_eq_true] at h
      rw [compactWith, compactWith, escapeSpecial_writer_cons hforeign (by decide),
        escapeSpecial_append, escapeSpecial_quoteWith hforeign,
        escapeSpecial_writer_cons hforeign (by decide), escapeSpecial_append,
        escapeSpecial_compactWith hforeign q value h.1,
        escapeSpecial_compactFields hforeign q fields h.2]

theorem escapeSpecial_compactItems (hforeign : Foreign special) (q : Text → Text) :
    ∀ items : List Value, numberlessItems items = true →
      escapeSpecial special (compactItems q items) =
        compactItems (fun ch => escapeSpecial special (q ch)) items
  | [], _ => by
      rw [compactItems, compactItems]
      exact escapeSpecial_writer hforeign (subset_writerUnits (by decide))
  | item :: items, h => by
      rw [numberlessItems, Bool.and_eq_true] at h
      rw [compactItems, compactItems, escapeSpecial_writer_cons hforeign (by decide),
        escapeSpecial_append, escapeSpecial_compactWith hforeign q item h.1,
        escapeSpecial_compactItems hforeign q items h.2]

theorem escapeSpecial_compactFields (hforeign : Foreign special) (q : Text → Text) :
    ∀ fields : List (Text × Value), numberlessFields fields = true →
      escapeSpecial special (compactFields q fields) =
        compactFields (fun ch => escapeSpecial special (q ch)) fields
  | [], _ => by
      rw [compactFields, compactFields]
      exact escapeSpecial_writer hforeign (subset_writerUnits (by decide))
  | (key, value) :: fields, h => by
      rw [numberlessFields, Bool.and_eq_true] at h
      rw [compactFields, compactFields, escapeSpecial_writer_cons hforeign (by decide),
        escapeSpecial_append, escapeSpecial_quoteWith hforeign,
        escapeSpecial_writer_cons hforeign (by decide), escapeSpecial_append,
        escapeSpecial_compactWith hforeign q value h.1,
        escapeSpecial_compactFields hforeign q fields h.2]

end

/-- The text with the special units escaped is still one of the value. -/
theorem parse_escapeSpecial_compact (hforeign : Foreign special) {value : Value}
    (h : value.numberless = true) : parse (escapeSpecial special (compact value)) = some value := by
  rw [compact, escapeSpecial_compactWith hforeign quoteChar value h]
  exact (faithful_escapedChar hforeign).parse_compactWith h

end Special

/-! ## Lines -/

mutual

theorem lineFeed_not_mem_compact : ∀ value : Value, lineFeed ∉ compactWith quoteChar value
  | .null => by rw [compactWith]; decide
  | .bool true => by rw [compactWith]; decide
  | .bool false => by rw [compactWith]; decide
  | .number n => by rw [compactWith]; exact n.oneLine
  | .string s => by rw [compactWith]; exact lineFeed_not_mem_quote s
  | .array [] => by rw [compactWith]; decide
  | .array (item :: items) => by
      rw [compactWith, List.mem_cons, List.mem_append, not_or, not_or]
      exact ⟨by decide, lineFeed_not_mem_compact item, lineFeed_not_mem_compactItems items⟩
  | .object [] => by rw [compactWith]; decide
  | .object ((key, value) :: fields) => by
      simp only [compactWith, List.mem_cons, List.mem_append, not_or]
      exact ⟨by decide, lineFeed_not_mem_quote key, by decide, lineFeed_not_mem_compact value,
        lineFeed_not_mem_compactFields fields⟩

theorem lineFeed_not_mem_compactItems :
    ∀ items : List Value, lineFeed ∉ compactItems quoteChar items
  | [] => by rw [compactItems]; decide
  | item :: items => by
      rw [compactItems, List.mem_cons, List.mem_append, not_or, not_or]
      exact ⟨by decide, lineFeed_not_mem_compact item, lineFeed_not_mem_compactItems items⟩

theorem lineFeed_not_mem_compactFields :
    ∀ fields : List (Text × Value), lineFeed ∉ compactFields quoteChar fields
  | [] => by rw [compactFields]; decide
  | (key, value) :: fields => by
      simp only [compactFields, List.mem_cons, List.mem_append, not_or]
      exact ⟨by decide, lineFeed_not_mem_quote key, by decide, lineFeed_not_mem_compact value,
        lineFeed_not_mem_compactFields fields⟩

end

end VicoopBridge.Library.JsonText
