import VicoopBridge.Library.Utf16

/-! # The text of JSON values

What `JSON.stringify(value, null, 2)` writes, unit by unit. Line ends are written between the items
and nowhere else, so a value inside of another one has the same text with more spaces before its
lines. -/

namespace VicoopBridge.Library.JsonText

/-- A string, by its units. -/
abbrev Text := List UInt16

def ascii (s : String) : Text := s.toList.map fun c => UInt16.ofNat c.toNat

def lineFeed : UInt16 := 0xA

def space : UInt16 := 0x20

def quotes : UInt16 := 0x22

def backslash : UInt16 := 0x5C

/-- A number, as the language writes it. -/
structure NumberText where
  text : Text
  oneLine : lineFeed ∉ text

/-- A JSON value. An object has its fields in the order in which they are walked. -/
inductive Value where
  | null
  | bool (b : Bool)
  | number (n : NumberText)
  | string (s : Text)
  | array (items : List Value)
  | object (fields : List (Text × Value))

/-! ## Strings -/

def hexDigit (n : ℕ) : UInt16 := UInt16.ofNat (if n < 10 then 48 + n else 87 + n)

/-- A unit by its number. -/
def escapeUnit (u : UInt16) : Text :=
  [backslash, 0x75, hexDigit (u.toNat / 4096), hexDigit (u.toNat / 256 % 16),
    hexDigit (u.toNat / 16 % 16), hexDigit (u.toNat % 16)]

/-- The letter after the backslash, for the units that have a short escape. -/
def shortEscape (u : UInt16) : Option UInt16 :=
  if u = 0x8 then some 0x62
  else if u = 0x9 then some 0x74
  else if u = lineFeed then some 0x6E
  else if u = 0xC then some 0x66
  else if u = 0xD then some 0x72
  else if u = quotes ∨ u = backslash then some u
  else none

/-- One character: control characters and surrogates that stand alone are escaped. -/
def quoteChar : Text → Text
  | [u] =>
      match shortEscape u with
      | some letter => [backslash, letter]
      | none => if u < 0x20 || Utf16.isHigh u || Utf16.isLow u then escapeUnit u else [u]
  | pair => pair

def quote (s : Text) : Text := quotes :: ((Utf16.chars s).flatMap quoteChar ++ [quotes])

/-! ## Values -/

/-- The end of a line and the spaces before the next one. -/
def breakLine (indent : ℕ) : Text := lineFeed :: List.replicate indent space

/-- The parts between brackets, each on its own lines. -/
def enclose (first last : UInt16) (indent : ℕ) (parts : List Text) : Text :=
  if parts = [] then [first, last]
  else
    let separator := 0x2C :: breakLine (indent + 2)
    first :: (breakLine (indent + 2) ++
      (separator.intercalate parts ++ (breakLine indent ++ [last])))

mutual

def write (indent : ℕ) : Value → Text
  | .null => ascii "null"
  | .bool true => ascii "true"
  | .bool false => ascii "false"
  | .number n => n.text
  | .string s => quote s
  | .array items => enclose 0x5B 0x5D indent (writeItems (indent + 2) items)
  | .object fields => enclose 0x7B 0x7D indent (writeFields (indent + 2) fields)

def writeItems (indent : ℕ) : List Value → List Text
  | [] => []
  | item :: items => write indent item :: writeItems indent items

def writeFields (indent : ℕ) : List (Text × Value) → List Text
  | [] => []
  | (key, value) :: fields =>
      (quote key ++ (ascii ": " ++ write indent value)) :: writeFields indent fields

end

/-- `JSON.stringify(value, null, 2)` -/
def stringify (value : Value) : Text := write 0 value

theorem writeItems_eq_map (indent : ℕ) (items : List Value) :
    writeItems indent items = items.map (write indent) := by
  induction items with
  | nil => rfl
  | cons item items ih => rw [writeItems, ih, List.map_cons]

/-! ## More spaces before the lines -/

/-- `text.replace(/\n/g, '\n  ')` -/
def deepen (text : Text) : Text :=
  text.flatMap fun u => if u = lineFeed then [lineFeed, space, space] else [u]

theorem deepen_append (s t : Text) : deepen (s ++ t) = deepen s ++ deepen t := List.flatMap_append

theorem deepen_cons {u : UInt16} (h : u ≠ lineFeed) (s : Text) :
    deepen (u :: s) = u :: deepen s := by
  rw [deepen, List.flatMap_cons, if_neg h]
  rfl

theorem deepen_eq_self {s : Text} (h : lineFeed ∉ s) : deepen s = s := by
  induction s with
  | nil => rfl
  | cons u s ih =>
      rw [List.mem_cons, not_or] at h
      rw [deepen_cons (Ne.symm h.1), ih h.2]

theorem deepen_breakLine (indent : ℕ) : deepen (breakLine indent) = breakLine (indent + 2) := by
  have hspaces : lineFeed ∉ List.replicate indent space := by
    rw [List.mem_replicate]
    exact fun h => absurd h.2 (by decide)
  have hspread : deepen (breakLine indent) =
      [lineFeed, space, space] ++ deepen (List.replicate indent space) := rfl
  rw [hspread, deepen_eq_self hspaces]
  rfl

theorem deepen_intercalate (separator : Text) (parts : List Text) :
    deepen (separator.intercalate parts) = (deepen separator).intercalate (parts.map deepen) := by
  induction parts with
  | nil => rfl
  | cons part parts ih =>
      cases parts with
      | nil => simp
      | cons second parts =>
          rw [List.intercalate_cons_cons, deepen_append, deepen_append, ih]
          simp only [List.map_cons, List.intercalate_cons_cons]

theorem intercalate_append {s : Text} {xs ys : List Text} (hxs : xs ≠ []) (hys : ys ≠ []) :
    s.intercalate (xs ++ ys) = s.intercalate xs ++ (s ++ s.intercalate ys) := by
  induction xs with
  | nil => exact absurd rfl hxs
  | cons x xs ih =>
      cases xs with
      | nil =>
          obtain ⟨y, ys, rfl⟩ := List.exists_cons_of_ne_nil hys
          rw [List.singleton_append, List.intercalate_cons_cons, List.intercalate_singleton,
            List.append_assoc]
      | cons x' xs =>
          have htail := ih (List.cons_ne_nil x' xs)
          rw [List.cons_append] at htail
          rw [List.cons_append, List.cons_append, List.intercalate_cons_cons, htail,
            List.intercalate_cons_cons]
          simp only [List.append_assoc]

theorem deepen_enclose {first last : UInt16} (hfirst : first ≠ lineFeed) (hlast : last ≠ lineFeed)
    (indent : ℕ) (parts : List Text) :
    deepen (enclose first last indent parts) =
      enclose first last (indent + 2) (parts.map deepen) := by
  unfold enclose
  cases parts with
  | nil =>
      have hbrackets : lineFeed ∉ [first, last] := by simp [Ne.symm hfirst, Ne.symm hlast]
      exact deepen_eq_self hbrackets
  | cons part parts =>
      have hseparator : deepen (0x2C :: breakLine (indent + 2)) =
          0x2C :: breakLine (indent + 2 + 2) := by
        rw [deepen_cons (by decide), deepen_breakLine]
      have hclose : deepen [last] = [last] := deepen_eq_self (by simp [Ne.symm hlast])
      rw [if_neg (List.cons_ne_nil _ _), if_neg (by simp)]
      dsimp only
      rw [deepen_cons hfirst, deepen_append, deepen_append, deepen_append, deepen_intercalate,
        hseparator, deepen_breakLine, deepen_breakLine, hclose]

theorem hexDigit_ne_lineFeed : ∀ n < 16, hexDigit n ≠ lineFeed := by decide

theorem lineFeed_not_mem_escapeUnit (u : UInt16) : lineFeed ∉ escapeUnit u := by
  have hu : u.toNat < 65536 := u.toNat_lt
  have hdigit : ∀ {n : ℕ}, n < 16 → lineFeed ≠ hexDigit n := fun h =>
    Ne.symm (hexDigit_ne_lineFeed _ h)
  simp only [escapeUnit, List.mem_cons, List.not_mem_nil, or_false, not_or]
  exact ⟨by decide, by decide, hdigit (by omega), hdigit (by omega), hdigit (by omega),
    hdigit (by omega)⟩

theorem shortEscape_ne_lineFeed {u letter : UInt16} (h : shortEscape u = some letter) :
    letter ≠ lineFeed := by
  rintro rfl
  unfold shortEscape at h
  split_ifs at h with _ _ hfeed _ _ hself
  all_goals first
    | exact absurd h (by decide)
    | cases h
  rcases hself with heq | heq <;> exact absurd heq (by decide)

theorem lineFeed_not_mem_quoteChar {ch : Text} (h : Utf16.IsChar ch) :
    lineFeed ∉ quoteChar ch := by
  rcases h with ⟨u, rfl⟩ | ⟨u, v, rfl, hu, hv⟩
  · rw [quoteChar]
    split
    · next letter hshort =>
        have hletter := shortEscape_ne_lineFeed hshort
        simp only [List.mem_cons, List.not_mem_nil, or_false, not_or]
        exact ⟨by decide, Ne.symm hletter⟩
    · next hshort =>
        split
        · exact lineFeed_not_mem_escapeUnit u
        · rw [List.mem_singleton]
          rintro rfl
          cases hshort
  · have hpair : quoteChar [u, v] = [u, v] := rfl
    rw [hpair]
    simp only [List.mem_cons, List.not_mem_nil, or_false, not_or]
    refine ⟨?_, ?_⟩
    · rintro rfl
      cases hu
    · rintro rfl
      cases hv

theorem lineFeed_not_mem_quote (s : Text) : lineFeed ∉ quote s := by
  simp only [quote, List.mem_cons, List.mem_append, List.mem_flatMap, List.not_mem_nil, or_false,
    not_or, not_exists, not_and]
  refine ⟨by decide, ?_, by decide⟩
  intro ch hch
  exact lineFeed_not_mem_quoteChar (Utf16.isChar_of_mem_chars hch)

mutual

theorem deepen_write (indent : ℕ) : ∀ value, deepen (write indent value) = write (indent + 2) value
  | .null => by rw [write, write, deepen_eq_self (by decide)]
  | .bool true => by rw [write, write, deepen_eq_self (by decide)]
  | .bool false => by rw [write, write, deepen_eq_self (by decide)]
  | .number n => by rw [write, write, deepen_eq_self n.oneLine]
  | .string s => by rw [write, write, deepen_eq_self (lineFeed_not_mem_quote s)]
  | .array items => by
      rw [write, deepen_enclose (by decide) (by decide), deepen_writeItems, write]
  | .object fields => by
      rw [write, deepen_enclose (by decide) (by decide), deepen_writeFields, write]

theorem deepen_writeItems (indent : ℕ) :
    ∀ items, (writeItems indent items).map deepen = writeItems (indent + 2) items
  | [] => rfl
  | item :: items => by
      rw [writeItems, List.map_cons, deepen_write, deepen_writeItems, writeItems]

theorem deepen_writeFields (indent : ℕ) :
    ∀ fields, (writeFields indent fields).map deepen = writeFields (indent + 2) fields
  | [] => rfl
  | (key, value) :: fields => by
      have hcolon : deepen (ascii ": ") = ascii ": " := deepen_eq_self (by decide)
      rw [writeFields, List.map_cons, deepen_append, deepen_append, deepen_write,
        deepen_writeFields, hcolon, deepen_eq_self (lineFeed_not_mem_quote key), writeFields]

end

end VicoopBridge.Library.JsonText
