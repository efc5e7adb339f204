import Mathlib.Data.List.Basic
import Mathlib.Tactic.IntervalCases

/-! # The JSON text of strings

String literals and arrays of them as `JSON.stringify` writes them. Reading back one
character shows that no two of them have the same text, whatever follows. -/

namespace VicoopBridge.Library.JsonString

def quote : Char := Char.ofNat 34

def backslash : Char := Char.ofNat 92

def hexDigit (n : ℕ) : Char := Char.ofNat (if n < 10 then 48 + n else 87 + n)

/-- The letter after the backslash, for the characters that have a short escape. -/
def shortEscape : ℕ → Option Char
  | 8 => some 'b'
  | 9 => some 't'
  | 10 => some 'n'
  | 12 => some 'f'
  | 13 => some 'r'
  | 34 => some quote
  | 92 => some backslash
  | _ => none

def escapeChar (c : Char) : List Char :=
  match shortEscape c.toNat with
  | some letter => [backslash, letter]
  | none =>
      if c.toNat < 32 then
        [backslash, 'u', '0', '0', hexDigit (c.toNat / 16), hexDigit (c.toNat % 16)]
      else [c]

def literal (s : String) : List Char := quote :: (s.toList.flatMap escapeChar ++ [quote])

def arrayRest : List String → List Char
  | [] => [']']
  | s :: rest => ',' :: (literal s ++ arrayRest rest)

def array : List String → List Char
  | [] => ['[', ']']
  | s :: rest => '[' :: (literal s ++ arrayRest rest)

/-! ## Reading -/

def unhex (c : Char) : ℕ := if c.toNat < 58 then c.toNat - 48 else c.toNat - 87

def readEscape : List Char → Option (Char × List Char)
  | 'b' :: rest => some (Char.ofNat 8, rest)
  | 't' :: rest => some (Char.ofNat 9, rest)
  | 'n' :: rest => some (Char.ofNat 10, rest)
  | 'f' :: rest => some (Char.ofNat 12, rest)
  | 'r' :: rest => some (Char.ofNat 13, rest)
  | 'u' :: _ :: _ :: high :: low :: rest => some (Char.ofNat (16 * unhex high + unhex low), rest)
  | c :: rest => if c = quote ∨ c = backslash then some (c, rest) else none
  | [] => none

/-- The first character of the rest of a literal; `none` at its end. -/
def readChar : List Char → Option (Char × List Char)
  | [] => none
  | c :: rest =>
      if c = quote then none else if c = backslash then readEscape rest else some (c, rest)

theorem readChar_control {n : ℕ} (hn : n < 32) (rest : List Char) :
    readChar (backslash :: 'u' :: '0' :: '0' :: hexDigit (n / 16) :: hexDigit (n % 16) :: rest) =
      some (Char.ofNat n, rest) := by
  interval_cases n <;> rfl

theorem readChar_escapeChar (c : Char) (rest : List Char) :
    readChar (escapeChar c ++ rest) = some (c, rest) := by
  have hc : Char.ofNat c.toNat = c := Char.ofNat_toNat c
  unfold escapeChar
  cases hshort : shortEscape c.toNat with
  | some letter =>
      unfold shortEscape at hshort
      split at hshort
      all_goals first
        | (rename_i hn; rw [hn] at hc; cases hshort; subst hc; rfl)
        | cases hshort
  | none =>
      simp only
      split
      · rename_i hcontrol
        have hread := readChar_control hcontrol rest
        rwa [hc] at hread
      · rename_i hcontrol
        have hquote : c ≠ quote := by rintro rfl; cases hshort
        have hbackslash : c ≠ backslash := by rintro rfl; cases hshort
        simp [readChar, hquote, hbackslash]

theorem readChar_quote (rest : List Char) : readChar (quote :: rest) = none := rfl

/-- No text of a literal is the beginning of another's. -/
theorem flatMap_escapeChar_inj {s s' rest rest' : List Char}
    (h : s.flatMap escapeChar ++ quote :: rest = s'.flatMap escapeChar ++ quote :: rest') :
    s = s' ∧ rest = rest' := by
  induction s generalizing s' with
  | nil =>
      cases s' with
      | nil => simpa using h
      | cons c' s' =>
          have hread := congrArg readChar h
          simp [readChar_quote, List.append_assoc, readChar_escapeChar] at hread
  | cons c s ih =>
      cases s' with
      | nil =>
          have hread := congrArg readChar h
          simp [readChar_quote, List.append_assoc, readChar_escapeChar] at hread
      | cons c' s' =>
          have hread := congrArg readChar h
          simp only [List.flatMap_cons, List.append_assoc, readChar_escapeChar,
            Option.some.injEq, Prod.mk.injEq] at hread
          obtain ⟨rfl, hrest⟩ := hread
          obtain ⟨rfl, rfl⟩ := ih hrest
          exact ⟨rfl, rfl⟩

theorem literal_append_inj {s s' : String} {rest rest' : List Char}
    (h : literal s ++ rest = literal s' ++ rest') : s = s' ∧ rest = rest' := by
  simp only [literal, List.cons_append, List.append_assoc, List.nil_append, List.cons.injEq,
    true_and] at h
  obtain ⟨hs, hrest⟩ := flatMap_escapeChar_inj h
  exact ⟨String.toList_inj.mp hs, hrest⟩

theorem arrayRest_injective : Function.Injective arrayRest := by
  intro xs
  induction xs with
  | nil =>
      intro ys h
      cases ys with
      | nil => rfl
      | cons y ys => simp [arrayRest] at h
  | cons x xs ih =>
      intro ys h
      cases ys with
      | nil => simp [arrayRest] at h
      | cons y ys =>
          obtain ⟨rfl, hrest⟩ := literal_append_inj (List.cons.inj h).2
          rw [ih hrest]

/-- The text of an array of strings tells the strings. -/
theorem array_injective : Function.Injective array := by
  intro xs ys h
  cases xs with
  | nil =>
      cases ys with
      | nil => rfl
      | cons y ys => simp [array, literal, quote] at h
  | cons x xs =>
      cases ys with
      | nil => simp [array, literal, quote] at h
      | cons y ys =>
          obtain ⟨rfl, hrest⟩ := literal_append_inj (List.cons.inj h).2
          rw [arrayRest_injective hrest]

end VicoopBridge.Library.JsonString
