import Mathlib.Data.List.Basic
import Mathlib.Data.List.Infix

/-! # Taking words out of a text

Of some words no two occurrences overlap, in any text. Such words can be taken out one after the
other, and what is left is the text without any of them, as long as the pieces do not join to a
word. -/

namespace VicoopBridge.Library.Words

universe u

variable {α : Type u}

/-! ## Words that do not overlap -/

/-- Occurrences of the words are apart, or the same. -/
structure NonOverlapping (K : List α → Prop) : Prop where
  nonempty : ∀ k, K k → k ≠ []
  apart : ∀ {k k' before before' after after' : List α}, K k → K k' →
    before ++ (k ++ after) = before' ++ (k' ++ after') → before.length ≤ before'.length →
      before = before' ∧ k = k' ∨ ∃ between, before' = before ++ (k ++ between)

theorem exists_between {s t before before' : List α} (h : before ++ s = before' ++ t)
    (hle : before.length ≤ before'.length) :
    ∃ between, before' = before ++ between ∧ s = between ++ t := by
  rcases List.append_eq_append_iff.mp h with ⟨between, rfl, hs⟩ | ⟨between, rfl, ht⟩
  · exact ⟨between, rfl, hs⟩
  · have hnil : between = [] := by
      rw [List.length_append] at hle
      exact List.eq_nil_of_length_eq_zero (by omega)
    subst hnil
    exact ⟨[], by simp, by simpa using ht.symm⟩

theorem append_mark_inj {s t after after' : List α} {mark : α} (hs : mark ∉ s) (ht : mark ∉ t)
    (h : s ++ mark :: after = t ++ mark :: after') : s = t := by
  induction s generalizing t with
  | nil =>
      cases t with
      | nil => rfl
      | cons b t =>
          obtain ⟨rfl, -⟩ := List.cons_eq_cons.mp h
          exact absurd List.mem_cons_self ht
  | cons a s ih =>
      cases t with
      | nil =>
          obtain ⟨rfl, -⟩ := List.cons_eq_cons.mp h
          exact absurd List.mem_cons_self hs
      | cons b t =>
          obtain ⟨rfl, htail⟩ := List.cons_eq_cons.mp h
          rw [ih (fun hmem => hs (List.mem_cons_of_mem a hmem))
            (fun hmem => ht (List.mem_cons_of_mem a hmem)) htail]

/-- It is enough that a word ends at its only end mark, and is the suffix of no other word. -/
theorem NonOverlapping.of_endMark {K : List α → Prop} (mark : α)
    (hmark : ∀ k, K k → ∃ body, k = body ++ [mark] ∧ mark ∉ body)
    (hsuffix : ∀ k k', K k → K k' → k' <:+ k → k' = k) : NonOverlapping K where
  nonempty k hk := by
    obtain ⟨body, rfl, -⟩ := hmark k hk
    simp
  apart {k k' before before' after after'} hk hk' heq hle := by
    obtain ⟨between, rfl, hrest⟩ := exists_between heq hle
    by_cases hfar : k.length ≤ between.length
    · obtain ⟨rest, rfl, -⟩ := exists_between hrest hfar
      exact .inr ⟨rest, rfl⟩
    · obtain ⟨body, rfl, hbody⟩ := hmark k hk
      obtain ⟨body', rfl, hbody'⟩ := hmark k' hk'
      have hnear : between.length ≤ body.length := by
        simp only [List.length_append, List.length_singleton] at hfar
        omega
      rw [List.append_assoc] at hrest
      obtain ⟨rest, rfl, hmarks⟩ := exists_between hrest.symm hnear
      have hnot : mark ∉ rest := fun hmem => hbody (List.mem_append_right _ hmem)
      rw [List.append_assoc] at hmarks
      obtain rfl := append_mark_inj hbody' hnot hmarks
      have hsame := hsuffix _ _ hk hk' ⟨between, by rw [List.append_assoc]⟩
      obtain rfl : between = [] := by simpa using hsame
      exact .inl ⟨(List.append_nil before).symm, rfl⟩

/-! ## Taking out one word -/

section Removal

variable [DecidableEq α]

/-- `split(m).join('')`, with so many symbols left to skip. -/
def removeFrom (m : List α) : ℕ → List α → List α
  | _, [] => []
  | skip + 1, _ :: rest => removeFrom m skip rest
  | 0, a :: rest =>
      if m <+: a :: rest then removeFrom m (m.length - 1) rest else a :: removeFrom m 0 rest

def removeAll (m text : List α) : List α := removeFrom m 0 text

theorem removeFrom_skip (m s t : List α) : removeFrom m s.length (s ++ t) = removeFrom m 0 t := by
  induction s with
  | nil => rfl
  | cons a s ih => exact ih

theorem removeAll_cons_of_not_start {m : List α} {a : α} {rest : List α}
    (h : ¬ m <+: a :: rest) : removeAll m (a :: rest) = a :: removeAll m rest := if_neg h

theorem removeAll_append {m : List α} (hm : m ≠ []) (rest : List α) :
    removeAll m (m ++ rest) = removeAll m rest := by
  cases m with
  | nil => exact absurd rfl hm
  | cons a m =>
      have hstart : a :: m <+: a :: (m ++ rest) := List.prefix_append (a :: m) rest
      rw [removeAll, List.cons_append, removeFrom, if_pos hstart]
      exact removeFrom_skip (a :: m) m rest

theorem removeAll_append_of_forall {m s rest : List α}
    (h : ∀ before after, before ++ after = s → after ≠ [] → ¬ m <+: after ++ rest) :
    removeAll m (s ++ rest) = s ++ removeAll m rest := by
  induction s with
  | nil => rfl
  | cons a s ih =>
      have hfirst : ¬ m <+: a :: (s ++ rest) := h [] (a :: s) rfl (List.cons_ne_nil a s)
      rw [List.cons_append, removeAll_cons_of_not_start hfirst, ih]
      · rfl
      · intro before after hsplit
        exact h (a :: before) after (by rw [← hsplit]; rfl)

theorem removeAll_eq_self {m text : List α} (h : ¬ m <:+: text) : removeAll m text = text := by
  have hnone : ∀ before after, before ++ after = text → after ≠ [] → ¬ m <+: after ++ [] := by
    rintro before after rfl - hstart
    rw [List.append_nil] at hstart
    exact h (hstart.isInfix.trans (List.suffix_append before after).isInfix)
  have hall := removeAll_append_of_forall hnone
  rwa [List.append_nil, show removeAll m [] = [] from rfl, List.append_nil] at hall

end Removal

/-! ## The text as words and other symbols -/

inductive Token (α : Type u) where
  | plain (a : α)
  | word (k : List α)

namespace Token

def text : Token α → List α
  | plain a => [a]
  | word k => k

def isPlain : Token α → Bool
  | plain _ => true
  | word _ => false

end Token

def flatten (tokens : List (Token α)) : List α := tokens.flatMap Token.text

/-- What stands outside of the words. -/
def plains (tokens : List (Token α)) : List α := (tokens.filter Token.isPlain).flatMap Token.text

variable {K : List α → Prop}

/-- The words of the text, and no word begins outside of them. -/
def Proper (K : List α → Prop) : List (Token α) → Prop
  | [] => True
  | .plain a :: tokens => (∀ k, K k → ¬ k <+: a :: flatten tokens) ∧ Proper K tokens
  | .word k :: tokens => K k ∧ Proper K tokens

theorem exists_proper (hK : NonOverlapping K) (text : List α) :
    ∃ tokens, Proper K tokens ∧ flatten tokens = text := by
  induction hlength : text.length using Nat.strong_induction_on generalizing text with
  | _ n ih =>
      cases text with
      | nil => exact ⟨[], trivial, rfl⟩
      | cons a rest =>
          by_cases hword : ∃ k, K k ∧ k <+: a :: rest
          · obtain ⟨k, hk, after, hafter⟩ := hword
            have hpos := List.length_pos_of_ne_nil (hK.nonempty k hk)
            have hlt : after.length < n := by
              rw [← hlength, ← hafter, List.length_append]
              omega
            obtain ⟨tokens, hproper, htext⟩ := ih _ hlt after rfl
            exact ⟨.word k :: tokens, ⟨hk, hproper⟩, by rw [← hafter, ← htext]; rfl⟩
          · push Not at hword
            have hlt : rest.length < n := by
              rw [← hlength]
              exact Nat.lt_succ_self _
            obtain ⟨tokens, hproper, htext⟩ := ih _ hlt rest rfl
            exact ⟨.plain a :: tokens, ⟨by rwa [htext], hproper⟩, by rw [← htext]; rfl⟩

/-- Every occurrence of a word is one of the tokens. -/
theorem mem_of_factor (hK : NonOverlapping K) {tokens : List (Token α)} (hproper : Proper K tokens)
    {k : List α} (hk : K k) (hfound : k <:+: flatten tokens) : .word k ∈ tokens := by
  induction tokens with
  | nil =>
      obtain ⟨before, after, heq⟩ := hfound
      have hnil : k = [] := by simp_all [flatten]
      exact absurd hnil (hK.nonempty k hk)
  | cons token tokens ih =>
      obtain ⟨before, after, heq⟩ := hfound
      rw [List.append_assoc] at heq
      cases token with
      | plain a =>
          cases before with
          | nil => exact absurd ⟨after, heq⟩ (hproper.1 k hk)
          | cons b before =>
              obtain ⟨-, heq⟩ := List.cons_eq_cons.mp heq
              exact List.mem_cons_of_mem _
                (ih hproper.2 ⟨before, after, by rw [List.append_assoc]; exact heq⟩)
      | word w =>
          have hsplit : [] ++ (w ++ flatten tokens) = before ++ (k ++ after) := heq.symm
          rcases hK.apart hproper.1 hk hsplit (Nat.zero_le _) with ⟨-, rfl⟩ | ⟨between, rfl⟩
          · exact List.mem_cons_self
          · have htail : flatten tokens = between ++ (k ++ after) := by
              simpa [List.append_assoc] using hsplit
            exact List.mem_cons_of_mem _
              (ih hproper.2 ⟨between, after, by rw [htail, List.append_assoc]⟩)

theorem factor_of_mem {tokens : List (Token α)} {k : List α} (hmem : .word k ∈ tokens) :
    k <:+: flatten tokens := by
  obtain ⟨before, after, rfl⟩ := List.append_of_mem hmem
  exact ⟨flatten before, flatten after, by simp [flatten, Token.text]⟩

/-- A word that begins outside of the words stays outside of them. -/
theorem start_plains (hK : NonOverlapping K) {tokens : List (Token α)}
    (hwords : ∀ w, .word w ∈ tokens → K w) {k before : List α} (hk : K k) (hne : before ≠ [])
    (hstart : k <+: before ++ flatten tokens) : k <+: before ++ plains tokens := by
  induction tokens generalizing before with
  | nil => exact hstart
  | cons token tokens ih =>
      have hrest : ∀ w, .word w ∈ tokens → K w := fun w hmem =>
        hwords w (List.mem_cons_of_mem _ hmem)
      cases token with
      | plain a =>
          have hflatten : before ++ flatten (.plain a :: tokens) =
              (before ++ [a]) ++ flatten tokens :=
            List.append_cons before a (flatten tokens)
          have hplains : before ++ plains (.plain a :: tokens) = (before ++ [a]) ++ plains tokens :=
            List.append_cons before a (plains tokens)
          rw [hflatten] at hstart
          rw [hplains]
          exact ih hrest (by simp) hstart
      | word w =>
          obtain ⟨after, hafter⟩ := hstart
          have hw := hwords w List.mem_cons_self
          have hsplit : [] ++ (k ++ after) = before ++ (w ++ flatten tokens) := hafter
          rcases hK.apart hk hw hsplit (Nat.zero_le _) with ⟨rfl, -⟩ | ⟨between, rfl⟩
          · exact absurd rfl hne
          · rw [List.nil_append, List.append_assoc]
            exact List.prefix_append k _

theorem Proper.words {tokens : List (Token α)} (h : Proper K tokens) {w : List α}
    (hmem : .word w ∈ tokens) : K w := by
  induction tokens with
  | nil => cases hmem
  | cons token tokens ih =>
      cases token with
      | plain a =>
          rcases List.mem_cons.mp hmem with heq | hmem
          · cases heq
          · exact ih h.2 hmem
      | word k =>
          rcases List.mem_cons.mp hmem with heq | hmem
          · cases heq
            exact h.1
          · exact ih h.2 hmem

/-! ## Taking out all words -/

section Cut

variable [DecidablePred K]

/-- The word that begins here. -/
def wordAt (K : List α → Prop) [DecidablePred K] (text : List α) : Option (List α) :=
  text.inits.find? fun k => K k

/-- The text without its words, with so many symbols left to skip. -/
def cutFrom (K : List α → Prop) [DecidablePred K] : ℕ → List α → List α
  | _, [] => []
  | skip + 1, _ :: rest => cutFrom K skip rest
  | 0, a :: rest =>
      match wordAt K (a :: rest) with
      | some k => cutFrom K (k.length - 1) rest
      | none => a :: cutFrom K 0 rest

def cut (K : List α → Prop) [DecidablePred K] (text : List α) : List α := cutFrom K 0 text

theorem cutFrom_skip (s t : List α) : cutFrom K s.length (s ++ t) = cutFrom K 0 t := by
  induction s with
  | nil => rfl
  | cons a s ih => exact ih

theorem wordAt_word (hK : NonOverlapping K) {k : List α} (hk : K k) (rest : List α) :
    wordAt K (k ++ rest) = some k := by
  cases hword : wordAt K (k ++ rest) with
  | none =>
      have hnone := List.find?_eq_none.mp hword k
        ((List.mem_inits k _).mpr (List.prefix_append k rest))
      exact absurd (decide_eq_true hk) hnone
  | some k' =>
      have hk' : K k' := by simpa using List.find?_some hword
      obtain ⟨after, hafter⟩ := (List.mem_inits k' _).mp (List.mem_of_find?_eq_some hword)
      have hsplit : [] ++ (k ++ rest) = [] ++ (k' ++ after) := hafter.symm
      rcases hK.apart hk hk' hsplit le_rfl with ⟨-, rfl⟩ | ⟨between, hbetween⟩
      · rfl
      · have hnil := List.append_eq_nil_iff.mp hbetween.symm
        exact absurd (List.append_eq_nil_iff.mp hnil.2).1 (hK.nonempty k hk)

theorem wordAt_eq_none {text : List α} (h : ∀ k, K k → ¬ k <+: text) : wordAt K text = none := by
  refine List.find?_eq_none.mpr fun k hmem => ?_
  have hstart := (List.mem_inits k text).mp hmem
  exact fun hk => h k (of_decide_eq_true hk) hstart

theorem cut_flatten (hK : NonOverlapping K) {tokens : List (Token α)} (hproper : Proper K tokens) :
    cut K (flatten tokens) = plains tokens := by
  induction tokens with
  | nil => rfl
  | cons token tokens ih =>
      cases token with
      | plain a =>
          have hnone := wordAt_eq_none hproper.1
          have hflatten : flatten (.plain a :: tokens) = a :: flatten tokens := rfl
          rw [hflatten, cut, cutFrom, hnone]
          exact congrArg (a :: ·) (ih hproper.2)
      | word k =>
          have hword := wordAt_word hK hproper.1 (flatten tokens)
          have hflatten : flatten (.word k :: tokens) = k ++ flatten tokens := rfl
          cases k with
          | nil => exact absurd rfl (hK.nonempty [] hproper.1)
          | cons a k =>
              rw [List.cons_append] at hword
              rw [hflatten, cut, List.cons_append, cutFrom, hword]
              exact (cutFrom_skip k (flatten tokens)).trans (ih hproper.2)

end Cut

section Tokens

variable [DecidableEq α]

/-- What stays when a word is taken out. -/
def Token.differs (m : List α) : Token α → Bool
  | .plain _ => true
  | .word k => k ≠ m

theorem removeAll_flatten (hK : NonOverlapping K) {m : List α} (hm : K m)
    {tokens : List (Token α)} (hproper : Proper K tokens) :
    removeAll m (flatten tokens) = flatten (tokens.filter (Token.differs m)) := by
  induction tokens with
  | nil => rfl
  | cons token tokens ih =>
      cases token with
      | plain a =>
          have hflatten : flatten (.plain a :: tokens) = a :: flatten tokens := rfl
          rw [hflatten, removeAll_cons_of_not_start (hproper.1 m hm), ih hproper.2]
          rfl
      | word k =>
          have hflatten : flatten (.word k :: tokens) = k ++ flatten tokens := rfl
          by_cases hkm : k = m
          · subst hkm
            have hdrop : (Token.word k :: tokens).filter (Token.differs k) =
                tokens.filter (Token.differs k) := by
              simp [Token.differs]
            rw [hflatten, removeAll_append (hK.nonempty k hm), ih hproper.2, hdrop]
          · have hkeep : (Token.word k :: tokens).filter (Token.differs m) =
                .word k :: tokens.filter (Token.differs m) := by
              simp [Token.differs, hkm]
            have hinside : ∀ before after, before ++ after = k → after ≠ [] →
                ¬ m <+: after ++ flatten tokens := by
              rintro before after rfl hne ⟨rest, hrest⟩
              have hsplit : [] ++ ((before ++ after) ++ flatten tokens) =
                  before ++ (m ++ rest) := by
                rw [hrest, List.nil_append, List.append_assoc]
              rcases hK.apart hproper.1 hm hsplit (Nat.zero_le _) with ⟨-, heq⟩ | ⟨between, heq⟩
              · exact hkm heq
              · have hlength := congrArg List.length heq
                simp only [List.nil_append, List.length_append] at hlength
                exact hne (List.eq_nil_of_length_eq_zero (by omega))
            rw [hflatten, removeAll_append_of_forall hinside, ih hproper.2, hkeep]
            rfl

theorem plains_filter_differs (m : List α) (tokens : List (Token α)) :
    plains (tokens.filter (Token.differs m)) = plains tokens := by
  rw [plains, List.filter_filter]
  refine congrArg (List.flatMap Token.text) (List.filter_congr fun token _ => ?_)
  cases token <;> simp [Token.isPlain, Token.differs]

/-- Without one of the words the others are still all, unless the pieces join to a word. -/
theorem Proper.filter (hK : NonOverlapping K) {tokens : List (Token α)} (h : Proper K tokens)
    (hplains : ∀ k, K k → ¬ k <:+: plains tokens) (m : List α) :
    Proper K (tokens.filter (Token.differs m)) := by
  induction tokens with
  | nil => trivial
  | cons token tokens ih =>
      cases token with
      | plain a =>
          have hcons : plains (.plain a :: tokens) = a :: plains tokens := rfl
          rw [hcons] at hplains
          have hrest := ih h.2 fun k hk hfound => hplains k hk (List.infix_cons hfound)
          refine ⟨fun k hk hstart => ?_, hrest⟩
          have hjoined := start_plains hK (fun w hmem => hrest.words hmem) hk
            (List.cons_ne_nil a []) hstart
          rw [plains_filter_differs] at hjoined
          exact hplains k hk hjoined.isInfix
      | word k =>
          have hrest := ih h.2 hplains
          rw [List.filter_cons]
          split
          · exact ⟨h.1, hrest⟩
          · exact hrest

end Tokens

/-! ## One word after the other -/

section Fold

variable [DecidableEq α]

def removeEach (ms : List (List α)) (text : List α) : List α :=
  ms.foldl (fun text m => removeAll m text) text

/-- A word that is not taken out stays. -/
theorem factor_removeEach (hK : NonOverlapping K) {ms : List (List α)} (hms : ∀ m ∈ ms, K m)
    {k text : List α} (hk : K k) (hother : k ∉ ms) (hfound : k <:+: text) :
    k <:+: removeEach ms text := by
  induction ms generalizing text with
  | nil => exact hfound
  | cons m ms ih =>
      rw [List.mem_cons, not_or] at hother
      obtain ⟨hkm, hother⟩ := hother
      refine ih (fun m' hmem => hms m' (List.mem_cons_of_mem m hmem)) hother ?_
      obtain ⟨tokens, hproper, rfl⟩ := exists_proper hK text
      have hmem := mem_of_factor hK hproper hk hfound
      change k <:+: removeAll m (flatten tokens)
      rw [removeAll_flatten hK (hms m List.mem_cons_self) hproper]
      exact factor_of_mem (List.mem_filter.mpr ⟨hmem, decide_eq_true hkm⟩)

theorem removeEach_eq_self {ms : List (List α)} {text : List α}
    (h : ∀ m ∈ ms, ¬ m <:+: text) : removeEach ms text = text := by
  induction ms with
  | nil => rfl
  | cons m ms ih =>
      rw [removeEach, List.foldl_cons, removeAll_eq_self (h m List.mem_cons_self)]
      exact ih fun m' hmem => h m' (List.mem_cons_of_mem m hmem)

/-- When the words of the text are taken out one after the other, all words have been taken out,
unless the pieces join to a word. -/
theorem removeEach_eq_cut [DecidablePred K] (hK : NonOverlapping K) {ms : List (List α)}
    (hms : ∀ m ∈ ms, K m) {text : List α} (hall : ∀ k, K k → k <:+: text → k ∈ ms)
    (hcut : ∀ k, K k → ¬ k <:+: cut K text) : removeEach ms text = cut K text := by
  obtain ⟨tokens, hproper, rfl⟩ := exists_proper hK text
  rw [cut_flatten hK hproper] at hcut ⊢
  have hwords : ∀ w, .word w ∈ tokens → w ∈ ms := fun w hmem =>
    hall w (hproper.words hmem) (factor_of_mem hmem)
  clear hall
  induction ms generalizing tokens with
  | nil =>
      have hplain : tokens.filter Token.isPlain = tokens := by
        refine List.filter_eq_self.mpr fun token hmem => ?_
        cases token with
        | plain a => rfl
        | word w => cases hwords w hmem
      rw [plains, hplain]
      rfl
  | cons m ms ih =>
      have hm := hms m List.mem_cons_self
      have hstep := ih (fun m' hmem => hms m' (List.mem_cons_of_mem m hmem))
        (tokens.filter (Token.differs m)) (hproper.filter hK hcut m)
        (by rwa [plains_filter_differs]) ?_
      · rw [removeEach, List.foldl_cons, removeAll_flatten hK hm hproper, ← plains_filter_differs m]
        exact hstep
      · intro w hmem
        obtain ⟨hmem, hdiffers⟩ := List.mem_filter.mp hmem
        exact (List.mem_cons.mp (hwords w hmem)).resolve_left (of_decide_eq_true hdiffers)

end Fold

end VicoopBridge.Library.Words
