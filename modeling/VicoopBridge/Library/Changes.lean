import Mathlib.Data.List.Basic

/-! # Values that are replaced or extended

A change replaces the value under its key or extends it. An accumulator keeps a copy for every
replacement and extends the first copy it finds; a reader takes the last. The two meet where no
replaced value is extended. -/

namespace VicoopBridge.Library

universe u v

/-- A change of one value: an extension, or a replacement. -/
structure Change (α : Type v) where
  extends? : Bool
  value : α

namespace Change

variable {κ : Type u} {α : Type v} (extend : α → α → α)

/-- What the value is after the change. -/
def next (current : Option α) (c : Change α) : Option α :=
  match c.extends?, current with
  | true, some a => some (extend a c.value)
  | _, _ => some c.value

def fold (changes : List (Change α)) : Option α := changes.foldl (next extend) none

/-- The last replacement, and what extends it. -/
def lastReplacement : List (Change α) → Option (α × List α)
  | [] => none
  | c :: changes =>
      match lastReplacement changes with
      | some r => some r
      | none => if c.extends? then none else some (c.value, changes.map (·.value))

/-- One change of a list of copies: the first of them is extended. -/
def addCopy (copies : List α) (c : Change α) : List α :=
  if c.extends? then
    match copies with
    | [] => [c.value]
    | a :: rest => extend a c.value :: rest
  else copies ++ [c.value]

variable {extend}

theorem next_of_extends {c : Change α} (h : c.extends? = true) (a : α) :
    next extend (some a) c = some (extend a c.value) := by
  unfold next
  rw [h]

theorem next_of_replaces {c : Change α} (h : c.extends? = false) (current : Option α) :
    next extend current c = some c.value := by
  unfold next
  rw [h]

theorem addCopy_of_extends {c : Change α} (h : c.extends? = true) (a : α) (copies : List α) :
    addCopy extend (a :: copies) c = extend a c.value :: copies := if_pos h

theorem addCopy_of_replaces {c : Change α} (h : c.extends? = false) (copies : List α) :
    addCopy extend copies c = copies ++ [c.value] := if_neg (by simp [h])

theorem addCopy_nil (c : Change α) : addCopy extend [] c = [c.value] := by
  unfold addCopy
  split <;> rfl

theorem extends_of_lastReplacement_eq_none {changes : List (Change α)}
    (h : lastReplacement changes = none) : ∀ c ∈ changes, c.extends? = true := by
  induction changes with
  | nil => exact nofun
  | cons c changes ih =>
      unfold lastReplacement at h
      split at h
      · cases h
      · rename_i hrest
        split at h
        · rename_i hextends
          intro c' hmem
          rcases List.mem_cons.mp hmem with rfl | hmem
          · exact hextends
          · exact ih hrest c' hmem
        · cases h

theorem lastReplacement_eq_none_iff {changes : List (Change α)} :
    lastReplacement changes = none ↔ ∀ c ∈ changes, c.extends? = true := by
  refine ⟨extends_of_lastReplacement_eq_none, fun h => ?_⟩
  induction changes with
  | nil => rfl
  | cons c changes ih =>
      unfold lastReplacement
      rw [ih fun c' hmem => h c' (List.mem_cons_of_mem _ hmem), if_pos (h c List.mem_cons_self)]

/-! ## The value -/

theorem foldl_next_of_extends {changes : List (Change α)} (h : ∀ c ∈ changes, c.extends? = true)
    (a : α) : changes.foldl (next extend) (some a) = some ((changes.map (·.value)).foldl extend a) := by
  induction changes generalizing a with
  | nil => rfl
  | cons c changes ih =>
      rw [List.foldl_cons, next_of_extends (h c List.mem_cons_self), ih fun c' hmem => h c' (List.mem_cons_of_mem _ hmem)]
      rfl

/-- The value is the last replacement with what extends it. -/
theorem foldl_next (changes : List (Change α)) (a : α) :
    changes.foldl (next extend) (some a) = match lastReplacement changes with
      | none => some ((changes.map (·.value)).foldl extend a)
      | some (b, extensions) => some (extensions.foldl extend b) := by
  induction changes generalizing a with
  | nil => rfl
  | cons c changes ih =>
      rw [List.foldl_cons]
      unfold lastReplacement
      cases hrest : lastReplacement changes with
      | some r =>
          obtain ⟨b, hb⟩ : ∃ b, next extend (some a) c = some b := by
            cases hextends : c.extends? with
            | true => exact ⟨_, next_of_extends hextends a⟩
            | false => exact ⟨_, next_of_replaces hextends _⟩
          rw [hb, ih b, hrest]
      | none =>
          have hall := extends_of_lastReplacement_eq_none hrest
          cases hextends : c.extends? with
          | true => simpa [next_of_extends hextends] using foldl_next_of_extends hall _
          | false => simpa [next_of_replaces hextends] using foldl_next_of_extends hall _

theorem fold_cons (c : Change α) (changes : List (Change α)) :
    fold extend (c :: changes) = match lastReplacement changes with
      | none => some ((changes.map (·.value)).foldl extend c.value)
      | some (b, extensions) => some (extensions.foldl extend b) := by
  unfold fold
  rw [List.foldl_cons, ← foldl_next changes c.value]
  unfold next
  split
  · rename_i hnone
    cases hnone
  · rfl

/-! ## The copies -/

/-- The first copy takes all extensions, and every later replacement is a copy of its own. -/
theorem foldl_addCopy (changes : List (Change α)) (a : α) (copies : List α) :
    changes.foldl (addCopy extend) (a :: copies) =
      ((changes.filter (·.extends?)).map (·.value)).foldl extend a ::
        (copies ++ (changes.filter fun c => !c.extends?).map (·.value)) := by
  induction changes generalizing a copies with
  | nil => simp
  | cons c changes ih =>
      rw [List.foldl_cons]
      cases hextends : c.extends? with
      | true => simp [addCopy_of_extends hextends, ih, hextends]
      | false => simp [addCopy_of_replaces hextends, ih, hextends]

theorem getLast?_replacements (changes : List (Change α)) :
    ((changes.filter fun c => !c.extends?).map (·.value)).getLast? =
      (lastReplacement changes).map Prod.fst := by
  induction changes with
  | nil => rfl
  | cons c changes ih =>
      unfold lastReplacement
      cases hrest : lastReplacement changes with
      | some r =>
          rw [hrest] at ih
          have hne : (changes.filter fun c => !c.extends?).map (·.value) ≠ [] := by
            intro hnil
            rw [hnil] at ih
            cases ih
          cases hextends : c.extends? with
          | true => simpa [hextends] using ih
          | false =>
              rw [List.filter_cons_of_pos (by simp [hextends]), List.map_cons,
                List.getLast?_cons_of_ne_nil hne, ih]
      | none =>
          have hnil : (changes.filter fun c => !c.extends?) = [] :=
            List.filter_eq_nil_iff.mpr fun c' hmem => by
              simp [extends_of_lastReplacement_eq_none hrest c' hmem]
          cases hextends : c.extends? <;> simp [hextends, hnil]

theorem filter_extends_of_eq_none {changes : List (Change α)} (h : lastReplacement changes = none) :
    changes.filter (·.extends?) = changes ∧ (changes.filter fun c => !c.extends?) = [] := by
  have hall := extends_of_lastReplacement_eq_none h
  exact ⟨List.filter_eq_self.mpr hall, List.filter_eq_nil_iff.mpr fun c hmem => by simp [hall c hmem]⟩

/-- The last copy is the value, exactly if what extends a value that replaced another leaves it as it
is. -/
theorem getLast?_copies (c : Change α) (changes : List (Change α)) {β : Type*} (f : α → β) :
    ((c :: changes).foldl (addCopy extend) []).getLast?.map f = (fold extend (c :: changes)).map f ↔
      ∀ r ∈ lastReplacement changes, f (r.2.foldl extend r.1) = f r.1 := by
  rw [List.foldl_cons, addCopy_nil, foldl_addCopy, fold_cons, List.nil_append]
  cases hlast : lastReplacement changes with
  | none =>
      obtain ⟨hall, hnil⟩ := filter_extends_of_eq_none hlast
      simp [hall, hnil]
  | some r =>
      have hcopies := getLast?_replacements changes
      rw [hlast] at hcopies
      have hne : (changes.filter fun c => !c.extends?).map (·.value) ≠ [] := by
        intro hnil
        rw [hnil] at hcopies
        cases hcopies
      rw [List.getLast?_cons_of_ne_nil hne, hcopies]
      simp [eq_comm]

/-- There is one copy, exactly if no value is replaced. -/
theorem copies_eq_singleton (c : Change α) (changes : List (Change α)) :
    (∃ a, (c :: changes).foldl (addCopy extend) [] = [a]) ↔ lastReplacement changes = none := by
  rw [List.foldl_cons, addCopy_nil, foldl_addCopy, List.nil_append]
  have hnone : lastReplacement changes = none ↔
      (changes.filter fun c => !c.extends?).map (·.value) = [] := by
    rw [lastReplacement_eq_none_iff, List.map_eq_nil_iff, List.filter_eq_nil_iff]
    simp
  rw [hnone]
  constructor
  · rintro ⟨a, heq⟩
    exact (List.cons.inj heq).2
  · exact fun hnil => ⟨_, by rw [hnil]⟩

/-! ## Copies under keys -/

variable [DecidableEq κ] (key : α → κ)

/-- Copies of all values. An extension goes to the first copy under its key. -/
def accumulate (extend : α → α → α) (copies : List α) (c : Change α) : List α :=
  if c.extends? then
    match copies.findIdx? (key · = key c.value) with
    | none => copies ++ [c.value]
    | some i => copies.modify i (extend · c.value)
  else copies ++ [c.value]

/-- The changes under one key. -/
def under (k : κ) (changes : List (Change α)) : List (Change α) :=
  changes.filter (key ·.value = k)

variable {key}

theorem filter_modify_of_ne (f : α → α) {p : α → Bool} {copies : List α} {i : ℕ}
    (h : ∀ a, copies[i]? = some a → p a = false ∧ p (f a) = false) :
    (copies.modify i f).filter p = copies.filter p := by
  induction copies generalizing i with
  | nil => simp
  | cons a copies ih =>
      cases i with
      | zero =>
          obtain ⟨hold, hnew⟩ := h a rfl
          simp [hold, hnew]
      | succ i =>
          rw [List.modify_succ_cons, List.filter_cons, List.filter_cons,
            ih fun a' ha' => h a' (by simpa using ha')]

theorem filter_modify_findIdx? (f : α → α) {p : α → Bool} (hf : ∀ a, p a = true → p (f a) = true)
    {copies : List α} {i : ℕ} (h : copies.findIdx? p = some i) :
    ∃ a rest, copies.filter p = a :: rest ∧ (copies.modify i f).filter p = f a :: rest := by
  induction copies generalizing i with
  | nil => cases h
  | cons a copies ih =>
      rw [List.findIdx?_cons] at h
      cases hp : p a with
      | true =>
          rw [hp] at h
          obtain rfl : 0 = i := Option.some.inj h
          exact ⟨a, copies.filter p, by simp [hp], by simp [hf a hp]⟩
      | false =>
          rw [hp] at h
          obtain ⟨j, hj, rfl⟩ := Option.map_eq_some_iff.mp h
          obtain ⟨b, rest, hold, hnew⟩ := ih hj
          exact ⟨b, rest, by simp [hp, hold], by simp [hp, hnew]⟩

/-- Under its key a change is one of the copies there, and under other keys it is none. -/
theorem filter_accumulate (hkey : ∀ a b, key (extend a b) = key a) (k : κ) (copies : List α)
    (c : Change α) :
    (accumulate key extend copies c).filter (key · = k) =
      if key c.value = k then addCopy extend (copies.filter (key · = k)) c
      else copies.filter (key · = k) := by
  unfold accumulate addCopy
  cases hextends : c.extends? with
  | false =>
      simp only [Bool.false_eq_true, if_false, List.filter_append]
      split <;> simp_all
  | true =>
      simp only [if_true]
      by_cases hk : key c.value = k
      · subst hk
        rw [if_pos rfl]
        cases hfind : copies.findIdx? (key · = key c.value) with
        | none =>
            have hnone : copies.filter (key · = key c.value) = [] := by
              rw [List.filter_eq_nil_iff]
              simpa using List.findIdx?_eq_none_iff.mp hfind
            simp [List.filter_append, hnone]
        | some i =>
            obtain ⟨a, rest, hold, hnew⟩ := filter_modify_findIdx? (extend · c.value)
              (fun a ha => by simpa [hkey] using ha) hfind
            dsimp only
            rw [hold, hnew]
      · rw [if_neg hk]
        cases hfind : copies.findIdx? (key · = key c.value) with
        | none => simp [List.filter_append, hk]
        | some i =>
            refine filter_modify_of_ne _ fun a ha => ?_
            obtain ⟨hlt, hmatch, -⟩ := List.findIdx?_eq_some_iff_getElem.mp hfind
            rw [List.getElem?_eq_getElem hlt] at ha
            obtain rfl := Option.some.inj ha
            have hown : key copies[i] = key c.value := of_decide_eq_true hmatch
            simp [hkey, hown, hk]

/-- The copies under a key are those of the changes under it. -/
theorem filter_foldl_accumulate (hkey : ∀ a b, key (extend a b) = key a) (k : κ)
    (changes : List (Change α)) (copies : List α) :
    (changes.foldl (accumulate key extend) copies).filter (key · = k) =
      (under key k changes).foldl (addCopy extend) (copies.filter (key · = k)) := by
  induction changes generalizing copies with
  | nil => rfl
  | cons c changes ih =>
      rw [List.foldl_cons, ih, filter_accumulate hkey]
      unfold under
      split
      · rename_i heq
        rw [List.filter_cons_of_pos (by simpa using heq), List.foldl_cons]
      · rename_i hne
        rw [List.filter_cons_of_neg (by simpa using hne)]

end Change

end VicoopBridge.Library
