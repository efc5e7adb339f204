import Mathlib.Algebra.GroupWithZero.Nat
import Mathlib.Data.List.Nodup
import Mathlib.Data.List.Basic

/-! # Maps that remember insertion order

The order is observable: a caller can walk the entries or drop the oldest one, and
overwriting the value of a present key keeps the position of that key. -/

namespace VicoopBridge.Library

universe u v

/-- A finite map as the list of its entries, oldest first, with pairwise distinct keys. -/
structure InsertionMap (κ : Type u) (ν : Type v) where
  entries : List (κ × ν)
  nodup : (entries.map Prod.fst).Nodup

namespace InsertionMap

/-! ## Entry lists -/

section Entries

variable {κ : Type u} {ν : Type v} [DecidableEq κ]

def lookup : List (κ × ν) → κ → Option ν
  | [], _ => none
  | (k', v) :: rest, k => if k' = k then some v else lookup rest k

def insertEntry (k : κ) (v : ν) : List (κ × ν) → List (κ × ν)
  | [] => [(k, v)]
  | (k', v') :: rest => if k' = k then (k, v) :: rest else (k', v') :: insertEntry k v rest

@[simp] theorem lookup_nil (k : κ) : lookup ([] : List (κ × ν)) k = none := rfl

theorem lookup_cons (k k' : κ) (v : ν) (es : List (κ × ν)) :
    lookup ((k', v) :: es) k = if k' = k then some v else lookup es k := rfl

@[simp] theorem insertEntry_nil (k : κ) (v : ν) : insertEntry k v [] = [(k, v)] := rfl

theorem insertEntry_cons (k k' : κ) (v v' : ν) (es : List (κ × ν)) :
    insertEntry k v ((k', v') :: es) =
      if k' = k then (k, v) :: es else (k', v') :: insertEntry k v es := rfl

theorem lookup_insertEntry (k k' : κ) (v : ν) (es : List (κ × ν)) :
    lookup (insertEntry k v es) k' = if k = k' then some v else lookup es k' := by
  induction es with
  | nil => rfl
  | cons e rest ih =>
      obtain ⟨k₀, v₀⟩ := e
      by_cases h : k₀ = k
      · subst h
        by_cases hk : k₀ = k' <;> simp [insertEntry_cons, lookup_cons, hk]
      · by_cases hk : k₀ = k'
        · subst hk
          simp [insertEntry_cons, lookup_cons, h, Ne.symm h]
        · simp [insertEntry_cons, lookup_cons, h, hk, ih]

theorem mem_keys_insertEntry (k k' : κ) (v : ν) (es : List (κ × ν)) :
    k' ∈ (insertEntry k v es).map Prod.fst ↔ k' = k ∨ k' ∈ es.map Prod.fst := by
  induction es with
  | nil => simp
  | cons e rest ih =>
      obtain ⟨k₀, v₀⟩ := e
      by_cases h : k₀ = k
      · subst h
        simp [insertEntry_cons]
      · simp only [insertEntry_cons, if_neg h, List.map_cons, List.mem_cons, ih]
        tauto

theorem nodup_insertEntry (k : κ) (v : ν) (es : List (κ × ν))
    (h : (es.map Prod.fst).Nodup) : ((insertEntry k v es).map Prod.fst).Nodup := by
  induction es with
  | nil => simp
  | cons e rest ih =>
      obtain ⟨k₀, v₀⟩ := e
      obtain ⟨hnot, hrest⟩ := List.nodup_cons.mp h
      by_cases hk : k₀ = k
      · subst hk
        simpa [insertEntry_cons] using h
      · simp only [insertEntry_cons, if_neg hk, List.map_cons, List.nodup_cons]
        refine ⟨?_, ih hrest⟩
        rw [mem_keys_insertEntry]
        exact fun hmem => hmem.elim hk hnot

theorem length_insertEntry (k : κ) (v : ν) (es : List (κ × ν)) :
    (insertEntry k v es).length = if lookup es k = none then es.length + 1 else es.length := by
  induction es with
  | nil => rfl
  | cons e rest ih =>
      obtain ⟨k₀, v₀⟩ := e
      by_cases h : k₀ = k
      · simp [insertEntry_cons, lookup_cons, h]
      · simp only [insertEntry_cons, lookup_cons, if_neg h, List.length_cons, ih]
        split <;> rfl

theorem insertEntry_of_not_mem {k : κ} (v : ν) {es : List (κ × ν)}
    (h : k ∉ es.map Prod.fst) : insertEntry k v es = es ++ [(k, v)] := by
  induction es with
  | nil => rfl
  | cons e rest ih =>
      obtain ⟨k₀, v₀⟩ := e
      simp only [List.map_cons, List.mem_cons, not_or] at h
      simp [insertEntry_cons, Ne.symm h.1, ih h.2]

theorem lookup_eq_none {k : κ} {es : List (κ × ν)} :
    lookup es k = none ↔ k ∉ es.map Prod.fst := by
  induction es with
  | nil => simp
  | cons e rest ih =>
      obtain ⟨k₀, v₀⟩ := e
      by_cases h : k₀ = k
      · subst h
        simp [lookup_cons]
      · simp only [lookup_cons, if_neg h, ih, List.map_cons, List.mem_cons, Ne.symm h, false_or]

theorem mem_of_lookup {k : κ} {v : ν} {es : List (κ × ν)} (h : lookup es k = some v) :
    (k, v) ∈ es := by
  induction es with
  | nil => simp at h
  | cons e rest ih =>
      obtain ⟨k₀, v₀⟩ := e
      by_cases hk : k₀ = k
      · subst hk
        simp only [lookup_cons, if_true, Option.some.injEq] at h
        simp [h]
      · simp only [lookup_cons, if_neg hk] at h
        exact List.mem_cons_of_mem _ (ih h)

theorem lookup_of_mem {k : κ} {v : ν} {es : List (κ × ν)} (hn : (es.map Prod.fst).Nodup)
    (h : (k, v) ∈ es) : lookup es k = some v := by
  induction es with
  | nil => simp at h
  | cons e rest ih =>
      obtain ⟨k₀, v₀⟩ := e
      obtain ⟨hnot, hrest⟩ := List.nodup_cons.mp hn
      rcases List.mem_cons.mp h with heq | hmem
      · obtain ⟨rfl, rfl⟩ := Prod.mk.inj heq
        simp [lookup_cons]
      · have hk : k₀ ≠ k := by
          rintro rfl
          exact hnot (List.mem_map.mpr ⟨_, hmem, rfl⟩)
        simpa [lookup_cons, hk] using ih hrest hmem

theorem lookup_map {μ : Type*} (f : ν → μ) (k : κ) (es : List (κ × ν)) :
    lookup (es.map fun e => (e.1, f e.2)) k = (lookup es k).map f := by
  induction es with
  | nil => rfl
  | cons e rest ih =>
      obtain ⟨k', v⟩ := e
      by_cases h : k' = k <;> simp [lookup_cons, h, ih]

theorem keys_insertEntry {k : κ} (v : ν) {es : List (κ × ν)} (h : k ∈ es.map Prod.fst) :
    (insertEntry k v es).map Prod.fst = es.map Prod.fst := by
  induction es with
  | nil => simp at h
  | cons e rest ih =>
      obtain ⟨k', v'⟩ := e
      by_cases hk : k' = k
      · simp [insertEntry_cons, hk]
      · have hrest : k ∈ rest.map Prod.fst := by simpa [Ne.symm hk] using h
        simp only [insertEntry_cons, if_neg hk, List.map_cons, ih hrest]

theorem sum_insertEntry (f : ν → ℕ) (k : κ) (v : ν) (es : List (κ × ν)) :
    (((insertEntry k v es).map Prod.snd).map f).sum + ((lookup es k).map f).getD 0 =
      ((es.map Prod.snd).map f).sum + f v := by
  induction es with
  | nil => simp
  | cons e rest ih =>
      obtain ⟨k', v'⟩ := e
      by_cases hk : k' = k
      · simp only [insertEntry_cons, if_pos hk, lookup_cons, List.map_cons, List.sum_cons,
          Option.map_some, Option.getD_some]
        omega
      · simp only [insertEntry_cons, if_neg hk, lookup_cons, List.map_cons, List.sum_cons]
        omega

theorem sum_filter_entries (f : ν → ℕ) {es : List (κ × ν)} (hn : (es.map Prod.fst).Nodup) (k : κ) :
    (((es.filter fun e => decide (e.1 ≠ k)).map Prod.snd).map f).sum +
      ((lookup es k).map f).getD 0 = ((es.map Prod.snd).map f).sum := by
  induction es with
  | nil => rfl
  | cons e rest ih =>
      obtain ⟨k', v'⟩ := e
      simp only [List.map_cons, List.nodup_cons] at hn
      have hrest := ih hn.2
      by_cases hk : k' = k
      · rw [hk] at hn
        rw [lookup_eq_none.mpr hn.1] at hrest
        simp only [lookup_cons, hk, if_true, List.map_cons, List.sum_cons, Option.map_some,
          Option.getD_some, ne_eq, not_true, decide_false, Bool.false_eq_true,
          not_false_eq_true, List.filter_cons_of_neg]
        simp only [Option.map_none, Option.getD_none, ne_eq] at hrest
        omega
      · simp only [lookup_cons, hk, if_false, List.map_cons, List.sum_cons, ne_eq,
          not_false_eq_true, decide_true, List.filter_cons_of_pos]
        simp only [ne_eq] at hrest
        omega

end Entries

/-! ## The map operations -/

variable {κ : Type u} {ν : Type v}

def empty : InsertionMap κ ν := ⟨[], List.nodup_nil⟩

def size (m : InsertionMap κ ν) : ℕ := m.entries.length

/-- The keys in insertion order. -/
def keys (m : InsertionMap κ ν) : List κ := m.entries.map Prod.fst

theorem nodup_keys (m : InsertionMap κ ν) : m.keys.Nodup := m.nodup

/-- The values in insertion order. -/
def values (m : InsertionMap κ ν) : List ν := m.entries.map Prod.snd

/-- Keep the entries that satisfy `p`, in their order. -/
def filter (p : κ → ν → Bool) (m : InsertionMap κ ν) : InsertionMap κ ν where
  entries := m.entries.filter (fun e => p e.1 e.2)
  nodup := m.nodup.sublist (List.filter_sublist.map Prod.fst)

/-- Change every value. -/
def map {μ : Type*} (f : ν → μ) (m : InsertionMap κ ν) : InsertionMap κ μ where
  entries := m.entries.map fun e => (e.1, f e.2)
  nodup := by simpa [List.map_map, Function.comp_def] using m.nodup

/-- Drop the oldest entries until at most `limit` are left. -/
def trimOldest (limit : ℕ) (m : InsertionMap κ ν) : InsertionMap κ ν where
  entries := m.entries.drop (m.entries.length - limit)
  nodup := m.nodup.sublist ((List.drop_sublist _ _).map Prod.fst)

@[simp] theorem values_empty : (empty : InsertionMap κ ν).values = [] := rfl

theorem trimOldest_of_size_le {limit : ℕ} {m : InsertionMap κ ν} (h : m.size ≤ limit) :
    m.trimOldest limit = m := by
  have hzero : m.entries.length - limit = 0 := Nat.sub_eq_zero_of_le h
  simp [trimOldest, hzero]

theorem size_trimOldest_le (limit : ℕ) (m : InsertionMap κ ν) :
    (m.trimOldest limit).size ≤ limit := by
  simp only [size, trimOldest, List.length_drop]
  omega

theorem size_filter_le (p : κ → ν → Bool) (m : InsertionMap κ ν) : (m.filter p).size ≤ m.size :=
  List.length_filter_le _ _

/-- The oldest keys, and those that stay. -/
theorem keys_eq_take_append (limit : ℕ) (m : InsertionMap κ ν) :
    m.keys.take (m.size - limit) ++ (m.trimOldest limit).keys = m.keys := by
  have hdrop : (m.trimOldest limit).keys = m.keys.drop (m.size - limit) := List.map_drop
  rw [hdrop, List.take_append_drop]

variable [DecidableEq κ]

def get? (m : InsertionMap κ ν) (k : κ) : Option ν := lookup m.entries k

/-- Overwrite in place, or append as the newest entry. -/
def set (m : InsertionMap κ ν) (k : κ) (v : ν) : InsertionMap κ ν :=
  ⟨insertEntry k v m.entries, nodup_insertEntry k v _ m.nodup⟩

def erase (m : InsertionMap κ ν) (k : κ) : InsertionMap κ ν :=
  m.filter (fun k' _ => k' ≠ k)

def has (m : InsertionMap κ ν) (k : κ) : Bool := (m.get? k).isSome

@[simp] theorem get?_empty (k : κ) : (empty : InsertionMap κ ν).get? k = none := rfl

theorem get?_set (m : InsertionMap κ ν) (k k' : κ) (v : ν) :
    (m.set k v).get? k' = if k = k' then some v else m.get? k' :=
  lookup_insertEntry k k' v m.entries

@[simp] theorem get?_set_self (m : InsertionMap κ ν) (k : κ) (v : ν) :
    (m.set k v).get? k = some v := by
  simp [get?_set]

theorem get?_set_of_ne (m : InsertionMap κ ν) {k k' : κ} (v : ν) (h : k ≠ k') :
    (m.set k v).get? k' = m.get? k' := by
  simp [get?_set, h]

/-- An entry is listed exactly when its key looks its value up. -/
theorem mem_entries_iff (m : InsertionMap κ ν) (k : κ) (v : ν) :
    (k, v) ∈ m.entries ↔ m.get? k = some v :=
  ⟨lookup_of_mem m.nodup, mem_of_lookup⟩

theorem get?_eq_none (m : InsertionMap κ ν) (k : κ) :
    m.get? k = none ↔ k ∉ m.entries.map Prod.fst :=
  lookup_eq_none

/-- A new key becomes the newest entry. -/
theorem entries_set_of_get?_eq_none (m : InsertionMap κ ν) {k : κ} (v : ν)
    (h : m.get? k = none) : (m.set k v).entries = m.entries ++ [(k, v)] :=
  insertEntry_of_not_mem v ((m.get?_eq_none k).mp h)

theorem mem_values_iff (m : InsertionMap κ ν) (v : ν) :
    v ∈ m.values ↔ ∃ k, m.get? k = some v := by
  simp only [values, List.mem_map, Prod.exists, exists_eq_right, mem_entries_iff]

theorem get?_filter (p : κ → ν → Bool) (m : InsertionMap κ ν) (k : κ) :
    (m.filter p).get? k = (m.get? k).filter (p k) := by
  apply Option.ext
  intro v
  rw [Option.filter_eq_some_iff, ← mem_entries_iff, ← mem_entries_iff]
  simp [filter]

theorem get?_erase (m : InsertionMap κ ν) (k k' : κ) :
    (m.erase k).get? k' = if k = k' then none else m.get? k' := by
  rw [erase, get?_filter]
  by_cases h : k = k'
  · subst h
    cases m.get? k <;> simp [Option.filter]
  · cases m.get? k' <;> simp [Option.filter, h, Ne.symm h]

@[simp] theorem get?_erase_self (m : InsertionMap κ ν) (k : κ) : (m.erase k).get? k = none := by
  simp [get?_erase]

theorem get?_erase_of_ne (m : InsertionMap κ ν) {k k' : κ} (h : k ≠ k') :
    (m.erase k).get? k' = m.get? k' := by
  simp [get?_erase, h]

theorem get?_map {μ : Type*} (f : ν → μ) (m : InsertionMap κ ν) (k : κ) :
    (m.map f).get? k = (m.get? k).map f :=
  lookup_map f k m.entries

theorem size_set (m : InsertionMap κ ν) (k : κ) (v : ν) :
    (m.set k v).size = if m.get? k = none then m.size + 1 else m.size :=
  length_insertEntry k v m.entries

/-! ## Keys and totals -/

theorem keys_set_of_isSome (m : InsertionMap κ ν) {k : κ} (v : ν) (h : (m.get? k).isSome) :
    (m.set k v).keys = m.keys :=
  keys_insertEntry v (not_not.mp (lookup_eq_none.not.mp (Option.isSome_iff_ne_none.mp h)))

theorem keys_set_of_none (m : InsertionMap κ ν) {k : κ} (v : ν) (h : m.get? k = none) :
    (m.set k v).keys = m.keys ++ [k] := by
  rw [keys, entries_set_of_get?_eq_none m v h, List.map_append]
  rfl

theorem keys_erase (m : InsertionMap κ ν) (k : κ) :
    (m.erase k).keys = m.keys.filter fun k' => k' ≠ k := by
  simp only [keys, erase, filter, List.filter_map]
  rfl

theorem mem_keys_iff (m : InsertionMap κ ν) (k : κ) : k ∈ m.keys ↔ (m.get? k).isSome := by
  rw [Option.isSome_iff_ne_none, Ne, get?_eq_none, not_not]
  rfl

theorem sum_values_erase (f : ν → ℕ) (m : InsertionMap κ ν) (k : κ) :
    ((m.erase k).values.map f).sum + ((m.get? k).map f).getD 0 = (m.values.map f).sum :=
  sum_filter_entries f m.nodup k

theorem sum_values_set (f : ν → ℕ) (m : InsertionMap κ ν) (k : κ) (v : ν) :
    ((m.set k v).values.map f).sum + ((m.get? k).map f).getD 0 = (m.values.map f).sum + f v :=
  sum_insertEntry f k v m.entries

/-- Moving an entry to the newest place keeps their number. -/
theorem size_erase_set_le {m : InsertionMap κ ν} {k : κ} {v : ν} (h : m.get? k = some v) :
    ((m.erase k).set k v).size ≤ m.size := by
  rw [size_set, if_pos (get?_erase_self m k)]
  refine List.length_filter_lt_length_iff_exists.mpr ⟨(k, v), (mem_entries_iff m k v).mpr h, ?_⟩
  simp

theorem get?_erase_set {m : InsertionMap κ ν} {k : κ} {v : ν} (h : m.get? k = some v) (k' : κ) :
    ((m.erase k).set k v).get? k' = m.get? k' := by
  by_cases hk : k = k'
  · subst hk
    rw [get?_set_self, h]
  · rw [get?_set_of_ne _ _ hk, get?_erase_of_ne _ hk]

/-- Dropping the oldest entries never changes the value of a key that survives. -/
theorem get?_of_get?_trimOldest {limit : ℕ} {m : InsertionMap κ ν} {k : κ} {v : ν}
    (h : (m.trimOldest limit).get? k = some v) : m.get? k = some v := by
  rw [← mem_entries_iff] at h ⊢
  exact List.mem_of_mem_drop h

end InsertionMap

end VicoopBridge.Library
