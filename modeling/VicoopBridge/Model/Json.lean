import Mathlib.Data.Rat.Defs

/-! # JSON values

Parts and metadata cross the bridge as JSON objects of arbitrary shape. An object is
kept as its fields in order. A number is the rational a finite double denotes. -/

namespace VicoopBridge

inductive Json where
  | null
  | bool (b : Bool)
  | num (n : ℚ)
  | str (s : String)
  | arr (items : List Json)
  | obj (fields : List (String × Json))

abbrev JsonObject := List (String × Json)

namespace Json

mutual

protected def decEq : (a b : Json) → Decidable (a = b)
  | .null, .null => isTrue rfl
  | .bool a, .bool b => decidable_of_iff (a = b) (by simp)
  | .num a, .num b => decidable_of_iff (a = b) (by simp)
  | .str a, .str b => decidable_of_iff (a = b) (by simp)
  | .arr as, .arr bs =>
      match Json.decEqItems as bs with
      | isTrue h => isTrue (by rw [h])
      | isFalse h => isFalse (by simpa using h)
  | .obj as, .obj bs =>
      match Json.decEqFields as bs with
      | isTrue h => isTrue (by rw [h])
      | isFalse h => isFalse (by simpa using h)
  | .null, .bool _ | .null, .num _ | .null, .str _ | .null, .arr _ | .null, .obj _
  | .bool _, .null | .bool _, .num _ | .bool _, .str _ | .bool _, .arr _ | .bool _, .obj _
  | .num _, .null | .num _, .bool _ | .num _, .str _ | .num _, .arr _ | .num _, .obj _
  | .str _, .null | .str _, .bool _ | .str _, .num _ | .str _, .arr _ | .str _, .obj _
  | .arr _, .null | .arr _, .bool _ | .arr _, .num _ | .arr _, .str _ | .arr _, .obj _
  | .obj _, .null | .obj _, .bool _ | .obj _, .num _ | .obj _, .str _ | .obj _, .arr _ =>
      isFalse (by simp)

protected def decEqItems : (as bs : List Json) → Decidable (as = bs)
  | [], [] => isTrue rfl
  | [], _ :: _ | _ :: _, [] => isFalse (by simp)
  | a :: as, b :: bs =>
      match Json.decEq a b, Json.decEqItems as bs with
      | isTrue h, isTrue hs => isTrue (by rw [h, hs])
      | isFalse h, _ => isFalse (by simp [h])
      | _, isFalse hs => isFalse (by simp [hs])

protected def decEqFields : (as bs : List (String × Json)) → Decidable (as = bs)
  | [], [] => isTrue rfl
  | [], _ :: _ | _ :: _, [] => isFalse (by simp)
  | (k, a) :: as, (l, b) :: bs =>
      match decEq k l, Json.decEq a b, Json.decEqFields as bs with
      | isTrue hk, isTrue h, isTrue hs => isTrue (by rw [hk, h, hs])
      | isFalse hk, _, _ => isFalse (by simp [hk])
      | _, isFalse h, _ => isFalse (by simp [h])
      | _, _, isFalse hs => isFalse (by simp [hs])

end

instance : DecidableEq Json := Json.decEq

end Json

/-- Property access on an object: `none` is an absent key. -/
def JsonObject.field (o : JsonObject) (key : String) : Option Json := List.lookup key o

/-- The field, when it holds a string. -/
def JsonObject.string? (o : JsonObject) (key : String) : Option String :=
  match o.field key with
  | some (.str s) => some s
  | _ => none

def JsonObject.has (o : JsonObject) (key : String) : Bool := (o.field key).isSome

/-- The rest of a destructuring that takes the given keys out. -/
def JsonObject.without (o : JsonObject) (keys : List String) : JsonObject :=
  o.filter fun f => f.1 ∉ keys

/-- Assign a property: in place when the key is present, else as the last one. -/
def JsonObject.set (o : JsonObject) (key : String) (value : Json) : JsonObject :=
  if o.has key then o.map fun f => if f.1 = key then (key, value) else f else o ++ [(key, value)]

/-- An object without keys counts as absent. -/
def JsonObject.nonEmpty (o : JsonObject) : Option JsonObject := if o = [] then none else some o

namespace JsonObject

variable (o : JsonObject) (keys : List String) (key : String)

@[simp] theorem field_nil : field [] key = none := rfl

theorem field_cons (f : String × Json) : field (f :: o) key =
    if key = f.1 then some f.2 else field o key := by
  obtain ⟨k, value⟩ := f
  simp only [field, List.lookup_cons]
  split <;> simp_all

theorem field_append (o' : JsonObject) : field (o ++ o') key = (field o key).or (field o' key) := by
  simp only [field, List.lookup_append]

theorem field_without : field (without o keys) key = if key ∈ keys then none else field o key := by
  induction o with
  | nil => simp [without]
  | cons f rest ih =>
      have hcons : without (f :: rest) keys =
          if f.1 ∉ keys then f :: without rest keys else without rest keys := by
        simp [without, List.filter_cons]
      rw [hcons]
      by_cases hf : f.1 ∈ keys
      · rw [if_neg (not_not.mpr hf), ih, field_cons]
        by_cases hkey : key = f.1 <;> simp [hkey, hf]
      · rw [if_pos hf, field_cons, field_cons, ih]
        by_cases hkey : key = f.1
        · simp [hkey, hf]
        · simp [hkey]

private theorem field_assign_of_ne {key' : String} (value : Json) (h : key' ≠ key) :
    field (o.map fun f => if f.1 = key then (key, value) else f) key' = field o key' := by
  induction o with
  | nil => rfl
  | cons f rest ih =>
      rw [List.map_cons, field_cons, field_cons, ih]
      by_cases hf : f.1 = key
      · simp [hf, h]
      · simp [hf]

theorem field_set_of_ne {key' : String} (value : Json) (h : key' ≠ key) :
    field (set o key value) key' = field o key' := by
  unfold set
  split
  · exact field_assign_of_ne o key value h
  · rw [field_append, field_cons]
    simp [h]

/-- Absent and empty read the same. -/
theorem bind_nonEmpty_field : (nonEmpty o).bind (field · key) = field o key := by
  unfold nonEmpty
  split
  · rename_i hnil
    simp [hnil]
  · rfl

theorem has_without : has (without o keys) key = (decide (key ∉ keys) && has o key) := by
  simp only [has, field_without]
  by_cases h : key ∈ keys <;> simp [h]

theorem has_set_of_ne {key' : String} (value : Json) (h : key' ≠ key) :
    has (set o key value) key' = has o key' := by
  simp only [has, field_set_of_ne o key value h]

theorem without_eq_self (h : ∀ k ∈ keys, has o k = false) : without o keys = o := by
  simp only [without, List.filter_eq_self, decide_eq_true_eq]
  intro f hf hmem
  have hsome : (field o f.1).isSome := by
    rw [field, List.lookup_isSome_iff]
    exact ⟨f, hf, by simp⟩
  have hnone : (field o f.1).isSome = false := h f.1 hmem
  exact absurd hsome (by simp [hnone])

end JsonObject

namespace Json

mutual

/-- No string can be made of it: `toString` has been overridden by a value. -/
def unprintable : Json → Bool
  | .arr items => unprintableItems items
  | .obj fields => JsonObject.has fields "toString"
  | _ => false

def unprintableItems : List Json → Bool
  | [] => false
  | item :: items => unprintable item || unprintableItems items

end

def truthy : Json → Bool
  | .null => false
  | .bool b => b
  | .num n => n ≠ 0
  | .str s => s ≠ ""
  | .arr _ | .obj _ => true

/-- Property access on any value but `null`. Only objects have the properties that are asked for. -/
def property (value : Json) (key : String) : Option Json :=
  match value with
  | .obj fields => JsonObject.field fields key
  | _ => none

/-- A value, or none where it is `null`. -/
def nonNull : Json → Option Json
  | .null => none
  | value => some value

end Json

end VicoopBridge
