import Mathlib.Algebra.Order.Field.Rat
import Mathlib.Order.WithBot

/-! # What a JSON text is read as

A literal such as `1e999` is read as infinity, so a number is a rational or one of the two. Strings
are of any type, as their parts may or may not matter. -/

namespace VicoopBridge

inductive JsonNumber where
  | finite (q : ℚ)
  | infinite (negative : Bool)
  deriving DecidableEq

/-- The number, in the order of numbers. -/
def JsonNumber.value : JsonNumber → WithBot (WithTop ℚ)
  | .finite q => ((q : WithTop ℚ) : WithBot (WithTop ℚ))
  | .infinite true => ⊥
  | .infinite false => ((⊤ : WithTop ℚ) : WithBot (WithTop ℚ))

theorem JsonNumber.value_injective : Function.Injective JsonNumber.value := by
  intro a b h
  cases a with
  | finite q =>
      cases b with
      | finite q' => rw [WithTop.coe_injective (WithBot.coe_injective h)]
      | infinite negative => cases negative <;> cases h
  | infinite negative =>
      cases b with
      | finite q' => cases negative <;> cases h
      | infinite negative' =>
          cases negative <;> cases negative'
          · rfl
          · cases h
          · cases h
          · rfl

inductive JsonData (τ : Type) where
  | null
  | bool (b : Bool)
  | number (n : JsonNumber)
  | string (s : τ)
  | array (items : List (JsonData τ))
  | object (fields : List (τ × JsonData τ))

namespace JsonData

variable {τ : Type} [DecidableEq τ]

/-- An own property of an object. The properties read by name are those of no array or string. -/
def get? : JsonData τ → τ → Option (JsonData τ)
  | .object fields, key => List.lookup key fields
  | _, _ => none

omit [DecidableEq τ] in
/-- The number, if it is one. -/
def number? : JsonData τ → Option JsonNumber
  | .number n => some n
  | _ => none

omit [DecidableEq τ] in
/-- The string, if it is one. -/
def string? : JsonData τ → Option τ
  | .string s => some s
  | _ => none

/-- `Boolean(value)`, with the empty string at hand. -/
def truthy (empty : τ) : JsonData τ → Bool
  | .null => false
  | .bool b => b
  | .number (.finite q) => q ≠ 0
  | .number (.infinite _) => true
  | .string s => s ≠ empty
  | .array _ => true
  | .object _ => true

end JsonData

end VicoopBridge
