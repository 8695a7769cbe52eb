import FormRespondentRole.Foundations.Binary64

/-!
# JSON values

`Value` follows `serde_json::Value` without its optional features: a number is an unsigned 64-bit
integer, a negative 64-bit integer or a finite binary64, and an object is a map with its keys in
increasing order, here the list of its entries.  The accessors are total, as in the library: an
accessor at a value of another shape answers `none`.
-/

namespace Foundations

inductive Number
  | posInt (n : Nat) (h : n < 2 ^ 64)
  | negInt (n : Int) (h : -2 ^ 63 ≤ n ∧ n < 0)
  | float (x : F64) (h : x.isFinite = true)
deriving DecidableEq

inductive Value
  | null
  | bool (b : Bool)
  | number (n : Number)
  | string (s : Text)
  | array (xs : List Value)
  | object (fields : List (Text × Value))

namespace Number

def asF64 : Number → F64
  | posInt n _ => Float.Model.ofNat n
  | negInt n _ => Float.Model.ofInt n
  | float x _ => x

def asI64 : Number → Option Int
  | posInt n _ => if n < 2 ^ 63 then some n else none
  | negInt n _ => some n
  | float _ _ => none

/-- The decimal text of a number; `floatText` writes a finite binary64. -/
def text (floatText : F64 → Text) : Number → Text
  | posInt n _ => Text.ofNat n
  | negInt n _ => Text.ofInt n
  | float x _ => floatText x

end Number

namespace Value

/-- The number value of a 64-bit integer. -/
def ofI64 (n : Int) (h : -2 ^ 63 ≤ n ∧ n < 2 ^ 63) : Value :=
  if hn : 0 ≤ n then .number (.posInt n.toNat (by omega)) else .number (.negInt n ⟨h.1, by omega⟩)

theorem ofI64_asI64 (n : Int) (h : -2 ^ 63 ≤ n ∧ n < 2 ^ 63) :
    ∃ m, ofI64 n h = .number m ∧ m.asI64 = some n := by
  by_cases hn : 0 ≤ n
  · have hsmall : n.toNat < 2 ^ 63 := by omega
    refine ⟨_, dif_pos hn, ?_⟩
    rw [Number.asI64, if_pos hsmall, Int.toNat_of_nonneg hn]
  · exact ⟨_, dif_neg hn, rfl⟩

def str (s : String) : Value := .string s.toList

def get (key : Text) : Value → Option Value
  | .object fields => fields.lookup key
  | _ => none

def asStr : Value → Option Text
  | .string s => some s
  | _ => none

def asArray : Value → Option (List Value)
  | .array xs => some xs
  | _ => none

def asBool : Value → Option Bool
  | .bool b => some b
  | _ => none

def isNull : Value → Bool
  | .null => true
  | _ => false

end Value

theorem int32_bounds (n : Int32) : -2 ^ 63 ≤ n.toInt ∧ n.toInt < 2 ^ 63 := by
  have h₁ := n.le_toInt
  have h₂ := n.toInt_lt
  omega

end Foundations
