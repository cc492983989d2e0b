import Branchscore.Exception
import Branchscore.Foundation.SortedMap

/-!
# JSON values

The tree that the parser builds and the encoder prints, over an abstract type of
doubles. Objects are ordered maps, kept as their entries in key order.
-/

namespace Branchscore.Json

open Foundation
set_option autoImplicit false

inductive Value (D : Type) where
  | null
  | boolean (value : Bool)
  | number (value : D)
  | string (value : Bytes)
  | array (items : List (Value D))
  | object (members : List (Bytes × Value D))
  deriving Repr

namespace Value
variable {D : Type}

def asBoolean : Value D → Except Exception Bool
  | .boolean value => .ok value
  | _ => runtimeError "JSON value is not a boolean"

def asNumber : Value D → Except Exception D
  | .number value => .ok value
  | _ => runtimeError "JSON value is not a number"

def asString : Value D → Except Exception Bytes
  | .string value => .ok value
  | _ => runtimeError "JSON value is not a string"

def asArray : Value D → Except Exception (List (Value D))
  | .array items => .ok items
  | _ => runtimeError "JSON value is not an array"

def asObject : Value D → Except Exception (List (Bytes × Value D))
  | .object members => .ok members
  | _ => runtimeError "JSON value is not an object"

def find : Value D → Bytes → Option (Value D)
  | .object members, key => SortedMap.lookup key members
  | _, _ => none

def set (value : Value D) (key : Bytes) (item : Value D) : Except Exception (Value D) := do
  let members ← value.asObject
  return .object (SortedMap.assign key item members)

/-- Every object is a map and every number satisfies `finite`. -/
inductive Regular (finite : D → Prop) : Value D → Prop where
  | null : Regular finite .null
  | boolean (value : Bool) : Regular finite (.boolean value)
  | number {value : D} : finite value → Regular finite (.number value)
  | string (value : Bytes) : Regular finite (.string value)
  | array {items : List (Value D)} : (∀ item ∈ items, Regular finite item) →
      Regular finite (.array items)
  | object {members : List (Bytes × Value D)} : SortedMap.Sorted members →
      (∀ member ∈ members, Regular finite member.2) → Regular finite (.object members)

end Value

/-- What the parser and the encoder use of the C and C++ libraries for doubles.
`strtod` returns the value and the length it consumed. -/
structure NumberLibrary (D : Type) where
  isfinite : D → Bool
  strtod : Bytes → D × Nat
  print : D → Bytes

end Branchscore.Json
