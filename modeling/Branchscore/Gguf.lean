import Branchscore.Exception

/-!
# GGUF files

Metadata values are kept with their stored type, since the readers check it.
`float32` values are kept as their 32-bit patterns.
-/

namespace Branchscore

open Foundation
set_option autoImplicit false

abbrev Float32Bits := BitVec 32

/-- `value == 0.0F`, true of both signed zeros. -/
def Float32Bits.isZero (value : Float32Bits) : Bool := value &&& 0x7fffffff#32 = 0

inductive GgufArray where
  | uint8 (values : List Nat)
  | int8 (values : List Int)
  | uint32 (values : List Nat)
  | int32 (values : List Int)
  | uint64 (values : List Nat)
  | int64 (values : List Int)
  | float32 (values : List Float32Bits)
  | bool (values : List Nat)
  | string (values : List Bytes)
  | other (count : Nat)
  deriving Repr, DecidableEq

inductive GgufValue where
  | uint32 (value : Nat)
  | int32 (value : Int)
  | uint64 (value : Nat)
  | int64 (value : Int)
  | float32 (value : Float32Bits)
  | string (value : Bytes)
  | array (values : GgufArray)
  | other
  deriving Repr, DecidableEq

inductive GgmlType where
  | f32
  | f16
  | other
  deriving Repr, DecidableEq

/-- A tensor as far as the program reads it on the host: `value` is its first element. -/
structure GgufTensor where
  name : Bytes
  type : GgmlType
  elementCount : Nat
  value : Float32Bits
  deriving Repr, DecidableEq

structure Gguf where
  entries : List (Bytes × GgufValue)
  tensors : List GgufTensor
  deriving Repr, DecidableEq

def Gguf.findKey (context : Gguf) (key : Bytes) : Option GgufValue := context.entries.lookup key

def GgufArray.count : GgufArray → Nat
  | .uint8 values => values.length
  | .int8 values => values.length
  | .uint32 values => values.length
  | .int32 values => values.length
  | .uint64 values => values.length
  | .int64 values => values.length
  | .float32 values => values.length
  | .bool values => values.length
  | .string values => values.length
  | .other count => count

end Branchscore
