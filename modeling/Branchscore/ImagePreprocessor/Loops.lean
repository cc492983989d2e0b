import Branchscore.Foundation.Cells
import Branchscore.ImagePreprocessor.Constant

/-!
# The loops of the resampler

The loops of `bicubic_axis` and `resize_bicubic` over flat arrays, with every conversion to
`int`, every subscript and every write checked: a weight slot carries the output index that
wrote it, and an output cell is assigned at most once. Where the axes fit in `int`, no check
fails, and the loops compute `resizeBicubic`.
-/

namespace Branchscore.ImagePreprocessor

open Foundation Outcome
set_option autoImplicit false

inductive Fault where
  | conversion
  | subscript
  | stale
  | rewritten
  | unassigned
  deriving DecidableEq, Repr

/-- A value that must be representable as `int`. -/
def int32 (value : Int) : Except Fault Int :=
  if -2 ^ 31 ≤ value ∧ value < 2 ^ 31 then .ok value else .error .conversion

/-- The vectors of a `ResampleAxis`, each weight with the output index that wrote it. -/
structure AxisMemory where
  kernelSize : Int
  bounds : List Int
  weights : List (Option Nat × Int)
  deriving DecidableEq, Repr

section Loops
variable {D : Type} (arith : DoubleArithmetic D)

/-- `raw[out * kernel_size + index] = weight; sum += weight;` -/
def rawLoop (kernelSize first : Int) (center filterScale : D) (out count : Nat)
    (raw : List (Option Nat × D)) : Except Fault (List (Option Nat × D) × D) :=
  (List.range count).foldlM (fun (state : List (Option Nat × D) × D) (index : Nat) => do
    let source ← int32 (index + first)
    let weight := filter arith (arith.div (arith.add (arith.sub (arith.ofInt source) center)
      arith.half) filterScale)
    let raw ← storeCell .subscript state.1 (out * kernelSize + index) (some out, weight)
    return (raw, arith.add state.2 weight)) (raw, arith.ofInt 0)

/-- `raw[out * kernel_size + index] /= sum;` -/
def divideLoop (kernelSize : Int) (sum : D) (out count : Nat) (raw : List (Option Nat × D)) :
    Except Fault (List (Option Nat × D)) :=
  (List.range count).foldlM (fun (raw : List (Option Nat × D)) (index : Nat) => do
    let slot ← loadCell .subscript raw (out * kernelSize + index)
    storeCell .subscript raw (out * kernelSize + index) (some out, arith.div slot.2 sum)) raw

/-- The body of the loop over the output indices. -/
def windowLoop (inputSize kernelSize : Int) (scale filterScale support : D)
    (memory : List Int × List (Option Nat × D)) (out : Nat) :
    Except Fault (List Int × List (Option Nat × D)) := do
  let center := arith.mul (arith.add (arith.ofInt out) arith.half) scale
  let first := max 0 (← int32 (arith.toInt (arith.add (arith.sub center support) arith.half)))
  let stop := min inputSize
    (← int32 (arith.toInt (arith.add (arith.add center support) arith.half)))
  let count ← int32 (stop - first)
  let bounds ← storeCell .subscript memory.1 (← int32 (2 * out)) first
  let bounds ← storeCell .subscript bounds (← int32 (2 * out + 1)) count
  let (raw, sum) ← rawLoop arith kernelSize first center filterScale out count.toNat memory.2
  let zero := arith.ofInt 0
  if arith.lt sum zero || arith.lt zero sum then
    return (bounds, ← divideLoop arith kernelSize sum out count.toNat raw)
  else return (bounds, raw)

def bicubicAxisLoops (inputSize outputSize : Int) : Except Fault AxisMemory := do
  let scale := arith.div (arith.ofInt inputSize) (arith.ofInt outputSize)
  let one := arith.ofInt 1
  let filterScale := if arith.lt one scale then scale else one
  let support := arith.mul (arith.ofInt 2) filterScale
  let kernelSize ← int32 ((← int32 ((← int32 (arith.ceil support)) * 2)) + 1)
  let (bounds, raw) ← (List.range outputSize.toNat).foldlM
    (windowLoop arith inputSize kernelSize scale filterScale support)
    (List.replicate (outputSize * 2).toNat 0,
      List.replicate (outputSize * kernelSize).toNat (none, arith.ofInt 0))
  let weights ← raw.mapM fun slot => do return (slot.1, ← int32 (fixedPoint arith slot.2))
  return { kernelSize, bounds, weights }

/-- The weight in a slot, which the loop over `out` must have written. -/
def loadWeight (axis : AxisMemory) (out index : Nat) : Except Fault Int := do
  let slot ← loadCell .subscript axis.weights (out * axis.kernelSize + index)
  if slot.1 = some out then return slot.2 else .error .stale

/-- The sum over a window, rounded back from fixed point. -/
def resampleLoop (image : Bytes) (source : Nat → Int) (axis : AxisMemory) (out : Nat)
    (count : Int) : Except Fault Byte := do
  let sum ← (List.range count.toNat).foldlM (fun (sum : Int) (index : Nat) => do
    let sample ← loadCell .subscript image (source index)
    return sum + sample.val * (← loadWeight axis out index)) (2 ^ 21)
  return clampU8 (sum / 2 ^ 22)

def horizontalLoops (input : Bytes) (axis : AxisMemory)
    (inputWidth inputHeight outputWidth : Int) : Except Fault Bytes := do
  let cells ← (List.range inputHeight.toNat).foldlM (fun cells (y : Nat) =>
    (List.range outputWidth.toNat).foldlM (fun cells (x : Nat) => do
      let first ← loadCell .subscript axis.bounds (← int32 (2 * x))
      let count ← loadCell .subscript axis.bounds (← int32 (2 * x + 1))
      (List.range 3).foldlM (fun cells (channel : Nat) => do
        let value ← resampleLoop input
          (fun index => (y * inputWidth + first + index) * 3 + channel) axis x count
        assignCell .subscript .rewritten cells ((y * outputWidth + x) * 3 + channel) value)
        cells) cells)
    (List.replicate (outputWidth * inputHeight * 3).toNat none)
  freeze .unassigned cells

def verticalLoops (intermediate : Bytes) (axis : AxisMemory) (outputWidth outputHeight : Int) :
    Except Fault Bytes := do
  let cells ← (List.range outputHeight.toNat).foldlM (fun cells (y : Nat) => do
    let first ← loadCell .subscript axis.bounds (← int32 (2 * y))
    let count ← loadCell .subscript axis.bounds (← int32 (2 * y + 1))
    (List.range outputWidth.toNat).foldlM (fun cells (x : Nat) =>
      (List.range 3).foldlM (fun cells (channel : Nat) => do
        let value ← resampleLoop intermediate
          (fun index => ((first + index) * outputWidth + x) * 3 + channel) axis y count
        assignCell .subscript .rewritten cells ((y * outputWidth + x) * 3 + channel) value)
        cells) cells)
    (List.replicate (outputWidth * outputHeight * 3).toNat none)
  freeze .unassigned cells

def resizeBicubicLoops (input : Bytes) (inputWidth inputHeight outputWidth outputHeight : Int) :
    Except Fault Bytes := do
  if inputWidth = outputWidth ∧ inputHeight = outputHeight then
    (List.range (inputWidth.toNat * inputHeight.toNat * 3)).mapM fun (index : Nat) =>
      loadCell .subscript input index
  else
    let horizontal ← bicubicAxisLoops arith inputWidth outputWidth
    let vertical ← bicubicAxisLoops arith inputHeight outputHeight
    let intermediate ← horizontalLoops input horizontal inputWidth inputHeight outputWidth
    verticalLoops intermediate vertical outputWidth outputHeight

end Loops

end Branchscore.ImagePreprocessor
