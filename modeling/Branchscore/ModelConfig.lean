import Branchscore.Gguf

/-! The configurations read from the model files. -/

namespace Branchscore

open Foundation
set_option autoImplicit false

/-- The range of `std::uint32_t`, with wrapping arithmetic. -/
def uint32 (n : Nat) : Nat := n % 2 ^ 32

/-- `a - b` on `std::uint32_t`. -/
def uint32Sub (a b : Nat) : Nat := (a + 2 ^ 32 - b) % 2 ^ 32

structure TextModelConfig where
  architecture : Bytes
  name : Bytes
  contextLength : Nat
  embeddingLength : Nat
  blockCount : Nat
  headCount : Nat
  headCountKv : Nat
  keyLength : Nat
  valueLength : Nat
  keyLengthSwa : Nat
  valueLengthSwa : Nat
  slidingWindow : Nat
  sharedKvLayers : Nat
  perLayerEmbeddingLength : Nat
  vocabularySize : Nat
  finalLogitSoftcap : Float32Bits
  layerNormEpsilon : Float32Bits
  ropeFreqBase : Float32Bits
  ropeFreqBaseSwa : Float32Bits
  ropeDimensionCount : Nat
  ropeDimensionCountSwa : Nat
  feedForwardLengths : List Nat
  slidingWindowPattern : List Bool
  deriving DecidableEq, Repr

namespace TextModelConfig

def isSlidingWindow (config : TextModelConfig) (layer : Nat) : Except Exception Bool :=
  match config.slidingWindowPattern[layer]? with
  | some sliding => .ok sliding
  | none => .error (.outOfRange (bytes "Gemma 4 layer index is out of range"))

def keyWidth (config : TextModelConfig) (layer : Nat) : Except Exception Nat := do
  let sliding ← config.isSlidingWindow layer
  return uint32 (config.headCountKv * if sliding then config.keyLengthSwa else config.keyLength)

def valueWidth (config : TextModelConfig) (layer : Nat) : Except Exception Nat := do
  let sliding ← config.isSlidingWindow layer
  return uint32 (config.headCountKv * if sliding then config.valueLengthSwa else config.valueLength)

end TextModelConfig

structure VisionModelConfig where
  projectorType : Bytes
  projectionLength : Nat
  imageSize : Nat
  patchSize : Nat
  embeddingLength : Nat
  feedForwardLength : Nat
  blockCount : Nat
  headCount : Nat
  mergeSize : Nat
  imageMinPixels : Nat
  imageMaxPixels : Nat
  layerNormEpsilon : Float32Bits
  imageMean : List Float32Bits
  imageStd : List Float32Bits
  deriving DecidableEq, Repr

end Branchscore
