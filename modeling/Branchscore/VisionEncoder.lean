import Branchscore.BackendContext
import Branchscore.ImagePreprocessor
import Branchscore.ModelLoader

/-!
# The vision graph

Tensors and the operations on them are parameters. The lookups of tensors and clamp
limits and the checks around the computation are those of the encoder.
-/

namespace Branchscore

open Foundation Outcome
set_option autoImplicit false

/-- Dimensions are listed in the order of `ne`; `tableView` is the first or the second
half of the position table, `elements` is `none` unless the type is `GGML_TYPE_F32`. -/
structure VisionOps (Tensor Row : Type) where
  input : Nat → Nat → List Float32Bits → Tensor
  positions : List Int → Tensor
  weight : GgufTensor → Tensor
  tableView : GgufTensor → Nat → Fin 2 → Tensor
  scaleBias : Float32Bits → Float32Bits → Tensor → Tensor
  conv2d : Tensor → Nat → Tensor → Tensor
  reshape : List Nat → Tensor → Tensor
  transpose : Tensor → Tensor
  permute : List Nat → Tensor → Tensor
  getRows : Tensor → Tensor → Tensor
  add : Tensor → Tensor → Tensor
  mul : Tensor → Tensor → Tensor
  mulMat : Tensor → Tensor → Tensor
  clamp : Float32Bits → Float32Bits → Tensor → Tensor
  rmsNorm : Float32Bits → Tensor → Tensor
  rope : Tensor → Nat → Tensor → Tensor
  ropeOffset : Nat → Tensor → Tensor
  castF16 : Tensor → Tensor
  flashAttention : Tensor → Tensor → Tensor → Tensor
  softMax : Tensor → Tensor
  gegluQuick : Tensor → Tensor → Tensor
  averagePool : Nat → Tensor → Tensor
  scaleSqrt : Nat → Tensor → Tensor
  headWidth : Tensor → Nat
  elements : Tensor → Option Nat
  row : Tensor → Nat → Row

structure VisualTokens (Row : Type) where
  tokenCount : Nat
  embeddingLength : Nat
  row : Nat → Row

namespace VisionEncoder

def missingVisionTensor (name : Bytes) : Exception :=
  .runtimeError (bytes "missing vision tensor: " ++ name)

def requireTensor (model : ModelBundle) (name : Bytes) : Except Exception GgufTensor :=
  match model.visionTensor name with
  | some tensor => .ok tensor
  | none => .error (missingVisionTensor name)

def blockWeight (model : ModelBundle) (layer : Nat) (suffix : Bytes) :
    Except Exception GgufTensor :=
  requireTensor model (visionBlockTensor layer suffix)

/-- `std::numeric_limits<float>::max()`. -/
def maximum : Float32Bits := 0x7f7fffff#32

/-- `-maximum`. -/
def minimum : Float32Bits := 0xff7fffff#32

variable {Tensor Row : Type} (ops : VisionOps Tensor Row) (model : ModelBundle)

def rmsNorm (weight : GgufTensor) (epsilon : Float32Bits) (input : Tensor) : Tensor :=
  ops.mul (ops.rmsNorm epsilon input) (ops.weight weight)

/-- The stem drops the last seven bytes of the name, `.weight`. -/
def clippedMm (weight : GgufTensor) (input : Tensor) : Except Exception Tensor := do
  let stem := weight.name.take (weight.name.length - 7)
  let inputMin ← model.visionScalar (stem ++ bytes ".input_min") minimum
  let inputMax ← model.visionScalar (stem ++ bytes ".input_max") maximum
  let outputMin ← model.visionScalar (stem ++ bytes ".output_min") minimum
  let outputMax ← model.visionScalar (stem ++ bytes ".output_max") maximum
  let clamped := ops.clamp inputMin inputMax input
  return ops.clamp outputMin outputMax (ops.mulMat (ops.weight weight) clamped)

def addRope (posX posY input : Tensor) : Tensor :=
  let half := ops.headWidth input / 2
  ops.ropeOffset half (ops.rope posY half (ops.rope posX half input))

variable (config : VisionModelConfig) (useFlashAttention : Bool)

def attention (layer positionCount : Nat) (posX posY input : Tensor) :
    Except Exception Tensor := do
  if config.headCount = 0 then .error .undefinedBehavior
  else
    let heads := [config.embeddingLength / config.headCount, config.headCount, positionCount, 1]
    let query ← clippedMm ops model (← blockWeight model layer (bytes "attn_q.weight")) input
    let key ← clippedMm ops model (← blockWeight model layer (bytes "attn_k.weight")) input
    let value ← clippedMm ops model (← blockWeight model layer (bytes "attn_v.weight")) input
    let queryNorm ← blockWeight model layer (bytes "attn_q_norm.weight")
    let query := rmsNorm ops queryNorm config.layerNormEpsilon (ops.reshape heads query)
    let keyNorm ← blockWeight model layer (bytes "attn_k_norm.weight")
    let key := rmsNorm ops keyNorm config.layerNormEpsilon (ops.reshape heads key)
    let value := ops.rmsNorm config.layerNormEpsilon (ops.reshape heads value)
    let query := ops.permute [0, 2, 1, 3] (addRope ops posX posY query)
    let key := ops.permute [0, 2, 1, 3] (addRope ops posX posY key)
    let width := config.embeddingLength / config.headCount * config.headCount
    let attended :=
      if useFlashAttention then
        ops.flashAttention query (ops.castF16 key)
          (ops.castF16 (ops.permute [0, 2, 1, 3] value))
      else
        ops.permute [0, 2, 1, 3]
          (ops.mulMat (ops.permute [1, 2, 0, 3] value) (ops.softMax (ops.mulMat key query)))
    clippedMm ops model (← blockWeight model layer (bytes "attn_out.weight"))
      (ops.reshape [width, positionCount] attended)

def transformerLayer (layer positionCount : Nat) (posX posY input : Tensor) :
    Except Exception Tensor := do
  let norm ← blockWeight model layer (bytes "ln1.weight")
  let current := rmsNorm ops norm config.layerNormEpsilon input
  let current ←
    attention ops model config useFlashAttention layer positionCount posX posY current
  let norm ← blockWeight model layer (bytes "attn_post_norm.weight")
  let residual := ops.add (rmsNorm ops norm config.layerNormEpsilon current) input
  let norm ← blockWeight model layer (bytes "ln2.weight")
  let current := rmsNorm ops norm config.layerNormEpsilon residual
  let up ← clippedMm ops model (← blockWeight model layer (bytes "ffn_up.weight")) current
  let gate ← clippedMm ops model (← blockWeight model layer (bytes "ffn_gate.weight")) current
  let current := ops.gegluQuick gate up
  let current ← clippedMm ops model (← blockWeight model layer (bytes "ffn_down.weight")) current
  let norm ← blockWeight model layer (bytes "ffn_post_norm.weight")
  return ops.add residual (rmsNorm ops norm config.layerNormEpsilon current)

/-- The graph is computed as it is built: its inputs are the pixels of the image and
the column and row of each patch. -/
def buildVisionGraph (backend : BackendContext) (image : PreparedImage) :
    Except Exception Tensor := do
  let config := model.visionConfig
  let positionCount ← image.patchCount config
  let outputTokens ← image.visualTokenCount config
  let patchesX := image.width / config.patchSize
  let patchesY := image.height / config.patchSize
  backend.allocate (.visionContext useFlashAttention)
  let current := ops.scaleBias 0x40000000#32 0xbf800000#32
    (ops.input image.width image.height image.pixels)
  let kernel ← requireTensor model (bytes "v.patch_embd.weight")
  let current := ops.conv2d (ops.weight kernel) config.patchSize current
  let current :=
    ops.transpose (ops.reshape [positionCount, config.embeddingLength, 1] current)
  let posX := ops.positions ((List.range positionCount).map fun index => (index % patchesX : Nat))
  let posY := ops.positions ((List.range positionCount).map fun index => (index / patchesX : Nat))
  let positions ← requireTensor model (bytes "v.position_embd.weight")
  let tableX := ops.tableView positions config.embeddingLength 0
  let tableY := ops.tableView positions config.embeddingLength 1
  let current := ops.add current (ops.getRows tableX posX)
  let current := ops.add current (ops.getRows tableY posY)
  let current := ops.reshape [config.embeddingLength, positionCount] current
  let current ← (List.range config.blockCount).foldlM (fun current layer =>
    transformerLayer ops model config useFlashAttention layer positionCount posX posY current)
    current
  let current :=
    ops.reshape [patchesX, patchesY, config.embeddingLength, 1] (ops.transpose current)
  let current := ops.averagePool config.mergeSize current
  let current := ops.reshape [outputTokens, config.embeddingLength, 1] current
  let current := ops.scaleSqrt config.embeddingLength (ops.transpose current)
  let current := ops.rmsNorm config.layerNormEpsilon current
  clippedMm ops model (← requireTensor model (bytes "mm.input_projection.weight")) current

def attentionPathName (flash : Bool) : Bytes := if flash then bytes "flash" else bytes "standard"

/-- A graph without layers has no flash-attention node to support. -/
def supportsFlashAttention (config : VisionModelConfig) (backend : BackendContext) : Bool :=
  config.blockCount ≠ 0 && backend.supportsFlashAttention

def fallbackGraph (backend : BackendContext) (image : PreparedImage) (flash : Bool)
    (graph : Tensor) : Except Exception Tensor :=
  if flash then .ok graph else buildVisionGraph ops model false backend image

def runGraph (backend : BackendContext) (flash : Bool) : Except Exception Unit := do
  backend.allocate .visionAllocator
  if backend.allocates .visionGraph = false then
    .error (.runtimeError (bytes Allocation.visionGraph.message ++ bytes " (attention_path=" ++
      attentionPathName flash ++ bytes ")"))
  else
    (backend.compute .vision).mapError fun status =>
      .runtimeError (bytes "vision graph compute failed (attention_path=" ++
        attentionPathName flash ++ bytes "): " ++ status)

def encode (backend : BackendContext) (image : PreparedImage) :
    Except Exception (VisualTokens Row) := do
  let config := model.visionConfig
  throwIf (image.pixels.length ≠ image.width * image.height * 3)
    "prepared image buffer has an unexpected size"
  let outputTokens ← image.visualTokenCount config
  let graph ← buildVisionGraph ops model true backend image
  let flash := supportsFlashAttention config backend
  let graph ← fallbackGraph ops model backend image flash graph
  runGraph backend flash
  throwIf (ops.elements graph ≠ some (outputTokens * config.projectionLength))
    "vision graph output has an unexpected shape or type"
  backend.allocate .visualTokensContext
  backend.allocate .visualTokens
  return {
    tokenCount := outputTokens, embeddingLength := config.projectionLength
    row := ops.row graph }

end VisionEncoder

end Branchscore
