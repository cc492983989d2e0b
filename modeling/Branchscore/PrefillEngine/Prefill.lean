import Branchscore.PrefillEngine.Layer
import Branchscore.Tokenizer.Vocabulary
import Branchscore.VisionEncoder

/-!
# The Prefill loop

Chunks of 512 positions pass through all layers, each chunk appending its keys and
values to the cache. The input of a chunk is a parameter of the loop; `prefill` cuts it
out of the tokens before and after the image and the visual tokens between them.
-/

namespace Branchscore

open Foundation Outcome
set_option autoImplicit false

structure PrefillState (Row : Type) where
  cache : StateCache Row
  graphCount : Nat
  tokenMicrobatchSize : Nat
  logits : Option Row

namespace PrefillState
variable {Row : Type}

def prefixLength (state : PrefillState Row) : Nat := state.cache.prefixLength

end PrefillState

namespace PrefillEngine

def prefillTokenMicrobatchSize : Nat := 512

def paddedCount (count : Nat) : Nat := (count + 255) / 256 * 256

/-- `static_cast<std::int32_t>`. -/
def int32 (n : Nat) : Int := (BitVec.ofNat 32 n).toInt

/-- `position_values`. -/
def positionValues (chunkStart queryCount : Nat) : List Int :=
  (List.range' chunkStart queryCount).map int32

/-- The number of rows of the chunk that starts at `chunkStart`. -/
def chunkCount (tokenCount chunkStart : Nat) : Nat :=
  min prefillTokenMicrobatchSize (tokenCount - chunkStart)

/-- The first positions of the chunks. -/
def chunkStarts (tokenCount : Nat) : List Nat :=
  (List.range ((tokenCount + prefillTokenMicrobatchSize - 1) / prefillTokenMicrobatchSize)).map
    (prefillTokenMicrobatchSize * ·)

variable {Row : Type} (ops : TensorOps Row) (model : ModelBundle) (backend : BackendContext)

/-- Each row holds the inputs of all layers for its position. -/
def perLayerInputs (ids : List TokenId) (input : List Row) : Except Exception (List Row) := do
  let config := model.textConfig
  let embedding ← requireTextTensor model (bytes "per_layer_token_embd.weight")
  let perLayer := ids.map (ops.getRow embedding)
  let perLayer := perLayer.map (ops.reshape config.perLayerEmbeddingLength config.blockCount)
  let perLayer := perLayer.map (ops.scale (.sqrt config.perLayerEmbeddingLength))
  let projection ← requireTextTensor model (bytes "per_layer_model_proj.weight")
  let projected := input.map (ops.mulMat projection)
  let projected := projected.map (ops.scale (.inverseSqrt config.embeddingLength))
  let projected := projected.map (ops.reshape config.perLayerEmbeddingLength config.blockCount)
  let norm ← requireTextTensor model (bytes "per_layer_proj_norm.weight")
  let projected := projected.map (rmsNorm ops norm config.layerNormEpsilon)
  return (List.zipWith ops.add projected perLayer).map (ops.scale (.inverseSqrt 2))

def softcap (cap : Float32Bits) (logits : Row) : Row :=
  if cap.isZero then logits
  else ops.scale (.float cap) (ops.tanh (ops.scale (.inverse cap) logits))

/-- The logits of the last row of the last chunk. -/
def buildLogits (tokenEmbedding : GgufTensor) (input : List Row) : Except Exception (Option Row) := do
  let config := model.textConfig
  let norm ← requireTextTensor model (bytes "output_norm.weight")
  let input := input.map (rmsNorm ops norm config.layerNormEpsilon)
  let logits := input.getLast?.map (ops.mulMat tokenEmbedding)
  return logits.map (softcap ops config.finalLogitSoftcap)

/-- Only the last chunk has logits. -/
def chunkLogits (tokenEmbedding : GgufTensor) (tokenCount chunkEnd : Nat) (previous : Option Row)
    (input : List Row) : Except Exception (Option Row) :=
  if chunkEnd = tokenCount then buildLogits ops model tokenEmbedding input else .ok previous

/-- The graph is built in full before the device checks, allocates and computes it. -/
def runGraph (chunkStart : Nat) : Except Exception Unit := do
  match backend.unsupportedOp (.prefill chunkStart) with
  | some op =>
    .error (.runtimeError (bytes "unsupported Prefill graph op on selected backend: " ++ op))
  | none => do
    backend.allocate (.prefillGraph chunkStart)
    (backend.compute (.prefill chunkStart)).mapError fun status =>
      .runtimeError (bytes "prefill graph compute failed: " ++ status)

/-- What the loop reads of its sequence: the rows and the per-layer ids of a chunk. -/
structure ChunkSource (Row : Type) where
  rows : Nat → Nat → List Row
  ids : Nat → Nat → List TokenId

variable (source : ChunkSource Row) (tokenEmbedding : GgufTensor) (tokenCount : Nat)

def cacheType : CacheType := if backend.cuda then .f16 else .f32

/-- The number of cache rows for the first `count` positions: `capacity` for all of them,
`cache_count` for those up to the end of a chunk. -/
def cacheRows (count : Nat) : Nat := if backend.cuda then paddedCount count else count

/-- One turn of the loop. -/
def prefillChunk (state : PrefillState Row) (chunkStart : Nat) :
    Except Exception (PrefillState Row) := do
  let config := model.textConfig
  let queryCount := chunkCount tokenCount chunkStart
  let chunkEnd := chunkStart + queryCount
  let cacheCount := cacheRows backend chunkEnd
  backend.allocate (.prefillContext chunkStart)
  let positions := positionValues chunkStart queryCount
  let fullMask := causalMask chunkStart queryCount cacheCount 0
  let slidingMask := causalMask chunkStart queryCount cacheCount config.slidingWindow
  let input := source.rows chunkStart queryCount
  throwIf (input.length ≠ queryCount) "Prefill chunk input has an unexpected shape"
  let perLayer ← perLayerInputs ops model (source.ids chunkStart queryCount) input
  let (cache, input) ← (List.range config.blockCount).foldlM (fun (cache, input) layer =>
    buildLayer ops model config layer (cacheType backend) cache chunkStart cacheCount positions
      fullMask slidingMask perLayer input) (state.cache, input)
  let logits ← chunkLogits ops model tokenEmbedding tokenCount chunkEnd state.logits input
  runGraph backend chunkStart
  return { state with cache, logits, graphCount := state.graphCount + 1 }

/-- `prefill` behind its checks of the sequence. -/
def prefillSequence (source : GgufTensor → ChunkSource Row) : Except Exception (PrefillState Row) := do
  let config := model.textConfig
  let cache ← StateCache.create Row config (cacheRows backend tokenCount) backend
  backend.allocate .logitsContext
  backend.allocate .logits
  let tokenEmbedding ← requireTextTensor model (bytes "token_embd.weight")
  let state ← (chunkStarts tokenCount).foldlM
    (prefillChunk ops model backend (source tokenEmbedding) tokenEmbedding tokenCount)
    { cache, graphCount := 0, tokenMicrobatchSize := prefillTokenMicrobatchSize, logits := none }
  let cache ← state.cache.freezePrefix tokenCount
  return { state with cache }

/-! ## Tokens around an image -/

section Tokens
variable (tokensBeforeImage : List TokenId) (visualTokens : Option (VisualTokens Row))
  (tokensAfterImage : List TokenId)

def visualCount : Nat := (visualTokens.map VisualTokens.tokenCount).getD 0

/-- `token_count`. -/
def totalCount : Nat := tokensBeforeImage.length + visualCount visualTokens + tokensAfterImage.length

def textRow (id : TokenId) : Row :=
  ops.scale (.sqrt model.textConfig.embeddingLength) (ops.getRow tokenEmbedding id)

/-- `overlap_start`. -/
def overlapStart (segmentStart chunkStart : Nat) : Nat := max chunkStart segmentStart

/-- `overlap_end`. -/
def overlapEnd (segmentEnd chunkEnd : Nat) : Nat := min chunkEnd segmentEnd

/-- `append_text`. -/
def textChunk (tokens : List TokenId) (segmentStart chunkStart chunkEnd : Nat) : List Row :=
  let segmentEnd := segmentStart + tokens.length
  let overlapStart := overlapStart segmentStart chunkStart
  let overlapEnd := overlapEnd segmentEnd chunkEnd
  if overlapEnd ≤ overlapStart then []
  else
    ((tokens.take (overlapEnd - segmentStart)).drop (overlapStart - segmentStart)).map
      (textRow ops model tokenEmbedding)

def visualChunk (visualBegin visualEnd chunkStart chunkEnd : Nat) : List Row :=
  match visualTokens with
  | none => []
  | some visualTokens =>
    let overlapStart := overlapStart visualBegin chunkStart
    let overlapEnd := overlapEnd visualEnd chunkEnd
    if overlapStart < overlapEnd then
      (List.range' (overlapStart - visualBegin) (overlapEnd - overlapStart)).map visualTokens.row
    else []

def perLayerId (position : Nat) : TokenId :=
  let beforeCount := tokensBeforeImage.length
  let visualEnd := beforeCount + visualCount visualTokens
  if position < beforeCount then tokensBeforeImage.getD position 0
  else if visualEnd ≤ position then tokensAfterImage.getD (position - visualEnd) 0
  else 0

def tokenSource (tokenEmbedding : GgufTensor) : ChunkSource Row where
  rows chunkStart queryCount :=
    let chunkEnd := chunkStart + queryCount
    let visualBegin := tokensBeforeImage.length
    let visualEnd := visualBegin + visualCount visualTokens
    textChunk ops model tokenEmbedding tokensBeforeImage 0 chunkStart chunkEnd ++
      visualChunk visualTokens visualBegin visualEnd chunkStart chunkEnd ++
      textChunk ops model tokenEmbedding tokensAfterImage visualEnd chunkStart chunkEnd
  ids chunkStart queryCount :=
    (List.range queryCount).map fun index =>
      perLayerId tokensBeforeImage visualTokens tokensAfterImage (chunkStart + index)

def prefill : Except Exception (PrefillState Row) := do
  let config := model.textConfig
  throwIf (∃ visual ∈ visualTokens, visual.embeddingLength ≠ config.embeddingLength)
    "visual-token width does not match text model"
  let tokenCount := totalCount tokensBeforeImage visualTokens tokensAfterImage
  throwIf (tokenCount = 0 ∨ config.contextLength < tokenCount) "prefill exceeds model context"
  prefillSequence ops model backend tokenCount
    (tokenSource ops model tokensBeforeImage visualTokens tokensAfterImage)

end Tokens

end PrefillEngine

end Branchscore
