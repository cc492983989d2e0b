import Branchscore.Foundation.Outcome
import Branchscore.ModelConfig

/-!
# Loading the model files

What the loader reads from the two GGUF files and the tensors it insists on. Opening
a file and copying tensor data to the device are parameters.
-/

namespace Branchscore

open Foundation Outcome
set_option autoImplicit false

/-- `read` is the metadata of a file; `copy` allocates and fills the selected tensors. -/
structure ModelFiles where
  read : Bytes → Option Gguf
  copy : Bytes → List GgufTensor → Except Bytes Unit

structure LoadedWeights where
  gguf : Gguf
  tensors : List GgufTensor
  deriving DecidableEq, Repr

namespace LoadedWeights

def tensor (weights : LoadedWeights) (name : Bytes) : Option GgufTensor :=
  weights.tensors.find? fun tensor => tensor.name = name

def load (files : ModelFiles) (path : Bytes) (selected : Bytes → Bool) :
    Except Exception LoadedWeights := do
  match files.read path with
  | none => .error (.runtimeError (bytes "failed to read GGUF metadata from '" ++ path ++ bytes "'"))
  | some gguf => do
    let tensors := gguf.tensors.filter fun tensor => selected tensor.name
    if tensors = [] then
      .error (.runtimeError (bytes "no selected tensors in '" ++ path ++ bytes "'"))
    else do
      (files.copy path tensors).mapError .runtimeError
      return ⟨gguf, tensors⟩

end LoadedWeights

/-! ## Metadata readers -/

def requireKey (gguf : Gguf) (key : String) : Except Exception GgufValue :=
  match gguf.findKey (bytes key) with
  | some value => .ok value
  | none => runtimeError ("required GGUF key is missing: " ++ key)

def wrongType {α : Type} (key : String) : Except Exception α :=
  runtimeError ("GGUF key has wrong type: " ++ key)

def stringValue (gguf : Gguf) (key : String) : Except Exception Bytes := do
  match ← requireKey gguf key with
  | .string value => return cString value
  | _ => wrongType key

def u32Value (gguf : Gguf) (key : String) : Except Exception Nat := do
  match ← requireKey gguf key with
  | .uint32 value => return value
  | _ => wrongType key

def f32Value (gguf : Gguf) (key : String) : Except Exception Float32Bits := do
  match ← requireKey gguf key with
  | .float32 value => return value
  | _ => wrongType key

def optionalU32Value (gguf : Gguf) (key : String) (fallback : Nat) : Except Exception Nat :=
  match gguf.findKey (bytes key) with
  | none => .ok fallback
  | some (.uint32 value) => .ok value
  | some _ => wrongType key

def f32Triplet (gguf : Gguf) (key : String) : Except Exception (List Float32Bits) := do
  match ← requireKey gguf key with
  | .array (.float32 values) =>
    if values.length < 3 then runtimeError ("GGUF key is not a float32 triplet: " ++ key)
    else return values.take 3
  | _ => runtimeError ("GGUF key is not a float32 triplet: " ++ key)

def checkedU32 (key : String) (value : Int) : Except Exception Nat :=
  if value < 0 ∨ 4294967295 < value then
    runtimeError ("GGUF value is outside uint32 range: " ++ key)
  else .ok value.toNat

def u32Values (gguf : Gguf) (key : String) : Except Exception (List Nat) := do
  match ← requireKey gguf key with
  | .uint32 value => return [value]
  | .int32 value => return [← checkedU32 key value]
  | .uint64 value => return [← checkedU32 key value]
  | .int64 value => return [← checkedU32 key value]
  | .array (.uint32 values) => return values
  | .array (.int32 values) => values.mapM (checkedU32 key)
  | .array (.uint64 values) => values.mapM fun value => checkedU32 key value
  | .array (.int64 values) => values.mapM (checkedU32 key)
  | .array _ => runtimeError ("GGUF array is not integer-valued: " ++ key)
  | _ => runtimeError ("GGUF key is not an integer value or array: " ++ key)

def boolValues (gguf : Gguf) (key : String) : Except Exception (List Bool) := do
  match ← requireKey gguf key with
  | .array (.bool values) => return values.map (· ≠ 0)
  | .array (.uint8 values) => return values.map (· ≠ 0)
  | .array (.int8 values) => return values.map (· ≠ 0)
  | .array (.uint32 values) => return values.map (· ≠ 0)
  | .array (.int32 values) => return values.map (· ≠ 0)
  | .array _ => runtimeError ("GGUF array is not bool-compatible: " ++ key)
  | _ => runtimeError ("GGUF key is not a bool array: " ++ key)

/-- `gguf_get_arr_n` of a required key. -/
def arrayCount (gguf : Gguf) (key : String) : Except Exception Nat := do
  match ← requireKey gguf key with
  | .array values => return values.count
  | _ => .error .undefinedBehavior

/-! ## Configurations -/

def readTextConfig (gguf : Gguf) : Except Exception TextModelConfig := do
  let architecture ← stringValue gguf "general.architecture"
  let name ← stringValue gguf "general.name"
  if architecture ≠ bytes "gemma4" then
    .error (.runtimeError (bytes "expected general.architecture=gemma4, got '" ++ architecture ++
      bytes "'"))
  else do
    let contextLength ← u32Value gguf "gemma4.context_length"
    let embeddingLength ← u32Value gguf "gemma4.embedding_length"
    let blockCount ← u32Value gguf "gemma4.block_count"
    let headCount ← u32Value gguf "gemma4.attention.head_count"
    let headCountKv ← u32Value gguf "gemma4.attention.head_count_kv"
    let keyLength ← u32Value gguf "gemma4.attention.key_length"
    let valueLength ← u32Value gguf "gemma4.attention.value_length"
    let keyLengthSwa ← u32Value gguf "gemma4.attention.key_length_swa"
    let valueLengthSwa ← u32Value gguf "gemma4.attention.value_length_swa"
    let slidingWindow ← u32Value gguf "gemma4.attention.sliding_window"
    let sharedKvLayers ← u32Value gguf "gemma4.attention.shared_kv_layers"
    let perLayerEmbeddingLength ← u32Value gguf "gemma4.embedding_length_per_layer_input"
    let finalLogitSoftcap ← f32Value gguf "gemma4.final_logit_softcapping"
    let layerNormEpsilon ← f32Value gguf "gemma4.attention.layer_norm_rms_epsilon"
    let ropeFreqBase ← f32Value gguf "gemma4.rope.freq_base"
    let ropeFreqBaseSwa ← f32Value gguf "gemma4.rope.freq_base_swa"
    let ropeDimensionCount ← u32Value gguf "gemma4.rope.dimension_count"
    let ropeDimensionCountSwa ← u32Value gguf "gemma4.rope.dimension_count_swa"
    let feedForwardLengths ← u32Values gguf "gemma4.feed_forward_length"
    let slidingWindowPattern ← boolValues gguf "gemma4.attention.sliding_window_pattern"
    let vocabularySize ← arrayCount gguf "tokenizer.ggml.tokens"
    throwIf (blockCount ≠ 35 ∧ blockCount ≠ 42)
      ("only Gemma 4 E2B/E4B are supported; block_count=" ++ toString blockCount)
    throwIf (slidingWindowPattern.length ≠ blockCount)
      "sliding-window pattern length does not match block count"
    throwIf (feedForwardLengths.length ≠ 1 ∧ feedForwardLengths.length ≠ blockCount)
      "feed-forward length metadata has unexpected size"
    return {
      architecture, name, contextLength, embeddingLength, blockCount, headCount, headCountKv,
      keyLength, valueLength, keyLengthSwa, valueLengthSwa, slidingWindow, sharedKvLayers,
      perLayerEmbeddingLength, vocabularySize, finalLogitSoftcap, layerNormEpsilon, ropeFreqBase,
      ropeFreqBaseSwa, ropeDimensionCount, ropeDimensionCountSwa, feedForwardLengths,
      slidingWindowPattern }

/-- `(factor * patch_area)` on `std::uint64_t`. -/
def pixelLimit (factor patchSize mergeSize : Nat) : Nat :=
  let alignedPatch := patchSize * mergeSize % 2 ^ 64
  factor * (alignedPatch * alignedPatch % 2 ^ 64) % 2 ^ 64

def readVisionConfig (gguf : Gguf) : Except Exception VisionModelConfig := do
  let projectorType ← stringValue gguf "clip.vision.projector_type"
  if projectorType ≠ bytes "gemma4v" then
    .error (.runtimeError (bytes "expected clip.vision.projector_type=gemma4v, got '" ++
      projectorType ++ bytes "'"))
  else do
    let projectionLength ← u32Value gguf "clip.vision.projection_dim"
    let imageSize ← u32Value gguf "clip.vision.image_size"
    let patchSize ← u32Value gguf "clip.vision.patch_size"
    let embeddingLength ← u32Value gguf "clip.vision.embedding_length"
    let feedForwardLength ← u32Value gguf "clip.vision.feed_forward_length"
    let blockCount ← u32Value gguf "clip.vision.block_count"
    let headCount ← u32Value gguf "clip.vision.attention.head_count"
    let mergeSize ← optionalU32Value gguf "clip.vision.projector.scale_factor" 3
    let layerNormEpsilon ← f32Value gguf "clip.vision.attention.layer_norm_epsilon"
    let imageMean ← f32Triplet gguf "clip.vision.image_mean"
    let imageStd ← f32Triplet gguf "clip.vision.image_std"
    throwIf (mergeSize = 0 ∨ patchSize = 0)
      "Gemma 4 vision patch and merge sizes must be positive"
    throwIf (4294967295 < pixelLimit 1120 patchSize mergeSize)
      "Gemma 4 vision pixel limits exceed uint32 range"
    throwIf (imageStd.any Float32Bits.isZero = true) "Gemma 4 vision image std must be nonzero"
    return {
      projectorType, projectionLength, imageSize, patchSize, embeddingLength, feedForwardLength,
      blockCount, headCount, mergeSize
      imageMinPixels := uint32 (pixelLimit 70 patchSize mergeSize)
      imageMaxPixels := uint32 (pixelLimit 1120 patchSize mergeSize)
      layerNormEpsilon, imageMean, imageStd }

/-! ## Required tensors -/

def requireTensor (weights : LoadedWeights) (name : Bytes) : Except Exception Unit :=
  match weights.tensor name with
  | some _ => .ok ()
  | none => .error (.runtimeError (bytes "required tensor is missing: " ++ name))

def blockTensor (block : Nat) (suffix : Bytes) : Bytes :=
  bytes "blk." ++ decimal block ++ bytes "." ++ suffix

def visionBlockTensor (block : Nat) (suffix : Bytes) : Bytes :=
  bytes "v.blk." ++ decimal block ++ bytes "." ++ suffix

def textTensorNames : List Bytes :=
  ["token_embd.weight", "output_norm.weight", "per_layer_token_embd.weight",
    "per_layer_model_proj.weight", "per_layer_proj_norm.weight"].map bytes

def textBlockSuffixes : List Bytes :=
  ["attn_norm.weight", "attn_q.weight", "attn_q_norm.weight", "attn_output.weight",
    "post_attention_norm.weight", "ffn_norm.weight", "ffn_gate.weight", "ffn_up.weight",
    "ffn_down.weight", "post_ffw_norm.weight", "inp_gate.weight", "proj.weight",
    "post_norm.weight"].map bytes

def storedBlockSuffixes : List Bytes := ["attn_k.weight", "attn_k_norm.weight"].map bytes

/-- The names `validate_text_tensors` checks, in its order. -/
def checkedTextTensors (config : TextModelConfig) : List Bytes :=
  textTensorNames ++ (List.range config.blockCount).flatMap fun block =>
    textBlockSuffixes.map (blockTensor block) ++
      if block < uint32Sub config.blockCount config.sharedKvLayers then
        storedBlockSuffixes.map (blockTensor block)
      else []

def validateTextTensors (weights : LoadedWeights) (config : TextModelConfig) :
    Except Exception Unit :=
  forM (checkedTextTensors config) (requireTensor weights)

def visionTensorNames : List Bytes :=
  ["v.patch_embd.weight", "v.position_embd.weight", "mm.input_projection.weight"].map bytes

def visionBlockSuffixes : List Bytes :=
  ["ln1.weight", "ln2.weight", "attn_q.weight", "attn_k.weight", "attn_v.weight",
    "attn_out.weight", "attn_q_norm.weight", "attn_k_norm.weight", "attn_post_norm.weight",
    "ffn_gate.weight", "ffn_up.weight", "ffn_down.weight", "ffn_post_norm.weight"].map bytes

def checkedVisionTensors (config : VisionModelConfig) : List Bytes :=
  visionTensorNames ++ (List.range config.blockCount).flatMap fun block =>
    visionBlockSuffixes.map (visionBlockTensor block)

def validateVisionTensors (weights : LoadedWeights) (config : VisionModelConfig) :
    Except Exception Unit :=
  forM (checkedVisionTensors config) (requireTensor weights)

/-! ## The bundle -/

structure ModelBundle where
  textConfig : TextModelConfig
  visionConfig : VisionModelConfig
  textWeights : LoadedWeights
  visionWeights : LoadedWeights
  deriving DecidableEq, Repr

namespace ModelBundle

def textTensor (model : ModelBundle) (name : Bytes) : Option GgufTensor :=
  model.textWeights.tensor name

def visionTensor (model : ModelBundle) (name : Bytes) : Option GgufTensor :=
  model.visionWeights.tensor name

def visionScalar (model : ModelBundle) (name : Bytes) (fallback : Float32Bits) :
    Except Exception Float32Bits :=
  match model.visionTensor name with
  | none => .ok fallback
  | some tensor =>
    if tensor.type ≠ .f32 ∨ tensor.elementCount ≠ 1 then
      .error (.runtimeError (bytes "vision scalar tensor has unexpected shape or type: " ++ name))
    else .ok tensor.value

end ModelBundle

namespace ModelLoader

def isVisionTensor (name : Bytes) : Bool :=
  name.take 2 = bytes "v." || name = bytes "mm.input_projection.weight"

def load (files : ModelFiles) (textModelPath mmprojPath : Bytes) :
    Except Exception ModelBundle := do
  let textWeights ← LoadedWeights.load files textModelPath fun _ => true
  let textConfig ← readTextConfig textWeights.gguf
  validateTextTensors textWeights textConfig
  let visionWeights ← LoadedWeights.load files mmprojPath isVisionTensor
  let visionConfig ← readVisionConfig visionWeights.gguf
  validateVisionTensors visionWeights visionConfig
  throwIf (visionConfig.projectionLength ≠ textConfig.embeddingLength)
    "mmproj projection width does not match text embedding width"
  return { textConfig, visionConfig, textWeights, visionWeights }

end ModelLoader

end Branchscore
