import Branchscore.ModelLoader
import Branchscore.StateCache

/-!
# One layer of the Prefill graph

The device's operations act on rows, one for each position of the chunk, and are
parameters. The lookups of tensors and cache slots, the order in which they throw,
and the reads and writes of the cache are those of `build_layer`.
-/

namespace Branchscore

open Foundation Outcome
set_option autoImplicit false

/-- The constants of the `ggml_scale` calls. -/
inductive ScaleFactor where
  | sqrt (n : Nat)
  | inverseSqrt (n : Nat)
  | float (value : Float32Bits)
  | inverse (value : Float32Bits)
  deriving DecidableEq, Repr

inductive CacheType where
  | f16
  | f32
  deriving DecidableEq, Repr

/-- The row-wise operations; `reshape` gives a row its heads, `attention` takes the
positions that the mask leaves with their keys and values. -/
structure TensorOps (Row : Type) where
  getRow : GgufTensor → Nat → Row
  weight : GgufTensor → Row
  scale : ScaleFactor → Row → Row
  mulMat : GgufTensor → Row → Row
  rmsNorm : Float32Bits → Row → Row
  mul : Row → Row → Row
  add : Row → Row → Row
  reshape : Nat → Nat → Row → Row
  rope : Int → Option GgufTensor → Nat → Float32Bits → Row → Row
  cast : CacheType → Row → Row
  attention : CacheType → Row → List (Nat × Row × Row) → Row
  geglu : Row → Row → Row
  gelu : Row → Row
  slice : Nat → Nat → Row → Row
  tanh : Row → Row

namespace PrefillEngine

def missingTextTensor (name : Bytes) : Exception :=
  .runtimeError (bytes "missing text tensor: " ++ name)

def requireTextTensor (model : ModelBundle) (name : Bytes) : Except Exception GgufTensor :=
  match model.textTensor name with
  | some tensor => .ok tensor
  | none => .error (missingTextTensor name)

def layerTensor (model : ModelBundle) (layer : Nat) (suffix : Bytes) :
    Except Exception GgufTensor :=
  requireTextTensor model (blockTensor layer suffix)

variable {Row : Type} (ops : TensorOps Row) (model : ModelBundle)

def rmsNorm (weight : GgufTensor) (epsilon : Float32Bits) (input : Row) : Row :=
  ops.mul (ops.rmsNorm epsilon input) (ops.weight weight)

/-- The mask rows of a chunk; `true` stands for minus infinity. -/
def causalMask (queryStart queryCount keyCount window : Nat) : List (List Bool) :=
  (List.range queryCount).map fun query =>
    (List.range keyCount).map fun key =>
      let absoluteQuery := queryStart + query
      let afterQuery := absoluteQuery < key
      let beforeWindow := window ≠ 0 ∧ key + window ≤ absoluteQuery
      decide (afterQuery ∨ beforeWindow)

/-- The head geometry and position encoding of a layer. -/
structure HeadConfig where
  headSize : Nat
  valueSize : Nat
  frequencyFactors : Option GgufTensor
  ropeDimensionCount : Nat
  ropeFreqBase : Float32Bits
  deriving DecidableEq, Repr

def headConfig (config : TextModelConfig) (sliding : Bool) : HeadConfig where
  headSize := if sliding then config.keyLengthSwa else config.keyLength
  valueSize := if sliding then config.valueLengthSwa else config.valueLength
  frequencyFactors := if sliding then none else model.textTensor (bytes "rope_freqs.weight")
  ropeDimensionCount :=
    if sliding then config.ropeDimensionCountSwa else config.ropeDimensionCount
  ropeFreqBase := if sliding then config.ropeFreqBaseSwa else config.ropeFreqBase

def rope (heads : HeadConfig) (position : Int) (row : Row) : Row :=
  ops.rope position heads.frequencyFactors heads.ropeDimensionCount heads.ropeFreqBase row

/-- The view into the cache tensor does not exist past its capacity. -/
def cacheCurrentKv (capacity : Nat) (tensors : Nat → Nat → Option Row) (slot start : Nat)
    (current : List Row) : Except Exception (Nat → Nat → Option Row) :=
  if start + current.length ≤ capacity then .ok (CausalPass.write tensors slot start current)
  else .error .undefinedBehavior

/-- The keys and values a query row attends to. -/
def unmasked (mask : List Bool) (keys values : Nat → Option Row) :
    Except Exception (List (Nat × Row × Row)) :=
  ((List.range mask.length).filter fun position => mask[position]? = some false).mapM
    fun position =>
      match keys position, values position with
      | some key, some value => .ok (position, key, value)
      | _, _ => .error .undefinedBehavior

variable (config : TextModelConfig) (layer : Nat) (heads : HeadConfig)

def buildQuery (positions : List Int) (current : List Row) : Except Exception (List Row) := do
  let query := current.map (ops.mulMat (← layerTensor model layer (bytes "attn_q.weight")))
  let query := query.map (ops.reshape heads.headSize config.headCount)
  let norm ← layerTensor model layer (bytes "attn_q_norm.weight")
  let query := query.map (rmsNorm ops norm config.layerNormEpsilon)
  return List.zipWith (rope ops heads) positions query

def storeKv (cacheType : CacheType) (cache : StateCache Row) (cacheStart : Nat)
    (positions : List Int) (current : List Row) : Except Exception (StateCache Row) := do
  let key := current.map (ops.mulMat (← layerTensor model layer (bytes "attn_k.weight")))
  let value := current.map (ops.mulMat (← layerTensor model layer (bytes "attn_v.weight")))
  let key := key.map (ops.reshape heads.headSize config.headCountKv)
  let value := value.map (ops.reshape heads.valueSize config.headCountKv)
  let norm ← layerTensor model layer (bytes "attn_k_norm.weight")
  let key := key.map (rmsNorm ops norm config.layerNormEpsilon)
  let value := value.map (ops.rmsNorm config.layerNormEpsilon)
  let key := List.zipWith (rope ops heads) positions key
  let slot ← cache.slot layer
  let _ ← config.keyWidth layer
  let keys ← cacheCurrentKv cache.capacity cache.keys slot cacheStart (key.map (ops.cast cacheType))
  let _ ← config.valueWidth layer
  let values ←
    cacheCurrentKv cache.capacity cache.values slot cacheStart (value.map (ops.cast cacheType))
  return { cache with keys, values }

/-- Only the stored layers have keys and values of their own. -/
def buildKv (cacheType : CacheType) (cache : StateCache Row) (cacheStart : Nat)
    (positions : List Int) (current : List Row) : Except Exception (StateCache Row) :=
  if layer < config.storedLayers then
    storeKv ops model config layer heads cacheType cache cacheStart positions current
  else .ok cache

def buildAttention (cacheType : CacheType) (cache : StateCache Row) (cacheCount : Nat)
    (mask : List (List Bool)) (query : List Row) : Except Exception (List Row) := do
  let keys ← cache.key layer
  let _ ← config.keyWidth layer
  let values ← cache.value layer
  let _ ← config.valueWidth layer
  if cache.capacity < cacheCount then .error .undefinedBehavior
  else
    (query.zip mask).mapM fun (query, mask) => do
      let entries ← unmasked mask keys values
      return ops.attention cacheType query <| entries.map fun (position, key, value) =>
        (position, ops.reshape heads.headSize config.headCountKv key,
          ops.reshape heads.valueSize config.headCountKv value)

def buildFeedForward (input attended : List Row) : Except Exception (List Row) := do
  let current := attended.map (ops.mulMat (← layerTensor model layer (bytes "attn_output.weight")))
  let norm ← layerTensor model layer (bytes "post_attention_norm.weight")
  let current := current.map (rmsNorm ops norm config.layerNormEpsilon)
  let attentionOutput := List.zipWith ops.add current input
  let norm ← layerTensor model layer (bytes "ffn_norm.weight")
  let current := attentionOutput.map (rmsNorm ops norm config.layerNormEpsilon)
  let up := current.map (ops.mulMat (← layerTensor model layer (bytes "ffn_up.weight")))
  let gate := current.map (ops.mulMat (← layerTensor model layer (bytes "ffn_gate.weight")))
  let current := List.zipWith ops.geglu gate up
  let current := current.map (ops.mulMat (← layerTensor model layer (bytes "ffn_down.weight")))
  let norm ← layerTensor model layer (bytes "post_ffw_norm.weight")
  let current := current.map (rmsNorm ops norm config.layerNormEpsilon)
  return List.zipWith ops.add current attentionOutput

def buildPerLayer (perLayerInputs residual : List Row) : Except Exception (List Row) := do
  let current := residual.map (ops.mulMat (← layerTensor model layer (bytes "inp_gate.weight")))
  let current := current.map ops.gelu
  let layerInput := perLayerInputs.map (ops.slice config.perLayerEmbeddingLength layer)
  let current := List.zipWith ops.mul current layerInput
  let current := current.map (ops.mulMat (← layerTensor model layer (bytes "proj.weight")))
  let norm ← layerTensor model layer (bytes "post_norm.weight")
  let current := current.map (rmsNorm ops norm config.layerNormEpsilon)
  let current := List.zipWith ops.add residual current
  match model.textTensor (blockTensor layer (bytes "layer_output_scale.weight")) with
  | some scale => return current.map fun row => ops.mul row (ops.weight scale)
  | none => return current

/-- The copies into the cache stand before the views in the graph, so a chunk reads its
own keys and values. -/
def buildLayer (cacheType : CacheType) (cache : StateCache Row) (cacheStart cacheCount : Nat)
    (positions : List Int) (fullMask slidingMask : List (List Bool)) (perLayerInputs input : List Row) :
    Except Exception (StateCache Row × List Row) := do
  let sliding ← config.isSlidingWindow layer
  let heads := headConfig model config sliding
  throwIf (heads.headSize ≠ heads.valueSize) "Gemma 4 K/V head widths must match"
  let norm ← layerTensor model layer (bytes "attn_norm.weight")
  let current := input.map (rmsNorm ops norm config.layerNormEpsilon)
  let query ← buildQuery ops model config layer heads positions current
  let cache ← buildKv ops model config layer heads cacheType cache cacheStart positions current
  let attended ← buildAttention ops config layer heads cacheType cache cacheCount
    (if sliding then slidingMask else fullMask) query
  let residual ← buildFeedForward ops model config layer input attended
  return (cache, ← buildPerLayer ops model config layer perLayerInputs residual)

end PrefillEngine

end Branchscore
