import Branchscore.PrefillEngine.Prefill

/-!
# One pass over the whole sequence

What Prefill computes for a position, read as one causal pass of all layers over all
rows, and the reasons for which the engine may refuse to compute it.
-/

namespace Branchscore

open Foundation Outcome CausalPass
set_option autoImplicit false

namespace PrefillEngine

/-! ## Tensors -/

def querySuffixes : List Bytes := ["attn_norm.weight", "attn_q.weight", "attn_q_norm.weight"].map bytes

def kvSuffixes : List Bytes := ["attn_k.weight", "attn_v.weight", "attn_k_norm.weight"].map bytes

def feedForwardSuffixes : List Bytes :=
  ["attn_output.weight", "post_attention_norm.weight", "ffn_norm.weight", "ffn_up.weight",
    "ffn_gate.weight", "ffn_down.weight", "post_ffw_norm.weight"].map bytes

def perLayerSuffixes : List Bytes :=
  ["inp_gate.weight", "proj.weight", "post_norm.weight"].map bytes

def layerSuffixes (config : TextModelConfig) (layer : Nat) : List Bytes :=
  querySuffixes ++ feedForwardSuffixes ++ perLayerSuffixes ++
    if layer < config.storedLayers then kvSuffixes else []

def inputTensors : List Bytes :=
  ["token_embd.weight", "per_layer_token_embd.weight", "per_layer_model_proj.weight",
    "per_layer_proj_norm.weight", "output_norm.weight"].map bytes

/-- The tensors that Prefill looks up. -/
def requiredTextTensors (config : TextModelConfig) : List Bytes :=
  inputTensors ++ (List.range config.blockCount).flatMap fun layer =>
    (layerSuffixes config layer).map (blockTensor layer)

theorem mem_requiredTextTensors_layer {config : TextModelConfig} {layer : Nat} {suffix : Bytes}
    (hlayer : layer < config.blockCount) (hsuffix : suffix ∈ layerSuffixes config layer) :
    blockTensor layer suffix ∈ requiredTextTensors config := by
  apply List.mem_append_right
  apply List.mem_flatMap.mpr
  exact ⟨layer, List.mem_range.mpr hlayer, List.mem_map_of_mem hsuffix⟩

/-! ## Refusals -/

/-- The errors of a Prefill over `tokenCount` positions, each with what is wrong with the
model, the device or the sequence. -/
inductive Refuses (model : ModelBundle) (backend : BackendContext) (tokenCount : Nat)
    (visualWidth : Option Nat) : Exception → Prop where
  | visualWidth {width : Nat} (h : visualWidth = some width)
      (hne : width ≠ model.textConfig.embeddingLength) :
      Refuses model backend tokenCount visualWidth
        (.runtimeError (bytes "visual-token width does not match text model"))
  | context (h : tokenCount = 0 ∨ model.textConfig.contextLength < tokenCount) :
      Refuses model backend tokenCount visualWidth
        (.runtimeError (bytes "prefill exceeds model context"))
  | capacity {capacity : Nat}
      (hcapacity : capacity = cacheRows backend tokenCount)
      (h : capacity = 0 ∨ model.textConfig.contextLength < capacity) :
      Refuses model backend tokenCount visualWidth
        (.runtimeError (bytes "state-cache capacity is outside the model context"))
  | sharedLayers (h : model.textConfig.blockCount ≤ model.textConfig.sharedKvLayers) :
      Refuses model backend tokenCount visualWidth
        (.runtimeError (bytes "invalid Gemma 4 shared-KV layer count"))
  | allocation {allocation : Allocation} (h : backend.allocates allocation = false) :
      Refuses model backend tokenCount visualWidth (.runtimeError (bytes allocation.message))
  | pattern {layer : Nat} (hlayer : layer < model.textConfig.blockCount)
      (h : model.textConfig.slidingWindowPattern.length ≤ layer) :
      Refuses model backend tokenCount visualWidth
        (.outOfRange (bytes "Gemma 4 layer index is out of range"))
  | headWidths {layer : Nat} (hlayer : layer < model.textConfig.blockCount) {sliding : Bool}
      (hsliding : model.textConfig.isSlidingWindow layer = .ok sliding)
      (h : (headConfig model model.textConfig sliding).headSize ≠
        (headConfig model model.textConfig sliding).valueSize) :
      Refuses model backend tokenCount visualWidth
        (.runtimeError (bytes "Gemma 4 K/V head widths must match"))
  | source {layer : Nat} (hlayer : layer < model.textConfig.blockCount) {e : Exception}
      (h : model.textConfig.sourceLayer layer = .error e) :
      Refuses model backend tokenCount visualWidth e
  | slot {layer source : Nat} (hlayer : layer < model.textConfig.blockCount)
      (h : model.textConfig.sourceLayer layer = .ok source)
      (hsource : model.textConfig.storedLayers ≤ source) :
      Refuses model backend tokenCount visualWidth (.outOfRange (bytes "vector::_M_range_check"))
  | missing {name : Bytes} (hname : name ∈ requiredTextTensors model.textConfig)
      (h : model.textTensor name = none) :
      Refuses model backend tokenCount visualWidth (missingTextTensor name)
  | unsupportedOp {graph : Graph} {op : Bytes} (h : backend.unsupportedOp graph = some op) :
      Refuses model backend tokenCount visualWidth
        (.runtimeError (bytes "unsupported Prefill graph op on selected backend: " ++ op))
  | compute {graph : Graph} {status : Bytes} (h : backend.compute graph = .error status) :
      Refuses model backend tokenCount visualWidth
        (.runtimeError (bytes "prefill graph compute failed: " ++ status))

/-! ## Row functions -/

instance : Inhabited GgufTensor := ⟨⟨[], .other, 0, 0#32⟩⟩

section Rows
variable {Row : Type} (ops : TensorOps Row) (model : ModelBundle) (cacheType : CacheType)
  (layer : Nat)

/-- The weights of a model that has all of them. -/
def textWeight (name : Bytes) : GgufTensor := (model.textTensor name).getD default

def layerWeight (suffix : String) : GgufTensor := textWeight model (blockTensor layer (bytes suffix))

def norm (weight : GgufTensor) (row : Row) : Row :=
  rmsNorm ops weight model.textConfig.layerNormEpsilon row

def sliding : Bool := model.textConfig.slidingWindowPattern.getD layer false

def heads : HeadConfig := headConfig model model.textConfig (sliding model layer)

def attentionInput (row : Row) : Row := norm ops model (layerWeight model layer "attn_norm.weight") row

def queryRow (position : Nat) (current : Row) : Row :=
  rope ops (heads model layer) (int32 position)
    (norm ops model (layerWeight model layer "attn_q_norm.weight")
      (ops.reshape (heads model layer).headSize model.textConfig.headCount
        (ops.mulMat (layerWeight model layer "attn_q.weight") current)))

def keyRow (position : Nat) (current : Row) : Row :=
  ops.cast cacheType (rope ops (heads model layer) (int32 position)
    (norm ops model (layerWeight model layer "attn_k_norm.weight")
      (ops.reshape (heads model layer).headSize model.textConfig.headCountKv
        (ops.mulMat (layerWeight model layer "attn_k.weight") current))))

def valueRow (current : Row) : Row :=
  ops.cast cacheType (ops.rmsNorm model.textConfig.layerNormEpsilon
    (ops.reshape (heads model layer).valueSize model.textConfig.headCountKv
      (ops.mulMat (layerWeight model layer "attn_v.weight") current)))

def attendedRow (query : Row) (entries : List (Nat × Row × Row)) : Row :=
  ops.attention cacheType query <| entries.map fun (position, key, value) =>
    (position,
      ops.reshape (heads model layer).headSize model.textConfig.headCountKv key,
      ops.reshape (heads model layer).valueSize model.textConfig.headCountKv value)

def attentionOutputRow (input attended : Row) : Row :=
  ops.add (norm ops model (layerWeight model layer "post_attention_norm.weight")
    (ops.mulMat (layerWeight model layer "attn_output.weight") attended)) input

def feedForwardRow (attentionOutput : Row) : Row :=
  let current := norm ops model (layerWeight model layer "ffn_norm.weight") attentionOutput
  let gated := ops.geglu (ops.mulMat (layerWeight model layer "ffn_gate.weight") current)
    (ops.mulMat (layerWeight model layer "ffn_up.weight") current)
  ops.add (norm ops model (layerWeight model layer "post_ffw_norm.weight")
    (ops.mulMat (layerWeight model layer "ffn_down.weight") gated)) attentionOutput

def scaledRow (row : Row) : Row :=
  match model.textTensor (blockTensor layer (bytes "layer_output_scale.weight")) with
  | some scale => ops.mul row (ops.weight scale)
  | none => row

def layerOutputRow (perLayer residual : Row) : Row :=
  let gate := ops.gelu (ops.mulMat (layerWeight model layer "inp_gate.weight") residual)
  let mixed := ops.mul gate (ops.slice model.textConfig.perLayerEmbeddingLength layer perLayer)
  scaledRow ops model layer (ops.add residual
    (norm ops model (layerWeight model layer "post_norm.weight")
      (ops.mulMat (layerWeight model layer "proj.weight") mixed)))

def perLayerRow (id : TokenId) (input : Row) : Row :=
  let embedded := ops.scale (.sqrt model.textConfig.perLayerEmbeddingLength)
    (ops.reshape model.textConfig.perLayerEmbeddingLength model.textConfig.blockCount
      (ops.getRow (textWeight model (bytes "per_layer_token_embd.weight")) id))
  let projected := norm ops model (textWeight model (bytes "per_layer_proj_norm.weight"))
    (ops.reshape model.textConfig.perLayerEmbeddingLength model.textConfig.blockCount
      (ops.scale (.inverseSqrt model.textConfig.embeddingLength)
        (ops.mulMat (textWeight model (bytes "per_layer_model_proj.weight")) input)))
  ops.scale (.inverseSqrt 2) (ops.add projected embedded)

def logitsRow (input : Row) : Row :=
  softcap ops model.textConfig.finalLogitSoftcap
    (ops.mulMat (textWeight model (bytes "token_embd.weight"))
      (norm ops model (textWeight model (bytes "output_norm.weight")) input))

end Rows

/-! ## The pass -/

section Pass
variable {Row : Type} (ops : TensorOps Row) (model : ModelBundle) (cacheType : CacheType)

/-- The window of a layer, zero for full attention. -/
def window (layer : Nat) : Nat := if sliding model layer then model.textConfig.slidingWindow else 0

def visible (window query key : Nat) : Bool := key ≤ query && (window = 0 || query < key + window)

/-- A layer without its own cache reads the last layer before it of its kind that has one. -/
def sharedSource (layer : Nat) : Nat :=
  if layer < model.textConfig.storedLayers then layer
  else model.textConfig.storedLayers - if sliding model layer then 2 else 1

theorem sharedSource_le (layer : Nat) : sharedSource model layer ≤ layer := by
  unfold sharedSource
  split <;> omega

/-- `perLayer` are the per-layer inputs of the positions. -/
def layerStack (perLayer : Nat → Row) : Stack Row (Row × Row) where
  source := sharedSource model
  source_le := sharedSource_le model
  entry layer position row :=
    let current := attentionInput ops model layer row
    (keyRow ops model cacheType layer position current, valueRow ops model cacheType layer current)
  visible layer query key := visible (window model layer) query key
  causal := by
    intro layer query key h
    rw [visible, Bool.and_eq_true, decide_eq_true_eq] at h
    exact h.1
  output layer position row entries :=
    let query := queryRow ops model layer position (attentionInput ops model layer row)
    let attended := attendedRow ops model cacheType layer query entries
    layerOutputRow ops model layer (perLayer position)
      (feedForwardRow ops model layer (attentionOutputRow ops model layer row attended))

/-- A sequence: the input row and the per-layer id of each position. -/
structure Sequence (Row : Type) where
  length : Nat
  input : Nat → Row
  ids : Nat → TokenId

variable (sequence : Sequence Row)

def wholePass : Stack Row (Row × Row) :=
  layerStack ops model cacheType fun position =>
    perLayerRow ops model (sequence.ids position) (sequence.input position)

/-- The row of a position before a layer. -/
def hiddenRow (layer position : Nat) : Row :=
  (wholePass ops model cacheType sequence).hidden sequence.length sequence.input layer position

def cachedKey (layer position : Nat) : Row :=
  ((wholePass ops model cacheType sequence).cached sequence.length sequence.input layer position).1

def cachedValue (layer position : Nat) : Row :=
  ((wholePass ops model cacheType sequence).cached sequence.length sequence.input layer position).2

def finalLogits : Row :=
  logitsRow ops model
    (hiddenRow ops model cacheType sequence model.textConfig.blockCount (sequence.length - 1))

end Pass

end PrefillEngine

end Branchscore
