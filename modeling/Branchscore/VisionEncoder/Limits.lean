import Branchscore.VisionEncoder.Graph

/-!
# The clamp limits of the vision graph

The graph multiplies by the projections of its blocks and by the final one, each between the
limits that `clipped_mm` reads, and by no other weight.
-/

namespace Branchscore

open Foundation Outcome
set_option autoImplicit false

namespace VisionEncoder

/-- The name without `.weight`. -/
def stem (name : Bytes) : Bytes := name.take (name.length - 7)

def clampSuffixes : List Bytes :=
  [".input_min", ".input_max", ".output_min", ".output_max"].map bytes

def clippedSuffixes : List Bytes :=
  ["attn_q.weight", "attn_k.weight", "attn_v.weight", "attn_out.weight", "ffn_up.weight",
    "ffn_gate.weight", "ffn_down.weight"].map bytes

/-- The weights that the graph multiplies through `clipped_mm`. -/
def clippedWeights (config : VisionModelConfig) : List Bytes :=
  (List.range config.blockCount).flatMap (fun layer =>
    clippedSuffixes.map (visionBlockTensor layer)) ++ [bytes "mm.input_projection.weight"]

theorem clippedSuffixes_weight {suffix : Bytes} (h : suffix ∈ clippedSuffixes) :
    ∃ name, suffix = name ++ bytes ".weight" := by
  have hall : ∀ suffix ∈ clippedSuffixes,
      suffix = suffix.take (suffix.length - 7) ++ bytes ".weight" := by decide
  exact ⟨_, hall suffix h⟩

theorem stem_visionBlockTensor (layer : Nat) (name : Bytes) :
    stem (visionBlockTensor layer (name ++ bytes ".weight")) = visionBlockTensor layer name := by
  have hlength : (bytes ".weight").length = 7 := by decide
  unfold visionBlockTensor
  rw [← List.append_assoc, stem, List.length_append, hlength, Nat.add_sub_cancel, List.take_left]

theorem stem_projection : stem (bytes "mm.input_projection.weight") =
    bytes "mm.input_projection" := by decide

/-! ## The limits of one product -/

/-- The bounds that `clipped_mm` reads for a weight. -/
def clampLimits (model : ModelBundle) (weight : GgufTensor) : Except Exception ClampLimits := do
  return {
    inputMin := ← model.visionScalar (stem weight.name ++ bytes ".input_min") minimum
    inputMax := ← model.visionScalar (stem weight.name ++ bytes ".input_max") maximum
    outputMin := ← model.visionScalar (stem weight.name ++ bytes ".output_min") minimum
    outputMax := ← model.visionScalar (stem weight.name ++ bytes ".output_max") maximum }

/-- What one bound is read for: the end of its tensor's name and the value without that tensor. -/
structure ClampBound where
  suffix : Bytes
  fallback : Float32Bits
  value : Float32Bits

def clampBounds (limits : ClampLimits) : List ClampBound :=
  [⟨bytes ".input_min", minimum, limits.inputMin⟩, ⟨bytes ".input_max", maximum, limits.inputMax⟩,
    ⟨bytes ".output_min", minimum, limits.outputMin⟩,
    ⟨bytes ".output_max", maximum, limits.outputMax⟩]

theorem clampLimits_eq_ok {model : ModelBundle} {weight : GgufTensor} {limits : ClampLimits} :
    clampLimits model weight = .ok limits ↔ ∀ bound ∈ clampBounds limits,
      model.visionScalar (stem weight.name ++ bound.suffix) bound.fallback = .ok bound.value := by
  unfold clampLimits clampBounds
  simp only [List.forall_mem_cons, List.not_mem_nil, false_implies, implies_true, and_true]
  constructor
  · intro h
    obtain ⟨inputMin, hinputMin, h⟩ := bind_eq_ok.mp h
    obtain ⟨inputMax, hinputMax, h⟩ := bind_eq_ok.mp h
    obtain ⟨outputMin, houtputMin, h⟩ := bind_eq_ok.mp h
    obtain ⟨outputMax, houtputMax, h⟩ := bind_eq_ok.mp h
    cases h
    exact ⟨hinputMin, hinputMax, houtputMin, houtputMax⟩
  · rintro ⟨hinputMin, hinputMax, houtputMin, houtputMax⟩
    rw [hinputMin, ok_bind, hinputMax, ok_bind, houtputMin, ok_bind, houtputMax, ok_bind]
    rfl

theorem mem_clampSuffixes {limits : ClampLimits} {bound : ClampBound}
    (h : bound ∈ clampBounds limits) : bound.suffix ∈ clampSuffixes := by
  have hsuffixes : (clampBounds limits).map ClampBound.suffix = clampSuffixes := rfl
  rw [← hsuffixes]
  exact List.mem_map_of_mem h

/-- Whatever the tensors are, `clipped_mm` multiplies by this weight between these limits. -/
def Clips (model : ModelBundle) (weight : GgufTensor) (limits : ClampLimits) : Prop :=
  ∀ (Tensor Row : Type) (ops : VisionOps Tensor Row) (input : Tensor),
    clippedMm ops model weight input = .ok (limits.clip ops weight input)

/-- The product by the weight of this name. -/
structure Multiplies (model : ModelBundle) (name : Bytes) (product : WeightProduct) : Prop where
  weight : model.visionTensor name = some product.weight
  clips : ∃ limits, product.limits = some limits ∧ Clips model product.weight limits

section Products
variable {Tensor Row : Type} (ops : VisionOps Tensor Row) {model : ModelBundle}

theorem clippedMm_eq (weight : GgufTensor) (input : Tensor) :
    clippedMm ops model weight input =
      (clampLimits model weight).map fun limits => limits.clip ops weight input := by
  unfold clampLimits
  symm
  apply map_bind
  intro inputMin
  apply map_bind
  intro inputMax
  apply map_bind
  intro outputMin
  apply map_bind
  intro outputMax
  rfl

/-- The nodes tell the limits apart. -/
theorem clip_inj {weight : GgufTensor} {input : VisionNode}
    {limits limits' : ClampLimits}
    (h : limits.clip ops.nodes weight input = limits'.clip ops.nodes weight input) :
    limits = limits' := by
  cases limits
  cases limits'
  injection h with houtMin houtMax h
  injection h with _ h
  injection h with hinMin hinMax _
  subst houtMin houtMax hinMin hinMax
  rfl

theorem clips_iff {weight : GgufTensor} {limits : ClampLimits} :
    Clips model weight limits ↔ clampLimits model weight = .ok limits := by
  constructor
  · intro h
    have hnodes := h _ _ (default : VisionOps Unit Unit).nodes (.positions [])
    rw [clippedMm_eq] at hnodes
    cases hlimits : clampLimits model weight with
    | error e =>
      rw [hlimits] at hnodes
      cases hnodes
    | ok other =>
      rw [hlimits] at hnodes
      rw [clip_inj default (Except.ok.inj hnodes)]
  · intro h Tensor Row ops input
    rw [clippedMm_eq, h]
    rfl

theorem requireTensor_some (name : Bytes) :
    Ends (fun _ => True) (fun weight => model.visionTensor name = some weight)
      (requireTensor model name) := by
  unfold requireTensor
  split
  next h => exact h
  next => trivial

theorem clippedMm_products {name : Bytes} {weight : GgufTensor}
    (hweight : model.visionTensor name = some weight) (input : VisionNode) :
    Ends (fun _ => True)
      (fun node => ∀ product, product ∈ node.products ↔
        Multiplies model name product ∨ product ∈ input.products)
      (clippedMm ops.nodes model weight input) := by
  rw [clippedMm_eq]
  cases hlimits : clampLimits model weight with
  | error e => trivial
  | ok limits =>
    intro product
    have hcons : (limits.clip ops.nodes weight input).products =
        ⟨weight, some limits⟩ :: input.products := rfl
    rw [hcons, List.mem_cons]
    apply or_congr_left
    constructor
    · rintro rfl
      exact ⟨hweight, limits, rfl, clips_iff.mpr hlimits⟩
    · rintro ⟨hfound, other, hsome, hother⟩
      obtain ⟨tensor, _⟩ := product
      obtain rfl := Option.some.inj (hweight.symm.trans hfound)
      cases hsome
      rw [Except.ok.inj (hlimits.symm.trans (clips_iff.mp hother))]

theorem rmsNorm_products (weight : GgufTensor) (epsilon : Float32Bits) (input : VisionNode) :
    (rmsNorm ops.nodes weight epsilon input).products = input.products :=
  List.append_nil _

theorem addRope_products {posX posY : VisionNode} (hposX : posX.products = [])
    (hposY : posY.products = []) (input : VisionNode) :
    (addRope ops.nodes posX posY input).products = input.products := by
  have hrope : (addRope ops.nodes posX posY input).products =
    posY.products ++ (posX.products ++ input.products) := rfl
  rw [hrope, hposX, hposY]
  rfl

/-- Both ways of attention multiply the three projections with each other only. -/
theorem mem_attended (flash : Bool) (query key value : VisionNode) {product : WeightProduct} :
    product ∈ (if flash then
        ops.nodes.flashAttention (ops.nodes.permute [0, 2, 1, 3] query)
          (ops.nodes.castF16 (ops.nodes.permute [0, 2, 1, 3] key))
          (ops.nodes.castF16 (ops.nodes.permute [0, 2, 1, 3] value))
      else
        ops.nodes.permute [0, 2, 1, 3] (ops.nodes.mulMat (ops.nodes.permute [1, 2, 0, 3] value)
          (ops.nodes.softMax (ops.nodes.mulMat (ops.nodes.permute [0, 2, 1, 3] key)
            (ops.nodes.permute [0, 2, 1, 3] query))))).products ↔
      product ∈ query.products ∨ product ∈ key.products ∨ product ∈ value.products := by
  cases flash with
  | true =>
    change product ∈ query.products ++ key.products ++ value.products ↔ _
    rw [List.mem_append, List.mem_append, or_assoc]
  | false =>
    change product ∈ value.products ++ (key.products ++ query.products) ↔ _
    rw [List.mem_append, List.mem_append, or_comm, or_comm (a := product ∈ key.products), or_assoc]

theorem or_shared {query key value out input : Prop} :
    (out ∨ (query ∨ input) ∨ (key ∨ input) ∨ value ∨ input) ↔
      (query ∨ key ∨ value ∨ out) ∨ input := by
  tauto

theorem or_shared_residual {query key value out up gate down input : Prop} :
    (((query ∨ key ∨ value ∨ out) ∨ input) ∨ input) ∨
        down ∨ (gate ∨ ((query ∨ key ∨ value ∨ out) ∨ input) ∨ input) ∨
          up ∨ ((query ∨ key ∨ value ∨ out) ∨ input) ∨ input ↔
      (query ∨ key ∨ value ∨ out ∨ up ∨ gate ∨ down) ∨ input := by
  tauto

variable (config : VisionModelConfig) (flash : Bool) (layer positionCount : Nat)
  {posX posY : VisionNode} (hposX : posX.products = []) (hposY : posY.products = [])
include hposX hposY

theorem attention_products (input : VisionNode) :
    Ends (fun _ => True)
      (fun node => ∀ product, product ∈ node.products ↔
        (∃ suffix ∈ ["attn_q.weight", "attn_k.weight", "attn_v.weight", "attn_out.weight"],
          Multiplies model (visionBlockTensor layer (bytes suffix)) product) ∨
        product ∈ input.products)
      (attention ops.nodes model config flash layer positionCount posX posY input) := by
  unfold attention
  split
  · trivial
  refine (requireTensor_some _).bind fun queryWeight hqueryWeight => ?_
  refine (clippedMm_products ops hqueryWeight input).bind fun query hquery => ?_
  refine (requireTensor_some _).bind fun keyWeight hkeyWeight => ?_
  refine (clippedMm_products ops hkeyWeight input).bind fun key hkey => ?_
  refine (requireTensor_some _).bind fun valueWeight hvalueWeight => ?_
  refine (clippedMm_products ops hvalueWeight input).bind fun value hvalue => ?_
  refine (requireTensor_some _).bind fun queryNorm _ => ?_
  refine (requireTensor_some _).bind fun keyNorm _ => ?_
  refine (requireTensor_some _).bind fun outWeight houtWeight => ?_
  refine (clippedMm_products ops houtWeight _).mono fun node hnode product => ?_
  refine (hnode product).trans ((or_congr_right (mem_attended ops flash _ _ _)).trans ?_)
  rw [addRope_products ops hposX hposY, addRope_products ops hposX hposY, rmsNorm_products,
    rmsNorm_products]
  refine (or_congr_right (or_congr (hquery product)
    (or_congr (hkey product) (hvalue product)))).trans ?_
  simp only [List.mem_cons, List.not_mem_nil, or_false, exists_eq_or_imp, exists_eq_left]
  exact or_shared

theorem transformerLayer_products (input : VisionNode) :
    Ends (fun _ => True)
      (fun node => ∀ product, product ∈ node.products ↔
        (∃ suffix ∈ clippedSuffixes, Multiplies model (visionBlockTensor layer suffix) product) ∨
        product ∈ input.products)
      (transformerLayer ops.nodes model config flash layer positionCount posX posY input) := by
  unfold transformerLayer
  refine (requireTensor_some _).bind fun norm _ => ?_
  refine (attention_products ops config flash layer positionCount hposX hposY _).bind
    fun attended hattended => ?_
  refine (requireTensor_some _).bind fun postNorm _ => ?_
  refine (requireTensor_some _).bind fun secondNorm _ => ?_
  refine (requireTensor_some _).bind fun upWeight hupWeight => ?_
  refine (clippedMm_products ops hupWeight _).bind fun up hup => ?_
  refine (requireTensor_some _).bind fun gateWeight hgateWeight => ?_
  refine (clippedMm_products ops hgateWeight _).bind fun gate hgate => ?_
  refine (requireTensor_some _).bind fun downWeight hdownWeight => ?_
  refine (clippedMm_products ops hdownWeight _).bind fun down hdown => ?_
  refine (requireTensor_some _).bind fun finalNorm _ => ?_
  intro product
  rw [rmsNorm_products] at hattended hup hgate
  have hresidual : product ∈ (ops.nodes.add (rmsNorm ops.nodes postNorm config.layerNormEpsilon
      attended) input).products ↔ product ∈ attended.products ∨ product ∈ input.products := by
    rw [← List.mem_append, ← rmsNorm_products ops postNorm config.layerNormEpsilon attended]
    rfl
  have hgated : product ∈ (ops.nodes.gegluQuick gate up).products ↔
      product ∈ gate.products ∨ product ∈ up.products := List.mem_append
  have hsum : product ∈ (ops.nodes.add (ops.nodes.add (rmsNorm ops.nodes postNorm
      config.layerNormEpsilon attended) input) (rmsNorm ops.nodes finalNorm
      config.layerNormEpsilon down)).products ↔
        (product ∈ attended.products ∨ product ∈ input.products) ∨ product ∈ down.products := by
    rw [← hresidual, ← List.mem_append,
      ← rmsNorm_products ops finalNorm config.layerNormEpsilon down]
    rfl
  refine hsum.trans ?_
  rw [hdown, hgated, hgate, hup, hresidual, hattended]
  simp only [clippedSuffixes, List.map_cons, List.map_nil, List.mem_cons, List.not_mem_nil,
    or_false, exists_eq_or_imp, exists_eq_left]
  exact or_shared_residual

theorem layers_products (count : Nat) {input : VisionNode} (hinput : input.products = []) :
    Ends (fun _ => True)
      (fun node => ∀ product, product ∈ node.products ↔
        ∃ layer < count, ∃ suffix ∈ clippedSuffixes,
          Multiplies model (visionBlockTensor layer suffix) product)
      ((List.range count).foldlM (fun current layer => transformerLayer ops.nodes model config
        flash layer positionCount posX posY current) input) := by
  apply Ends.foldlM_range (I := fun count (node : VisionNode) => ∀ product,
    product ∈ node.products ↔ ∃ layer < count, ∃ suffix ∈ clippedSuffixes,
      Multiplies model (visionBlockTensor layer suffix) product)
  · intro product
    rw [hinput]
    exact ⟨fun h => absurd h List.not_mem_nil, fun ⟨_, h, _⟩ => absurd h (Nat.not_lt_zero _)⟩
  · intro layer _ current hcurrent
    refine (transformerLayer_products ops config flash layer positionCount hposX hposY
      current).mono fun node hnode product => ?_
    rw [hnode, hcurrent]
    constructor
    · rintro (h | ⟨l, hl, h⟩)
      · exact ⟨layer, Nat.lt_succ_self layer, h⟩
      · exact ⟨l, Nat.lt_succ_of_lt hl, h⟩
    · rintro ⟨l, hl, h⟩
      rcases Nat.lt_succ_iff_lt_or_eq.mp hl with hl | rfl
      · exact .inr ⟨l, hl, h⟩
      · exact .inl h

omit hposX hposY

/-- The graph multiplies by the weights of the list, each time between its limits. -/
theorem buildVisionGraph_products (backend : BackendContext) (image : PreparedImage) :
    Ends (fun _ => True)
      (fun graph => ∀ product, product ∈ graph.products ↔
        ∃ name ∈ clippedWeights model.visionConfig, Multiplies model name product)
      (buildVisionGraph ops.nodes model flash backend image) := by
  have hweights (product : WeightProduct) :
      (∃ name ∈ clippedWeights model.visionConfig, Multiplies model name product) ↔
        Multiplies model (bytes "mm.input_projection.weight") product ∨
        ∃ layer < model.visionConfig.blockCount, ∃ suffix ∈ clippedSuffixes,
          Multiplies model (visionBlockTensor layer suffix) product := by
    constructor
    · rintro ⟨name, hname, h⟩
      rcases List.mem_append.mp hname with hname | hname
      · obtain ⟨layer, hlayer, hname⟩ := List.mem_flatMap.mp hname
        obtain ⟨suffix, hsuffix, rfl⟩ := List.mem_map.mp hname
        exact .inr ⟨layer, List.mem_range.mp hlayer, suffix, hsuffix, h⟩
      · rw [List.mem_singleton.mp hname] at h
        exact .inl h
    · rintro (h | ⟨layer, hlayer, suffix, hsuffix, h⟩)
      · exact ⟨_, List.mem_append_right _ List.mem_cons_self, h⟩
      · refine ⟨_, List.mem_append_left _ (List.mem_flatMap.mpr ?_), h⟩
        exact ⟨layer, List.mem_range.mpr hlayer, List.mem_map_of_mem hsuffix⟩
  unfold buildVisionGraph
  refine Ends.bind (Q := fun _ => True) ?_ fun positionCount _ => ?_
  · cases image.patchCount model.visionConfig <;> trivial
  refine Ends.bind (Q := fun _ => True) ?_ fun outputTokens _ => ?_
  · cases image.visualTokenCount model.visionConfig <;> trivial
  refine Ends.bind (Q := fun _ => True) ?_ fun _ _ => ?_
  · cases backend.allocate (.visionContext flash) <;> trivial
  refine (requireTensor_some _).bind fun kernel _ => ?_
  refine (requireTensor_some _).bind fun positions _ => ?_
  refine (layers_products ops model.visionConfig flash positionCount rfl rfl _ rfl).bind
    fun current hcurrent => ?_
  refine (requireTensor_some _).bind fun weight hweight => ?_
  refine (clippedMm_products ops hweight _).mono fun graph hgraph product => ?_
  rw [hgraph, hweights, ← hcurrent]
  rfl

end Products

end VisionEncoder

end Branchscore
