import Branchscore.ModelLoader.Coverage
import Branchscore.VisionEncoder.Limits

/-!
# Clamp limits in the file and clamp limits in the graph

The loader keeps the tensors whose names start with `v.` and the projection weight. The
limits of the blocks start with `v.`, those of the projection do not.
-/

namespace Branchscore

open Foundation Outcome
set_option autoImplicit false

namespace ModelLoader

open VisionEncoder (stem clampSuffixes clippedWeights clippedSuffixes_weight
  stem_visionBlockTensor stem_projection clampBounds mem_clampSuffixes clampLimits_eq_ok clips_iff
  Multiplies buildVisionGraph buildVisionGraph_eval buildVisionGraph_products)

/-- A tensor from which a limit can be read. -/
def IsScalar (tensor : GgufTensor) : Prop := tensor.type = .f32 ∧ tensor.elementCount = 1

def HasScalar (gguf : Gguf) (name : Bytes) : Prop :=
  ∃ tensor ∈ gguf.tensors, tensor.name = name ∧ IsScalar tensor

instance (tensor : GgufTensor) : Decidable (IsScalar tensor) :=
  inferInstanceAs (Decidable (_ ∧ _))

instance (gguf : Gguf) (name : Bytes) : Decidable (HasScalar gguf name) :=
  inferInstanceAs (Decidable (∃ tensor ∈ gguf.tensors, _))

/-- A scalar of this name in the file is the limit, and the fallback is for files without. -/
structure LimitOfFile (model : ModelBundle) (name : Bytes) (fallback value : Float32Bits) :
    Prop where
  scalar : ∀ tensor ∈ model.visionWeights.gguf.tensors, tensor.name = name → IsScalar tensor →
    value = tensor.value
  noScalar : ¬HasScalar model.visionWeights.gguf name → value = fallback
  notFound : model.visionTensor name = none → ¬HasScalar model.visionWeights.gguf name

/-- A product between two clamps whose four limits are those of the file for its weight. -/
def ClampedAsInFile (model : ModelBundle) (product : WeightProduct) : Prop :=
  ∃ limits, product.limits = some limits ∧ ∀ bound ∈ clampBounds limits,
    LimitOfFile model (stem product.weight.name ++ bound.suffix) bound.fallback bound.value

section Load
variable {files : ModelFiles} {textModelPath mmprojPath : Bytes} {model : ModelBundle}

theorem load_visionWeights (h : load files textModelPath mmprojPath = .ok model) :
    files.read mmprojPath = some model.visionWeights.gguf ∧
    model.visionWeights.tensors =
      model.visionWeights.gguf.tensors.filter fun tensor => isVisionTensor tensor.name := by
  obtain ⟨textWeights, -, h⟩ := bind_eq_ok.mp h
  obtain ⟨textConfig, -, h⟩ := bind_eq_ok.mp h
  obtain ⟨⟨⟩, -, h⟩ := bind_eq_ok.mp h
  obtain ⟨visionWeights, hvision, h⟩ := bind_eq_ok.mp h
  obtain ⟨visionConfig, -, h⟩ := bind_eq_ok.mp h
  obtain ⟨⟨⟩, -, h⟩ := bind_eq_ok.mp h
  obtain ⟨_, -, h⟩ := bind_eq_ok.mp h
  cases h
  obtain ⟨gguf, hread, rfl⟩ := weights_eq_ok hvision
  exact ⟨hread, rfl⟩

theorem find?_of_unique {tensors : List GgufTensor} {tensor : GgufTensor}
    (hunique : (tensors.map GgufTensor.name).Nodup) (h : tensor ∈ tensors) :
    tensors.find? (fun other => other.name = tensor.name) = some tensor := by
  induction tensors with
  | nil => cases h
  | cons head tensors ih =>
    obtain ⟨hhead, htail⟩ := List.nodup_cons.mp hunique
    rcases List.mem_cons.mp h with rfl | h
    · exact List.find?_cons_of_pos (by simp)
    · rw [List.find?_cons_of_neg]
      · exact ih htail h
      · intro heq
        apply hhead
        rw [of_decide_eq_true heq]
        exact List.mem_map_of_mem h

theorem visionTensor_of_selected (h : load files textModelPath mmprojPath = .ok model)
    {name : Bytes} (hname : isVisionTensor name = true) :
    model.visionTensor name =
      model.visionWeights.gguf.tensors.find? fun tensor => tensor.name = name := by
  rw [ModelBundle.visionTensor, LoadedWeights.tensor, (load_visionWeights h).2,
    List.find?_filter]
  congr 1
  funext tensor
  by_cases heq : tensor.name = name
  · simp [heq, hname]
  · simp [heq]

theorem visionTensor_of_not_selected (h : load files textModelPath mmprojPath = .ok model)
    {name : Bytes} (hname : isVisionTensor name = false) : model.visionTensor name = none := by
  rw [ModelBundle.visionTensor, LoadedWeights.tensor, (load_visionWeights h).2,
    List.find?_eq_none]
  intro tensor htensor heq
  have hselected := (List.mem_filter.mp htensor).2
  rw [of_decide_eq_true heq, hname] at hselected
  cases hselected

theorem limitOfFile_of_selected (h : load files textModelPath mmprojPath = .ok model)
    (hunique : (model.visionWeights.gguf.tensors.map GgufTensor.name).Nodup) {name : Bytes}
    {fallback value : Float32Bits} (hname : isVisionTensor name = true)
    (hscalar : model.visionScalar name fallback = .ok value) :
    LimitOfFile model name fallback value := by
  unfold ModelBundle.visionScalar at hscalar
  rw [visionTensor_of_selected h hname] at hscalar
  refine ⟨?_, ?_, ?_⟩
  · rintro tensor htensor rfl ⟨htype, hcount⟩
    rw [find?_of_unique hunique htensor] at hscalar
    dsimp only at hscalar
    rw [if_neg (by simp [htype, hcount])] at hscalar
    exact (Except.ok.inj hscalar).symm
  · intro hnone
    split at hscalar
    next => exact (Except.ok.inj hscalar).symm
    next tensor hfind =>
      split at hscalar
      next => cases hscalar
      next hshape =>
        rw [not_or, not_not, not_not] at hshape
        have hfound := List.find?_some hfind
        exact absurd ⟨tensor, List.mem_of_find?_eq_some hfind, of_decide_eq_true hfound, hshape⟩
          hnone
  · rintro hnone ⟨tensor, htensor, rfl, -⟩
    rw [visionTensor_of_selected h hname, find?_of_unique hunique htensor] at hnone
    cases hnone

theorem visionScalar_of_not_selected (h : load files textModelPath mmprojPath = .ok model)
    {name : Bytes} (hname : isVisionTensor name = false) (fallback : Float32Bits) :
    model.visionScalar name fallback = .ok fallback := by
  unfold ModelBundle.visionScalar
  rw [visionTensor_of_not_selected h hname]

theorem limitOfFile_of_not_selected (h : load files textModelPath mmprojPath = .ok model)
    {name : Bytes} (hname : isVisionTensor name = false) (fallback : Float32Bits) :
    LimitOfFile model name fallback fallback ↔ ¬HasScalar model.visionWeights.gguf name := by
  constructor
  · intro hlimit
    exact hlimit.notFound (visionTensor_of_not_selected h hname)
  · intro hnone
    refine ⟨?_, fun _ => rfl, fun _ => hnone⟩
    intro tensor htensor heq hscalar
    exact absurd ⟨tensor, htensor, heq, hscalar⟩ hnone

theorem isVisionTensor_block (layer : Nat) (name : Bytes) :
    isVisionTensor (visionBlockTensor layer name) = true := by
  have hprefix : bytes "v.blk." = bytes "v." ++ bytes "blk." := by decide
  have hlength : (bytes "v.").length = 2 := by decide
  rw [isVisionTensor, visionBlockTensor, hprefix]
  simp only [List.append_assoc]
  rw [← hlength, List.take_left]
  simp

theorem isVisionTensor_projection {suffix : Bytes} (h : suffix ∈ clampSuffixes) :
    isVisionTensor (bytes "mm.input_projection" ++ suffix) = false := by
  have hall : ∀ suffix ∈ clampSuffixes,
      isVisionTensor (bytes "mm.input_projection" ++ suffix) = false := by decide
  exact hall suffix h

theorem isVisionTensor_blockLimit {layer : Nat} {weightSuffix suffix : Bytes}
    (h : weightSuffix ∈ VisionEncoder.clippedSuffixes) :
    isVisionTensor (stem (visionBlockTensor layer weightSuffix) ++ suffix) = true := by
  obtain ⟨name, rfl⟩ := clippedSuffixes_weight h
  rw [stem_visionBlockTensor]
  have hblock := isVisionTensor_block layer (name ++ suffix)
  unfold visionBlockTensor at hblock ⊢
  simp only [List.append_assoc] at hblock ⊢
  exact hblock

theorem visionTensor_name {name : Bytes} {tensor : GgufTensor}
    (h : model.visionTensor name = some tensor) : tensor.name = name := by
  have hfind : model.visionWeights.tensors.find? (fun tensor => tensor.name = name) =
      some tensor := h
  simpa using List.find?_some hfind

/-- The product by the projection, which finds none of its limits. -/
theorem multiplies_projection (h : load files textModelPath mmprojPath = .ok model) :
    ∃ weight, weight.name = bytes "mm.input_projection.weight" ∧
      Multiplies model weight.name
        ⟨weight, some ⟨VisionEncoder.minimum, VisionEncoder.maximum, VisionEncoder.minimum,
          VisionEncoder.maximum⟩⟩ := by
  obtain ⟨_, _, _, _, _, hvision⟩ := load_eq_ok h
  have hsome := validateVisionTensors_eq_ok hvision
    (List.mem_append_left _ (by decide : bytes "mm.input_projection.weight" ∈ visionTensorNames))
  obtain ⟨weight, hweight⟩ := Option.isSome_iff_exists.mp hsome
  have hname := visionTensor_name hweight
  refine ⟨weight, hname, ?_, _, rfl, clips_iff.mpr (clampLimits_eq_ok.mpr ?_)⟩
  · rw [hname]
    exact hweight
  · rw [hname, stem_projection]
    intro bound hbound
    rw [visionScalar_of_not_selected h (isVisionTensor_projection (mem_clampSuffixes hbound))]
    simp only [clampBounds, List.mem_cons, List.not_mem_nil, or_false] at hbound
    rcases hbound with rfl | rfl | rfl | rfl <;> rfl

theorem clampedAsInFile_block (h : load files textModelPath mmprojPath = .ok model)
    (hunique : (model.visionWeights.gguf.tensors.map GgufTensor.name).Nodup) {layer : Nat}
    {suffix : Bytes} (hsuffix : suffix ∈ VisionEncoder.clippedSuffixes) {product : WeightProduct}
    (hproduct : Multiplies model (visionBlockTensor layer suffix) product) :
    ClampedAsInFile model product := by
  obtain ⟨hweight, limits, hlimits, hclips⟩ := hproduct
  refine ⟨limits, hlimits, fun bound hbound => ?_⟩
  have hscalar := clampLimits_eq_ok.mp (clips_iff.mp hclips) bound hbound
  rw [visionTensor_name hweight] at hscalar ⊢
  exact limitOfFile_of_selected h hunique (isVisionTensor_blockLimit hsuffix) hscalar

theorem clampedAsInFile_projection_iff (h : load files textModelPath mmprojPath = .ok model)
    {product : WeightProduct}
    (hproduct : Multiplies model (bytes "mm.input_projection.weight") product) :
    ClampedAsInFile model product ↔ ∀ suffix ∈ clampSuffixes,
      ¬HasScalar model.visionWeights.gguf (bytes "mm.input_projection" ++ suffix) := by
  obtain ⟨weight, limits⟩ := product
  obtain ⟨hweight, limits, rfl, hclips⟩ := hproduct
  have hname := visionTensor_name hweight
  dsimp only at hname hclips
  have hscalar := clampLimits_eq_ok.mp (clips_iff.mp hclips)
  rw [hname, stem_projection] at hscalar
  have hlimit (bound : VisionEncoder.ClampBound) (hbound : bound ∈ clampBounds limits) :
      LimitOfFile model (bytes "mm.input_projection" ++ bound.suffix) bound.fallback bound.value ↔
        ¬HasScalar model.visionWeights.gguf (bytes "mm.input_projection" ++ bound.suffix) := by
    have hselected := isVisionTensor_projection (mem_clampSuffixes hbound)
    have hvalue := (visionScalar_of_not_selected h hselected bound.fallback).symm.trans
      (hscalar bound hbound)
    rw [← Except.ok.inj hvalue]
    exact limitOfFile_of_not_selected h hselected bound.fallback
  constructor
  · rintro ⟨other, hother, hall⟩ suffix hsuffix
    obtain rfl := Option.some.inj hother
    have hsuffixes : (clampBounds limits).map VisionEncoder.ClampBound.suffix = clampSuffixes := rfl
    rw [← hsuffixes] at hsuffix
    obtain ⟨bound, hbound, rfl⟩ := List.mem_map.mp hsuffix
    have happlied := hall bound hbound
    rw [hname, stem_projection] at happlied
    exact (hlimit bound hbound).mp happlied
  · intro hnone
    refine ⟨limits, rfl, fun bound hbound => ?_⟩
    rw [hname, stem_projection]
    exact (hlimit bound hbound).mpr (hnone _ (mem_clampSuffixes hbound))

/-- Every product of the encoder, for whatever tensors, is clamped as the file says. -/
def AppliesLimits (model : ModelBundle) : Prop :=
  ∀ name ∈ clippedWeights model.visionConfig, ∀ product, Multiplies model name product →
    ClampedAsInFile model product

end Load

/-! ## A limit that is lost -/

/-- The text file of the sample with another vision file. -/
theorem visionFile_load {vision : Gguf} {visionConfig : VisionModelConfig}
    {weights : LoadedWeights}
    (hweights : LoadedWeights.load (filesWith incompleteTextFile vision) (bytes "mmproj.gguf")
      isVisionTensor = .ok weights)
    (hconfig : readVisionConfig weights.gguf = .ok visionConfig)
    (hvalid : validateVisionTensors weights visionConfig = .ok ())
    (hwidth : visionConfig.projectionLength = 1) :
    load (filesWith incompleteTextFile vision) (bytes "text.gguf") (bytes "mmproj.gguf") =
      .ok { incompleteModel with visionConfig, visionWeights := weights } :=
  filesWith_load rfl (checkedTextTensors_ne_nil _) (fun _ hname => hname)
    incompleteTextFile_config hweights hconfig hvalid hwidth

/-- A limit for the projection. -/
def projectionLimit : GgufTensor := ⟨bytes "mm.input_projection.input_min", .f32, 1, 0xbf800000#32⟩

/-- A vision file with a limit for the projection. -/
def clampedVisionFile : Gguf :=
  ⟨sampleVisionEntries, namedTensors visionTensorNames ++ [projectionLimit]⟩

def clampedModel : ModelBundle :=
  { incompleteModel with visionWeights := ⟨clampedVisionFile, sampleVisionFile.tensors⟩ }

theorem clamped_load :
    load (filesWith incompleteTextFile clampedVisionFile) (bytes "text.gguf")
        (bytes "mmproj.gguf") = .ok clampedModel :=
  @visionFile_load clampedVisionFile incompleteModel.visionConfig clampedModel.visionWeights
    (by decide +kernel) (by decide +kernel) (by decide +kernel) (by decide +kernel)

/-- A limit for the query projection of the first block. -/
def queryLimit : GgufTensor := ⟨bytes "v.blk.0.attn_q.input_min", .f32, 1, 0xbf800000#32⟩

def limitedVisionFile : Gguf where
  entries := sampleVisionEntries.map fun entry =>
    if entry.1 = bytes "clip.vision.block_count" then (entry.1, .uint32 1) else entry
  tensors := namedTensors (visionTensorNames ++ visionBlockSuffixes.map (visionBlockTensor 0)) ++
    [queryLimit]

def limitedModel : ModelBundle :=
  { incompleteModel with
    visionConfig := { incompleteModel.visionConfig with blockCount := 1 }
    visionWeights := ⟨limitedVisionFile, limitedVisionFile.tensors⟩ }

theorem limited_load :
    load (filesWith incompleteTextFile limitedVisionFile) (bytes "text.gguf")
        (bytes "mmproj.gguf") = .ok limitedModel :=
  @visionFile_load limitedVisionFile limitedModel.visionConfig limitedModel.visionWeights
    (by decide +kernel) (by decide +kernel) (by decide +kernel) (by decide +kernel)

end ModelLoader

end Branchscore
