import Branchscore.VisionEncoder

/-!
# The tensors of the vision graph

The encoder misses only tensors of this list, and a run that succeeds has found them all.
-/

namespace Branchscore

open Foundation Outcome
set_option autoImplicit false

namespace VisionEncoder

def layerSuffixes : List Bytes :=
  ["ln1.weight", "attn_q.weight", "attn_k.weight", "attn_v.weight", "attn_q_norm.weight",
    "attn_k_norm.weight", "attn_out.weight", "attn_post_norm.weight", "ln2.weight",
    "ffn_up.weight", "ffn_gate.weight", "ffn_down.weight", "ffn_post_norm.weight"].map bytes

def endTensors : List Bytes :=
  ["v.patch_embd.weight", "v.position_embd.weight", "mm.input_projection.weight"].map bytes

/-- The tensors that the encoder looks up. -/
def requiredVisionTensors (config : VisionModelConfig) : List Bytes :=
  endTensors ++ (List.range config.blockCount).flatMap fun layer =>
    layerSuffixes.map (visionBlockTensor layer)

/-- If the error is a missing tensor, it is one of the list and not in the model. -/
def Misses (model : ModelBundle) (e : Exception) : Prop :=
  ∀ name, e = missingVisionTensor name →
    name ∈ requiredVisionTensors model.visionConfig ∧ model.visionTensor name = none

variable {model : ModelBundle}

theorem misses_of_head {message : Bytes} (h : message.head? ≠ some (byte 'm')) :
    Misses model (.runtimeError message) := by
  intro name hname
  cases hname
  exact absurd rfl h

theorem requireTensor_ends {name : Bytes} (hname : name ∈ requiredVisionTensors model.visionConfig) :
    Ends (Misses model) (fun _ => (model.visionTensor name).isSome = true)
      (requireTensor model name) := by
  unfold requireTensor
  split
  next h => rw [Ends, h]; rfl
  next h =>
    intro other hother
    cases List.append_cancel_left (Exception.runtimeError.inj hother)
    exact ⟨hname, h⟩

theorem visionScalar_ends (name : Bytes) (fallback : Float32Bits) :
    Ends (Misses model) (fun _ => True) (model.visionScalar name fallback) := by
  unfold ModelBundle.visionScalar
  split
  · trivial
  · split
    · exact misses_of_head (by simp [bytes, byte])
    · trivial

theorem throwIf_misses {c : Prop} [Decidable c] {message : String}
    (h : (bytes message).head? ≠ some (byte 'm')) :
    Ends (Misses model) (fun _ => ¬c) (throwIf c message) :=
  throwIf_ends fun _ => misses_of_head h

section Graph
variable {Tensor Row : Type} (ops : VisionOps Tensor Row)

theorem clippedMm_ends (weight : GgufTensor) (input : Tensor) :
    Ends (Misses model) (fun _ => True) (clippedMm ops model weight input) := by
  unfold clippedMm
  refine (visionScalar_ends _ _).bind fun _ _ => ?_
  refine (visionScalar_ends _ _).bind fun _ _ => ?_
  refine (visionScalar_ends _ _).bind fun _ _ => ?_
  exact (visionScalar_ends _ _).bind fun _ _ => trivial

variable {layer : Nat} (hlayer : layer < model.visionConfig.blockCount)
include hlayer

theorem blockWeight_ends {suffix : Bytes} (hsuffix : suffix ∈ layerSuffixes) :
    Ends (Misses model)
      (fun _ => (model.visionTensor (visionBlockTensor layer suffix)).isSome = true)
      (blockWeight model layer suffix) := by
  apply requireTensor_ends
  apply List.mem_append_right
  apply List.mem_flatMap.mpr
  exact ⟨layer, List.mem_range.mpr hlayer, List.mem_map_of_mem hsuffix⟩

def HasTensors (model : ModelBundle) (layer : Nat) (suffixes : List Bytes) : Prop :=
  ∀ suffix ∈ suffixes, (model.visionTensor (visionBlockTensor layer suffix)).isSome = true

def attentionSuffixes : List Bytes :=
  ["attn_q.weight", "attn_k.weight", "attn_v.weight", "attn_q_norm.weight", "attn_k_norm.weight",
    "attn_out.weight"].map bytes

theorem attention_ends (flash : Bool) (positionCount : Nat) (posX posY input : Tensor) :
    Ends (Misses model) (fun _ => HasTensors model layer attentionSuffixes)
      (attention ops model model.visionConfig flash layer positionCount posX posY input) := by
  unfold attention
  split
  · intro name hname
    cases hname
  refine (blockWeight_ends hlayer (by simp [layerSuffixes])).bind fun _ hq => ?_
  refine (clippedMm_ends ops _ _).bind fun _ _ => ?_
  refine (blockWeight_ends hlayer (by simp [layerSuffixes])).bind fun _ hk => ?_
  refine (clippedMm_ends ops _ _).bind fun _ _ => ?_
  refine (blockWeight_ends hlayer (by simp [layerSuffixes])).bind fun _ hv => ?_
  refine (clippedMm_ends ops _ _).bind fun _ _ => ?_
  refine (blockWeight_ends hlayer (by simp [layerSuffixes])).bind fun _ hqNorm => ?_
  refine (blockWeight_ends hlayer (by simp [layerSuffixes])).bind fun _ hkNorm => ?_
  refine (blockWeight_ends hlayer (by simp [layerSuffixes])).bind fun _ hout => ?_
  refine (clippedMm_ends ops _ _).mono fun _ _ => ?_
  simp only [HasTensors, attentionSuffixes, List.map_cons, List.map_nil, List.forall_mem_cons]
  exact ⟨hq, hk, hv, hqNorm, hkNorm, hout, by simp⟩

theorem transformerLayer_ends (flash : Bool) (positionCount : Nat) (posX posY input : Tensor) :
    Ends (Misses model) (fun _ => HasTensors model layer layerSuffixes)
      (transformerLayer ops model model.visionConfig flash layer positionCount posX posY input) := by
  unfold transformerLayer
  refine (blockWeight_ends hlayer (by simp [layerSuffixes])).bind fun _ hln1 => ?_
  refine (attention_ends ops hlayer flash positionCount posX posY _).bind fun _ hattention => ?_
  refine (blockWeight_ends hlayer (by simp [layerSuffixes])).bind fun _ hpost => ?_
  refine (blockWeight_ends hlayer (by simp [layerSuffixes])).bind fun _ hln2 => ?_
  refine (blockWeight_ends hlayer (by simp [layerSuffixes])).bind fun _ hup => ?_
  refine (clippedMm_ends ops _ _).bind fun _ _ => ?_
  refine (blockWeight_ends hlayer (by simp [layerSuffixes])).bind fun _ hgate => ?_
  refine (clippedMm_ends ops _ _).bind fun _ _ => ?_
  refine (blockWeight_ends hlayer (by simp [layerSuffixes])).bind fun _ hdown => ?_
  refine (clippedMm_ends ops _ _).bind fun _ _ => ?_
  refine (blockWeight_ends hlayer (by simp [layerSuffixes])).bind fun _ hfinal => ?_
  simp only [HasTensors, attentionSuffixes, List.map_cons, List.map_nil,
    List.forall_mem_cons] at hattention
  obtain ⟨hq, hk, hv, hqNorm, hkNorm, hout, _⟩ := hattention
  simp only [HasTensors, layerSuffixes, List.map_cons, List.map_nil, List.forall_mem_cons]
  exact ⟨hln1, hq, hk, hv, hqNorm, hkNorm, hout, hpost, hln2, hup, hgate, hdown, hfinal, by simp⟩

end Graph

section Encode
variable {Tensor Row : Type} (ops : VisionOps Tensor Row) (flash : Bool)
  (backend : BackendContext) (image : PreparedImage)

theorem patchCount_ends (config : VisionModelConfig) :
    Ends (Misses model) (fun _ => True) (image.patchCount config) := by
  unfold PreparedImage.patchCount
  split
  · exact misses_of_head (by decide)
  · trivial

theorem visualTokenCount_ends (config : VisionModelConfig) :
    Ends (Misses model) (fun count => image.visualTokenCount config = .ok count)
      (image.visualTokenCount config) := by
  cases h : image.visualTokenCount config with
  | ok count => rfl
  | error e =>
    unfold PreparedImage.visualTokenCount at h
    split at h
    · cases h
      exact misses_of_head (by decide)
    · dsimp only at h
      split at h
      · cases h
        exact misses_of_head (by decide)
      · cases h

theorem allocate_ends (allocation : Allocation) :
    Ends (Misses model) (fun _ => True) (backend.allocate allocation) :=
  (throwIf_misses (by rw [allocation.message_head]; decide)).mono fun _ _ => trivial

theorem buildVisionGraph_ends :
    Ends (Misses model)
      (fun _ => ∀ name ∈ requiredVisionTensors model.visionConfig,
        (model.visionTensor name).isSome = true)
      (buildVisionGraph ops model flash backend image) := by
  have hmem : ∀ name ∈ endTensors, name ∈ requiredVisionTensors model.visionConfig :=
    fun name h => List.mem_append_left _ h
  unfold buildVisionGraph
  refine (patchCount_ends image _).bind fun positionCount _ => ?_
  refine (visualTokenCount_ends image _).bind fun outputTokens _ => ?_
  refine (allocate_ends backend _).bind fun _ _ => ?_
  refine (requireTensor_ends (hmem _ (by simp [endTensors]))).bind fun _ hpatch => ?_
  refine (requireTensor_ends (hmem _ (by simp [endTensors]))).bind fun _ hposition => ?_
  refine (Ends.foldlM_range (P := Misses model)
    (I := fun layer _ => ∀ l < layer, HasTensors model l layerSuffixes) ?_ ?_).bind
      fun _ hlayers => ?_
  · intro l hl
    cases hl
  · intro layer hlayer current hbefore
    refine (transformerLayer_ends ops hlayer _ _ _ _ _).mono fun _ hnew => ?_
    intro l hl
    rcases Nat.lt_succ_iff_lt_or_eq.mp hl with h | rfl
    · exact hbefore l h
    · exact hnew
  refine (requireTensor_ends (hmem _ (by simp [endTensors]))).bind fun _ hprojection => ?_
  refine (clippedMm_ends ops _ _).mono fun _ _ => ?_
  intro name hname
  rcases List.mem_append.mp hname with hin | hin
  · simp only [endTensors, List.map_cons, List.map_nil, List.mem_cons, List.not_mem_nil,
      or_false] at hin
    rcases hin with rfl | rfl | rfl
    · exact hpatch
    · exact hposition
    · exact hprojection
  · obtain ⟨layer, hlayer, hin⟩ := List.mem_flatMap.mp hin
    obtain ⟨suffix, hsuffix, rfl⟩ := List.mem_map.mp hin
    exact hlayers layer (List.mem_range.mp hlayer) suffix hsuffix

theorem runGraph_ends : Ends (Misses model) (fun _ => True) (runGraph backend flash) := by
  unfold runGraph
  refine (allocate_ends backend _).bind fun _ _ => ?_
  split
  · exact misses_of_head (by simp [Allocation.message, bytes, byte])
  · cases backend.compute .vision with
    | ok => trivial
    | error status => exact misses_of_head (by simp [bytes, byte])

theorem fallbackGraph_ends (graph : Tensor) :
    Ends (Misses model) (fun _ => True) (fallbackGraph ops model backend image flash graph) := by
  unfold fallbackGraph
  split
  · trivial
  · exact (buildVisionGraph_ends ops false backend image).mono fun _ _ => trivial

/-- Visual tokens are as many as the image counts, as wide as the projection. -/
theorem encode_ends :
    Ends (Misses model)
      (fun visual => image.visualTokenCount model.visionConfig = .ok visual.tokenCount ∧
        visual.embeddingLength = model.visionConfig.projectionLength ∧
        ∀ name ∈ requiredVisionTensors model.visionConfig, (model.visionTensor name).isSome = true)
      (encode ops model backend image) := by
  unfold encode
  refine (throwIf_misses (by decide)).bind fun _ _ => ?_
  refine (visualTokenCount_ends image _).bind fun outputTokens hcount => ?_
  refine (buildVisionGraph_ends ops true backend image).bind fun graph htensors => ?_
  refine (fallbackGraph_ends ops _ backend image graph).bind fun graph _ => ?_
  refine (runGraph_ends _ backend).bind fun _ _ => ?_
  refine (throwIf_misses (by decide)).bind fun _ _ => ?_
  refine (allocate_ends backend _).bind fun _ _ => ?_
  refine (allocate_ends backend _).bind fun _ _ => ?_
  exact ⟨hcount, rfl, htensors⟩

end Encode

end VisionEncoder

end Branchscore
