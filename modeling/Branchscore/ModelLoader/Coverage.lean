import Branchscore.PrefillEngine.Correctness
import Branchscore.VisionEncoder.Tensors

/-!
# What the loader checks and what inference needs

The loader's list of vision tensors is the encoder's. Its list of text tensors lacks the
value weights of the layers with a cache of their own.
-/

namespace Branchscore

open Foundation Outcome
set_option autoImplicit false

namespace ModelLoader

theorem tensor_isSome {weights : LoadedWeights} {name : Bytes} :
    (weights.tensor name).isSome = true ↔ ∃ tensor ∈ weights.tensors, tensor.name = name := by
  rw [LoadedWeights.tensor, List.find?_isSome]
  simp only [decide_eq_true_eq]

theorem requireTensor_eq_ok {weights : LoadedWeights} {name : Bytes}
    (h : requireTensor weights name = .ok ()) : (weights.tensor name).isSome = true := by
  unfold requireTensor at h
  split at h
  next hs => rw [hs]; rfl
  next => cases h

theorem validateTextTensors_eq_ok {weights : LoadedWeights} {config : TextModelConfig}
    (h : validateTextTensors weights config = .ok ()) {name : Bytes}
    (hname : name ∈ checkedTextTensors config) : (weights.tensor name).isSome = true :=
  requireTensor_eq_ok (forM_eq_ok.mp h name hname)

theorem validateVisionTensors_eq_ok {weights : LoadedWeights} {config : VisionModelConfig}
    (h : validateVisionTensors weights config = .ok ()) {name : Bytes}
    (hname : name ∈ checkedVisionTensors config) : (weights.tensor name).isSome = true :=
  requireTensor_eq_ok (forM_eq_ok.mp h name hname)

/-! ## The two lists -/

theorem mem_checkedTextTensors_layer {config : TextModelConfig} {layer : Nat} {suffix : Bytes}
    (hlayer : layer < config.blockCount)
    (hsuffix : suffix ∈ textBlockSuffixes ∨
      layer < config.storedLayers ∧ suffix ∈ storedBlockSuffixes) :
    blockTensor layer suffix ∈ checkedTextTensors config := by
  apply List.mem_append_right
  apply List.mem_flatMap.mpr
  refine ⟨layer, List.mem_range.mpr hlayer, ?_⟩
  rcases hsuffix with hsuffix | ⟨hstored, hsuffix⟩
  · exact List.mem_append_left _ (List.mem_map_of_mem hsuffix)
  · apply List.mem_append_right
    rw [TextModelConfig.storedLayers] at hstored
    rw [if_pos hstored]
    exact List.mem_map_of_mem hsuffix

theorem plainSuffixes_subset :
    PrefillEngine.querySuffixes ++ PrefillEngine.feedForwardSuffixes ++
      PrefillEngine.perLayerSuffixes ⊆ textBlockSuffixes := by
  rw [PrefillEngine.querySuffixes, PrefillEngine.feedForwardSuffixes,
    PrefillEngine.perLayerSuffixes, ← List.map_append, ← List.map_append]
  exact List.map_subset bytes (by decide)

theorem kvSuffixes_subset :
    PrefillEngine.kvSuffixes ⊆ bytes "attn_v.weight" :: storedBlockSuffixes := by
  rw [PrefillEngine.kvSuffixes, storedBlockSuffixes, ← List.map_cons]
  exact List.map_subset bytes (by decide)

theorem inputTensors_subset : PrefillEngine.inputTensors ⊆ textTensorNames :=
  List.map_subset bytes (by decide)

theorem layerSuffixes_subset : VisionEncoder.layerSuffixes ⊆ visionBlockSuffixes :=
  List.map_subset bytes (by decide)

/-- Inference needs the checked tensors and the value weights. -/
theorem requiredTextTensors_checked {config : TextModelConfig} {name : Bytes}
    (h : name ∈ PrefillEngine.requiredTextTensors config) :
    name ∈ checkedTextTensors config ∨
      ∃ layer < config.blockCount, layer < config.storedLayers ∧
        name = blockTensor layer (bytes "attn_v.weight") := by
  rcases List.mem_append.mp h with h | h
  · exact .inl (List.mem_append_left _ (inputTensors_subset h))
  · obtain ⟨layer, hlayer, h⟩ := List.mem_flatMap.mp h
    obtain ⟨suffix, hsuffix, rfl⟩ := List.mem_map.mp h
    have hlayer := List.mem_range.mp hlayer
    rw [PrefillEngine.layerSuffixes] at hsuffix
    rcases List.mem_append.mp hsuffix with hin | hin
    · exact .inl (mem_checkedTextTensors_layer hlayer (.inl (plainSuffixes_subset hin)))
    · split at hin
      · rcases List.mem_cons.mp (kvSuffixes_subset hin) with rfl | hin
        · exact .inr ⟨layer, hlayer, ‹_›, rfl⟩
        · exact .inl (mem_checkedTextTensors_layer hlayer (.inr ⟨‹_›, hin⟩))
      · cases hin

theorem requiredTextTensors_value {config : TextModelConfig} {layer : Nat}
    (hlayer : layer < config.blockCount) (hstored : layer < config.storedLayers) :
    blockTensor layer (bytes "attn_v.weight") ∈ PrefillEngine.requiredTextTensors config := by
  apply PrefillEngine.mem_requiredTextTensors_layer hlayer
  rw [PrefillEngine.layerSuffixes, if_pos hstored]
  exact List.mem_append_right _ (List.mem_map_of_mem (by decide))

theorem requiredVisionTensors_checked {config : VisionModelConfig} {name : Bytes}
    (h : name ∈ VisionEncoder.requiredVisionTensors config) :
    name ∈ checkedVisionTensors config := by
  rcases List.mem_append.mp h with h | h
  · exact List.mem_append_left _ h
  · apply List.mem_append_right
    obtain ⟨layer, hlayer, h⟩ := List.mem_flatMap.mp h
    obtain ⟨suffix, hsuffix, rfl⟩ := List.mem_map.mp h
    exact List.mem_flatMap.mpr ⟨layer, hlayer, List.mem_map_of_mem (layerSuffixes_subset hsuffix)⟩

/-! ## Loading -/

theorem weights_eq_ok {files : ModelFiles} {path : Bytes} {selected : Bytes → Bool}
    {weights : LoadedWeights} (h : LoadedWeights.load files path selected = .ok weights) :
    ∃ gguf, files.read path = some gguf ∧
      weights = ⟨gguf, gguf.tensors.filter fun tensor => selected tensor.name⟩ := by
  unfold LoadedWeights.load at h
  split at h
  · cases h
  next gguf hread =>
    refine ⟨gguf, hread, ?_⟩
    dsimp only at h
    split at h
    · cases h
    · obtain ⟨_, _, h⟩ := bind_eq_ok.mp h
      cases h
      rfl

variable {files : ModelFiles} {textModelPath mmprojPath : Bytes} {model : ModelBundle}

/-- What a successful load says about the text file and the two checks. -/
theorem load_eq_ok (h : load files textModelPath mmprojPath = .ok model) :
    ∃ gguf, files.read textModelPath = some gguf ∧ model.textWeights = ⟨gguf, gguf.tensors⟩ ∧
      readTextConfig gguf = .ok model.textConfig ∧
      validateTextTensors model.textWeights model.textConfig = .ok () ∧
      validateVisionTensors model.visionWeights model.visionConfig = .ok () := by
  obtain ⟨textWeights, htext, h⟩ := bind_eq_ok.mp h
  obtain ⟨textConfig, hconfig, h⟩ := bind_eq_ok.mp h
  obtain ⟨⟨⟩, hvalid, h⟩ := bind_eq_ok.mp h
  obtain ⟨visionWeights, _, h⟩ := bind_eq_ok.mp h
  obtain ⟨visionConfig, _, h⟩ := bind_eq_ok.mp h
  obtain ⟨⟨⟩, hvision, h⟩ := bind_eq_ok.mp h
  obtain ⟨_, _, h⟩ := bind_eq_ok.mp h
  cases h
  obtain ⟨gguf, hread, rfl⟩ := weights_eq_ok htext
  exact ⟨gguf, hread, by rw [List.filter_true], hconfig, hvalid, hvision⟩

/-! ## Missing tensors -/

/-- All tensors that inference looks up are there, and no run misses one. -/
structure Covers (model : ModelBundle) : Prop where
  text : ∀ name ∈ PrefillEngine.requiredTextTensors model.textConfig,
    (model.textTensor name).isSome = true
  vision : ∀ name ∈ VisionEncoder.requiredVisionTensors model.visionConfig,
    (model.visionTensor name).isSome = true
  prefill : ∀ {Row : Type} (ops : TensorOps Row) (backend : BackendContext)
    (tokensBeforeImage : List TokenId) (visualTokens : Option (VisualTokens Row))
    (tokensAfterImage : List TokenId) (name : Bytes),
    PrefillEngine.prefill ops model backend tokensBeforeImage visualTokens tokensAfterImage ≠
      .error (PrefillEngine.missingTextTensor name)
  encode : ∀ {Tensor Row : Type} (ops : VisionOps Tensor Row) (backend : BackendContext)
    (image : PreparedImage) (name : Bytes),
    VisionEncoder.encode ops model backend image ≠ .error (VisionEncoder.missingVisionTensor name)

theorem missingTextTensor_ne {message : Bytes} (h : message.head? ≠ some (byte 'm'))
    (name : Bytes) : Exception.runtimeError message ≠ PrefillEngine.missingTextTensor name := by
  intro heq
  cases heq
  exact h rfl

/-- A missing tensor that Prefill reports is one it looks up and does not find. -/
theorem refuses_missing {backend : BackendContext} {tokenCount : Nat} {visualWidth : Option Nat}
    {name : Bytes}
    (h : PrefillEngine.Refuses model backend tokenCount visualWidth
      (PrefillEngine.missingTextTensor name)) :
    name ∈ PrefillEngine.requiredTextTensors model.textConfig ∧ model.textTensor name = none := by
  generalize he : PrefillEngine.missingTextTensor name = e at h
  cases h with
  | missing hname hmissing =>
    cases List.append_cancel_left (Exception.runtimeError.inj he)
    exact ⟨hname, hmissing⟩
  | allocation =>
    exact absurd he.symm (missingTextTensor_ne (by rw [Allocation.message_head]; decide) name)
  | source _ hsource =>
    rcases TextModelConfig.sourceLayer_error hsource with rfl | rfl
    · cases he
    · exact absurd he.symm (missingTextTensor_ne (by decide) name)
  | pattern => cases he
  | slot => cases he
  | unsupportedOp => exact absurd he.symm (missingTextTensor_ne (by simp [bytes, byte]) name)
  | compute => exact absurd he.symm (missingTextTensor_ne (by simp [bytes, byte]) name)
  | visualWidth => exact absurd he.symm (missingTextTensor_ne (by decide) name)
  | context => exact absurd he.symm (missingTextTensor_ne (by decide) name)
  | capacity => exact absurd he.symm (missingTextTensor_ne (by decide) name)
  | sharedLayers => exact absurd he.symm (missingTextTensor_ne (by decide) name)
  | headWidths => exact absurd he.symm (missingTextTensor_ne (by decide) name)

theorem covers_of_present
    (htext : ∀ name ∈ PrefillEngine.requiredTextTensors model.textConfig,
      (model.textTensor name).isSome = true)
    (hvision : ∀ name ∈ VisionEncoder.requiredVisionTensors model.visionConfig,
      (model.visionTensor name).isSome = true) :
    Covers model where
  text := htext
  vision := hvision
  prefill ops backend tokensBeforeImage visualTokens tokensAfterImage name herror := by
    obtain ⟨hname, hmissing⟩ := refuses_missing
      ((PrefillEngine.prefill_ends ops model tokensBeforeImage visualTokens
        tokensAfterImage).of_eq_error herror)
    have hpresent := htext name hname
    rw [hmissing] at hpresent
    cases hpresent
  encode ops backend image name herror := by
    obtain ⟨hname, hmissing⟩ :=
      (VisionEncoder.encode_ends ops backend image).of_eq_error herror name rfl
    have hpresent := hvision name hname
    rw [hmissing] at hpresent
    cases hpresent

/-- A run that lacks only tensors reports a missing one. -/
theorem prefill_misses {Row : Type} (ops : TensorOps Row) {backend : BackendContext}
    {tokens : List TokenId} (hready : PrefillEngine.Ready model backend tokens.length none)
    {absent : Bytes} (habsent : absent ∈ PrefillEngine.requiredTextTensors model.textConfig)
    (hnone : model.textTensor absent = none) :
    ∃ name ∈ PrefillEngine.requiredTextTensors model.textConfig, model.textTensor name = none ∧
      PrefillEngine.prefill ops model backend tokens none [] =
        .error (PrefillEngine.missingTextTensor name) := by
  have hends := @PrefillEngine.prefill_ends Row ops model tokens none [] backend
  cases hrun : PrefillEngine.prefill ops model backend tokens none [] with
  | ok state =>
    have hpresent := (hends.of_eq_ok hrun).2 absent habsent
    rw [hnone] at hpresent
    cases hpresent
  | error e =>
    have hrefuses := hends.of_eq_error hrun
    obtain ⟨name, hname, hmissing, rfl⟩ := hready.missing hrefuses
    exact ⟨name, hname, hmissing, rfl⟩

/-- The text file has the value weights of every layer with a cache of its own. -/
def HasValueWeights (files : ModelFiles) (textModelPath : Bytes) : Prop :=
  ∃ gguf config, files.read textModelPath = some gguf ∧ readTextConfig gguf = .ok config ∧
    ∀ layer < config.blockCount, layer < config.storedLayers →
      ∃ tensor ∈ gguf.tensors, tensor.name = blockTensor layer (bytes "attn_v.weight")

theorem load_covers_inference_iff (h : load files textModelPath mmprojPath = .ok model) :
    Covers model ↔ HasValueWeights files textModelPath := by
  obtain ⟨gguf, hread, hweights, hconfig, htext, hvision⟩ := load_eq_ok h
  have htensor : ∀ name, (model.textTensor name).isSome = true ↔
      ∃ tensor ∈ gguf.tensors, tensor.name = name := by
    intro name
    rw [ModelBundle.textTensor, tensor_isSome, hweights]
  constructor
  · intro hcovers
    refine ⟨gguf, model.textConfig, hread, hconfig, fun layer hlayer hstored => ?_⟩
    apply (htensor _).mp
    exact hcovers.text _ (requiredTextTensors_value hlayer hstored)
  · rintro ⟨gguf', config, hread', hconfig', hvalues⟩
    rw [hread] at hread'
    cases hread'
    rw [hconfig] at hconfig'
    cases hconfig'
    apply covers_of_present
    · intro name hname
      rcases requiredTextTensors_checked hname with hchecked | ⟨layer, hlayer, hstored, rfl⟩
      · exact validateTextTensors_eq_ok htext hchecked
      · exact (htensor _).mpr (hvalues layer hlayer hstored)
    · intro name hname
      exact validateVisionTensors_eq_ok hvision (requiredVisionTensors_checked hname)

/-! ## A file without value weights -/

def sampleTextEntries : List (Bytes × GgufValue) :=
  [("general.architecture", GgufValue.string (bytes "gemma4")),
    ("general.name", .string (bytes "sample")),
    ("gemma4.context_length", .uint32 2048),
    ("gemma4.embedding_length", .uint32 1),
    ("gemma4.block_count", .uint32 35),
    ("gemma4.attention.head_count", .uint32 1),
    ("gemma4.attention.head_count_kv", .uint32 1),
    ("gemma4.attention.key_length", .uint32 1),
    ("gemma4.attention.value_length", .uint32 1),
    ("gemma4.attention.key_length_swa", .uint32 1),
    ("gemma4.attention.value_length_swa", .uint32 1),
    ("gemma4.attention.sliding_window", .uint32 4),
    ("gemma4.attention.shared_kv_layers", .uint32 34),
    ("gemma4.embedding_length_per_layer_input", .uint32 1),
    ("gemma4.final_logit_softcapping", .float32 0),
    ("gemma4.attention.layer_norm_rms_epsilon", .float32 0),
    ("gemma4.rope.freq_base", .float32 0),
    ("gemma4.rope.freq_base_swa", .float32 0),
    ("gemma4.rope.dimension_count", .uint32 1),
    ("gemma4.rope.dimension_count_swa", .uint32 1),
    ("gemma4.feed_forward_length", .uint32 1),
    ("gemma4.attention.sliding_window_pattern", .array (.bool (List.replicate 35 0))),
    ("tokenizer.ggml.tokens", .array (.string [bytes "a"]))].map fun entry =>
      (bytes entry.1, entry.2)

/-- One layer with a cache of its own and 34 that share it. -/
def oneStoredConfig : TextModelConfig :=
  { PrefillEngine.sampleTextConfig with
    blockCount := 35, sharedKvLayers := 34, vocabularySize := 1
    slidingWindowPattern := List.replicate 35 false }

def sampleVisionEntries : List (Bytes × GgufValue) :=
  [("clip.vision.projector_type", GgufValue.string (bytes "gemma4v")),
    ("clip.vision.projection_dim", .uint32 1),
    ("clip.vision.image_size", .uint32 1),
    ("clip.vision.patch_size", .uint32 1),
    ("clip.vision.embedding_length", .uint32 1),
    ("clip.vision.feed_forward_length", .uint32 1),
    ("clip.vision.block_count", .uint32 0),
    ("clip.vision.attention.head_count", .uint32 1),
    ("clip.vision.projector.scale_factor", .uint32 1),
    ("clip.vision.attention.layer_norm_epsilon", .float32 0),
    ("clip.vision.image_mean", .array (.float32 [0, 0, 0])),
    ("clip.vision.image_std", .array (.float32 [1, 1, 1]))].map fun entry =>
      (bytes entry.1, entry.2)

def namedTensors (names : List Bytes) : List GgufTensor :=
  names.map fun name => ⟨name, .f32, 1, 0⟩

/-- The text file has exactly the tensors that the loader checks. -/
def incompleteTextFile : Gguf := ⟨sampleTextEntries, namedTensors (checkedTextTensors oneStoredConfig)⟩

def sampleVisionFile : Gguf := ⟨sampleVisionEntries, namedTensors visionTensorNames⟩

def filesWith (text vision : Gguf) : ModelFiles where
  read path := some (if path = bytes "text.gguf" then text else vision)
  copy _ _ := .ok ()

def incompleteFiles : ModelFiles := filesWith incompleteTextFile sampleVisionFile

def incompleteModel : ModelBundle where
  textConfig := oneStoredConfig
  visionConfig := { PrefillEngine.sampleVisionConfig with
    imageMean := [0, 0, 0], imageStd := [1, 1, 1] }
  textWeights := ⟨incompleteTextFile, incompleteTextFile.tensors⟩
  visionWeights := ⟨sampleVisionFile, sampleVisionFile.tensors⟩

theorem namedTensors_tensor (gguf : Gguf) (names : List Bytes) {name : Bytes} (h : name ∈ names) :
    requireTensor ⟨gguf, namedTensors names⟩ name = .ok () := by
  have hsome : ((⟨gguf, namedTensors names⟩ : LoadedWeights).tensor name).isSome = true :=
    tensor_isSome.mpr ⟨⟨name, .f32, 1, 0⟩, List.mem_map_of_mem h, rfl⟩
  unfold requireTensor
  split
  · rfl
  next hnone =>
    rw [hnone] at hsome
    cases hsome

theorem weights_of_read {files : ModelFiles} {path : Bytes} {selected : Bytes → Bool} {gguf : Gguf}
    (hread : files.read path = some gguf)
    (hselected : gguf.tensors.filter (fun tensor => selected tensor.name) = gguf.tensors)
    (hne : gguf.tensors ≠ []) (hcopy : files.copy path gguf.tensors = .ok ()) :
    LoadedWeights.load files path selected = .ok ⟨gguf, gguf.tensors⟩ := by
  unfold LoadedWeights.load
  rw [hread]
  dsimp only
  rw [hselected, if_neg hne, hcopy]
  rfl

/-- Files load whose text file has at least the tensors that the loader checks. -/
theorem filesWith_load {text vision : Gguf} {names : List Bytes}
    {visionConfig : VisionModelConfig} {weights : LoadedWeights}
    (htensors : text.tensors = namedTensors names) (hne : names ≠ [])
    (hchecked : ∀ name ∈ checkedTextTensors oneStoredConfig, name ∈ names)
    (htextConfig : readTextConfig text = .ok oneStoredConfig)
    (hweights : LoadedWeights.load (filesWith text vision) (bytes "mmproj.gguf") isVisionTensor =
      .ok weights)
    (hvisionConfig : readVisionConfig weights.gguf = .ok visionConfig)
    (hvisionValid : validateVisionTensors weights visionConfig = .ok ())
    (hwidth : visionConfig.projectionLength = 1) :
    load (filesWith text vision) (bytes "text.gguf") (bytes "mmproj.gguf") =
      .ok ⟨oneStoredConfig, visionConfig, ⟨text, text.tensors⟩, weights⟩ := by
  have htext : LoadedWeights.load (filesWith text vision) (bytes "text.gguf") (fun _ => true) =
      .ok ⟨text, text.tensors⟩ := by
    apply weights_of_read
    · rfl
    · rw [List.filter_true]
    · rw [htensors]
      exact fun hnil => hne (List.map_eq_nil_iff.mp hnil)
    · rfl
  have htextValid : validateTextTensors ⟨text, text.tensors⟩ oneStoredConfig = .ok () := by
    rw [htensors]
    exact forM_eq_ok.mpr fun name hname => namedTensors_tensor text names (hchecked name hname)
  unfold load
  rw [htext, ok_bind, htextConfig, ok_bind, htextValid, ok_bind, hweights, ok_bind,
    hvisionConfig, ok_bind, hvisionValid, ok_bind, throwIf_of_not (by rw [hwidth]; decide)]
  rfl

theorem checkedTextTensors_ne_nil (config : TextModelConfig) : checkedTextTensors config ≠ [] := by
  simp [checkedTextTensors, textTensorNames]

theorem incompleteTextFile_config : readTextConfig incompleteTextFile = .ok oneStoredConfig := by
  decide +kernel

theorem incomplete_load :
    load incompleteFiles (bytes "text.gguf") (bytes "mmproj.gguf") = .ok incompleteModel :=
  @filesWith_load incompleteTextFile sampleVisionFile (checkedTextTensors oneStoredConfig)
    incompleteModel.visionConfig incompleteModel.visionWeights rfl (checkedTextTensors_ne_nil _)
    (fun _ hname => hname) incompleteTextFile_config (by decide +kernel) (by decide +kernel)
    (by decide +kernel) rfl

theorem incomplete_missing {name : Bytes}
    (hname : name ∈ PrefillEngine.requiredTextTensors oneStoredConfig)
    (hmissing : incompleteModel.textTensor name = none) :
    name = bytes "blk.0.attn_v.weight" := by
  rcases requiredTextTensors_checked hname with hchecked | ⟨layer, _, hstored, rfl⟩
  · have hpresent : (incompleteModel.textTensor name).isSome = true :=
      requireTensor_eq_ok (namedTensors_tensor incompleteTextFile _ hchecked)
    rw [hmissing] at hpresent
    cases hpresent
  · have hstored : layer < 1 := hstored
    obtain rfl : layer = 0 := by omega
    decide

theorem incomplete_value_absent : incompleteModel.textTensor (bytes "blk.0.attn_v.weight") = none := by
  decide +kernel

theorem incomplete_ready :
    PrefillEngine.Ready incompleteModel (.reliable (bytes "CPU")) [0].length none where
  positive := by decide
  context := by decide
  padding h := by
    have hcuda : (BackendContext.reliable (bytes "CPU")).cuda = false := by decide
    rw [hcuda] at h
    cases h
  visualWidth := by simp
  sharedLayers := by decide
  pattern := by decide
  sources layer hlayer := by
    have hsources : ∀ layer < 35, oneStoredConfig.sourceLayer layer = .ok 0 := by decide +kernel
    exact ⟨0, by decide, hsources layer hlayer⟩
  headWidths layer _ sliding _ := by cases sliding <;> rfl
  allocates _ := rfl
  supported _ := rfl
  computes _ := rfl

/-- The model loads, and Prefill of one token misses the value weights of the first layer. -/
theorem load_covers_inference_fails :
    load incompleteFiles (bytes "text.gguf") (bytes "mmproj.gguf") = .ok incompleteModel ∧
      PrefillEngine.prefill PrefillEngine.sampleOps incompleteModel (.reliable (bytes "CPU")) [0]
          none [] =
        .error (PrefillEngine.missingTextTensor (bytes "blk.0.attn_v.weight")) := by
  have hname : blockTensor 0 (bytes "attn_v.weight") = bytes "blk.0.attn_v.weight" := by decide
  have habsent : incompleteModel.textTensor (blockTensor 0 (bytes "attn_v.weight")) = none := by
    rw [hname, incomplete_value_absent]
  obtain ⟨name, hrequired, hmissing, hrun⟩ := prefill_misses PrefillEngine.sampleOps
    incomplete_ready (requiredTextTensors_value (by decide) (by decide)) habsent
  rw [incomplete_missing hrequired hmissing] at hrun
  exact ⟨incomplete_load, hrun⟩

/-- The text file has the value weights of the first layer as well. -/
def completeTextFile : Gguf where
  entries := sampleTextEntries
  tensors := namedTensors
    (blockTensor 0 (bytes "attn_v.weight") :: checkedTextTensors oneStoredConfig)

def completeModel : ModelBundle :=
  { incompleteModel with textWeights := ⟨completeTextFile, completeTextFile.tensors⟩ }

theorem complete_load :
    load (filesWith completeTextFile sampleVisionFile) (bytes "text.gguf") (bytes "mmproj.gguf") =
      .ok completeModel :=
  @filesWith_load completeTextFile sampleVisionFile
    (blockTensor 0 (bytes "attn_v.weight") :: checkedTextTensors oneStoredConfig)
    completeModel.visionConfig completeModel.visionWeights rfl (List.cons_ne_nil _ _)
    (fun _ hname => List.mem_cons_of_mem _ hname) (by decide +kernel) (by decide +kernel)
    (by decide +kernel) (by decide +kernel) rfl

/-- The second text file is enough for both passes, the first one is not. -/
theorem load_covers_inference_iff_sample : Covers completeModel ∧ ¬Covers incompleteModel := by
  constructor
  · refine (load_covers_inference_iff complete_load).mpr
      ⟨completeTextFile, oneStoredConfig, rfl, by decide +kernel, fun layer _ hstored => ?_⟩
    have hstored : layer < 1 := hstored
    obtain rfl : layer = 0 := by omega
    exact ⟨⟨blockTensor 0 (bytes "attn_v.weight"), .f32, 1, 0⟩,
      List.mem_map_of_mem List.mem_cons_self, rfl⟩
  · intro hcovers
    obtain ⟨gguf, config, hread, hconfig, hvalues⟩ :=
      (load_covers_inference_iff incomplete_load).mp hcovers
    cases hread
    cases incompleteTextFile_config.symm.trans hconfig
    have hpresent : (incompleteModel.textTensor (bytes "blk.0.attn_v.weight")).isSome = true :=
      tensor_isSome.mpr (hvalues 0 (by decide) (by decide))
    rw [incomplete_value_absent] at hpresent
    cases hpresent

end ModelLoader

end Branchscore
