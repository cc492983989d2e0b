import Branchscore.PrefillEngine.Refinement
import Branchscore.StateCache.SourceLayer

/-!
# Prefill of tokens around an image

The chunks that `prefill` cuts out of its three segments are the slices of one
sequence, so it refines the whole pass over that sequence.
-/

namespace Branchscore

open Foundation Outcome CausalPass
set_option autoImplicit false

namespace PrefillEngine

section Tokens
variable {Row : Type} (ops : TensorOps Row) (model : ModelBundle)
  (tokensBeforeImage : List TokenId) (visualTokens : Option (VisualTokens Row))
  (tokensAfterImage : List TokenId)

/-- The rows after the tokens before the image. -/
def rowBehind (position : Nat) : Row :=
  let text := fun index => textRow ops model (textWeight model (bytes "token_embd.weight"))
    (tokensAfterImage.getD index 0)
  match visualTokens with
  | none => text position
  | some visual =>
    if position < visual.tokenCount then visual.row position
    else text (position - visual.tokenCount)

def tokenSequence : Sequence Row where
  length := tokensBeforeImage.length + visualCount visualTokens + tokensAfterImage.length
  input position :=
    if position < tokensBeforeImage.length then
      textRow ops model (textWeight model (bytes "token_embd.weight"))
        (tokensBeforeImage.getD position 0)
    else rowBehind ops model visualTokens tokensAfterImage (position - tokensBeforeImage.length)
  ids := perLayerId tokensBeforeImage visualTokens tokensAfterImage

theorem textChunk_eq (embedding : GgufTensor) (tokens : List TokenId)
    (segmentStart start stop : Nat) :
    textChunk ops model embedding tokens segmentStart start stop =
      (List.range' (max start segmentStart)
        (min stop (segmentStart + tokens.length) - max start segmentStart)).map fun position =>
          textRow ops model embedding (tokens.getD (position - segmentStart) 0) := by
  unfold textChunk overlapStart overlapEnd
  dsimp only
  split
  next h => rw [Nat.sub_eq_zero_of_le h, List.range'_zero, List.map_nil]
  next h =>
    apply List.ext_getElem?
    intro i
    rw [List.getElem?_map, List.getElem?_map, List.getElem?_drop, List.getElem?_take]
    by_cases hi : i < min stop (segmentStart + tokens.length) - max start segmentStart
    · rw [List.getElem?_range' hi, if_pos (by omega), List.getElem?_eq_getElem (by omega)]
      simp only [Option.map_some, Nat.one_mul]
      rw [List.getD_eq_getElem _ _ (by omega)]
      congr 3
      omega
    · rw [if_neg (by omega), List.getElem?_eq_none (by rw [List.length_range']; omega)]
      rfl

theorem visualChunk_eq (visualBegin start stop : Nat) :
    visualChunk visualTokens visualBegin (visualBegin + visualCount visualTokens) start stop =
      (List.range' (max start visualBegin)
        (min stop (visualBegin + visualCount visualTokens) - max start visualBegin)).map
          fun position => rowBehind ops model visualTokens tokensAfterImage (position - visualBegin) := by
  cases visualTokens with
  | none =>
    rw [visualCount, Option.map_none, Option.getD_none, Nat.add_zero,
      show min stop visualBegin - max start visualBegin = 0 by omega]
    rfl
  | some visual =>
    rw [visualCount, Option.map_some, Option.getD_some]
    unfold visualChunk overlapStart overlapEnd
    dsimp only
    split
    next h =>
      rw [← List.map_sub_range' (Nat.le_max_right start visualBegin), List.map_map]
      apply List.map_congr_left
      intro position hposition
      have hlt := (List.mem_range'_1.mp hposition).2
      rw [rowBehind, Function.comp_apply]
      dsimp only
      rw [if_pos (by omega)]
    next h => rw [Nat.sub_eq_zero_of_le (Nat.not_lt.mp h), List.range'_zero, List.map_nil]

/-- Behind the visual tokens stand the tokens after the image. -/
theorem rowBehind_text {position : Nat} (h : visualCount visualTokens ≤ position) :
    rowBehind ops model visualTokens tokensAfterImage position =
      textRow ops model (textWeight model (bytes "token_embd.weight"))
        (tokensAfterImage.getD (position - visualCount visualTokens) 0) := by
  cases visualTokens with
  | none => rfl
  | some visual =>
    rw [rowBehind]
    dsimp only
    rw [visualCount, Option.map_some, Option.getD_some] at *
    rw [if_neg (Nat.not_lt.mpr h)]

theorem range_split (start stop cut : Nat) :
    List.range' start (stop - start) =
      List.range' start (min stop cut - start) ++
        List.range' (max start cut) (stop - max start cut) := by
  rcases Nat.le_total cut start with h | h
  · rw [Nat.max_eq_left h, show min stop cut - start = 0 by omega, List.range'_zero,
      List.nil_append]
  · rcases Nat.le_total stop cut with hs | hs
    · rw [Nat.min_eq_left hs, Nat.max_eq_right h, Nat.sub_eq_zero_of_le hs, List.range'_zero,
        List.append_nil]
    · rw [Nat.min_eq_right hs, Nat.max_eq_right h,
        show stop - start = cut - start + (stop - cut) by omega, ← List.range'_append_1,
        show start + (cut - start) = cut by omega]

theorem tokenSource_yields :
    Yields (tokenSequence ops model tokensBeforeImage visualTokens tokensAfterImage)
      (tokenSource ops model tokensBeforeImage visualTokens tokensAfterImage
        (textWeight model (bytes "token_embd.weight"))) := by
  constructor
  · intro start count hlength
    rw [tokenSequence] at hlength
    dsimp only at hlength
    have hcount := range_split start (start + count) tokensBeforeImage.length
    rw [Nat.add_sub_cancel_left, range_split (max start tokensBeforeImage.length) (start + count)
      (tokensBeforeImage.length + visualCount visualTokens)] at hcount
    have hmax : max (max start tokensBeforeImage.length)
        (tokensBeforeImage.length + visualCount visualTokens) =
      max start (tokensBeforeImage.length + visualCount visualTokens) := by omega
    rw [hmax] at hcount
    rw [hcount, List.map_append, List.map_append, tokenSource]
    dsimp only
    rw [textChunk_eq, visualChunk_eq ops model visualTokens tokensAfterImage, textChunk_eq,
      List.append_assoc, Nat.max_zero, Nat.zero_add, Nat.min_eq_left hlength]
    congr 1
    · apply List.map_congr_left
      intro position hposition
      obtain ⟨hle, hlt⟩ := List.mem_range'_1.mp hposition
      rw [tokenSequence]
      dsimp only
      rw [if_pos (by omega), Nat.sub_zero]
    · congr 1
      · apply List.map_congr_left
        intro position hposition
        have hle := (List.mem_range'_1.mp hposition).1
        rw [tokenSequence]
        dsimp only
        rw [if_neg (by omega)]
      · apply List.map_congr_left
        intro position hposition
        have hle := (List.mem_range'_1.mp hposition).1
        rw [tokenSequence]
        dsimp only
        rw [if_neg (by omega), rowBehind_text _ _ _ _ (by omega), Nat.sub_add_eq]
  · intro start count _
    rw [List.range'_eq_map_range, List.map_map]
    rfl

theorem prefill_holds {backend : BackendContext} :
    Ends (Refuses model backend
        (tokenSequence ops model tokensBeforeImage visualTokens tokensAfterImage).length
        (visualTokens.map VisualTokens.embeddingLength))
      (fun state => (state.cache.config = model.textConfig ∧
          state.cache.capacity = cacheRows backend
            (tokenSequence ops model tokensBeforeImage visualTokens tokensAfterImage).length) ∧
        HoldsPass ops model backend
          (tokenSequence ops model tokensBeforeImage visualTokens tokensAfterImage) state ∧
        ∀ name ∈ requiredTextTensors model.textConfig, (model.textTensor name).isSome = true)
      (prefill ops model backend tokensBeforeImage visualTokens tokensAfterImage) := by
  unfold prefill
  refine (throwIf_ends ?_).bind fun _ _ => ?_
  · rintro ⟨visual, hvisual, hne⟩
    rw [Option.mem_def] at hvisual
    subst hvisual
    exact .visualWidth rfl hne
  refine (throwIf_ends fun h => .context h).bind fun _ hcontext => ?_
  rw [not_or] at hcontext
  exact prefillSequence_holds ops (Nat.pos_of_ne_zero hcontext.1) (tokenSource_yields _ _ _ _ _)

theorem prefill_ends {backend : BackendContext} :
    Ends (Refuses model backend
        (tokenSequence ops model tokensBeforeImage visualTokens tokensAfterImage).length
        (visualTokens.map VisualTokens.embeddingLength))
      (fun state => HoldsPass ops model backend
          (tokenSequence ops model tokensBeforeImage visualTokens tokensAfterImage) state ∧
        ∀ name ∈ requiredTextTensors model.textConfig, (model.textTensor name).isSome = true)
      (prefill ops model backend tokensBeforeImage visualTokens tokensAfterImage) :=
  (prefill_holds ops model tokensBeforeImage visualTokens tokensAfterImage).mono fun _ h => h.2

end Tokens

/-! ## Refinement -/

/-- What a run needs besides the tensors: a sequence within the model context, a
configuration with a source for each layer and a device that does what it is asked. -/
structure Ready (model : ModelBundle) (backend : BackendContext) (tokenCount : Nat)
    (visualWidth : Option Nat) : Prop where
  positive : 0 < tokenCount
  context : tokenCount ≤ model.textConfig.contextLength
  padding : backend.cuda = true → paddedCount tokenCount ≤ model.textConfig.contextLength
  visualWidth : ∀ width ∈ visualWidth, width = model.textConfig.embeddingLength
  sharedLayers : model.textConfig.sharedKvLayers < model.textConfig.blockCount
  pattern : model.textConfig.blockCount ≤ model.textConfig.slidingWindowPattern.length
  sources : ∀ layer < model.textConfig.blockCount,
    ∃ source < model.textConfig.storedLayers, model.textConfig.sourceLayer layer = .ok source
  headWidths : ∀ layer < model.textConfig.blockCount, ∀ sliding,
    model.textConfig.isSlidingWindow layer = .ok sliding →
      (headConfig model model.textConfig sliding).headSize =
        (headConfig model model.textConfig sliding).valueSize
  allocates : ∀ allocation, backend.allocates allocation = true
  supported : ∀ graph, backend.unsupportedOp graph = none
  computes : ∀ graph, backend.compute graph = .ok ()

structure Accepts (model : ModelBundle) (backend : BackendContext) (tokenCount : Nat)
    (visualWidth : Option Nat) : Prop extends Ready model backend tokenCount visualWidth where
  tensors : ∀ name ∈ requiredTextTensors model.textConfig, (model.textTensor name).isSome = true

variable {model : ModelBundle} {backend : BackendContext} {tokenCount : Nat}
  {visualWidth : Option Nat}

/-- Then only a missing tensor is refused. -/
theorem Ready.missing (h : Ready model backend tokenCount visualWidth) {e : Exception}
    (hr : Refuses model backend tokenCount visualWidth e) :
    ∃ name ∈ requiredTextTensors model.textConfig,
      model.textTensor name = none ∧ e = missingTextTensor name := by
  have hpositive := h.positive
  have hcontext := h.context
  cases hr with
  | visualWidth hw hne => exact absurd (h.visualWidth _ hw) hne
  | context hc => omega
  | capacity hcapacity hc =>
    have hle := le_cacheRows backend tokenCount
    have hfits := (cacheRows_le_iff hcontext).mpr h.padding
    omega
  | sharedLayers hs => exact absurd h.sharedLayers (Nat.not_lt.mpr hs)
  | allocation ha => exact absurd ((h.allocates _).symm.trans ha) (by simp)
  | pattern hlayer hp => exact absurd hlayer (Nat.not_lt.mpr (h.pattern.trans hp))
  | headWidths hlayer hsliding hne => exact absurd (h.headWidths _ hlayer _ hsliding) hne
  | source hlayer hs =>
    obtain ⟨source, _, hok⟩ := h.sources _ hlayer
    rw [hok] at hs
    cases hs
  | slot hlayer hs hle =>
    obtain ⟨source, hlt, hok⟩ := h.sources _ hlayer
    rw [hok] at hs
    cases hs
    exact absurd hlt (Nat.not_lt.mpr hle)
  | missing hname hm => exact ⟨_, hname, hm, rfl⟩
  | unsupportedOp ho => exact absurd ((h.supported _).symm.trans ho) (by simp)
  | compute hc => exact absurd ((h.computes _).symm.trans hc) (by simp)

theorem Accepts.not_refuses (h : Accepts model backend tokenCount visualWidth) {e : Exception} :
    ¬Refuses model backend tokenCount visualWidth e := by
  intro hr
  obtain ⟨name, hname, hmissing, _⟩ := h.toReady.missing hr
  have := h.tensors name hname
  rw [hmissing] at this
  cases this

/-- No refusal is an access to memory that is not there or not written yet. -/
theorem Refuses.ne_undefinedBehavior {e : Exception}
    (h : Refuses model backend tokenCount visualWidth e) : e ≠ .undefinedBehavior := by
  cases h with
  | source _ hs =>
    rcases TextModelConfig.sourceLayer_error hs with rfl | rfl <;> exact Exception.noConfusion
  | _ => exact Exception.noConfusion

/-- A run ends with the whole pass or with a refusal, and a run that has all it needs is
not refused. -/
def Refines {Row : Type} (ops : TensorOps Row) (model : ModelBundle) (backend : BackendContext)
    (sequence : Sequence Row) (visualWidth : Option Nat)
    (run : Except Exception (PrefillState Row)) : Prop :=
  Ends (fun e => Refuses model backend sequence.length visualWidth e ∧ e ≠ .undefinedBehavior)
      (HoldsPass ops model backend sequence) run ∧
    (Accepts model backend sequence.length visualWidth → ∃ state, run = .ok state)

theorem Refines.of_ends {Row : Type} {ops : TensorOps Row} {sequence : Sequence Row}
    {Q : PrefillState Row → Prop} {run : Except Exception (PrefillState Row)}
    (h : Ends (Refuses model backend sequence.length visualWidth)
      (fun state => HoldsPass ops model backend sequence state ∧ Q state) run) :
    Refines ops model backend sequence visualWidth run := by
  cases run with
  | ok state => exact ⟨h.1, fun _ => ⟨state, rfl⟩⟩
  | error e => exact ⟨⟨h, h.ne_undefinedBehavior⟩, fun ha => absurd h ha.not_refuses⟩

theorem Refines.result {Row : Type} {ops : TensorOps Row} {sequence : Sequence Row}
    {run : Except Exception (PrefillState Row)}
    (h : Refines ops model backend sequence visualWidth run)
    (ha : Accepts model backend sequence.length visualWidth) :
    ∃ state, run = .ok state ∧ HoldsPass ops model backend sequence state := by
  obtain ⟨state, hstate⟩ := h.2 ha
  exact ⟨state, hstate, h.1.of_eq_ok hstate⟩

/-- The chunks of a given sequence. -/
def slices {Row : Type} (sequence : Sequence Row) : ChunkSource Row where
  rows start count := (List.range' start count).map sequence.input
  ids start count := (List.range' start count).map sequence.ids

theorem prefill_refines_wholePass {Row : Type} (ops : TensorOps Row) (model : ModelBundle)
    (backend : BackendContext) :
    (∀ sequence : Sequence Row, 0 < sequence.length →
      Refines ops model backend sequence none
        (prefillSequence ops model backend sequence.length fun _ => slices sequence)) ∧
    ∀ (tokensBeforeImage : List TokenId) (visualTokens : Option (VisualTokens Row))
      (tokensAfterImage : List TokenId),
      Refines ops model backend
        (tokenSequence ops model tokensBeforeImage visualTokens tokensAfterImage)
        (visualTokens.map VisualTokens.embeddingLength)
        (prefill ops model backend tokensBeforeImage visualTokens tokensAfterImage) := by
  constructor
  · intro sequence hlength
    exact .of_ends (prefillSequence_ends ops hlength ⟨fun _ _ _ => rfl, fun _ _ _ => rfl⟩)
  · intro tokensBeforeImage visualTokens tokensAfterImage
    exact .of_ends (prefill_ends ops model tokensBeforeImage visualTokens tokensAfterImage)

/-- Two full-attention layers, the second reading the keys and values of the first. -/
def sampleTextConfig : TextModelConfig where
  architecture := bytes "gemma4"
  name := bytes "sample"
  contextLength := 2048
  embeddingLength := 1
  blockCount := 2
  headCount := 1
  headCountKv := 1
  keyLength := 1
  valueLength := 1
  keyLengthSwa := 1
  valueLengthSwa := 1
  slidingWindow := 4
  sharedKvLayers := 1
  perLayerEmbeddingLength := 1
  vocabularySize := 8
  finalLogitSoftcap := 0
  layerNormEpsilon := 0
  ropeFreqBase := 0
  ropeFreqBaseSwa := 0
  ropeDimensionCount := 1
  ropeDimensionCountSwa := 1
  feedForwardLengths := [1]
  slidingWindowPattern := [false, false]

def sampleVisionConfig : VisionModelConfig where
  projectorType := bytes "gemma4v"
  projectionLength := 1
  imageSize := 1
  patchSize := 1
  embeddingLength := 1
  feedForwardLength := 1
  blockCount := 0
  headCount := 1
  mergeSize := 1
  imageMinPixels := 70
  imageMaxPixels := 1120
  layerNormEpsilon := 0
  imageMean := []
  imageStd := []

/-- A model with exactly the tensors of `names`. -/
def modelWith (names : List Bytes) : ModelBundle where
  textConfig := sampleTextConfig
  visionConfig := sampleVisionConfig
  textWeights := ⟨⟨[], []⟩, names.map fun name => ⟨name, .f32, 1, 0⟩⟩
  visionWeights := ⟨⟨[], []⟩, []⟩

theorem modelWith_textTensor {names : List Bytes} {name : Bytes} (h : name ∈ names) :
    ((modelWith names).textTensor name).isSome = true := by
  rw [ModelBundle.textTensor, LoadedWeights.tensor, List.find?_isSome]
  exact ⟨⟨name, .f32, 1, 0⟩, List.mem_map_of_mem h, decide_eq_true rfl⟩

/-- Rows of width one over the naturals, with the attended values summed up. -/
def sampleOps : TensorOps Nat where
  getRow _ id := id
  weight _ := 1
  scale _ row := row
  mulMat _ row := row
  rmsNorm _ row := row
  mul a b := a * b
  add a b := a + b
  reshape _ _ row := row
  rope _ _ _ _ row := row
  cast _ row := row
  attention _ query entries := query + (entries.map fun entry => entry.2.1 * entry.2.2).sum
  geglu a b := a * b
  gelu row := row
  slice _ _ row := row
  tanh row := row

theorem sample_accepts :
    Accepts (modelWith (requiredTextTensors sampleTextConfig)) (.reliable (bytes "CPU")) 600
      none where
  positive := by decide
  context := by decide
  padding h := by
    have hcuda : (BackendContext.reliable (bytes "CPU")).cuda = false := by decide
    rw [hcuda] at h
    cases h
  visualWidth := by simp
  sharedLayers := by decide
  pattern := by decide
  sources layer hlayer := by
    have : layer = 0 ∨ layer = 1 := by
      have : layer < 2 := hlayer
      omega
    have hfirst : sampleTextConfig.sourceLayer 0 = .ok 0 := by decide
    have hsecond : sampleTextConfig.sourceLayer 1 = .ok 0 := by decide
    rcases this with rfl | rfl
    · exact ⟨0, by decide, hfirst⟩
    · exact ⟨0, by decide, hsecond⟩
  headWidths layer _ sliding _ := by cases sliding <;> rfl
  tensors _ h := modelWith_textTensor h
  allocates _ := rfl
  supported _ := rfl
  computes _ := rfl

/-- 600 tokens take two chunks. -/
theorem prefill_refines_wholePass_sample :
    ∃ state, prefill sampleOps (modelWith (requiredTextTensors sampleTextConfig))
        (.reliable (bytes "CPU")) (List.replicate 600 1) none [] = .ok state ∧
      HoldsPass sampleOps (modelWith (requiredTextTensors sampleTextConfig))
        (.reliable (bytes "CPU"))
        (tokenSequence sampleOps (modelWith (requiredTextTensors sampleTextConfig))
          (List.replicate 600 1) none []) state := by
  apply ((prefill_refines_wholePass sampleOps _ _).2 (List.replicate 600 1) none []).result
  have hlength : (tokenSequence sampleOps (modelWith (requiredTextTensors sampleTextConfig))
      (List.replicate 600 1) none []).length = 600 := by
    rw [tokenSequence, List.length_replicate]
    rfl
  rw [hlength]
  exact sample_accepts

end PrefillEngine

end Branchscore
