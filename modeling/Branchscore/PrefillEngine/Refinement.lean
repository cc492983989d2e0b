import Branchscore.PrefillEngine.LayerPass

/-!
# Prefill in chunks is one pass

The loop over the chunks ends with the cache and the logits of the whole pass, or with
one of the refusals.
-/

namespace Branchscore

open Foundation Outcome CausalPass
set_option autoImplicit false

namespace PrefillEngine

/-! ## Padding and chunks -/

theorem le_paddedCount (count : Nat) : count ≤ paddedCount count := by
  unfold paddedCount
  omega

theorem paddedCount_mono {a b : Nat} (h : a ≤ b) : paddedCount a ≤ paddedCount b :=
  Nat.mul_le_mul_right _ (Nat.div_le_div_right (by omega))

theorem le_cacheRows (backend : BackendContext) (count : Nat) : count ≤ cacheRows backend count := by
  unfold cacheRows
  split
  · exact le_paddedCount count
  · exact Nat.le_refl count

theorem cacheRows_mono (backend : BackendContext) {a b : Nat} (h : a ≤ b) :
    cacheRows backend a ≤ cacheRows backend b := by
  unfold cacheRows
  split
  · exact paddedCount_mono h
  · exact h

theorem cacheRows_le_iff {backend : BackendContext} {count limit : Nat} (h : count ≤ limit) :
    cacheRows backend count ≤ limit ↔ (backend.cuda = true → paddedCount count ≤ limit) := by
  unfold cacheRows
  split
  next hcuda => exact ⟨fun hpadded _ => hpadded, fun hpadded => hpadded hcuda⟩
  next hcuda => exact ⟨fun _ hc => absurd hc hcuda, fun _ => h⟩

theorem storedLayers_le {config : TextModelConfig} (h : config.sharedKvLayers < config.blockCount) :
    config.storedLayers ≤ config.blockCount := by
  unfold TextModelConfig.storedLayers uint32Sub
  rw [show config.blockCount + 2 ^ 32 - config.sharedKvLayers =
    config.blockCount - config.sharedKvLayers + 2 ^ 32 by omega, Nat.add_mod_right]
  exact (Nat.mod_le _ _).trans (Nat.sub_le _ _)

section
variable {Row : Type} (ops : TensorOps Row) {model : ModelBundle} {backend : BackendContext}
  (sequence : Sequence Row) {visualWidth : Option Nat}

/-- What the source gives the loop are the slices of the sequence. -/
structure Yields (source : ChunkSource Row) : Prop where
  rows : ∀ start count, start + count ≤ sequence.length →
    source.rows start count = (List.range' start count).map sequence.input
  ids : ∀ start count, start + count ≤ sequence.length →
    source.ids start count = (List.range' start count).map sequence.ids

def perLayerTensors : List Bytes :=
  ["per_layer_token_embd.weight", "per_layer_model_proj.weight",
    "per_layer_proj_norm.weight"].map bytes

/-- The state before the chunk at `position`. -/
structure LoopAt (model : ModelBundle) (cacheType : CacheType) (capacity position : Nat)
    (state : PrefillState Row) : Prop where
  cache : CacheAt ops model cacheType sequence capacity position 0 0 state.cache
  logits : state.logits =
    if position = sequence.length then some (finalLogits ops model cacheType sequence) else none
  inputs : 0 < position → ∀ name ∈ perLayerTensors, (model.textTensor name).isSome = true
  layers : 0 < position → ∀ layer < model.textConfig.blockCount,
    HasTensors model layer (layerSuffixes model.textConfig layer)
  outputNorm : position = sequence.length →
    (model.textTensor (bytes "output_norm.weight")).isSome = true

theorem perLayerInputs_ends (start count : Nat) :
    Ends (Refuses model backend sequence.length visualWidth)
      (fun rows => rows = ((List.range' start count).map fun p =>
          perLayerRow ops model (sequence.ids p) (sequence.input p)) ∧
        ∀ name ∈ perLayerTensors, (model.textTensor name).isSome = true)
      (perLayerInputs ops model ((List.range' start count).map sequence.ids)
        ((List.range' start count).map sequence.input)) := by
  unfold perLayerInputs
  refine (requireTextTensor_ends (by simp [requiredTextTensors, inputTensors])).bind ?_
  rintro _ ⟨hembedding, rfl⟩
  refine (requireTextTensor_ends (by simp [requiredTextTensors, inputTensors])).bind ?_
  rintro _ ⟨hprojection, rfl⟩
  refine (requireTextTensor_ends (by simp [requiredTextTensors, inputTensors])).bind ?_
  rintro _ ⟨hnorm, rfl⟩
  constructor
  · simp only [map_rows, zipWith_rows]
    rfl
  · simp only [perLayerTensors, List.map_cons, List.map_nil, List.forall_mem_cons, hembedding,
      hprojection, hnorm]
    simp

theorem buildLogits_ends {start count : Nat} (hcount : 0 < count) (row : Nat → Row) :
    Ends (Refuses model backend sequence.length visualWidth)
      (fun logits => logits = some (logitsRow ops model (row (start + count - 1))) ∧
        (model.textTensor (bytes "output_norm.weight")).isSome = true)
      (buildLogits ops model (textWeight model (bytes "token_embd.weight"))
        ((List.range' start count).map row)) := by
  unfold buildLogits
  refine (requireTextTensor_ends (by simp [requiredTextTensors, inputTensors])).bind ?_
  rintro _ ⟨hnorm, rfl⟩
  refine ⟨?_, by rw [hnorm]; rfl⟩
  rw [map_rows, List.getLast?_map, List.getLast?_range', if_neg (by omega)]
  rfl

theorem chunkLogits_ends {cacheType : CacheType} {start count : Nat} (hcount : 0 < count) :
    Ends (Refuses model backend sequence.length visualWidth)
      (fun logits =>
        logits = (if start + count = sequence.length then
          some (finalLogits ops model cacheType sequence) else none) ∧
        (start + count = sequence.length →
          (model.textTensor (bytes "output_norm.weight")).isSome = true))
      (chunkLogits ops model (textWeight model (bytes "token_embd.weight")) sequence.length
        (start + count) none ((List.range' start count).map
          (hiddenRow ops model cacheType sequence model.textConfig.blockCount))) := by
  unfold chunkLogits
  by_cases hend : start + count = sequence.length
  · simp only [if_pos hend]
    refine (buildLogits_ends ops sequence hcount _).mono ?_
    rintro _ ⟨rfl, hnorm⟩
    refine ⟨?_, fun _ => hnorm⟩
    rw [finalLogits, hend]
  · simp only [if_neg hend]
    exact ⟨rfl, fun h => absurd h hend⟩

theorem allocate_ends (allocation : Allocation) {tokenCount : Nat} :
    Ends (Refuses model backend tokenCount visualWidth) (fun _ => True)
      (backend.allocate allocation) :=
  (throwIf_ends fun h => .allocation h).mono fun _ _ => trivial

theorem runGraph_ends (chunkStart tokenCount : Nat) :
    Ends (Refuses model backend tokenCount visualWidth) (fun _ => True)
      (runGraph backend chunkStart) := by
  unfold runGraph
  split
  next op h => exact .unsupportedOp h
  next =>
    refine (allocate_ends _).bind fun _ _ => ?_
    cases h : backend.compute (.prefill chunkStart) with
    | ok => trivial
    | error status => exact .compute h

theorem filledUpTo_end {start count : Nat}
    (h : model.textConfig.storedLayers ≤ model.textConfig.blockCount) :
    filledUpTo model start count model.textConfig.blockCount =
      filledUpTo model (start + count) 0 0 := by
  funext l
  unfold filledUpTo
  split
  · rw [if_pos (by omega), if_neg (by omega)]
  · rfl

/-! ## The loop -/

/-- The rows of a chunk pass through all layers. -/
theorem layers_end {capacity start count keyCount : Nat} {cacheType : CacheType}
    {cache : StateCache Row}
    (hcache : CacheAt ops model cacheType sequence capacity start count 0 cache)
    (hlength : start + count ≤ sequence.length) (hkeyCount : start + count ≤ keyCount)
    (hcapacity : keyCount ≤ capacity) :
    Ends (Refuses model backend sequence.length visualWidth)
      (fun r =>
        CacheAt ops model cacheType sequence capacity start count
          model.textConfig.blockCount r.1 ∧
        r.2 = (List.range' start count).map
          (hiddenRow ops model cacheType sequence model.textConfig.blockCount) ∧
        ∀ layer < model.textConfig.blockCount,
          HasTensors model layer (layerSuffixes model.textConfig layer))
      ((List.range model.textConfig.blockCount).foldlM (fun (cache, input) layer =>
        buildLayer ops model model.textConfig layer cacheType cache start keyCount
          ((List.range' start count).map int32) (causalMask start count keyCount 0)
          (causalMask start count keyCount model.textConfig.slidingWindow)
          ((List.range' start count).map fun p =>
            perLayerRow ops model (sequence.ids p) (sequence.input p)) input)
        (cache, (List.range' start count).map sequence.input)) := by
  have hrun := Ends.foldlM_range (P := Refuses model backend sequence.length visualWidth)
    (I := fun layer (r : StateCache Row × List Row) =>
      CacheAt ops model cacheType sequence capacity start count layer r.1 ∧
      r.2 = (List.range' start count).map (hiddenRow ops model cacheType sequence layer) ∧
      ∀ l < layer, HasTensors model l (layerSuffixes model.textConfig l))
    (f := fun r layer => buildLayer ops model model.textConfig layer cacheType r.1 start keyCount
      ((List.range' start count).map int32) (causalMask start count keyCount 0)
      (causalMask start count keyCount model.textConfig.slidingWindow)
      ((List.range' start count).map fun p =>
        perLayerRow ops model (sequence.ids p) (sequence.input p)) r.2)
    (b := (cache, (List.range' start count).map sequence.input))
    (n := model.textConfig.blockCount) ?_ ?_
  · exact hrun
  · refine ⟨hcache, ?_, fun l hl => absurd hl (Nat.not_lt_zero l)⟩
    apply List.map_congr_left
    intro p _
    exact (Stack.hidden_zero _ _ _ _).symm
  · rintro layer hlayer ⟨cache, rows⟩ ⟨hcache, rfl, hlayers⟩
    refine (buildLayer_ends hlayer hcache hlength hkeyCount hcapacity).mono ?_
    rintro r ⟨hr, hrows, htensors⟩
    refine ⟨hr, hrows, ?_⟩
    intro l hl
    rcases Nat.lt_succ_iff_lt_or_eq.mp hl with h | rfl
    · exact hlayers l h
    · exact htensors

variable {source : ChunkSource Row} (hsource : Yields sequence source)
include hsource

theorem prefillChunk_ends {start : Nat} {state : PrefillState Row}
    (hshared : model.textConfig.sharedKvLayers < model.textConfig.blockCount)
    (hstart : start < sequence.length)
    (hstate : LoopAt ops sequence model (cacheType backend)
      (cacheRows backend sequence.length) start state) :
    Ends (Refuses model backend sequence.length visualWidth)
      (LoopAt ops sequence model (cacheType backend)
        (cacheRows backend sequence.length)
        (start + min 512 (sequence.length - start)))
      (prefillChunk ops model backend source (textWeight model (bytes "token_embd.weight"))
        sequence.length state start) := by
  unfold prefillChunk positionValues chunkCount
  rw [prefillTokenMicrobatchSize]
  generalize hcount : min 512 (sequence.length - start) = count
  have hlength : start + count ≤ sequence.length := by omega
  have hpos : 0 < count := by omega
  refine (allocate_ends _).bind fun _ _ => ?_
  dsimp only
  rw [hsource.rows start count hlength, hsource.ids start count hlength]
  refine (throwIf_ends fun h => absurd (by simp) h).bind fun _ _ => ?_
  refine (perLayerInputs_ends ops sequence start count).bind ?_
  rintro _ ⟨rfl, hinputs⟩
  have hcache : CacheAt ops model (cacheType backend) sequence
      (cacheRows backend sequence.length) start count 0
      state.cache := by
    have hbound : filledUpTo model start count 0 = filledUpTo model start 0 0 := rfl
    obtain ⟨hconfig, hcapacity, hunfrozen, hkeys, hvalues⟩ := hstate.cache
    exact ⟨hconfig, hcapacity, hunfrozen, hbound ▸ hkeys, hbound ▸ hvalues⟩
  refine (layers_end ops sequence hcache hlength (le_cacheRows backend _)
    (cacheRows_mono backend hlength)).bind ?_
  rintro ⟨cache, rows⟩ ⟨hcache', hrows, hlayers⟩
  dsimp only at hrows hcache' ⊢
  subst rows
  rw [hstate.logits, if_neg (Nat.ne_of_lt hstart)]
  refine (chunkLogits_ends ops sequence hpos).bind ?_
  rintro _ ⟨rfl, hnorm⟩
  refine (runGraph_ends start _).bind fun _ _ => ?_
  refine ⟨?_, rfl, fun _ => hinputs, fun _ => hlayers, hnorm⟩
  have hbound : filledUpTo model start count model.textConfig.blockCount =
      filledUpTo model (start + count) 0 0 := filledUpTo_end (storedLayers_le hshared)
  obtain ⟨hconfig, hcapacity, hunfrozen, hkeys, hvalues⟩ := hcache'
  exact ⟨hconfig, hcapacity, hunfrozen, hbound ▸ hkeys, hbound ▸ hvalues⟩

/-- After `i` chunks the loop stands at position `512 * i` or at the end. -/
theorem chunks_end {state : PrefillState Row}
    (hshared : model.textConfig.sharedKvLayers < model.textConfig.blockCount)
    (hstate : LoopAt ops sequence model (cacheType backend)
      (cacheRows backend sequence.length) 0 state) :
    Ends (Refuses model backend sequence.length visualWidth)
      (LoopAt ops sequence model (cacheType backend)
        (cacheRows backend sequence.length) sequence.length)
      ((chunkStarts sequence.length).foldlM
        (prefillChunk ops model backend source (textWeight model (bytes "token_embd.weight"))
          sequence.length) state) := by
  rw [chunkStarts, List.foldlM_map, prefillTokenMicrobatchSize]
  have hrun := Ends.foldlM_range (P := Refuses model backend sequence.length visualWidth)
    (I := fun i => LoopAt ops sequence model (cacheType backend)
      (cacheRows backend sequence.length)
      (min (512 * i) sequence.length))
    (f := fun state i => prefillChunk ops model backend source
      (textWeight model (bytes "token_embd.weight")) sequence.length state (512 * i))
    (b := state) (n := (sequence.length + 512 - 1) / 512) ?_ ?_
  · rw [show min (512 * ((sequence.length + 512 - 1) / 512)) sequence.length = sequence.length
      by omega] at hrun
    exact hrun
  · simpa using hstate
  · intro i hi state hstate
    have hlt : 512 * i < sequence.length := by omega
    rw [Nat.min_eq_left (by omega)] at hstate
    rw [show min (512 * (i + 1)) sequence.length =
      512 * i + min 512 (sequence.length - 512 * i) by omega]
    exact prefillChunk_ends ops sequence hsource hshared hlt hstate

end

/-! ## The whole run -/

section
variable {Row : Type} (ops : TensorOps Row) (model : ModelBundle) (backend : BackendContext)
  (sequence : Sequence Row)

/-- The cache holds the keys and values of the whole pass, the logits are those of its
last position, and the prefix is frozen at the length of the sequence for good. -/
structure HoldsPass (state : PrefillState Row) : Prop where
  keys : ∀ layer < model.textConfig.storedLayers, ∀ position < sequence.length,
    state.cache.keys layer position =
      some (cachedKey ops model (cacheType backend) sequence layer position)
  values : ∀ layer < model.textConfig.storedLayers, ∀ position < sequence.length,
    state.cache.values layer position =
      some (cachedValue ops model (cacheType backend) sequence layer position)
  logits : state.logits = some (finalLogits ops model (cacheType backend) sequence)
  prefixLength : state.prefixLength = sequence.length
  cursor : state.cache.cursor = sequence.length
  frozen : ∀ length cache, state.cache.freezePrefix length ≠ .ok cache

variable {model backend sequence} {visualWidth : Option Nat}

theorem create_ends :
    Ends (Refuses model backend sequence.length visualWidth)
      (fun cache => CacheAt ops model (cacheType backend) sequence
          (cacheRows backend sequence.length) 0 0 0 cache ∧
        model.textConfig.sharedKvLayers < model.textConfig.blockCount)
      (StateCache.create Row model.textConfig
        (cacheRows backend sequence.length) backend) := by
  unfold StateCache.create
  refine (throwIf_ends fun h => .capacity rfl h).bind fun _ _ => ?_
  refine (throwIf_ends fun h => .sharedLayers h).bind fun _ hshared => ?_
  have hshared := Nat.not_le.mp hshared
  refine (allocate_ends _).bind fun _ _ => ?_
  refine (Ends.mapM (R := fun _ _ => True) fun layer hlayer => ?_).bind fun _ _ => ?_
  · have hlt := (List.mem_range.mp hlayer).trans_le (storedLayers_le hshared)
    refine (keyWidth_ends hlt).bind fun _ _ => ?_
    exact (valueWidth_ends hlt).bind fun _ _ => trivial
  refine (allocate_ends _).bind fun _ _ => ?_
  have hbound : filledUpTo model 0 0 0 = fun _ => 0 := by
    funext l
    unfold filledUpTo
    split <;> rfl
  refine ⟨⟨rfl, rfl, rfl, ?_, ?_⟩, hshared⟩
  · rw [hbound]
    exact Filled.empty _
  · rw [hbound]
    exact Filled.empty _

theorem HoldsPass.of_loopAt {capacity : Nat} {state : PrefillState Row} {cache : StateCache Row}
    (hlength : 0 < sequence.length)
    (h : LoopAt ops sequence model (cacheType backend) capacity sequence.length state)
    (hfreeze : state.cache.freezePrefix sequence.length = .ok cache) :
    HoldsPass ops model backend sequence { state with cache } := by
  obtain ⟨_, _, hfreeze⟩ := bind_eq_ok.mp hfreeze
  obtain ⟨_, _, hfreeze⟩ := bind_eq_ok.mp hfreeze
  cases hfreeze
  have hbound : ∀ layer < model.textConfig.storedLayers, ∀ position < sequence.length,
      position < filledUpTo model sequence.length 0 0 layer := by
    intro layer hlayer position hposition
    rwa [filledUpTo, if_pos hlayer, if_neg (Nat.not_lt_zero layer)]
  refine ⟨?_, ?_, ?_, rfl, rfl, ?_⟩
  · intro layer hlayer position hposition
    exact h.cache.keys.read (hbound layer hlayer position hposition)
  · intro layer hlayer position hposition
    exact h.cache.values.read (hbound layer hlayer position hposition)
  · rw [h.logits, if_pos rfl]
  · intro length cache hagain
    obtain ⟨_, _, hagain⟩ := bind_eq_ok.mp hagain
    obtain ⟨_, hfresh, _⟩ := bind_eq_ok.mp hagain
    rw [throwIf_eq_ok, not_not] at hfresh
    exact absurd hfresh (Nat.ne_of_gt hlength)

theorem LoopAt.required {cacheType : CacheType} {capacity : Nat} {state : PrefillState Row}
    (hlength : 0 < sequence.length)
    (h : LoopAt ops sequence model cacheType capacity sequence.length state)
    (hembedding : (model.textTensor (bytes "token_embd.weight")).isSome = true) :
    ∀ name ∈ requiredTextTensors model.textConfig, (model.textTensor name).isSome = true := by
  intro name hname
  rcases List.mem_append.mp hname with hin | hin
  · have hinputs := h.inputs hlength
    simp only [perLayerTensors, List.map_cons, List.map_nil, List.forall_mem_cons] at hinputs
    simp only [inputTensors, List.map_cons, List.map_nil, List.mem_cons] at hin
    rcases hin with rfl | rfl | rfl | rfl | rfl | hin
    · exact hembedding
    · exact hinputs.1
    · exact hinputs.2.1
    · exact hinputs.2.2.1
    · exact h.outputNorm rfl
    · cases hin
  · obtain ⟨layer, hlayer, hin⟩ := List.mem_flatMap.mp hin
    obtain ⟨suffix, hsuffix, rfl⟩ := List.mem_map.mp hin
    exact h.layers hlength layer (List.mem_range.mp hlayer) suffix hsuffix

/-- A run ends with the whole pass in a cache of the model, or it refuses. -/
theorem prefillSequence_holds {source : GgufTensor → ChunkSource Row} (hlength : 0 < sequence.length)
    (hsource : Yields sequence (source (textWeight model (bytes "token_embd.weight")))) :
    Ends (Refuses model backend sequence.length visualWidth)
      (fun state => (state.cache.config = model.textConfig ∧
          state.cache.capacity = cacheRows backend sequence.length) ∧
        HoldsPass ops model backend sequence state ∧
        ∀ name ∈ requiredTextTensors model.textConfig, (model.textTensor name).isSome = true)
      (prefillSequence ops model backend sequence.length source) := by
  unfold prefillSequence
  refine (create_ends ops).bind ?_
  rintro cache ⟨hcache, hshared⟩
  refine (allocate_ends _).bind fun _ _ => ?_
  refine (allocate_ends _).bind fun _ _ => ?_
  refine (requireTextTensor_ends (by simp [requiredTextTensors, inputTensors])).bind ?_
  rintro _ ⟨hembedding, rfl⟩
  have hne := Nat.ne_of_lt hlength
  refine (chunks_end ops sequence hsource hshared ⟨hcache, (if_neg hne).symm,
    fun h => absurd h (Nat.lt_irrefl 0), fun h => absurd h (Nat.lt_irrefl 0),
    fun h => absurd h hne⟩).bind fun state hstate => ?_
  have hcapacity : ¬(sequence.length = 0 ∨ state.cache.capacity < sequence.length) := by
    rw [hstate.cache.capacity]
    have := le_cacheRows backend sequence.length
    omega
  have hfreeze : state.cache.freezePrefix sequence.length = .ok { state.cache with
      prefixLength := sequence.length, cursor := sequence.length } := by
    unfold StateCache.freezePrefix
    rw [throwIf_of_not hcapacity, ok_bind, throwIf_of_not (not_not.mpr hstate.cache.unfrozen)]
    rfl
  rw [hfreeze]
  exact ⟨⟨hstate.cache.config, hstate.cache.capacity⟩, .of_loopAt ops hlength hstate hfreeze,
    hstate.required ops hlength (by rw [hembedding]; rfl)⟩

theorem prefillSequence_ends {source : GgufTensor → ChunkSource Row} (hlength : 0 < sequence.length)
    (hsource : Yields sequence (source (textWeight model (bytes "token_embd.weight")))) :
    Ends (Refuses model backend sequence.length visualWidth)
      (fun state => HoldsPass ops model backend sequence state ∧
        ∀ name ∈ requiredTextTensors model.textConfig, (model.textTensor name).isSome = true)
      (prefillSequence ops model backend sequence.length source) :=
  (prefillSequence_holds ops hlength hsource).mono fun _ h => h.2

end

end PrefillEngine

end Branchscore
