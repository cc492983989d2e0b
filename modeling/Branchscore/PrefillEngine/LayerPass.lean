import Branchscore.PrefillEngine.WholePass

/-!
# A layer on a chunk

Each part of `build_layer` computes its row function at the positions of the chunk. A
layer keeps the cache filled with the entries of the whole pass.
-/

namespace Branchscore

open Foundation Outcome CausalPass
set_option autoImplicit false

namespace PrefillEngine

/-! ## Rows of a chunk -/

section Chunk
variable {α β γ : Type} (ps : List Nat)

theorem zipWith_rows (f : α → β → γ) (g : Nat → α) (h : Nat → β) :
    List.zipWith f (ps.map g) (ps.map h) = ps.map fun p => f (g p) (h p) := by
  rw [List.zipWith_map, List.zipWith_self]

theorem map_rows (f : α → β) (g : Nat → α) : (ps.map g).map f = ps.map fun p => f (g p) := by
  rw [List.map_map]
  rfl

theorem zip_rows (g : Nat → α) (h : Nat → β) :
    (ps.map g).zip (ps.map h) = ps.map fun p => (g p, h p) := by
  rw [List.zip, zipWith_rows]

end Chunk

theorem not_visible (window query key : Nat) :
    decide (query < key ∨ window ≠ 0 ∧ key + window ≤ query) = !visible window query key := by
  rw [visible, Bool.eq_iff_iff]
  simp only [decide_eq_true_eq, Bool.not_eq_true', Bool.and_eq_false_iff, decide_eq_false_iff_not,
    Bool.or_eq_false_iff]
  omega

theorem causalMask_eq (start count keyCount window : Nat) :
    causalMask start count keyCount window = (List.range' start count).map fun query =>
      (List.range keyCount).map fun key => !visible window query key := by
  rw [causalMask, List.range'_eq_map_range, List.map_map]
  simp only [not_visible]
  rfl

section
variable {model : ModelBundle} {backend : BackendContext} {tokenCount : Nat}
  {visualWidth : Option Nat}

/-! ## Lookups -/

/-- All the named tensors of a layer are there. -/
def HasTensors (model : ModelBundle) (layer : Nat) (suffixes : List Bytes) : Prop :=
  ∀ suffix ∈ suffixes, (model.textTensor (blockTensor layer suffix)).isSome = true

theorem textWeight_of_eq {name : Bytes} {tensor : GgufTensor}
    (h : model.textTensor name = some tensor) : textWeight model name = tensor := by
  rw [textWeight, h, Option.getD_some]

theorem requireTextTensor_ends {name : Bytes}
    (hname : name ∈ requiredTextTensors model.textConfig) :
    Ends (Refuses model backend tokenCount visualWidth)
      (fun tensor => model.textTensor name = some tensor ∧ tensor = textWeight model name)
      (requireTextTensor model name) := by
  unfold requireTextTensor
  split
  next tensor h => exact ⟨h, (textWeight_of_eq h).symm⟩
  next h => exact .missing hname h

theorem isSlidingWindow_eq {layer : Nat} {s : Bool}
    (h : model.textConfig.isSlidingWindow layer = .ok s) : s = sliding model layer := by
  unfold TextModelConfig.isSlidingWindow at h
  split at h
  next s' hs =>
    cases h
    rw [sliding, List.getD_eq_getElem?_getD, hs, Option.getD_some]
  next => cases h

theorem uint32Sub_of_lt {a b : Nat} (ha : a < 2 ^ 32) (hb : 0 < b) (hb' : b < 2 ^ 32)
    (h : uint32Sub a b < a) : uint32Sub a b = a - b := by
  unfold uint32Sub at *
  by_cases hab : b ≤ a
  · omega
  · rw [Nat.mod_eq_of_lt (by omega)] at h
    omega

/-- The source that `source_layer` computes, when it is one of the stored layers. -/
theorem sourceLayer_eq {layer source : Nat} (h : model.textConfig.sourceLayer layer = .ok source)
    (hsource : source < model.textConfig.storedLayers) : source = sharedSource model layer := by
  unfold TextModelConfig.sourceLayer at h
  unfold sharedSource
  split at h
  · cases h
  · split at h
    · cases h
      rw [if_pos ‹_›]
    · rw [if_neg ‹_›]
      obtain ⟨s, hs, h⟩ := bind_eq_ok.mp h
      obtain ⟨_, _, h⟩ := bind_eq_ok.mp h
      obtain ⟨_, _, h⟩ := bind_eq_ok.mp h
      obtain ⟨_, _, h⟩ := bind_eq_ok.mp h
      cases h
      rw [← isSlidingWindow_eq hs]
      apply uint32Sub_of_lt _ _ _ hsource
      · exact Nat.mod_lt _ (by omega)
      · split <;> omega
      · split <;> omega

variable {layer : Nat} (hlayer : layer < model.textConfig.blockCount)
include hlayer

theorem layerTensor_ends {suffix : String}
    (hsuffix : bytes suffix ∈ layerSuffixes model.textConfig layer) :
    Ends (Refuses model backend tokenCount visualWidth)
      (fun tensor => (model.textTensor (blockTensor layer (bytes suffix))).isSome = true ∧
        tensor = layerWeight model layer suffix)
      (layerTensor model layer (bytes suffix)) := by
  refine (requireTextTensor_ends (mem_requiredTextTensors_layer hlayer hsuffix)).mono ?_
  rintro tensor ⟨h, rfl⟩
  exact ⟨by rw [h]; rfl, rfl⟩

theorem isSlidingWindow_ends :
    Ends (Refuses model backend tokenCount visualWidth)
      (fun s => s = sliding model layer ∧ model.textConfig.isSlidingWindow layer = .ok s)
      (model.textConfig.isSlidingWindow layer) := by
  cases h : model.textConfig.isSlidingWindow layer with
  | ok s => exact ⟨isSlidingWindow_eq h, rfl⟩
  | error e =>
    unfold TextModelConfig.isSlidingWindow at h
    split at h
    next => cases h
    next hnone =>
      cases h
      exact .pattern hlayer (List.getElem?_eq_none_iff.mp hnone)

theorem keyWidth_ends :
    Ends (Refuses model backend tokenCount visualWidth) (fun _ => True)
      (model.textConfig.keyWidth layer) :=
  (isSlidingWindow_ends hlayer).bind fun _ _ => trivial

theorem valueWidth_ends :
    Ends (Refuses model backend tokenCount visualWidth) (fun _ => True)
      (model.textConfig.valueWidth layer) :=
  (isSlidingWindow_ends hlayer).bind fun _ _ => trivial

variable {Row : Type} {cache : StateCache Row} (hconfig : cache.config = model.textConfig)
include hconfig

theorem slot_ends :
    Ends (Refuses model backend tokenCount visualWidth)
      (fun slot => slot = sharedSource model layer ∧ slot < model.textConfig.storedLayers)
      (cache.slot layer) := by
  unfold StateCache.slot
  rw [hconfig]
  cases h : model.textConfig.sourceLayer layer with
  | error e => exact .source hlayer h
  | ok source =>
    rw [ok_bind]
    split
    · exact ⟨sourceLayer_eq h ‹_›, ‹_›⟩
    · exact .slot hlayer h (Nat.not_lt.mp ‹_›)

theorem key_ends :
    Ends (Refuses model backend tokenCount visualWidth)
      (fun rows => rows = cache.keys (sharedSource model layer) ∧
        sharedSource model layer < model.textConfig.storedLayers)
      (cache.key layer) := by
  refine (slot_ends hlayer hconfig).bind ?_
  rintro slot ⟨rfl, h⟩
  exact ⟨rfl, h⟩

theorem value_ends :
    Ends (Refuses model backend tokenCount visualWidth)
      (fun rows => rows = cache.values (sharedSource model layer)) (cache.value layer) := by
  refine (slot_ends hlayer hconfig).bind ?_
  rintro slot ⟨rfl, h⟩
  rfl

end

/-! ## Parts of a layer -/

theorem cacheCurrentKv_ends {Row : Type} {P : Exception → Prop} {capacity slot start : Nat}
    {tensors : Nat → Nat → Option Row} {current : List Row}
    (h : start + current.length ≤ capacity) :
    Ends P (fun written => written = write tensors slot start current)
      (cacheCurrentKv capacity tensors slot start current) := by
  rw [cacheCurrentKv, if_pos h]
  rfl

/-- The unmasked keys of a query row have all been written. -/
theorem unmasked_eq {Row : Type} {window query keyCount : Nat} {keys values : Nat → Option Row}
    {key value : Nat → Row}
    (hkeys : ∀ position ≤ query, keys position = some (key position))
    (hvalues : ∀ position ≤ query, values position = some (value position)) :
    unmasked ((List.range keyCount).map fun position => !visible window query position)
        keys values =
      .ok (((List.range keyCount).filter (visible window query)).map fun position =>
        (position, key position, value position)) := by
  unfold unmasked
  have hfilter : (List.range keyCount).filter (fun position =>
        ((List.range keyCount).map fun position => !visible window query position)[position]? =
          some false) =
      (List.range keyCount).filter (visible window query) := by
    apply List.filter_congr
    intro position hposition
    rw [List.getElem?_map, List.getElem?_range (List.mem_range.mp hposition), Option.map_some]
    cases visible window query position <;> rfl
  rw [List.length_map, List.length_range, hfilter]
  apply mapM_ok
  intro position hposition
  have hle : position ≤ query := by
    have h := (List.mem_filter.mp hposition).2
    rw [visible, Bool.and_eq_true, decide_eq_true_eq] at h
    exact h.1
  rw [hkeys position hle, hvalues position hle]

section Parts
variable {Row : Type} (ops : TensorOps Row) {model : ModelBundle} {backend : BackendContext}
  {tokenCount : Nat} {visualWidth : Option Nat} {layer : Nat}
  (hlayer : layer < model.textConfig.blockCount) (ps : List Nat)
include hlayer

theorem buildQuery_ends (current : Nat → Row) :
    Ends (Refuses model backend tokenCount visualWidth)
      (fun query => query = (ps.map fun p => queryRow ops model layer p (current p)) ∧
        HasTensors model layer (["attn_q.weight", "attn_q_norm.weight"].map bytes))
      (buildQuery ops model model.textConfig layer (heads model layer) (ps.map int32)
        (ps.map current)) := by
  unfold buildQuery
  refine (layerTensor_ends hlayer (by simp [layerSuffixes, querySuffixes])).bind ?_
  rintro _ ⟨hq, rfl⟩
  refine (layerTensor_ends hlayer (by simp [layerSuffixes, querySuffixes])).bind ?_
  rintro _ ⟨hnorm, rfl⟩
  constructor
  · simp only [map_rows, zipWith_rows]
    rfl
  · simp only [HasTensors, List.map_cons, List.map_nil, List.forall_mem_cons]
    exact ⟨hq, hnorm, by simp⟩

theorem storeKv_ends {cacheType : CacheType} {cache : StateCache Row} {start : Nat}
    (hconfig : cache.config = model.textConfig) (hstored : layer < model.textConfig.storedLayers)
    (hcapacity : start + ps.length ≤ cache.capacity) (current : Nat → Row) :
    Ends (Refuses model backend tokenCount visualWidth)
      (fun cache' => cache' = { cache with
          keys := write cache.keys layer start
            (ps.map fun p => keyRow ops model cacheType layer p (current p))
          values := write cache.values layer start
            (ps.map fun p => valueRow ops model cacheType layer (current p)) } ∧
        HasTensors model layer kvSuffixes)
      (storeKv ops model model.textConfig layer (heads model layer) cacheType cache start
        (ps.map int32) (ps.map current)) := by
  have hmem : ∀ suffix ∈ kvSuffixes, suffix ∈ layerSuffixes model.textConfig layer := by
    intro suffix hsuffix
    rw [layerSuffixes, if_pos hstored]
    exact List.mem_append_right _ hsuffix
  unfold storeKv
  refine (layerTensor_ends hlayer (hmem _ (by simp [kvSuffixes]))).bind ?_
  rintro _ ⟨hk, rfl⟩
  refine (layerTensor_ends hlayer (hmem _ (by simp [kvSuffixes]))).bind ?_
  rintro _ ⟨hv, rfl⟩
  refine (layerTensor_ends hlayer (hmem _ (by simp [kvSuffixes]))).bind ?_
  rintro _ ⟨hnorm, rfl⟩
  dsimp only
  simp only [map_rows, zipWith_rows]
  refine (slot_ends hlayer hconfig).bind ?_
  rintro slot ⟨hslot, _⟩
  rw [sharedSource, if_pos hstored] at hslot
  subst slot
  refine (keyWidth_ends hlayer).bind fun _ _ => ?_
  refine (cacheCurrentKv_ends (by rwa [List.length_map])).bind ?_
  rintro _ rfl
  refine (valueWidth_ends hlayer).bind fun _ _ => ?_
  refine (cacheCurrentKv_ends (by rwa [List.length_map])).bind ?_
  rintro _ rfl
  constructor
  · rfl
  · simp only [HasTensors, kvSuffixes, List.map_cons, List.map_nil, List.forall_mem_cons]
    exact ⟨hk, hv, hnorm, by simp⟩

theorem buildFeedForward_ends (input attended : Nat → Row) :
    Ends (Refuses model backend tokenCount visualWidth)
      (fun output => output = (ps.map fun p => feedForwardRow ops model layer
          (attentionOutputRow ops model layer (input p) (attended p))) ∧
        HasTensors model layer feedForwardSuffixes)
      (buildFeedForward ops model model.textConfig layer (ps.map input) (ps.map attended)) := by
  have hmem : ∀ suffix ∈ feedForwardSuffixes, suffix ∈ layerSuffixes model.textConfig layer := by
    intro suffix hsuffix
    rw [layerSuffixes]
    simp only [List.mem_append, hsuffix, or_true, true_or]
  unfold buildFeedForward
  refine (layerTensor_ends hlayer (hmem _ (by simp [feedForwardSuffixes]))).bind ?_
  rintro _ ⟨houtput, rfl⟩
  refine (layerTensor_ends hlayer (hmem _ (by simp [feedForwardSuffixes]))).bind ?_
  rintro _ ⟨hpost, rfl⟩
  refine (layerTensor_ends hlayer (hmem _ (by simp [feedForwardSuffixes]))).bind ?_
  rintro _ ⟨hnorm, rfl⟩
  refine (layerTensor_ends hlayer (hmem _ (by simp [feedForwardSuffixes]))).bind ?_
  rintro _ ⟨hup, rfl⟩
  refine (layerTensor_ends hlayer (hmem _ (by simp [feedForwardSuffixes]))).bind ?_
  rintro _ ⟨hgate, rfl⟩
  refine (layerTensor_ends hlayer (hmem _ (by simp [feedForwardSuffixes]))).bind ?_
  rintro _ ⟨hdown, rfl⟩
  refine (layerTensor_ends hlayer (hmem _ (by simp [feedForwardSuffixes]))).bind ?_
  rintro _ ⟨hfinal, rfl⟩
  constructor
  · simp only [map_rows, zipWith_rows]
    rfl
  · simp only [HasTensors, feedForwardSuffixes, List.map_cons, List.map_nil, List.forall_mem_cons]
    exact ⟨houtput, hpost, hnorm, hup, hgate, hdown, hfinal, by simp⟩

theorem buildPerLayer_ends (perLayer residual : Nat → Row) :
    Ends (Refuses model backend tokenCount visualWidth)
      (fun output => output = (ps.map fun p =>
          layerOutputRow ops model layer (perLayer p) (residual p)) ∧
        HasTensors model layer perLayerSuffixes)
      (buildPerLayer ops model model.textConfig layer (ps.map perLayer) (ps.map residual)) := by
  have hmem : ∀ suffix ∈ perLayerSuffixes, suffix ∈ layerSuffixes model.textConfig layer := by
    intro suffix hsuffix
    rw [layerSuffixes]
    simp only [List.mem_append, hsuffix, or_true, true_or]
  unfold buildPerLayer
  refine (layerTensor_ends hlayer (hmem _ (by simp [perLayerSuffixes]))).bind ?_
  rintro _ ⟨hgate, rfl⟩
  refine (layerTensor_ends hlayer (hmem _ (by simp [perLayerSuffixes]))).bind ?_
  rintro _ ⟨hproj, rfl⟩
  refine (layerTensor_ends hlayer (hmem _ (by simp [perLayerSuffixes]))).bind ?_
  rintro _ ⟨hnorm, rfl⟩
  have hhas : HasTensors model layer perLayerSuffixes := by
    simp only [HasTensors, perLayerSuffixes, List.map_cons, List.map_nil, List.forall_mem_cons]
    exact ⟨hgate, hproj, hnorm, by simp⟩
  dsimp only
  simp only [map_rows, zipWith_rows]
  cases hscale : model.textTensor (blockTensor layer (bytes "layer_output_scale.weight")) with
  | none =>
    refine ⟨?_, hhas⟩
    simp only [layerOutputRow, scaledRow, hscale]
    rfl
  | some scale =>
    refine ⟨?_, hhas⟩
    simp only [layerOutputRow, scaledRow, hscale]
    rfl

theorem buildAttention_ends {cacheType : CacheType} {cache : StateCache Row}
    {start count keyCount window : Nat} (hconfig : cache.config = model.textConfig)
    (hcapacity : keyCount ≤ cache.capacity) {key value : Nat → Row}
    (hkeys : sharedSource model layer < model.textConfig.storedLayers →
      ∀ position < start + count,
        cache.keys (sharedSource model layer) position = some (key position))
    (hvalues : sharedSource model layer < model.textConfig.storedLayers →
      ∀ position < start + count,
        cache.values (sharedSource model layer) position = some (value position))
    (query : Nat → Row) :
    Ends (Refuses model backend tokenCount visualWidth)
      (fun attended => attended = (List.range' start count).map fun p =>
        attendedRow ops model cacheType layer (query p)
          (((List.range keyCount).filter (visible window p)).map fun position =>
            (position, key position, value position)))
      (buildAttention ops model.textConfig layer (heads model layer) cacheType cache keyCount
        (causalMask start count keyCount window) ((List.range' start count).map query)) := by
  unfold buildAttention
  refine (key_ends hlayer hconfig).bind ?_
  rintro _ ⟨rfl, hsource⟩
  refine (keyWidth_ends hlayer).bind fun _ _ => ?_
  refine (value_ends hlayer hconfig).bind ?_
  rintro _ rfl
  refine (valueWidth_ends hlayer).bind fun _ _ => ?_
  rw [if_neg (Nat.not_lt.mpr hcapacity), causalMask_eq, zip_rows, List.mapM_map]
  rw [mapM_ok (g := fun p => attendedRow ops model cacheType layer (query p)
    (((List.range keyCount).filter (visible window p)).map fun position =>
      (position, key position, value position)))]
  · exact rfl
  · intro p hp
    have hlt := (List.mem_range'_1.mp hp).2
    rw [Function.comp_apply]
    dsimp only
    rw [unmasked_eq (fun position h => hkeys hsource position (Nat.lt_of_le_of_lt h hlt))
      (fun position h => hvalues hsource position (Nat.lt_of_le_of_lt h hlt))]
    rfl

end Parts

/-! ## The layer -/

section Layer
variable {Row : Type} (ops : TensorOps Row) {model : ModelBundle} {backend : BackendContext}
  {tokenCount : Nat} {visualWidth : Option Nat} (cacheType : CacheType) (sequence : Sequence Row)

/-- The stored layers below `layer` hold the entries up to the end of the chunk, the
others those before it. -/
def filledUpTo (model : ModelBundle) (start count layer l : Nat) : Nat :=
  if l < model.textConfig.storedLayers then (if l < layer then start + count else start) else 0

variable (model) in
/-- The cache in the middle of a chunk. -/
structure CacheAt (capacity start count layer : Nat) (cache : StateCache Row) : Prop where
  config : cache.config = model.textConfig
  capacity : cache.capacity = capacity
  unfrozen : cache.prefixLength = 0
  keys : Filled (cachedKey ops model cacheType sequence) (filledUpTo model start count layer)
    cache.keys
  values : Filled (cachedValue ops model cacheType sequence) (filledUpTo model start count layer)
    cache.values

variable {ops cacheType sequence} {capacity start count layer : Nat} {cache : StateCache Row}

theorem filledUpTo_self (h : layer < model.textConfig.storedLayers) :
    filledUpTo model start count layer layer = start := by
  rw [filledUpTo, if_pos h, if_neg (Nat.lt_irrefl layer)]

theorem filledUpTo_succ (h : layer < model.textConfig.storedLayers) :
    filledUpTo model start count (layer + 1) layer = filledUpTo model start count layer layer + count := by
  rw [filledUpTo_self h, filledUpTo, if_pos h, if_pos (Nat.lt_succ_self layer)]

theorem filledUpTo_other {l : Nat} (h : l ≠ layer ∨ ¬layer < model.textConfig.storedLayers) :
    filledUpTo model start count (layer + 1) l = filledUpTo model start count layer l := by
  unfold filledUpTo
  split
  · have hiff : l < layer + 1 ↔ l < layer := by omega
    simp only [hiff]
  · rfl

theorem filledUpTo_source (h : sharedSource model layer < model.textConfig.storedLayers) :
    filledUpTo model start count (layer + 1) (sharedSource model layer) = start + count := by
  have hle := sharedSource_le model layer
  rw [filledUpTo, if_pos h, if_pos (by omega)]

/-- After a layer's own keys and values, if it has any, are in the cache. -/
theorem CacheAt.store (h : CacheAt ops model cacheType sequence capacity start count layer cache)
    (hstored : layer < model.textConfig.storedLayers) :
    CacheAt ops model cacheType sequence capacity start count (layer + 1) { cache with
      keys := write cache.keys layer start
        ((List.range' start count).map (cachedKey ops model cacheType sequence layer))
      values := write cache.values layer start
        ((List.range' start count).map (cachedValue ops model cacheType sequence layer)) } := by
  have hother : ∀ l, l ≠ layer →
      filledUpTo model start count (layer + 1) l = filledUpTo model start count layer l :=
    fun l hl => filledUpTo_other (.inl hl)
  refine ⟨h.config, h.capacity, h.unfrozen, ?_, ?_⟩
  · have hk := h.keys.write (filledUpTo_succ hstored) hother
    rwa [filledUpTo_self hstored] at hk
  · have hv := h.values.write (filledUpTo_succ hstored) hother
    rwa [filledUpTo_self hstored] at hv

theorem CacheAt.skip (h : CacheAt ops model cacheType sequence capacity start count layer cache)
    (hstored : ¬layer < model.textConfig.storedLayers) :
    CacheAt ops model cacheType sequence capacity start count (layer + 1) cache := by
  have hbound : filledUpTo model start count (layer + 1) = filledUpTo model start count layer :=
    funext fun l => filledUpTo_other (.inr hstored)
  refine ⟨h.config, h.capacity, h.unfrozen, ?_, ?_⟩
  · rw [hbound]
    exact h.keys
  · rw [hbound]
    exact h.values

theorem hiddenRow_succ (ops : TensorOps Row) (cacheType : CacheType) (sequence : Sequence Row)
    (layer position : Nat) :
    hiddenRow ops model cacheType sequence (layer + 1) position =
      (wholePass ops model cacheType sequence).output layer position
        (hiddenRow ops model cacheType sequence layer position)
        (((wholePass ops model cacheType sequence).seen layer position sequence.length).map
          fun key => (key, cachedKey ops model cacheType sequence (sharedSource model layer) key,
            cachedValue ops model cacheType sequence (sharedSource model layer) key)) :=
  Stack.hidden_succ _ _ _ _ _

theorem buildKv_ends (hlayer : layer < model.textConfig.blockCount)
    (hcache : CacheAt ops model cacheType sequence capacity start count layer cache)
    (hcapacity : start + count ≤ capacity) :
    Ends (Refuses model backend tokenCount visualWidth)
      (fun cache' =>
        CacheAt ops model cacheType sequence capacity start count (layer + 1) cache' ∧
        (layer < model.textConfig.storedLayers → HasTensors model layer kvSuffixes))
      (buildKv ops model model.textConfig layer (heads model layer) cacheType cache start
        ((List.range' start count).map int32) ((List.range' start count).map fun p =>
          attentionInput ops model layer (hiddenRow ops model cacheType sequence layer p))) := by
  unfold buildKv
  by_cases hstored : layer < model.textConfig.storedLayers
  · rw [if_pos hstored]
    refine (storeKv_ends ops hlayer _ hcache.config hstored ?_ _).mono ?_
    · rwa [List.length_range', hcache.capacity]
    · rintro _ ⟨rfl, hkv⟩
      exact ⟨hcache.store hstored, fun _ => hkv⟩
  · rw [if_neg hstored]
    exact ⟨hcache.skip hstored, fun h => absurd h hstored⟩

theorem HasTensors.append {suffixes suffixes' : List Bytes} (h : HasTensors model layer suffixes)
    (h' : HasTensors model layer suffixes') : HasTensors model layer (suffixes ++ suffixes') := by
  intro suffix hsuffix
  rcases List.mem_append.mp hsuffix with hin | hin
  · exact h suffix hin
  · exact h' suffix hin

/-- A layer turns the rows before it into those after it and fills its part of the cache. -/
theorem buildLayer_ends {keyCount : Nat} (hlayer : layer < model.textConfig.blockCount)
    (hcache : CacheAt ops model cacheType sequence capacity start count layer cache)
    (hlength : start + count ≤ sequence.length) (hkeyCount : start + count ≤ keyCount)
    (hcapacity : keyCount ≤ capacity) :
    Ends (Refuses model backend tokenCount visualWidth)
      (fun r => CacheAt ops model cacheType sequence capacity start count (layer + 1) r.1 ∧
        r.2 = (List.range' start count).map (hiddenRow ops model cacheType sequence (layer + 1)) ∧
        HasTensors model layer (layerSuffixes model.textConfig layer))
      (buildLayer ops model model.textConfig layer cacheType cache start keyCount
        ((List.range' start count).map int32) (causalMask start count keyCount 0)
        (causalMask start count keyCount model.textConfig.slidingWindow)
        ((List.range' start count).map fun p =>
          perLayerRow ops model (sequence.ids p) (sequence.input p))
        ((List.range' start count).map (hiddenRow ops model cacheType sequence layer))) := by
  unfold buildLayer
  refine (isSlidingWindow_ends hlayer).bind ?_
  rintro _ ⟨rfl, hsliding⟩
  refine (throwIf_ends fun h => .headWidths hlayer hsliding h).bind fun _ _ => ?_
  refine (layerTensor_ends hlayer (by simp [layerSuffixes, querySuffixes])).bind ?_
  rintro _ ⟨hnorm, rfl⟩
  dsimp only
  rw [map_rows]
  refine (buildQuery_ends ops hlayer _ _).bind ?_
  rintro _ ⟨rfl, hquery⟩
  refine (buildKv_ends hlayer hcache (by omega)).bind ?_
  rintro cache' ⟨hcache', hkv⟩
  have hmask : (if sliding model layer = true
        then causalMask start count keyCount model.textConfig.slidingWindow
        else causalMask start count keyCount 0) =
      causalMask start count keyCount (window model layer) := by
    unfold window
    split <;> rfl
  rw [hmask]
  refine (buildAttention_ends ops hlayer hcache'.config (hcapacity.trans_eq hcache'.capacity.symm)
    (fun hsource position hposition => hcache'.keys.read
      (by rwa [filledUpTo_source hsource]))
    (fun hsource position hposition => hcache'.values.read
      (by rwa [filledUpTo_source hsource])) _).bind ?_
  rintro _ rfl
  refine (buildFeedForward_ends ops hlayer _ _ _).bind ?_
  rintro _ ⟨rfl, hforward⟩
  refine (buildPerLayer_ends ops hlayer _ _ _).bind ?_
  rintro _ ⟨rfl, hper⟩
  refine ⟨hcache', ?_, ?_⟩
  · apply List.map_congr_left
    intro p hp
    have hlt := (List.mem_range'_1.mp hp).2
    have hseen : (wholePass ops model cacheType sequence).seen layer p sequence.length =
        (wholePass ops model cacheType sequence).seen layer p keyCount :=
      Stack.seen_eq _ (by omega) (by omega)
    rw [hiddenRow_succ, hseen]
    rfl
  · refine ((HasTensors.append ?_ hforward).append hper).append ?_
    · have hattn : HasTensors model layer [bytes "attn_norm.weight"] := by
        intro suffix hsuffix
        rwa [List.mem_singleton.mp hsuffix]
      exact hattn.append hquery
    · split
      · exact hkv ‹_›
      · intro suffix hsuffix
        cases hsuffix

end Layer

end PrefillEngine

end Branchscore
