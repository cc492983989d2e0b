import Branchscore.StateCache

/-!
# Sources of shared layers

`source_layer` maps every layer it accepts to a stored layer of the same attention type and
leaves stored layers where they are. A view into the cache therefore has the row width that
the tensor was created with.
-/

namespace Branchscore

open Foundation Outcome
set_option autoImplicit false

namespace TextModelConfig

section Widths
variable {config : TextModelConfig} {layer source : Nat}

theorem isSlidingWindow_lt {sliding : Bool} (h : config.isSlidingWindow layer = .ok sliding) :
    layer < config.slidingWindowPattern.length := by
  unfold isSlidingWindow at h
  cases hget : config.slidingWindowPattern[layer]? with
  | none => simp [hget] at h
  | some s => exact (List.getElem?_eq_some_iff.mp hget).1

theorem exists_isSlidingWindow (h : layer < config.slidingWindowPattern.length) :
    ∃ sliding, config.isSlidingWindow layer = .ok sliding := by
  refine ⟨config.slidingWindowPattern[layer], ?_⟩
  rw [isSlidingWindow, List.getElem?_eq_getElem h]

theorem isSlidingWindow_error {e : Exception} (h : config.isSlidingWindow layer = .error e) :
    e = .outOfRange (bytes "Gemma 4 layer index is out of range") := by
  unfold isSlidingWindow at h
  split at h
  · cases h
  · cases h
    rfl

/-- Widths depend on the attention type only. -/
theorem rowWidths_congr (h : config.isSlidingWindow source = config.isSlidingWindow layer) :
    config.keyWidth source = config.keyWidth layer ∧
      config.valueWidth source = config.valueWidth layer ∧
      config.rowWidths source = config.rowWidths layer := by
  have hkey : config.keyWidth source = config.keyWidth layer := by rw [keyWidth, h, keyWidth]
  have hvalue : config.valueWidth source = config.valueWidth layer := by
    rw [valueWidth, h, valueWidth]
  exact ⟨hkey, hvalue, by rw [rowWidths, hkey, hvalue, rowWidths]⟩

end Widths

/-! ## The source -/

section Source
variable {config : TextModelConfig} {layer source : Nat}

theorem sourceLayer_error {e : Exception} (h : config.sourceLayer layer = .error e) :
    e = .outOfRange (bytes "Gemma 4 layer index is out of range") ∨
      e = .runtimeError (bytes "shared-KV source has a different attention type") := by
  unfold sourceLayer at h
  split at h
  · cases h
    exact .inl rfl
  split at h
  · cases h
  rcases bind_eq_error.mp h with h | ⟨_, _, h⟩
  · exact .inl (isSlidingWindow_error h)
  rcases bind_eq_error.mp h with h | ⟨_, _, h⟩
  · exact .inl (isSlidingWindow_error h)
  rcases bind_eq_error.mp h with h | ⟨_, _, h⟩
  · exact .inl (isSlidingWindow_error h)
  rcases bind_eq_error.mp h with h | ⟨_, _, h⟩
  · unfold throwIf at h
    split at h <;> cases h
    exact .inr rfl
  · cases h

theorem sourceLayer_stored (hlayer : layer < config.blockCount)
    (hstored : layer < config.storedLayers) : config.sourceLayer layer = .ok layer := by
  rw [sourceLayer, if_neg (Nat.not_le.mpr hlayer), if_pos hstored]

/-- The source of a shared layer lies one or two layers in front of the first shared one. -/
theorem sourceLayer_shared (hlayer : layer < config.blockCount)
    (hshared : config.storedLayers ≤ layer) {sliding : Bool}
    (hsliding : config.isSlidingWindow layer = .ok sliding) :
    config.sourceLayer layer =
      (config.isSlidingWindow (uint32Sub config.storedLayers (if sliding then 2 else 1)) >>=
        fun sourceSliding =>
          if sourceSliding = sliding then
            .ok (uint32Sub config.storedLayers (if sliding then 2 else 1))
          else runtimeError "shared-KV source has a different attention type") := by
  rw [sourceLayer, if_neg (Nat.not_le.mpr hlayer), if_neg (Nat.not_lt.mpr hshared), hsliding,
    ok_bind]
  dsimp only
  congr 1
  funext sourceSliding
  rw [ok_bind]
  by_cases hsame : sourceSliding = sliding
  · rw [if_pos hsame, throwIf_of_not (not_not.mpr hsame), ok_bind]
    rfl
  · rw [if_neg hsame, throwIf, if_pos hsame]
    rfl

/-- Where `source_layer` returns, it has found a layer of the same attention type. -/
theorem sourceLayer_eq_ok (h : config.sourceLayer layer = .ok source) :
    layer < config.blockCount ∧
      config.isSlidingWindow source = config.isSlidingWindow layer ∧
      (layer < config.storedLayers ∧ source = layer ∨
        config.storedLayers ≤ layer ∧ source < config.slidingWindowPattern.length ∧
          ∃ back, (back = 1 ∨ back = 2) ∧ source = uint32Sub config.storedLayers back) := by
  by_cases hlayer : config.blockCount ≤ layer
  · rw [sourceLayer, if_pos hlayer] at h
    cases h
  have hlayer' : layer < config.blockCount := Nat.not_le.mp hlayer
  by_cases hstored : layer < config.storedLayers
  · rw [sourceLayer_stored hlayer' hstored] at h
    cases h
    exact ⟨hlayer', rfl, Or.inl ⟨hstored, rfl⟩⟩
  have hshared : config.storedLayers ≤ layer := Nat.not_lt.mp hstored
  cases hsliding : config.isSlidingWindow layer with
  | error e =>
    rw [sourceLayer, if_neg hlayer, if_neg hstored, hsliding] at h
    cases h
  | ok sliding =>
    rw [sourceLayer_shared hlayer' hshared hsliding] at h
    obtain ⟨sourceSliding, hsource, h⟩ := bind_eq_ok.mp h
    by_cases hsame : sourceSliding = sliding
    · rw [if_pos hsame] at h
      rw [← Except.ok.inj h]
      refine ⟨hlayer', by rw [hsource, hsame], Or.inr ⟨hshared, isSlidingWindow_lt hsource, ?_⟩⟩
      cases sliding with
      | true => exact ⟨2, Or.inr rfl, rfl⟩
      | false => exact ⟨1, Or.inl rfl, rfl⟩
    · rw [if_neg hsame, runtimeError] at h
      cases h

end Source

/-! ## Configurations the cache accepts -/

/-- The range of `block_count`, and what the loader and the constructor of the cache check. -/
structure HasStoredLayers (config : TextModelConfig) : Prop where
  range : config.blockCount < 2 ^ 32
  pattern : config.slidingWindowPattern.length = config.blockCount
  shared : config.sharedKvLayers < config.blockCount

section Accepted
variable {config : TextModelConfig} (hconfig : config.HasStoredLayers) {layer source : Nat}
include hconfig

theorem storedLayers_eq : config.storedLayers = config.blockCount - config.sharedKvLayers := by
  have hrange := hconfig.range
  have hshared := hconfig.shared
  rw [storedLayers, uint32Sub]
  omega

/-- A difference that went below zero is no index of the pattern. -/
theorem sourceLayer_lt (h : config.sourceLayer layer = .ok source) :
    source < config.storedLayers := by
  obtain ⟨_, _, ⟨hstored, rfl⟩ | ⟨_, hsource, back, hback, rfl⟩⟩ := sourceLayer_eq_ok h
  · exact hstored
  · have heq := storedLayers_eq hconfig
    have hrange := hconfig.range
    have hshared := hconfig.shared
    rw [hconfig.pattern] at hsource
    generalize config.storedLayers = stored at heq hsource ⊢
    unfold uint32Sub at hsource ⊢
    rcases hback with rfl | rfl <;> omega

theorem sourceLayer_idem (h : config.sourceLayer layer = .ok source) :
    config.sourceLayer source = .ok source := by
  have hlt := sourceLayer_lt hconfig h
  have heq := storedLayers_eq hconfig
  exact sourceLayer_stored (by omega) hlt

/-- With a single stored layer the second one in front of the shared layers does not exist. -/
theorem sourceLayer_below (hlayer : layer < config.blockCount) (hone : config.storedLayers = 1)
    (hshared : 1 ≤ layer) (hsliding : config.isSlidingWindow layer = .ok true) :
    config.sourceLayer layer =
      .error (.outOfRange (bytes "Gemma 4 layer index is out of range")) := by
  have hrange := hconfig.range
  have hnone : config.isSlidingWindow (uint32Sub config.storedLayers 2) =
      .error (.outOfRange (bytes "Gemma 4 layer index is out of range")) := by
    rw [isSlidingWindow, List.getElem?_eq_none]
    rw [hconfig.pattern, hone, uint32Sub]
    omega
  rw [sourceLayer_shared hlayer (by omega) hsliding, if_pos rfl, hnone, error_bind]

theorem exists_rowWidths (hlayer : layer < config.blockCount) :
    ∃ width, config.rowWidths layer = .ok width := by
  obtain ⟨sliding, hsliding⟩ := exists_isSlidingWindow (hconfig.pattern.symm ▸ hlayer)
  have hkey : ∃ width, config.keyWidth layer = .ok width := by
    rw [keyWidth, hsliding]
    exact ⟨_, ok_bind _ _⟩
  have hvalue : ∃ width, config.valueWidth layer = .ok width := by
    rw [valueWidth, hsliding]
    exact ⟨_, ok_bind _ _⟩
  obtain ⟨key, hkey⟩ := hkey
  obtain ⟨value, hvalue⟩ := hvalue
  refine ⟨(key, value), ?_⟩
  rw [rowWidths, hkey, ok_bind, hvalue, ok_bind]
  rfl

theorem exists_tensorWidths : ∃ widths, config.tensorWidths = .ok widths ∧
    widths.length = config.storedLayers ∧
    ∀ layer < config.storedLayers, ∃ width, widths[layer]? = some width ∧
      config.rowWidths layer = .ok width := by
  have heq := storedLayers_eq hconfig
  rw [tensorWidths]
  generalize config.storedLayers = stored at heq ⊢
  cases hrun : (List.range stored).mapM config.rowWidths with
  | error e =>
    obtain ⟨layer, hlayer, herror⟩ := mapM_eq_error hrun
    have hlayer' := List.mem_range.mp hlayer
    obtain ⟨width, hwidth⟩ := exists_rowWidths hconfig (by omega : layer < config.blockCount)
    rw [hwidth] at herror
    cases herror
  | ok widths =>
    have hall := mapM_eq_ok.mp hrun
    have hlength := hall.length_eq
    rw [List.length_range] at hlength
    refine ⟨widths, rfl, hlength.symm, ?_⟩
    intro layer hlayer
    have hlayer' : layer < widths.length := by omega
    have hrange : layer < (List.range stored).length := by rwa [List.length_range]
    have hget := hall.get hrange hlayer'
    rw [List.get_eq_getElem, List.get_eq_getElem, List.getElem_range] at hget
    exact ⟨widths[layer], List.getElem?_eq_getElem hlayer', hget⟩

end Accepted

end TextModelConfig

theorem StateCache.slot_eq {Row : Type} {cache : StateCache Row}
    (hconfig : cache.config.HasStoredLayers) (layer : Nat) :
    cache.slot layer = cache.config.sourceLayer layer := by
  rw [StateCache.slot]
  cases h : cache.config.sourceLayer layer with
  | error e => rfl
  | ok source =>
    rw [ok_bind, if_pos (TextModelConfig.sourceLayer_lt hconfig h)]
    rfl

/-- A layer that has a source reads the rows of a stored layer of its own attention type,
with its own widths, and stored layers read their own. All other layers are refused, and the
cache has a tensor of the layer's widths wherever a layer is not. -/
theorem sourceLayer_retraction (config : TextModelConfig)
    (hconfig : config.HasStoredLayers) :
    (∀ layer < config.blockCount,
      (∀ source, config.sourceLayer layer = .ok source →
        source < config.blockCount - config.sharedKvLayers ∧
        config.isSlidingWindow source = config.isSlidingWindow layer ∧
        config.keyWidth source = config.keyWidth layer ∧
        config.valueWidth source = config.valueWidth layer ∧
        config.sourceLayer source = .ok source) ∧
      (layer < config.blockCount - config.sharedKvLayers → config.sourceLayer layer = .ok layer) ∧
      (∀ e, config.sourceLayer layer = .error e →
        e = .outOfRange (bytes "Gemma 4 layer index is out of range") ∨
          e = .runtimeError (bytes "shared-KV source has a different attention type")) ∧
      (config.blockCount - config.sharedKvLayers = 1 → 1 ≤ layer →
        config.isSlidingWindow layer = .ok true → config.sourceLayer layer =
          .error (.outOfRange (bytes "Gemma 4 layer index is out of range")))) ∧
    ∃ widths, config.tensorWidths = .ok widths ∧
      widths.length = config.blockCount - config.sharedKvLayers ∧
      ∀ (Row : Type) (cache : StateCache Row), cache.config = config →
        ∀ layer < config.blockCount, cache.slot layer = config.sourceLayer layer ∧
          ∀ source, config.sourceLayer layer = .ok source →
            cache.key layer = .ok (cache.keys source) ∧
            cache.value layer = .ok (cache.values source) ∧
            ∃ width, widths[source]? = some width ∧ config.rowWidths layer = .ok width := by
  have heq := TextModelConfig.storedLayers_eq hconfig
  constructor
  · intro layer hlayer
    refine ⟨?_, ?_, fun e he => TextModelConfig.sourceLayer_error he, ?_⟩
    · intro source h
      obtain ⟨_, hsliding, _⟩ := TextModelConfig.sourceLayer_eq_ok h
      obtain ⟨hkey, hvalue, _⟩ := TextModelConfig.rowWidths_congr hsliding
      exact ⟨heq ▸ TextModelConfig.sourceLayer_lt hconfig h, hsliding, hkey, hvalue,
        TextModelConfig.sourceLayer_idem hconfig h⟩
    · intro hstored
      exact TextModelConfig.sourceLayer_stored hlayer (heq ▸ hstored)
    · intro hone hshared hsliding
      exact TextModelConfig.sourceLayer_below hconfig hlayer (heq.trans hone) hshared hsliding
  · obtain ⟨widths, hwidths, hlength, hget⟩ := TextModelConfig.exists_tensorWidths hconfig
    refine ⟨widths, hwidths, hlength.trans heq, ?_⟩
    intro Row cache hcache layer hlayer
    subst hcache
    have hslot := StateCache.slot_eq hconfig layer
    refine ⟨hslot, ?_⟩
    intro source h
    obtain ⟨_, hsliding, _⟩ := TextModelConfig.sourceLayer_eq_ok h
    obtain ⟨_, _, hrow⟩ := TextModelConfig.rowWidths_congr hsliding
    obtain ⟨width, hsome, hwidth⟩ := hget source (TextModelConfig.sourceLayer_lt hconfig h)
    refine ⟨?_, ?_, width, hsome, hrow ▸ hwidth⟩
    · rw [StateCache.key, hslot, h]
      rfl
    · rw [StateCache.value, hslot, h]
      rfl

/-- Six layers of alternating attention types, the last two of them shared. -/
def alternatingConfig : TextModelConfig where
  architecture := bytes "gemma4"
  name := bytes "alternating"
  contextLength := 32
  embeddingLength := 0
  blockCount := 6
  headCount := 0
  headCountKv := 1
  keyLength := 8
  valueLength := 8
  keyLengthSwa := 4
  valueLengthSwa := 4
  slidingWindow := 0
  sharedKvLayers := 2
  perLayerEmbeddingLength := 0
  vocabularySize := 0
  finalLogitSoftcap := 0
  layerNormEpsilon := 0
  ropeFreqBase := 0
  ropeFreqBaseSwa := 0
  ropeDimensionCount := 0
  ropeDimensionCountSwa := 0
  feedForwardLengths := []
  slidingWindowPattern := [true, false, true, false, true, false]

theorem sourceLayer_retraction_alternating :
    alternatingConfig.sourceLayer 4 = .ok 2 ∧ alternatingConfig.sourceLayer 5 = .ok 3 ∧
      alternatingConfig.keyWidth 2 = alternatingConfig.keyWidth 4 ∧
      alternatingConfig.sourceLayer 2 = .ok 2 := by
  have hsource : alternatingConfig.sourceLayer 4 = .ok 2 := by decide
  have h := (sourceLayer_retraction alternatingConfig ⟨by decide, rfl, by decide⟩).1 4 (by decide)
  obtain ⟨_, _, hkey, _, hidem⟩ := h.1 2 hsource
  exact ⟨hsource, by decide, hkey, hidem⟩

end Branchscore
