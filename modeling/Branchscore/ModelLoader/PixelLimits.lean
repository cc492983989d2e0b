import Branchscore.ModelLoader

/-!
# The pixel limits of the vision configuration

The loader computes the limits from the patch and merge sizes in 64 bits and rejects what
exceeds 32 bits. The product it compares may itself have wrapped.
-/

namespace Branchscore

open Foundation Outcome
set_option autoImplicit false

namespace ModelLoader

/-- The limits and the alignment of a configuration as unbounded integers. -/
structure ExactPixels (config : VisionModelConfig) : Prop where
  minimum : config.imageMinPixels = 70 * (config.patchSize * config.mergeSize) ^ 2
  maximum : config.imageMaxPixels = 1120 * (config.patchSize * config.mergeSize) ^ 2
  alignment : uint32 (config.patchSize * config.mergeSize) = config.patchSize * config.mergeSize

/-- The configurations that are accepted with these sizes have exact limits. -/
def AcceptedExact (patchSize mergeSize : Nat) : Prop :=
  ∀ gguf config, readVisionConfig gguf = .ok config → config.patchSize = patchSize →
    config.mergeSize = mergeSize → ExactPixels config

/-- The upper limit lies less than 2³² above a multiple of 2⁶⁴ other than zero. -/
def Reappears (patchSize mergeSize : Nat) : Prop :=
  ∃ k, 0 < k ∧ k * 2 ^ 64 ≤ 1120 * (patchSize * mergeSize) ^ 2 ∧
    1120 * (patchSize * mergeSize) ^ 2 < k * 2 ^ 64 + 2 ^ 32

/-! ## The 64-bit products -/

theorem pixelLimit_eq (factor : Nat) {patchSize mergeSize : Nat} (hpatch : patchSize < 2 ^ 32)
    (hmerge : mergeSize < 2 ^ 32) :
    pixelLimit factor patchSize mergeSize = factor * (patchSize * mergeSize) ^ 2 % 2 ^ 64 := by
  have hproduct : patchSize * mergeSize < 2 ^ 64 := by
    calc patchSize * mergeSize ≤ (2 ^ 32 - 1) * (2 ^ 32 - 1) :=
          Nat.mul_le_mul (by omega) (by omega)
      _ < 2 ^ 64 := by norm_num
  rw [pixelLimit, Nat.mod_eq_of_lt hproduct, Nat.pow_two, Nat.mul_mod_mod]

/-- The range check lets a pair pass where its limit fits, or where it reappears. -/
theorem pixelLimit_le_iff {patchSize mergeSize : Nat} (hpatch : patchSize < 2 ^ 32)
    (hmerge : mergeSize < 2 ^ 32) :
    pixelLimit 1120 patchSize mergeSize ≤ 4294967295 ↔
      1120 * (patchSize * mergeSize) ^ 2 < 2 ^ 32 ∨ Reappears patchSize mergeSize := by
  rw [pixelLimit_eq 1120 hpatch hmerge, Reappears]
  generalize 1120 * (patchSize * mergeSize) ^ 2 = limit
  constructor
  · intro hle
    by_cases hsmall : limit / 2 ^ 64 = 0
    · left
      omega
    · exact Or.inr ⟨limit / 2 ^ 64, by omega, by omega, by omega⟩
  · intro h
    rcases h with hsmall | ⟨k, _, hge, hlt⟩
    · omega
    · have hdiv : limit / 2 ^ 64 = k := by omega
      omega

/-! ## Accepted metadata -/

theorem readVisionConfig_limits {gguf : Gguf} {config : VisionModelConfig}
    (h : readVisionConfig gguf = .ok config) :
    pixelLimit 1120 config.patchSize config.mergeSize ≤ 4294967295 ∧
      config.imageMinPixels = uint32 (pixelLimit 70 config.patchSize config.mergeSize) ∧
      config.imageMaxPixels = uint32 (pixelLimit 1120 config.patchSize config.mergeSize) := by
  obtain ⟨projectorType, -, h⟩ := bind_eq_ok.mp h
  by_cases hprojector : projectorType ≠ bytes "gemma4v"
  · rw [if_pos hprojector] at h
    cases h
  rw [if_neg hprojector] at h
  obtain ⟨projectionLength, -, h⟩ := bind_eq_ok.mp h
  obtain ⟨imageSize, -, h⟩ := bind_eq_ok.mp h
  obtain ⟨patchSize, -, h⟩ := bind_eq_ok.mp h
  obtain ⟨embeddingLength, -, h⟩ := bind_eq_ok.mp h
  obtain ⟨feedForwardLength, -, h⟩ := bind_eq_ok.mp h
  obtain ⟨blockCount, -, h⟩ := bind_eq_ok.mp h
  obtain ⟨headCount, -, h⟩ := bind_eq_ok.mp h
  obtain ⟨mergeSize, -, h⟩ := bind_eq_ok.mp h
  obtain ⟨layerNormEpsilon, -, h⟩ := bind_eq_ok.mp h
  obtain ⟨imageMean, -, h⟩ := bind_eq_ok.mp h
  obtain ⟨imageStd, -, h⟩ := bind_eq_ok.mp h
  obtain ⟨_, -, h⟩ := bind_eq_ok.mp h
  obtain ⟨_, hrange, h⟩ := bind_eq_ok.mp h
  obtain ⟨_, -, h⟩ := bind_eq_ok.mp h
  have hrange := Nat.le_of_not_lt (throwIf_eq_ok.mp hrange)
  rw [← Except.ok.inj h]
  exact ⟨hrange, rfl, rfl⟩

theorem exactPixels_of_fits {gguf : Gguf} {config : VisionModelConfig}
    (h : readVisionConfig gguf = .ok config)
    (hfits : 1120 * (config.patchSize * config.mergeSize) ^ 2 < 2 ^ 32)
    (hpatch : config.patchSize < 2 ^ 32) (hmerge : config.mergeSize < 2 ^ 32) :
    ExactPixels config := by
  obtain ⟨_, hmin, hmax⟩ := readVisionConfig_limits h
  rw [pixelLimit_eq _ hpatch hmerge] at hmin hmax
  have hsquare : config.patchSize * config.mergeSize ≤ (config.patchSize * config.mergeSize) ^ 2 :=
    Nat.le_self_pow (by omega) _
  constructor
  · rw [hmin, uint32]
    omega
  · rw [hmax, uint32]
    omega
  · rw [uint32]
    omega

theorem lookup_zip {keys : List Bytes} {values : List GgufValue} (hnodup : keys.Nodup) {i : Nat}
    {key : Bytes} {value : GgufValue} (hkey : keys[i]? = some key)
    (hvalue : values[i]? = some value) : (keys.zip values).lookup key = some value := by
  induction keys generalizing values i with
  | nil => cases hkey
  | cons first keys ih =>
    obtain ⟨hfirst, hnodup⟩ := List.nodup_cons.mp hnodup
    cases values with
    | nil => cases hvalue
    | cons firstValue values =>
      rw [List.zip_cons_cons, List.lookup_cons]
      cases i with
      | zero =>
        cases hkey
        cases hvalue
        rw [beq_self_eq_true]
      | succ i =>
        have hne : (key == first) = false := by
          rw [beq_eq_false_iff_ne]
          rintro rfl
          exact hfirst (List.mem_of_getElem? hkey)
        rw [hne]
        exact ih hnodup hkey hvalue

def visionKeys : List Bytes :=
  ["clip.vision.projector_type", "clip.vision.projection_dim", "clip.vision.image_size",
    "clip.vision.patch_size", "clip.vision.embedding_length", "clip.vision.feed_forward_length",
    "clip.vision.block_count", "clip.vision.attention.head_count",
    "clip.vision.projector.scale_factor", "clip.vision.attention.layer_norm_epsilon",
    "clip.vision.image_mean", "clip.vision.image_std"].map bytes

theorem visionKeys_nodup : visionKeys.Nodup := by decide +kernel

/-- Metadata with these sizes. -/
def visionMetadata (patchSize mergeSize : Nat) : Gguf where
  entries := visionKeys.zip [.string (bytes "gemma4v"), .uint32 1, .uint32 1, .uint32 patchSize,
    .uint32 1, .uint32 1, .uint32 0, .uint32 1, .uint32 mergeSize, .float32 0,
    .array (.float32 [0, 0, 0]), .array (.float32 [1, 1, 1])]
  tensors := []

/-- What is read of such metadata. -/
def visionOf (patchSize mergeSize : Nat) : VisionModelConfig where
  projectorType := bytes "gemma4v"
  projectionLength := 1
  imageSize := 1
  patchSize
  embeddingLength := 1
  feedForwardLength := 1
  blockCount := 0
  headCount := 1
  mergeSize
  imageMinPixels := uint32 (pixelLimit 70 patchSize mergeSize)
  imageMaxPixels := uint32 (pixelLimit 1120 patchSize mergeSize)
  layerNormEpsilon := 0
  imageMean := [0, 0, 0]
  imageStd := [1, 1, 1]

theorem readVisionConfig_metadata {patchSize mergeSize : Nat} (hpatch : patchSize ≠ 0)
    (hmerge : mergeSize ≠ 0) (hrange : pixelLimit 1120 patchSize mergeSize ≤ 4294967295) :
    readVisionConfig (visionMetadata patchSize mergeSize) = .ok (visionOf patchSize mergeSize) := by
  have hfind (i : Nat) (key : String) (value : GgufValue) (hkey : visionKeys[i]? = some (bytes key))
      (hvalue : [GgufValue.string (bytes "gemma4v"), .uint32 1, .uint32 1, .uint32 patchSize,
        .uint32 1, .uint32 1, .uint32 0, .uint32 1, .uint32 mergeSize, .float32 0,
        .array (.float32 [0, 0, 0]), .array (.float32 [1, 1, 1])][i]? = some value) :
      (visionMetadata patchSize mergeSize).findKey (bytes key) = some value :=
    lookup_zip visionKeys_nodup hkey hvalue
  have hprojector := hfind 0 "clip.vision.projector_type" _ rfl rfl
  have hprojection := hfind 1 "clip.vision.projection_dim" _ rfl rfl
  have himage := hfind 2 "clip.vision.image_size" _ rfl rfl
  have hpatchSize := hfind 3 "clip.vision.patch_size" _ rfl rfl
  have hembedding := hfind 4 "clip.vision.embedding_length" _ rfl rfl
  have hfeedForward := hfind 5 "clip.vision.feed_forward_length" _ rfl rfl
  have hblocks := hfind 6 "clip.vision.block_count" _ rfl rfl
  have hheads := hfind 7 "clip.vision.attention.head_count" _ rfl rfl
  have hmergeSize := hfind 8 "clip.vision.projector.scale_factor" _ rfl rfl
  have hepsilon := hfind 9 "clip.vision.attention.layer_norm_epsilon" _ rfl rfl
  have hmean := hfind 10 "clip.vision.image_mean" _ rfl rfl
  have hstd := hfind 11 "clip.vision.image_std" _ rfl rfl
  simp only [readVisionConfig, stringValue, u32Value, optionalU32Value, f32Value, f32Triplet,
    requireKey, hprojector, hprojection, himage, hpatchSize, hembedding, hfeedForward, hblocks,
    hheads, hmergeSize, hepsilon, hmean, hstd, ok_bind, pure_eq_ok]
  have hname : cString (bytes "gemma4v") = bytes "gemma4v" := by decide +kernel
  have hones : ¬([1, 1, 1] : List Float32Bits).any Float32Bits.isZero = true := by decide
  rw [hname, if_neg (not_not.mpr rfl), if_neg (by decide), ok_bind, if_neg (by decide), ok_bind,
    throwIf_of_not (by omega), ok_bind, throwIf_of_not (by omega), ok_bind, List.take_of_length_le,
    List.take_of_length_le, throwIf_of_not hones, ok_bind]
  · rfl
  · exact Nat.le_refl 3
  · exact Nat.le_refl 3

/-- Accepted metadata with these sizes has exact limits if and only if the upper limit does
not reappear below 2³². -/
theorem acceptedExact_iff {patchSize mergeSize : Nat} (hpatch : patchSize < 2 ^ 32)
    (hmerge : mergeSize < 2 ^ 32) :
    AcceptedExact patchSize mergeSize ↔ ¬Reappears patchSize mergeSize := by
  constructor
  · intro hexact hreappears
    have hrange := (pixelLimit_le_iff hpatch hmerge).mpr (Or.inr hreappears)
    obtain ⟨k, hk, hge, _⟩ := hreappears
    have hpositive : 0 < patchSize * mergeSize := by
      by_contra hzero
      rw [Nat.eq_zero_of_not_pos hzero] at hge
      omega
    have hread := readVisionConfig_metadata (Nat.pos_of_mul_pos_right hpositive).ne'
      (Nat.pos_of_mul_pos_left hpositive).ne' hrange
    have hmax := (hexact _ _ hread rfl rfl).maximum
    have hlt : (visionOf patchSize mergeSize).imageMaxPixels < 2 ^ 32 := Nat.mod_lt _ (by omega)
    have hlarge : 2 ^ 64 ≤ 1120 * (patchSize * mergeSize) ^ 2 := by omega
    rw [hmax] at hlt
    exact absurd hlt (by simp only [visionOf]; omega)
  · intro hnever gguf config h hp hm
    subst hp
    subst hm
    have hrange := (readVisionConfig_limits h).1
    have hfits := ((pixelLimit_le_iff hpatch hmerge).mp hrange).resolve_right hnever
    exact exactPixels_of_fits h hfits hpatch hmerge

/-- Two sizes of 65536 are accepted with limits of no pixels. -/
theorem acceptedExact_fails :
    readVisionConfig (visionMetadata 65536 65536) = .ok (visionOf 65536 65536) ∧
      (visionOf 65536 65536).imageMinPixels = 0 ∧ (visionOf 65536 65536).imageMaxPixels = 0 ∧
      uint32 (65536 * 65536) = 0 ∧ ¬AcceptedExact 65536 65536 := by
  have hread : readVisionConfig (visionMetadata 65536 65536) = .ok (visionOf 65536 65536) :=
    readVisionConfig_metadata (by decide) (by decide) (by decide +kernel)
  have hzero : uint32 (65536 * 65536) = 0 := by decide +kernel
  refine ⟨hread, by decide +kernel, by decide +kernel, hzero, ?_⟩
  intro hexact
  have halign := (hexact _ _ hread rfl rfl).alignment
  rw [show (visionOf 65536 65536).patchSize * (visionOf 65536 65536).mergeSize =
    65536 * 65536 from rfl, hzero] at halign
  omega

theorem acceptedExact_iff_usual :
    AcceptedExact 16 3 ∧ ¬AcceptedExact 65536 65536 := by
  constructor
  · refine (acceptedExact_iff (by decide) (by decide)).mpr ?_
    rintro ⟨k, hk, hge, -⟩
    omega
  · refine mt (acceptedExact_iff (by decide) (by decide)).mp (not_not.mpr ?_)
    exact ⟨1120, by decide, by decide, by decide⟩

end ModelLoader

end Branchscore
