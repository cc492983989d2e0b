import Branchscore.Foundation.Raster
import Branchscore.ImagePreprocessor.Weights

/-!
# Constant channels survive resampling

The weights of a window sum to one before they are rounded, so the rounded ones miss
`2 ^ 22` by at most half a unit for each source sample. The windows of a source of at most
8192 samples are too short for that error to reach the next byte.
-/

namespace Branchscore.ImagePreprocessor

open Foundation
set_option autoImplicit false

/-! ## One output sample -/

theorem clampU8_val (v : Byte) : clampU8 v = v := by
  have hv := v.isLt
  apply Fin.ext
  rw [clampU8, Fin.val_ofNat]
  omega

/-- The accumulated sum over a window whose samples are all `v`. -/
theorem foldl_constant {sample : Int → Byte} {first : Int} {v : Byte} (weights : List Int)
    (start : Nat) (sum : Int)
    (h : ∀ i < weights.length, sample (first + (start + i : Nat)) = v) :
    (weights.zipIdx start).foldl
      (fun (sum : Int) w => sum + ((sample (first + w.2)).val : Int) * w.1) sum =
      sum + v.val * weights.sum := by
  induction weights generalizing start sum with
  | nil => simp
  | cons weight weights ih =>
    rw [List.zipIdx_cons, List.foldl_cons, ih]
    · have hhead : sample (first + (start : Nat)) = v := h 0 (Nat.zero_lt_succ _)
      rw [List.sum_cons]
      dsimp only
      rw [hhead]
      ring
    · intro i hi
      have htail := h (i + 1) (Nat.succ_lt_succ hi)
      rwa [Nat.add_comm i 1, ← Nat.add_assoc] at htail

theorem resample_constant {sample : Int → Byte} {axis : ResampleAxis} {out : Nat}
    {bounds : Int × Int} {weights : List Int} {v : Byte}
    (hbounds : axis.bounds[out]? = some bounds) (hweights : axis.weights[out]? = some weights)
    (hsum : |weights.sum - 2 ^ 22| ≤ 4096)
    (hconstant : ∀ i < weights.length, sample (bounds.1 + (i : Nat)) = v) :
    resample sample axis out = v := by
  have hv : (v.val : Int) ≤ 255 := by have hlt := v.isLt; omega
  have hv0 : (0 : Int) ≤ v.val := Int.natCast_nonneg _
  unfold resample
  rw [List.getD_eq_getElem?_getD, List.getD_eq_getElem?_getD, hbounds, hweights]
  dsimp only [Option.getD_some]
  rw [foldl_constant weights 0 (2 ^ 21) (by simpa using hconstant)]
  obtain ⟨hlow, hhigh⟩ := abs_le.mp hsum
  generalize weights.sum = total at hlow hhigh
  have hquotient : (2 ^ 21 + (v.val : Int) * total) / 2 ^ 22 = v.val := by
    have hlo : (v.val : Int) * (total - 2 ^ 22) ≥ v.val * -4096 :=
      mul_le_mul_of_nonneg_left hlow hv0
    have hhi : (v.val : Int) * (total - 2 ^ 22) ≤ v.val * 4096 :=
      mul_le_mul_of_nonneg_left hhigh hv0
    have hsplit : (2 ^ 21 + (v.val : Int) * total) =
        (2 ^ 21 + v.val * (total - 2 ^ 22)) + v.val * 2 ^ 22 := by ring
    rw [hsplit, Int.add_mul_ediv_right _ _ (by norm_num)]
    omega
  rw [hquotient, clampU8_val]

/-! ## One axis -/

section Axis
variable {K : Type} [Field K] [LinearOrder K] [FloorRing K] [IsStrictOrderedRing K]
variable (sqrt : K → K) {inputSize outputSize : Int}

def axisScale (K : Type) [Field K] (inputSize outputSize : Int) : K := inputSize / outputSize

variable (hinput : 1 ≤ inputSize) {out : Int} (hout : 0 ≤ out) (hsize : out < outputSize)
include hinput hout hsize

theorem centered_axis : Centered inputSize (filterWidth (axisScale K inputSize outputSize))
    (outputCenter (axisScale K inputSize outputSize) out) :=
  centered_of_out hinput hout hsize

theorem unnormalised_sum_pos :
    0 < (unnormalised (ideal sqrt) inputSize out (axisScale K inputSize outputSize)).sum := by
  have h := centered_axis (K := K) hinput hout hsize
  have hsum := rawWeights_sum_ge h
  rw [unnormalised_ideal sqrt h]
  linarith

omit [IsStrictOrderedRing K] hinput hout hsize in
theorem windowCount_le_size (n : Int) (width center : K) :
    windowCount n width center ≤ n.toNat := by
  have hfirst := windowFirst_nonneg width center
  have hstop := windowStop_le n width center
  unfold windowCount
  omega

theorem fixedPoint_sum_near (hle : inputSize ≤ 8192) :
    |((resampleWindow (ideal sqrt) inputSize (axisScale K inputSize outputSize) out).2.map
      (fixedPoint (ideal sqrt))).sum - 2 ^ 22| ≤ 4096 := by
  have h := centered_axis (K := K) hinput hout hsize
  have hpos : 0 < (rawWeights inputSize (filterWidth (axisScale K inputSize outputSize))
      (outputCenter (axisScale K inputSize outputSize) out)).sum := by
    linarith [rawWeights_sum_ge h]
  have hnear := sum_fixedPoint_near sqrt
    (resampleWindow (ideal sqrt) inputSize (axisScale K inputSize outputSize) out).2
  rw [resampleWindow_weights sqrt h] at hnear ⊢
  generalize hfixed : ((List.map _ _).map (fixedPoint (ideal sqrt))).sum = total at hnear ⊢
  simp only [div_eq_mul_inv, List.sum_map_mul_right, List.map_id', List.length_map,
    mul_inv_cancel₀ hpos.ne', one_mul] at hnear
  have hcount : ((rawWeights inputSize (filterWidth (axisScale K inputSize outputSize))
      (outputCenter (axisScale K inputSize outputSize) out)).length : K) ≤ 8192 := by
    rw [rawWeights, List.length_map, List.length_range]
    have hnat := windowCount_le_size inputSize (filterWidth (axisScale K inputSize outputSize))
      (outputCenter (axisScale K inputSize outputSize) out)
    exact_mod_cast (by omega : windowCount inputSize _ _ ≤ 8192)
  have hle : |((total - 2 ^ 22 : Int) : K)| ≤ ((4096 : Int) : K) := by
    push_cast
    linarith
  exact_mod_cast hle

omit hout hsize in
theorem resample_axis_constant (hle : inputSize ≤ 8192) {sample : Int → Byte} {v : Byte}
    (hsample : ∀ j, 0 ≤ j → j < inputSize → sample j = v) {out : Nat} (hout : out < outputSize) :
    resample sample (bicubicAxis (ideal sqrt) inputSize outputSize) out = v := by
  have hnonneg : (0 : Int) ≤ out := Int.natCast_nonneg out
  have h := centered_axis (K := K) hinput hnonneg hout
  have hscale : axisScaleOf (ideal sqrt) inputSize outputSize =
      axisScale K inputSize outputSize := rfl
  obtain ⟨hbounds, hweights⟩ := bicubicAxis_getElem? (ideal sqrt) inputSize hout
  rw [hscale] at hbounds hweights
  apply resample_constant hbounds hweights
  · exact fixedPoint_sum_near sqrt hinput hnonneg hout hle
  · intro i hi
    rw [List.length_map, resampleWindow_weights sqrt h, List.length_map, rawWeights,
      List.length_map, List.length_range, windowCount] at hi
    have hfirst := windowFirst_nonneg (filterWidth (axisScale K inputSize outputSize))
      (outputCenter (axisScale K inputSize outputSize) out)
    have hstop := windowStop_le inputSize (filterWidth (axisScale K inputSize outputSize))
      (outputCenter (axisScale K inputSize outputSize) out)
    rw [resampleWindow_bounds sqrt h]
    dsimp only
    exact hsample _ (by omega) (by omega)

end Axis

/-! ## Both passes -/

section Passes
variable {D : Type} (arith : DoubleArithmetic D)

def horizontalPass (input : Bytes) (inputWidth inputHeight outputWidth : Int) : Bytes :=
  raster inputHeight.toNat outputWidth.toNat 3 fun y x channel =>
    resample (fun source => input.getD ((y * inputWidth + source).toNat * 3 + channel) 0)
      (bicubicAxis arith inputWidth outputWidth) x

def verticalPass (intermediate : Bytes) (inputHeight outputWidth outputHeight : Int) : Bytes :=
  raster outputHeight.toNat outputWidth.toNat 3 fun y x channel =>
    resample (fun source => intermediate.getD ((source * outputWidth + x).toNat * 3 + channel) 0)
      (bicubicAxis arith inputHeight outputHeight) y

theorem resizeBicubic_eq_passes (input : Bytes)
    (inputWidth inputHeight outputWidth outputHeight : Int) :
    resizeBicubic arith input inputWidth inputHeight outputWidth outputHeight =
      if inputWidth = outputWidth ∧ inputHeight = outputHeight then
        input.take (inputWidth.toNat * inputHeight.toNat * 3)
      else verticalPass arith (horizontalPass arith input inputWidth inputHeight outputWidth)
        inputHeight outputWidth outputHeight := rfl

end Passes

/-- The samples of a channel of an image of `pixels` pixels. -/
def ConstantChannel (image : Bytes) (pixels channel : Nat) (v : Byte) : Prop :=
  ∀ p < pixels, image[p * 3 + channel]? = some v

theorem raster_constant {height width channel : Nat} {v : Byte}
    {sample : Nat → Nat → Nat → Byte} (hchannel : channel < 3)
    (h : ∀ y < height, ∀ x < width, sample y x channel = v) :
    ConstantChannel (raster height width 3 sample) (height * width) channel v := by
  intro p hp
  have hwidth : 0 < width := Nat.pos_of_ne_zero fun h0 => by simp [h0] at hp
  have hy : p / width < height := (Nat.div_lt_iff_lt_mul hwidth).mpr hp
  have hx : p % width < width := Nat.mod_lt p hwidth
  have hget := @raster_getElem? _ _ _ _ sample _ _ _ hy hx hchannel
  rw [Nat.div_add_mod', h _ hy _ hx] at hget
  exact hget

theorem ConstantChannel.getD {image : Bytes} {height width channel : Nat} {v : Byte}
    (h : ConstantChannel image (height * width) channel v) {y x : Int} (hy0 : 0 ≤ y)
    (hy : y < height) (hx0 : 0 ≤ x) (hx : x < width) :
    image.getD ((y * width + x).toNat * 3 + channel) 0 = v := by
  obtain ⟨y, rfl⟩ := Int.eq_ofNat_of_zero_le hy0
  obtain ⟨x, rfl⟩ := Int.eq_ofNat_of_zero_le hx0
  have hmul := Nat.mul_le_mul_right width (Nat.succ_le_of_lt (Int.ofNat_lt.mp hy))
  rw [Nat.succ_mul] at hmul
  have hp : ((y : Int) * width + x).toNat = y * width + x := by
    exact_mod_cast Int.toNat_natCast (y * width + x)
  rw [hp, List.getD_eq_getElem?_getD, h _ (by omega), Option.getD_some]

/-- Every sample of a constant channel comes out unchanged, and no window has weight 0. -/
theorem resizeBicubic_constant (sqrt : Rat → Rat) {input : Bytes} {v : Byte} {channel : Nat}
    {inputWidth inputHeight outputWidth outputHeight : Int}
    (hwidth : 1 ≤ inputWidth) (hwidth' : inputWidth ≤ 8192) (hheight : 1 ≤ inputHeight)
    (hheight' : inputHeight ≤ 8192) (htargetWidth : 1 ≤ outputWidth)
    (htargetHeight : 1 ≤ outputHeight) (hchannel : channel < 3)
    (hlength : input.length = (inputHeight.toNat * inputWidth.toNat) * 3)
    (hconstant : ConstantChannel input (inputHeight.toNat * inputWidth.toNat) channel v) :
    ConstantChannel
      (resizeBicubic (ideal sqrt) input inputWidth inputHeight outputWidth outputHeight)
      (outputHeight.toNat * outputWidth.toNat) channel v ∧
    (resizeBicubic (ideal sqrt) input inputWidth inputHeight outputWidth outputHeight).length =
      (outputHeight.toNat * outputWidth.toNat) * 3 ∧
    (∀ out, 0 ≤ out → out < outputWidth →
      (unnormalised (ideal sqrt) inputWidth out (inputWidth / outputWidth)).sum ≠ 0) ∧
    ∀ out, 0 ≤ out → out < outputHeight →
      (unnormalised (ideal sqrt) inputHeight out (inputHeight / outputHeight)).sum ≠ 0 := by
  refine ⟨?_, ?_, ?_, ?_⟩
  · rw [resizeBicubic_eq_passes]
    split_ifs with hsame
    · obtain ⟨rfl, rfl⟩ := hsame
      intro p hp
      rw [List.getElem?_take_of_lt (by nlinarith), hconstant p hp]
    · have hwidthNat : ((inputWidth.toNat : Nat) : Int) = inputWidth := by omega
      have hheightNat : ((inputHeight.toNat : Nat) : Int) = inputHeight := by omega
      have htargetNat : ((outputWidth.toNat : Nat) : Int) = outputWidth := by omega
      have hintermediate : ConstantChannel
          (horizontalPass (ideal sqrt) input inputWidth inputHeight outputWidth)
          (inputHeight.toNat * outputWidth.toNat) channel v := by
        apply raster_constant hchannel
        intro y hy x hx
        apply resample_axis_constant sqrt hwidth hwidth' _ (by omega)
        intro j hj0 hj
        have hread := hconstant.getD (Int.natCast_nonneg y) (by omega) hj0 (by omega)
        rwa [hwidthNat] at hread
      apply raster_constant hchannel
      intro y hy x hx
      apply resample_axis_constant sqrt hheight hheight' _ (by omega)
      intro j hj0 hj
      have hread := hintermediate.getD hj0 (by omega) (Int.natCast_nonneg x) (by omega)
      rwa [htargetNat] at hread
  · rw [resizeBicubic_eq_passes]
    split_ifs with hsame
    · obtain ⟨rfl, rfl⟩ := hsame
      rw [List.length_take, hlength, Nat.mul_comm inputWidth.toNat, Nat.min_self]
    · rw [verticalPass, raster_length, Nat.mul_assoc]
  · intro out hout hsize
    exact (unnormalised_sum_pos sqrt hwidth hout hsize).ne'
  · intro out hout hsize
    exact (unnormalised_sum_pos sqrt hheight hout hsize).ne'

/-- Three by two pixels to two by three; only the second channel is constant. -/
theorem resizeBicubic_constant_sample :
    (bicubicAxis (ideal (id : Rat → Rat)) 3 2).bounds = [(0, 3), (0, 3)] ∧
    ConstantChannel (resizeBicubic (ideal (id : Rat → Rat))
      [0, 8, 9, 50, 8, 200, 255, 8, 30, 7, 8, 1, 100, 8, 90, 60, 8, 0] 3 2 2 3) 6 1 8 ∧
    (resizeBicubic (ideal (id : Rat → Rat))
      [0, 8, 9, 50, 8, 200, 255, 8, 30, 7, 8, 1, 100, 8, 90, 60, 8, 0] 3 2 2 3).length = 18 ∧
    (∀ out, 0 ≤ out → out < 2 →
      (unnormalised (ideal (id : Rat → Rat)) 3 out ((3 : Int) / (2 : Int))).sum ≠ 0) ∧
    ∀ out, 0 ≤ out → out < 3 →
      (unnormalised (ideal (id : Rat → Rat)) 2 out ((2 : Int) / (3 : Int))).sum ≠ 0 := by
  have hconstant : ConstantChannel
      [0, 8, 9, 50, 8, 200, 255, 8, 30, 7, 8, 1, 100, 8, 90, 60, 8, 0] 6 1 8 := by
    unfold ConstantChannel
    decide
  exact ⟨by decide +kernel, resizeBicubic_constant id (by norm_num) (by norm_num) (by norm_num)
    (by norm_num) (by norm_num) (by norm_num) (by norm_num) rfl hconstant⟩

end Branchscore.ImagePreprocessor
