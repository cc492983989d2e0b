import Branchscore.ImagePreprocessor.Constant
import Branchscore.ImagePreprocessor.TargetSize

/-!
# Resizing is convolution

The windows leave out samples of no weight only, so every output sample is a weighted sum over
the whole source. Seen like this, resizing to the same size changes nothing, which is why the
early return is right, and resizing commutes with mirrors.
-/

namespace Branchscore.ImagePreprocessor

open Foundation Outcome
set_option autoImplicit false

/-! ## Sums over a source -/

section Sums
variable {M : Type} [AddCommMonoid M] {n : Int} {f : Int → M}

theorem sum_window {first stop : Int} (hfirst : 0 ≤ first) (hstop : stop ≤ n)
    (hzero : ∀ j, 0 ≤ j → j < n → ¬(first ≤ j ∧ j < stop) → f j = 0) :
    ∑ i ∈ Finset.range (stop - first).toNat, f (i + first) =
      ∑ j ∈ Finset.range n.toNat, f j := by
  obtain ⟨start, rfl⟩ := Int.eq_ofNat_of_zero_le hfirst
  have hshift : ∑ i ∈ Finset.range (stop - start).toNat, f (i + start) =
      ∑ j ∈ Finset.Ico start (start + (stop - start).toNat), f j := by
    rw [Finset.sum_Ico_eq_sum_range, Nat.add_sub_cancel_left]
    apply Finset.sum_congr rfl
    intro i _
    rw [Nat.cast_add, add_comm]
  rw [hshift]
  apply Finset.sum_subset
  · intro j hj
    rw [Finset.mem_Ico] at hj
    rw [Finset.mem_range]
    omega
  · intro j hj hout
    rw [Finset.mem_range] at hj
    rw [Finset.mem_Ico] at hout
    exact hzero j (Int.natCast_nonneg j) (by omega) (by omega)

theorem sum_mirror (n : Int) (f : Int → M) :
    ∑ j ∈ Finset.range n.toNat, f (n - 1 - j) = ∑ j ∈ Finset.range n.toNat, f j := by
  rw [← Finset.sum_range_reflect (fun j : Nat => f j)]
  apply Finset.sum_congr rfl
  intro j hj
  rw [Finset.mem_range] at hj
  congr 1
  omega

end Sums

/-! ## Samples of no weight -/

section Kernel
variable {K : Type} [Field K] [LinearOrder K] [IsStrictOrderedRing K]

theorem bicubic_of_two_le {x : K} (h : 2 ≤ |x|) : bicubic x = 0 := by
  have h1 : ¬|x| < 1 := not_lt.mpr (le_trans (by norm_num) h)
  rw [bicubic, if_neg h1, if_neg (not_lt.mpr h)]

omit [IsStrictOrderedRing K] in
theorem bicubic_neg (x : K) : bicubic (-x) = bicubic x := by
  unfold bicubic
  rw [abs_neg]

theorem bicubic_intCast (i : Int) : bicubic (i : K) = if i = 0 then 1 else 0 := by
  unfold bicubic
  rw [← Int.cast_abs]
  by_cases h0 : i = 0
  · subst h0
    simp
  · have hne : |i| ≠ 0 := abs_ne_zero.mpr h0
    have habs : 0 ≤ |i| := abs_nonneg i
    have h1 : ¬((|i| : Int) : K) < 1 := by
      rw [not_lt]
      exact_mod_cast (by omega : 1 ≤ |i|)
    rw [if_neg h1, if_neg h0]
    by_cases hone : |i| = 1
    · rw [hone]
      norm_num
    · have h2 : ¬((|i| : Int) : K) < 2 := by
        rw [not_lt]
        exact_mod_cast (by omega : 2 ≤ |i|)
      rw [if_neg h2]

variable [FloorRing K] {n : Int} {width center : K}

theorem rawWeight_outside (hwidth : 1 ≤ width) {j : Int} (hj : 0 ≤ j) (hjn : j < n)
    (hout : ¬(windowFirst width center ≤ j ∧ j < windowStop n width center)) :
    rawWeight width center j = 0 := by
  have hpos : 0 < width := lt_of_lt_of_le one_pos hwidth
  apply bicubic_of_two_le
  rw [abs_div, abs_of_pos hpos, le_div_iff₀ hpos, le_abs]
  unfold windowFirst windowStop at hout
  rcases not_and_or.mp hout with hlow | hhigh
  · have hlt : j + 1 ≤ ⌊center - 2 * width + 1 / 2⌋ := by
      rw [max_le_iff, not_and] at hlow
      exact Int.add_one_le_iff.mpr (not_le.mp (hlow hj))
    have hle : (j : K) + 1 ≤ center - 2 * width + 1 / 2 := by
      exact_mod_cast Int.le_floor.mp hlt
    right
    linarith
  · have hge : ⌊center + 2 * width + 1 / 2⌋ ≤ j := by
      rw [lt_min_iff, not_and] at hhigh
      exact not_lt.mp (hhigh hjn)
    have hlt : center + 2 * width + 1 / 2 < (j : K) + 1 := by
      exact_mod_cast Int.floor_le_iff.mp hge
    left
    linarith

/-- The weights of a window add up to the weights of the whole source. -/
theorem rawWeights_sum (hwidth : 1 ≤ width) : (rawWeights n width center).sum =
    ∑ j ∈ Finset.range n.toNat, rawWeight width center j := by
  exact sum_window (windowFirst_nonneg width center) (windowStop_le n width center)
    fun j => rawWeight_outside hwidth

omit [IsStrictOrderedRing K] in
theorem rawWeight_mirror (n j : Int) (width center : K) :
    rawWeight width (n - center) (n - 1 - j) = rawWeight width center j := by
  unfold rawWeight
  rw [← bicubic_neg]
  congr 1
  push_cast
  ring

end Kernel

/-! ## Convolution with the whole source -/

section Convolution
variable {K : Type} [Field K] [LinearOrder K] [FloorRing K] (sqrt : K → K)

/-- What a sample weighs among all samples of its source, in fixed point. -/
def share (width center : K) (n j : Int) : Int :=
  fixedPoint (ideal sqrt)
    (rawWeight width center j / ∑ i ∈ Finset.range n.toNat, rawWeight width center i)

/-- An output sample as a weighted sum over all samples of the source. -/
def convolve (inputSize outputSize : Int) (sample : Int → Byte) (out : Int) : Byte :=
  let scale := axisScale K inputSize outputSize
  clampU8 ((2 ^ 21 + ∑ j ∈ Finset.range inputSize.toNat,
    ((sample j).val : Int) * share sqrt (filterWidth scale) (outputCenter scale out) inputSize j) /
      2 ^ 22)

variable {inputSize outputSize : Int} {sample sample' : Int → Byte}

theorem convolve_congr {out : Int} (h : ∀ j, 0 ≤ j → j < inputSize → sample j = sample' j) :
    convolve sqrt inputSize outputSize sample out =
      convolve sqrt inputSize outputSize sample' out := by
  unfold convolve
  dsimp only
  rw [Finset.sum_congr rfl fun j hj => ?_]
  rw [Finset.mem_range] at hj
  rw [h j (Int.natCast_nonneg j) (by omega)]

theorem share_mirror (width center : K) (n j : Int) :
    share sqrt width (n - center) n (n - 1 - j) = share sqrt width center n j := by
  have htotal : ∑ i ∈ Finset.range n.toNat, rawWeight width (n - center) i =
      ∑ i ∈ Finset.range n.toNat, rawWeight width center i := by
    rw [← sum_mirror n fun i => rawWeight width (n - center) i]
    simp only [rawWeight_mirror]
  rw [share, share, rawWeight_mirror, htotal]

/-- The mirror of a source is resized to the mirror. -/
theorem convolve_mirror [CharZero K] {out : Int} (houtput : 1 ≤ outputSize) :
    convolve sqrt inputSize outputSize (fun j => sample (inputSize - 1 - j)) out =
      convolve sqrt inputSize outputSize sample (outputSize - 1 - out) := by
  have hpos : (outputSize : K) ≠ 0 := Int.cast_ne_zero.mpr (by omega)
  have hcenter : outputCenter (axisScale K inputSize outputSize) (outputSize - 1 - out) =
      inputSize - outputCenter (axisScale K inputSize outputSize) out := by
    unfold outputCenter axisScale
    push_cast
    field_simp
    ring
  unfold convolve
  dsimp only
  rw [hcenter, ← sum_mirror inputSize fun j => ((sample j).val : Int) * share sqrt
    (filterWidth (axisScale K inputSize outputSize))
    (inputSize - outputCenter (axisScale K inputSize outputSize) out) inputSize j]
  simp only [share_mirror]

variable [IsStrictOrderedRing K]

theorem fixedPoint_natCast (weight : Nat) :
    fixedPoint (ideal sqrt) (weight : K) = weight * 2 ^ 22 := by
  have hweight : (0 : K) ≤ weight := Nat.cast_nonneg weight
  have hnonneg : (0 : K) ≤ weight * 2 ^ 22 + 1 / 2 := by positivity
  have hfloor : ⌊(weight * 2 ^ 22 + 1 / 2 : K)⌋ = weight * 2 ^ 22 := by
    rw [Int.floor_eq_iff]
    push_cast
    constructor <;> linarith
  simp only [fixedPoint, ideal, Int.cast_zero, decide_eq_true_eq, Int.cast_pow, Int.cast_ofNat]
  rw [if_neg (not_lt.mpr hweight), truncate_of_nonneg hnonneg, hfloor]

/-- The accumulation over a window. -/
theorem foldl_weights {weights : List Int} {first : Int} (start : Nat) (sum : Int) :
    (weights.zipIdx start).foldl
      (fun (sum : Int) w => sum + ((sample (first + w.2)).val : Int) * w.1) sum =
      sum + ∑ i ∈ Finset.range weights.length,
        ((sample (first + (start + i : Nat))).val : Int) * weights.getD i 0 := by
  induction weights generalizing start sum with
  | nil => simp
  | cons weight weights ih =>
    rw [List.zipIdx_cons, List.foldl_cons, ih, List.length_cons, Finset.sum_range_succ']
    simp only [Nat.add_assoc, Nat.add_comm 1, List.getD_cons_succ, List.getD_cons_zero,
      Nat.add_zero]
    ring

theorem share_outside {width center : K} {n j : Int} (hwidth : 1 ≤ width) (hj : 0 ≤ j)
    (hjn : j < n) (hout : ¬(windowFirst width center ≤ j ∧ j < windowStop n width center)) :
    share sqrt width center n j = 0 := by
  have hzero := fixedPoint_natCast sqrt 0
  rw [Nat.cast_zero, Nat.cast_zero, zero_mul] at hzero
  rw [share, rawWeight_outside hwidth hj hjn hout, zero_div, hzero]

theorem rawWeights_share {width center : K} {n : Int} (hwidth : 1 ≤ width) {i : Nat}
    (hi : i < windowCount n width center) :
    (((rawWeights n width center).map (· / (rawWeights n width center).sum)).map
      (fixedPoint (ideal sqrt))).getD i 0 =
      share sqrt width center n (i + windowFirst width center) := by
  rw [rawWeights_sum hwidth, List.getD_eq_getElem?_getD, rawWeights, List.map_map, List.map_map,
    List.getElem?_map, List.getElem?_range hi]
  rfl

/-- The window of an output sample may be forgotten. -/
theorem resample_eq_convolve (hinput : 1 ≤ inputSize) {out : Nat} (hout : out < outputSize) :
    resample sample (bicubicAxis (ideal sqrt) inputSize outputSize) out =
      convolve sqrt inputSize outputSize sample out := by
  have h := centered_axis (K := K) hinput (Int.natCast_nonneg out) hout
  have hscale : axisScaleOf (ideal sqrt) inputSize outputSize =
      axisScale K inputSize outputSize := rfl
  obtain ⟨hbounds, hweights⟩ := bicubicAxis_getElem? (ideal sqrt) inputSize hout
  rw [hscale] at hbounds hweights
  unfold resample convolve
  dsimp only
  generalize axisScale K inputSize outputSize = scale at hbounds hweights h ⊢
  rw [List.getD_eq_getElem?_getD, List.getD_eq_getElem?_getD, hbounds, hweights,
    resampleWindow_bounds sqrt h, resampleWindow_weights sqrt h]
  dsimp only [Option.getD_some]
  generalize outputCenter scale out = center at h ⊢
  have hwidth := h.one_le
  generalize filterWidth scale = width at hwidth ⊢
  have hcount : (((rawWeights inputSize width center).map
      (· / (rawWeights inputSize width center).sum)).map (fixedPoint (ideal sqrt))).length =
      windowCount inputSize width center := by
    rw [List.length_map, List.length_map, rawWeights, List.length_map, List.length_range]
  rw [foldl_weights, hcount, ← sum_window (windowFirst_nonneg width center)
    (windowStop_le inputSize width center)
    (f := fun j => ((sample j).val : Int) * share sqrt width center inputSize j)]
  · congr 3
    apply Finset.sum_congr rfl
    intro i hi
    rw [rawWeights_share sqrt hwidth (Finset.mem_range.mp hi), Nat.zero_add,
      add_comm (windowFirst width center)]
  · intro j hj hjn hout
    rw [share_outside sqrt hwidth hj hjn hout, mul_zero]

theorem share_same {n out j : Int} (hout : 0 ≤ out) (hn : out < n) :
    share sqrt (filterWidth (axisScale K n n)) (outputCenter (axisScale K n n) out) n j =
      if j = out then 2 ^ 22 else 0 := by
  have hscale : axisScale K n n = 1 := div_self (Int.cast_ne_zero.mpr (by omega))
  have hraw (j : Int) : rawWeight (filterWidth (1 : K)) (outputCenter 1 out) j =
      ((if j = out then 1 else 0 : Nat) : K) := by
    have hdiff : ((j : K) - outputCenter 1 out + 1 / 2) / filterWidth 1 =
        ((j - out : Int) : K) := by
      rw [filterWidth, max_self, div_one, outputCenter]
      push_cast
      ring
    rw [rawWeight, hdiff, bicubic_intCast, Nat.cast_ite, Nat.cast_one, Nat.cast_zero]
    simp only [sub_eq_zero]
  have htotal : ∑ i ∈ Finset.range n.toNat, rawWeight (filterWidth (1 : K)) (outputCenter 1 out) i =
      1 := by
    obtain ⟨out, rfl⟩ := Int.eq_ofNat_of_zero_le hout
    simp only [hraw, Int.ofNat_inj]
    rw [← Nat.cast_sum, Finset.sum_ite_eq', if_pos (Finset.mem_range.mpr (by omega)), Nat.cast_one]
  rw [hscale, share, htotal, div_one, hraw, fixedPoint_natCast]
  split_ifs
  · rw [Nat.cast_one, one_mul]
  · rw [Nat.cast_zero, zero_mul]

/-- A source that is resized to its own size stays as it is. -/
theorem convolve_same {n out : Int} (hout : 0 ≤ out) (hn : out < n) :
    convolve sqrt n n sample out = sample out := by
  have hsum : ∑ j ∈ Finset.range n.toNat, ((sample j).val : Int) *
      share sqrt (filterWidth (axisScale K n n)) (outputCenter (axisScale K n n) out) n j =
      (sample out).val * 2 ^ 22 := by
    simp only [share_same sqrt hout hn]
    rw [Finset.sum_eq_single_of_mem out.toNat (Finset.mem_range.mpr (by omega))]
    · rw [Int.toNat_of_nonneg hout, if_pos rfl]
    · intro j _ hne
      rw [if_neg (by omega), mul_zero]
  unfold convolve
  dsimp only
  rw [hsum, Int.add_mul_ediv_right _ _ (by norm_num), Int.ediv_eq_zero_of_lt (by norm_num)
    (by norm_num), zero_add, clampU8_val]

end Convolution

/-! ## Images -/

/-- A sample of an image of three channels. -/
def pixel (image : Bytes) (width y x : Int) (channel : Nat) : Byte :=
  image.getD ((y * width + x).toNat * 3 + channel) 0

theorem pixel_raster {height width : Nat} {sample : Nat → Nat → Nat → Byte} {y x channel : Nat}
    (hy : y < height) (hx : x < width) (hchannel : channel < 3) :
    pixel (raster height width 3 sample) width y x channel = sample y x channel := by
  have hindex : ((y : Int) * width + x).toNat = y * width + x := by
    exact_mod_cast Int.toNat_natCast (y * width + x)
  rw [pixel, hindex, List.getD_eq_getElem?_getD, raster_getElem? hy hx hchannel, Option.getD_some]

/-- A raster of a function of coordinates is read at coordinates. -/
theorem pixel_raster_int {height width : Nat} (sample : Int → Int → Nat → Byte) {y x : Int}
    {channel : Nat} (hy : 0 ≤ y) (hylt : y < height) (hx : 0 ≤ x) (hxlt : x < width)
    (hchannel : channel < 3) :
    pixel (raster height width 3 fun y x channel => sample y x channel) width y x channel =
      sample y x channel := by
  obtain ⟨y, rfl⟩ := Int.eq_ofNat_of_zero_le hy
  obtain ⟨x, rfl⟩ := Int.eq_ofNat_of_zero_le hx
  exact pixel_raster (Int.ofNat_lt.mp hylt) (Int.ofNat_lt.mp hxlt) hchannel

theorem raster_congr {height width : Nat} {sample sample' : Nat → Nat → Nat → Byte}
    (h : ∀ y < height, ∀ x < width, ∀ channel < 3, sample y x channel = sample' y x channel) :
    raster height width 3 sample = raster height width 3 sample' := by
  unfold raster
  refine List.flatMap_congr fun y hy => List.flatMap_congr fun x hx => ?_
  exact List.map_congr_left fun channel hchannel => h y (List.mem_range.mp hy) x
    (List.mem_range.mp hx) channel (List.mem_range.mp hchannel)

theorem raster_pixel {image : Bytes} {height width : Nat}
    (hlength : image.length = height * (width * 3)) :
    raster height width 3 (fun y x channel => pixel image width y x channel) = image := by
  apply List.ext_getElem?
  intro i
  by_cases hi : i < image.length
  · have hwidth : 0 < width := Nat.pos_of_ne_zero fun h0 => by
      rw [hlength, h0, Nat.zero_mul, Nat.mul_zero] at hi
      exact Nat.not_lt_zero i hi
    have hpixel : i / 3 < height * width := by
      rw [Nat.div_lt_iff_lt_mul (Nat.zero_lt_succ 2), Nat.mul_assoc, ← hlength]
      exact hi
    have hindex : (i / 3 / width * width + i / 3 % width) * 3 + i % 3 = i := by
      rw [Nat.div_add_mod', Nat.div_add_mod']
    have hget := @raster_getElem? _ _ _ _ (fun y x channel => pixel image width y x channel) _ _ _
      ((Nat.div_lt_iff_lt_mul hwidth).mpr hpixel) (Nat.mod_lt (i / 3) hwidth)
      (Nat.mod_lt i (Nat.zero_lt_succ 2))
    have hread : ((i / 3 / width : Nat) * (width : Int) + (i / 3 % width : Nat)).toNat * 3 + i % 3 =
        i := by
      rw [← Nat.cast_mul, ← Nat.cast_add, Int.toNat_natCast, hindex]
    rw [hindex, pixel, hread, List.getD_eq_getElem _ _ hi] at hget
    rw [hget, List.getElem?_eq_getElem hi]
  · have hraster : (raster height width 3 fun y x channel => pixel image width y x channel).length ≤
        i := by
      rw [raster_length, ← hlength]
      exact Nat.le_of_not_lt hi
    rw [List.getElem?_eq_none hraster, List.getElem?_eq_none (Nat.le_of_not_lt hi)]

/-- The mirror of an image, left for right. -/
def mirrored (image : Bytes) (width height : Nat) : Bytes :=
  raster height width 3 fun y x channel => pixel image width y ((width : Int) - 1 - x) channel

/-- An image upside down. -/
def upsideDown (image : Bytes) (width height : Nat) : Bytes :=
  raster height width 3 fun y x channel => pixel image width ((height : Int) - 1 - y) x channel

section Images
variable {K : Type} [Field K] [LinearOrder K] [FloorRing K] (sqrt : K → K) {image : Bytes}

/-- A sample of the resized image. -/
def resized (image : Bytes) (width height outputWidth outputHeight y x : Int) (channel : Nat) :
    Byte :=
  convolve sqrt height outputHeight (fun row => convolve sqrt width outputWidth
    (fun column => pixel image width row column channel) x) y

section Mirrors
variable [CharZero K] {w h outputWidth outputHeight : Nat}

theorem resized_mirrored {y x : Nat} {channel : Nat} (hx : x < outputWidth)
    (hchannel : channel < 3) :
    resized sqrt (mirrored image w h) w h outputWidth outputHeight y x channel =
      resized sqrt image w h outputWidth outputHeight y (outputWidth - 1 - x) channel := by
  unfold resized
  apply convolve_congr
  intro row hrow hrowlt
  rw [← convolve_mirror sqrt (by omega)]
  apply convolve_congr
  intro column hcolumn hcolumnlt
  exact pixel_raster_int (fun y x channel => pixel image w y (w - 1 - x) channel) hrow hrowlt
    hcolumn hcolumnlt hchannel

theorem resized_upsideDown {y x : Nat} {channel : Nat} (hy : y < outputHeight)
    (hchannel : channel < 3) :
    resized sqrt (upsideDown image w h) w h outputWidth outputHeight y x channel =
      resized sqrt image w h outputWidth outputHeight (outputHeight - 1 - y) x channel := by
  unfold resized
  rw [← convolve_mirror sqrt (by omega)]
  apply convolve_congr
  intro row hrow hrowlt
  apply convolve_congr
  intro column hcolumn hcolumnlt
  exact pixel_raster_int (fun y x channel => pixel image w (h - 1 - y) x channel) hrow hrowlt
    hcolumn hcolumnlt hchannel

end Mirrors

variable [IsStrictOrderedRing K]

theorem resizeBicubic_eq_raster {width height outputWidth outputHeight : Int}
    (hwidth : 1 ≤ width) (hheight : 1 ≤ height)
    (hlength : image.length = height.toNat * (width.toNat * 3)) :
    resizeBicubic (ideal sqrt) image width height outputWidth outputHeight =
      raster outputHeight.toNat outputWidth.toNat 3
        fun y x channel => resized sqrt image width height outputWidth outputHeight y x channel := by
  obtain ⟨w, rfl⟩ := Int.eq_ofNat_of_zero_le (by omega : 0 ≤ width)
  obtain ⟨h, rfl⟩ := Int.eq_ofNat_of_zero_le (by omega : 0 ≤ height)
  rw [resizeBicubic_eq_passes]
  split_ifs with hsame
  · obtain ⟨rfl, rfl⟩ := hsame
    rw [Int.toNat_natCast, Int.toNat_natCast] at *
    rw [List.take_of_length_le (by rw [hlength]; nlinarith), ← raster_pixel hlength]
    apply raster_congr
    intro y hy x hx channel _
    rw [resized, convolve_same sqrt (Int.natCast_nonneg y) (Int.ofNat_lt.mpr hy),
      convolve_same sqrt (Int.natCast_nonneg x) (Int.ofNat_lt.mpr hx), raster_pixel hlength]
  · apply raster_congr
    intro y hy x hx channel hchannel
    rw [resample_eq_convolve sqrt hheight (by omega)]
    apply convolve_congr
    intro row hrow hrowlt
    obtain ⟨row, rfl⟩ := Int.eq_ofNat_of_zero_le hrow
    obtain ⟨target, rfl⟩ := Int.eq_ofNat_of_zero_le (by omega : 0 ≤ outputWidth)
    have hread := @pixel_raster h target (fun y x channel => resample (fun source =>
      image.getD ((y * (w : Int) + source).toNat * 3 + channel) 0)
        (bicubicAxis (ideal sqrt) w target) x) row x channel (by omega) (by omega) hchannel
    rw [resample_eq_convolve sqrt hwidth (by omega)] at hread
    exact hread

/-- Resizing commutes with mirrors. -/
theorem resizeBicubic_mirror {w h outputWidth outputHeight : Nat} (hwidth : 1 ≤ w) (hheight : 1 ≤ h)
    (hlength : image.length = h * (w * 3)) :
    resizeBicubic (ideal sqrt) (mirrored image w h) w h outputWidth outputHeight =
      mirrored (resizeBicubic (ideal sqrt) image w h outputWidth outputHeight) outputWidth
        outputHeight ∧
    resizeBicubic (ideal sqrt) (upsideDown image w h) w h outputWidth outputHeight =
      upsideDown (resizeBicubic (ideal sqrt) image w h outputWidth outputHeight) outputWidth
        outputHeight := by
  have hresize (source : Bytes) (hsource : source.length = h * (w * 3)) :
      resizeBicubic (ideal sqrt) source w h outputWidth outputHeight =
        raster outputHeight outputWidth 3 fun y x channel =>
          resized sqrt source w h outputWidth outputHeight y x channel :=
    resizeBicubic_eq_raster sqrt (Int.ofNat_le.mpr hwidth) (Int.ofNat_le.mpr hheight) hsource
  rw [hresize image hlength]
  constructor
  · rw [hresize (mirrored image w h) raster_length]
    apply raster_congr
    intro y hy x hx channel hchannel
    rw [resized_mirrored sqrt hx hchannel]
    exact (pixel_raster_int (resized sqrt image w h outputWidth outputHeight)
      (Int.natCast_nonneg y) (Int.ofNat_lt.mpr hy) (by omega) (by omega) hchannel).symm
  · rw [hresize (upsideDown image w h) raster_length]
    apply raster_congr
    intro y hy x hx channel hchannel
    rw [resized_upsideDown sqrt hy hchannel]
    exact (pixel_raster_int (resized sqrt image w h outputWidth outputHeight)
      (by omega) (by omega) (Int.natCast_nonneg x) (Int.ofNat_lt.mpr hx) hchannel).symm

theorem checkedInt_eq_ok {value : Nat} {label : String} {result : Int}
    (h : checkedInt value label = .ok result) : 1 ≤ result ∧ result = value := by
  unfold checkedInt at h
  split_ifs at h with houtside
  · cases h
  · cases h
    exact ⟨by omega, rfl⟩

/-- The image of a model is the convolution of its source with the kernel, plane by plane. -/
theorem preprocessRgb_convolves {normalize : NormalizeSample} {width height : Nat}
    {config : VisionModelConfig} {prepared : PreparedImage}
    (hlength : image.length = height * (width * 3))
    (h : preprocessRgb (ideal sqrt) normalize image width height config = .ok prepared) :
    prepared.pixels.length = 3 * (prepared.height * prepared.width) ∧
    ∀ channel < 3, ∀ y < prepared.height, ∀ x < prepared.width,
      prepared.pixels[channel * (prepared.height * prepared.width) + (y * prepared.width + x)]? =
        some (normalize (resized sqrt image width height prepared.width prepared.height y x channel)
          (config.imageMean.getD channel 0) (config.imageStd.getD channel 0)) := by
  obtain ⟨inputWidth, hinputWidth, h⟩ := bind_eq_ok.mp h
  obtain ⟨inputHeight, hinputHeight, h⟩ := bind_eq_ok.mp h
  obtain ⟨⟨targetWidth, targetHeight⟩, _, h⟩ := bind_eq_ok.mp h
  obtain ⟨hwidth, rfl⟩ := checkedInt_eq_ok hinputWidth
  obtain ⟨hheight, rfl⟩ := checkedInt_eq_ok hinputHeight
  cases h
  dsimp only
  have hplane (channel : Nat) : ((List.range (targetWidth.toNat * targetHeight.toNat)).map
      fun p => normalize ((resizeBicubic (ideal sqrt) image width height targetWidth
        targetHeight).getD (p * 3 + channel) 0) (config.imageMean.getD channel 0)
        (config.imageStd.getD channel 0)).length = targetHeight.toNat * targetWidth.toNat := by
    rw [List.length_map, List.length_range, Nat.mul_comm]
  refine ⟨length_flatMap_range hplane 3, fun channel hchannel y hy x hx => ?_⟩
  have hindex : y * targetWidth.toNat + x < targetHeight.toNat * targetWidth.toNat := by
    have hrow := Nat.mul_le_mul_right targetWidth.toNat (Nat.succ_le_of_lt hy)
    rw [Nat.succ_mul] at hrow
    omega
  rw [getElem?_flatMap_range hplane hchannel hindex, List.getElem?_map,
    List.getElem?_range (Nat.mul_comm targetHeight.toNat _ ▸ hindex), Option.map_some]
  have hread := @pixel_raster targetHeight.toNat targetWidth.toNat (fun y x channel =>
    resized sqrt image width height targetWidth targetHeight y x channel) y x channel hy hx hchannel
  have hsample : (y : Int) * (targetWidth.toNat : Int) + x =
      ((y * targetWidth.toNat + x : Nat) : Int) := by
    push_cast
    rfl
  rw [← resizeBicubic_eq_raster sqrt hwidth hheight hlength, pixel, hsample, Int.toNat_natCast]
    at hread
  have hx' : (targetWidth.toNat : Int) = targetWidth := by omega
  have hy' : (targetHeight.toNat : Int) = targetHeight := by omega
  rw [hread, hx', hy']

end Images

/-! Two pixels become an image of two rows. -/

def tileVisionConfig : VisionModelConfig :=
  { sampleVisionConfig with patchSize := 2, mergeSize := 1, imageMinPixels := 1,
                            imageMaxPixels := 64 }

theorem preprocessRgb_convolves_sample :
    ∃ prepared, preprocessRgb (ideal (id : Rat → Rat)) (fun v _ _ => BitVec.ofNat 32 v.val)
        [10, 20, 30, 40, 50, 60] 2 1 tileVisionConfig = .ok prepared ∧
      prepared.width = 2 ∧ prepared.height = 2 ∧ prepared.pixels[1]? = some 40#32 := by
  have htarget : targetSize (ideal (id : Rat → Rat)) 2 1 tileVisionConfig = .ok (2, 2) := by
    decide +kernel
  have hvalue : resized (id : Rat → Rat) [10, 20, 30, 40, 50, 60] 2 1 2 2 0 1 0 = 40 := by
    decide +kernel
  obtain ⟨prepared, hprepared, hwidth, hheight⟩ : ∃ prepared,
      preprocessRgb (ideal (id : Rat → Rat)) (fun v _ _ => BitVec.ofNat 32 v.val)
        [10, 20, 30, 40, 50, 60] 2 1 tileVisionConfig = .ok prepared ∧
      prepared.width = 2 ∧ prepared.height = 2 :=
    ⟨_, bind_eq_ok.mpr ⟨2, rfl, bind_eq_ok.mpr ⟨1, rfl, bind_eq_ok.mpr ⟨(2, 2), htarget, rfl⟩⟩⟩,
      rfl, rfl⟩
  have hsample := (preprocessRgb_convolves id rfl hprepared).2 0 (by decide) 0
    (hheight ▸ by decide) 1 (hwidth ▸ by decide)
  rw [hwidth, hheight] at hsample
  refine ⟨prepared, hprepared, hwidth, hheight, hsample.trans ?_⟩
  exact congrArg (fun v : Byte => some (BitVec.ofNat 32 v.val)) hvalue

theorem resizeBicubic_mirror_sample :
    resizeBicubic (ideal (id : Rat → Rat)) [10, 20, 30, 40, 50, 60] 2 1 3 1 =
        [8, 18, 28, 25, 35, 45, 42, 52, 62] ∧
      resizeBicubic (ideal (id : Rat → Rat)) [40, 50, 60, 10, 20, 30] 2 1 3 1 =
        [42, 52, 62, 25, 35, 45, 8, 18, 28] := by
  have hresized : resizeBicubic (ideal (id : Rat → Rat)) [10, 20, 30, 40, 50, 60] 2 1 3 1 =
      [8, 18, 28, 25, 35, 45, 42, 52, 62] := by decide +kernel
  have hmirror := (@resizeBicubic_mirror Rat _ _ _ id [10, 20, 30, 40, 50, 60] _ 2 1 3 1
    (by decide) (le_refl 1) rfl).1
  refine ⟨hresized, hmirror.trans ?_⟩
  exact (congrArg (fun image => mirrored image 3 1) hresized).trans (by decide +kernel)

end Branchscore.ImagePreprocessor
