import Branchscore.ImagePreprocessor.Window

/-!
# The size of the prepared image

The target size in whole tiles. Scaling keeps the aspect ratio and aims at the limit
exactly, so with `t` and `u` tiles before rounding, `t * u` is the limit; a side of less
than one tile becomes one, and then the other side alone has to stay below the limit.
-/

namespace Branchscore.ImagePreprocessor

open Foundation
set_option autoImplicit false

/-! ## Rounding to tiles -/

section Tiles
variable {t u : ℝ}

theorem half_le_max_floor (t : ℝ) : t / 2 ≤ (max 1 ⌊t⌋ : Int) := by
  have hle : (⌊t⌋ : ℝ) ≤ (max 1 ⌊t⌋ : Int) := by exact_mod_cast le_max_right 1 ⌊t⌋
  have hone : (1 : ℝ) ≤ (max 1 ⌊t⌋ : Int) := by exact_mod_cast le_max_left 1 ⌊t⌋
  have hlt := Int.lt_floor_add_one t
  linarith

theorem max_floor_eq_one (h : t < 1) : max 1 ⌊t⌋ = 1 := by
  have hlt : ⌊t⌋ < 1 := Int.floor_lt.mpr (by exact_mod_cast h)
  omega

theorem max_floor_of_one_le (h : 1 ≤ t) : max 1 ⌊t⌋ = ⌊t⌋ := by
  have hle : 1 ≤ ⌊t⌋ := Int.le_floor.mpr (by exact_mod_cast h)
  omega

theorem floorTiles_ge (ht : 0 < t) (hu : 0 < u) (h : t * u = 1120) :
    70 ≤ max 1 ⌊t⌋ * max 1 ⌊u⌋ := by
  have hcast : (70 : ℝ) ≤ ((max 1 ⌊t⌋ * max 1 ⌊u⌋ : Int) : ℝ) := by
    rw [Int.cast_mul]
    have hmul := mul_le_mul (half_le_max_floor t) (half_le_max_floor u) (by linarith)
      (by linarith [half_le_max_floor t])
    nlinarith
  exact_mod_cast hcast

/-- One side below a tile: the other side is rounded down alone. -/
theorem floorTiles_thin (ht : t < 1) (hu : 0 < u) (h : t * u = 1120) :
    max 1 ⌊t⌋ * max 1 ⌊u⌋ ≤ 1120 ↔ u < 1121 := by
  have hone : 1 ≤ u := by nlinarith
  rw [max_floor_eq_one ht, max_floor_of_one_le hone, one_mul, ← Int.lt_add_one_iff, Int.floor_lt]
  norm_num

theorem floorTiles_le_iff (ht : 0 < t) (hu : 0 < u) (h : t * u = 1120) :
    max 1 ⌊t⌋ * max 1 ⌊u⌋ ≤ 1120 ↔ t < 1121 ∧ u < 1121 := by
  rcases lt_or_ge t 1 with ht1 | ht1
  · rw [floorTiles_thin ht1 hu h]
    exact ⟨fun hlt => ⟨by linarith, hlt⟩, And.right⟩
  rcases lt_or_ge u 1 with hu1 | hu1
  · rw [mul_comm (max 1 ⌊t⌋), floorTiles_thin hu1 ht (by linarith [mul_comm t u])]
    exact ⟨fun hlt => ⟨hlt, by linarith⟩, And.left⟩
  · refine iff_of_true ?_ ⟨by nlinarith, by nlinarith⟩
    rw [max_floor_of_one_le ht1, max_floor_of_one_le hu1]
    have hcast : ((⌊t⌋ * ⌊u⌋ : Int) : ℝ) ≤ ((1120 : Int) : ℝ) := by
      push_cast
      have hfloor : (0 : ℝ) ≤ (⌊u⌋ : Int) := by exact_mod_cast Int.floor_nonneg.mpr hu.le
      have hmul := mul_le_mul (Int.floor_le t) (Int.floor_le u) hfloor ht.le
      linarith
    exact_mod_cast hcast

theorem ceilTiles_ge (ht : 0 < t) (hu : 0 < u) (h : t * u = 70) : 70 ≤ ⌈t⌉ * ⌈u⌉ := by
  have hcast : ((70 : Int) : ℝ) ≤ ((⌈t⌉ * ⌈u⌉ : Int) : ℝ) := by
    push_cast
    have hmul := mul_le_mul (Int.le_ceil t) (Int.le_ceil u) hu.le
      (ht.le.trans (Int.le_ceil t))
    linarith
  exact_mod_cast hcast

theorem ceil_eq_one (ht : 0 < t) (h : t ≤ 1) : ⌈t⌉ = 1 := by
  have hpos := Int.ceil_pos.mpr ht
  have hle : ⌈t⌉ ≤ 1 := Int.ceil_le.mpr (by exact_mod_cast h)
  omega

theorem ceilTiles_thin (ht : 0 < t) (ht1 : t ≤ 1) : ⌈t⌉ * ⌈u⌉ ≤ 1120 ↔ u ≤ 1120 := by
  rw [ceil_eq_one ht ht1, one_mul, Int.ceil_le]
  norm_num

theorem ceilTiles_le_iff (ht : 0 < t) (hu : 0 < u) (h : t * u = 70) :
    ⌈t⌉ * ⌈u⌉ ≤ 1120 ↔ t ≤ 1120 ∧ u ≤ 1120 := by
  rcases le_or_gt t 1 with ht1 | ht1
  · rw [ceilTiles_thin ht ht1]
    exact ⟨fun hle => ⟨by linarith, hle⟩, And.right⟩
  rcases le_or_gt u 1 with hu1 | hu1
  · rw [mul_comm ⌈t⌉, ceilTiles_thin hu hu1]
    exact ⟨fun hle => ⟨hle, by linarith⟩, And.left⟩
  · refine iff_of_true ?_ ⟨by nlinarith, by nlinarith⟩
    have hcast : ((⌈t⌉ * ⌈u⌉ : Int) : ℝ) ≤ ((1120 : Int) : ℝ) := by
      push_cast
      have hmul := mul_le_mul (Int.ceil_lt_add_one t).le (Int.ceil_lt_add_one u).le
        (hu.le.trans (Int.le_ceil u)) (by linarith)
      nlinarith
    exact_mod_cast hcast

end Tiles

/-! ## The scaled sides -/

section Scale
variable {align width height limit : ℝ}

/-- Scaled down, the sides in tiles have the product 1120 and the ratio of the image. -/
theorem scaleDown (ha : 0 < align) (hw : 0 < width) (hh : 0 < height)
    (hlimit : limit = 1120 * align ^ 2) :
    0 < width / √(width * height / limit) / align ∧
    width / √(width * height / limit) / align * (height / √(width * height / limit) / align) =
      1120 ∧
    width / √(width * height / limit) / align * height =
      height / √(width * height / limit) / align * width := by
  have hlimit' : 0 < limit := by
    rw [hlimit]
    positivity
  have hquotient : 0 < width * height / limit := by positivity
  have hpos := Real.sqrt_pos.mpr hquotient
  have hsq := Real.sq_sqrt hquotient.le
  generalize √(width * height / limit) = scale at hpos hsq
  refine ⟨by positivity, ?_, by ring⟩
  have harea : scale ^ 2 * limit = width * height := by
    rw [hsq]
    exact div_mul_cancel₀ _ hlimit'.ne'
  rw [hlimit] at harea
  field_simp
  linarith

/-- Scaled up, the sides in tiles have the product 70 and the ratio of the image. -/
theorem scaleUp (ha : 0 < align) (hw : 0 < width) (hh : 0 < height)
    (hlimit : limit = 70 * align ^ 2) :
    0 < width * √(limit / (width * height)) / align ∧
    width * √(limit / (width * height)) / align * (height * √(limit / (width * height)) / align) =
      70 ∧
    width * √(limit / (width * height)) / align * height =
      height * √(limit / (width * height)) / align * width := by
  have hlimit' : 0 < limit := by
    rw [hlimit]
    positivity
  have hquotient : 0 < limit / (width * height) := by positivity
  have hpos := Real.sqrt_pos.mpr hquotient
  have hsq := Real.sq_sqrt hquotient.le
  generalize √(limit / (width * height)) = scale at hpos hsq
  refine ⟨by positivity, ?_, by ring⟩
  have harea : scale ^ 2 * (width * height) = limit := by
    rw [hsq]
    exact div_mul_cancel₀ _ (by positivity)
  rw [hlimit] at harea
  field_simp
  linarith

/-- A bound on a side in tiles as a bound on the aspect ratio. -/
theorem side_lt_iff {t u product bound : ℝ} (ht : 0 < t) (hh : 0 < height) (hbound : 0 < bound)
    (hproduct : t * u = product) (hratio : t * height = u * width) :
    t < bound ↔ product * width < bound ^ 2 * height := by
  have hsquare : t ^ 2 * height = product * width := by
    rw [← hproduct]
    linear_combination t * hratio
  rw [← hsquare, mul_lt_mul_iff_left₀ hh]
  exact (pow_lt_pow_iff_left₀ ht.le hbound.le two_ne_zero).symm

theorem side_le_iff {t u product bound : ℝ} (ht : 0 < t) (hh : 0 < height) (hbound : 0 < bound)
    (hproduct : t * u = product) (hratio : t * height = u * width) :
    t ≤ bound ↔ product * width ≤ bound ^ 2 * height := by
  have hsquare : t ^ 2 * height = product * width := by
    rw [← hproduct]
    linear_combination t * hratio
  rw [← hsquare, mul_le_mul_iff_left₀ hh]
  exact (pow_le_pow_iff_left₀ ht.le hbound.le two_ne_zero).symm

end Scale

/-! ## The target size -/

section Target
variable {align width height : Int}

theorem max_mul_align (ha : 1 ≤ align) (n : Int) : max align (n * align) = align * max 1 n := by
  rcases le_total 1 n with hle | hle
  · rw [max_eq_right hle, max_eq_right (by nlinarith), mul_comm]
  · rw [max_eq_left hle, max_eq_left (by nlinarith), mul_one]

theorem roundFactor_ideal (ha : 1 ≤ align) (value : ℝ) :
    roundFactor (ideal Real.sqrt) align value = align * max 1 (roundHalf (value / align)) :=
  max_mul_align ha _

theorem floorFactor_ideal (ha : 1 ≤ align) (value : ℝ) :
    floorFactor (ideal Real.sqrt) align value = align * max 1 ⌊value / align⌋ :=
  max_mul_align ha _

theorem ceilFactor_ideal (align : Int) (value : ℝ) :
    ceilFactor (ideal Real.sqrt) align value = align * ⌈value / align⌉ :=
  mul_comm _ _

/-- The area of the sides rounded to tiles, which decides whether the image is scaled. -/
def roundedArea {D : Type} (arith : DoubleArithmetic D) (align width height : Int) : Int :=
  roundFactor arith align (arith.ofInt width) * roundFactor arith align (arith.ofInt height)

/-- The image is not so thin that its longer side alone exceeds the token limit. -/
def NotTooThin (align width height : Int) : Prop :=
  (1120 * align ^ 2 < roundedArea (ideal Real.sqrt) align width height →
    1120 * width < 1121 ^ 2 * height ∧ 1120 * height < 1121 ^ 2 * width) ∧
  (roundedArea (ideal Real.sqrt) align width height < 70 * align ^ 2 →
    70 * width ≤ 1120 ^ 2 * height ∧ 70 * height ≤ 1120 ^ 2 * width)

theorem scaledSize_tiles (ha : 1 ≤ align) (hw : 1 ≤ width) (hh : 1 ≤ height) :
    ∃ x y, scaledSize (ideal Real.sqrt) align width height (70 * align ^ 2) (1120 * align ^ 2) =
        (align * x, align * y) ∧
      1 ≤ x ∧ 1 ≤ y ∧ 70 ≤ x * y ∧ (x * y ≤ 1120 ↔ NotTooThin align width height) := by
  have ha' : (0 : ℝ) < align := by exact_mod_cast ha
  have hw' : (0 : ℝ) < width := by exact_mod_cast hw
  have hh' : (0 : ℝ) < height := by exact_mod_cast hh
  have hsquare : 0 < align ^ 2 := by positivity
  have hmin : ((70 * align ^ 2 : Int) : ℝ) = 70 * (align : ℝ) ^ 2 := by push_cast; rfl
  have hmax : ((1120 * align ^ 2 : Int) : ℝ) = 1120 * (align : ℝ) ^ 2 := by push_cast; rfl
  rcases lt_or_ge (1120 * align ^ 2) (roundedArea (ideal Real.sqrt) align width height)
    with hlarge | hlarge
  · obtain ⟨ht, hproduct, hratio⟩ := scaleDown ha' hw' hh' hmax
    obtain ⟨hu, hproduct', hratio'⟩ := scaleDown ha' hh' hw' hmax
    rw [mul_comm (height : ℝ) width] at hu hproduct' hratio'
    have hsize : scaledSize (ideal Real.sqrt) align width height (70 * align ^ 2)
        (1120 * align ^ 2) = (floorFactor (ideal Real.sqrt) align
          (width / √(width * height / ((1120 * align ^ 2 : Int) : ℝ))),
        floorFactor (ideal Real.sqrt) align
          (height / √(width * height / ((1120 * align ^ 2 : Int) : ℝ)))) := if_pos hlarge
    refine ⟨_, _, ?_, le_max_left 1 _, le_max_left 1 _, floorTiles_ge ht hu hproduct, ?_⟩
    · rw [hsize, floorFactor_ideal ha, floorFactor_ideal ha]
    · rw [floorTiles_le_iff ht hu hproduct,
        side_lt_iff ht hh' (by norm_num) hproduct hratio,
        side_lt_iff hu hw' (by norm_num) hproduct' hratio']
      constructor
      · rintro ⟨h1, h2⟩
        refine ⟨fun _ => ⟨by exact_mod_cast h1, by exact_mod_cast h2⟩, fun hsmall => ?_⟩
        omega
      · intro h
        obtain ⟨h1, h2⟩ := h.1 hlarge
        exact ⟨by exact_mod_cast h1, by exact_mod_cast h2⟩
  rcases lt_or_ge (roundedArea (ideal Real.sqrt) align width height) (70 * align ^ 2)
    with hsmall | hsmall
  · obtain ⟨ht, hproduct, hratio⟩ := scaleUp ha' hw' hh' hmin
    obtain ⟨hu, hproduct', hratio'⟩ := scaleUp ha' hh' hw' hmin
    rw [mul_comm (height : ℝ) width] at hu hproduct' hratio'
    have hsize : scaledSize (ideal Real.sqrt) align width height (70 * align ^ 2)
        (1120 * align ^ 2) = (ceilFactor (ideal Real.sqrt) align
          (width * √(((70 * align ^ 2 : Int) : ℝ) / (width * height))),
        ceilFactor (ideal Real.sqrt) align
          (height * √(((70 * align ^ 2 : Int) : ℝ) / (width * height)))) :=
      (if_neg (not_lt.mpr hlarge)).trans (if_pos hsmall)
    refine ⟨_, _, ?_, Int.ceil_pos.mpr ht, Int.ceil_pos.mpr hu, ceilTiles_ge ht hu hproduct, ?_⟩
    · rw [hsize, ceilFactor_ideal, ceilFactor_ideal]
    · rw [ceilTiles_le_iff ht hu hproduct,
        side_le_iff ht hh' (by norm_num) hproduct hratio,
        side_le_iff hu hw' (by norm_num) hproduct' hratio']
      constructor
      · rintro ⟨h1, h2⟩
        refine ⟨fun h => absurd h (not_lt.mpr hlarge), fun _ => ?_⟩
        exact ⟨by exact_mod_cast h1, by exact_mod_cast h2⟩
      · intro h
        obtain ⟨h1, h2⟩ := h.2 hsmall
        exact ⟨by exact_mod_cast h1, by exact_mod_cast h2⟩
  · have hsize : scaledSize (ideal Real.sqrt) align width height (70 * align ^ 2)
        (1120 * align ^ 2) = (roundFactor (ideal Real.sqrt) align width,
        roundFactor (ideal Real.sqrt) align height) :=
      (if_neg (not_lt.mpr hlarge)).trans (if_neg (not_lt.mpr hsmall))
    rw [roundFactor_ideal ha, roundFactor_ideal ha] at hsize
    have harea : roundedArea (ideal Real.sqrt) align width height =
        align ^ 2 * (max 1 (roundHalf ((width : ℝ) / align)) *
          max 1 (roundHalf ((height : ℝ) / align))) := by
      have hw'' := roundFactor_ideal ha (width : ℝ)
      have hh'' := roundFactor_ideal ha (height : ℝ)
      calc roundedArea (ideal Real.sqrt) align width height =
          roundFactor (ideal Real.sqrt) align (width : ℝ) *
            roundFactor (ideal Real.sqrt) align (height : ℝ) := rfl
        _ = _ := by rw [hw'', hh'']; ring
    rw [harea] at hlarge hsmall
    refine ⟨_, _, hsize, le_max_left 1 _, le_max_left 1 _, ?_, iff_of_true ?_ ?_⟩
    · nlinarith
    · nlinarith
    · exact ⟨fun h => absurd h (by rw [harea]; exact not_lt.mpr hlarge),
        fun h => absurd h (by rw [harea]; exact not_lt.mpr hsmall)⟩

end Target

/-! ## The token limits of a configuration -/

/-- The limits as `read_vision_config` sets them, in the range of their type. -/
structure TokenLimits (config : VisionModelConfig) : Prop where
  patch : 1 ≤ config.patchSize
  merge : 1 ≤ config.mergeSize
  minPixels : config.imageMinPixels = 70 * (config.patchSize * config.mergeSize) ^ 2
  maxPixels : config.imageMaxPixels = 1120 * (config.patchSize * config.mergeSize) ^ 2
  fits : config.imageMaxPixels < 2 ^ 32

/-- Whole tiles, an area between the limits, and counts that are computed without an error. -/
structure WithinLimits (config : VisionModelConfig) (size : Int × Int) : Prop where
  width : ∃ x, 1 ≤ x ∧ size.1 = ((config.patchSize * config.mergeSize : Nat) : Int) * x
  height : ∃ y, 1 ≤ y ∧ size.2 = ((config.patchSize * config.mergeSize : Nat) : Int) * y
  area_ge : config.imageMinPixels ≤ size.1 * size.2
  area_le : size.1 * size.2 ≤ config.imageMaxPixels
  tokens : ∃ count, (shape size).visualTokenCount config = .ok count ∧ 70 ≤ count ∧ count ≤ 1120
  patches : ∃ count, (shape size).patchCount config = .ok count

section Config
variable {config : VisionModelConfig} (hlimits : TokenLimits config)
include hlimits

theorem TokenLimits.align_pos : 1 ≤ config.patchSize * config.mergeSize :=
  Nat.mul_pos hlimits.patch hlimits.merge

theorem TokenLimits.align_lt : config.patchSize * config.mergeSize < 2 ^ 16 := by
  have hfits := hlimits.fits
  rw [hlimits.maxPixels] at hfits
  by_contra hge
  have hsquare := Nat.pow_le_pow_left (Nat.le_of_not_lt hge) 2
  omega

theorem targetSize_eq_scaledSize {D : Type} (arith : DoubleArithmetic D) (width height : Int) :
    targetSize arith width height config =
      .ok (scaledSize arith (config.patchSize * config.mergeSize : Nat) width height
        (70 * ((config.patchSize * config.mergeSize : Nat) : Int) ^ 2)
        (1120 * ((config.patchSize * config.mergeSize : Nat) : Int) ^ 2)) := by
  have hpos := hlimits.align_pos
  have hlt := hlimits.align_lt
  have hsquare : 1 ≤ (config.patchSize * config.mergeSize) ^ 2 := Nat.one_le_pow _ _ hpos
  have huint : uint32 (config.patchSize * config.mergeSize) =
      config.patchSize * config.mergeSize := Nat.mod_eq_of_lt (by omega)
  have hcheck : checkedInt (config.patchSize * config.mergeSize) "image alignment" =
      .ok ((config.patchSize * config.mergeSize : Nat) : Int) := if_neg (by omega)
  have hvalid : ¬(config.imageMinPixels = 0 ∨ config.imageMaxPixels < config.imageMinPixels) := by
    rw [hlimits.minPixels, hlimits.maxPixels]
    omega
  rw [targetSize, huint, hcheck, Outcome.ok_bind, if_neg hvalid, hlimits.minPixels,
    hlimits.maxPixels]
  push_cast
  rfl

theorem shape_counts {x y : Nat} :
    (shape (((config.patchSize * config.mergeSize : Nat) : Int) * x,
      ((config.patchSize * config.mergeSize : Nat) : Int) * y)).visualTokenCount config =
        .ok (x * y) ∧
    ∃ count, (shape (((config.patchSize * config.mergeSize : Nat) : Int) * x,
      ((config.patchSize * config.mergeSize : Nat) : Int) * y)).patchCount config =
        .ok count := by
  have hpatch : config.patchSize ≠ 0 := Nat.ne_of_gt hlimits.patch
  have hmerge : config.mergeSize ≠ 0 := Nat.ne_of_gt hlimits.merge
  have hside (n : Nat) : (((config.patchSize * config.mergeSize : Nat) : Int) * n).toNat =
      config.patchSize * (config.mergeSize * n) := by
    rw [← Nat.cast_mul, Int.toNat_natCast, Nat.mul_assoc]
  have hdiv (n : Nat) : config.patchSize * (config.mergeSize * n) / config.patchSize =
      config.mergeSize * n := Nat.mul_div_cancel_left _ hlimits.patch
  have htiles (n : Nat) : config.mergeSize * n / config.mergeSize = n :=
    Nat.mul_div_cancel_left _ hlimits.merge
  unfold shape PreparedImage.visualTokenCount PreparedImage.patchCount
  dsimp only
  rw [hside, hside, hdiv, hdiv, htiles, htiles, Nat.mul_mod_right, Nat.mul_mod_right,
    Nat.mul_mod_right, Nat.mul_mod_right, if_neg hmerge, if_neg (by simp), if_neg (by simp [hpatch])]
  exact ⟨rfl, _, rfl⟩

/-- The limits hold of a size in tiles when they hold of the number of its tiles. -/
theorem within_iff_tiles {x y : Int} (hx : 1 ≤ x) (hy : 1 ≤ y) (hge : 70 ≤ x * y) :
    WithinLimits config (((config.patchSize * config.mergeSize : Nat) : Int) * x,
      ((config.patchSize * config.mergeSize : Nat) : Int) * y) ↔ x * y ≤ 1120 := by
  have hpos : (0 : Int) < ((config.patchSize * config.mergeSize : Nat) : Int) ^ 2 := by
    have halign := hlimits.align_pos
    positivity
  have hmin : (config.imageMinPixels : Int) =
      70 * ((config.patchSize * config.mergeSize : Nat) : Int) ^ 2 := by
    rw [hlimits.minPixels]
    push_cast
    rfl
  have hmax : (config.imageMaxPixels : Int) =
      1120 * ((config.patchSize * config.mergeSize : Nat) : Int) ^ 2 := by
    rw [hlimits.maxPixels]
    push_cast
    rfl
  constructor
  · intro h
    have harea := h.area_le
    dsimp only at harea
    rw [hmax] at harea
    nlinarith
  · intro hle
    obtain ⟨x, rfl⟩ := Int.eq_ofNat_of_zero_le (by omega : 0 ≤ x)
    obtain ⟨y, rfl⟩ := Int.eq_ofNat_of_zero_le (by omega : 0 ≤ y)
    obtain ⟨htokens, hpatches⟩ := shape_counts hlimits (x := x) (y := y)
    refine ⟨⟨x, hx, rfl⟩, ⟨y, hy, rfl⟩, ?_, ?_, ⟨x * y, htokens, ?_, ?_⟩, hpatches⟩
    · dsimp only
      rw [hmin]
      nlinarith
    · dsimp only
      rw [hmax]
      nlinarith
    · exact_mod_cast hge
    · exact_mod_cast hle

/-- The size is within the limits exactly for the images that are not too thin. -/
theorem targetSize_within_iff {width height : Int} (hwidth : 1 ≤ width) (hheight : 1 ≤ height) :
    (∃ size, targetSize (ideal Real.sqrt) width height config = .ok size ∧
      WithinLimits config size) ↔
    NotTooThin (config.patchSize * config.mergeSize : Nat) width height := by
  have halign : (1 : Int) ≤ (config.patchSize * config.mergeSize : Nat) := by
    exact_mod_cast hlimits.align_pos
  obtain ⟨x, y, hsize, hx, hy, hge, hiff⟩ := scaledSize_tiles halign hwidth hheight
  rw [← hiff, ← within_iff_tiles hlimits hx hy hge]
  constructor
  · rintro ⟨size, htarget, hwithin⟩
    rw [targetSize_eq_scaledSize hlimits, hsize, Except.ok.injEq] at htarget
    rw [htarget]
    exact hwithin
  · intro hwithin
    exact ⟨_, by rw [targetSize_eq_scaledSize hlimits, hsize], hwithin⟩

end Config

/-! ## A thin image -/

def sampleVisionConfig : VisionModelConfig where
  projectorType := bytes "gemma4v"
  projectionLength := 1
  imageSize := 768
  patchSize := 16
  embeddingLength := 1
  feedForwardLength := 1
  blockCount := 1
  headCount := 1
  mergeSize := 3
  imageMinPixels := 161280
  imageMaxPixels := 2580480
  layerNormEpsilon := 0
  imageMean := [0, 0, 0]
  imageStd := [1, 1, 1]

theorem sampleVisionConfig_limits : TokenLimits sampleVisionConfig :=
  ⟨by decide, by decide, by decide, by decide, by decide⟩

theorem roundHalf_eq {x : ℝ} {n : Int} (hx : 0 ≤ x) (hlow : (n : ℝ) ≤ x + 1 / 2)
    (hhigh : x + 1 / 2 < n + 1) : roundHalf x = n := by
  rw [roundHalf, if_neg (not_lt.mpr hx), Int.floor_eq_iff]
  exact ⟨hlow, hhigh⟩

theorem roundFactor_one : roundFactor (ideal Real.sqrt) 48 ((1 : Int) : ℝ) = 48 * 1 := by
  rw [roundFactor_ideal (by norm_num), roundHalf_eq (n := 0) (by positivity) (by norm_num)
    (by norm_num)]
  rfl

theorem notTooThin_square : NotTooThin (48 : Nat) 1 1 := by
  have harea : roundedArea (ideal Real.sqrt) 48 1 1 = 48 * 1 * (48 * 1) :=
    congrArg₂ (· * ·) roundFactor_one roundFactor_one
  constructor
  · intro hlarge
    rw [Nat.cast_ofNat, harea] at hlarge
    norm_num at hlarge
  · intro _
    norm_num

theorem not_notTooThin_strip : ¬NotTooThin (48 : Nat) 54880 1 := by
  intro hthin
  have hlong : roundFactor (ideal Real.sqrt) 48 ((54880 : Int) : ℝ) = 48 * 1143 := by
    rw [roundFactor_ideal (by norm_num), roundHalf_eq (n := 1143) (by positivity) (by norm_num)
      (by norm_num)]
    rfl
  have harea : roundedArea (ideal Real.sqrt) 48 54880 1 = 48 * 1143 * (48 * 1) :=
    congrArg₂ (· * ·) hlong roundFactor_one
  obtain ⟨hratio, -⟩ := hthin.1 (by rw [Nat.cast_ofNat, harea]; norm_num)
  norm_num at hratio

/-- One pixel is scaled up to the limits, a strip of 54880 by 1 pixels is not scaled down
to them. -/
theorem targetSize_within_iff_sample :
    (∃ size, targetSize (ideal Real.sqrt) 1 1 sampleVisionConfig = .ok size ∧
      WithinLimits sampleVisionConfig size) ∧
    ¬∃ size, targetSize (ideal Real.sqrt) 54880 1 sampleVisionConfig = .ok size ∧
      WithinLimits sampleVisionConfig size :=
  ⟨(targetSize_within_iff sampleVisionConfig_limits (le_refl 1) (le_refl 1)).mpr
      notTooThin_square,
    fun hwithin => not_notTooThin_strip
      ((targetSize_within_iff sampleVisionConfig_limits (by norm_num) (le_refl 1)).mp hwithin)⟩

/-- 7840 tokens for an image of 54880 by 1 pixels. -/
theorem targetSize_exceeds :
    ¬∀ config, TokenLimits config → ∀ width height : Int, 1 ≤ width → width ≤ 2147483647 →
      1 ≤ height → height ≤ 2147483647 → ∃ size,
        targetSize (ideal Real.sqrt) width height config = .ok size ∧
        WithinLimits config size := by
  intro hall
  obtain ⟨size, htarget, hwithin⟩ := hall _ sampleVisionConfig_limits 54880 1 (by norm_num)
    (by norm_num) (le_refl 1) (by norm_num)
  obtain ⟨x, y, hsize, hx, hy, hge, hiff⟩ :=
    @scaledSize_tiles 48 54880 1 (by norm_num) (by norm_num) (le_refl 1)
  rw [targetSize_eq_scaledSize sampleVisionConfig_limits] at htarget
  have hsame : size = (((48 : Nat) : Int) * x, ((48 : Nat) : Int) * y) :=
    (Except.ok.inj htarget).symm.trans hsize
  rw [hsame] at hwithin
  exact not_notTooThin_strip
    (hiff.mp ((within_iff_tiles sampleVisionConfig_limits hx hy hge).mp hwithin))

end Branchscore.ImagePreprocessor
