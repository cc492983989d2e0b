import Branchscore.ImagePreprocessor

/-!
# The window of an output sample

Doubles are exact numbers here. The window of the output index at `center` reaches two
filter widths to each side and is cut at the borders of the source. It always holds the
central block, one filter width of samples that lie within half a width of the center.
-/

namespace Branchscore.ImagePreprocessor

set_option autoImplicit false

variable {K : Type} [Field K] [LinearOrder K] [FloorRing K]

/-! ## Doubles that do not round -/

/-- The cast of a number to an integer drops its fraction. -/
def truncate (x : K) : Int := if x < 0 then ⌈x⌉ else ⌊x⌋

instance two : Nat.AtLeastTwo 2 := ⟨le_rfl⟩

/-- `std::round`: halves away from zero. -/
def roundHalf (x : K) : Int := if x < 0 then -⌊-x + 1 / 2⌋ else ⌊x + 1 / 2⌋

def ideal (sqrt : K → K) : DoubleArithmetic K where
  ofInt n := n
  add a b := a + b
  sub a b := a - b
  mul a b := a * b
  div a b := a / b
  half := 1 / 2
  sqrt
  abs x := |x|
  lt a b := a < b
  round := roundHalf
  ceil x := ⌈x⌉
  floor x := ⌊x⌋
  toInt := truncate

variable [IsStrictOrderedRing K]

omit [IsStrictOrderedRing K] in
theorem truncate_of_nonneg {x : K} (h : 0 ≤ x) : truncate x = ⌊x⌋ := if_neg (not_lt.mpr h)

theorem max_zero_truncate (x : K) : max 0 (truncate x) = max 0 ⌊x⌋ := by
  by_cases hx : x < 0
  · have hceil : ⌈x⌉ ≤ 0 := Int.ceil_le.mpr (by simpa using hx.le)
    have hfloor : ⌊x⌋ ≤ 0 := (Int.floor_le_ceil x).trans hceil
    rw [truncate, if_pos hx, max_eq_left hceil, max_eq_left hfloor]
  · rw [truncate_of_nonneg (not_lt.mp hx)]

theorem floor_sub_floor_le_ceil (x y : K) : ⌊x + y⌋ - ⌊x⌋ ≤ ⌈y⌉ := by
  have hsum := Int.floor_le (x + y)
  have hx := Int.lt_floor_add_one x
  have hy := Int.le_ceil y
  have hlt : ((⌊x + y⌋ - ⌊x⌋ : Int) : K) < ((⌈y⌉ + 1 : Int) : K) := by
    push_cast
    linarith
  exact Int.lt_add_one_iff.mp (Int.cast_lt.mp hlt)

/-! ## Centers -/

/-- The center of an output sample is inside a source of `n` samples, up to half of what
the filter is wider than a sample. -/
structure Centered (n : Int) (width center : K) : Prop where
  one_le : 1 ≤ width
  lower : width < 2 * center + 1
  upper : 2 * center + width ≤ 2 * n + 1

theorem centered_of_out {n m out : Int} (hn : 1 ≤ n) (hout : 0 ≤ out) (hm : out < m) :
    Centered n (max 1 ((n : K) / m)) ((out + 1 / 2) * ((n : K) / m)) := by
  have hn' : (1 : K) ≤ n := by exact_mod_cast hn
  have hout' : (0 : K) ≤ out := by exact_mod_cast hout
  have hm' : (out : K) + 1 ≤ m := by exact_mod_cast hm
  have hmpos : (0 : K) < m := by linarith
  generalize hs : (n : K) / m = s
  have hspos : 0 < s := by
    rw [← hs]
    exact div_pos (by linarith) hmpos
  have hsm : s * m = n := by
    rw [← hs]
    exact div_mul_cancel₀ _ hmpos.ne'
  have hlow : s ≤ 2 * ((out + 1 / 2) * s) := by nlinarith
  have hhigh : 2 * ((out + 1 / 2) * s) + s ≤ 2 * n := by nlinarith
  refine ⟨le_max_left 1 s, ?_, ?_⟩
  · rcases max_choice 1 s with h | h <;> rw [h] <;> linarith
  · rcases max_choice 1 s with h | h
    · rw [h]
      linarith
    · rw [h]
      linarith

/-! ## Windows -/

def windowFirst (width center : K) : Int := max 0 ⌊center - 2 * width + 1 / 2⌋

def windowStop (n : Int) (width center : K) : Int := min n ⌊center + 2 * width + 1 / 2⌋

section Bounds
variable {n : Int} {width center : K}

omit [IsStrictOrderedRing K] in
theorem windowFirst_nonneg (width center : K) : 0 ≤ windowFirst width center := le_max_left ..

omit [IsStrictOrderedRing K] in
theorem windowStop_le (n : Int) (width center : K) : windowStop n width center ≤ n := min_le_left ..

theorem window_le_ceil (n : Int) (width center : K) :
    windowStop n width center - windowFirst width center ≤ ⌈4 * width⌉ := by
  have h := floor_sub_floor_le_ceil (center - 2 * width + 1 / 2) (4 * width)
  have hsum : center - 2 * width + 1 / 2 + 4 * width = center + 2 * width + 1 / 2 := by ring
  rw [hsum] at h
  have hstop : windowStop n width center ≤ ⌊center + 2 * width + 1 / 2⌋ := min_le_right ..
  have hfirst : ⌊center - 2 * width + 1 / 2⌋ ≤ windowFirst width center := le_max_right ..
  omega

/-- The bound that `kernel_size` allocates. -/
theorem window_le_kernelSize (n : Int) (width center : K) :
    windowStop n width center - windowFirst width center ≤ ⌈2 * width⌉ * 2 + 1 := by
  have h : ⌈4 * width⌉ ≤ ⌈2 * width⌉ * 2 := by
    apply Int.ceil_le.mpr
    push_cast
    linarith [Int.le_ceil (2 * width)]
  have hwindow := window_le_ceil n width center
  omega

theorem window_le_floor (n : Int) (width center : K) :
    windowStop n width center - windowFirst width center ≤ 4 * ⌊width⌋ + 4 := by
  have h : ⌈4 * width⌉ ≤ 4 * ⌊width⌋ + 4 := by
    apply Int.ceil_le.mpr
    push_cast
    linarith [Int.lt_floor_add_one width]
  exact (window_le_ceil n width center).trans h

/-! ## The central block -/

def centralFirst (width center : K) : Int := ⌈center - width / 2 - 1 / 2⌉

theorem centralFirst_near {j : Int} (hfirst : centralFirst width center ≤ j)
    (hstop : j < centralFirst width center + ⌊width⌋) : |j - center + 1 / 2| ≤ width / 2 := by
  have hle : center - width / 2 - 1 / 2 ≤ j := Int.ceil_le.mp hfirst
  have hceil : (centralFirst width center : K) < center - width / 2 - 1 / 2 + 1 :=
    Int.ceil_lt_add_one _
  have hfloor := Int.floor_le width
  have hj : (j : K) + 1 ≤ centralFirst width center + ⌊width⌋ := by exact_mod_cast hstop
  rw [abs_le]
  constructor <;> linarith

variable (h : Centered n width center)
include h

theorem windowFirst_le_centralFirst : windowFirst width center ≤ centralFirst width center := by
  apply max_le
  · have hlt : (-1 : K) < center - width / 2 - 1 / 2 := by linarith [h.lower]
    have hceil : (-1 : Int) < centralFirst width center := Int.lt_ceil.mpr (by exact_mod_cast hlt)
    omega
  · apply Int.floor_le_iff.mpr
    have hle := Int.le_ceil (center - width / 2 - 1 / 2)
    have hwidth := h.one_le
    unfold centralFirst
    linarith

theorem centralFirst_add_le_windowStop :
    centralFirst width center + ⌊width⌋ ≤ windowStop n width center := by
  have hceil : (centralFirst width center : K) < center - width / 2 - 1 / 2 + 1 :=
    Int.ceil_lt_add_one _
  have hfloor := Int.floor_le width
  have hwidth := h.one_le
  apply le_min
  · have hlt : ((centralFirst width center + ⌊width⌋ : Int) : K) < ((n + 1 : Int) : K) := by
      push_cast
      linarith [h.upper]
    exact Int.lt_add_one_iff.mp (Int.cast_lt.mp hlt)
  · apply Int.le_floor.mpr
    push_cast
    linarith

omit [IsStrictOrderedRing K] in
theorem one_le_floor : 1 ≤ ⌊width⌋ := Int.le_floor.mpr (by exact_mod_cast h.one_le)

theorem windowFirst_lt_windowStop : windowFirst width center < windowStop n width center := by
  have hfirst := windowFirst_le_centralFirst h
  have hstop := centralFirst_add_le_windowStop h
  have hfloor := one_le_floor h
  omega

end Bounds

/-! ## The windows of `bicubic_axis` -/

/-- `filter_scale`. -/
def filterWidth (scale : K) : K := max 1 scale

def outputCenter (scale : K) (out : Int) : K := (out + 1 / 2) * scale

omit [IsStrictOrderedRing K] in
theorem ideal_filterScale (sqrt : K → K) (scale : K) :
    (if (ideal sqrt).lt ((ideal sqrt).ofInt 1) scale then scale else (ideal sqrt).ofInt 1) =
      filterWidth scale := by
  simp only [ideal, Int.cast_one, filterWidth, decide_eq_true_eq]
  by_cases h : 1 < scale
  · rw [if_pos h, max_eq_right h.le]
  · rw [if_neg h, max_eq_left (not_lt.mp h)]

theorem resampleWindow_bounds (sqrt : K → K) {n out : Int} {scale : K}
    (h : Centered n (filterWidth scale) (outputCenter scale out)) :
    (resampleWindow (ideal sqrt) n scale out).1 =
      (windowFirst (filterWidth scale) (outputCenter scale out),
        windowStop n (filterWidth scale) (outputCenter scale out) -
          windowFirst (filterWidth scale) (outputCenter scale out)) := by
  have hstop : 0 ≤ outputCenter scale out + 2 * filterWidth scale + 1 / 2 := by
    linarith [h.one_le, h.lower]
  dsimp only [resampleWindow]
  rw [ideal_filterScale]
  simp only [ideal, Int.cast_ofNat]
  change (max 0 (truncate (outputCenter scale out - 2 * filterWidth scale + 1 / 2)),
    min n (truncate (outputCenter scale out + 2 * filterWidth scale + 1 / 2)) -
      max 0 (truncate (outputCenter scale out - 2 * filterWidth scale + 1 / 2))) = _
  rw [max_zero_truncate, truncate_of_nonneg hstop]
  rfl

end Branchscore.ImagePreprocessor
