import Branchscore.ImagePreprocessor.Window

/-!
# The weights of a window

The central block of a window outweighs the negative lobes of the kernel, so that the
weights can be normalised. A normalised weight in fixed point is off by at most half a
unit.
-/

namespace Branchscore.ImagePreprocessor

set_option autoImplicit false

/-! ## The weights as a function of the window -/

section Window
variable {D : Type}

theorem map_bind_cast (f : Int → D) (indices : List Nat) :
    (indices >>= fun i => pure (i : Int)).map f = indices.map fun i : Nat => f i := by
  rw [List.bind_eq_flatMap, List.map_flatMap, List.map_eq_flatMap]
  rfl

/-- The weights before they are divided by their sum. -/
def unnormalised (arith : DoubleArithmetic D) (n out : Int) (scale : D) : List D :=
  let one := arith.ofInt 1
  let filterScale := if arith.lt one scale then scale else one
  let center := arith.mul (arith.add (arith.ofInt out) arith.half) scale
  let window := (resampleWindow arith n scale out).1
  (List.range window.2.toNat).map fun i : Nat =>
    filter arith (arith.div (arith.add (arith.sub (arith.ofInt (i + window.1)) center)
      arith.half) filterScale)

def normalise (arith : DoubleArithmetic D) (raw : List D) : List D :=
  let sum := raw.foldl arith.add (arith.ofInt 0)
  let zero := arith.ofInt 0
  if arith.lt sum zero || arith.lt zero sum then raw.map fun weight => arith.div weight sum
  else raw

theorem resampleWindow_snd (arith : DoubleArithmetic D) (n out : Int) (scale : D) :
    (resampleWindow arith n scale out).2 = normalise arith (unnormalised arith n out scale) := by
  dsimp only [resampleWindow, unnormalised, normalise]
  rw [map_bind_cast]

def axisScaleOf (arith : DoubleArithmetic D) (inputSize outputSize : Int) : D :=
  arith.div (arith.ofInt inputSize) (arith.ofInt outputSize)

theorem bicubicAxis_getElem? (arith : DoubleArithmetic D) (inputSize : Int) {outputSize : Int}
    {out : Nat} (hout : out < outputSize) :
    (bicubicAxis arith inputSize outputSize).bounds[out]? =
      some (resampleWindow arith inputSize (axisScaleOf arith inputSize outputSize) out).1 ∧
    (bicubicAxis arith inputSize outputSize).weights[out]? =
      some ((resampleWindow arith inputSize (axisScaleOf arith inputSize outputSize) out).2.map
        (fixedPoint arith)) := by
  have hrange : (List.range outputSize.toNat)[out]? = some out := List.getElem?_range (by omega)
  dsimp only [bicubicAxis]
  rw [map_bind_cast, List.map_map, List.map_map, List.getElem?_map, List.getElem?_map, hrange]
  exact ⟨rfl, rfl⟩

end Window

variable {K : Type} [Field K] [LinearOrder K] [FloorRing K]

/-! ## The kernel -/

def bicubic (x : K) : K :=
  if |x| < 1 then (3 / 2 * |x| - 5 / 2) * |x| * |x| + 1
  else if |x| < 2 then -(1 / 2) * ((|x| - 1) * (|x| - 2) ^ 2)
  else 0

variable [IsStrictOrderedRing K]

omit [IsStrictOrderedRing K] in
theorem filter_ideal (sqrt : K → K) (x : K) : filter (ideal sqrt) x = bicubic x := by
  dsimp only [filter, ideal, bicubic]
  simp only [decide_eq_true_eq, Int.cast_one, Int.cast_ofNat, Int.cast_zero]
  split_ifs <;> ring

theorem bicubic_ge (x : K) : -(2 / 27) ≤ bicubic x := by
  have hx := abs_nonneg x
  unfold bicubic
  generalize |x| = y at hx
  split_ifs with h1 h2
  · nlinarith [mul_nonneg (sub_nonneg.mpr h1.le) (sub_nonneg.mpr h1.le), mul_nonneg hx hx]
  · have hfactor : 0 ≤ (y - 4 / 3) ^ 2 * (7 / 3 - y) :=
      mul_nonneg (sq_nonneg _) (by linarith)
    linarith
  · norm_num

theorem bicubic_le (x : K) : bicubic x ≤ 1 := by
  have hx := abs_nonneg x
  unfold bicubic
  generalize |x| = y at hx
  split_ifs with h1 h2
  · have hprod : 0 ≤ (5 / 2 - 3 / 2 * y) * (y * y) :=
      mul_nonneg (by linarith) (mul_nonneg hx hx)
    linarith
  · have hprod : 0 ≤ (y - 1) * (y - 2) ^ 2 := mul_nonneg (by linarith) (sq_nonneg _)
    linarith
  · exact zero_le_one

theorem bicubic_central {x : K} (h : |x| ≤ 1 / 2) : 9 / 16 ≤ bicubic x := by
  have hx := abs_nonneg x
  have h1 : |x| < 1 := by linarith
  rw [bicubic, if_pos h1]
  generalize |x| = y at h hx
  have hprod : 0 ≤ (1 / 2 - y) * (7 / 8 + y * (7 / 4 - 3 / 2 * y)) := by
    apply mul_nonneg (by linarith)
    have hy : 0 ≤ y * (7 / 4 - 3 / 2 * y) := mul_nonneg hx (by linarith)
    linarith
  linarith

/-! ## The sum of a window -/

section Sum
variable {n : Int} {width center : K}

def rawWeight (width center : K) (j : Int) : K := bicubic ((j - center + 1 / 2) / width)

def windowCount (n : Int) (width center : K) : Nat :=
  (windowStop n width center - windowFirst width center).toNat

/-- The unnormalised weights, from the first source sample on. -/
def rawWeights (n : Int) (width center : K) : List K :=
  (List.range (windowCount n width center)).map fun i : Nat =>
    rawWeight width center (i + windowFirst width center)

theorem rawWeight_central (h : Centered n width center) {j : Int}
    (hfirst : centralFirst width center ≤ j)
    (hstop : j < centralFirst width center + ⌊width⌋) : 9 / 16 ≤ rawWeight width center j := by
  have hwidth : 0 < width := lt_of_lt_of_le one_pos h.one_le
  apply bicubic_central
  rw [abs_div, abs_of_pos hwidth, div_le_iff₀ hwidth]
  have hnear := centralFirst_near hfirst hstop
  linarith

theorem windowCount_le (h : Centered n width center) :
    (windowCount n width center : K) ≤ 4 * (⌊width⌋.toNat : K) + 4 := by
  have hle := window_le_floor n width center
  have hfloor := one_le_floor h
  have hnat : windowCount n width center ≤ 4 * ⌊width⌋.toNat + 4 := by
    unfold windowCount
    omega
  exact_mod_cast hnat

/-- The indices of the central block inside the window. -/
def centralBlock (width center : K) : Finset Nat :=
  Finset.Ico (centralFirst width center - windowFirst width center).toNat
    (centralFirst width center - windowFirst width center + ⌊width⌋).toNat

theorem centralBlock_card (h : Centered n width center) :
    (centralBlock width center).card = ⌊width⌋.toNat := by
  have hfirst := windowFirst_le_centralFirst h
  rw [centralBlock, Nat.card_Ico]
  omega

theorem centralBlock_subset (h : Centered n width center) :
    centralBlock width center ⊆ Finset.range (windowCount n width center) := by
  have hfirst := windowFirst_le_centralFirst h
  have hstop := centralFirst_add_le_windowStop h
  intro i hi
  have hlt := (Finset.mem_Ico.mp hi).2
  rw [Finset.mem_range, windowCount]
  omega

theorem rawWeights_sum_ge (h : Centered n width center) :
    19 / 432 ≤ (rawWeights n width center).sum := by
  have hfirst := windowFirst_le_centralFirst h
  have hsum : (rawWeights n width center).sum =
      ∑ i ∈ Finset.range (windowCount n width center),
        rawWeight width center (i + windowFirst width center) := rfl
  have hcentral : ((centralBlock width center).card : K) * (9 / 16 + 2 / 27) ≤
      ∑ i ∈ centralBlock width center,
        (rawWeight width center (i + windowFirst width center) + 2 / 27) := by
    rw [← nsmul_eq_mul]
    apply Finset.card_nsmul_le_sum
    intro i hi
    obtain ⟨hlo, hhi⟩ := Finset.mem_Ico.mp hi
    have hge := rawWeight_central h (j := i + windowFirst width center) (by omega) (by omega)
    linarith
  have hall : ∑ i ∈ centralBlock width center,
        (rawWeight width center (i + windowFirst width center) + 2 / 27) ≤
      ∑ i ∈ Finset.range (windowCount n width center),
        (rawWeight width center (i + windowFirst width center) + 2 / 27) := by
    apply Finset.sum_le_sum_of_subset_of_nonneg (centralBlock_subset h)
    intro i _ _
    have hge := bicubic_ge (((i + windowFirst width center : Int) - center + 1 / 2) / width)
    unfold rawWeight
    linarith
  have hfloor : (1 : K) ≤ (⌊width⌋.toNat : K) := by
    have hone := one_le_floor h
    exact_mod_cast (by omega : 1 ≤ ⌊width⌋.toNat)
  have hcount := windowCount_le h
  have hle := hcentral.trans hall
  rw [centralBlock_card h, Finset.sum_add_distrib, Finset.sum_const, Finset.card_range,
    nsmul_eq_mul] at hle
  rw [hsum]
  linarith

end Sum

/-! ## Normalised weights in fixed point -/

theorem unnormalised_ideal (sqrt : K → K) {n out : Int} {scale : K}
    (h : Centered n (filterWidth scale) (outputCenter scale out)) :
    unnormalised (ideal sqrt) n out scale =
      rawWeights n (filterWidth scale) (outputCenter scale out) := by
  unfold unnormalised
  rw [resampleWindow_bounds sqrt h]
  dsimp only
  rw [ideal_filterScale]
  apply List.map_congr_left
  intro i _
  rw [filter_ideal]
  rfl

omit [IsStrictOrderedRing K] in
theorem normalise_ideal (sqrt : K → K) {raw : List K} (h : 0 < raw.sum) :
    normalise (ideal sqrt) raw = raw.map (· / raw.sum) := by
  have hfold : raw.foldl (ideal sqrt).add ((ideal sqrt).ofInt 0) = raw.sum := by
    rw [List.sum_eq_foldl]
    simp only [ideal, Int.cast_zero]
  dsimp only [normalise]
  rw [hfold, if_pos]
  · rfl
  · simp [ideal, h]

theorem resampleWindow_weights (sqrt : K → K) {n out : Int} {scale : K}
    (h : Centered n (filterWidth scale) (outputCenter scale out)) :
    (resampleWindow (ideal sqrt) n scale out).2 =
      (rawWeights n (filterWidth scale) (outputCenter scale out)).map
        (· / (rawWeights n (filterWidth scale) (outputCenter scale out)).sum) := by
  have hsum := rawWeights_sum_ge h
  rw [resampleWindow_snd, unnormalised_ideal sqrt h]
  exact normalise_ideal sqrt (by linarith)

/-- The value that `static_cast<std::int32_t>(rounded)` gives. -/
theorem fixedPoint_near (sqrt : K → K) (weight : K) :
    |((fixedPoint (ideal sqrt) weight : Int) : K) - weight * 2 ^ 22| ≤ 1 / 2 := by
  dsimp only [fixedPoint, ideal]
  simp only [Int.cast_zero, decide_eq_true_eq, Int.cast_pow, Int.cast_ofNat]
  generalize hscaled : weight * 2 ^ 22 = scaled
  by_cases hneg : weight < 0
  · have hlt : scaled - 1 / 2 < 0 := by
      have : scaled < 0 := by
        rw [← hscaled]
        exact mul_neg_of_neg_of_pos hneg (by positivity)
      linarith
    rw [if_pos hneg, truncate, if_pos hlt, abs_le]
    have hle := Int.le_ceil (scaled - 1 / 2)
    have hceil := Int.ceil_lt_add_one (scaled - 1 / 2)
    constructor <;> linarith
  · have hge : 0 ≤ scaled + 1 / 2 := by
      have : 0 ≤ scaled := by
        rw [← hscaled]
        exact mul_nonneg (not_lt.mp hneg) (by positivity)
      linarith
    rw [if_neg hneg, truncate_of_nonneg hge, abs_le]
    have hle := Int.floor_le (scaled + 1 / 2)
    have hlt := Int.lt_floor_add_one (scaled + 1 / 2)
    constructor <;> linarith

theorem bicubic_abs_le (x : K) : |bicubic x| ≤ 1 :=
  abs_le.mpr ⟨by linarith [bicubic_ge x], bicubic_le x⟩

/-- The cast to `std::int32_t` never leaves its range. -/
theorem fixedPoint_fits (sqrt : K → K) {n out : Int} {scale : K}
    (h : Centered n (filterWidth scale) (outputCenter scale out)) :
    ∀ weight ∈ (resampleWindow (ideal sqrt) n scale out).2,
      |fixedPoint (ideal sqrt) weight| < 2 ^ 31 := by
  have hsum := rawWeights_sum_ge h
  rw [resampleWindow_weights sqrt h]
  generalize (rawWeights n (filterWidth scale) (outputCenter scale out)).sum = total at hsum
  intro weight hweight
  obtain ⟨raw, hraw, rfl⟩ := List.mem_map.mp hweight
  obtain ⟨i, -, rfl⟩ := List.mem_map.mp hraw
  have hone := bicubic_abs_le
    (((i + windowFirst (filterWidth scale) (outputCenter scale out) : Int) -
      outputCenter scale out + 1 / 2) / filterWidth scale)
  have hpos : 0 < total := by linarith
  have hdiv : |rawWeight (filterWidth scale) (outputCenter scale out)
      (i + windowFirst (filterWidth scale) (outputCenter scale out)) / total| ≤ 23 := by
    rw [abs_div, abs_of_pos hpos, div_le_iff₀ hpos]
    unfold rawWeight
    linarith
  have hnear := abs_le.mp (fixedPoint_near sqrt (rawWeight (filterWidth scale)
    (outputCenter scale out) (i + windowFirst (filterWidth scale) (outputCenter scale out)) /
      total))
  obtain ⟨hlow, hhigh⟩ := abs_le.mp hdiv
  have hcast : ((|fixedPoint (ideal sqrt) (rawWeight (filterWidth scale)
      (outputCenter scale out) (i + windowFirst (filterWidth scale)
        (outputCenter scale out)) / total)| : Int) : K) < ((2 ^ 31 : Int) : K) := by
    push_cast
    rw [abs_lt]
    constructor <;> linarith
  exact_mod_cast hcast

theorem sum_fixedPoint_near (sqrt : K → K) (weights : List K) :
    |(((weights.map (fixedPoint (ideal sqrt))).sum : Int) : K) - weights.sum * 2 ^ 22| ≤
      (weights.length : K) / 2 := by
  induction weights with
  | nil => simp
  | cons weight weights ih =>
    have hhead := abs_le.mp (fixedPoint_near sqrt weight)
    have htail := abs_le.mp ih
    simp only [List.map_cons, List.sum_cons, List.length_cons, Int.cast_add, Nat.cast_add,
      Nat.cast_one]
    rw [abs_le]
    constructor <;> linarith

end Branchscore.ImagePreprocessor
