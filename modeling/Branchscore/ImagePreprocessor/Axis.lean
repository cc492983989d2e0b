import Branchscore.ImagePreprocessor.Loops

/-!
# The axis loops fill the vectors that the resampler reads

Each iteration of `bicubic_axis` writes the bounds and the weights of its own output index
and leaves the others as they are.
-/

namespace Branchscore.ImagePreprocessor

open Foundation Outcome
set_option autoImplicit false

theorem int32_eq {value : Int} (hlow : -2 ^ 31 ≤ value) (hhigh : value < 2 ^ 31) :
    int32 value = .ok value := if_pos ⟨hlow, hhigh⟩

/-! ## One output index -/

section Window
variable {D : Type} (arith : DoubleArithmetic D)

def filterScaleOf (scale : D) : D :=
  if arith.lt (arith.ofInt 1) scale then scale else arith.ofInt 1

def supportOf (scale : D) : D := arith.mul (arith.ofInt 2) (filterScaleOf arith scale)

def centerOf (scale : D) (out : Int) : D :=
  arith.mul (arith.add (arith.ofInt out) arith.half) scale

/-- The converted ends of the window, before they are cut at the borders. -/
def lowEnd (scale : D) (out : Int) : Int :=
  arith.toInt (arith.add (arith.sub (centerOf arith scale out) (supportOf arith scale)) arith.half)

def highEnd (scale : D) (out : Int) : Int :=
  arith.toInt (arith.add (arith.add (centerOf arith scale out) (supportOf arith scale)) arith.half)

/-- What the iteration for `out` needs to run without a fault. -/
structure WindowFits (inputSize : Int) (scale : D) (out kernelSize : Nat) : Prop where
  size : inputSize < 2 ^ 31
  subscript : 2 * (out : Int) + 1 < 2 ^ 31
  low : -2 ^ 31 ≤ lowEnd arith scale out ∧ lowEnd arith scale out < 2 ^ 31
  high : -2 ^ 31 ≤ highEnd arith scale out ∧ highEnd arith scale out < 2 ^ 31
  first_nonneg : 0 ≤ (resampleWindow arith inputSize scale out).1.1
  count_pos : 1 ≤ (resampleWindow arith inputSize scale out).1.2
  count_le : (resampleWindow arith inputSize scale out).1.2 ≤ kernelSize
  stop_le : (resampleWindow arith inputSize scale out).1.1 +
    (resampleWindow arith inputSize scale out).1.2 ≤ inputSize

/-- A row of weights as the loop over `out` stores it. -/
def slots (out : Nat) (weights : List D) : List (Option Nat × D) :=
  weights.map fun weight => (some out, weight)

theorem slots_length (out : Nat) (weights : List D) : (slots out weights).length = weights.length :=
  List.length_map _

theorem slots_getElem? (out : Nat) {weights : List D} {i : Nat} {weight : D}
    (h : weights[i]? = some weight) : (slots out weights)[i]? = some (some out, weight) := by
  rw [slots, List.getElem?_map, h, Option.map_some]

variable {arith} {inputSize : Int} {scale : D} {out kernelSize : Nat}
  {raw : List (Option Nat × D)}

theorem rawLoop_eq {first : Int} {center filterScale : D} {count : Nat}
    (hsource : ∀ i : Nat, i < count → int32 (i + first) = .ok (i + first))
    (hfits : out * kernelSize + count ≤ raw.length) {weights : List D}
    (hweights : weights = (List.range count).map fun i : Nat => filter arith (arith.div
      (arith.add (arith.sub (arith.ofInt (i + first)) center) arith.half) filterScale)) :
    rawLoop arith kernelSize first center filterScale out count raw =
      .ok (overwrite raw (out * kernelSize) (slots out weights),
        weights.foldl arith.add (arith.ofInt 0)) := by
  have hlength : weights.length = count := by rw [hweights, List.length_map, List.length_range]
  let state : Nat → List (Option Nat × D) × D := fun i =>
    (overwrite raw (out * kernelSize) ((slots out weights).take i),
      (weights.take i).foldl arith.add (arith.ofInt 0))
  have hfirst : state 0 = (raw, arith.ofInt 0) := by
    simp only [state, List.take_zero, overwrite_nil, List.foldl_nil]
  have hlast : state count = (overwrite raw (out * kernelSize) (slots out weights),
      weights.foldl arith.add (arith.ofInt 0)) := by
    simp only [state, List.take_of_length_le (hlength.le), List.take_of_length_le
      ((slots_length out weights).trans hlength).le]
  unfold rawLoop
  rw [← hlast, ← hfirst]
  apply foldlM_range_eq
  intro i hi
  have hweight : weights[i]? = some (filter arith (arith.div (arith.add (arith.sub
      (arith.ofInt (i + first)) center) arith.half) filterScale)) := by
    rw [hweights, List.getElem?_map, List.getElem?_range hi, Option.map_some]
  have hslot := slots_getElem? out hweight
  have hbase : out * kernelSize + (slots out weights).length ≤ raw.length := by
    rw [slots_length, hlength]
    exact hfits
  have hstore := storeCell_overwrite hbase hslot Fault.subscript
  rw [Nat.cast_add, Nat.cast_mul] at hstore
  have hsum : (weights.take (i + 1)).foldl arith.add (arith.ofInt 0) =
      arith.add ((weights.take i).foldl arith.add (arith.ofInt 0)) (filter arith (arith.div
        (arith.add (arith.sub (arith.ofInt (i + first)) center) arith.half) filterScale)) := by
    rw [List.take_add_one, hweight, List.foldl_append]
    rfl
  simp only [state, hsource i hi, ok_bind, hstore, hsum, pure_eq_ok]

theorem divideLoop_eq {sum : D} {weights : List D}
    (hfits : out * kernelSize + weights.length ≤ raw.length) :
    divideLoop arith kernelSize sum out weights.length
      (overwrite raw (out * kernelSize) (slots out weights)) =
      .ok (overwrite raw (out * kernelSize)
        (slots out (weights.map fun weight => arith.div weight sum))) := by
  generalize hdivided : (weights.map fun weight => arith.div weight sum) = divided
  have hlength : divided.length = weights.length := by rw [← hdivided, List.length_map]
  have hbase : out * kernelSize + (slots out weights).length ≤ raw.length := by
    rw [slots_length]
    exact hfits
  let state : Nat → List (Option Nat × D) := fun i =>
    overwrite (overwrite raw (out * kernelSize) (slots out weights)) (out * kernelSize)
      ((slots out divided).take i)
  have hfirst : state 0 = overwrite raw (out * kernelSize) (slots out weights) := by
    simp only [state, List.take_zero, overwrite_nil]
  have hlast : state weights.length = overwrite raw (out * kernelSize) (slots out divided) := by
    have hslots : (slots out divided).length = (slots out weights).length := by
      rw [slots_length, slots_length, hlength]
    simp only [state, List.take_of_length_le (hslots.trans (slots_length out weights)).le]
    exact overwrite_overwrite hbase hslots
  unfold divideLoop
  rw [← hlast, ← hfirst]
  apply foldlM_range_eq
  intro i hi
  obtain ⟨weight, hweight⟩ : ∃ weight, weights[i]? = some weight :=
    ⟨_, List.getElem?_eq_getElem hi⟩
  have hread : (state i)[out * kernelSize + i]? = some (some out, weight) := by
    rw [getElem?_overwrite_of_ge _ (by rw [List.length_take, slots_length]; omega),
      getElem?_overwrite_add hbase i (by rw [slots_length]; exact hi)]
    · exact slots_getElem? out hweight
    · rw [length_overwrite hbase, List.length_take, slots_length]
      omega
  have hslot : (slots out divided)[i]? = some (some out, arith.div weight sum) := by
    apply slots_getElem?
    rw [← hdivided, List.getElem?_map, hweight, Option.map_some]
  have hload := loadCell_natCast Fault.subscript hread
  have hbase' : out * kernelSize + (slots out divided).length ≤
      (overwrite raw (out * kernelSize) (slots out weights)).length := by
    rw [length_overwrite hbase, slots_length, hlength]
    exact hfits
  have hstore := storeCell_overwrite hbase' hslot Fault.subscript
  rw [Nat.cast_add, Nat.cast_mul] at hload hstore
  rw [hload, ok_bind]
  exact hstore

theorem unnormalised_length (arith : DoubleArithmetic D) (inputSize out : Int) (scale : D) :
    (unnormalised arith inputSize out scale).length =
      (resampleWindow arith inputSize scale out).1.2.toNat := by
  rw [unnormalised, List.length_map, List.length_range]

/-- The iteration for `out` stores the window and the weights of the functional model. -/
theorem windowLoop_eq (h : WindowFits arith inputSize scale out kernelSize) {bounds : List Int}
    (hbounds : 2 * out + 1 < bounds.length) (hraw : out * kernelSize + kernelSize ≤ raw.length) :
    windowLoop arith inputSize kernelSize scale (filterScaleOf arith scale)
      (supportOf arith scale) (bounds, raw) out =
      .ok ((bounds.set (2 * out) (resampleWindow arith inputSize scale out).1.1).set
          (2 * out + 1) (resampleWindow arith inputSize scale out).1.2,
        overwrite raw (out * kernelSize)
          (slots out (resampleWindow arith inputSize scale out).2)) := by
  have hfirst : max 0 (lowEnd arith scale out) =
      (resampleWindow arith inputSize scale out).1.1 := rfl
  have hcount : min inputSize (highEnd arith scale out) - max 0 (lowEnd arith scale out) =
      (resampleWindow arith inputSize scale out).1.2 := rfl
  have hlength := unnormalised_length arith inputSize out scale
  have hweights : unnormalised arith inputSize out scale =
      (List.range (resampleWindow arith inputSize scale out).1.2.toNat).map fun i : Nat =>
        filter arith (arith.div (arith.add (arith.sub (arith.ofInt
          (i + (resampleWindow arith inputSize scale out).1.1)) (centerOf arith scale out))
          arith.half) (filterScaleOf arith scale)) := rfl
  have hnormal := resampleWindow_snd arith inputSize out scale
  generalize hwindow : (resampleWindow arith inputSize scale out).1 = window at *
  obtain ⟨first, count⟩ := window
  have hsize := h.size
  have hsubscript := h.subscript
  have hnonneg := h.first_nonneg
  have hpos := h.count_pos
  have hle := h.count_le
  have hstop := h.stop_le
  rw [hwindow] at hnonneg hpos hle hstop
  dsimp only at hfirst hcount hlength hweights hnonneg hpos hle hstop ⊢
  have hroom : out * kernelSize + count.toNat ≤ raw.length := by omega
  have hsource : ∀ i : Nat, i < count.toNat → int32 (i + first) = .ok (i + first) := by
    intro i hi
    exact int32_eq (by omega) (by omega)
  have hlow := int32_eq h.low.1 h.low.2
  have hhigh := int32_eq h.high.1 h.high.2
  have hconvert : int32 count = .ok count := int32_eq (by omega) (by omega)
  have heven : int32 (2 * (out : Int)) = .ok (2 * (out : Int)) := int32_eq (by omega) (by omega)
  have hodd : int32 (2 * (out : Int) + 1) = .ok (2 * (out : Int) + 1) :=
    int32_eq (by omega) (by omega)
  have hbounds' : 2 * out + 1 < (bounds.set (2 * out) first).length := by
    rw [List.length_set]
    exact hbounds
  have hstore := storeCell_natCast Fault.subscript (Nat.lt_of_succ_lt hbounds) first
  have hstore' := storeCell_natCast Fault.subscript hbounds' count
  rw [Nat.cast_mul, Nat.cast_ofNat] at hstore
  rw [Nat.cast_add, Nat.cast_mul, Nat.cast_ofNat, Nat.cast_one] at hstore'
  have hrawLoop := rawLoop_eq hsource hroom hweights
  have hdivide : divideLoop arith kernelSize
      ((unnormalised arith inputSize out scale).foldl arith.add (arith.ofInt 0)) out count.toNat
      (overwrite raw (out * kernelSize) (slots out (unnormalised arith inputSize out scale))) =
      .ok (overwrite raw (out * kernelSize) (slots out ((unnormalised arith inputSize out scale).map
        fun weight => arith.div weight
          ((unnormalised arith inputSize out scale).foldl arith.add (arith.ofInt 0))))) := by
    rw [← hlength]
    apply divideLoop_eq
    rw [hlength]
    exact hroom
  rw [hnormal]
  simp only [lowEnd, highEnd, centerOf] at hlow hhigh hfirst hcount hrawLoop
  dsimp only [windowLoop, normalise]
  rw [hfirst] at hcount
  rw [hlow, ok_bind, hhigh, ok_bind, hfirst, hcount, hconvert, ok_bind, heven, ok_bind, hstore,
    ok_bind, hodd, ok_bind, hstore', ok_bind, hrawLoop, ok_bind]
  dsimp only
  generalize hsum : (unnormalised arith inputSize out scale).foldl arith.add (arith.ofInt 0) = sum
    at hdivide ⊢
  by_cases hnonzero : (arith.lt sum (arith.ofInt 0) || arith.lt (arith.ofInt 0) sum) = true
  · rw [if_pos hnonzero, if_pos hnonzero, hdivide]
    rfl
  · rw [if_neg hnonzero, if_neg hnonzero]
    rfl

end Window

/-! ## All output indices -/

section Run
variable {D : Type} (arith : DoubleArithmetic D) (inputSize outputSize : Int)

/-- The window of an output index in the functional model. -/
def windowOf (out : Nat) : (Int × Int) × List D :=
  resampleWindow arith inputSize (axisScaleOf arith inputSize outputSize) out

/-- What the loops need: room for every window, and weights that fit. -/
structure AxisRuns (kernelSize : Nat) : Prop where
  kernel : arith.ceil (supportOf arith (axisScaleOf arith inputSize outputSize)) * 2 + 1 =
    kernelSize
  kernel_lt : (kernelSize : Int) < 2 ^ 31
  window : ∀ out : Nat, out < outputSize →
    WindowFits arith inputSize (axisScaleOf arith inputSize outputSize) out kernelSize
  weight : ∀ out : Nat, out < outputSize → ∀ weight ∈ (windowOf arith inputSize outputSize out).2,
    |fixedPoint arith weight| < 2 ^ 31
  zero : |fixedPoint arith (arith.ofInt 0)| < 2 ^ 31

/-- The vectors after the iterations before `done`. -/
structure Written (kernelSize done : Nat) (bounds : List Int) (raw : List (Option Nat × D)) :
    Prop where
  bounds_length : bounds.length = outputSize.toNat * 2
  raw_length : raw.length = outputSize.toNat * kernelSize
  window : ∀ out < done,
    bounds[2 * out]? = some (windowOf arith inputSize outputSize out).1.1 ∧
    bounds[2 * out + 1]? = some (windowOf arith inputSize outputSize out).1.2 ∧
    ∀ (i : Nat) (weight : D), (windowOf arith inputSize outputSize out).2[i]? = some weight →
      raw[out * kernelSize + i]? = some (some out, weight)
  small : ∀ slot ∈ raw, |fixedPoint arith slot.2| < 2 ^ 31

variable {arith inputSize outputSize} {kernelSize : Nat}

theorem normalise_length (raw : List D) : (normalise arith raw).length = raw.length := by
  dsimp only [normalise]
  split
  · rw [List.length_map]
  · rfl

theorem windowOf_length (arith : DoubleArithmetic D) (inputSize outputSize : Int) (out : Nat) :
    (windowOf arith inputSize outputSize out).2.length =
      (windowOf arith inputSize outputSize out).1.2.toNat := by
  rw [windowOf, resampleWindow_snd, normalise_length, unnormalised_length]

theorem windowLoop_written (h : AxisRuns arith inputSize outputSize kernelSize) {done : Nat}
    (hdone : done < outputSize) {bounds : List Int} {raw : List (Option Nat × D)}
    (hw : Written arith inputSize outputSize kernelSize done bounds raw) :
    ∃ state', windowLoop arith inputSize kernelSize (axisScaleOf arith inputSize outputSize)
        (filterScaleOf arith (axisScaleOf arith inputSize outputSize))
        (supportOf arith (axisScaleOf arith inputSize outputSize)) (bounds, raw) done =
        .ok state' ∧
      Written arith inputSize outputSize kernelSize (done + 1) state'.1 state'.2 := by
  have hfits := h.window done hdone
  have hbound : 2 * done + 1 < bounds.length := by
    rw [hw.bounds_length]
    omega
  have hrow : done * kernelSize + kernelSize ≤ raw.length := by
    rw [hw.raw_length, ← Nat.succ_mul]
    exact Nat.mul_le_mul_right _ (by omega)
  have hlength := windowOf_length arith inputSize outputSize done
  have hcount := hfits.count_le
  have hroom : done * kernelSize +
      (slots done (windowOf arith inputSize outputSize done).2).length ≤ raw.length := by
    rw [slots_length, hlength, windowOf]
    omega
  have hrun : windowLoop arith inputSize kernelSize (axisScaleOf arith inputSize outputSize)
      (filterScaleOf arith (axisScaleOf arith inputSize outputSize))
      (supportOf arith (axisScaleOf arith inputSize outputSize)) (bounds, raw) done =
      .ok ((bounds.set (2 * done) (windowOf arith inputSize outputSize done).1.1).set
          (2 * done + 1) (windowOf arith inputSize outputSize done).1.2,
        overwrite raw (done * kernelSize)
          (slots done (windowOf arith inputSize outputSize done).2)) :=
    windowLoop_eq hfits hbound hrow
  refine ⟨_, hrun, ?_⟩
  dsimp only
  refine ⟨?_, ?_, ?_, ?_⟩
  · rw [List.length_set, List.length_set, hw.bounds_length]
  · rw [length_overwrite hroom, hw.raw_length]
  · intro out hout
    rcases Nat.lt_succ_iff_lt_or_eq.mp hout with hlt | rfl
    · obtain ⟨hfirst, hsecond, hweights⟩ := hw.window out hlt
      refine ⟨?_, ?_, ?_⟩
      · rw [List.getElem?_set_ne (by omega), List.getElem?_set_ne (by omega), hfirst]
      · rw [List.getElem?_set_ne (by omega), List.getElem?_set_ne (by omega), hsecond]
      · intro i weight hweight
        have hi := (List.getElem?_eq_some_iff.mp hweight).1
        rw [windowOf_length, windowOf] at hi
        have hle := (h.window out (by omega)).count_le
        have hmul : out * kernelSize + kernelSize ≤ done * kernelSize := by
          rw [← Nat.succ_mul]
          exact Nat.mul_le_mul_right _ hlt
        rw [getElem?_overwrite_of_lt (by omega) (by omega)]
        exact hweights i weight hweight
    · refine ⟨?_, ?_, ?_⟩
      · rw [List.getElem?_set_ne (by omega), List.getElem?_set_self (by omega)]
      · rw [List.getElem?_set_self (by rw [List.length_set]; exact hbound)]
      · intro i weight hweight
        have hi := (List.getElem?_eq_some_iff.mp hweight).1
        rw [getElem?_overwrite_add hroom i (by rw [slots_length]; exact hi)]
        exact slots_getElem? out hweight
  · intro slot hslot
    rcases mem_overwrite hslot with hslot | hslot
    · exact hw.small slot hslot
    · obtain ⟨weight, hweight, rfl⟩ := List.mem_map.mp hslot
      exact h.weight done hdone weight hweight

/-- The vectors of the loops hold the windows of the functional model. -/
structure Represents (memory : AxisMemory) (axis : ResampleAxis) (kernelSize outputs : Nat) :
    Prop where
  kernel : memory.kernelSize = kernelSize
  window : ∀ out < outputs, ∃ (bounds : Int × Int) (weights : List Int),
    axis.bounds[out]? = some bounds ∧ axis.weights[out]? = some weights ∧
    weights.length = bounds.2.toNat ∧
    memory.bounds[2 * out]? = some bounds.1 ∧ memory.bounds[2 * out + 1]? = some bounds.2 ∧
    ∀ (i : Nat) (weight : Int), weights[i]? = some weight →
      memory.weights[out * kernelSize + i]? = some (some out, weight)

theorem Written.start (h : AxisRuns arith inputSize outputSize kernelSize) :
    Written arith inputSize outputSize kernelSize 0
      (List.replicate (outputSize * 2).toNat 0)
      (List.replicate (outputSize * kernelSize).toNat (none, arith.ofInt 0)) := by
  refine ⟨?_, ?_, fun out hout => absurd hout (Nat.not_lt_zero out), ?_⟩
  · rw [List.length_replicate]
    omega
  · rw [List.length_replicate]
    rcases le_or_gt 0 outputSize with hle | hlt
    · rw [Int.toNat_mul hle (Int.natCast_nonneg _), Int.toNat_natCast]
    · rw [Int.toNat_of_nonpos hlt.le, Nat.zero_mul, Int.toNat_of_nonpos]
      exact Int.mul_nonpos_of_nonpos_of_nonneg hlt.le (Int.natCast_nonneg _)
  · intro slot hslot
    rw [List.eq_of_mem_replicate hslot]
    exact h.zero

theorem bicubicAxisLoops_eq (h : AxisRuns arith inputSize outputSize kernelSize) :
    ∃ memory, bicubicAxisLoops arith inputSize outputSize = .ok memory ∧
      Represents memory (bicubicAxis arith inputSize outputSize) kernelSize
        outputSize.toNat := by
  have hkernel := h.kernel
  have hlt := h.kernel_lt
  have hceil : int32 (arith.ceil (supportOf arith (axisScaleOf arith inputSize outputSize))) =
      .ok (arith.ceil (supportOf arith (axisScaleOf arith inputSize outputSize))) :=
    int32_eq (by omega) (by omega)
  have hdouble : int32 (arith.ceil (supportOf arith (axisScaleOf arith inputSize outputSize)) * 2) =
      .ok (arith.ceil (supportOf arith (axisScaleOf arith inputSize outputSize)) * 2) :=
    int32_eq (by omega) (by omega)
  have hsize : int32
      (arith.ceil (supportOf arith (axisScaleOf arith inputSize outputSize)) * 2 + 1) =
      .ok (kernelSize : Int) := by
    rw [hkernel]
    exact int32_eq (by omega) hlt
  obtain ⟨⟨bounds, raw⟩, hrun, hw⟩ := foldlM_range_ok
    (I := fun done (state : List Int × List (Option Nat × D)) =>
      Written arith inputSize outputSize kernelSize done state.1 state.2)
    (b := (List.replicate (outputSize * 2).toNat 0,
      List.replicate (outputSize * kernelSize).toNat (none, arith.ofInt 0)))
    (n := outputSize.toNat) (Written.start h)
    fun done hdone state hw => windowLoop_written h (by omega) hw
  have hweights : raw.mapM (fun slot => do
        return (slot.1, ← int32 (fixedPoint arith slot.2))) =
      .ok (raw.map fun slot => (slot.1, fixedPoint arith slot.2)) := by
    apply mapM_ok
    intro slot hslot
    obtain ⟨hlow, hhigh⟩ := abs_lt.mp (hw.small slot hslot)
    rw [int32_eq hlow.le hhigh]
    rfl
  refine ⟨⟨kernelSize, bounds, raw.map fun slot => (slot.1, fixedPoint arith slot.2)⟩, ?_, rfl, ?_⟩
  · change (int32 (arith.ceil (supportOf arith (axisScaleOf arith inputSize outputSize))) >>= _) = _
    rw [hceil, ok_bind, hdouble, ok_bind, hsize, ok_bind]
    change (List.foldlM (windowLoop arith inputSize kernelSize
      (axisScaleOf arith inputSize outputSize)
      (filterScaleOf arith (axisScaleOf arith inputSize outputSize))
      (supportOf arith (axisScaleOf arith inputSize outputSize))) _ _ >>= _) = _
    rw [hrun, ok_bind]
    dsimp only
    rw [hweights]
    rfl
  · intro out hout
    obtain ⟨hfirst, hsecond, hslots⟩ := hw.window out hout
    have hlt : (out : Int) < outputSize := by omega
    obtain ⟨hbounds, hrow⟩ := bicubicAxis_getElem? arith inputSize hlt
    refine ⟨_, _, hbounds, hrow, ?_, hfirst, hsecond, ?_⟩
    · rw [List.length_map]
      exact windowOf_length arith inputSize outputSize out
    · intro i weight hweight
      rw [List.getElem?_map, Option.map_eq_some_iff] at hweight
      obtain ⟨value, hvalue, rfl⟩ := hweight
      dsimp only
      rw [List.getElem?_map, hslots i value hvalue]
      rfl

end Run

end Branchscore.ImagePreprocessor
