import Branchscore.ImagePreprocessor.Axis

/-!
# No check of the loops fails

The two passes read the axis vectors and the image only inside their windows and assign the
output in the order of its subscripts, so the checked loops compute the functional model.
-/

namespace Branchscore.ImagePreprocessor

open Foundation Outcome
set_option autoImplicit false

/-! ## One sample -/

section Sample
variable {memory : AxisMemory} {axis : ResampleAxis} {kernelSize outputs : Nat}

theorem loadWeight_eq {out i : Nat} {weight : Int} (hkernel : memory.kernelSize = kernelSize)
    (h : memory.weights[out * kernelSize + i]? = some (some out, weight)) :
    loadWeight memory out i = .ok weight := by
  have hload := loadCell_natCast Fault.subscript h
  rw [Nat.cast_add, Nat.cast_mul] at hload
  rw [loadWeight, hkernel, hload, ok_bind]
  exact if_pos rfl

/-- The window loop reads its own weights and computes the sample of the functional model. -/
theorem resampleLoop_eq {image : Bytes} {source : Nat → Int} {sample : Int → Byte} {out : Nat}
    {bounds : Int × Int} {weights : List Int} (hkernel : memory.kernelSize = kernelSize)
    (hbounds : axis.bounds[out]? = some bounds) (hweights : axis.weights[out]? = some weights)
    (hlength : weights.length = bounds.2.toNat)
    (hslots : ∀ (i : Nat) (weight : Int), weights[i]? = some weight →
      memory.weights[out * kernelSize + i]? = some (some out, weight))
    (hsource : ∀ i : Nat, i < bounds.2.toNat →
      loadCell Fault.subscript image (source i) = .ok (sample (bounds.1 + i))) :
    resampleLoop image source memory out bounds.2 = .ok (resample sample axis out) := by
  let add : Int → Int × Nat → Int := fun sum w =>
    sum + ((sample (bounds.1 + w.2)).val : Int) * w.1
  have hzip : weights.zipIdx.length = bounds.2.toNat := by rw [List.length_zipIdx, hlength]
  have hrun : (List.range bounds.2.toNat).foldlM (fun (sum : Int) (index : Nat) => do
      let sample ← loadCell Fault.subscript image (source index)
      return sum + sample.val * (← loadWeight memory out index)) (2 ^ 21) =
      .ok (weights.zipIdx.foldl add (2 ^ 21)) := by
    have hend := foldlM_range_eq (fun i => (weights.zipIdx.take i).foldl add (2 ^ 21))
      (f := fun (sum : Int) (index : Nat) => do
        let sample ← loadCell Fault.subscript image (source index)
        return sum + sample.val * (← loadWeight memory out index)) (n := bounds.2.toNat) ?_
    · rw [List.take_of_length_le hzip.le] at hend
      exact hend
    · intro i hi
      have hweight : weights[i]? = some weights[i] := List.getElem?_eq_getElem (by omega)
      have hentry : weights.zipIdx[i]? = some (weights[i], i) := by
        rw [List.getElem?_zipIdx, hweight, Option.map_some, Nat.zero_add]
      rw [hsource i hi, ok_bind, loadWeight_eq hkernel (hslots i _ hweight), ok_bind,
        List.take_add_one, hentry, List.foldl_append]
      rfl
  rw [resampleLoop, hrun, ok_bind, resample, List.getD_eq_getElem?_getD,
    List.getD_eq_getElem?_getD, hbounds, hweights]
  rfl

end Sample

/-! ## The two passes -/

theorem loadPixel {image : Bytes} {height width channel : Nat}
    (hlength : image.length = height * (width * 3)) (hchannel : channel < 3) {y x : Int}
    (hy0 : 0 ≤ y) (hy : y < height) (hx0 : 0 ≤ x) (hx : x < width) :
    loadCell Fault.subscript image ((y * width + x) * 3 + channel) =
      .ok (image.getD ((y * width + x).toNat * 3 + channel) 0) := by
  obtain ⟨y, rfl⟩ := Int.eq_ofNat_of_zero_le hy0
  obtain ⟨x, rfl⟩ := Int.eq_ofNat_of_zero_le hx0
  have hpixel : ((y : Int) * width + x).toNat = y * width + x := by
    exact_mod_cast Int.toNat_natCast (y * width + x)
  have hindex : ((y : Int) * width + x) * 3 + channel =
      (((y * width + x) * 3 + channel : Nat) : Int) := by push_cast; ring
  have hbound : (y * width + x) * 3 + channel < image.length := by
    have hmul := Nat.mul_le_mul_right width (Nat.succ_le_of_lt (Int.ofNat_lt.mp hy))
    rw [Nat.succ_mul] at hmul
    have hx' := Int.ofNat_lt.mp hx
    rw [hlength, ← Nat.mul_assoc]
    omega
  rw [hindex, loadCell_natCast _ (List.getElem?_eq_getElem hbound), hpixel,
    List.getD_eq_getElem _ _ hbound]

section Passes
variable {D : Type} {arith : DoubleArithmetic D} {kernelSize inputs outputs : Nat}

/-- The vectors serve every output index: its subscripts fit in `int`, its window lies in
the source, and its slots hold its weights. -/
structure Serves (memory : AxisMemory) (axis : ResampleAxis) (kernelSize inputs outputs : Nat) :
    Prop extends Represents memory axis kernelSize outputs where
  subscript : ∀ out < outputs, 2 * (out : Int) + 1 < 2 ^ 31
  inside : ∀ out < outputs, ∀ bounds, axis.bounds[out]? = some bounds →
    0 ≤ bounds.1 ∧ bounds.1 + bounds.2 ≤ inputs

variable {memory : AxisMemory} {axis : ResampleAxis}

theorem Serves.loadBounds (h : Serves memory axis kernelSize inputs outputs) {out : Nat}
    (hout : out < outputs) : ∃ bounds weights, axis.bounds[out]? = some bounds ∧
      axis.weights[out]? = some weights ∧ weights.length = bounds.2.toNat ∧
      (∀ (i : Nat) (weight : Int), weights[i]? = some weight →
        memory.weights[out * kernelSize + i]? = some (some out, weight)) ∧
      (0 ≤ bounds.1 ∧ bounds.1 + bounds.2 ≤ inputs) ∧
      int32 (2 * out) = .ok (2 * out) ∧ int32 (2 * out + 1) = .ok (2 * out + 1) ∧
      loadCell Fault.subscript memory.bounds (2 * out) = .ok bounds.1 ∧
      loadCell Fault.subscript memory.bounds (2 * out + 1) = .ok bounds.2 := by
  obtain ⟨bounds, weights, hbounds, hweights, hlength, hfirst, hcount, hslots⟩ := h.window out hout
  have hsubscript := h.subscript out hout
  have hfirst' := loadCell_natCast Fault.subscript hfirst
  have hcount' := loadCell_natCast Fault.subscript hcount
  push_cast at hfirst' hcount'
  exact ⟨bounds, weights, hbounds, hweights, hlength, hslots, h.inside out hout bounds hbounds,
    int32_eq (by omega) (by omega), int32_eq (by omega) (by omega), hfirst', hcount'⟩

/-- The loop over the samples of one pixel. -/
theorem channelLoop_eq (value : Nat → Byte) {target : Bytes} {base : Nat}
    {body : Nat → Except Fault Byte} (hbody : ∀ channel < 3, body channel = .ok (value channel))
    (htarget : ∀ channel < 3, target[base + channel]? = some (value channel)) {index : Int}
    (hindex : index = base) :
    (List.range 3).foldlM (fun cells (channel : Nat) => do
      let value ← body channel
      assignCell .subscript .rewritten cells (index + channel) value) (filled target base) =
      .ok (filled target (base + 3)) := by
  apply foldlM_range_eq fun channel => filled target (base + channel)
  intro channel hchannel
  rw [hbody channel hchannel, ok_bind, hindex, ← Nat.cast_add]
  exact assignCell_filled (htarget channel hchannel)

theorem replicate_eq_filled {target : Bytes} {height width : Nat}
    (h : target.length = height * (width * 3)) :
    List.replicate ((width : Int) * height * 3).toNat (none : Option Byte) = filled target 0 := by
  have hcast : ((width : Int) * height * 3).toNat = height * (width * 3) := by
    have hmul : (width : Int) * height * 3 = ((height * (width * 3) : Nat) : Int) := by
      push_cast
      ring
    rw [hmul, Int.toNat_natCast]
  rw [hcast, ← h, filled_zero]

/-- Rows of `width` pixels, each pixel filled by the loop over its samples. -/
theorem rowLoop_eq {target : Bytes} {width y : Nat}
    {body : List (Option Byte) → Nat → Except Fault (List (Option Byte))}
    (hbody : ∀ x < width, body (filled target ((y * width + x) * 3)) x =
      .ok (filled target ((y * width + x) * 3 + 3))) :
    (List.range width).foldlM body (filled target (y * width * 3)) =
      .ok (filled target ((y + 1) * width * 3)) := by
  have hrun := foldlM_range_eq (fun x => filled target ((y * width + x) * 3)) (f := body)
    (n := width) fun x hx => by
      rw [hbody x hx]
      congr 2
      ring
  rw [Nat.add_zero, ← Nat.succ_mul] at hrun
  exact hrun

theorem horizontalLoops_eq {input : Bytes} {height : Nat}
    (h : Serves memory (bicubicAxis arith inputs outputs) kernelSize inputs outputs)
    (hlength : input.length = height * (inputs * 3)) :
    horizontalLoops input memory inputs height outputs =
      .ok (horizontalPass arith input inputs height outputs) := by
  generalize htarget : horizontalPass arith input inputs height outputs = target
  have htargetLength : target.length = height * (outputs * 3) := by
    rw [← htarget, horizontalPass, raster_length, Int.toNat_natCast, Int.toNat_natCast]
  unfold horizontalLoops
  rw [replicate_eq_filled htargetLength, Int.toNat_natCast, Int.toNat_natCast]
  have hrun := foldlM_range_eq (fun y => filled target (y * outputs * 3)) (n := height)
    (f := fun cells (y : Nat) => (List.range outputs).foldlM (fun cells (x : Nat) => do
      let first ← loadCell .subscript memory.bounds (← int32 (2 * x))
      let count ← loadCell .subscript memory.bounds (← int32 (2 * x + 1))
      (List.range 3).foldlM (fun cells (channel : Nat) => do
        let value ← resampleLoop input
          (fun index => (y * inputs + first + index) * 3 + channel) memory x count
        assignCell .subscript .rewritten cells ((y * outputs + x) * 3 + channel) value)
        cells) cells) ?_
  · rw [Nat.zero_mul, Nat.zero_mul] at hrun
    rw [hrun, ok_bind, Nat.mul_assoc, ← htargetLength]
    exact freeze_filled _ _
  · intro y hy
    apply rowLoop_eq
    intro x hx
    obtain ⟨bounds, weights, hbounds, hweights, hcount, hslots, ⟨hfirst, hstop⟩, heven, hodd,
      hload, hload'⟩ := h.loadBounds hx
    rw [heven, ok_bind, hload, ok_bind, hodd, ok_bind, hload', ok_bind]
    apply channelLoop_eq (fun channel => resample
      (fun source => input.getD ((y * (inputs : Int) + source).toNat * 3 + channel) 0)
        (bicubicAxis arith inputs outputs) x)
    · intro channel hchannel
      apply resampleLoop_eq h.kernel hbounds hweights hcount hslots
      intro i hi
      rw [add_assoc ((y : Int) * inputs)]
      exact loadPixel hlength hchannel (by omega) (by omega) (by omega) (by omega)
    · intro channel hchannel
      rw [← htarget, horizontalPass, Int.toNat_natCast, Int.toNat_natCast]
      exact raster_getElem? hy hx hchannel
    · push_cast
      rfl

theorem verticalLoops_eq {intermediate : Bytes} {width : Nat}
    (h : Serves memory (bicubicAxis arith inputs outputs) kernelSize inputs outputs)
    (hlength : intermediate.length = inputs * (width * 3)) :
    verticalLoops intermediate memory width outputs =
      .ok (verticalPass arith intermediate inputs width outputs) := by
  generalize htarget : verticalPass arith intermediate inputs width outputs = target
  have htargetLength : target.length = outputs * (width * 3) := by
    rw [← htarget, verticalPass, raster_length, Int.toNat_natCast, Int.toNat_natCast]
  unfold verticalLoops
  rw [replicate_eq_filled htargetLength, Int.toNat_natCast, Int.toNat_natCast]
  have hrun := foldlM_range_eq (fun y => filled target (y * width * 3)) (n := outputs)
    (f := fun cells (y : Nat) => do
      let first ← loadCell .subscript memory.bounds (← int32 (2 * y))
      let count ← loadCell .subscript memory.bounds (← int32 (2 * y + 1))
      (List.range width).foldlM (fun cells (x : Nat) =>
        (List.range 3).foldlM (fun cells (channel : Nat) => do
          let value ← resampleLoop intermediate
            (fun index => ((first + index) * width + x) * 3 + channel) memory y count
          assignCell .subscript .rewritten cells ((y * width + x) * 3 + channel) value)
          cells) cells) ?_
  · rw [Nat.zero_mul, Nat.zero_mul] at hrun
    rw [hrun, ok_bind, Nat.mul_assoc, ← htargetLength]
    exact freeze_filled _ _
  · intro y hy
    obtain ⟨bounds, weights, hbounds, hweights, hcount, hslots, ⟨hfirst, hstop⟩, heven, hodd,
      hload, hload'⟩ := h.loadBounds hy
    rw [heven, ok_bind, hload, ok_bind, hodd, ok_bind, hload', ok_bind]
    apply rowLoop_eq
    intro x hx
    apply channelLoop_eq (fun channel => resample
      (fun source => intermediate.getD ((source * (width : Int) + x).toNat * 3 + channel) 0)
        (bicubicAxis arith inputs outputs) y)
    · intro channel hchannel
      apply resampleLoop_eq h.kernel hbounds hweights hcount hslots
      intro i hi
      exact loadPixel hlength hchannel (by omega) (by omega) (by omega) (by omega)
    · intro channel hchannel
      rw [← htarget, verticalPass, Int.toNat_natCast, Int.toNat_natCast]
      exact raster_getElem? hy hx hchannel
    · push_cast
      rfl

end Passes

/-! ## Axes that fit in `int` -/

section Ideal
variable {K : Type} [Field K] [LinearOrder K] [FloorRing K]

/-- The conversions of `bicubic_axis` stay in `int`: the kernel size, the ends of the windows
and the subscripts of `bounds`. -/
structure AxisFits (K : Type) [Field K] [LinearOrder K] [FloorRing K]
    (inputSize outputSize : Int) : Prop where
  size : inputSize < 2 ^ 31
  kernel : ⌈2 * filterWidth (axisScale K inputSize outputSize)⌉ * 2 + 1 < 2 ^ 31
  stop : ∀ out, 0 ≤ out → out < outputSize →
    ⌊outputCenter (axisScale K inputSize outputSize) out +
      2 * filterWidth (axisScale K inputSize outputSize) + 1 / 2⌋ < 2 ^ 31
  subscript : outputSize ≤ 2 ^ 30

variable [IsStrictOrderedRing K] (sqrt : K → K) {inputSize outputSize : Int}

theorem filterWidth_le (hinput : 1 ≤ inputSize) (houtput : 1 ≤ outputSize) :
    filterWidth (axisScale K inputSize outputSize) ≤ inputSize := by
  have hin : (1 : K) ≤ inputSize := by exact_mod_cast hinput
  have hout : (1 : K) ≤ outputSize := by exact_mod_cast houtput
  apply max_le hin
  exact div_le_self (by linarith) hout

/-- Every source that an image decoder admits fits. -/
theorem axisFits_of_le (hinput : 1 ≤ inputSize) (hle : inputSize ≤ 2 ^ 24)
    (houtput : 1 ≤ outputSize) (hsubscript : outputSize ≤ 2 ^ 30) :
    AxisFits K inputSize outputSize := by
  have hwidth := filterWidth_le (K := K) hinput houtput
  refine ⟨by omega, ?_, ?_, hsubscript⟩
  · have hceil : ⌈2 * filterWidth (axisScale K inputSize outputSize)⌉ ≤ 2 * inputSize := by
      apply Int.ceil_le.mpr
      push_cast
      linarith
    omega
  · intro out hout hlt
    have hcentered := centered_axis (K := K) hinput hout hlt
    have hupper := hcentered.upper
    have hone := hcentered.one_le
    have hfloor : ⌊outputCenter (axisScale K inputSize outputSize) out +
        2 * filterWidth (axisScale K inputSize outputSize) + 1 / 2⌋ < 3 * inputSize + 2 := by
      apply Int.floor_lt.mpr
      push_cast
      linarith
    omega

omit [IsStrictOrderedRing K] in
theorem truncate_lt {x y : K} {bound : Int} (hbound : 0 < bound) (hxy : x ≤ y)
    (hy : ⌊y⌋ < bound) : truncate x < bound := by
  unfold truncate
  split_ifs with hneg
  · have hceil : ⌈x⌉ ≤ 0 := Int.ceil_le.mpr (by simpa using hneg.le)
    omega
  · exact (Int.floor_le_floor hxy).trans_lt hy

theorem le_truncate {x : K} {bound : Int} (h : (bound : K) ≤ x) : bound ≤ truncate x := by
  unfold truncate
  split_ifs
  · exact Int.cast_le.mp (h.trans (Int.le_ceil x))
  · exact Int.le_floor.mpr h

omit [IsStrictOrderedRing K] in
theorem supportOf_ideal (scale : K) :
    supportOf (ideal sqrt) scale = 2 * filterWidth scale := by
  unfold supportOf filterScaleOf
  rw [ideal_filterScale]
  change ((2 : Int) : K) * filterWidth scale = 2 * filterWidth scale
  rw [Int.cast_ofNat]

theorem axisRuns (hinput : 1 ≤ inputSize) (h : AxisFits K inputSize outputSize) :
    AxisRuns (ideal sqrt) inputSize outputSize
      (⌈2 * filterWidth (axisScale K inputSize outputSize)⌉ * 2 + 1).toNat := by
  have hscale : axisScaleOf (ideal sqrt) inputSize outputSize =
      axisScale K inputSize outputSize := rfl
  have hwidth : 1 ≤ filterWidth (axisScale K inputSize outputSize) := le_max_left ..
  have hceil : 2 ≤ ⌈2 * filterWidth (axisScale K inputSize outputSize)⌉ := by
    have hlt : (1 : K) < 2 * filterWidth (axisScale K inputSize outputSize) := by linarith
    have hone : (1 : Int) < ⌈2 * filterWidth (axisScale K inputSize outputSize)⌉ :=
      Int.lt_ceil.mpr (by exact_mod_cast hlt)
    omega
  have hkernel := h.kernel
  refine ⟨?_, by omega, ?_, ?_, ?_⟩
  · rw [hscale, supportOf_ideal]
    change ⌈2 * filterWidth (axisScale K inputSize outputSize)⌉ * 2 + 1 = _
    omega
  · intro out hout
    have hcentered := centered_axis (K := K) hinput (Int.natCast_nonneg out) hout
    have hbounds := resampleWindow_bounds sqrt hcentered
    have hstop := h.stop out (Int.natCast_nonneg out) hout
    have hlow : lowEnd (ideal sqrt) (axisScale K inputSize outputSize) out =
        truncate (outputCenter (axisScale K inputSize outputSize) out -
          2 * filterWidth (axisScale K inputSize outputSize) + 1 / 2) := by
      unfold lowEnd
      rw [supportOf_ideal]
      rfl
    have hhigh : highEnd (ideal sqrt) (axisScale K inputSize outputSize) out =
        truncate (outputCenter (axisScale K inputSize outputSize) out +
          2 * filterWidth (axisScale K inputSize outputSize) + 1 / 2) := by
      unfold highEnd
      rw [supportOf_ideal]
      rfl
    have hcenter := hcentered.lower
    have hfirst := windowFirst_lt_windowStop hcentered
    have hcount := window_le_kernelSize inputSize (filterWidth (axisScale K inputSize outputSize))
      (outputCenter (axisScale K inputSize outputSize) out)
    have hnonneg := windowFirst_nonneg (filterWidth (axisScale K inputSize outputSize))
      (outputCenter (axisScale K inputSize outputSize) out)
    have hend := windowStop_le inputSize (filterWidth (axisScale K inputSize outputSize))
      (outputCenter (axisScale K inputSize outputSize) out)
    rw [hscale]
    refine ⟨h.size, ?_, ?_, ?_, ?_, ?_, ?_, ?_⟩
    · have hsubscript := h.subscript
      omega
    · rw [hlow]
      constructor
      · apply le_truncate
        have hlt : ((⌈2 * filterWidth (axisScale K inputSize outputSize)⌉ : Int) : K) ≤
            ((2 ^ 31 : Int) : K) := by exact_mod_cast (by omega)
        have hle := Int.le_ceil (2 * filterWidth (axisScale K inputSize outputSize))
        push_cast at hlt ⊢
        linarith
      · exact truncate_lt (by norm_num) (by linarith) hstop
    · rw [hhigh]
      constructor
      · apply le_truncate
        push_cast
        linarith
      · exact truncate_lt (by norm_num) le_rfl hstop
    all_goals rw [hbounds]
    · exact hnonneg
    · dsimp only
      omega
    · dsimp only
      omega
    · dsimp only
      omega
  · intro out hout weight hweight
    exact fixedPoint_fits sqrt (centered_axis (K := K) hinput (Int.natCast_nonneg out) hout)
      weight hweight
  · have hnear := fixedPoint_near sqrt ((0 : Int) : K)
    rw [Int.cast_zero, zero_mul, sub_zero, ← Int.cast_zero] at hnear
    have hlt : ((|fixedPoint (ideal sqrt) ((0 : Int) : K)| : Int) : K) < ((2 ^ 31 : Int) : K) := by
      push_cast
      push_cast at hnear
      linarith
    exact Int.cast_lt.mp hlt

/-- The window of every output index lies in the source and fits the kernel. -/
def InBounds (memory : AxisMemory) (inputSize outputSize : Int) : Prop :=
  ∀ out : Nat, out < outputSize → ∃ first count, memory.bounds[2 * out]? = some first ∧
    memory.bounds[2 * out + 1]? = some count ∧ 0 ≤ first ∧ 1 ≤ count ∧
    count ≤ memory.kernelSize ∧ first + count ≤ inputSize

theorem bicubicAxisLoops_inBounds (hinput : 1 ≤ inputSize)
    (h : AxisFits K inputSize outputSize) : ∃ memory kernelSize,
      bicubicAxisLoops (ideal sqrt) inputSize outputSize = .ok memory ∧
      Serves memory (bicubicAxis (ideal sqrt) inputSize outputSize) kernelSize inputSize.toNat
        outputSize.toNat ∧
      InBounds memory inputSize outputSize := by
  have hruns := axisRuns sqrt hinput h
  obtain ⟨memory, hrun, hrepresents⟩ := bicubicAxisLoops_eq hruns
  refine ⟨memory, _, hrun, ⟨hrepresents, ?_, ?_⟩, ?_⟩
  · intro out hout
    exact (hruns.window out (by omega)).subscript
  · intro out hout bounds hbounds
    have hfits := hruns.window out (by omega)
    have hlt : (out : Int) < outputSize := by omega
    obtain ⟨hwindow, -⟩ := bicubicAxis_getElem? (ideal sqrt) inputSize hlt
    rw [hwindow, Option.some.injEq] at hbounds
    have hstop := hfits.stop_le
    rw [← hbounds]
    exact ⟨hfits.first_nonneg, by omega⟩
  · intro out hout
    have hfits := hruns.window out hout
    obtain ⟨bounds, weights, hbounds, -, -, hfirst, hcount, -⟩ := hrepresents.window out (by omega)
    obtain ⟨hwindow, -⟩ := bicubicAxis_getElem? (ideal sqrt) inputSize hout
    rw [hwindow, Option.some.injEq] at hbounds
    refine ⟨_, _, hfirst, hcount, ?_, ?_, ?_, ?_⟩
    all_goals rw [← hbounds]
    · exact hfits.first_nonneg
    · exact hfits.count_pos
    · rw [hrepresents.kernel]
      exact hfits.count_le
    · exact hfits.stop_le

end Ideal

/-- No check of the loops fails: every subscript is inside its vector, every weight was
written for the output index that reads it, and every output byte is assigned once. -/
theorem resizeBicubicLoops_safe (sqrt : Rat → Rat) {input : Bytes}
    {inputWidth inputHeight outputWidth outputHeight : Int} (hwidth : 1 ≤ inputWidth)
    (hheight : 1 ≤ inputHeight) (htargetWidth : 1 ≤ outputWidth)
    (htargetHeight : 1 ≤ outputHeight) (hfitsWidth : AxisFits Rat inputWidth outputWidth)
    (hfitsHeight : AxisFits Rat inputHeight outputHeight)
    (hlength : input.length = inputHeight.toNat * (inputWidth.toNat * 3)) :
    (∃ memory, bicubicAxisLoops (ideal sqrt) inputWidth outputWidth = .ok memory ∧
      InBounds memory inputWidth outputWidth) ∧
    (∃ memory, bicubicAxisLoops (ideal sqrt) inputHeight outputHeight = .ok memory ∧
      InBounds memory inputHeight outputHeight) ∧
    resizeBicubicLoops (ideal sqrt) input inputWidth inputHeight outputWidth outputHeight =
      .ok (resizeBicubic (ideal sqrt) input inputWidth inputHeight outputWidth outputHeight) := by
  obtain ⟨horizontal, _, hrun, hserves, hbounds⟩ :=
    bicubicAxisLoops_inBounds sqrt hwidth hfitsWidth
  obtain ⟨vertical, _, hrun', hserves', hbounds'⟩ :=
    bicubicAxisLoops_inBounds sqrt hheight hfitsHeight
  refine ⟨⟨horizontal, hrun, hbounds⟩, ⟨vertical, hrun', hbounds'⟩, ?_⟩
  obtain ⟨inputWidth, rfl⟩ := Int.eq_ofNat_of_zero_le (by omega : 0 ≤ inputWidth)
  obtain ⟨inputHeight, rfl⟩ := Int.eq_ofNat_of_zero_le (by omega : 0 ≤ inputHeight)
  obtain ⟨outputWidth, rfl⟩ := Int.eq_ofNat_of_zero_le (by omega : 0 ≤ outputWidth)
  obtain ⟨outputHeight, rfl⟩ := Int.eq_ofNat_of_zero_le (by omega : 0 ≤ outputHeight)
  simp only [Int.toNat_natCast] at hlength hserves hserves'
  rw [resizeBicubic_eq_passes, resizeBicubicLoops]
  by_cases hsame : (inputWidth : Int) = outputWidth ∧ (inputHeight : Int) = outputHeight
  · rw [if_pos hsame, if_pos hsame, Int.toNat_natCast, Int.toNat_natCast]
    have hcount : inputWidth * inputHeight * 3 = input.length := by
      rw [hlength]
      ring
    have hload : ∀ i ∈ List.range input.length,
        loadCell Fault.subscript input (i : Nat) = .ok (input.getD i 0) := by
      intro i hi
      have hlt := List.mem_range.mp hi
      rw [loadCell_natCast _ (List.getElem?_eq_getElem hlt), List.getD_eq_getElem _ _ hlt]
    rw [hcount, List.take_length, mapM_ok hload]
    congr 1
    apply List.ext_getElem (by rw [List.length_map, List.length_range])
    intro i _ hi
    rw [List.getElem_map, List.getElem_range, List.getD_eq_getElem _ _ hi]
  · have hintermediate : (horizontalPass (ideal sqrt) input inputWidth inputHeight
        outputWidth).length = inputHeight * (outputWidth * 3) := by
      rw [horizontalPass, raster_length, Int.toNat_natCast, Int.toNat_natCast]
    rw [if_neg hsame, if_neg hsame, hrun, ok_bind, hrun', ok_bind,
      horizontalLoops_eq hserves hlength, ok_bind, verticalLoops_eq hserves' hintermediate]

/-- Three by two pixels to two by three: the windows have three weights and two. -/
theorem resizeBicubicLoops_safe_sample :
    (bicubicAxis (ideal (id : Rat → Rat)) 3 2).bounds = [(0, 3), (0, 3)] ∧
    (bicubicAxis (ideal (id : Rat → Rat)) 2 3).bounds = [(0, 2), (0, 2), (0, 2)] ∧
    (∃ memory, bicubicAxisLoops (ideal (id : Rat → Rat)) 3 2 = .ok memory ∧
      InBounds memory 3 2) ∧
    (∃ memory, bicubicAxisLoops (ideal (id : Rat → Rat)) 2 3 = .ok memory ∧
      InBounds memory 2 3) ∧
    resizeBicubicLoops (ideal (id : Rat → Rat))
        [0, 8, 9, 50, 8, 200, 255, 8, 30, 7, 8, 1, 100, 8, 90, 60, 8, 0] 3 2 2 3 =
      .ok [7, 8, 86, 192, 8, 101, 25, 8, 60, 132, 8, 66, 43, 8, 33, 71, 8, 31] := by
  obtain ⟨hwidth, hheight, hresized⟩ := @resizeBicubicLoops_safe id
    [0, 8, 9, 50, 8, 200, 255, 8, 30, 7, 8, 1, 100, 8, 90, 60, 8, 0] 3 2 2 3
    (by norm_num) (by norm_num) (by norm_num) (by norm_num)
    (axisFits_of_le (by norm_num) (by norm_num) (by norm_num) (by norm_num))
    (axisFits_of_le (by norm_num) (by norm_num) (by norm_num) (by norm_num)) rfl
  refine ⟨by decide +kernel, by decide +kernel, hwidth, hheight, hresized.trans ?_⟩
  exact congrArg Except.ok (by decide +kernel)

/-- The kernel size of a source of `2 ^ 30` samples for one output is no `int`. -/
theorem bicubicAxisLoops_overflows :
    ¬∀ inputSize outputSize : Int, 1 ≤ inputSize → inputSize < 2 ^ 31 → 1 ≤ outputSize →
      outputSize < 2 ^ 31 → ∃ memory,
        bicubicAxisLoops (ideal (id : Rat → Rat)) inputSize outputSize = .ok memory ∧
        InBounds memory inputSize outputSize := by
  intro hall
  obtain ⟨memory, hrun, -⟩ := hall (2 ^ 30) 1 (by norm_num) (by norm_num) (le_refl 1) (by norm_num)
  have hsupport : supportOf (ideal (id : Rat → Rat))
      (axisScaleOf (ideal (id : Rat → Rat)) (2 ^ 30) 1) = ((2 ^ 31 : Int) : Rat) := by
    rw [supportOf_ideal]
    change 2 * max 1 (((2 ^ 30 : Int) : Rat) / ((1 : Int) : Rat)) = _
    norm_num
  have hceil : (ideal (id : Rat → Rat)).ceil (supportOf (ideal (id : Rat → Rat))
      (axisScaleOf (ideal (id : Rat → Rat)) (2 ^ 30) 1)) = 2 ^ 31 := by
    rw [hsupport]
    exact Int.ceil_intCast _
  have herror : int32 (2 ^ 31) = .error .conversion := if_neg (by norm_num)
  change (int32 ((ideal (id : Rat → Rat)).ceil (supportOf (ideal (id : Rat → Rat))
    (axisScaleOf (ideal (id : Rat → Rat)) (2 ^ 30) 1))) >>= _) = _ at hrun
  rw [hceil, herror] at hrun
  cases hrun

end Branchscore.ImagePreprocessor
