import Branchscore.ModelConfig

/-!
# Image decoding and resizing

The image decoder and the arithmetic of doubles are parameters. A decoder returns
the dimensions or a reason for its failure; the conversions of a double to an
integer are those of a C++ cast.
-/

namespace Branchscore

open Foundation
set_option autoImplicit false

/-- What the program uses of `stb_image`: `load` also returns the RGB samples. -/
structure StbImage where
  info : Bytes → Except (Option Bytes) (Int × Int)
  load : Bytes → Except (Option Bytes) (Int × Int × Bytes)
  loadFile : Bytes → Except (Option Bytes) (Int × Int × Bytes)

structure DoubleArithmetic (D : Type) where
  ofInt : Int → D
  add : D → D → D
  sub : D → D → D
  mul : D → D → D
  div : D → D → D
  half : D
  sqrt : D → D
  abs : D → D
  lt : D → D → Bool
  round : D → Int
  ceil : D → Int
  floor : D → Int
  toInt : D → Int

/-- The value of a normalised sample in `float` arithmetic. -/
abbrev NormalizeSample := Byte → Float32Bits → Float32Bits → Float32Bits

structure PreparedImage where
  width : Nat
  height : Nat
  pixels : List Float32Bits
  deriving DecidableEq, Repr

structure EncodedImageInfo where
  width : Nat
  height : Nat
  deriving DecidableEq, Repr

/-! ## Token counts -/

namespace PreparedImage

def patchCount (image : PreparedImage) (config : VisionModelConfig) : Except Exception Nat :=
  if config.patchSize = 0 ∨ image.width % config.patchSize ≠ 0 ∨
      image.height % config.patchSize ≠ 0 then
    runtimeError "prepared image dimensions are not patch-aligned"
  else .ok (image.width / config.patchSize * (image.height / config.patchSize))

def visualTokenCount (image : PreparedImage) (config : VisionModelConfig) :
    Except Exception Nat :=
  if config.mergeSize = 0 then runtimeError "vision merge size must be positive"
  else
    let patchesX := image.width / config.patchSize
    let patchesY := image.height / config.patchSize
    if patchesX % config.mergeSize ≠ 0 ∨ patchesY % config.mergeSize ≠ 0 then
      runtimeError "prepared image patch grid is not merge-aligned"
    else .ok (patchesX / config.mergeSize * (patchesY / config.mergeSize))

end PreparedImage

namespace ImagePreprocessor
variable {D : Type} (arith : DoubleArithmetic D)

def checkedInt (value : Nat) (label : String) : Except Exception Int :=
  if value = 0 ∨ 2147483647 < value then runtimeError (label ++ " is outside the supported range")
  else .ok value

/-! ## Target size -/

def roundFactor (align : Int) (value : D) : Int :=
  max align (arith.round (arith.div value (arith.ofInt align)) * align)

def ceilFactor (align : Int) (value : D) : Int :=
  arith.ceil (arith.div value (arith.ofInt align)) * align

def floorFactor (align : Int) (value : D) : Int :=
  max align (arith.floor (arith.div value (arith.ofInt align)) * align)

/-- The branches of `target_size` behind its checks. -/
def scaledSize (align width height minPixels maxPixels : Int) : Int × Int :=
  let targetWidth := roundFactor arith align (arith.ofInt width)
  let targetHeight := roundFactor arith align (arith.ofInt height)
  let area := targetWidth * targetHeight
  let pixels := arith.mul (arith.ofInt width) (arith.ofInt height)
  if maxPixels < area then
    let scale := arith.sqrt (arith.div pixels (arith.ofInt maxPixels))
    (floorFactor arith align (arith.div (arith.ofInt width) scale),
      floorFactor arith align (arith.div (arith.ofInt height) scale))
  else if area < minPixels then
    let scale := arith.sqrt (arith.div (arith.ofInt minPixels) pixels)
    (ceilFactor arith align (arith.mul (arith.ofInt width) scale),
      ceilFactor arith align (arith.mul (arith.ofInt height) scale))
  else (targetWidth, targetHeight)

def targetSize (width height : Int) (config : VisionModelConfig) :
    Except Exception (Int × Int) := do
  let align ← checkedInt (uint32 (config.patchSize * config.mergeSize)) "image alignment"
  if config.imageMinPixels = 0 ∨ config.imageMaxPixels < config.imageMinPixels then
    runtimeError "invalid Gemma 4 vision pixel limits"
  else return scaledSize arith align width height config.imageMinPixels config.imageMaxPixels

/-- A prepared image of the given size, as far as its dimensions are read. -/
def shape (size : Int × Int) : PreparedImage := ⟨size.1.toNat, size.2.toNat, []⟩

def estimateVisualTokenCount (width height : Nat) (config : VisionModelConfig) :
    Except Exception Nat := do
  let size ← targetSize arith (← checkedInt width "image width")
    (← checkedInt height "image height") config
  (shape size).visualTokenCount config

/-! ## Bicubic resampling -/

structure ResampleAxis where
  kernelSize : Int
  bounds : List (Int × Int)
  weights : List (List Int)
  deriving DecidableEq, Repr

/-- The bicubic filter with `a = -1/2`. -/
def filter (x : D) : D :=
  let a := arith.sub (arith.ofInt 0) arith.half
  let x := arith.abs x
  let plus n := arith.add a (arith.ofInt n)
  let minus n y := arith.sub y (arith.ofInt n)
  if arith.lt x (arith.ofInt 1) then
    arith.add (arith.mul (arith.mul (arith.sub (arith.mul (plus 2) x) (plus 3)) x) x)
      (arith.ofInt 1)
  else if arith.lt x (arith.ofInt 2) then
    arith.mul (minus 4 (arith.mul (arith.add (arith.mul (minus 5 x) x) (arith.ofInt 8)) x)) a
  else arith.ofInt 0

/-- A weight in 22-bit fixed point. -/
def fixedPoint (value : D) : Int :=
  let scaled := arith.mul value (arith.ofInt (2 ^ 22))
  arith.toInt (if arith.lt value (arith.ofInt 0) then arith.sub scaled arith.half
    else arith.add scaled arith.half)

/-- The source window of an output index and its normalised weights. -/
def resampleWindow (inputSize : Int) (scale : D) (out : Int) : (Int × Int) × List D :=
  let one := arith.ofInt 1
  let filterScale := if arith.lt one scale then scale else one
  let support := arith.mul (arith.ofInt 2) filterScale
  let center := arith.mul (arith.add (arith.ofInt out) arith.half) scale
  let first := max 0 (arith.toInt (arith.add (arith.sub center support) arith.half))
  let stop := min inputSize (arith.toInt (arith.add (arith.add center support) arith.half))
  let count := stop - first
  let raw := (List.range count.toNat).map fun index =>
    filter arith (arith.div (arith.add (arith.sub (arith.ofInt (index + first)) center) arith.half)
      filterScale)
  let sum := raw.foldl arith.add (arith.ofInt 0)
  let zero := arith.ofInt 0
  let nonzero := arith.lt sum zero || arith.lt zero sum
  ((first, count), if nonzero then raw.map fun weight => arith.div weight sum else raw)

def bicubicAxis (inputSize outputSize : Int) : ResampleAxis :=
  let scale := arith.div (arith.ofInt inputSize) (arith.ofInt outputSize)
  let one := arith.ofInt 1
  let filterScale := if arith.lt one scale then scale else one
  let support := arith.mul (arith.ofInt 2) filterScale
  let windows := (List.range outputSize.toNat).map fun out =>
    resampleWindow arith inputSize scale out
  { kernelSize := arith.ceil support * 2 + 1
    bounds := windows.map Prod.fst
    weights := windows.map fun window => window.2.map (fixedPoint arith) }

def clampU8 (value : Int) : Byte := Fin.ofNat 256 (max 0 (min 255 value)).toNat

/-- The weighted sum of the samples in a window, rounded back from fixed point. -/
def resample (sample : Int → Byte) (axis : ResampleAxis) (out : Nat) : Byte :=
  let first := (axis.bounds.getD out (0, 0)).1
  let weights := axis.weights.getD out []
  let sum : Int := weights.zipIdx.foldl
    (fun (sum : Int) w => sum + ((sample (first + w.2)).val : Int) * w.1) (2 ^ 21)
  clampU8 (sum / 2 ^ 22)

def resizeBicubic (input : Bytes) (inputWidth inputHeight outputWidth outputHeight : Int) :
    Bytes :=
  if inputWidth = outputWidth ∧ inputHeight = outputHeight then
    input.take (inputWidth.toNat * inputHeight.toNat * 3)
  else
    let horizontal := bicubicAxis arith inputWidth outputWidth
    let vertical := bicubicAxis arith inputHeight outputHeight
    let read (image : Bytes) (width : Int) (y x : Int) (channel : Nat) : Byte :=
      image.getD (((y * width + x).toNat) * 3 + channel) 0
    let plane (height width : Int) (sample : Nat → Nat → Nat → Byte) : Bytes :=
      (List.range height.toNat).flatMap fun y => (List.range width.toNat).flatMap fun x =>
        (List.range 3).map fun channel => sample y x channel
    let intermediate := plane inputHeight outputWidth fun y x channel =>
      resample (fun source => read input inputWidth y source channel) horizontal x
    plane outputHeight outputWidth fun y x channel =>
      resample (fun source => read intermediate outputWidth source x channel) vertical y

/-! ## Decoding -/

def decodeError {α : Type} (message : Bytes) (reason : Option Bytes) : Except Exception α :=
  .error (.imageDecodeError (message ++ reason.getD (bytes "unknown stb_image error")))

def preprocessRgb (normalize : NormalizeSample) (rgb : Bytes) (width height : Nat)
    (config : VisionModelConfig) : Except Exception PreparedImage := do
  let inputWidth ← checkedInt width "image width"
  let inputHeight ← checkedInt height "image height"
  let target ← targetSize arith inputWidth inputHeight config
  let resized := resizeBicubic arith rgb inputWidth inputHeight target.1 target.2
  let pixelCount := target.1.toNat * target.2.toNat
  let pixels := (List.range 3).flatMap fun channel => (List.range pixelCount).map fun pixel =>
    normalize (resized.getD (pixel * 3 + channel) 0) (config.imageMean.getD channel 0)
      (config.imageStd.getD channel 0)
  return ⟨target.1.toNat, target.2.toNat, pixels⟩

def inspectEncoded (stb : StbImage) (encoded : Bytes) : Except Exception EncodedImageInfo :=
  if encoded.length = 0 then
    .error (.imageDecodeError (bytes "encoded image data must not be empty"))
  else if 2147483647 < encoded.length then
    .error (.imageDecodeError (bytes "encoded image exceeds the decoder size limit"))
  else
    match stb.info encoded with
    | .error reason => decodeError (bytes "failed to inspect encoded image: ") reason
    | .ok (width, height) =>
      if width ≤ 0 ∨ height ≤ 0 then
        .error (.imageDecodeError (bytes "encoded image has invalid dimensions"))
      else .ok ⟨width.toNat, height.toNat⟩

def load (stb : StbImage) (normalize : NormalizeSample) (path : Bytes)
    (config : VisionModelConfig) : Except Exception PreparedImage :=
  match stb.loadFile (cString path) with
  | .error reason => .error (.runtimeError (bytes "failed to decode image '" ++ path ++
      bytes "': " ++ reason.getD (bytes "unknown stb_image error")))
  | .ok (width, height, rgb) => preprocessRgb arith normalize rgb width.toNat height.toNat config

def loadEncoded (stb : StbImage) (normalize : NormalizeSample) (encoded : Bytes)
    (config : VisionModelConfig) : Except Exception PreparedImage := do
  let info ← inspectEncoded stb encoded
  match stb.load encoded with
  | .error reason => decodeError (bytes "failed to decode encoded image: ") reason
  | .ok (width, height, rgb) =>
    if width ≠ info.width ∨ height ≠ info.height then
      .error (.imageDecodeError (bytes "encoded image dimensions changed during decoding"))
    else preprocessRgb arith normalize rgb width.toNat height.toNat config

end ImagePreprocessor

end Branchscore
