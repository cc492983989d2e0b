import Branchscore.DecisionEngine
import Branchscore.PrefillEngine.Correctness

/-!
# Who raises a budget error

Behind the position checks of the engine no step raises a budget error.
-/

namespace Branchscore

open Foundation Outcome
set_option autoImplicit false

def IsBudgetError (e : Exception) : Prop := ∃ code message, e = .decisionBudgetError code message

/-- The computation ends without a budget error. -/
def Quiet {α : Type} (x : Except Exception α) : Prop :=
  Ends (fun e => ¬IsBudgetError e) (fun _ => True) x

namespace Quiet
variable {α β : Type}

theorem ok (a : α) : Quiet (.ok a) := trivial

theorem runtimeError (message : Bytes) : Quiet (.error (.runtimeError message) : Except Exception α) :=
  nofun

theorem throwIf (c : Prop) [Decidable c] (message : String) : Quiet (throwIf c message) :=
  (throwIf_ends fun _ => nofun).mono fun _ _ => trivial

theorem bind {x : Except Exception α} {f : α → Except Exception β} (hx : Quiet x)
    (hf : ∀ a, Quiet (f a)) : Quiet (x >>= f) := Ends.bind hx fun a _ => hf a

theorem mapM {f : α → Except Exception β} {as : List α} (h : ∀ a ∈ as, Quiet (f a)) :
    Quiet (as.mapM f) := (Ends.mapM h).mono fun _ _ => trivial

theorem foldlM_range {f : β → Nat → Except Exception β} {b : β} {n : Nat}
    (h : ∀ b i, Quiet (f b i)) : Quiet ((List.range n).foldlM f b) :=
  @Ends.foldlM_range _ _ _ (fun _ _ => True) f b n trivial fun i _ b _ => h b i

theorem mapError {x : Except Bytes α} {f : Bytes → Bytes} :
    Quiet (x.mapError fun status => .runtimeError (f status)) := by
  cases x with
  | ok a => trivial
  | error status => exact runtimeError _

theorem ne {x : Except Exception α} (h : Quiet x) (code message : Bytes) :
    x ≠ .error (.decisionBudgetError code message) := by
  intro heq
  exact h.of_eq_error heq ⟨code, message, rfl⟩

end Quiet

theorem BackendContext.allocate_quiet (backend : BackendContext) (allocation : Allocation) :
    Quiet (backend.allocate allocation) := .throwIf _ _

/-! ## The image -/

namespace PreparedImage
variable (image : PreparedImage) (config : VisionModelConfig)

theorem patchCount_quiet : Quiet (image.patchCount config) := by
  unfold patchCount
  split
  · exact .runtimeError _
  · exact .ok _

theorem visualTokenCount_quiet : Quiet (image.visualTokenCount config) := by
  unfold visualTokenCount
  dsimp only
  split
  · exact .runtimeError _
  · split
    · exact .runtimeError _
    · exact .ok _

end PreparedImage

namespace ImagePreprocessor
variable {A : Type} (arith : DoubleArithmetic A) (stb : StbImage) (normalize : NormalizeSample)

theorem checkedInt_quiet (value : Nat) (label : String) : Quiet (checkedInt value label) := by
  unfold checkedInt
  split
  · exact .runtimeError _
  · exact .ok _

theorem targetSize_quiet (width height : Int) (config : VisionModelConfig) :
    Quiet (targetSize arith width height config) := by
  unfold targetSize
  refine (checkedInt_quiet _ _).bind fun align => ?_
  split
  · exact .runtimeError _
  · exact .ok _

theorem preprocessRgb_quiet (rgb : Bytes) (width height : Nat) (config : VisionModelConfig) :
    Quiet (preprocessRgb arith normalize rgb width height config) := by
  unfold preprocessRgb
  refine (checkedInt_quiet _ _).bind fun inputWidth => ?_
  refine (checkedInt_quiet _ _).bind fun inputHeight => ?_
  refine (targetSize_quiet _ _ _ _).bind fun target => ?_
  exact .ok _

theorem inspectEncoded_quiet (encoded : Bytes) : Quiet (inspectEncoded stb encoded) := by
  unfold inspectEncoded
  split
  · exact nofun
  split
  · exact nofun
  split
  · exact nofun
  · split
    · exact nofun
    · exact .ok _

theorem load_quiet (path : Bytes) (config : VisionModelConfig) :
    Quiet (load arith stb normalize path config) := by
  unfold load
  split
  · exact .runtimeError _
  · exact preprocessRgb_quiet _ _ _ _ _ _

theorem loadEncoded_quiet (encoded : Bytes) (config : VisionModelConfig) :
    Quiet (loadEncoded arith stb normalize encoded config) := by
  unfold loadEncoded
  refine (inspectEncoded_quiet _ _).bind fun info => ?_
  split
  · exact nofun
  · split
    · exact nofun
    · exact preprocessRgb_quiet _ _ _ _ _ _

end ImagePreprocessor

/-! ## The vision graph -/

namespace VisionEncoder
variable {Tensor Row : Type} (ops : VisionOps Tensor Row) (model : ModelBundle)
  (config : VisionModelConfig)

theorem requireTensor_quiet (name : Bytes) : Quiet (requireTensor model name) := by
  unfold requireTensor
  split
  · exact .ok _
  · exact .runtimeError _

theorem visionScalar_quiet (name : Bytes) (fallback : Float32Bits) :
    Quiet (model.visionScalar name fallback) := by
  unfold ModelBundle.visionScalar
  split
  · exact .ok _
  · split
    · exact .runtimeError _
    · exact .ok _

theorem clippedMm_quiet (weight : GgufTensor) (input : Tensor) :
    Quiet (clippedMm ops model weight input) := by
  unfold clippedMm
  refine (visionScalar_quiet _ _ _).bind fun _ => ?_
  refine (visionScalar_quiet _ _ _).bind fun _ => ?_
  refine (visionScalar_quiet _ _ _).bind fun _ => ?_
  refine (visionScalar_quiet _ _ _).bind fun _ => ?_
  exact .ok _

variable (flash : Bool) (layer positionCount : Nat) (posX posY input : Tensor)

theorem attention_quiet :
    Quiet (attention ops model config flash layer positionCount posX posY input) := by
  unfold attention
  split
  · exact nofun
  refine (requireTensor_quiet _ _).bind fun _ => (clippedMm_quiet _ _ _ _).bind fun _ => ?_
  refine (requireTensor_quiet _ _).bind fun _ => (clippedMm_quiet _ _ _ _).bind fun _ => ?_
  refine (requireTensor_quiet _ _).bind fun _ => (clippedMm_quiet _ _ _ _).bind fun _ => ?_
  refine (requireTensor_quiet _ _).bind fun _ => (requireTensor_quiet _ _).bind fun _ => ?_
  exact (requireTensor_quiet _ _).bind fun _ => clippedMm_quiet _ _ _ _

theorem transformerLayer_quiet :
    Quiet (transformerLayer ops model config flash layer positionCount posX posY input) := by
  unfold transformerLayer
  refine (requireTensor_quiet _ _).bind fun _ => (attention_quiet _ _ _ _ _ _ _ _ _).bind fun _ => ?_
  refine (requireTensor_quiet _ _).bind fun _ => (requireTensor_quiet _ _).bind fun _ => ?_
  refine (requireTensor_quiet _ _).bind fun _ => (clippedMm_quiet _ _ _ _).bind fun _ => ?_
  refine (requireTensor_quiet _ _).bind fun _ => (clippedMm_quiet _ _ _ _).bind fun _ => ?_
  refine (requireTensor_quiet _ _).bind fun _ => (clippedMm_quiet _ _ _ _).bind fun _ => ?_
  exact (requireTensor_quiet _ _).bind fun _ => .ok _

variable (backend : BackendContext) (image : PreparedImage)

theorem buildVisionGraph_quiet : Quiet (buildVisionGraph ops model flash backend image) := by
  unfold buildVisionGraph
  refine (image.patchCount_quiet _).bind fun _ => (image.visualTokenCount_quiet _).bind fun _ => ?_
  refine (backend.allocate_quiet _).bind fun _ => ?_
  refine (requireTensor_quiet _ _).bind fun _ => (requireTensor_quiet _ _).bind fun _ => ?_
  refine (Quiet.foldlM_range fun _ _ => transformerLayer_quiet _ _ _ _ _ _ _ _ _).bind fun _ => ?_
  exact (requireTensor_quiet _ _).bind fun _ => clippedMm_quiet _ _ _ _

theorem encode_quiet : Quiet (encode ops model backend image) := by
  unfold encode
  refine Quiet.bind (.throwIf _ _) fun _ => (image.visualTokenCount_quiet _).bind fun _ => ?_
  refine (buildVisionGraph_quiet _ _ _ _ _).bind fun graph => ?_
  have hfallback (flash : Bool) : Quiet (fallbackGraph ops model backend image flash graph) := by
    unfold fallbackGraph
    split
    · exact .ok _
    · exact buildVisionGraph_quiet _ _ _ _ _
  have hrun (flash : Bool) : Quiet (runGraph backend flash) := by
    unfold runGraph
    refine (backend.allocate_quiet _).bind fun _ => ?_
    split
    · exact .runtimeError _
    · exact .mapError
  refine (hfallback _).bind fun _ => (hrun _).bind fun _ => ?_
  refine Quiet.bind (.throwIf _ _) fun _ => (backend.allocate_quiet _).bind fun _ => ?_
  exact (backend.allocate_quiet _).bind fun _ => .ok _

end VisionEncoder

/-! ## The tokens -/

namespace GemmaTokenizer
variable (t : GemmaTokenizer)

theorem tokenizeSegment_quiet (segment : Bytes) : Quiet (t.tokenizeSegment segment) := by
  unfold tokenizeSegment
  split
  · exact .ok _
  · split
    · exact .ok _
    · refine Quiet.bind (.mapM fun text _ => ?_) fun _ => .ok _
      unfold emitSymbol
      split
      · exact .ok _
      · refine .mapM fun b _ => ?_
        split
        · exact .ok _
        · exact .runtimeError _

theorem tokenizeRaw_quiet (raw : Bytes) : Quiet (t.tokenizeRaw raw) := by
  unfold tokenizeRaw
  exact Quiet.bind (.mapM fun segment _ => t.tokenizeSegment_quiet segment) fun _ => .ok _

theorem scanTokens_quiet (parseSpecial : Bool) (fuel : Nat) (rest : Bytes) :
    Quiet (t.scanTokens parseSpecial fuel rest) := by
  induction fuel generalizing rest with
  | zero => exact nofun
  | succ fuel ih =>
    unfold scanTokens
    split
    · exact .ok _
    · split
      · exact t.tokenizeRaw_quiet _
      · split
        · exact (t.tokenizeRaw_quiet _).bind fun _ => (ih _).bind fun _ => .ok _
        · exact (ih _).bind fun _ => .ok _

theorem tokenize_quiet (text : Bytes) (addBos parseSpecial : Bool) :
    Quiet (t.tokenize text addBos parseSpecial) := by
  unfold tokenize
  exact (t.scanTokens_quiet _ _ _).bind fun _ => .ok _

theorem piece_quiet (id : TokenId) : Quiet (t.piece id) := by
  unfold piece
  split
  · exact .ok _
  · exact nofun

theorem validateLabel_quiet (boundaryPrompt label : Bytes) :
    Quiet (t.validateLabel boundaryPrompt label) := by
  unfold validateLabel
  refine (t.tokenize_quiet _ _ _).bind fun _ => (t.tokenize_quiet _ _ _).bind fun _ => ?_
  split
  · refine (t.piece_quiet _).bind fun _ => ?_
    split
    · exact .runtimeError _
    · refine (t.tokenize_quiet _ _ _).bind fun _ => ?_
      split
      · exact .runtimeError _
      · exact .ok _
  · exact .runtimeError _

theorem tokenizeAnswerLabel_quiet (renderedPrompt label : Bytes) :
    Quiet (t.tokenizeAnswerLabel renderedPrompt label) := by
  unfold tokenizeAnswerLabel
  split
  · exact .runtimeError _
  · split
    · exact t.validateLabel_quiet _ _
    · exact t.validateLabel_quiet _ _

end GemmaTokenizer

/-! ## Prefill and readout -/

theorem PrefillEngine.prefill_quiet {Row : Type} (ops : TensorOps Row) (model : ModelBundle)
    (backend : BackendContext) (tokensBeforeImage : List TokenId)
    (visualTokens : Option (VisualTokens Row)) (tokensAfterImage : List TokenId) :
    Quiet (prefill ops model backend tokensBeforeImage visualTokens tokensAfterImage) := by
  cases hrun : prefill ops model backend tokensBeforeImage visualTokens tokensAfterImage with
  | ok state => exact .ok _
  | error e =>
    have hrefuses := (prefill_ends ops model tokensBeforeImage visualTokens
      tokensAfterImage).of_eq_error hrun
    intro ⟨code, message, he⟩
    cases hrefuses with
    | source _ hsource => rcases TextModelConfig.sourceLayer_error hsource with rfl | rfl <;> cases he
    | _ => cases he

section Readout
variable {R : Type} [Field R] [LinearOrder R]

omit [Field R] [LinearOrder R] in
theorem gatherCategoricalLogits_quiet (logits : Option (List (Ieee R)))
    (answerTokenIds : List TokenId) (device : ReadoutDevice) :
    Quiet (gatherCategoricalLogits logits answerTokenIds device) := by
  unfold gatherCategoricalLogits
  refine Quiet.bind (.throwIf _ _) fun _ => ?_
  split
  · exact .runtimeError _
  · refine Quiet.bind (.throwIf _ _) fun _ => Quiet.bind (.throwIf _ _) fun _ => ?_
    refine Quiet.bind (.throwIf _ _) fun _ => ?_
    split
    · exact .runtimeError _
    · exact Quiet.bind (.throwIf _ _) fun _ => .ok _

omit [Field R] [LinearOrder R] in
theorem finiteLogit_quiet (value : Ieee R) : Quiet (finiteLogit value) := by
  unfold finiteLogit
  split
  · exact .ok _
  · exact .runtimeError _

theorem summarizeCategorical_quiet (exp : R → R) (rawScores : List (Ieee R)) :
    Quiet (summarizeCategorical exp rawScores) := by
  unfold summarizeCategorical
  split
  · exact .runtimeError _
  · refine (finiteLogit_quiet _).bind fun _ => ?_
    refine Quiet.bind (.mapM fun value _ => finiteLogit_quiet value) fun _ => ?_
    exact Quiet.bind (.throwIf _ _) fun _ => .ok _

end Readout

theorem StateCache.key_quiet {Row : Type} (cache : StateCache Row) (layer : Nat) :
    Quiet (cache.key layer) := by
  have hslot : Quiet (cache.slot layer) := by
    unfold slot
    have hsource : Quiet (cache.config.sourceLayer layer) := by
      cases h : cache.config.sourceLayer layer with
      | ok source => exact .ok _
      | error e => rcases TextModelConfig.sourceLayer_error h with rfl | rfl <;> exact nofun
    refine hsource.bind fun source => ?_
    split
    · exact .ok _
    · exact nofun
  exact hslot.bind fun _ => .ok _

end Branchscore
