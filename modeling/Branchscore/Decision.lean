import Branchscore.Exception

/-! Decision requests and results, and the limits the program puts on them. -/

namespace Branchscore

open Foundation
set_option autoImplicit false

structure DecisionOption where
  id : Bytes
  description : Bytes
  deriving DecidableEq, Repr

inductive ReasoningPolicy where
  | directAnswerDisabled
  deriving DecidableEq, Repr

structure PromptPolicy where
  reasoning : ReasoningPolicy := .directAnswerDisabled
  deriving DecidableEq, Repr

structure DecisionRequest where
  state : Bytes
  question : Bytes
  options : List DecisionOption
  imagePath : Option Bytes := none
  imageBytes : Option Bytes := none
  promptPolicy : PromptPolicy := {}
  chatTemplateFile : Option Bytes := none
  captureVisionDebug : Bool := false
  deriving DecidableEq, Repr

def DecisionRequest.hasImage (request : DecisionRequest) : Bool :=
  request.imagePath.isSome || request.imageBytes.isSome

structure PromptFormatInfo where
  rendererId : Bytes
  modelFamily : Bytes
  effectiveSource : Bytes
  promptPolicy : PromptPolicy
  requestedTemplateFile : Option Bytes
  requestedTemplateApplied : Bool
  ggufChatTemplatePresent : Bool
  ggufChatTemplateUsed : Bool
  deriving DecidableEq, Repr

structure TimingInfo (D : Type) where
  promptRenderingMs : D
  tokenizationMs : D
  imagePreprocessingMs : D
  visionMs : D
  visionBackendCopyMs : D
  visionSynchronizationMs : D
  visionGraphNodeCount : Nat := 0
  visionAttentionPath : Bytes := bytes "not_used"
  prefillMs : D
  prefillBackendCopyMs : D
  prefillSynchronizationMs : D
  prefillGraphNodeCount : Nat := 0
  prefillAttentionPath : Bytes := bytes "not_used"
  prefillKvType : Bytes := bytes "not_used"
  prefillPositions : Nat := 0
  prefillGraphCount : Nat := 0
  prefillMicrobatchSize : Nat := 0
  prefillCacheBytes : Nat := 0
  prefillPeakGraphBytes : Nat := 0
  readoutMs : D
  readoutBackendCopyMs : D
  readoutSynchronizationMs : D
  readoutGraphNodeCount : Nat := 0
  normalizationMs : D
  requestTotalMs : D
  deriving DecidableEq, Repr

structure OptionScore (D : Type) where
  inputIndex : Nat
  optionId : Bytes
  answerLabel : Bytes
  answerTokenId : Nat
  rawScore : D
  relativeProbability : D
  deriving DecidableEq, Repr

structure DecisionResult (D : Type) where
  optionScores : List (OptionScore D)
  selectedIndex : Nat
  selectedId : Bytes
  exactTie : Bool
  scoringBasis : Bytes
  readoutId : Bytes
  promptFormat : PromptFormatInfo
  renderedPromptIdentity : Bytes
  renderedPromptTokenIds : List Nat
  timings : TimingInfo D
  deriving DecidableEq, Repr

def minDecisionOptions : Nat := 2

def legacyDecisionOptions : Nat := 16

def maxDecisionOptions : Nat := 512

/-- Positions of one Prefill, with the image placeholder replaced by visual tokens. -/
def maxPrefillPositions : Nat := 16384

def maxRequestPrefillPositions : Nat := 32768

end Branchscore
