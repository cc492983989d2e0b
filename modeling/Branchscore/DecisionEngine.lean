import Branchscore.CategoricalReadout
import Branchscore.DecisionEngine.Validation
import Branchscore.PrefillEngine.Prefill
import Branchscore.PromptRenderer
import Branchscore.Tokenizer.AnswerLabel

/-!
# The decision engine

The preflight estimate of a request and its evaluation. Tensors, the image decoder, the
arithmetic of doubles and what the clock and the graphs report are parameters.
-/

namespace Branchscore

open Foundation Outcome
set_option autoImplicit false

/-- The readout is over `R`, image sizes are computed over `A`. `logits` are the values of a
frozen logits row, `measured` is what the clock and the graphs report. -/
structure EngineLibrary (R A Tensor Row : Type) where
  numbers : Json.NumberLibrary (Ieee R)
  stb : StbImage
  arith : DoubleArithmetic A
  normalize : NormalizeSample
  vision : VisionOps Tensor Row
  text : TensorOps Row
  logits : Row → List (Ieee R)
  exp : R → R
  readout : ReadoutDevice
  measured : TimingInfo (Ieee R)

structure Gemma4DecisionEngine (R A Tensor Row : Type) where
  model : ModelBundle
  backend : BackendContext
  tokenizer : GemmaTokenizer
  library : EngineLibrary R A Tensor Row

namespace Gemma4DecisionEngine

def imageBeginText : Bytes := bytes "<|image>"

def imageText : Bytes := bytes "<|image|>"

def imageEndText : Bytes := bytes "<image|>"

def checkPositionBudget (positions contextLength : Nat) : Except Exception Unit :=
  if contextLength < positions then
    .error (.decisionBudgetError (bytes "context_limit_exceeded")
      (bytes "Prefill exceeds model context"))
  else if maxPrefillPositions < positions then
    .error (.decisionBudgetError (bytes "token_budget_exceeded")
      (bytes "Prefill exceeds the 16384-position budget"))
  else .ok ()

variable {R A Tensor Row : Type}

section Estimate
variable (engine : Gemma4DecisionEngine R A Tensor Row) (request : DecisionRequest)

def render : Except Exception RenderedPrompt :=
  Gemma4PromptRenderer.render engine.library.numbers request.state request.question
    request.options request.hasImage request.promptPolicy request.chatTemplateFile
    engine.tokenizer.chatTemplate.isSome

/-- Only the header of an encoded image is read. -/
def estimateVisualTokens : Except Exception Nat := do
  let config := engine.model.visionConfig
  match request.imageBytes, request.imagePath with
  | some encoded, _ => do
    let info ← ImagePreprocessor.inspectEncoded engine.library.stb encoded
    ImagePreprocessor.estimateVisualTokenCount engine.library.arith info.width info.height config
  | none, some path => do
    let image ← ImagePreprocessor.load engine.library.arith engine.library.stb
      engine.library.normalize path config
    image.visualTokenCount config
  | none, none => .error .undefinedBehavior

def estimatePrefillPositions : Except Exception Nat := do
  validateRequest request
  let rendered ← engine.render request
  let ids ← engine.tokenizer.tokenize rendered.text false true
  let positions ←
    if request.hasImage then do
      let visual ← engine.estimateVisualTokens request
      pure (ids.length - 1 + visual)
    else pure ids.length
  checkPositionBudget positions engine.model.textConfig.contextLength
  return positions

end Estimate

/-! ## The checks before the image is decoded -/

section Tokens
variable (tokenizer : GemmaTokenizer)

/-- The neighbours of the image placeholder. -/
def boundariesStand (allIds : List TokenId) (imageIndex : Nat) : Bool :=
  match tokenizer.findToken imageBeginText, tokenizer.findToken imageEndText with
  | some imageBegin, some imageEnd =>
    imageIndex ≠ 0 && imageIndex + 1 < allIds.length &&
      allIds[imageIndex - 1]? = some imageBegin && allIds[imageIndex + 1]? = some imageEnd
  | _, _ => false

/-- The tokens before and after the image placeholder. -/
def splitAtImage (hasImage : Bool) (allIds : List TokenId) :
    Except Exception (List TokenId × List TokenId) := do
  let imageId := tokenizer.findToken imageText
  let imageCount := (imageId.map fun id => allIds.count id).getD 0
  throwIf (hasImage = true ∧ imageCount ≠ 1)
    "Gemma 4 image request must render exactly one <|image|> token"
  throwIf (hasImage = false ∧ imageCount ≠ 0)
    "text-only request unexpectedly contains an <|image|> token"
  let imageIndex := (imageId.map fun id => allIds.idxOf id).getD allIds.length
  throwIf (hasImage = true ∧ boundariesStand tokenizer allIds imageIndex = false)
    "Gemma 4 image boundary tokens are missing"
  return (allIds.take imageIndex, allIds.drop (imageIndex + 1))

/-- The loop over the answer slots, with the token ids seen so far. -/
def answerTokens (text : Bytes) : List TokenId → List RenderedAnswerSlot →
    Except Exception (List AnswerToken)
  | _, [] => .ok []
  | answerTokenIds, slot :: slots => do
    let answer ← tokenizer.tokenizeAnswerLabel text slot.label
    throwIf (answer.boundaryValid = false ∨ answer.id ∈ answerTokenIds)
      "categorical answer labels must map to distinct valid tokens"
    let answers ← answerTokens text (answer.id :: answerTokenIds) slots
    return answer :: answers

end Tokens

structure Prepared where
  rendered : RenderedPrompt
  allIds : List TokenId
  tokensBefore : List TokenId
  tokensAfter : List TokenId
  answers : List AnswerToken
  deriving DecidableEq

section Evaluate
variable (engine : Gemma4DecisionEngine R A Tensor Row) (request : DecisionRequest)

def prepare : Except Exception Prepared := do
  validateRequest request
  let rendered ← engine.render request
  let allIds ← engine.tokenizer.tokenize rendered.text false true
  checkPositionBudget allIds.length engine.model.textConfig.contextLength
  let (tokensBefore, tokensAfter) ← splitAtImage engine.tokenizer request.hasImage allIds
  let answers ← answerTokens engine.tokenizer rendered.text [] rendered.answerSlots
  return { rendered, allIds, tokensBefore, tokensAfter, answers }

/-! ## Evaluation -/

def loadImage : Except Exception PreparedImage :=
  let config := engine.model.visionConfig
  match request.imagePath, request.imageBytes with
  | some path, _ => ImagePreprocessor.load engine.library.arith engine.library.stb
      engine.library.normalize path config
  | none, some encoded => ImagePreprocessor.loadEncoded engine.library.arith engine.library.stb
      engine.library.normalize encoded config
  | none, none => .error .undefinedBehavior

def encodeImage (prepared : Prepared) : Except Exception (Option (VisualTokens Row)) := do
  if request.hasImage = false then return none
  else do
    let image ← engine.loadImage request
    let visual ← image.visualTokenCount engine.model.visionConfig
    checkPositionBudget (prepared.tokensBefore.length + prepared.tokensAfter.length + visual)
      engine.model.textConfig.contextLength
    return some (← VisionEncoder.encode engine.library.vision engine.model engine.backend image)

variable [Field R]

/-- The vision fields keep their defaults without an image. -/
def timings (state : PrefillState Row) : TimingInfo (Ieee R) :=
  let measured := engine.library.measured
  let cuda := engine.backend.cuda
  let measured := if request.hasImage then measured else { measured with
    imagePreprocessingMs := .finite 0
    visionMs := .finite 0
    visionBackendCopyMs := .finite 0
    visionSynchronizationMs := .finite 0
    visionGraphNodeCount := 0
    visionAttentionPath := bytes "not_used" }
  { measured with
    prefillAttentionPath := if cuda then bytes "flash" else bytes "standard"
    prefillKvType := if cuda then bytes "f16" else bytes "f32"
    prefillPositions := state.prefixLength
    prefillGraphCount := state.graphCount
    prefillMicrobatchSize := state.tokenMicrobatchSize }

def optionScore (prepared : Prepared) (rawScores : List (Ieee R)) (probabilities : List R)
    (slot : RenderedAnswerSlot × Nat) : OptionScore (Ieee R) where
  inputIndex := slot.1.inputIndex
  optionId := slot.1.optionId
  answerLabel := slot.1.label
  answerTokenId := (prepared.answers[slot.2]?.map AnswerToken.id).getD 0
  rawScore := rawScores.getD slot.2 .nan
  relativeProbability := (probabilities[slot.2]?.map Ieee.finite).getD .nan

variable [LinearOrder R]

def decisionResult (prepared : Prepared) (rawScores : List (Ieee R))
    (summary : CategoricalSummary R) (state : PrefillState Row) :
    Except Exception (DecisionResult (Ieee R)) := do
  let optionScores := prepared.rendered.answerSlots.zipIdx.map
    (optionScore prepared rawScores summary.relativeProbabilities)
  match optionScores[summary.selectedIndex]? with
  | none => .error .undefinedBehavior
  | some selected => do
    let _ ← state.cache.key 0
    return {
      optionScores
      selectedIndex := selected.inputIndex
      selectedId := selected.optionId
      exactTie := summary.exactTie
      scoringBasis := bytes "answer_slot_logit"
      readoutId := bytes "gemma4-next-token-categorical-v1"
      promptFormat := prepared.rendered.format
      renderedPromptIdentity := prepared.rendered.identity
      renderedPromptTokenIds := prepared.allIds
      timings := engine.timings request state }

def evaluate : Except Exception (DecisionResult (Ieee R)) := do
  let prepared ← engine.prepare request
  let visualTokens ← engine.encodeImage request prepared
  let state ← PrefillEngine.prefill engine.library.text engine.model engine.backend
    prepared.tokensBefore visualTokens prepared.tokensAfter
  let rawScores ← gatherCategoricalLogits (state.logits.map engine.library.logits)
    (prepared.answers.map AnswerToken.id) engine.library.readout
  let summary ← summarizeCategorical engine.library.exp rawScores
  engine.decisionResult request prepared rawScores summary state

end Evaluate

end Gemma4DecisionEngine

end Branchscore
