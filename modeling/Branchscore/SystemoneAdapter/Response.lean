import Branchscore.SystemoneAdapter.Request

/-! The response to a request, with the diagnostics of each question. -/

namespace Branchscore.Systemone

open Foundation Outcome
set_option autoImplicit false

variable {D : Type} (lib : Json.NumberLibrary D) (ofSize : Nat → D)

def number (value : D) : Except Exception (Json.Value D) :=
  if lib.isfinite value then .ok (.number value)
  else runtimeError "cannot encode a non-finite decision result"

/-- `ofSize` is `static_cast<double>`. -/
def sizeNumber (value : Nat) : Except Exception (Json.Value D) := number lib (ofSize value)

/-- An object filled with `emplace`, one member after the other. -/
def emplaced (members : List (String × Json.Value D)) : Json.Value D :=
  .object (SortedMap.build (members.map fun member => (bytes member.1, member.2)))

def timingMembers (timing : TimingInfo D) : List (String × Except Exception (Json.Value D)) :=
  [("prompt_rendering_ms", number lib timing.promptRenderingMs),
    ("tokenization_ms", number lib timing.tokenizationMs),
    ("image_preprocessing_ms", number lib timing.imagePreprocessingMs),
    ("vision_ms", number lib timing.visionMs),
    ("vision_backend_copy_ms", number lib timing.visionBackendCopyMs),
    ("vision_synchronization_ms", number lib timing.visionSynchronizationMs),
    ("vision_graph_node_count", sizeNumber lib ofSize timing.visionGraphNodeCount),
    ("vision_attention_path", .ok (.string timing.visionAttentionPath)),
    ("prefill_ms", number lib timing.prefillMs),
    ("prefill_backend_copy_ms", number lib timing.prefillBackendCopyMs),
    ("prefill_synchronization_ms", number lib timing.prefillSynchronizationMs),
    ("prefill_graph_node_count", sizeNumber lib ofSize timing.prefillGraphNodeCount),
    ("prefill_attention_path", .ok (.string timing.prefillAttentionPath)),
    ("prefill_kv_type", .ok (.string timing.prefillKvType)),
    ("prefill_positions", sizeNumber lib ofSize timing.prefillPositions),
    ("prefill_graph_count", sizeNumber lib ofSize timing.prefillGraphCount),
    ("prefill_microbatch_size", sizeNumber lib ofSize timing.prefillMicrobatchSize),
    ("prefill_cache_bytes", sizeNumber lib ofSize timing.prefillCacheBytes),
    ("prefill_peak_graph_bytes", sizeNumber lib ofSize timing.prefillPeakGraphBytes),
    ("readout_ms", number lib timing.readoutMs),
    ("readout_backend_copy_ms", number lib timing.readoutBackendCopyMs),
    ("readout_synchronization_ms", number lib timing.readoutSynchronizationMs),
    ("readout_graph_node_count", sizeNumber lib ofSize timing.readoutGraphNodeCount),
    ("normalization_ms", number lib timing.normalizationMs),
    ("request_total_ms", number lib timing.requestTotalMs)]

def timingJson (timing : TimingInfo D) : Except Exception (Json.Value D) := do
  let members ← (timingMembers lib ofSize timing).mapM fun member => do
    return (member.1, ← member.2)
  return emplaced members

def validateResult (question : ChoiceQuestion) (result : DecisionResult D) :
    Except Exception Unit := do
  throwIf (result.optionScores.length ≠ question.decision.options.length)
    "decision result option count does not match request"
  let expected := (question.decision.options.map DecisionOption.id).toFinset
  let actual := (result.optionScores.map OptionScore.optionId).toFinset
  throwIf (actual ≠ expected ∨ actual.card ≠ result.optionScores.length)
    "decision result option IDs do not match request"
  throwIf (result.selectedId ∉ expected) "selected option ID is not present in request"

/-- The object from option ids to numbers. -/
def scoreObject (value : OptionScore D → D) (scores : List (OptionScore D)) :
    Except Exception (Json.Value D) := do
  let members ← scores.mapM fun score => do return (score.optionId, ← number lib (value score))
  return .object (SortedMap.build members)

def choiceAnswer (result : DecisionResult D) (probabilities confidence : Json.Value D) :
    Json.Value D :=
  emplaced [("type", .string (bytes "choice")), ("choice", .string result.selectedId),
    ("probabilities", probabilities), ("confidence", confidence)]

def questionDiagnostic (result : DecisionResult D) (timings : Json.Value D)
    (rawLogits : Option (Json.Value D)) : Json.Value D :=
  emplaced ([("scoring_basis", .string result.scoringBasis),
    ("readout_id", .string result.readoutId),
    ("prompt_identity", .string result.renderedPromptIdentity),
    ("renderer_id", .string result.promptFormat.rendererId),
    ("option_order", .array (result.optionScores.map fun score => .string score.optionId)),
    ("timings_ms", timings)] ++ (rawLogits.map fun value => ("raw_logits", value)).toList)

/-- What the loop over the questions has gathered. -/
structure ResponseParts (D : Type) where
  inputTokens : Nat := 0
  answers : List (Bytes × Json.Value D) := []
  diagnosticQuestions : List (Bytes × Json.Value D) := []

def addQuestion (includeRawLogits : Bool) (parts : ResponseParts D)
    (answered : ChoiceQuestion × DecisionResult D) : Except Exception (ResponseParts D) := do
  let (question, result) := answered
  validateResult question result
  let tokenCount := result.renderedPromptTokenIds.length
  throwIf (2 ^ 64 - 1 - parts.inputTokens < tokenCount) "input token count overflow"
  let probabilities ← scoreObject lib OptionScore.relativeProbability result.optionScores
  let rawLogits ← scoreObject lib OptionScore.rawScore result.optionScores
  let confidence ← sizeNumber lib ofSize 1
  let timings ← timingJson lib ofSize result.timings
  return {
    inputTokens := parts.inputTokens + tokenCount
    answers := parts.answers ++ [(question.id, choiceAnswer result probabilities confidence)]
    diagnosticQuestions := parts.diagnosticQuestions ++ [(question.id,
      questionDiagnostic result timings (if includeRawLogits then some rawLogits else none))] }

def makeResponse (request : Request) (results : List (DecisionResult D))
    (includeRawLogits : Bool) : Except Exception (Json.Value D) := do
  throwIf (results.length ≠ request.questions.length)
    "decision result count does not match request"
  let parts ← (request.questions.zip results).foldlM (addQuestion lib ofSize includeRawLogits) {}
  let inputTokens ← sizeNumber lib ofSize parts.inputTokens
  let outputTokens ← sizeNumber lib ofSize 0
  let schemaVersion ← sizeNumber lib ofSize 2
  let usage := emplaced [("input_tokens", inputTokens), ("output_tokens", outputTokens)]
  let metadata := emplaced [("schema_version", schemaVersion),
    ("confidence_kind", .string (bytes "constant_placeholder")),
    ("questions", .object (SortedMap.build parts.diagnosticQuestions))]
  return emplaced ([("model", .string request.modelId),
    ("answers", .object (SortedMap.build parts.answers)), ("usage", usage),
    ("branchscore", metadata)] ++
      (request.requestId.map fun requestId => ("request_id", .string requestId)).toList)

end Branchscore.Systemone
