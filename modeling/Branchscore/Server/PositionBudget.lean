import Branchscore.DecisionEngine.Positions
import Branchscore.ModelLoader.PixelLimits
import Branchscore.Server.Decisions
import Branchscore.Server.Message

/-!
# The positions of a request

The estimates of a request and its evaluations agree, unless an image of no visual tokens
leaves the placeholder itself without a position.
-/

namespace Branchscore

open Foundation Outcome
set_option autoImplicit false

namespace Gemma4DecisionEngine
variable {R A Tensor Row : Type} {engine : Gemma4DecisionEngine R A Tensor Row}
  {request : DecisionRequest}

/-- An evaluation behind its estimate fails with a budget error where the placeholder has no
position. -/
theorem evaluate_budgetError [Field R] [LinearOrder R] {positions : Nat}
    (h : engine.estimatePrefillPositions request = .ok positions)
    (hfits : ¬engine.PlaceholderFits request) :
    ∃ e, engine.evaluate request = .error e ∧ IsBudgetError e := by
  obtain ⟨rendered, ids, htokens, _⟩ := estimatePrefillPositions_eq_ok.mp h
  have hover : ¬(ids.length ≤ engine.model.textConfig.contextLength ∧
      ids.length ≤ maxPrefillPositions) := by
    intro hids
    apply hfits
    intro _ _ rendered' ids' htokens'
    rw [(htokens.unique htokens').2]
    exact hids
  have hcheck : ∃ e, checkPositionBudget ids.length engine.model.textConfig.contextLength =
      .error e ∧ IsBudgetError e := by
    unfold checkPositionBudget
    by_cases hcontext : engine.model.textConfig.contextLength < ids.length
    · rw [if_pos hcontext]
      exact ⟨_, rfl, _, _, rfl⟩
    · rw [if_neg hcontext, if_pos (by omega)]
      exact ⟨_, rfl, _, _, rfl⟩
  obtain ⟨e, hcheck, hbudget⟩ := hcheck
  refine ⟨e, ?_, hbudget⟩
  rw [evaluate, prepare, htokens.valid, ok_bind, htokens.renders, ok_bind, htokens.tokens, ok_bind,
    hcheck]
  rfl

variable [Field R] [LinearOrder R]

/-- The engine as the server calls it. -/
def served (engine : Gemma4DecisionEngine R A Tensor Row) : Server.Engine (Ieee R) where
  estimatePrefillPositions := engine.estimatePrefillPositions
  evaluate request := engine.evaluate request

end Gemma4DecisionEngine

namespace Server
section Estimates
variable {D : Type} {service : Service D} {request : Systemone.Request}

theorem Estimates.of_mem {questions : List Systemone.ChoiceQuestion} {positions : List Nat}
    (h : Estimates service questions positions) {question : Systemone.ChoiceQuestion}
    (hmem : question ∈ questions) :
    ∃ count, service.engine.estimatePrefillPositions question.decision = .ok count := by
  induction h with
  | nil => cases hmem
  | @cons _ count _ _ hcount _ ih =>
    rcases List.mem_cons.mp hmem with rfl | hmem
    · exact ⟨count, hcount⟩
    · exact ih hmem

/-- Results that have taken the positions of their estimates take no more than all estimates. -/
theorem Estimates.sum_le {front rest : List Systemone.ChoiceQuestion} {positions : List Nat}
    (h : Estimates service (front ++ rest) positions) {results : List (DecisionResult D)}
    (hresults : Evaluates service front results)
    (hagree : ∀ question ∈ front, ∀ count result,
      service.engine.estimatePrefillPositions question.decision = .ok count →
      service.engine.evaluate question.decision = .ok result →
      result.timings.prefillPositions = count) :
    (results.map fun result => result.timings.prefillPositions).sum ≤ positions.sum := by
  induction hresults generalizing positions with
  | nil => exact Nat.zero_le _
  | @cons question result front results hresult _ ih =>
    cases h with
    | @cons _ count _ positions hcount h =>
      obtain ⟨hfirst, hagree⟩ := List.forall_mem_cons.mp hagree
      rw [List.map_cons, List.sum_cons, List.sum_cons, hfirst count result hcount hresult]
      exact Nat.add_le_add_left (ih h hagree) count

theorem running_agrees (service : Service D) {front : List Systemone.ChoiceQuestion}
    {passed : Nat} (h : (preflight service 0 front).result = .ok passed) :
    uint64Sub maxRequestPrefillPositions passed = maxRequestPrefillPositions - passed ∧
      passed ≤ maxRequestPrefillPositions ∧
      ∃ positions, Estimates service front positions ∧ passed = positions.sum := by
  obtain ⟨⟨positions, hpositions, hsum⟩, hmax, _⟩ := preflight_ok (Nat.zero_le _) h
  exact ⟨uint64Sub_budget hmax, hmax, positions, hpositions, by rw [hsum, Nat.zero_add]⟩

theorem reported_agrees {response : Bytes}
    (h : .send 200 response ∈ (answerRequest service request).log) :
    ∃ positions final metadata encoded, Estimates service request.questions positions ∧
      final.find (bytes "branchscore") = some metadata ∧
      metadata.find (bytes "prefill_positions") = some (.number (service.ofSize positions.sum)) ∧
      Json.stringify service.numbers final = .ok encoded ∧ response = jsonResponse 200 encoded := by
  obtain ⟨total, _, made, final, encoded, hpass, _, _, hfinal, hencoded, hresponse⟩ :=
    passes_of_sent h
  obtain ⟨_, _, positions, hpositions, rfl⟩ := running_agrees service hpass
  obtain ⟨metadata, hmetadata, hcount⟩ := withMetadata_positions hfinal
  exact ⟨positions, final, metadata, encoded, hpositions, hmetadata, hcount, hencoded, hresponse⟩

end Estimates

variable {R A Tensor Row : Type} [Field R] [LinearOrder R]
  {engine : Gemma4DecisionEngine R A Tensor Row} {service : Service (Ieee R)}
  {request : Systemone.Request}

/-- The service with the engine behind it. -/
def Service.calling (service : Service (Ieee R)) (engine : Gemma4DecisionEngine R A Tensor Row) :
    Service (Ieee R) :=
  { service with engine := engine.served }

/-! ## One request -/

/-- The estimates of a request and its evaluations agree on positions and budgets. -/
structure Agrees (engine : Gemma4DecisionEngine R A Tensor Row) (service : Service (Ieee R))
    (request : Systemone.Request) : Prop where
  order : InOrder service request
  quiet : ∀ decision e, .evaluate decision (.error e) ∈ engineCalls (answerRequest service request) →
    ¬IsBudgetError e
  frozen : ∀ decision result,
    .evaluate decision (.ok result) ∈ engineCalls (answerRequest service request) →
    ∃ positions, engine.estimatePrefillPositions decision = .ok positions ∧
      engine.Freezes decision result positions ∧
      positions ≤ min engine.model.textConfig.contextLength maxPrefillPositions
  /-- The Prefills of the questions that are evaluated. -/
  total : ∀ passed, PreflightPasses service request passed → ∀ front rest results,
    request.questions = front ++ rest → Evaluates service front results →
    (results.map fun result => result.timings.prefillPositions).sum ≤ maxRequestPrefillPositions
  /-- The loop of the estimates, behind any of the questions. -/
  running : ∀ front rest passed, request.questions = front ++ rest →
    (preflight service 0 front).result = .ok passed →
    uint64Sub maxRequestPrefillPositions passed = maxRequestPrefillPositions - passed ∧
      passed ≤ maxRequestPrefillPositions ∧
      ∃ positions, Estimates service front positions ∧ passed = positions.sum
  reported : ∀ response, .send 200 response ∈ (answerRequest service request).log →
    ∃ positions final metadata encoded, Estimates service request.questions positions ∧
      final.find (bytes "branchscore") = some metadata ∧
      metadata.find (bytes "prefill_positions") = some (.number (service.ofSize positions.sum)) ∧
      Json.stringify service.numbers final = .ok encoded ∧ response = jsonResponse 200 encoded

/-- What is evaluated has been estimated. -/
theorem estimated_of_evaluate {decision : DecisionRequest}
    {outcome : Except Exception (DecisionResult (Ieee R))}
    (h : .evaluate decision outcome ∈ engineCalls (answerRequest (service.calling engine) request)) :
    engine.evaluate decision = outcome ∧
      ∃ positions, engine.estimatePrefillPositions decision = .ok positions := by
  obtain ⟨total, question, hpass, hquestion, rfl, houtcome⟩ := passes_of_evaluate h
  obtain ⟨⟨positions, hpositions, _⟩, _⟩ := preflight_ok (Nat.zero_le _) hpass
  exact ⟨houtcome, hpositions.of_mem hquestion⟩

/-- An evaluated question whose placeholder fits. -/
theorem evaluated_ends {decision : DecisionRequest}
    {outcome : Except Exception (DecisionResult (Ieee R))}
    (h : .evaluate decision outcome ∈ engineCalls (answerRequest (service.calling engine) request))
    (hfits : engine.PlaceholderFits decision) :
    ∃ positions, engine.estimatePrefillPositions decision = .ok positions ∧
      Ends (fun e => ¬IsBudgetError e) (fun result => engine.Freezes decision result positions)
        outcome := by
  obtain ⟨rfl, positions, hpositions⟩ := estimated_of_evaluate h
  exact ⟨positions, hpositions, Gemma4DecisionEngine.evaluate_ends hpositions hfits⟩

theorem total_agrees (hfits : ∀ decision outcome, .evaluate decision outcome ∈
      engineCalls (answerRequest (service.calling engine) request) →
      engine.PlaceholderFits decision)
    {passed : Nat} (hpass : PreflightPasses (service.calling engine) request passed)
    {front rest : List Systemone.ChoiceQuestion} (hfront : request.questions = front ++ rest)
    {results : List (DecisionResult (Ieee R))}
    (hresults : Evaluates (service.calling engine) front results) :
    (results.map fun result => result.timings.prefillPositions).sum ≤ maxRequestPrefillPositions := by
  obtain ⟨_, hmax, positions, hpositions, rfl⟩ := running_agrees _ hpass
  rw [hfront] at hpositions
  refine (hpositions.sum_le hresults ?_).trans hmax
  intro question hquestion count result hcount hresult
  have hmem := mem_engineCalls_of_evaluates hpass hfront hresults hquestion
  rw [evaluateCall, hresult] at hmem
  obtain ⟨estimated, hestimated, hends⟩ := evaluated_ends hmem (hfits _ _ hmem)
  cases hcount.symm.trans hestimated
  obtain ⟨_, _, _, _, _, _, _, _, hprefill⟩ := hends
  exact hprefill

theorem agrees_iff : Agrees engine (service.calling engine) request ↔
    ∀ decision outcome, .evaluate decision outcome ∈
      engineCalls (answerRequest (service.calling engine) request) →
      engine.PlaceholderFits decision := by
  constructor
  · intro h decision outcome hmem
    by_contra hfits
    obtain ⟨rfl, positions, hpositions⟩ := estimated_of_evaluate hmem
    obtain ⟨e, herror, hbudget⟩ := Gemma4DecisionEngine.evaluate_budgetError hpositions hfits
    rw [herror] at hmem
    exact h.quiet decision e hmem hbudget
  · intro hfits
    refine ⟨answerRequest_inOrder _ _, ?_, ?_, ?_, ?_, fun _ => reported_agrees⟩
    · intro decision e hmem
      obtain ⟨_, _, hends⟩ := evaluated_ends hmem (hfits _ _ hmem)
      exact hends
    · intro decision result hmem
      obtain ⟨positions, hpositions, hends⟩ := evaluated_ends hmem (hfits _ _ hmem)
      obtain ⟨_, _, _, _, hcontext, hmax⟩ :=
        Gemma4DecisionEngine.estimatePrefillPositions_eq_ok.mp hpositions
      exact ⟨positions, hpositions, hends, le_min hcontext hmax⟩
    · intro passed hpass front rest results hfront hresults
      exact total_agrees hfits hpass hfront hresults
    · intro front rest passed _ hpass
      exact running_agrees _ hpass

/-! ## A whole connection -/

/-- The calls of a connection are those of the request it has accepted, and that agrees. -/
structure PositionsAgree (engine : Gemma4DecisionEngine R A Tensor Row)
    (service : Service (Ieee R)) (events : List ParserEvent) (ending : Ending) : Prop where
  calls : engineCalls (handleConnection service events ending) = [] ∨ ∃ request,
    Receives service events ending request ∧
    engineCalls (handleConnection service events ending) = engineCalls (answerRequest service request)
  agrees : ∀ request, Receives service events ending request → Agrees engine service request

/-- The preflight and the execution of every accepted request agree if and only if the
placeholder of every evaluated question fits. -/
theorem positionsAgree_iff (engine : Gemma4DecisionEngine R A Tensor Row)
    (service : Service (Ieee R)) (events : List ParserEvent) (ending : Ending) :
    PositionsAgree engine (service.calling engine) events ending ↔
      ∀ request, Receives (service.calling engine) events ending request →
        ∀ decision outcome, .evaluate decision outcome ∈
          engineCalls (answerRequest (service.calling engine) request) →
          engine.PlaceholderFits decision := by
  constructor
  · intro h request hreceives
    exact agrees_iff.mp (h.agrees request hreceives)
  · intro h
    refine ⟨engineCalls_handleConnection _ _ _, ?_⟩
    intro request hreceives
    exact agrees_iff.mpr (h request hreceives)

/-- Patches of these sizes have an alignment of one pixel in 32 bits. -/
def wrappedEngine : Gemma4DecisionEngine ℚ ℚ Unit Nat :=
  let even := Gemma4DecisionEngine.evenEngine
  { even with
    model := { even.model with
      textConfig := { even.model.textConfig with contextLength := 290 }
      visionConfig := ModelLoader.visionOf 536903681 536838145 } }

def evenService : Service (Ieee ℚ) where
  requireBearer := false
  bearerToken := []
  modelId := bytes "m"
  uiHtml := uiMarker
  engine := Gemma4DecisionEngine.evenEngine.served
  numbers := Gemma4DecisionEngine.evenEngine.library.numbers
  ofSize n := .finite n
  stb := Gemma4DecisionEngine.blackImages
  handlingMs := .finite 0

def postedBody : Bytes :=
  bytes "\x7b\"model\":\"m\",\"state\":\"s\",\"questions\":\x7b\"q\":\x7b\"type\":\"choice\"," ++
  bytes "\"instructions\":\"q\",\"criteria\":\x7b\"a\":null,\"b\":null\x7d\x7d\x7d," ++
  bytes "\"image\":\x7b\"media_type\":\"image/png\",\"data_base64\":\"iVBORw0KGgo=\"\x7d\x7d"

/-- A question about an image, posted to the server. -/
def postedDecision : Message where
  method := [bytes "POST"]
  url := [bytes "/v1/systemone"]
  version := [bytes "1.1"]
  headers := [⟨[bytes "Content-Type"], [bytes "application/json"]⟩]
  contentLength := postedBody.length
  body := [postedBody]
  trailers := []

def postedQuestion : Systemone.ChoiceQuestion where
  id := bytes "q"
  decision := {
    state := bytes "s"
    question := bytes "q"
    options := Gemma4DecisionEngine.twoOptions
    imageBytes := some Systemone.pngSignature }

def postedRequest : Systemone.Request where
  modelId := bytes "m"
  requestId := none
  imageBytes := some Systemone.pngSignature
  questions := [postedQuestion]

def postedParse : ParseResult where
  request := {
    method := bytes "POST"
    url := bytes "/v1/systemone"
    contentType := bytes "application/json"
    body := postedBody }
  status := 0
  errorCode := []

theorem postedDecision_received (engine : Gemma4DecisionEngine ℚ ℚ Unit Nat) :
    Receives (evenService.calling engine) postedDecision.events .closed postedRequest := by
  have haccepted : (Json.parse evenService.numbers postedBody >>= fun envelope =>
      Systemone.parseRequest evenService.numbers evenService.stb envelope evenService.modelId) =
        .ok postedRequest := by decide +kernel
  have hparsed : receiveRequest false [] postedDecision.events .closed = postedParse := by
    decide +kernel
  have hreceived : receiveRequest (evenService.calling engine).requireBearer
      (evenService.calling engine).bearerToken postedDecision.events .closed = postedParse := by
    rw [← hparsed]
    rfl
  have hcontentType : contentTypeIsJson (bytes "application/json") = true := by decide +kernel
  have hfits : imageTooLarge evenService postedRequest.imageBytes = .ok false := by decide +kernel
  obtain ⟨envelope, hparse, hrequest⟩ := bind_eq_ok.mp haccepted
  refine ⟨?_, ?_, ?_, ?_, ⟨envelope, ?_, hrequest⟩, hfits⟩
  all_goals rw [hreceived]
  · rfl
  · rfl
  · rfl
  · exact hcontentType
  · exact hparse

theorem wrappedEngine_not_fits : ¬wrappedEngine.PlaceholderFits postedQuestion.decision ∧
    wrappedEngine.estimatePrefillPositions postedQuestion.decision = .ok 290 := by
  have hestimate : wrappedEngine.estimatePrefillPositions postedQuestion.decision = .ok 290 := by
    decide +kernel
  have hvisual : wrappedEngine.estimateVisualTokens postedQuestion.decision = .ok 0 := by
    decide +kernel
  refine ⟨?_, hestimate⟩
  intro hfits
  obtain ⟨rendered, ids, htokens, hestimated, _⟩ :=
    Gemma4DecisionEngine.estimatePrefillPositions_eq_ok.mp hestimate
  have himage : postedQuestion.decision.hasImage = true := by decide
  obtain ⟨visual, hvisual', hpositions⟩ := (if_pos himage).mp hestimated
  cases hvisual.symm.trans hvisual'
  have hcontext := (hfits himage hvisual rendered ids htokens).1
  change ids.length ≤ 290 at hcontext
  omega

/-- A question with an image counted as no token is let through by the estimate, and its
evaluation exceeds the context by the placeholder. -/
theorem positionsAgree_fails :
    readVisionConfig (ModelLoader.visionMetadata 536903681 536838145) =
        .ok wrappedEngine.model.visionConfig ∧
      Receives (evenService.calling wrappedEngine) postedDecision.events .closed postedRequest ∧
      ¬PositionsAgree wrappedEngine (evenService.calling wrappedEngine) postedDecision.events
        .closed := by
  have hreceives := postedDecision_received wrappedEngine
  obtain ⟨hnot, hestimate⟩ := wrappedEngine_not_fits
  refine ⟨ModelLoader.readVisionConfig_metadata (by decide) (by decide) (by decide +kernel),
    hreceives, ?_⟩
  intro h
  have hpass : PreflightPasses (evenService.calling wrappedEngine) postedRequest 290 := by
    have hestimates : Estimates (evenService.calling wrappedEngine) postedRequest.questions [290] :=
      .cons hestimate .nil
    exact preflight_of_estimates hestimates (by decide)
  have hmem : evaluateCall (evenService.calling wrappedEngine) postedQuestion ∈
      engineCalls (answerRequest (evenService.calling wrappedEngine) postedRequest) := by
    rw [engineCalls_of_passed hpass]
    exact List.mem_append_right _ (evaluateAll_head _ _)
  exact hnot (agrees_iff.mp (h.agrees _ hreceives) _ _ hmem)

end Server

end Branchscore
