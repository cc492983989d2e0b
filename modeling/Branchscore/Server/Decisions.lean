import Branchscore.Server.Answers

/-!
# The calls to the engine

The questions of a request are estimated in their order, and none is evaluated before all
estimates have passed. The estimates are summed up within the budget of the request.
-/

namespace Branchscore.Server

open Foundation Outcome
set_option autoImplicit false

variable {D : Type}

def Action.callsEngine : Action D → Bool
  | .estimate _ _ | .evaluate _ _ => true
  | .send _ _ | .sendUi _ | .parse _ => false

/-- The calls to the engine, in their order. -/
def engineCalls {α : Type} (x : Connection D α) : List (Action D) :=
  x.log.filter Action.callsEngine

section EngineCalls
variable {α β : Type} {x : Connection D α} {f : α → Connection D β}

theorem engineCalls_bind_of_ok {a : α} (h : x.result = .ok a) :
    engineCalls (x >>= f) = engineCalls x ++ engineCalls (f a) := by
  rw [Logged.bind_of_ok h]
  exact List.filter_append _ _

theorem engineCalls_bind_of_error {e : Exception} (h : x.result = .error e) :
    engineCalls (x >>= f) = engineCalls x := by
  rw [Logged.bind_of_error h]
  rfl

theorem engineCalls_handle {handler : Exception → Connection D α}
    (h : ∀ e, engineCalls (handler e) = []) : engineCalls (x.handle handler) = engineCalls x := by
  unfold Logged.handle
  cases x.result with
  | ok a => rfl
  | error e => rw [engineCalls, List.filter_append, ← engineCalls, ← engineCalls, h e, List.append_nil]

theorem engineCalls_catchException {handler : Connection D α} (h : engineCalls handler = []) :
    engineCalls (catchException x handler) = engineCalls x := by
  apply engineCalls_handle
  intro e
  cases e with
  | undefinedBehavior => rfl
  | diverges => rfl
  | _ => exact h

end EngineCalls

section Calls
variable (service : Service D)

def estimateCall (question : Systemone.ChoiceQuestion) : Action D :=
  .estimate question.decision (service.engine.estimatePrefillPositions question.decision)

def evaluateCall (question : Systemone.ChoiceQuestion) : Action D :=
  .evaluate question.decision (service.engine.evaluate question.decision)

/-- The positions that the estimates of the questions return. -/
def Estimates (questions : List Systemone.ChoiceQuestion) (positions : List Nat) : Prop :=
  List.Forall₂ (fun question count =>
    service.engine.estimatePrefillPositions question.decision = .ok count) questions positions

/-- The results that the evaluations of the questions return. -/
def Evaluates (questions : List Systemone.ChoiceQuestion) (results : List (DecisionResult D)) :
    Prop :=
  List.Forall₂ (fun question result => service.engine.evaluate question.decision = .ok result)
    questions results

end Calls

/-! ## The loop of the estimates -/

section Preflight
variable {service : Service D}

theorem uint64Sub_budget {total : Nat} (h : total ≤ maxRequestPrefillPositions) :
    uint64Sub maxRequestPrefillPositions total = maxRequestPrefillPositions - total := by
  unfold uint64Sub maxRequestPrefillPositions at *
  omega

/-- One turn of the loop. -/
theorem preflight_cons (total : Nat) (question : Systemone.ChoiceQuestion)
    (questions : List Systemone.ChoiceQuestion) :
    (∃ e, service.engine.estimatePrefillPositions question.decision = .error e ∧
      preflight service total (question :: questions) = ⟨[estimateCall service question], .error e⟩) ∨
    ∃ count, service.engine.estimatePrefillPositions question.decision = .ok count ∧
      ((uint64Sub maxRequestPrefillPositions total < count ∧ ∃ e,
        preflight service total (question :: questions) =
          ⟨[estimateCall service question], .error e⟩) ∨
      (count ≤ uint64Sub maxRequestPrefillPositions total ∧
        preflight service total (question :: questions) =
          ⟨estimateCall service question ::
              (preflight service ((total + count) % 2 ^ 64) questions).log,
            (preflight service ((total + count) % 2 ^ 64) questions).result⟩)) := by
  rw [preflight]
  cases hcount : service.engine.estimatePrefillPositions question.decision with
  | error e =>
    refine Or.inl ⟨e, rfl, ?_⟩
    rw [Logged.bind_of_error rfl, estimateCall, hcount]
    rfl
  | ok count =>
    refine Or.inr ⟨count, rfl, ?_⟩
    rw [Logged.bind_of_ok rfl, estimateCall, hcount]
    by_cases hover : uint64Sub maxRequestPrefillPositions total < count
    · rw [if_pos hover]
      exact Or.inl ⟨hover, _, rfl⟩
    · rw [if_neg hover]
      exact Or.inr ⟨Nat.le_of_not_lt hover, rfl⟩

theorem preflight_log (total : Nat) (questions : List Systemone.ChoiceQuestion) :
    ∃ turns, (preflight service total questions).log =
      (questions.take turns).map (estimateCall service) := by
  induction questions generalizing total with
  | nil => exact ⟨0, rfl⟩
  | cons question questions ih =>
    rcases preflight_cons total question questions with ⟨e, _, h⟩ | ⟨count, _, ⟨_, e, h⟩ | ⟨_, h⟩⟩
    · exact ⟨1, by rw [h]; rfl⟩
    · exact ⟨1, by rw [h]; rfl⟩
    · obtain ⟨turns, hlog⟩ := ih ((total + count) % 2 ^ 64)
      refine ⟨turns + 1, ?_⟩
      rw [h, List.take_succ_cons, List.map_cons, ← hlog]

/-- The loop passes with the exact sum, which is within the budget. -/
theorem preflight_ok {total final : Nat} {questions : List Systemone.ChoiceQuestion}
    (htotal : total ≤ maxRequestPrefillPositions)
    (h : (preflight service total questions).result = .ok final) :
    (∃ positions, Estimates service questions positions ∧ final = total + positions.sum) ∧
      final ≤ maxRequestPrefillPositions ∧
      (preflight service total questions).log = questions.map (estimateCall service) := by
  induction questions generalizing total with
  | nil =>
    cases h
    exact ⟨⟨[], .nil, rfl⟩, htotal, rfl⟩
  | cons question questions ih =>
    rcases preflight_cons total question questions with ⟨e, _, hrun⟩ | ⟨count, hcount, hrun⟩
    · rw [hrun] at h
      cases h
    · rcases hrun with ⟨_, e, hrun⟩ | ⟨hle, hrun⟩
      · rw [hrun] at h
        cases h
      · rw [uint64Sub_budget htotal] at hle
        have hsum : total + count ≤ maxRequestPrefillPositions := by omega
        have hexact : (total + count) % 2 ^ 64 = total + count := by
          apply Nat.mod_eq_of_lt
          exact hsum.trans_lt (by decide)
        rw [hrun] at h ⊢
        rw [hexact] at h ⊢
        obtain ⟨⟨positions, hpositions, hfinal⟩, hmax, hlog⟩ := ih hsum h
        refine ⟨⟨count :: positions, .cons hcount hpositions, ?_⟩, hmax, ?_⟩
        · rw [hfinal, List.sum_cons, Nat.add_assoc]
        · rw [hlog]
          rfl

/-- Estimates within the budget let the loop pass. -/
theorem preflight_of_estimates {total : Nat} {questions : List Systemone.ChoiceQuestion}
    {positions : List Nat} (h : Estimates service questions positions)
    (hsum : total + positions.sum ≤ maxRequestPrefillPositions) :
    (preflight service total questions).result = .ok (total + positions.sum) := by
  induction h generalizing total with
  | nil => rfl
  | @cons question count questions positions hcount _ ih =>
    rw [List.sum_cons] at hsum ⊢
    rcases preflight_cons total question questions with ⟨e, herror, _⟩ | ⟨count', hcount', hrun⟩
    · cases herror.symm.trans hcount
    · cases hcount.symm.trans hcount'
      rw [uint64Sub_budget (by omega)] at hrun
      rcases hrun with ⟨hover, _⟩ | ⟨_, hrun⟩
      · omega
      · have hexact : (total + count) % 2 ^ 64 = total + count := by
          apply Nat.mod_eq_of_lt
          have hbudget : maxRequestPrefillPositions < 2 ^ 64 := by decide
          omega
        rw [hrun, hexact, ← Nat.add_assoc]
        exact ih (by omega)

end Preflight

/-! ## The evaluations -/

section Evaluations
variable {service : Service D}

theorem evaluateAll_log (questions : List Systemone.ChoiceQuestion) :
    ∃ turns, (evaluateAll service questions).log =
      (questions.take turns).map (evaluateCall service) := by
  induction questions with
  | nil => exact ⟨0, rfl⟩
  | cons question questions ih =>
    rw [evaluateAll]
    cases hresult : service.engine.evaluate question.decision with
    | error e =>
      refine ⟨1, ?_⟩
      rw [Logged.bind_of_error rfl, List.take_succ_cons, List.map_cons, evaluateCall, hresult]
      rfl
    | ok result =>
      obtain ⟨turns, hlog⟩ := ih
      refine ⟨turns + 1, ?_⟩
      rw [Logged.bind_of_ok rfl, List.take_succ_cons, List.map_cons, evaluateCall, hresult, ← hlog]
      cases hrest : (evaluateAll service questions).result with
      | error e => rw [Logged.bind_of_error hrest]; rfl
      | ok results =>
        rw [Logged.bind_of_ok hrest, Logged.log_pure, List.append_nil]
        rfl

theorem evaluateAll_ok {questions : List Systemone.ChoiceQuestion}
    {results : List (DecisionResult D)} (h : (evaluateAll service questions).result = .ok results) :
    Evaluates service questions results := by
  induction questions generalizing results with
  | nil =>
    cases h
    exact .nil
  | cons question questions ih =>
    rw [evaluateAll, Logged.result_bind] at h
    obtain ⟨result, hresult, h⟩ := bind_eq_ok.mp h
    rw [Logged.result_bind] at h
    obtain ⟨rest, hrest, h⟩ := bind_eq_ok.mp h
    cases h
    exact .cons hresult (ih hrest)

/-! ## The answer -/

/-- The response that is sent with success counts the positions of all questions. -/
theorem withMetadata_positions {response final : Json.Value D} {total : Nat}
    (h : withMetadata service response total = .ok final) : ∃ metadata,
      final.find (bytes "branchscore") = some metadata ∧
      metadata.find (bytes "prefill_positions") = some (.number (service.ofSize total)) := by
  have hset {value item result : Json.Value D} {key : Bytes} (h : value.set key item = .ok result) :
      result.find key = some item := by
    obtain ⟨members, _, h⟩ := bind_eq_ok.mp h
    cases h
    exact SortedMap.lookup_assign_self
  obtain ⟨members, _, h⟩ := bind_eq_ok.mp h
  cases hmetadata : SortedMap.lookup (bytes "branchscore") members with
  | none =>
    rw [hmetadata] at h
    cases h
  | some metadata =>
    rw [hmetadata] at h
    obtain ⟨timed, _, h⟩ := bind_eq_ok.mp h
    obtain ⟨flagged, _, h⟩ := bind_eq_ok.mp h
    obtain ⟨counted, hcounted, h⟩ := bind_eq_ok.mp h
    exact ⟨counted, hset h, hset hcounted⟩

/-- The part of `answerRequest` behind the evaluations. -/
def respond (service : Service D) (request : Systemone.Request) (total : Nat)
    (results : List (DecisionResult D)) : Connection D Unit := do
  let response ← .lift (Systemone.makeResponse service.numbers service.ofSize request results true)
  let response ← .lift (withMetadata service response total)
  sendJson service 200 response

theorem mem_sendJson_log {status : Nat} {body : Json.Value D} {action : Action D}
    (h : action ∈ (sendJson service status body).log) :
    ∃ encoded, Json.stringify service.numbers body = .ok encoded ∧
      action = .send status (jsonResponse status encoded) := by
  rw [sendJson, Logged.mem_log_bind] at h
  rcases h with h | ⟨encoded, hencoded, h⟩
  · cases h
  · exact ⟨encoded, hencoded, List.mem_singleton.mp h⟩

theorem mem_respond_log {request : Systemone.Request} {total : Nat}
    {results : List (DecisionResult D)} {action : Action D}
    (h : action ∈ (respond service request total results).log) :
    ∃ response final encoded,
      Systemone.makeResponse service.numbers service.ofSize request results true = .ok response ∧
      withMetadata service response total = .ok final ∧
      Json.stringify service.numbers final = .ok encoded ∧
      action = .send 200 (jsonResponse 200 encoded) := by
  rw [respond, Logged.mem_log_bind] at h
  rcases h with h | ⟨response, hresponse, h⟩
  · cases h
  · rw [Logged.mem_log_bind] at h
    rcases h with h | ⟨final, hfinal, h⟩
    · cases h
    · obtain ⟨encoded, hencoded, haction⟩ := mem_sendJson_log h
      exact ⟨response, final, encoded, hresponse, hfinal, hencoded, haction⟩

end Evaluations

/-! ## A whole request -/

section Request
variable {service : Service D} {request : Systemone.Request}

theorem callsEngine_estimates (questions : List Systemone.ChoiceQuestion) :
    (questions.map (estimateCall service)).filter Action.callsEngine =
      questions.map (estimateCall service) := by
  apply List.filter_eq_self.mpr
  intro action haction
  obtain ⟨_, _, rfl⟩ := List.mem_map.mp haction
  rfl

theorem callsEngine_evaluations (questions : List Systemone.ChoiceQuestion) :
    (questions.map (evaluateCall service)).filter Action.callsEngine =
      questions.map (evaluateCall service) := by
  apply List.filter_eq_self.mpr
  intro action haction
  obtain ⟨_, _, rfl⟩ := List.mem_map.mp haction
  rfl

theorem engineCalls_respond (total : Nat) (results : List (DecisionResult D)) :
    engineCalls (respond service request total results) = [] := by
  apply List.filter_eq_nil_iff.mpr
  intro action haction
  obtain ⟨_, _, _, _, _, _, rfl⟩ := mem_respond_log haction
  exact Bool.false_ne_true

/-- The estimates have passed. -/
def PreflightPasses (service : Service D) (request : Systemone.Request) (total : Nat) : Prop :=
  (preflight service 0 request.questions).result = .ok total

theorem engineCalls_of_failed {e : Exception}
    (h : (preflight service 0 request.questions).result = .error e) :
    ∃ estimated, engineCalls (answerRequest service request) =
      (request.questions.take estimated).map (estimateCall service) := by
  obtain ⟨estimated, hlog⟩ := @preflight_log D service 0 request.questions
  refine ⟨estimated, ?_⟩
  rw [answerRequest, engineCalls_bind_of_error h, engineCalls, hlog, callsEngine_estimates]

theorem engineCalls_evaluateAll (questions : List Systemone.ChoiceQuestion) :
    engineCalls (evaluateAll service questions) = (evaluateAll service questions).log := by
  obtain ⟨turns, hlog⟩ := @evaluateAll_log D service questions
  rw [engineCalls, hlog, callsEngine_evaluations]

theorem engineCalls_of_passed {total : Nat} (h : PreflightPasses service request total) :
    engineCalls (answerRequest service request) = request.questions.map (estimateCall service) ++
      (evaluateAll service request.questions).log := by
  have hlog := (preflight_ok (Nat.zero_le _) h).2.2
  rw [answerRequest, engineCalls_bind_of_ok h, engineCalls, hlog, callsEngine_estimates]
  congr 1
  rw [← engineCalls_evaluateAll]
  cases hresults : (evaluateAll service request.questions).result with
  | error e => exact engineCalls_bind_of_error hresults
  | ok results =>
    rw [engineCalls_bind_of_ok hresults]
    have hrespond := @engineCalls_respond D service request total results
    rw [respond] at hrespond
    rw [hrespond, List.append_nil]

/-- A request estimates its questions, and evaluates only after all estimates have passed. -/
structure InOrder (service : Service D) (request : Systemone.Request) : Prop where
  calls : ∃ estimated evaluated, engineCalls (answerRequest service request) =
      (request.questions.take estimated).map (estimateCall service) ++
        (request.questions.take evaluated).map (evaluateCall service) ∧
    (evaluated = 0 ∨ request.questions.length ≤ estimated ∧
      ∃ positions, Estimates service request.questions positions)

theorem answerRequest_inOrder (service : Service D) (request : Systemone.Request) :
    InOrder service request := by
  cases hpass : (preflight service 0 request.questions).result with
  | error e =>
    obtain ⟨estimated, hcalls⟩ := engineCalls_of_failed hpass
    refine ⟨estimated, 0, ?_, Or.inl rfl⟩
    rw [hcalls, List.take_zero, List.map_nil, List.append_nil]
  | ok total =>
    obtain ⟨evaluated, hlog⟩ := @evaluateAll_log D service request.questions
    obtain ⟨⟨positions, hpositions, _⟩, _⟩ := preflight_ok (Nat.zero_le _) hpass
    refine ⟨request.questions.length, evaluated, ?_, Or.inr ⟨le_rfl, positions, hpositions⟩⟩
    rw [engineCalls_of_passed hpass, hlog, List.take_length]

theorem evaluate_notMem_estimates {decision : DecisionRequest}
    {outcome : Except Exception (DecisionResult D)} (questions : List Systemone.ChoiceQuestion) :
    Action.evaluate decision outcome ∉ questions.map (estimateCall service) := by
  intro hmem
  obtain ⟨_, _, heq⟩ := List.mem_map.mp hmem
  cases heq

/-- What is evaluated is a question of a request whose estimates have passed. -/
theorem passes_of_evaluate {decision : DecisionRequest}
    {outcome : Except Exception (DecisionResult D)}
    (h : .evaluate decision outcome ∈ engineCalls (answerRequest service request)) :
    ∃ total question, PreflightPasses service request total ∧ question ∈ request.questions ∧
      question.decision = decision ∧ service.engine.evaluate decision = outcome := by
  cases hpass : (preflight service 0 request.questions).result with
  | error e =>
    obtain ⟨estimated, hcalls⟩ := engineCalls_of_failed hpass
    rw [hcalls] at h
    exact absurd h (evaluate_notMem_estimates _)
  | ok total =>
    obtain ⟨evaluated, hlog⟩ := @evaluateAll_log D service request.questions
    rw [engineCalls_of_passed hpass, hlog] at h
    rcases List.mem_append.mp h with h | h
    · exact absurd h (evaluate_notMem_estimates _)
    · obtain ⟨question, hquestion, heq⟩ := List.mem_map.mp h
      cases heq
      exact ⟨total, question, hpass, List.mem_of_mem_take hquestion, rfl, rfl⟩

theorem evaluateAll_head (question : Systemone.ChoiceQuestion)
    (questions : List Systemone.ChoiceQuestion) :
    evaluateCall service question ∈ (evaluateAll service (question :: questions)).log := by
  rw [evaluateAll]
  exact Logged.mem_log_bind.mpr (Or.inl List.mem_cons_self)

/-- Questions in front that evaluate are evaluated. -/
theorem mem_evaluateAll {front rest : List Systemone.ChoiceQuestion}
    {results : List (DecisionResult D)} (h : Evaluates service front results)
    {question : Systemone.ChoiceQuestion} (hmem : question ∈ front) :
    evaluateCall service question ∈ (evaluateAll service (front ++ rest)).log := by
  induction h with
  | nil => cases hmem
  | @cons first result front results hresult _ ih =>
    rw [List.cons_append]
    rcases List.mem_cons.mp hmem with rfl | hmem
    · exact evaluateAll_head _ _
    · rw [evaluateAll, hresult, Logged.bind_of_ok rfl]
      exact List.mem_cons_of_mem _ (Logged.mem_log_bind.mpr (Or.inl (ih hmem)))

theorem mem_engineCalls_of_evaluates {total : Nat} (hpass : PreflightPasses service request total)
    {front rest : List Systemone.ChoiceQuestion} (hfront : request.questions = front ++ rest)
    {results : List (DecisionResult D)} (h : Evaluates service front results)
    {question : Systemone.ChoiceQuestion} (hmem : question ∈ front) :
    evaluateCall service question ∈ engineCalls (answerRequest service request) := by
  rw [engineCalls_of_passed hpass, hfront]
  exact List.mem_append_right _ (mem_evaluateAll h hmem)

/-- What is sent with success counts the sum of the estimates. -/
theorem passes_of_sent {response : Bytes}
    (h : .send 200 response ∈ (answerRequest service request).log) :
    ∃ total results made final encoded, PreflightPasses service request total ∧
      Evaluates service request.questions results ∧
      Systemone.makeResponse service.numbers service.ofSize request results true = .ok made ∧
      withMetadata service made total = .ok final ∧
      Json.stringify service.numbers final = .ok encoded ∧ response = jsonResponse 200 encoded := by
  have hnot {α : Type} (items : List α) (f : α → Action D)
      (hf : ∀ a, f a ≠ .send 200 response) : Action.send 200 response ∉ items.map f := by
    intro hmem
    obtain ⟨a, _, heq⟩ := List.mem_map.mp hmem
    exact hf a heq
  obtain ⟨estimated, hestimated⟩ := @preflight_log D service 0 request.questions
  obtain ⟨evaluated, hevaluated⟩ := @evaluateAll_log D service request.questions
  rw [answerRequest, Logged.mem_log_bind, hestimated] at h
  rcases h with h | ⟨total, hpass, h⟩
  · exact absurd h (hnot _ _ nofun)
  · rw [Logged.mem_log_bind, hevaluated] at h
    rcases h with h | ⟨results, hresults, h⟩
    · exact absurd h (hnot _ _ nofun)
    · obtain ⟨made, final, encoded, hmade, hfinal, hencoded, heq⟩ :=
        @mem_respond_log D service request total results _ h
      cases heq
      exact ⟨total, results, made, final, encoded, hpass, evaluateAll_ok hresults, hmade, hfinal,
        hencoded, rfl⟩

end Request

/-! ## A whole connection -/

section Connection
variable {service : Service D} {events : List ParserEvent} {ending : Ending}

/-- The connection has received a decision request that is accepted. -/
structure Receives (service : Service D) (events : List ParserEvent) (ending : Ending)
    (request : Systemone.Request) : Prop where
  status : (receiveRequest service.requireBearer service.bearerToken events ending).status = 0
  url : (receiveRequest service.requireBearer service.bearerToken events ending).request.url =
    bytes "/v1/systemone"
  method : (receiveRequest service.requireBearer service.bearerToken events ending).request.method =
    bytes "POST"
  contentType : contentTypeIsJson (receiveRequest service.requireBearer service.bearerToken events
    ending).request.contentType = true
  accepted : ∃ envelope, Json.parse service.numbers (receiveRequest service.requireBearer
      service.bearerToken events ending).request.body = .ok envelope ∧
    Systemone.parseRequest service.numbers service.stb envelope service.modelId = .ok request
  fits : imageTooLarge service request.imageBytes = .ok false

theorem engineCalls_sendJson (status : Nat) (body : Json.Value D) :
    engineCalls (sendJson service status body) = [] := by
  apply List.filter_eq_nil_iff.mpr
  intro action haction
  obtain ⟨_, _, rfl⟩ := mem_sendJson_log haction
  exact Bool.false_ne_true

theorem engineCalls_sendUi : engineCalls (sendUi service) = [] := by
  rw [sendUi]
  cases hbody : uiBody service.uiHtml with
  | error e => rfl
  | ok body => rfl

theorem engineCalls_handleDecisionError (requestId : Option Bytes) (e : Exception) :
    engineCalls (handleDecisionError service requestId e) = [] := by
  cases e with
  | undefinedBehavior => rfl
  | diverges => rfl
  | _ => exact engineCalls_sendJson _ _

theorem engineCalls_decideEnvelope (envelope : Json.Value D) (requestId : Option Bytes) :
    engineCalls (decideEnvelope service envelope requestId) = [] ∨ ∃ request,
      Systemone.parseRequest service.numbers service.stb envelope service.modelId = .ok request ∧
      imageTooLarge service request.imageBytes = .ok false ∧
      engineCalls (decideEnvelope service envelope requestId) =
        engineCalls (answerRequest service request) := by
  rw [decideEnvelope]
  cases hrequest : Systemone.parseRequest service.numbers service.stb envelope service.modelId with
  | error e => exact Or.inl rfl
  | ok request =>
    rw [Logged.lift_bind_ok]
    cases hlarge : imageTooLarge service request.imageBytes with
    | error e => exact Or.inl rfl
    | ok tooLarge =>
      rw [Logged.lift_bind_ok]
      cases tooLarge with
      | true => exact Or.inl (engineCalls_sendJson _ _)
      | false => exact Or.inr ⟨request, rfl, hlarge, rfl⟩

theorem parseBody_result (body : Bytes) :
    ∃ parsed, engineCalls (catchException
        (.call (.parse body) ((Json.parse service.numbers body).map some)) (pure none) :
          Connection D (Option (Json.Value D))) = [] ∧
      ((catchException (.call (.parse body) ((Json.parse service.numbers body).map some))
        (pure none) : Connection D (Option (Json.Value D))).result = parsed) ∧
      ∀ envelope, parsed = .ok (some envelope) → Json.parse service.numbers body = .ok envelope := by
  refine ⟨_, engineCalls_catchException rfl, rfl, ?_⟩
  intro envelope h
  cases hparse : Json.parse service.numbers body with
  | ok value =>
    rw [hparse] at h
    cases h
    rfl
  | error e =>
    rw [hparse] at h
    cases e <;> cases h

theorem engineCalls_handleSystemone (parsed : HttpRequest) :
    engineCalls (handleSystemone service parsed) = [] ∨ ∃ envelope request,
      contentTypeIsJson parsed.contentType = true ∧
      Json.parse service.numbers parsed.body = .ok envelope ∧
      Systemone.parseRequest service.numbers service.stb envelope service.modelId = .ok request ∧
      imageTooLarge service request.imageBytes = .ok false ∧
      engineCalls (handleSystemone service parsed) = engineCalls (answerRequest service request) := by
  unfold handleSystemone
  by_cases hjson : contentTypeIsJson parsed.contentType = false
  · rw [if_pos hjson]
    exact Or.inl (engineCalls_sendJson _ _)
  · rw [if_neg hjson]
    obtain ⟨outcome, hcalls, hresult, hparsed⟩ := @parseBody_result D service parsed.body
    dsimp only
    cases outcome with
    | error e =>
      rw [engineCalls_bind_of_error hresult, hcalls]
      exact Or.inl rfl
    | ok parsedBody =>
      rw [engineCalls_bind_of_ok hresult, hcalls, List.nil_append]
      cases parsedBody with
      | none => exact Or.inl (engineCalls_sendJson _ _)
      | some envelope =>
        dsimp only
        rw [engineCalls_handle (engineCalls_handleDecisionError _)]
        rcases engineCalls_decideEnvelope envelope (suppliedId envelope) with hnone | hdecides
        · exact Or.inl hnone
        · obtain ⟨request, hrequest, hfits, heq⟩ := hdecides
          exact Or.inr ⟨envelope, request, eq_true_of_ne_false hjson, hparsed envelope rfl, hrequest,
            hfits, heq⟩

/-- The calls of a connection to the engine are those of the request it has accepted. -/
theorem engineCalls_handleConnection (service : Service D) (events : List ParserEvent)
    (ending : Ending) :
    engineCalls (handleConnection service events ending) = [] ∨ ∃ request,
      Receives service events ending request ∧
      engineCalls (handleConnection service events ending) =
        engineCalls (answerRequest service request) := by
  have hcatch : engineCalls (sendError service 500 (bytes "internal_error") none) = [] :=
    engineCalls_sendJson _ _
  rw [handleConnection, engineCalls_catchException hcatch]
  unfold dispatch
  dsimp only
  split_ifs with hstatus hother hui hhealth hmethod hpage hhealthz
  iterate 5 exact Or.inl (engineCalls_sendJson _ _)
  · exact Or.inl engineCalls_sendUi
  · exact Or.inl (engineCalls_sendJson _ _)
  · rcases @engineCalls_handleSystemone D service (receiveRequest service.requireBearer
      service.bearerToken events ending).request with hnone | hsome
    · exact Or.inl hnone
    · obtain ⟨envelope, request, hjson, hparse, hrequest, hfits, heq⟩ := hsome
      have hurl : (receiveRequest service.requireBearer service.bearerToken events
          ending).request.url = bytes "/v1/systemone" := by
        by_contra hne
        exact hother ⟨hpage, hne, hhealthz⟩
      refine Or.inr ⟨request, ⟨not_not.mp hstatus, hurl, ?_, hjson, ⟨envelope, hparse, hrequest⟩,
        hfits⟩, heq⟩
      by_contra hne
      exact hmethod ⟨hurl, hne⟩

end Connection

end Branchscore.Server
