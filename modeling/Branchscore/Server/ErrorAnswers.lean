import Branchscore.Server.Replies

/-!
# The answers of a connection

An answer is the JSON of a success, or of an error whose status belongs to its code. The JSON
of an error is read back as its code, its public message and the id that the client has sent.
-/

namespace Branchscore.Server

open Foundation Foundation.Fragmentation Outcome Logged
set_option autoImplicit false

variable {D : Type}

/-! ## The status of a failed parse -/

section Failure
variable {context : ParseContext}

/-- The status belongs to the code. -/
def Stop.Coded : Stop → Prop
  | .completed _ => True
  | .failed status code => status = statusForCode code

theorem Span.stop_coded (kind : Span) : kind.stop.Coded := by
  cases kind with
  | method | url => exact Eq.refl 414
  | version | headerField | headerValue => exact Eq.refl 431
  | body => exact Eq.refl 413

theorem headersStop_coded : headersStop.Coded := Eq.refl 431

theorem step_coded {event : ParserEvent} {stop : Stop} (hincomplete : context.complete = false)
    (h : step context event = .error stop) : stop.Coded := by
  cases event with
  | span kind data =>
    have htakes := step_span hincomplete kind data
    rw [h] at htakes
    cases htakes with
    | overOwn => exact kind.stop_coded
    | overHeader => exact headersStop_coded
  | signal signal =>
    cases signal with
    | headerFieldComplete => cases h
    | headerValueComplete =>
      rw [step_headerValueComplete hincomplete] at h
      split_ifs at h
      cases h
      exact headersStop_coded
    | headersComplete contentLength =>
      have hfail := @outcome_fail context hincomplete (-1) (by decide)
      simp only [step, callback, onHeadersComplete] at h
      split_ifs at h
      iterate 5
        rw [hfail] at h
        cases h
        rfl
      cases h
    | messageComplete =>
      cases h
      trivial

theorem foldlM_coded {events : List ParserEvent} {stop : Stop}
    (hincomplete : context.complete = false) (h : events.foldlM step context = .error stop) :
    stop.Coded := by
  induction events generalizing context with
  | nil => cases h
  | cons event events ih =>
    rw [List.foldlM_cons] at h
    rcases bind_eq_error.mp h with hstep | ⟨next, hstep, hrest⟩
    · exact step_coded hincomplete hstep
    · exact ih (step_incomplete hstep hincomplete) hrest

theorem endingFailure_coded (ending : Ending) :
    (endingFailure context ending).failureStatus =
      statusForCode (endingFailure context ending).failureCode := by
  cases ending with
  | timeout => exact Eq.refl 408
  | closed | receiveError | malformed => exact Eq.refl 400

/-- A request that was not received in full has the status of its code. -/
theorem receiveRequest_coded {requireBearer : Bool} {bearerToken : Bytes}
    {events : List ParserEvent} {ending : Ending}
    (h : (receiveRequest requireBearer bearerToken events ending).status ≠ 0) :
    (receiveRequest requireBearer bearerToken events ending).status =
      statusForCode (receiveRequest requireBearer bearerToken events ending).errorCode := by
  rw [receiveRequest_eq] at h ⊢
  cases hrun : events.foldlM step (initialContext requireBearer bearerToken) with
  | ok context => exact endingFailure_coded ending
  | error stop =>
    have hcoded := foldlM_coded rfl hrun
    cases stop with
    | completed request =>
      rw [hrun] at h
      exact absurd rfl h
    | failed status code => exact hcoded

end Failure

/-! ## Answers -/

section Answers
variable (service : Service D)

/-- The id that the client has sent in the body. -/
def Supplied (body requestId : Bytes) : Prop :=
  ∃ envelope, Json.parse service.numbers body = .ok envelope ∧
    envelope.find (bytes "request_id") = some (.string requestId)

/-- The answer is the error with this code: its body is read back as the code, the public
message of the code and an id, which the client has sent. -/
structure SendsError (body : Bytes) (status : Nat) (response code : Bytes) : Prop where
  coded : status = statusForCode code ∨ status = 500 ∧ code = bytes "internal_error"
  encoded : ∃ requestId encoded, (∀ id, requestId = some id → Supplied service body id) ∧
    Json.parse service.numbers encoded = .ok (errorJson code requestId) ∧
    response = jsonResponse status encoded

/-- What the server may answer to a request with this body. -/
inductive Answer (body : Bytes) : Action D → Prop where
  | success {response : Json.Value D} {encoded : Bytes} :
      Json.stringify service.numbers response = .ok encoded →
      Answer body (.send 200 (jsonResponse 200 encoded))
  | error {status : Nat} {response code : Bytes} : SendsError service body status response code →
      Answer body (.send status response)
  | page {body' : Bytes} : uiBody service.uiHtml = .ok body' →
      Answer body (.sendUi (uiResponse body'))
  | other {action : Action D} : action.answers = false → Answer body action

variable {service} {body : Bytes}

theorem sendJson_answer (response : Json.Value D) :
    Every (Answer service body) (sendJson service 200 response) := by
  intro action haction
  obtain ⟨encoded, hencoded, rfl⟩ := mem_sendJson_log haction
  exact .success hencoded

theorem sendError_answer {status : Nat} {code : Bytes} {requestId : Option Bytes}
    (hcoded : status = statusForCode code ∨ status = 500 ∧ code = bytes "internal_error")
    (hid : ∀ id, requestId = some id → Supplied service body id) :
    Every (Answer service body) (sendError service status code requestId) := by
  intro action haction
  obtain ⟨encoded, hencoded, rfl⟩ := mem_sendJson_log haction
  obtain ⟨text, htext, hparse⟩ := @Json.stringify_reads_back D service.numbers (fun _ => False)
    (fun _ => False.elim) _ (errorJson_regular _ code requestId)
  cases hencoded.symm.trans htext
  exact .error ⟨hcoded, requestId, encoded, hid, hparse, rfl⟩

theorem sendUi_answer : Every (Answer service body) (sendUi service) := by
  refine Every.bind (.lift _) fun page hpage => ?_
  exact .call (.page hpage) _

theorem preflight_answer (total : Nat) (questions : List Systemone.ChoiceQuestion) :
    Every (Answer service body) (preflight service total questions) :=
  fun action haction => .other (preflight_silent service total questions action haction)

theorem evaluateAll_answer (questions : List Systemone.ChoiceQuestion) :
    Every (Answer service body) (evaluateAll service questions) :=
  fun action haction => .other (evaluateAll_silent service questions action haction)

theorem answerRequest_answer (request : Systemone.Request) :
    Every (Answer service body) (answerRequest service request) := by
  refine Every.bind (preflight_answer _ _) fun total _ => ?_
  refine Every.bind (evaluateAll_answer _) fun results _ => ?_
  refine Every.bind (.lift _) fun response _ => ?_
  exact Every.bind (.lift _) fun response _ => sendJson_answer response

section Envelope
variable {requestId : Option Bytes} (hid : ∀ id, requestId = some id → Supplied service body id)
include hid

theorem decideEnvelope_answer (envelope : Json.Value D) :
    Every (Answer service body) (decideEnvelope service envelope requestId) := by
  refine Every.bind (.lift _) fun request _ => ?_
  refine Every.bind (.lift _) fun tooLarge _ => ?_
  split
  · exact sendError_answer (Or.inl rfl) hid
  · exact answerRequest_answer request

theorem handleDecisionError_answer (e : Exception) :
    Every (Answer service body) (handleDecisionError service requestId e) := by
  cases e with
  | undefinedBehavior => exact .lift _
  | diverges => exact .lift _
  | requestError code message => exact sendError_answer (Or.inl rfl) hid
  | decisionBudgetError code message => exact sendError_answer (Or.inl rfl) hid
  | imageDecodeError message => exact sendError_answer (Or.inl rfl) hid
  | runtimeError message => exact sendError_answer (Or.inr ⟨rfl, rfl⟩) hid
  | outOfRange message => exact sendError_answer (Or.inr ⟨rfl, rfl⟩) hid
  | invalidArgument message => exact sendError_answer (Or.inr ⟨rfl, rfl⟩) hid

end Envelope

theorem catchException_every {α : Type} {P : Action D → Prop} {x handler : Connection D α}
    (hx : Every P x) (hhandler : Every P handler) : Every P (catchException x handler) := by
  refine Every.handle hx fun e _ => ?_
  cases e with
  | undefinedBehavior => exact .lift _
  | diverges => exact .lift _
  | _ => exact hhandler

theorem suppliedId_supplied {envelope : Json.Value D}
    (hparse : Json.parse service.numbers body = .ok envelope) {id : Bytes}
    (h : suppliedId envelope = some id) : Supplied service body id := by
  unfold suppliedId at h
  split at h
  · next id' hfind =>
    cases h
    exact ⟨envelope, hparse, hfind⟩
  · cases h

theorem handleSystemone_answer (request : HttpRequest) :
    Every (Answer service request.body) (handleSystemone service request) := by
  unfold handleSystemone
  split
  · exact sendError_answer (Or.inl rfl) nofun
  · obtain ⟨outcome, _, hresult, hok⟩ := @parseBody_result D service request.body
    refine Every.bind (catchException_every (.call (.other rfl) _) (.lift _)) fun parsed hparsed => ?_
    cases parsed with
    | none => exact sendError_answer (Or.inl rfl) nofun
    | some envelope =>
      have hparse := hok envelope (hresult.symm.trans hparsed)
      have hid := fun id => @suppliedId_supplied D service request.body envelope hparse id
      exact Every.handle (decideEnvelope_answer hid envelope) fun e _ =>
        handleDecisionError_answer hid e

theorem dispatch_answer {parsed : ParseResult}
    (hcoded : parsed.status ≠ 0 → parsed.status = statusForCode parsed.errorCode) :
    Every (Answer service parsed.request.body) (dispatch service parsed) := by
  unfold dispatch
  dsimp only
  split_ifs with hstatus
  · exact sendError_answer (Or.inl (hcoded hstatus)) nofun
  iterate 4 exact sendError_answer (Or.inl rfl) nofun
  · exact sendUi_answer
  · exact sendJson_answer _
  · exact handleSystemone_answer _

/-! ## Statuses -/

theorem statusForCode_named (code : Bytes) :
    statusForCode code ∈ reasonPhrases.map Prod.fst := by
  unfold statusForCode
  split_ifs <;> decide

theorem Answer.named {status : Nat} {response : Bytes}
    (h : Answer service body (.send status response)) :
    status ∈ reasonPhrases.map Prod.fst := by
  cases h with
  | success => decide
  | error herror =>
    rcases herror.coded with rfl | ⟨rfl, _⟩
    · exact statusForCode_named _
    · decide
  | other hnot => cases hnot

theorem handleConnection_answers (service : Service D) (events : List ParserEvent)
    (ending : Ending) :
    Every (Answer service (receiveRequest service.requireBearer service.bearerToken events
      ending).request.body) (handleConnection service events ending) :=
  catchException_every (dispatch_answer receiveRequest_coded)
    (sendError_answer (Or.inr ⟨rfl, rfl⟩) nofun)

end Answers

/-- The status of the action has a reason phrase. -/
def Action.Named : Action D → Prop
  | .send status _ => status ∈ reasonPhrases.map Prod.fst
  | .sendUi _ | .parse _ | .estimate _ _ | .evaluate _ _ => True

/-- Whatever a connection receives, each of its answers is a success, the page, or an error. An
error has the status of its code, and its body is read back as the code, the public message
of the code and an id that the body of the request has supplied. Every status has a reason
phrase. -/
theorem handleConnection_answer (service : Service D) (events : List ParserEvent)
    (ending : Ending) :
    Every (fun action => Answer service (receiveRequest service.requireBearer service.bearerToken
      events ending).request.body action ∧ action.Named)
      (handleConnection service events ending) := by
  intro action haction
  have hanswer := handleConnection_answers service events ending action haction
  refine ⟨hanswer, ?_⟩
  cases action with
  | send status response => exact hanswer.named
  | _ => trivial

end Branchscore.Server
