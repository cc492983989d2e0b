import Branchscore.Foundation.Logged
import Branchscore.Foundation.Search
import Branchscore.Json.Parser
import Branchscore.Server.Callbacks
import Branchscore.SystemoneAdapter.Response

/-!
# Handling a connection

What the server does with a received request: it answers, it parses the body and it calls
the engine. An exception of the program becomes an answer.
-/

namespace Branchscore.Server

open Foundation Outcome
set_option autoImplicit false

variable {D : Type}

def maxImageDimension : Nat := 8192

def maxDecodedImagePixels : Nat := 8 * 1024 * 1024

structure Engine (D : Type) where
  estimatePrefillPositions : DecisionRequest → Except Exception Nat
  evaluate : DecisionRequest → Except Exception (DecisionResult D)

/-- What the connections share. `uiHtml` is the page, `handlingMs` what the clock measures. -/
structure Service (D : Type) where
  requireBearer : Bool
  bearerToken : Bytes
  modelId : Bytes
  uiHtml : Bytes
  engine : Engine D
  numbers : Json.NumberLibrary D
  ofSize : Nat → D
  stb : StbImage
  handlingMs : D

/-- What a connection does. -/
inductive Action (D : Type) where
  | send (status : Nat) (response : Bytes)
  | sendUi (response : Bytes)
  | parse (body : Bytes)
  | estimate (request : DecisionRequest) (outcome : Except Exception Nat)
  | evaluate (request : DecisionRequest) (outcome : Except Exception (DecisionResult D))

abbrev Connection (D : Type) := Logged (Action D) Exception

/-! ## Answers -/

def reasonPhrases : List (Nat × String) :=
  [(200, "OK"), (400, "Bad Request"), (401, "Unauthorized"), (404, "Not Found"),
    (405, "Method Not Allowed"), (408, "Request Timeout"), (413, "Payload Too Large"),
    (414, "URI Too Long"), (415, "Unsupported Media Type"), (417, "Expectation Failed"),
    (422, "Unprocessable Entity"), (431, "Request Header Fields Too Large"),
    (500, "Internal Server Error")]

def reasonPhrase (status : Nat) : Bytes :=
  bytes ((reasonPhrases.lookup status).getD "Error")

def jsonResponse (status : Nat) (encoded : Bytes) : Bytes :=
  bytes "HTTP/1.1 " ++ decimal status ++ bytes " " ++ reasonPhrase status ++
    bytes "\r\nContent-Type: application/json; charset=utf-8\r\n" ++
    bytes "Cache-Control: no-store\r\nConnection: close\r\n" ++
    (if status = 401 then bytes "WWW-Authenticate: Bearer realm=\"branchscore\"\r\n" else []) ++
    bytes "Content-Length: " ++ decimal encoded.length ++ bytes "\r\n\r\n" ++ encoded

def uiResponse (body : Bytes) : Bytes :=
  bytes "HTTP/1.1 200 OK\r\n" ++
    bytes "Content-Type: text/html; charset=utf-8\r\n" ++
    bytes "Cache-Control: no-store\r\n" ++
    bytes "X-Content-Type-Options: nosniff\r\n" ++
    bytes "Referrer-Policy: no-referrer\r\n" ++
    bytes "Content-Security-Policy: default-src 'none'; connect-src 'self'; " ++
    bytes "style-src 'unsafe-inline'; script-src 'unsafe-inline'; img-src 'self' data:; " ++
    bytes "form-action 'self'; frame-ancestors 'none'; base-uri 'none'\r\n" ++
    bytes "X-Frame-Options: DENY\r\n" ++
    bytes "Connection: close\r\n" ++
    bytes "Content-Length: " ++ decimal body.length ++ bytes "\r\n\r\n" ++ body

def uiMarker : Bytes := bytes "__BRANCHSCORE_MAX_OPTIONS__"

def uiBody (html : Bytes) : Except Exception Bytes :=
  match Search.find? uiMarker html with
  | none => .error (.outOfRange (bytes "basic_string::replace"))
  | some position => .ok (html.take position ++ decimal maxDecisionOptions ++
      html.drop (position + uiMarker.length))

def publicMessages : List (String × String) :=
  [("unauthorized", "a valid bearer token is required"),
    ("unsupported_model", "requested model is not served here"),
    ("unsupported_question_type", "only Choice questions are supported"),
    ("unsupported_media_type", "only JSON, PNG, and JPEG are supported"),
    ("invalid_image", "image data is invalid"),
    ("image_too_large", "image dimensions exceed the server limit"),
    ("request_too_large", "request body exceeds the server limit"),
    ("token_budget_exceeded", "question exceeds the Prefill token budget"),
    ("context_limit_exceeded", "question exceeds the model context"),
    ("request_token_budget_exceeded", "questions exceed the total request token budget"),
    ("request_timeout", "request did not complete before the timeout"),
    ("headers_too_large", "request headers exceed the server limit"),
    ("request_target_too_large", "request target exceeds the server limit"),
    ("expectation_not_supported", "Expect headers are not supported"),
    ("unsupported_content_encoding", "compressed request bodies are not supported"),
    ("invalid_json", "request body is not valid JSON"),
    ("invalid_http_request", "HTTP request is malformed"),
    ("unsupported_content_type", "Content-Type must be application/json"),
    ("not_found", "route not found"),
    ("method_not_allowed", "method is not supported for this route")]

def publicMessage (code : Bytes) : Bytes :=
  match publicMessages.find? fun entry => bytes entry.1 = code with
  | some entry => bytes entry.2
  | none => bytes "request fields are invalid or unsupported"

def statusForCode (code : Bytes) : Nat :=
  if code = bytes "unauthorized" then 401
  else if code ∈ ["unsupported_media_type", "unsupported_content_type",
      "unsupported_content_encoding"].map bytes then 415
  else if code ∈ ["request_too_large", "image_too_large", "token_budget_exceeded",
      "context_limit_exceeded", "request_token_budget_exceeded"].map bytes then 413
  else if code = bytes "request_timeout" then 408
  else if code = bytes "headers_too_large" then 431
  else if code = bytes "request_target_too_large" then 414
  else if code = bytes "expectation_not_supported" then 417
  else if code = bytes "not_found" then 404
  else if code = bytes "method_not_allowed" then 405
  else if code ∈ ["invalid_http_request", "invalid_json"].map bytes then 400
  else 422

def errorJson (code : Bytes) (requestId : Option Bytes) : Json.Value D :=
  Systemone.emplaced (("error", Systemone.emplaced [("code", .string code),
      ("message", .string (publicMessage code))]) ::
    (requestId.map fun requestId => ("request_id", .string requestId)).toList)

def contentTypeIsJson (contentType : Bytes) : Bool :=
  let value := lowercase (trim contentType)
  let value := match value.findIdx? (· = byte ';') with
    | some delimiter => trim (value.take delimiter)
    | none => value
  value = bytes "application/json"

def uint64Sub (a b : Nat) : Nat := (a + 2 ^ 64 - b) % 2 ^ 64

section Handlers
variable (service : Service D)

def sendJson (status : Nat) (body : Json.Value D) : Connection D Unit := do
  let encoded ← .lift (Json.stringify service.numbers body)
  .call (.send status (jsonResponse status encoded)) (.ok ())

def sendError (status : Nat) (code : Bytes) (requestId : Option Bytes) : Connection D Unit :=
  sendJson service status (errorJson code requestId)

def sendUi : Connection D Unit := do
  let body ← .lift (uiBody service.uiHtml)
  .call (.sendUi (uiResponse body)) (.ok ())

def healthJson : Json.Value D :=
  let limit (value : Nat) : Json.Value D := .number (service.ofSize value)
  Systemone.emplaced [("status", .string (bytes "ready")), ("model", .string service.modelId),
    ("limits", Systemone.emplaced [("max_options", limit maxDecisionOptions),
      ("max_prefill_positions", limit maxPrefillPositions),
      ("max_request_prefill_positions", limit maxRequestPrefillPositions)])]

/-! ## Decisions -/

def imageTooLarge (imageBytes : Option Bytes) : Except Exception Bool :=
  match imageBytes with
  | none => .ok false
  | some encoded => do
    let info ← ImagePreprocessor.inspectEncoded service.stb encoded
    return maxImageDimension < info.width || maxImageDimension < info.height ||
      maxDecodedImagePixels < info.width * info.height

/-- The estimates of all questions, each within what is left of the budget. -/
def preflight : Nat → List Systemone.ChoiceQuestion → Connection D Nat
  | requestPositions, [] => pure requestPositions
  | requestPositions, question :: questions => do
    let outcome := service.engine.estimatePrefillPositions question.decision
    let positions ← .call (.estimate question.decision outcome) outcome
    if uint64Sub maxRequestPrefillPositions requestPositions < positions then
      .lift (Systemone.requestError "request_token_budget_exceeded"
        (bytes "questions exceed the 32768-position request budget"))
    else preflight ((requestPositions + positions) % 2 ^ 64) questions

def evaluateAll : List Systemone.ChoiceQuestion → Connection D (List (DecisionResult D))
  | [] => pure []
  | question :: questions => do
    let outcome := service.engine.evaluate question.decision
    let result ← .call (.evaluate question.decision outcome) outcome
    let results ← evaluateAll questions
    return result :: results

/-- The response with the fields that the server adds. -/
def withMetadata (response : Json.Value D) (requestPositions : Nat) :
    Except Exception (Json.Value D) := do
  let members ← response.asObject
  match SortedMap.lookup (bytes "branchscore") members with
  | none => .error (.outOfRange (bytes "map::at"))
  | some metadata => do
    let metadata ← metadata.set (bytes "http_handling_ms") (.number service.handlingMs)
    let metadata ← metadata.set (bytes "input_tokens_include_visual") (.boolean false)
    let metadata ← metadata.set (bytes "prefill_positions")
      (.number (service.ofSize requestPositions))
    response.set (bytes "branchscore") metadata

/-- The request behind its checks. -/
def answerRequest (request : Systemone.Request) : Connection D Unit := do
  let requestPositions ← preflight service 0 request.questions
  let results ← evaluateAll service request.questions
  let response ← .lift (Systemone.makeResponse service.numbers service.ofSize request results true)
  let response ← .lift (withMetadata service response requestPositions)
  sendJson service 200 response

def decideEnvelope (envelope : Json.Value D) (requestId : Option Bytes) : Connection D Unit := do
  let request ← .lift (Systemone.parseRequest service.numbers service.stb envelope service.modelId)
  let tooLarge ← .lift (imageTooLarge service request.imageBytes)
  if tooLarge then sendError service 413 (bytes "image_too_large") requestId
  else answerRequest service request

/-- The handlers around a decision, in their order. -/
def handleDecisionError (requestId : Option Bytes) : Exception → Connection D Unit
  | .requestError code _ | .decisionBudgetError code _ =>
    sendError service (statusForCode code) code requestId
  | .imageDecodeError _ => sendError service 422 (bytes "invalid_image") requestId
  | .runtimeError _ | .outOfRange _ | .invalidArgument _ =>
    sendError service 500 (bytes "internal_error") requestId
  | .undefinedBehavior => .lift (.error .undefinedBehavior)
  | .diverges => .lift (.error .diverges)

/-- `catch (const std::exception &)`. -/
def catchException {α : Type} (x : Connection D α) (handler : Connection D α) : Connection D α :=
  x.handle fun
    | .undefinedBehavior => .lift (.error .undefinedBehavior)
    | .diverges => .lift (.error .diverges)
    | _ => handler

def suppliedId (envelope : Json.Value D) : Option Bytes :=
  match envelope.find (bytes "request_id") with
  | some (.string requestId) => some requestId
  | _ => none

def handleSystemone (request : HttpRequest) : Connection D Unit := do
  if contentTypeIsJson request.contentType = false then
    sendError service 415 (bytes "unsupported_content_type") none
  else do
    let parsed := Json.parse service.numbers request.body
    match ← catchException (.call (.parse request.body) (parsed.map some)) (pure none) with
    | none => sendError service 400 (bytes "invalid_json") none
    | some envelope =>
      let requestId := suppliedId envelope
      (decideEnvelope service envelope requestId).handle (handleDecisionError service requestId)

def dispatch (parsed : ParseResult) : Connection D Unit :=
  let url := parsed.request.url
  let method := parsed.request.method
  if parsed.status ≠ 0 then sendError service parsed.status parsed.errorCode none
  else if url ≠ bytes "/ui" ∧ url ≠ bytes "/v1/systemone" ∧ url ≠ bytes "/healthz" then
    sendError service 404 (bytes "not_found") none
  else if url = bytes "/ui" ∧ method ≠ bytes "GET" then
    sendError service 405 (bytes "method_not_allowed") none
  else if url = bytes "/healthz" ∧ method ≠ bytes "GET" then
    sendError service 405 (bytes "method_not_allowed") none
  else if url = bytes "/v1/systemone" ∧ method ≠ bytes "POST" then
    sendError service 405 (bytes "method_not_allowed") none
  else if url = bytes "/ui" then sendUi service
  else if url = bytes "/healthz" then sendJson service 200 (healthJson service)
  else handleSystemone service parsed.request

def handleConnection (events : List ParserEvent) (ending : Ending) : Connection D Unit :=
  catchException
    (dispatch service (receiveRequest service.requireBearer service.bearerToken events ending))
    (sendError service 500 (bytes "internal_error") none)

end Handlers

end Branchscore.Server
