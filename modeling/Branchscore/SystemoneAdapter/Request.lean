import Branchscore.ImagePreprocessor
import Branchscore.Json.RoundTrip
import Branchscore.Decision

/-! Reading a decision request out of a JSON envelope. -/

namespace Branchscore.Systemone

open Foundation Outcome
set_option autoImplicit false

variable {α D : Type}

def maxQuestionsPerRequest : Nat := 16

structure ChoiceQuestion where
  id : Bytes
  decision : DecisionRequest
  deriving DecidableEq, Repr

structure Request where
  modelId : Bytes
  requestId : Option Bytes
  imageBytes : Option Bytes
  questions : List ChoiceQuestion
  deriving DecidableEq, Repr

def requestError (code : String) (message : Bytes) : Except Exception α :=
  .error (.requestError (bytes code) message)

/-- `if (c) throw RequestError(code, message);` -/
def rejectIf (c : Prop) [Decidable c] (code : String) (message : Bytes) : Except Exception Unit :=
  if c then requestError code message else .ok ()

/-! ## Field access -/

def required (object : Json.Value D) (key : Bytes) : Except Exception (Json.Value D) :=
  match object.find key with
  | some value => .ok value
  | none => requestError "invalid_request" (bytes "missing required field: " ++ key)

def requiredString (object : Json.Value D) (key : Bytes) : Except Exception Bytes := do
  match ← required object key with
  | .string value => return value
  | _ => requestError "invalid_request" (bytes "field must be a string: " ++ key)

def requireObject (value : Json.Value D) (field : Bytes) : Except Exception Unit :=
  match value with
  | .object _ => .ok ()
  | _ => requestError "invalid_request" (bytes "field must be an object: " ++ field)

def rejectUnknownFields (value : Json.Value D) (supported : List Bytes) (field : Bytes) :
    Except Exception Unit := do
  let members ← value.asObject
  forM members fun member => rejectIf (member.1 ∉ supported) "invalid_request"
    (bytes "unsupported field: " ++ field ++ bytes "." ++ member.1)

def serializeState (lib : Json.NumberLibrary D) (state : Json.Value D) : Except Exception Bytes :=
  match state with
  | .string value => do
    rejectIf (value = []) "invalid_request" (bytes "state must not be empty")
    return value
  | .array _ | .object _ => Json.stringify lib state
  | .null | .boolean _ | .number _ =>
    requestError "invalid_request" (bytes "state must be a string, object, or array")

/-! ## Images -/

def decodeDigit (c : Byte) : Option Nat :=
  if byte 'A' ≤ c ∧ c ≤ byte 'Z' then some (c.val - (byte 'A').val)
  else if byte 'a' ≤ c ∧ c ≤ byte 'z' then some (c.val - (byte 'a').val + 26)
  else if byte '0' ≤ c ∧ c ≤ byte '9' then some (c.val - (byte '0').val + 52)
  else if c = byte '+' then some 62
  else if c = byte '/' then some 63
  else none

/-- A padding byte counts as the digit zero. -/
def paddedDigit (c : Byte) : Option Nat := if c = byte '=' then some 0 else decodeDigit c

def malformedBase64 : Except Exception α :=
  requestError "invalid_image" (bytes "image data_base64 is malformed")

/-- The bytes of a group of four. -/
def decodeGroup (c0 c1 c2 c3 : Byte) (last : Bool) : Except Exception Bytes :=
  let hasPadding := c2 = byte '=' || c3 = byte '='
  match decodeDigit c0, decodeDigit c1, paddedDigit c2, paddedDigit c3 with
  | some a, some b, some c, some d =>
    if (hasPadding ∧ ¬last) ∨ (c2 = byte '=' ∧ c3 ≠ byte '=') ∨
        (c2 = byte '=' ∧ b &&& 0x0f ≠ 0) ∨
        (c3 = byte '=' ∧ c2 ≠ byte '=' ∧ c &&& 0x03 ≠ 0) then malformedBase64
    else
      let bits := a <<< 18 ||| b <<< 12 ||| c <<< 6 ||| d
      .ok ([Fin.ofNat 256 (bits >>> 16)] ++
        (if c2 = byte '=' then [] else [Fin.ofNat 256 (bits >>> 8)]) ++
        (if c3 = byte '=' then [] else [Fin.ofNat 256 bits]))
  | _, _, _, _ => malformedBase64

def decodeGroups : Bytes → Bytes → Except Exception Bytes
  | decoded, c0 :: c1 :: c2 :: c3 :: rest => do
    let group ← decodeGroup c0 c1 c2 c3 (rest = [])
    decodeGroups (decoded ++ group) rest
  | decoded, [] => .ok decoded
  | _, _ => .error .undefinedBehavior

def decodeBase64 (encoded : Bytes) : Except Exception Bytes :=
  if encoded = [] ∨ encoded.length % 4 ≠ 0 then malformedBase64 else decodeGroups [] encoded

def pngSignature : Bytes := [0x89, byte 'P', byte 'N', byte 'G', 0x0d, 0x0a, 0x1a, 0x0a]

def jpegSignature : Bytes := [0xff, 0xd8, 0xff]

def parseImage (stb : StbImage) (image : Json.Value D) : Except Exception Bytes := do
  requireObject image (bytes "image")
  rejectUnknownFields image [bytes "media_type", bytes "data_base64"] (bytes "image")
  let mediaType ← requiredString image (bytes "media_type")
  let encoded ← requiredString image (bytes "data_base64")
  rejectIf (mediaType ≠ bytes "image/png" ∧ mediaType ≠ bytes "image/jpeg")
    "unsupported_media_type" (bytes "image media_type must be PNG or JPEG")
  let decoded ← decodeBase64 encoded
  let signature := if mediaType = bytes "image/png" then pngSignature else jpegSignature
  rejectIf (decoded.take signature.length ≠ signature) "invalid_image"
    (bytes "image bytes do not match media_type")
  match ImagePreprocessor.inspectEncoded stb decoded with
  | .error _ => requestError "invalid_image" (bytes "image data could not be inspected")
  | .ok _ => return decoded

/-! ## Questions -/

def parseCriterion (criterion : Bytes × Json.Value D) : Except Exception DecisionOption := do
  let (optionId, description) := criterion
  rejectIf (optionId = []) "invalid_request" (bytes "criteria keys must not be empty")
  match description with
  | .null => return ⟨optionId, optionId⟩
  | .string text => return ⟨optionId, optionId ++ bytes ": " ++ text⟩
  | _ => requestError "invalid_request" (bytes "criteria values must be strings or null")

def parseQuestion (state : Bytes) (imageBytes : Option Bytes)
    (question : Bytes × Json.Value D) : Except Exception ChoiceQuestion := do
  let (questionId, value) := question
  rejectIf (questionId = []) "invalid_request" (bytes "question IDs must not be empty")
  requireObject value (bytes "questions." ++ questionId)
  rejectUnknownFields value [bytes "type", bytes "instructions", bytes "criteria"]
    (bytes "questions." ++ questionId)
  let type ← requiredString value (bytes "type")
  rejectIf (type ≠ bytes "choice") "unsupported_question_type"
    (bytes "only type 'choice' is supported")
  let instructions ← requiredString value (bytes "instructions")
  rejectIf (instructions = []) "invalid_request" (bytes "instructions must not be empty")
  let criteria ← required value (bytes "criteria")
  requireObject criteria (bytes "questions." ++ questionId ++ bytes ".criteria")
  let criteria ← criteria.asObject
  rejectIf (criteria.length < minDecisionOptions ∨ maxDecisionOptions < criteria.length)
    "invalid_request" (bytes "choice criteria must contain 2-512 options")
  let options ← criteria.mapM parseCriterion
  return ⟨questionId, { state, question := instructions, options, imageBytes }⟩

def parseRequestId (envelope : Json.Value D) : Except Exception (Option Bytes) :=
  match envelope.find (bytes "request_id") with
  | none => .ok none
  | some (.string requestId) => .ok (some requestId)
  | some _ => requestError "invalid_request" (bytes "field must be a string: request_id")

def parseRequestImage (stb : StbImage) (envelope : Json.Value D) :
    Except Exception (Option Bytes) :=
  match envelope.find (bytes "image") with
  | none => .ok none
  | some image => (parseImage stb image).map some

def parseRequest (lib : Json.NumberLibrary D) (stb : StbImage) (envelope : Json.Value D)
    (advertisedModelId : Bytes) : Except Exception Request := do
  requireObject envelope (bytes "request")
  rejectUnknownFields envelope [bytes "state", bytes "model", bytes "questions",
    bytes "request_id", bytes "image"] (bytes "request")
  if advertisedModelId = [] then
    .error (.invalidArgument (bytes "advertised model ID must not be empty"))
  else do
    let stateValue ← required envelope (bytes "state")
    let state ← serializeState lib stateValue
    let modelId ← requiredString envelope (bytes "model")
    rejectIf (modelId ≠ advertisedModelId) "unsupported_model"
      (bytes "requested model is not served here")
    let requestId ← parseRequestId envelope
    let imageBytes ← parseRequestImage stb envelope
    let questions ← required envelope (bytes "questions")
    requireObject questions (bytes "questions")
    let questions ← questions.asObject
    rejectIf (questions = []) "invalid_request" (bytes "questions must not be empty")
    rejectIf (maxQuestionsPerRequest < questions.length) "invalid_request"
      (bytes "request exceeds the 16 question limit")
    let questions ← questions.mapM (parseQuestion state imageBytes)
    return ⟨modelId, requestId, imageBytes, questions⟩

end Branchscore.Systemone
