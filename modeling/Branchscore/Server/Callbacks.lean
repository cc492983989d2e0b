import Branchscore.Exception
import Branchscore.Foundation.Fragmentation

/-!
# Receiving a request

The callbacks of the HTTP parser and the context they fill. A callback returns nonzero to
end the parse.
-/

namespace Branchscore.Server

open Foundation Foundation.Fragmentation
set_option autoImplicit false

def maxRequestBodyBytes : Nat := 16 * 1024 * 1024

def maxRequestHeaderBytes : Nat := 16 * 1024

def maxRequestHeaderCount : Nat := 64

structure HttpRequest where
  method : Bytes := []
  url : Bytes := []
  contentType : Bytes := []
  authorization : Bytes := []
  contentEncoding : Bytes := []
  expect : Bytes := []
  body : Bytes := []
  deriving DecidableEq, Repr

structure ParseContext where
  request : HttpRequest := {}
  headerName : Bytes := []
  headerValue : Bytes := []
  headerBytes : Nat := 0
  headerCount : Nat := 0
  authorizationCount : Nat := 0
  contentTypeCount : Nat := 0
  failureStatus : Nat := 0
  failureCode : Bytes := []
  complete : Bool := false
  requireBearer : Bool := false
  bearerToken : Option Bytes := none
  deriving DecidableEq, Repr

structure ParseResult where
  request : HttpRequest
  status : Nat
  errorCode : Bytes
  deriving DecidableEq, Repr

/-! ## Text -/

/-- `std::tolower` in the C locale. -/
def tolower (c : Byte) : Byte := if byte 'A' ≤ c ∧ c ≤ byte 'Z' then c + 32 else c

/-- `std::isspace` in the C locale. -/
def isspace (c : Byte) : Bool := c = 0x20 ∨ (0x09 ≤ c ∧ c ≤ 0x0d)

def lowercase (value : Bytes) : Bytes := value.map tolower

def trim (value : Bytes) : Bytes :=
  ((value.dropWhile isspace).reverse.dropWhile isspace).reverse

/-- The 32-bit difference of two strings, each padded with zero bytes. -/
def constantTimeEqual (left right : Bytes) : Bool :=
  let count := max left.length right.length
  let difference := (List.range count).foldl
    (fun difference index => difference ||| ((left.getD index 0).val ^^^ (right.getD index 0).val))
    ((left.length ^^^ right.length) % 2 ^ 32)
  difference = 0

def authorized (value expectedToken : Bytes) : Bool :=
  match value.findIdx? (· = byte ' ') with
  | none => false
  | some space =>
    if lowercase (value.take space) ≠ bytes "bearer" then false
    else
      let supplied := trim (value.drop (space + 1))
      supplied ≠ [] && constantTimeEqual supplied expectedToken

/-! ## Callbacks -/

def hpeOk : Int := 0

def hpePaused : Int := 21

def hpeUser : Int := 24

def ParseContext.fail (context : ParseContext) (status : Nat) (code : String) : ParseContext :=
  { context with failureStatus := status, failureCode := bytes code }

def headersTooLarge (context : ParseContext) : ParseContext :=
  context.fail 431 "headers_too_large"

def addHeaderBytes (context : ParseContext) (count : Nat) : Bool × ParseContext :=
  if maxRequestHeaderBytes - context.headerBytes < count then (false, headersTooLarge context)
  else (true, { context with headerBytes := context.headerBytes + count })

/-- `store` writes the destination field of the request. -/
def appendRequestLinePart (context : ParseContext) (bytes destination : Bytes) (maxLength : Nat)
    (store : Bytes → HttpRequest) : Int × ParseContext :=
  if maxLength - min maxLength destination.length < bytes.length then
    (hpeUser, context.fail 414 "request_target_too_large")
  else
    match addHeaderBytes context bytes.length with
    | (false, context) => (hpeUser, context)
    | (true, context) => (hpeOk, { context with request := store (destination ++ bytes) })

def onMethod (context : ParseContext) (bytes : Bytes) : Int × ParseContext :=
  appendRequestLinePart context bytes context.request.method 32
    fun method => { context.request with method }

def onUrl (context : ParseContext) (bytes : Bytes) : Int × ParseContext :=
  appendRequestLinePart context bytes context.request.url 4096
    fun url => { context.request with url }

def onVersion (context : ParseContext) (bytes : Bytes) : Int × ParseContext :=
  match addHeaderBytes context bytes.length with
  | (false, context) => (hpeUser, context)
  | (true, context) => (hpeOk, context)

/-- What `on_header_field` and `on_header_value` do; `store` writes the destination. -/
def appendHeaderPart (context : ParseContext) (bytes destination : Bytes)
    (store : ParseContext → Bytes → ParseContext) : Int × ParseContext :=
  if maxRequestHeaderBytes - min maxRequestHeaderBytes destination.length < bytes.length then
    (hpeUser, headersTooLarge context)
  else
    match addHeaderBytes context bytes.length with
    | (false, context) => (hpeUser, context)
    | (true, context) => (hpeOk, store context (destination ++ bytes))

def onHeaderField (context : ParseContext) (bytes : Bytes) : Int × ParseContext :=
  appendHeaderPart context bytes context.headerName
    fun context headerName => { context with headerName }

def onHeaderFieldComplete (context : ParseContext) : Int × ParseContext :=
  (hpeOk, { context with headerName := lowercase context.headerName })

def onHeaderValue (context : ParseContext) (bytes : Bytes) : Int × ParseContext :=
  appendHeaderPart context bytes context.headerValue
    fun context headerValue => { context with headerValue }

/-- The fields that the server reads; others are only counted. -/
def storeHeader (context : ParseContext) (name value : Bytes) : ParseContext :=
  if name = bytes "content-type" then
    { context with
      contentTypeCount := context.contentTypeCount + 1
      request := { context.request with contentType := value } }
  else if name = bytes "authorization" then
    { context with
      authorizationCount := context.authorizationCount + 1
      request := { context.request with authorization := value } }
  else if name = bytes "content-encoding" then
    { context with request := { context.request with contentEncoding := lowercase value } }
  else if name = bytes "expect" then
    { context with request := { context.request with expect := lowercase value } }
  else context

def onHeaderValueComplete (context : ParseContext) : Int × ParseContext :=
  let context := { context with headerCount := context.headerCount + 1 }
  match addHeaderBytes context 4 with
  | (false, context) => (hpeUser, headersTooLarge context)
  | (true, context) =>
    if maxRequestHeaderCount < context.headerCount then (hpeUser, headersTooLarge context)
    else
      let context := storeHeader context context.headerName (trim context.headerValue)
      (hpeOk, { context with headerName := [], headerValue := [] })

def onHeadersComplete (context : ParseContext) (contentLength : Nat) : Int × ParseContext :=
  if 1 < context.authorizationCount ∨ 1 < context.contentTypeCount then
    (-1, context.fail 400 "invalid_http_request")
  else if context.requireBearer = true ∧ context.request.url ≠ bytes "/ui" ∧
      (context.bearerToken.any (authorized context.request.authorization)) = false then
    (-1, context.fail 401 "unauthorized")
  else if maxRequestBodyBytes < contentLength then
    (-1, context.fail 413 "request_too_large")
  else if context.request.expect ≠ [] then
    (-1, context.fail 417 "expectation_not_supported")
  else if context.request.contentEncoding ≠ [] ∧
      context.request.contentEncoding ≠ bytes "identity" then
    (-1, context.fail 415 "unsupported_content_encoding")
  else (0, context)

def onBody (context : ParseContext) (bytes : Bytes) : Int × ParseContext :=
  if maxRequestBodyBytes - context.request.body.length < bytes.length then
    (hpeUser, context.fail 413 "request_too_large")
  else
    let body := context.request.body ++ bytes
    (hpeOk, { context with request := { context.request with body } })

def onMessageComplete (context : ParseContext) : Int × ParseContext :=
  (hpePaused, { context with complete := true })

/-! ## The parse -/

inductive Span where
  | method | url | version | headerField | headerValue | body
  deriving DecidableEq, Repr

inductive Signal where
  | headerFieldComplete
  | headerValueComplete
  /-- With the value of the Content-Length field, or zero. -/
  | headersComplete (contentLength : Nat)
  | messageComplete
  deriving DecidableEq, Repr

/-- A callback of the parser. -/
abbrev ParserEvent := Event Span Byte Signal

def callback (context : ParseContext) : ParserEvent → Int × ParseContext
  | .span .method bytes => onMethod context bytes
  | .span .url bytes => onUrl context bytes
  | .span .version bytes => onVersion context bytes
  | .span .headerField bytes => onHeaderField context bytes
  | .span .headerValue bytes => onHeaderValue context bytes
  | .span .body bytes => onBody context bytes
  | .signal .headerFieldComplete => onHeaderFieldComplete context
  | .signal .headerValueComplete => onHeaderValueComplete context
  | .signal (.headersComplete contentLength) => onHeadersComplete context contentLength
  | .signal .messageComplete => onMessageComplete context

/-- The callbacks up to the first one that returns nonzero. -/
def runCallbacks (context : ParseContext) : List ParserEvent → Int × ParseContext
  | [] => (hpeOk, context)
  | event :: events =>
    match callback context event with
    | (result, context) => if result ≠ hpeOk then (result, context) else runCallbacks context events

/-- What ends the connection when no callback does. -/
inductive Ending where
  | timeout
  | closed
  | receiveError
  /-- An error of the parser itself. -/
  | malformed
  deriving DecidableEq, Repr

def endingFailure (context : ParseContext) : Ending → ParseContext
  | .timeout => context.fail 408 "request_timeout"
  | .closed | .receiveError | .malformed => context.fail 400 "invalid_http_request"

def initialContext (requireBearer : Bool) (bearerToken : Bytes) : ParseContext :=
  { requireBearer, bearerToken := some bearerToken }

/-- `events` are the callbacks that the received bytes lead to. -/
def receiveRequest (requireBearer : Bool) (bearerToken : Bytes) (events : List ParserEvent)
    (ending : Ending) : ParseResult :=
  let context := (runCallbacks (initialContext requireBearer bearerToken) events).2
  if context.complete then ⟨context.request, 0, []⟩
  else
    let context := if context.failureStatus = 0 then endingFailure context ending else context
    ⟨{}, context.failureStatus, context.failureCode⟩

end Branchscore.Server
