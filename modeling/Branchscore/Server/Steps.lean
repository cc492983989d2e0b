import Branchscore.Server.Callbacks

/-!
# What the callbacks do

One equation for each callback: it takes its data, or it ends the parse with the answer the
server gives. A span is checked against its own limit before the limit of the header section.
-/

namespace Branchscore.Server

open Foundation Foundation.Fragmentation Outcome
set_option autoImplicit false

/-! ## Outcomes -/

/-- How the callbacks ended the parse. -/
inductive Stop where
  | completed (request : HttpRequest)
  | failed (status : Nat) (code : Bytes)
  deriving DecidableEq, Repr

def ParseContext.stop (context : ParseContext) : Stop :=
  if context.complete then .completed context.request
  else .failed context.failureStatus context.failureCode

/-- The context, or how a nonzero result ended the parse. -/
def outcome : Int × ParseContext → Except Stop ParseContext
  | (result, context) => if result = hpeOk then .ok context else .error context.stop

def step (context : ParseContext) (event : ParserEvent) : Except Stop ParseContext :=
  outcome (callback context event)

theorem outcome_runCallbacks (context : ParseContext) (events : List ParserEvent) :
    outcome (runCallbacks context events) = events.foldlM step context := by
  induction events generalizing context with
  | nil => rfl
  | cons event events ih =>
    rw [runCallbacks, List.foldlM_cons, step]
    rcases callback context event with ⟨result, context'⟩
    dsimp only [outcome]
    by_cases hresult : result = hpeOk
    · rw [if_pos hresult, if_neg (not_not.mpr hresult)]
      exact ih context'
    · rw [if_neg hresult, if_pos hresult]
      dsimp only
      rw [if_neg hresult]
      rfl

/-! ## Spans -/

namespace ParseContext

/-- The context with the data of an accepted span. -/
def take (context : ParseContext) : Span → Bytes → ParseContext
  | .method, data => { context with
      headerBytes := context.headerBytes + data.length
      request := { context.request with method := context.request.method ++ data } }
  | .url, data => { context with
      headerBytes := context.headerBytes + data.length
      request := { context.request with url := context.request.url ++ data } }
  | .version, data => { context with headerBytes := context.headerBytes + data.length }
  | .headerField, data => { context with
      headerBytes := context.headerBytes + data.length
      headerName := context.headerName ++ data }
  | .headerValue, data => { context with
      headerBytes := context.headerBytes + data.length
      headerValue := context.headerValue ++ data }
  | .body, data => { context with
      request := { context.request with body := context.request.body ++ data } }

/-- That many more bytes exceed the limit of the span itself. -/
def OverOwn (context : ParseContext) : Span → Nat → Prop
  | .method, count => 32 - min 32 context.request.method.length < count
  | .url, count => 4096 - min 4096 context.request.url.length < count
  | .version, _ => False
  | .headerField, count =>
    maxRequestHeaderBytes - min maxRequestHeaderBytes context.headerName.length < count
  | .headerValue, count =>
    maxRequestHeaderBytes - min maxRequestHeaderBytes context.headerValue.length < count
  | .body, count => maxRequestBodyBytes - context.request.body.length < count

/-- That many more bytes exceed the limit of the header section. -/
def OverHeader (context : ParseContext) : Span → Nat → Prop
  | .body, _ => False
  | _, count => maxRequestHeaderBytes - context.headerBytes < count

end ParseContext

open ParseContext

theorem take_complete (context : ParseContext) (kind : Span) (data : Bytes) :
    (context.take kind data).complete = context.complete := by
  cases kind <;> rfl

/-- How a span that exceeds its own limit ends the parse. -/
def Span.stop : Span → Stop
  | .method | .url => .failed 414 (bytes "request_target_too_large")
  | .version | .headerField | .headerValue => .failed 431 (bytes "headers_too_large")
  | .body => .failed 413 (bytes "request_too_large")

def headersStop : Stop := .failed 431 (bytes "headers_too_large")

/-- What a span does: it is checked against its own limit, then against the limit of the
header section. -/
inductive Takes (context : ParseContext) (kind : Span) (data : Bytes) :
    Except Stop ParseContext → Prop where
  | overOwn : context.OverOwn kind data.length → Takes context kind data (.error kind.stop)
  | overHeader : ¬context.OverOwn kind data.length → context.OverHeader kind data.length →
      Takes context kind data (.error headersStop)
  | taken : ¬context.OverOwn kind data.length → ¬context.OverHeader kind data.length →
      Takes context kind data (.ok (context.take kind data))

theorem outcome_fail {context : ParseContext} (hincomplete : context.complete = false)
    {result : Int} (hresult : result ≠ hpeOk) (status : Nat) (code : String) :
    outcome (result, context.fail status code) = .error (.failed status (bytes code)) := by
  rw [outcome, if_neg hresult, ParseContext.stop, ParseContext.fail]
  dsimp only
  rw [hincomplete]
  rfl

theorem hpeUser_ne_ok : hpeUser ≠ hpeOk := by decide

theorem addHeaderBytes_cases (context : ParseContext) (count : Nat) :
    (maxRequestHeaderBytes - context.headerBytes < count ∧
      addHeaderBytes context count = (false, headersTooLarge context)) ∨
    (¬maxRequestHeaderBytes - context.headerBytes < count ∧ addHeaderBytes context count =
      (true, { context with headerBytes := context.headerBytes + count })) := by
  unfold addHeaderBytes
  split
  · exact Or.inl ⟨‹_›, rfl⟩
  · exact Or.inr ⟨‹_›, rfl⟩

/-- What a callback for a span does: it refuses it for its own limit or for the limit of the
header section, and changes nothing but the answer, or it takes it. -/
inductive Called (context : ParseContext) (kind : Span) (data : Bytes) : Int × ParseContext → Prop where
  | overOwn {status : Nat} {code : String} : context.OverOwn kind data.length →
      kind.stop = .failed status (bytes code) →
      Called context kind data (hpeUser, context.fail status code)
  | overHeader : ¬context.OverOwn kind data.length → context.OverHeader kind data.length →
      Called context kind data (hpeUser, headersTooLarge context)
  | taken : ¬context.OverOwn kind data.length → ¬context.OverHeader kind data.length →
      Called context kind data (hpeOk, context.take kind data)

section Parts
variable {context : ParseContext} {data : Bytes}

theorem requestLinePart_called {kind : Span} {destination : Bytes} {maxLength : Nat}
    {store : Bytes → HttpRequest}
    (hown : context.OverOwn kind data.length ↔
      maxLength - min maxLength destination.length < data.length)
    (hheader : context.OverHeader kind data.length ↔
      maxRequestHeaderBytes - context.headerBytes < data.length)
    (hstop : kind.stop = .failed 414 (bytes "request_target_too_large"))
    (htake : context.take kind data = { context with
      headerBytes := context.headerBytes + data.length
      request := store (destination ++ data) }) :
    Called context kind data (appendRequestLinePart context data destination maxLength store) := by
  unfold appendRequestLinePart
  split
  · exact .overOwn (hown.mpr ‹_›) hstop
  · rcases addHeaderBytes_cases context data.length with ⟨hover, he⟩ | ⟨hover, he⟩
    · rw [he]
      exact .overHeader (hown.not.mpr ‹_›) (hheader.mpr hover)
    · have htaken := Called.taken (hown.not.mpr ‹_›) (hheader.not.mpr hover)
      rw [htake] at htaken
      rw [he]
      exact htaken

theorem headerPart_called {kind : Span} {destination : Bytes}
    {store : ParseContext → Bytes → ParseContext}
    (hown : context.OverOwn kind data.length ↔
      maxRequestHeaderBytes - min maxRequestHeaderBytes destination.length < data.length)
    (hheader : context.OverHeader kind data.length ↔
      maxRequestHeaderBytes - context.headerBytes < data.length)
    (hstop : kind.stop = headersStop)
    (htake : context.take kind data = store { context with
      headerBytes := context.headerBytes + data.length } (destination ++ data)) :
    Called context kind data (appendHeaderPart context data destination store) := by
  unfold appendHeaderPart
  split
  · exact .overOwn (hown.mpr ‹_›) hstop
  · rcases addHeaderBytes_cases context data.length with ⟨hover, he⟩ | ⟨hover, he⟩
    · rw [he]
      exact .overHeader (hown.not.mpr ‹_›) (hheader.mpr hover)
    · have htaken := Called.taken (hown.not.mpr ‹_›) (hheader.not.mpr hover)
      rw [htake] at htaken
      rw [he]
      exact htaken

theorem callback_span (context : ParseContext) (kind : Span) (data : Bytes) :
    Called context kind data (callback context (.span kind data)) := by
  cases kind with
  | method =>
    simp only [callback, onMethod]
    apply requestLinePart_called <;> rfl
  | url =>
    simp only [callback, onUrl]
    apply requestLinePart_called <;> rfl
  | headerField =>
    simp only [callback, onHeaderField]
    apply headerPart_called <;> rfl
  | headerValue =>
    simp only [callback, onHeaderValue]
    apply headerPart_called <;> rfl
  | version =>
    simp only [callback, onVersion]
    rcases addHeaderBytes_cases context data.length with ⟨hover, he⟩ | ⟨hover, he⟩
    · rw [he]
      exact .overHeader not_false hover
    · rw [he]
      exact .taken not_false hover
  | body =>
    simp only [callback, onBody]
    split
    · exact .overOwn ‹_› rfl
    · exact .taken ‹_› not_false

variable (hincomplete : context.complete = false)
include hincomplete

theorem step_span (kind : Span) (data : Bytes) :
    Takes context kind data (step context (.span kind data)) := by
  have hcalled := callback_span context kind data
  unfold step
  generalize callback context (.span kind data) = result at hcalled ⊢
  cases hcalled with
  | overOwn hown hstop =>
    rw [outcome_fail hincomplete hpeUser_ne_ok, ← hstop]
    exact .overOwn hown
  | overHeader hown hheader =>
    rw [headersTooLarge, outcome_fail hincomplete hpeUser_ne_ok]
    exact .overHeader hown hheader
  | taken hown hheader => exact .taken hown hheader

theorem step_overOwn {kind : Span} (hown : context.OverOwn kind data.length) :
    step context (.span kind data) = .error kind.stop := by
  have h := step_span hincomplete kind data
  generalize step context (.span kind data) = result at h ⊢
  cases h with
  | overOwn => rfl
  | overHeader hnot => exact absurd hown hnot
  | taken hnot => exact absurd hown hnot

theorem step_overHeader {kind : Span} (hown : ¬context.OverOwn kind data.length)
    (hheader : context.OverHeader kind data.length) :
    step context (.span kind data) = .error headersStop := by
  have h := step_span hincomplete kind data
  generalize step context (.span kind data) = result at h ⊢
  cases h with
  | overOwn hover => exact absurd hover hown
  | overHeader => rfl
  | taken _ hnot => exact absurd hheader hnot

theorem step_taken {kind : Span} (hown : ¬context.OverOwn kind data.length)
    (hheader : ¬context.OverHeader kind data.length) :
    step context (.span kind data) = .ok (context.take kind data) := by
  have h := step_span hincomplete kind data
  generalize step context (.span kind data) = result at h ⊢
  cases h with
  | overOwn hover => exact absurd hover hown
  | overHeader _ hover => exact absurd hover hheader
  | taken => rfl

theorem take_of_step {kind : Span} {context' : ParseContext}
    (h : step context (.span kind data) = .ok context') :
    context' = context.take kind data ∧ ¬context.OverOwn kind data.length ∧
      ¬context.OverHeader kind data.length := by
  have htakes := step_span hincomplete kind data
  rw [h] at htakes
  cases htakes with
  | taken hown hheader => exact ⟨rfl, hown, hheader⟩

end Parts

/-! ## A span in two pieces -/

section Pieces
variable {context : ParseContext} {kind : Span} {data rest : Bytes}

theorem overOwn_zero : ¬context.OverOwn kind 0 := by
  cases kind <;> simp [OverOwn]

theorem overHeader_zero : ¬context.OverHeader kind 0 := by
  cases kind <;> simp [OverHeader]

theorem take_nil : context.take kind [] = context := by
  cases kind <;> simp [take]

theorem take_append : context.take kind (data ++ rest) = (context.take kind data).take kind rest := by
  cases kind <;> simp [take, Nat.add_assoc]

theorem overOwn_append (h : ¬context.OverOwn kind data.length) :
    (context.take kind data).OverOwn kind rest.length ↔
      context.OverOwn kind (data ++ rest).length := by
  cases kind <;> simp only [OverOwn, take, List.length_append] at h ⊢ <;> omega

theorem overOwn_mono (h : context.OverOwn kind data.length) :
    context.OverOwn kind (data ++ rest).length := by
  cases kind <;> simp only [OverOwn, List.length_append] at h ⊢ <;> omega

theorem overHeader_append (h : ¬context.OverHeader kind data.length) :
    (context.take kind data).OverHeader kind rest.length ↔
      context.OverHeader kind (data ++ rest).length := by
  cases kind <;> simp only [OverHeader, take, List.length_append] at h ⊢ <;> omega

theorem overHeader_mono (h : context.OverHeader kind data.length) :
    context.OverHeader kind (data ++ rest).length := by
  cases kind <;> simp only [OverHeader, List.length_append] at h ⊢ <;> omega

end Pieces

/-! ## Signals -/

section Signals
variable {context context' : ParseContext}

/-- The context behind a header field. -/
def ParseContext.closeField (context : ParseContext) : ParseContext :=
  let counted := { context with
    headerCount := context.headerCount + 1
    headerBytes := context.headerBytes + 4 }
  { storeHeader counted context.headerName (trim context.headerValue) with
    headerName := []
    headerValue := [] }

/-- What the header section has to satisfy. -/
structure Passes (context : ParseContext) (contentLength : Nat) : Prop where
  authorization : context.authorizationCount ≤ 1
  contentType : context.contentTypeCount ≤ 1
  bearer : context.requireBearer = true → context.request.url ≠ bytes "/ui" →
    context.bearerToken.any (authorized context.request.authorization) = true
  bodyLimit : contentLength ≤ maxRequestBodyBytes
  expect : context.request.expect = []
  encoding : context.request.contentEncoding = [] ∨
    context.request.contentEncoding = bytes "identity"

theorem storeHeader_complete (name value : Bytes) :
    (storeHeader context name value).complete = context.complete := by
  unfold storeHeader
  split_ifs <;> rfl

theorem step_headerFieldComplete : step context (.signal .headerFieldComplete) =
    .ok { context with headerName := lowercase context.headerName } := rfl

theorem step_headerValueComplete (hincomplete : context.complete = false) :
    step context (.signal .headerValueComplete) =
      if maxRequestHeaderBytes - context.headerBytes < 4 ∨
        maxRequestHeaderCount < context.headerCount + 1 then .error headersStop
      else .ok context.closeField := by
  simp only [step, callback, onHeaderValueComplete]
  rcases addHeaderBytes_cases { context with headerCount := context.headerCount + 1 } 4 with
    ⟨hover, he⟩ | ⟨hover, he⟩
  · rw [he, if_pos (Or.inl hover)]
    exact outcome_fail hincomplete hpeUser_ne_ok 431 "headers_too_large"
  · rw [he]
    dsimp only at hover ⊢
    by_cases hcount : maxRequestHeaderCount < context.headerCount + 1
    · rw [if_pos hcount, if_pos (Or.inr hcount)]
      exact outcome_fail hincomplete hpeUser_ne_ok 431 "headers_too_large"
    · rw [if_neg hcount, if_neg (not_or.mpr ⟨hover, hcount⟩)]
      rfl

theorem step_headersComplete {contentLength : Nat} :
    step context (.signal (.headersComplete contentLength)) = .ok context' ↔
      context' = context ∧ Passes context contentLength := by
  have herror (status : Nat) (code : String) :
      outcome (-1, context.fail status code) ≠ .ok context' := nofun
  simp only [step, callback, onHeadersComplete]
  split_ifs with hcount hbearer hlength hexpect hencoding
  · exact iff_of_false (herror _ _) fun h => by
      have := h.2.authorization
      have := h.2.contentType
      omega
  · exact iff_of_false (herror _ _) fun h => by
      rw [h.2.bearer hbearer.1 hbearer.2.1] at hbearer
      exact Bool.noConfusion hbearer.2.2
  · exact iff_of_false (herror _ _) fun h => Nat.not_lt.mpr h.2.bodyLimit hlength
  · exact iff_of_false (herror _ _) fun h => hexpect h.2.expect
  · exact iff_of_false (herror _ _) fun h => h.2.encoding.elim hencoding.1 hencoding.2
  · constructor
    · intro h
      simp only [not_or, not_and, Nat.not_lt, Bool.not_eq_false] at hcount hbearer hlength
      simp only [ne_eq, not_not, not_and] at hexpect hencoding
      exact ⟨(Except.ok.inj h).symm, {
        authorization := hcount.1
        contentType := hcount.2
        bearer := hbearer
        bodyLimit := hlength
        expect := hexpect
        encoding := or_iff_not_imp_left.mpr hencoding }⟩
    · rintro ⟨rfl, _⟩
      rfl

theorem step_messageComplete : step context (.signal .messageComplete) =
    .error (.completed context.request) := rfl

theorem step_incomplete {event : ParserEvent} (h : step context event = .ok context')
    (hincomplete : context.complete = false) : context'.complete = false := by
  cases event with
  | span kind data =>
    obtain ⟨rfl, _, _⟩ := take_of_step hincomplete h
    rw [take_complete, hincomplete]
  | signal signal =>
    cases signal with
    | headerFieldComplete =>
      cases h
      exact hincomplete
    | headerValueComplete =>
      rw [step_headerValueComplete hincomplete] at h
      split_ifs at h
      cases h
      exact (storeHeader_complete _ _).trans hincomplete
    | headersComplete contentLength =>
      rw [(step_headersComplete.mp h).1]
      exact hincomplete
    | messageComplete => cases h

theorem storeHeader_failure (name value : Bytes) :
    (storeHeader context name value).failureStatus = context.failureStatus := by
  unfold storeHeader
  split_ifs <;> rfl

theorem take_failure (kind : Span) (data : Bytes) :
    (context.take kind data).failureStatus = context.failureStatus := by
  cases kind <;> rfl

theorem step_failure {event : ParserEvent} (h : step context event = .ok context')
    (hincomplete : context.complete = false) :
    context'.failureStatus = context.failureStatus := by
  cases event with
  | span kind data =>
    obtain ⟨rfl, _, _⟩ := take_of_step hincomplete h
    rw [take_failure]
  | signal signal =>
    cases signal with
    | headerFieldComplete =>
      cases h
      rfl
    | headerValueComplete =>
      rw [step_headerValueComplete hincomplete] at h
      split_ifs at h
      cases h
      exact storeHeader_failure _ _
    | headersComplete contentLength => rw [(step_headersComplete.mp h).1]
    | messageComplete => cases h

theorem Span.stop_failed (kind : Span) : ∃ status code, kind.stop = .failed status code ∧
    status ≠ 0 := by
  cases kind <;> exact ⟨_, _, rfl, by decide⟩

/-- Only the end of the message completes the request, and a failed parse has a status. -/
theorem step_stop {event : ParserEvent} {stop : Stop} (h : step context event = .error stop)
    (hincomplete : context.complete = false) :
    (event = .signal .messageComplete ∧ stop = .completed context.request) ∨
      ∃ status code, stop = .failed status code ∧ status ≠ 0 := by
  cases event with
  | span kind data =>
    have htakes := step_span hincomplete kind data
    rw [h] at htakes
    cases htakes with
    | overOwn => exact Or.inr kind.stop_failed
    | overHeader => exact Or.inr ⟨_, _, rfl, by decide⟩
  | signal signal =>
    cases signal with
    | headerFieldComplete => cases h
    | headerValueComplete =>
      rw [step_headerValueComplete hincomplete] at h
      split_ifs at h
      cases h
      exact Or.inr ⟨_, _, rfl, by decide⟩
    | headersComplete contentLength =>
      have hfail := @outcome_fail context hincomplete (-1) (by decide)
      simp only [step, callback, onHeadersComplete] at h
      split_ifs at h
      iterate 5
        rw [hfail] at h
        cases h
        exact Or.inr ⟨_, _, rfl, by decide⟩
      cases h
    | messageComplete =>
      cases h
      exact Or.inl ⟨rfl, rfl⟩

end Signals

/-! ## The whole parse -/

/-- What the server makes of the end of the callbacks. -/
def received (ending : Ending) : Except Stop ParseContext → ParseResult
  | .error (.completed request) => ⟨request, 0, []⟩
  | .error (.failed status code) => ⟨{}, status, code⟩
  | .ok context =>
    let failed := endingFailure context ending
    ⟨{}, failed.failureStatus, failed.failureCode⟩

theorem foldlM_step_spec {context : ParseContext} (hincomplete : context.complete = false)
    (hfailure : context.failureStatus = 0) (events : List ParserEvent) :
    match events.foldlM step context with
    | .ok context' => context'.complete = false ∧ context'.failureStatus = 0
    | .error (.failed status _) => status ≠ 0
    | .error (.completed _) => True := by
  induction events generalizing context with
  | nil => exact ⟨hincomplete, hfailure⟩
  | cons event events ih =>
    rw [List.foldlM_cons]
    cases hstep : step context event with
    | ok context' =>
      exact ih (step_incomplete hstep hincomplete)
        ((step_failure hstep hincomplete).trans hfailure)
    | error stop =>
      rcases step_stop hstep hincomplete with ⟨_, rfl⟩ | ⟨status, code, rfl, hstatus⟩
      · trivial
      · exact hstatus

/-- Nothing is completed before the end of the message. -/
theorem foldlM_not_completed {context : ParseContext} (hincomplete : context.complete = false)
    {events : List ParserEvent} (hevents : Event.signal Signal.messageComplete ∉ events)
    (request : HttpRequest) : events.foldlM step context ≠ .error (.completed request) := by
  induction events generalizing context with
  | nil => exact nofun
  | cons event events ih =>
    rw [List.foldlM_cons]
    cases hstep : step context event with
    | ok context' =>
      exact ih (step_incomplete hstep hincomplete)
        fun hmem => hevents (List.mem_cons_of_mem _ hmem)
    | error stop =>
      rcases step_stop hstep hincomplete with ⟨rfl, _⟩ | ⟨status, code, rfl, _⟩
      · exact absurd List.mem_cons_self hevents
      · exact nofun

/-- A completed request is the one received before the end of the message. -/
theorem foldlM_completed {context : ParseContext} (hincomplete : context.complete = false)
    {events : List ParserEvent} (hevents : Event.signal Signal.messageComplete ∉ events)
    {request : HttpRequest}
    (h : (events ++ [Event.signal Signal.messageComplete]).foldlM step context =
      .error (.completed request)) :
    ∃ final, events.foldlM step context = .ok final ∧ request = final.request := by
  rw [List.foldlM_append, bind_eq_error] at h
  rcases h with h | ⟨final, hfinal, h⟩
  · exact absurd h (foldlM_not_completed hincomplete hevents request)
  · rw [List.foldlM_cons, step_messageComplete] at h
    cases h
    exact ⟨final, hfinal, rfl⟩

theorem receiveRequest_eq (requireBearer : Bool) (bearerToken : Bytes) (events : List ParserEvent)
    (ending : Ending) : receiveRequest requireBearer bearerToken events ending =
      received ending (events.foldlM step (initialContext requireBearer bearerToken)) := by
  have hspec := @foldlM_step_spec (initialContext requireBearer bearerToken) rfl rfl events
  rw [← outcome_runCallbacks] at hspec ⊢
  unfold receiveRequest
  generalize runCallbacks (initialContext requireBearer bearerToken) events = run at hspec ⊢
  obtain ⟨result, context⟩ := run
  dsimp only [outcome] at hspec ⊢
  by_cases hresult : result = hpeOk
  · rw [if_pos hresult] at hspec ⊢
    obtain ⟨hincomplete, hfailure⟩ := hspec
    rw [hincomplete, hfailure, if_neg Bool.false_ne_true, if_pos rfl]
    rfl
  · rw [if_neg hresult, ParseContext.stop] at hspec ⊢
    by_cases hcomplete : context.complete = true
    · rw [if_pos hcomplete, if_pos hcomplete]
      rfl
    · rw [if_neg hcomplete] at hspec
      rw [if_neg hcomplete, if_neg hcomplete, if_neg hspec]
      rfl

end Branchscore.Server
