import Branchscore.Server.Accounting
import Branchscore.Server.Bearer

/-!
# The request that needs no token

The page is meant for anyone who asks for it with GET. The check of the header section looks
at the target alone, and the method is looked at when the request has been received.
-/

namespace Branchscore.Server

open Foundation Foundation.Fragmentation Outcome
set_option autoImplicit false

/-! ## Asking for a token -/

/-- The context of a server that asks for a token or does not. -/
def ParseContext.asking (context : ParseContext) (requireBearer : Bool) : ParseContext :=
  { context with requireBearer }

section Asking
variable {context : ParseContext} {requireBearer : Bool}

theorem asking_span (hincomplete : context.complete = false) (kind : Span) (data : Bytes) :
    step (context.asking requireBearer) (.span kind data) =
      (step context (.span kind data)).map (·.asking requireBearer) := by
  have hincomplete' : (context.asking requireBearer).complete = false := hincomplete
  have hown : (context.asking requireBearer).OverOwn kind data.length ↔
      context.OverOwn kind data.length := by cases kind <;> rfl
  have hheader : (context.asking requireBearer).OverHeader kind data.length ↔
      context.OverHeader kind data.length := by cases kind <;> rfl
  by_cases hover : context.OverOwn kind data.length
  · rw [step_overOwn hincomplete hover, step_overOwn hincomplete' (hown.mpr hover)]
    rfl
  by_cases hover' : context.OverHeader kind data.length
  · rw [step_overHeader hincomplete hover hover',
      step_overHeader hincomplete' (hown.not.mpr hover) (hheader.mpr hover')]
    rfl
  · rw [step_taken hincomplete hover hover',
      step_taken hincomplete' (hown.not.mpr hover) (hheader.not.mpr hover')]
    cases kind <;> rfl

theorem asking_storeHeader (name value : Bytes) :
    storeHeader (context.asking requireBearer) name value =
      (storeHeader context name value).asking requireBearer := by
  simp only [storeHeader, ParseContext.asking]
  split_ifs <;> rfl

/-- Whether a token is asked for matters at the end of the header section only. -/
theorem asking_step (hincomplete : context.complete = false) {event : ParserEvent}
    (hevent : ∀ contentLength, event ≠ .signal (.headersComplete contentLength)) :
    step (context.asking requireBearer) event =
      (step context event).map (·.asking requireBearer) := by
  cases event with
  | span kind data => exact asking_span hincomplete kind data
  | signal signal =>
    cases signal with
    | headerFieldComplete => rfl
    | headerValueComplete =>
      rw [step_headerValueComplete hincomplete, step_headerValueComplete (by exact hincomplete)]
      have hclose : (context.asking requireBearer).closeField =
          context.closeField.asking requireBearer := by
        have hstore := @asking_storeHeader { context with
          headerCount := context.headerCount + 1
          headerBytes := context.headerBytes + 4 } requireBearer context.headerName
            (trim context.headerValue)
        simp only [ParseContext.closeField, ParseContext.asking] at hstore ⊢
        rw [hstore]
      have hbytes : (context.asking requireBearer).headerBytes = context.headerBytes := rfl
      have hcount : (context.asking requireBearer).headerCount = context.headerCount := rfl
      rw [hclose, hbytes, hcount]
      by_cases hlimit : maxRequestHeaderBytes - context.headerBytes < 4 ∨
          maxRequestHeaderCount < context.headerCount + 1
      · rw [if_pos hlimit, if_pos hlimit]
        rfl
      · rw [if_neg hlimit, if_neg hlimit]
        rfl
    | headersComplete contentLength => exact absurd rfl (hevent contentLength)
    | messageComplete => rfl

theorem asking_foldlM {events : List ParserEvent} (hincomplete : context.complete = false)
    (hevents : ∀ contentLength, .signal (.headersComplete contentLength) ∉ events) :
    events.foldlM step (context.asking requireBearer) =
      (events.foldlM step context).map (·.asking requireBearer) := by
  induction events generalizing context with
  | nil => rfl
  | cons event events ih =>
    have hevent : ∀ contentLength, event ≠ .signal (.headersComplete contentLength) :=
      fun contentLength he => hevents contentLength (he ▸ List.mem_cons_self)
    rw [List.foldlM_cons, List.foldlM_cons, asking_step hincomplete hevent]
    cases hstep : step context event with
    | error stop => rfl
    | ok next =>
      exact ih (step_incomplete hstep hincomplete)
        fun contentLength hmem => hevents contentLength (List.mem_cons_of_mem event hmem)

end Asking

/-! ## The header section without a token -/

/-- The events in front of the end of the header section. -/
def Message.fieldEvents (m : Message) : List ParserEvent :=
  m.requestLine ++ m.headers.flatMap HeaderField.events

theorem head_eq_fieldEvents (m : Message) :
    m.head = m.fieldEvents ++ [.signal (.headersComplete m.contentLength)] := by
  rw [Message.head, Message.fieldEvents, List.append_assoc]

theorem headersComplete_notMem_fields (contentLength : Nat) (fields : List HeaderField) :
    Event.signal (Signal.headersComplete contentLength) ∉ fields.flatMap HeaderField.events := by
  simp [HeaderField.events]

theorem headersComplete_notMem_fieldEvents (m : Message) (contentLength : Nat) :
    Event.signal (Signal.headersComplete contentLength) ∉ m.fieldEvents := by
  intro hmem
  rcases List.mem_append.mp hmem with hline | hfields
  · simp [Message.requestLine] at hline
  · exact headersComplete_notMem_fields contentLength m.headers hfields

theorem headersComplete_notMem_rest (m : Message) (contentLength : Nat) :
    Event.signal (Signal.headersComplete contentLength) ∉ m.rest := by
  intro hmem
  rcases List.mem_append.mp hmem with hbody | hrest
  · simp at hbody
  · rcases List.mem_append.mp hrest with hfields | hend
    · exact headersComplete_notMem_fields contentLength m.trailers hfields
    · simp at hend

/-- The header section is accepted where no token is asked for. -/
def Acceptable (token : Bytes) (m : Message) : Prop :=
  ∃ context, outcome (runCallbacks (initialContext false token) m.head) = .ok context

/-- The token that the server asks for is not in the header section. -/
def Unauthenticated (token : Bytes) (m : Message) : Prop :=
  authorized ((lastText (bytes "authorization") m.headers).getD []) token = false

section Head
variable {token : Bytes} {m : Message}

theorem step_unauthorized {context : ParseContext} {contentLength : Nat}
    (hincomplete : context.complete = false) (hpasses : Passes context contentLength)
    (htoken : context.bearerToken = some token) (hurl : context.request.url ≠ bytes "/ui")
    (hunauthorized : authorized context.request.authorization token = false) :
    step (context.asking true) (.signal (.headersComplete contentLength)) =
      .error (.failed 401 (bytes "unauthorized")) := by
  have hcount : ¬(1 < context.authorizationCount ∨ 1 < context.contentTypeCount) := by
    have := hpasses.authorization
    have := hpasses.contentType
    omega
  have hbearer : (context.bearerToken.any (authorized context.request.authorization)) = false := by
    rw [htoken, Option.any_some, hunauthorized]
  simp only [step, callback, onHeadersComplete, ParseContext.asking]
  rw [if_neg hcount, if_pos ⟨trivial, hurl, hbearer⟩]
  exact outcome_fail (by exact hincomplete) (by decide) 401 "unauthorized"

/-- What a server that asks for a token makes of an acceptable header section without one. -/
theorem head_unauthenticated (h : Acceptable token m) (hunauthenticated : Unauthenticated token m) :
    ∃ context, Checked false token m context ∧
      m.head.foldlM step (initialContext true token) =
        if m.url.flatten = bytes "/ui" then .ok (context.asking true)
        else .error (.failed 401 (bytes "unauthorized")) := by
  obtain ⟨context, hhead⟩ := h
  rw [outcome_runCallbacks] at hhead
  have hchecked := head_eq_ok hhead
  refine ⟨context, hchecked, ?_⟩
  rw [head_eq_fieldEvents] at hhead ⊢
  obtain ⟨fields, hfields, hend⟩ := foldlM_append_eq_ok.mp hhead
  rw [List.foldlM_cons] at hend
  obtain ⟨last, hstep, hend⟩ := bind_eq_ok.mp hend
  cases hend
  obtain ⟨rfl, hpasses⟩ := step_headersComplete.mp hstep
  have hasking := @asking_foldlM (initialContext false token) true m.fieldEvents rfl
    (headersComplete_notMem_fieldEvents m)
  have hstart : (initialContext false token).asking true = initialContext true token := rfl
  rw [hfields, map_of_ok, hstart] at hasking
  rw [List.foldlM_append, hasking, ok_bind, List.foldlM_cons]
  have hincomplete := hchecked.between.incomplete
  by_cases hurl : m.url.flatten = bytes "/ui"
  · have hpasses' : Passes (context.asking true) m.contentLength :=
      ⟨hpasses.authorization, hpasses.contentType, fun _ hne => absurd (hchecked.url.trans hurl) hne,
        hpasses.bodyLimit, hpasses.expect, hpasses.encoding⟩
    rw [if_pos hurl, step_headersComplete.mpr ⟨rfl, hpasses'⟩]
    rfl
  · have hurl' : context.request.url ≠ bytes "/ui" := hchecked.url ▸ hurl
    have hunauthorized : authorized context.request.authorization token = false := by
      rw [hchecked.between.stores.authorization]
      exact hunauthenticated
    rw [if_neg hurl, step_unauthorized hincomplete hpasses hchecked.bearerToken hurl' hunauthorized]
    rfl

end Head

/-! ## The body -/

theorem callback_body {context : ParseContext} {event : ParserEvent}
    (h : ∀ data, event ≠ .span .body data) :
    (callback context event).2.request.body = context.request.body := by
  cases event with
  | span kind data =>
    have hcalled := callback_span context kind data
    generalize callback context (.span kind data) = result at hcalled ⊢
    cases hcalled with
    | overOwn => rfl
    | overHeader => rfl
    | taken =>
      cases kind with
      | body => exact absurd rfl (h data)
      | _ => rfl
  | signal signal =>
    cases signal with
    | headerFieldComplete => rfl
    | headerValueComplete =>
      have hends := callback_headerValueComplete context
      generalize callback context (.signal .headerValueComplete) = result at hends ⊢
      cases hends with
      | refused => rfl
      | tooMany => rfl
      | stored => exact closeField_counts.2.2.2.2
    | headersComplete contentLength =>
      rcases callback_headersComplete context contentLength with he | ⟨status, code, he⟩
      · rw [he]
      · rw [he]
        rfl
    | messageComplete => rfl

theorem runCallbacks_body {context : ParseContext} {events : List ParserEvent}
    (h : ∀ event ∈ events, ∀ data, event ≠ .span .body data) :
    (runCallbacks context events).2.request.body = context.request.body := by
  induction events generalizing context with
  | nil => rfl
  | cons event events ih =>
    have hfirst := @callback_body context event (h event List.mem_cons_self)
    rw [runCallbacks]
    generalize callback context event = result at hfirst ⊢
    dsimp only
    split_ifs
    · exact hfirst
    · exact (ih fun event' hmem => h event' (List.mem_cons_of_mem event hmem)).trans hfirst

/-- What has ended the parse, ends it whatever follows. -/
theorem runCallbacks_append_of_stop {context : ParseContext} {events rest : List ParserEvent}
    (h : (runCallbacks context events).1 ≠ hpeOk) :
    runCallbacks context (events ++ rest) = runCallbacks context events := by
  induction events generalizing context with
  | nil => exact absurd rfl h
  | cons event events ih =>
    rw [List.cons_append, runCallbacks, runCallbacks]
    rw [runCallbacks] at h
    generalize callback context event = result at h ⊢
    dsimp only at h ⊢
    by_cases hresult : result.1 ≠ hpeOk
    · rw [if_pos hresult, if_pos hresult]
    · rw [if_neg hresult] at h
      rw [if_neg hresult, if_neg hresult]
      exact ih h

theorem body_notMem_head (m : Message) : ∀ event ∈ m.head, ∀ data, event ≠ .span .body data := by
  intro event hmem data heq
  subst heq
  simp [Message.head, Message.requestLine, HeaderField.events] at hmem

/-! ## Who needs no token -/

section Exception
variable {D : Type} {service : Service D} {m : Message} {rest : List ParserEvent} {ending : Ending}

/-- Any other target is answered at the end of the header section. -/
theorem answered_unauthorized (hrequire : service.requireBearer = true)
    (hacceptable : Acceptable service.bearerToken m)
    (hunauthenticated : Unauthenticated service.bearerToken m)
    (hurl : m.url.flatten ≠ bytes "/ui") (rest : List ParserEvent) :
    AnswersOnly (handleConnection service (m.head ++ rest) ending) 401 ∧
      (runCallbacks (initialContext true service.bearerToken)
        (m.head ++ rest)).2.request.body = [] := by
  obtain ⟨context, _, hhead⟩ := head_unauthenticated hacceptable hunauthenticated
  rw [if_neg hurl] at hhead
  constructor
  · have hreceived : receiveRequest service.requireBearer service.bearerToken (m.head ++ rest)
        ending = ⟨{}, 401, bytes "unauthorized"⟩ := by
      rw [hrequire, receiveRequest_eq, List.foldlM_append, hhead]
      rfl
    have hanswer := @handleConnection_failed D service (m.head ++ rest) ending
      (by rw [hreceived]; exact Nat.succ_ne_zero 400)
    rwa [hreceived] at hanswer
  · rw [← outcome_runCallbacks] at hhead
    have hstop : (runCallbacks (initialContext true service.bearerToken) m.head).1 ≠ hpeOk := by
      intro hok
      rw [outcome, if_pos hok] at hhead
      cases hhead
    rw [runCallbacks_append_of_stop hstop]
    exact runCallbacks_body (body_notMem_head m)

/-- Behind the target of the page nothing is refused for a missing token. -/
theorem ui_not_unauthorized (hrequire : service.requireBearer = true)
    (hacceptable : Acceptable service.bearerToken m)
    (hunauthenticated : Unauthenticated service.bearerToken m)
    (hurl : m.url.flatten = bytes "/ui") (hrest : rest <+: m.rest) :
    ¬AnswersOnly (handleConnection service (m.head ++ rest) ending) 401 := by
  obtain ⟨context, hchecked, hhead⟩ := head_unauthenticated hacceptable hunauthenticated
  rw [if_pos hurl] at hhead
  have hevents : m.head ++ rest <+: m.events := (List.prefix_append_right_inj m.head).mpr hrest
  intro hanswer
  by_cases hstatus : (receiveRequest service.requireBearer service.bearerToken (m.head ++ rest)
      ending).status = 0
  · obtain ⟨request, hrun, hrequest⟩ := receiveRequest_completed hstatus
    rw [prefix_completed rfl hevents hrun] at hrun
    obtain ⟨checked, final, _, hchecked', rfl, _, hkeeps⟩ := events_completed hrun
    have htarget := hrequest ▸ (hkeeps.url.trans hchecked'.url).trans hurl
    rcases handleConnection_ui hstatus htarget with hother | hother | ⟨response, hlog⟩
    · exact absurd (hother.eq hanswer) (by decide)
    · exact absurd (hother.eq hanswer) (by decide)
    · obtain ⟨response', hlog'⟩ := hanswer
      rw [hlog] at hlog'
      cases hlog'
  · have hunauthorized := (handleConnection_failed hstatus).eq hanswer
    rw [hrequire, receiveRequest_eq, List.foldlM_append, hhead, ok_bind] at hunauthorized
    cases hrun : rest.foldlM step (context.asking true) with
    | ok last =>
      rw [hrun] at hunauthorized
      exact (ending_status ending).2 hunauthorized
    | error stop =>
      rw [hrun] at hunauthorized
      cases stop with
      | completed request => exact absurd (show (0 : Nat) = 401 from hunauthorized) (by decide)
      | failed status code =>
        obtain ⟨contentLength, hmem⟩ :=
          (@foldlM_status (context.asking true) rest status code hchecked.between.incomplete
            hrun).2 hunauthorized
        exact headersComplete_notMem_rest m contentLength (hrest.subset hmem)

/-- A request without the token, whose header section is acceptable otherwise, is the request
for the page, or it is answered 401 with no byte of its body read, if and only if it does not
ask for the page with another method. -/
theorem unauthenticated_iff (service : Service D) (hrequire : service.requireBearer = true)
    (m : Message) (hacceptable : Acceptable service.bearerToken m)
    (hunauthenticated : Unauthenticated service.bearerToken m) {rest : List ParserEvent}
    (hrest : rest <+: m.rest) (ending : Ending) :
    ((m.method.flatten = bytes "GET" ∧ m.url.flatten = bytes "/ui") ∨
      AnswersOnly (handleConnection service (m.head ++ rest) ending) 401 ∧
        (runCallbacks (initialContext true service.bearerToken)
          (m.head ++ rest)).2.request.body = []) ↔
    (m.url.flatten ≠ bytes "/ui" ∨ m.method.flatten = bytes "GET") := by
  by_cases hurl : m.url.flatten = bytes "/ui"
  · have hanswer := @ui_not_unauthorized D service m rest ending hrequire hacceptable
      hunauthenticated hurl hrest
    constructor
    · intro h
      rcases h with ⟨hmethod, _⟩ | ⟨hanswered, _⟩
      · exact Or.inr hmethod
      · exact absurd hanswered hanswer
    · intro h
      rcases h with hother | hmethod
      · exact absurd hurl hother
      · exact Or.inl ⟨hmethod, hurl⟩
  · constructor
    · intro _
      exact Or.inl hurl
    · intro _
      exact Or.inr (answered_unauthorized hrequire hacceptable hunauthenticated hurl rest)

end Exception

/-- The page asked for with POST, and a body nobody needs. -/
def postedPage : Message where
  method := [bytes "POST"]
  url := [bytes "/ui"]
  version := [bytes "1.1"]
  headers := []
  contentLength := 2
  body := [bytes "\x7b\x7d"]
  trailers := []

theorem postedPage_acceptable : Acceptable (bytes "secret") postedPage :=
  ⟨_, rfl⟩

theorem unauthenticated_fails :
    guarded.requireBearer = true ∧ Acceptable guarded.bearerToken postedPage ∧
    Unauthenticated guarded.bearerToken postedPage ∧
    ¬(postedPage.method.flatten = bytes "GET" ∧ postedPage.url.flatten = bytes "/ui") ∧
    AnswersOnly (handleConnection guarded postedPage.events .closed) 405 ∧
    (runCallbacks (initialContext true guarded.bearerToken) postedPage.events).2.request.body =
      bytes "\x7b\x7d" := by
  have hmethod : ¬(postedPage.method.flatten = bytes "GET" ∧
      postedPage.url.flatten = bytes "/ui") := by decide
  refine ⟨rfl, postedPage_acceptable, rfl, hmethod, ?_, by decide +kernel⟩
  apply handleConnection_ui_refused
  · decide +kernel
  · decide +kernel
  · decide +kernel

theorem unauthenticated_iff_sample :
    ¬AnswersOnly (handleConnection guarded (postedPage.head ++ []) .timeout) 401 := by
  have h := unauthenticated_iff guarded rfl postedPage postedPage_acceptable rfl
    (List.nil_prefix (l := postedPage.rest)) .timeout
  have hbody : (runCallbacks (initialContext true guarded.bearerToken)
      (postedPage.head ++ [])).2.request.body = [] := by decide +kernel
  have hfails : ¬(postedPage.url.flatten ≠ bytes "/ui" ∨
      postedPage.method.flatten = bytes "GET") := by decide
  exact fun hanswer => hfails (h.mp (Or.inr ⟨hanswer, hbody⟩))

end Branchscore.Server
