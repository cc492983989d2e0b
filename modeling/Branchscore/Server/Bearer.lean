import Branchscore.Server.Answers

/-!
# The bearer token

The token is checked once, at the end of the header section, against the one Authorization
field it may have. What is done with the request later relies on that check.
-/

namespace Branchscore.Server

open Foundation Foundation.Fragmentation Outcome
set_option autoImplicit false

/-! ## The comparison -/

theorem foldl_or_eq_zero {indices : List Nat} {f : Nat → Nat} {difference : Nat} :
    indices.foldl (fun difference index => difference ||| f index) difference = 0 ↔
      difference = 0 ∧ ∀ index ∈ indices, f index = 0 := by
  induction indices generalizing difference with
  | nil => simp
  | cons index indices ih =>
    rw [List.foldl_cons, ih, Nat.or_eq_zero_iff, List.forall_mem_cons, and_assoc]

/-- Padding does not make strings equal when one of them has no zero byte. -/
theorem eq_of_constantTimeEqual {left right : Bytes} (h : constantTimeEqual left right = true)
    (hleft : left.length < 2 ^ 32) (hright : 0 ∉ right) : left = right := by
  simp only [constantTimeEqual, decide_eq_true_eq] at h
  obtain ⟨hlength, hbytes⟩ := foldl_or_eq_zero.mp h
  have hpadded {index : Nat} (hindex : index < max left.length right.length) :
      left.getD index 0 = right.getD index 0 :=
    Fin.ext (Nat.xor_eq_zero_iff.mp (hbytes index (List.mem_range.mpr hindex)))
  have hle : right.length ≤ left.length := by
    by_contra hlt
    have hinside : left.length < right.length := Nat.lt_of_not_le hlt
    have hzero := hpadded (lt_max_of_lt_right hinside)
    rw [List.getD_eq_default _ _ (Nat.le_refl _), List.getD_eq_getElem _ _ hinside] at hzero
    exact hright (hzero ▸ List.getElem_mem hinside)
  have hequal : left.length = right.length := by
    rw [Nat.mod_eq_of_lt (Nat.xor_lt_two_pow hleft (hle.trans_lt hleft))] at hlength
    exact Nat.xor_eq_zero_iff.mp hlength
  apply List.ext_getElem hequal
  intro index hindex hindex'
  have hbyte := hpadded (lt_max_of_lt_left hindex)
  rwa [List.getD_eq_getElem _ _ hindex, List.getD_eq_getElem _ _ hindex'] at hbyte

theorem exists_trim (value : Bytes) : ∃ before after, value = before ++ trim value ++ after ∧
    (∀ b ∈ before, isspace b = true) ∧ ∀ b ∈ after, isspace b = true := by
  refine ⟨value.takeWhile isspace, ((value.dropWhile isspace).reverse.takeWhile isspace).reverse,
    ?_, ?_, ?_⟩
  · rw [List.append_assoc, trim, ← List.reverse_append, List.takeWhile_append_dropWhile,
      List.reverse_reverse, List.takeWhile_append_dropWhile]
  · intro b hb
    exact List.mem_takeWhile_imp hb
  · intro b hb
    exact List.mem_takeWhile_imp (List.mem_reverse.mp hb)

/-- The scheme in any case, a space, and the token, with optional whitespace around it. -/
def BearerToken (token value : Bytes) : Prop :=
  ∃ scheme before after, value = scheme ++ byte ' ' :: (before ++ token ++ after) ∧
    lowercase scheme = bytes "bearer" ∧ (∀ b ∈ before, isspace b = true) ∧
    ∀ b ∈ after, isspace b = true

theorem authorized_sound {token value : Bytes} (h : authorized value token = true)
    (hlength : value.length < 2 ^ 32) (htoken : 0 ∉ token) : BearerToken token value := by
  unfold authorized at h
  cases hspace : value.findIdx? (· = byte ' ') with
  | none =>
    rw [hspace] at h
    cases h
  | some space =>
    rw [hspace] at h
    dsimp only at h
    split_ifs at h with hscheme
    have hequal := (Bool.and_eq_true _ _ ▸ h).2
    obtain ⟨before, after, htrim, hbefore, hafter⟩ := exists_trim (value.drop (space + 1))
    have hsupplied : trim (value.drop (space + 1)) = token := by
      apply eq_of_constantTimeEqual hequal _ htoken
      have hlengths := congrArg List.length htrim
      simp only [List.length_append, List.length_drop] at hlengths
      omega
    obtain ⟨hinside, hat, _⟩ := List.findIdx?_eq_some_iff_getElem.mp hspace
    refine ⟨value.take space, before, after, ?_, not_not.mp hscheme, hbefore, hafter⟩
    rw [← hsupplied, ← htrim, ← (of_decide_eq_true hat), List.cons_getElem_drop_succ,
      List.take_append_drop]

/-! ## What is received -/

section Received
variable {requireBearer : Bool} {bearerToken : Bytes} {events : List ParserEvent} {ending : Ending}

/-- Status zero stands for a completed request. -/
theorem receiveRequest_completed
    (h : (receiveRequest requireBearer bearerToken events ending).status = 0) :
    ∃ request, events.foldlM step (initialContext requireBearer bearerToken) =
        .error (.completed request) ∧
      (receiveRequest requireBearer bearerToken events ending).request = request := by
  have hspec := @foldlM_step_spec (initialContext requireBearer bearerToken) rfl rfl events
  rw [receiveRequest_eq] at h ⊢
  cases hrun : events.foldlM step (initialContext requireBearer bearerToken) with
  | ok context =>
    rw [hrun] at h
    cases ending <;> exact absurd h (by simp [received, endingFailure, ParseContext.fail])
  | error stop =>
    rw [hrun] at h hspec
    cases stop with
    | completed request => exact ⟨request, rfl, rfl⟩
    | failed status code => exact absurd h hspec

theorem receiveRequest_status :
    (receiveRequest requireBearer bearerToken events ending).status ≠ 200 := by
  rw [receiveRequest_eq]
  cases hrun : events.foldlM step (initialContext requireBearer bearerToken) with
  | ok context => exact (ending_status ending).1
  | error stop =>
    cases stop with
    | completed request => exact fun h => absurd (show (0 : Nat) = 200 from h) (by decide)
    | failed status code => exact (foldlM_status rfl hrun).1

/-- A request is completed only by all events of its message. -/
theorem prefix_completed {m : Message} {context : ParseContext} {request : HttpRequest}
    (hincomplete : context.complete = false) (hpre : events <+: m.events)
    (h : events.foldlM step context = .error (.completed request)) : events = m.events := by
  rw [events_eq_before] at hpre ⊢
  rcases List.prefix_concat_iff.mp hpre with heq | hbefore
  · exact heq
  · have hend : Event.signal Signal.messageComplete ∉ events :=
      fun hmem => messageComplete_notMem_before (hbefore.subset hmem)
    exact absurd h (foldlM_not_completed hincomplete hend request)

end Received

/-! ## How long a stored value is -/

structure ValuesFit (context : ParseContext) : Prop where
  headerValue : context.headerValue.length ≤ maxRequestHeaderBytes
  authorization : context.request.authorization.length ≤ maxRequestHeaderBytes

theorem trim_length_le (value : Bytes) : (trim value).length ≤ value.length := by
  obtain ⟨before, after, htrim, _⟩ := exists_trim value
  have hlengths := congrArg List.length htrim
  simp only [List.length_append] at hlengths
  omega

theorem storeHeader_fits {context : ParseContext} {name value : Bytes}
    (h : context.request.authorization.length ≤ maxRequestHeaderBytes)
    (hvalue : value.length ≤ maxRequestHeaderBytes) :
    (storeHeader context name value).request.authorization.length ≤ maxRequestHeaderBytes := by
  unfold storeHeader
  split_ifs
  · exact h
  · exact hvalue
  · exact h
  · exact h
  · exact h

theorem step_fits {context context' : ParseContext} {event : ParserEvent} (hfits : ValuesFit context)
    (hincomplete : context.complete = false) (h : step context event = .ok context') :
    ValuesFit context' := by
  obtain ⟨hvalue, hauthorization⟩ := hfits
  cases event with
  | span kind data =>
    obtain ⟨rfl, hown, _⟩ := take_of_step hincomplete h
    cases kind with
    | headerValue =>
      simp only [ParseContext.OverOwn] at hown
      refine ⟨?_, hauthorization⟩
      simp only [ParseContext.take, List.length_append]
      omega
    | _ => exact ⟨hvalue, hauthorization⟩
  | signal signal =>
    cases signal with
    | headerFieldComplete =>
      cases h
      exact ⟨hvalue, hauthorization⟩
    | headerValueComplete =>
      rw [step_headerValueComplete hincomplete] at h
      split_ifs at h
      cases h
      exact ⟨Nat.zero_le _, storeHeader_fits hauthorization ((trim_length_le _).trans hvalue)⟩
    | headersComplete contentLength =>
      rw [(step_headersComplete.mp h).1]
      exact ⟨hvalue, hauthorization⟩
    | messageComplete => cases h

theorem foldlM_fits {context context' : ParseContext} {events : List ParserEvent}
    (hfits : ValuesFit context) (hincomplete : context.complete = false)
    (h : events.foldlM step context = .ok context') : ValuesFit context' := by
  induction events generalizing context with
  | nil =>
    cases h
    exact hfits
  | cons event events ih =>
    rw [List.foldlM_cons] at h
    obtain ⟨next, hstep, hrest⟩ := bind_eq_ok.mp h
    exact ih (step_fits hfits hincomplete hstep) (step_incomplete hstep hincomplete) hrest

/-! ## The gate -/

/-- The header section has one Authorization field, and its value is the token. -/
def BearerHeader (token : Bytes) (fields : List HeaderField) : Prop :=
  ∃ field, named (bytes "authorization") fields = [field] ∧ BearerToken token field.text

theorem bearerHeader_of_checked {token : Bytes} {m : Message} {context : ParseContext}
    (htoken : 0 ∉ token) (hchecked : Checked true token m context) (hfits : ValuesFit context)
    (hurl : m.url.flatten ≠ bytes "/ui") : BearerHeader token m.headers := by
  have hauthorized := hchecked.passes.bearer hchecked.requireBearer (hchecked.url ▸ hurl)
  have hstores := hchecked.between.stores
  have hcount := hchecked.passes.authorization
  rw [hstores.authorizationCount] at hcount
  rw [hchecked.bearerToken, Option.any_some] at hauthorized
  have hbearer := authorized_sound hauthorized
    (hfits.authorization.trans_lt (by decide)) htoken
  rw [hstores.authorization] at hbearer
  rcases hfields : named (bytes "authorization") m.headers with _ | ⟨field, _ | ⟨field', rest⟩⟩
  · rw [lastText, hfields] at hbearer
    obtain ⟨scheme, before, after, hvalue, _⟩ := hbearer
    exact absurd hvalue.symm (by simp)
  · rw [lastText, hfields] at hbearer
    exact ⟨field, hfields, hbearer⟩
  · rw [hfields, List.length_cons, List.length_cons] at hcount
    omega

/-- What the server does for the holder of the token only. -/
def Action.Privileged {D : Type} : Action D → Prop
  | .send status _ => status = 200
  | .sendUi _ => False
  | .parse _ | .estimate _ _ | .evaluate _ _ => True

theorem privileged_received {D : Type} {service : Service D} {events : List ParserEvent}
    {ending : Ending} {action : Action D}
    (hmem : action ∈ (handleConnection service events ending).log) (h : action.Privileged) :
    let received := receiveRequest service.requireBearer service.bearerToken events ending
    received.status = 0 ∧ received.request.url ≠ bytes "/ui" := by
  have honly {status : Nat} (hanswer : AnswersOnly (handleConnection service events ending) status)
      (hstatus : status ≠ 200) : False := by
    obtain ⟨response, hlog⟩ := hanswer
    rw [hlog, List.mem_singleton] at hmem
    rw [hmem] at h
    exact hstatus h
  intro received
  have hstatus : received.status = 0 := by
    by_contra hfailed
    exact honly (handleConnection_failed hfailed) receiveRequest_status
  refine ⟨hstatus, fun hurl => ?_⟩
  rcases handleConnection_ui hstatus hurl with hanswer | hanswer | ⟨response, hlog⟩
  · exact honly hanswer (by decide)
  · exact honly hanswer (by decide)
  · rw [hlog, List.mem_singleton] at hmem
    rw [hmem] at h
    exact h

/-- With a token required, a request behind any other target than `/ui` is handed on only if
its header section has the token, whatever the pieces it arrives in. Nothing is parsed, asked
of the engine or answered with success without it. -/
theorem bearer_gate {D : Type} (service : Service D) (hrequire : service.requireBearer = true)
    (htoken : ∀ b ∈ service.bearerToken, 0x21 ≤ b ∧ b ≤ 0x7e) (m : Message)
    {events : List ParserEvent} (hevents : events <+: m.events) (ending : Ending) :
    let received := receiveRequest true service.bearerToken events ending
    (received.status = 0 → received.request.url ≠ bytes "/ui" →
      BearerHeader service.bearerToken m.headers) ∧
    ∀ action ∈ (handleConnection service events ending).log, action.Privileged →
      BearerHeader service.bearerToken m.headers := by
  intro received
  have hgate : received.status = 0 → received.request.url ≠ bytes "/ui" →
      BearerHeader service.bearerToken m.headers := by
    intro hstatus hurl
    obtain ⟨request, hrun, hrequest⟩ := receiveRequest_completed hstatus
    rw [prefix_completed rfl hevents hrun] at hrun
    obtain ⟨checked, final, hhead, hchecked, rfl, _, hkeeps⟩ := events_completed hrun
    have hzero : 0 ∉ service.bearerToken := fun hmem => absurd (htoken 0 hmem).1 (by decide)
    have hfits := @foldlM_fits (initialContext true service.bearerToken) checked m.head
      ⟨Nat.zero_le _, Nat.zero_le _⟩ rfl hhead
    apply bearerHeader_of_checked hzero hchecked hfits
    rw [← hchecked.url, ← hkeeps.url, ← hrequest]
    exact hurl
  refine ⟨hgate, fun action hmem hprivileged => ?_⟩
  have hreceived := privileged_received hmem hprivileged
  rw [hrequire] at hreceived
  exact hgate hreceived.1 hreceived.2

/-- A server that asks for a token, and whose device has failed. -/
def guarded : Service Unit where
  requireBearer := true
  bearerToken := bytes "secret"
  modelId := bytes "branchscore-local"
  uiHtml := uiMarker
  engine := ⟨fun _ => .ok 1, fun _ => runtimeError "failed to allocate Prefill graph"⟩
  numbers := ⟨fun _ => true, fun _ => ((), 0), fun _ => bytes "0"⟩
  ofSize := fun _ => ()
  stb := ⟨fun _ => .error none, fun _ => .error none, fun _ => .error none⟩
  handlingMs := ()

def healthCheck : Message where
  method := [bytes "GET"]
  url := [bytes "/health", bytes "z"]
  version := [bytes "1.1"]
  headers := [⟨[bytes "Author", bytes "IZATION"], [bytes " bEa", bytes "ReR  secret "]⟩]
  contentLength := 0
  body := []
  trailers := []

theorem bearer_gate_sample :
    (receiveRequest true (bytes "secret") healthCheck.events .closed).status = 0 ∧
      BearerHeader (bytes "secret") healthCheck.headers := by
  have hstatus : (receiveRequest true (bytes "secret") healthCheck.events .closed).status = 0 := by
    decide +kernel
  have hgate := bearer_gate guarded rfl (by decide +kernel) healthCheck (List.prefix_refl _) .closed
  exact ⟨hstatus, hgate.1 hstatus (by decide +kernel)⟩

end Branchscore.Server
