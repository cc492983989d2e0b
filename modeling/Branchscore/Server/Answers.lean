import Branchscore.Server.Connection
import Branchscore.Server.Message

/-!
# What the server answers

An error is always sent, with its own status. A request that was not received in full gets
the status of its failure, and the page is the only thing behind `/ui`.
-/

namespace Branchscore.Server

open Foundation Foundation.Fragmentation Outcome
set_option autoImplicit false

variable {D : Type} {service : Service D}

/-! ## Sending -/

theorem emplaced_regular {finite : D → Prop} {members : List (String × Json.Value D)}
    (h : ∀ member ∈ members, member.2.Regular finite) :
    (Systemone.emplaced members).Regular finite := by
  apply Json.Value.Regular.object (SortedMap.build_sorted _)
  intro entry hentry
  obtain ⟨member, hmember, rfl⟩ := List.mem_map.mp (SortedMap.mem_of_mem_build hentry)
  exact h member hmember

theorem errorJson_regular (finite : D → Prop) (code : Bytes) (requestId : Option Bytes) :
    (errorJson code requestId).Regular finite := by
  apply emplaced_regular
  intro member hmember
  rcases List.mem_cons.mp hmember with rfl | hid
  · apply emplaced_regular
    intro field hfield
    simp only [List.mem_cons, List.not_mem_nil, or_false] at hfield
    rcases hfield with rfl | rfl
    · exact .string code
    · exact .string (publicMessage code)
  · cases requestId with
    | none => cases hid
    | some requestId =>
      rw [Option.map_some, Option.toList_some, List.mem_singleton] at hid
      rw [hid]
      exact .string requestId

theorem sendError_eq (status : Nat) (code : Bytes) (requestId : Option Bytes) :
    ∃ response, sendError service status code requestId = ⟨[.send status response], .ok ()⟩ := by
  obtain ⟨encoded, hencoded, _⟩ := Json.stringify_eq_ok
    (errorJson_regular (fun d => service.numbers.isfinite d = true) code requestId)
  refine ⟨jsonResponse status encoded, ?_⟩
  rw [sendError, sendJson, hencoded, Logged.lift_bind_ok]
  rfl

theorem sendUi_cases :
    (∃ response, sendUi service = ⟨[.sendUi response], .ok ()⟩) ∨
      ∃ message, sendUi service = .lift (.error (.outOfRange message)) := by
  unfold sendUi uiBody
  cases Search.find? uiMarker service.uiHtml with
  | none =>
    dsimp only
    rw [Logged.lift_bind_error]
    exact Or.inr ⟨_, rfl⟩
  | some position =>
    dsimp only
    rw [Logged.lift_bind_ok]
    exact Or.inl ⟨_, rfl⟩

theorem catchException_ok {α : Type} {x handler : Connection D α} {a : α}
    (h : x.result = .ok a) : catchException x handler = x := by
  unfold catchException Logged.handle
  rw [h]

/-- The server answers with this status and does nothing else. -/
def AnswersOnly (x : Connection D Unit) (status : Nat) : Prop :=
  ∃ response, x.log = [.send status response]

theorem AnswersOnly.eq {x : Connection D Unit} {status status' : Nat} (h : AnswersOnly x status)
    (h' : AnswersOnly x status') : status = status' := by
  obtain ⟨response, h⟩ := h
  obtain ⟨response', h'⟩ := h'
  rw [h] at h'
  cases h'
  rfl

section Sent
variable {events : List ParserEvent} {ending : Ending}

theorem answersOnly_sendError {handler : Connection D Unit} (status : Nat) (code : Bytes) :
    AnswersOnly (catchException (sendError service status code none) handler) status := by
  obtain ⟨response, hsent⟩ := @sendError_eq D service status code none
  rw [catchException_ok (a := ()) (by rw [hsent]), hsent]
  exact ⟨response, rfl⟩

/-- A request that was not received in full is answered with the status of its failure. -/
theorem handleConnection_failed
    (h : (receiveRequest service.requireBearer service.bearerToken events ending).status ≠ 0) :
    AnswersOnly (handleConnection service events ending)
      (receiveRequest service.requireBearer service.bearerToken events ending).status := by
  unfold handleConnection dispatch
  dsimp only
  rw [if_pos h]
  exact answersOnly_sendError _ _

/-- The page is refused to any other method than GET. -/
theorem handleConnection_ui_refused
    (hstatus : (receiveRequest service.requireBearer service.bearerToken events ending).status = 0)
    (hurl : (receiveRequest service.requireBearer service.bearerToken events ending).request.url =
      bytes "/ui")
    (hmethod : (receiveRequest service.requireBearer service.bearerToken events
      ending).request.method ≠ bytes "GET") :
    AnswersOnly (handleConnection service events ending) 405 := by
  unfold handleConnection dispatch
  dsimp only
  rw [hurl, if_neg (not_not.mpr hstatus), if_neg (fun h => h.1 rfl), if_pos ⟨rfl, hmethod⟩]
  exact answersOnly_sendError _ _

/-- Behind `/ui` there is the page, and an error for what does not ask for it with GET. -/
theorem handleConnection_ui
    (hstatus : (receiveRequest service.requireBearer service.bearerToken events ending).status = 0)
    (hurl : (receiveRequest service.requireBearer service.bearerToken events ending).request.url =
      bytes "/ui") :
    AnswersOnly (handleConnection service events ending) 405 ∨
    AnswersOnly (handleConnection service events ending) 500 ∨
      ∃ response, (handleConnection service events ending).log = [.sendUi response] := by
  by_cases hmethod : (receiveRequest service.requireBearer service.bearerToken events
      ending).request.method = bytes "GET"
  · have hsystemone : bytes "/ui" ≠ bytes "/v1/systemone" := by decide
    unfold handleConnection dispatch
    dsimp only
    rw [hurl, if_neg (not_not.mpr hstatus), if_neg (fun h => h.1 rfl), if_neg (fun h => h.2 hmethod),
      if_neg (fun h => h.2 hmethod), if_neg (fun h => hsystemone h.1), if_pos rfl]
    rcases @sendUi_cases D service with ⟨response, hsent⟩ | ⟨message, hthrown⟩
    · rw [hsent, catchException_ok (a := ()) rfl]
      exact Or.inr (Or.inr ⟨response, rfl⟩)
    · obtain ⟨response, hsent⟩ := @sendError_eq D service 500 (bytes "internal_error") none
      rw [hthrown, hsent]
      exact Or.inr (Or.inl ⟨response, rfl⟩)
  · exact Or.inl (handleConnection_ui_refused hstatus hurl hmethod)

end Sent

/-! ## Why a request was not received -/

section Failure
variable {context : ParseContext}

/-- Only the end of the header section answers for a missing token, and no failure is a
success. -/
theorem step_status {event : ParserEvent} {status : Nat} {code : Bytes}
    (hincomplete : context.complete = false)
    (h : step context event = .error (.failed status code)) :
    status ≠ 200 ∧ (status = 401 → ∃ contentLength,
      event = .signal (.headersComplete contentLength)) := by
  cases event with
  | span kind data =>
    have htakes := step_span hincomplete kind data
    rw [h] at htakes
    cases kind <;> cases htakes <;> exact ⟨by decide, fun h => absurd h (by decide)⟩
  | signal signal =>
    cases signal with
    | headerFieldComplete => cases h
    | headerValueComplete =>
      rw [step_headerValueComplete hincomplete] at h
      split_ifs at h
      cases h
      exact ⟨by decide, fun h => absurd h (by decide)⟩
    | headersComplete contentLength =>
      refine ⟨?_, fun _ => ⟨contentLength, rfl⟩⟩
      have hfail := @outcome_fail context hincomplete (-1) (by decide)
      simp only [step, callback, onHeadersComplete] at h
      split_ifs at h
      iterate 5
        rw [hfail] at h
        cases h
        decide
      cases h
    | messageComplete => cases h

theorem foldlM_status {events : List ParserEvent} {status : Nat} {code : Bytes}
    (hincomplete : context.complete = false)
    (h : events.foldlM step context = .error (.failed status code)) :
    status ≠ 200 ∧ (status = 401 → ∃ contentLength,
      .signal (.headersComplete contentLength) ∈ events) := by
  induction events generalizing context with
  | nil => cases h
  | cons event events ih =>
    rw [List.foldlM_cons] at h
    rcases bind_eq_error.mp h with hstep | ⟨next, hstep, hrest⟩
    · obtain ⟨hok, hunauthorized⟩ := step_status hincomplete hstep
      refine ⟨hok, fun h401 => ?_⟩
      obtain ⟨contentLength, rfl⟩ := hunauthorized h401
      exact ⟨contentLength, List.mem_cons_self⟩
    · obtain ⟨hok, hunauthorized⟩ := ih (step_incomplete hstep hincomplete) hrest
      refine ⟨hok, fun h401 => ?_⟩
      obtain ⟨contentLength, hmem⟩ := hunauthorized h401
      exact ⟨contentLength, List.mem_cons_of_mem event hmem⟩

theorem ending_status (ending : Ending) :
    (endingFailure context ending).failureStatus ≠ 200 ∧
      (endingFailure context ending).failureStatus ≠ 401 := by
  cases ending <;> exact ⟨by simp [endingFailure, ParseContext.fail],
    by simp [endingFailure, ParseContext.fail]⟩

end Failure

end Branchscore.Server
