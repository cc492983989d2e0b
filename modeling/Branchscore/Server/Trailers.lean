import Branchscore.Server.Message

/-!
# Trailer fields

Trailer fields arrive through the callbacks of the header section when its checks have been
made. What was checked is what is handed on exactly where the trailer does not disturb it.
-/

namespace Branchscore.Server

open Foundation Foundation.Fragmentation Outcome
set_option autoImplicit false

/-- No field that may come once has come twice, and the request that is handed on holds the
values that `on_headers_complete` has checked. -/
structure ChecksStand (requireBearer : Bool) (bearerToken : Bytes) (m : Message)
    (request : HttpRequest) : Prop where
  contentTypeOnce : (named (bytes "content-type") (m.headers ++ m.trailers)).length ≤ 1
  authorizationOnce : (named (bytes "authorization") (m.headers ++ m.trailers)).length ≤ 1
  unchanged : ∃ checked,
    outcome (runCallbacks (initialContext requireBearer bearerToken) m.head) = .ok checked ∧
    request.contentType = checked.request.contentType ∧
    request.authorization = checked.request.authorization ∧
    request.contentEncoding = checked.request.contentEncoding ∧
    request.expect = checked.request.expect

namespace Message

/-- The trailer has no field of the name, or a single blank one that the header section
does not have. -/
def Silent (m : Message) (key : Bytes) : Prop :=
  named key m.trailers = [] ∨
    named key m.headers = [] ∧ ∃ field, named key m.trailers = [field] ∧ field.text = []

/-- The trailer has no field that the server reads, except ones that repeat what it has. -/
structure Undisturbed (m : Message) : Prop where
  contentType : m.Silent (bytes "content-type")
  authorization : m.Silent (bytes "authorization")
  contentEncoding : ∀ text, lastText (bytes "content-encoding") m.trailers = some text →
    lowercase text = lowercase ((lastText (bytes "content-encoding") m.headers).getD [])
  expect : ∀ text, lastText (bytes "expect") m.trailers = some text → text = []

end Message

theorem lastText_append (key : Bytes) (fields fields' : List HeaderField) :
    lastText key (fields ++ fields') = (lastText key fields').or (lastText key fields) := by
  rw [lastText, named_append, List.getLast?_append, lastText, lastText]
  cases (named key fields').getLast? <;> rfl

theorem lastText_of_named_nil {key : Bytes} {fields : List HeaderField} (h : named key fields = []) :
    lastText key fields = none := by
  rw [lastText, h]
  rfl

theorem lastText_of_named_single {key : Bytes} {fields : List HeaderField} {field : HeaderField}
    (h : named key fields = [field]) : lastText key fields = some field.text := by
  rw [lastText, h]
  rfl

/-- The trailer leaves a field that may come once as it is. -/
theorem silent_iff {m : Message} {key : Bytes} (honce : (named key m.headers).length ≤ 1) :
    ((named key (m.headers ++ m.trailers)).length ≤ 1 ∧
      (lastText key (m.headers ++ m.trailers)).getD [] = (lastText key m.headers).getD []) ↔
    m.Silent key := by
  rw [named_append, List.length_append, lastText_append]
  constructor
  · intro ⟨hlength, hlast⟩
    rcases htrailers : named key m.trailers with _ | ⟨field, _ | ⟨field', rest⟩⟩
    · exact Or.inl htrailers
    · have hheaders : named key m.headers = [] := by
        rw [htrailers, List.length_singleton] at hlength
        exact List.length_eq_zero_iff.mp (by omega)
      rw [lastText_of_named_single htrailers, lastText_of_named_nil hheaders] at hlast
      exact Or.inr ⟨hheaders, field, htrailers, hlast⟩
    · rw [htrailers, List.length_cons, List.length_cons] at hlength
      omega
  · intro h
    rcases h with htrailers | ⟨hheaders, field, htrailers, htext⟩
    · rw [htrailers, lastText_of_named_nil htrailers]
      exact ⟨honce, rfl⟩
    · rw [htrailers, hheaders, lastText_of_named_single htrailers, lastText_of_named_nil hheaders]
      exact ⟨Nat.le_refl 1, htext⟩

theorem lowercase_eq_nil {value : Bytes} : lowercase value = [] ↔ value = [] :=
  List.map_eq_nil_iff

/-- The trailer leaves a field that may come often as it is. -/
theorem lastText_or_iff {last : Option Bytes} {stored : Bytes} :
    lowercase ((last.or (some stored)).getD []) = lowercase stored ↔
      ∀ text, last = some text → lowercase text = lowercase stored := by
  cases last with
  | none => simp
  | some text => simp

theorem getD_or (last stored : Option Bytes) :
    (last.or stored).getD [] = (last.or (some (stored.getD []))).getD [] := by
  cases last <;> cases stored <;> rfl

/-- Where a request is handed on, the checks of its header section stand if and only if its
trailer does not disturb them. -/
theorem checksStand_iff (requireBearer : Bool) (bearerToken : Bytes) (m : Message)
    (request : HttpRequest)
    (h : outcome (runCallbacks (initialContext requireBearer bearerToken) m.events) =
      .error (.completed request)) :
    ChecksStand requireBearer bearerToken m request ↔ m.Undisturbed := by
  rw [outcome_runCallbacks] at h
  obtain ⟨checked, final, hhead, hchecked, rfl, hfinal, _⟩ := events_completed h
  obtain ⟨hct, ha, hcontent, hauth, hencoding, hexpect⟩ := hchecked.between.stores
  obtain ⟨_, _, hcontent', hauth', hencoding', hexpect'⟩ := hfinal.stores
  have hpasses := hchecked.passes
  have hcontentType := silent_iff (hct ▸ hpasses.contentType)
  have hauthorization := silent_iff (ha ▸ hpasses.authorization)
  have hnoExpect : (lastText (bytes "expect") m.headers).getD [] = [] :=
    lowercase_eq_nil.mp (hexpect ▸ hpasses.expect)
  rw [lastText_append, getD_or] at hencoding' hexpect'
  constructor
  · intro ⟨hctOnce, haOnce, checked', hhead', heqContent, heqAuth, heqEncoding, heqExpect⟩
    rw [outcome_runCallbacks, hhead] at hhead'
    cases hhead'
    rw [hcontent, hcontent'] at heqContent
    rw [hauth, hauth'] at heqAuth
    rw [hencoding, hencoding'] at heqEncoding
    rw [hexpect, hexpect'] at heqExpect
    refine ⟨hcontentType.mp ⟨hctOnce, heqContent⟩, hauthorization.mp ⟨haOnce, heqAuth⟩,
      lastText_or_iff.mp heqEncoding, fun text htext => ?_⟩
    have hlower := lastText_or_iff.mp heqExpect text htext
    rw [hnoExpect] at hlower
    exact lowercase_eq_nil.mp hlower
  · intro ⟨hsilentType, hsilentAuth, hkeepsEncoding, hkeepsExpect⟩
    obtain ⟨hctOnce, heqContent⟩ := hcontentType.mpr hsilentType
    obtain ⟨haOnce, heqAuth⟩ := hauthorization.mpr hsilentAuth
    refine ⟨hctOnce, haOnce, checked, (outcome_runCallbacks _ _).trans hhead, ?_, ?_, ?_, ?_⟩
    · rw [hcontent, hcontent', heqContent]
    · rw [hauth, hauth', heqAuth]
    · rw [hencoding, hencoding', lastText_or_iff.mpr hkeepsEncoding]
    · rw [hexpect, hexpect', lastText_or_iff.mpr]
      intro text htext
      rw [hkeepsExpect text htext, hnoExpect]

/-- A plain text that becomes JSON in the trailer. -/
def disturbed : Message where
  method := [bytes "POST"]
  url := [bytes "/v1/systemone"]
  version := [bytes "1.1"]
  headers := [⟨[bytes "Transfer-Encoding"], [bytes "chunked"]⟩,
    ⟨[bytes "Content-Type"], [bytes "text/plain"]⟩]
  contentLength := 0
  body := [bytes "\x7b\x7d"]
  trailers := [⟨[bytes "Content-Type"], [bytes "application/json"]⟩]

def disturbedRequest : HttpRequest where
  method := bytes "POST"
  url := bytes "/v1/systemone"
  contentType := bytes "application/json"
  body := bytes "\x7b\x7d"

theorem disturbed_completed : outcome (runCallbacks (initialContext false []) disturbed.events) =
    .error (.completed disturbedRequest) := by decide +kernel

theorem checksStand_fails :
    outcome (runCallbacks (initialContext false []) disturbed.events) =
      .error (.completed disturbedRequest) ∧
    ¬ChecksStand false [] disturbed disturbedRequest := by
  refine ⟨disturbed_completed, fun h => ?_⟩
  exact absurd h.contentTypeOnce (by decide +kernel)

theorem checksStand_iff_sample :
    ¬disturbed.Undisturbed ∧
      ∃ request, outcome (runCallbacks (initialContext false [])
          { disturbed with trailers := [] }.events) = .error (.completed request) ∧
        ChecksStand false [] { disturbed with trailers := [] } request := by
  have hplain : outcome (runCallbacks (initialContext false [])
      { disturbed with trailers := [] }.events) =
        .error (.completed { disturbedRequest with contentType := bytes "text/plain" }) := by
    decide +kernel
  refine ⟨?_, _, hplain, (checksStand_iff false [] _ _ hplain).mpr ?_⟩
  · rw [← checksStand_iff false [] disturbed disturbedRequest disturbed_completed]
    exact fun h => absurd h.contentTypeOnce (by decide +kernel)
  · exact ⟨Or.inl rfl, Or.inl rfl, nofun, nofun⟩

end Branchscore.Server
