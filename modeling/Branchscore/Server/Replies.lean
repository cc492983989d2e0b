import Branchscore.Server.Decisions
import Branchscore.SystemoneAdapter.Accepted

/-!
# One answer for each connection

Whatever is received, the server answers once and does nothing behind its answer. Only a call
to the engine that does not end as a C++ exception keeps a connection from its answer.
-/

namespace Branchscore.Server

open Foundation Foundation.Fragmentation Outcome Logged
set_option autoImplicit false

variable {D : Type}

/-! ## What is no C++ exception -/

def Stuck (e : Exception) : Prop := e = .undefinedBehavior ∨ e = .diverges

/-- The computation returns or throws. -/
def Throws {α : Type} (x : Except Exception α) : Prop := Ends (fun e => ¬Stuck e) (fun _ => True) x

namespace Throws
variable {α β : Type}

theorem ok (a : α) : Throws (.ok a) := trivial

theorem runtimeError (message : Bytes) :
    Throws (.error (.runtimeError message) : Except Exception α) := by
  rintro (h | h) <;> cases h

theorem outOfRange (message : Bytes) :
    Throws (.error (.outOfRange message) : Except Exception α) := by
  rintro (h | h) <;> cases h

theorem throwIf (c : Prop) [Decidable c] (message : String) : Throws (throwIf c message) :=
  (throwIf_ends fun _ => (runtimeError (α := Unit) _)).mono fun _ _ => trivial

theorem bind {x : Except Exception α} {f : α → Except Exception β} (hx : Throws x)
    (hf : ∀ a, Throws (f a)) : Throws (x >>= f) := Ends.bind hx fun a _ => hf a

theorem mapM {f : α → Except Exception β} {as : List α} (h : ∀ a ∈ as, Throws (f a)) :
    Throws (as.mapM f) := (Ends.mapM h).mono fun _ _ => trivial

theorem foldlM {f : β → α → Except Exception β} {as : List α} (h : ∀ b a, Throws (f b a)) (b : β) :
    Throws (as.foldlM f b) := by
  induction as generalizing b with
  | nil => exact ok b
  | cons a as ih =>
    rw [List.foldlM_cons]
    exact (h b a).bind ih

end Throws

theorem ends_weaken {α : Type} {P P' : Exception → Prop} {Q : α → Prop} {x : Except Exception α}
    (h : Ends P Q x) (himp : ∀ e, P e → P' e) : Ends P' Q x := by
  cases x with
  | ok a => exact h
  | error e => exact himp e h

/-! ## The parts around the engine -/

section Parts
variable (lib : Json.NumberLibrary D) (ofSize : Nat → D)

theorem parse_throws (text : Bytes) : Throws (Json.parse lib text) := by
  cases h : Json.parse lib text with
  | ok value => exact .ok value
  | error e =>
    obtain ⟨_, _, message, rfl⟩ := Json.parse_eq_error h
    exact .runtimeError _

theorem asObject_throws (value : Json.Value D) : Throws value.asObject := by
  cases value with
  | object members => exact .ok members
  | _ => exact .runtimeError _

theorem set_throws (value : Json.Value D) (key : Bytes) (item : Json.Value D) :
    Throws (value.set key item) :=
  (asObject_throws value).bind fun _ => .ok _

mutual

theorem appendValue_throws (output : Bytes) (value : Json.Value D) :
    Throws (Json.appendValue lib output value) := by
  cases value with
  | null => exact .ok _
  | boolean value => exact .ok _
  | number value =>
    rw [Json.appendValue]
    split
    · exact .runtimeError _
    · exact .ok _
  | string value => exact .ok _
  | array items =>
    rw [Json.appendValue]
    exact (appendItems_throws _ true items).bind fun _ => .ok _
  | object members =>
    rw [Json.appendValue]
    exact (appendMembers_throws _ true members).bind fun _ => .ok _

theorem appendItems_throws (output : Bytes) (first : Bool) (items : List (Json.Value D)) :
    Throws (Json.appendItems lib output first items) := by
  cases items with
  | nil => exact .ok _
  | cons item items =>
    rw [Json.appendItems]
    exact (appendValue_throws _ item).bind fun _ => appendItems_throws _ false items

theorem appendMembers_throws (output : Bytes) (first : Bool)
    (members : List (Bytes × Json.Value D)) :
    Throws (Json.appendMembers lib output first members) := by
  match members with
  | [] => exact .ok _
  | (key, item) :: members =>
    rw [Json.appendMembers]
    exact (appendValue_throws _ item).bind fun _ => appendMembers_throws _ false members

end

theorem stringify_throws (value : Json.Value D) : Throws (Json.stringify lib value) :=
  appendValue_throws lib [] value

theorem number_throws (value : D) : Throws (Systemone.number lib value) := by
  unfold Systemone.number
  split
  · exact .ok _
  · exact .runtimeError _

theorem timingJson_throws (timing : TimingInfo D) :
    Throws (Systemone.timingJson lib ofSize timing) := by
  have hmember : ∀ member ∈ Systemone.timingMembers lib ofSize timing, Throws member.2 := by
    intro member hmember
    simp only [Systemone.timingMembers, List.mem_cons, List.not_mem_nil, or_false] at hmember
    rcases hmember with rfl | rfl | rfl | rfl | rfl | rfl | rfl | rfl | rfl | rfl | rfl | rfl |
      rfl | rfl | rfl | rfl | rfl | rfl | rfl | rfl | rfl | rfl | rfl | rfl | rfl
    all_goals first | exact Throws.ok _ | exact number_throws lib _
  exact (Throws.mapM fun member h => (hmember member h).bind fun _ => .ok _).bind fun _ => .ok _

theorem scoreObject_throws (value : OptionScore D → D) (scores : List (OptionScore D)) :
    Throws (Systemone.scoreObject lib value scores) :=
  (Throws.mapM fun _ _ => (number_throws lib _).bind fun _ => .ok _).bind fun _ => .ok _

theorem validateResult_throws (question : Systemone.ChoiceQuestion) (result : DecisionResult D) :
    Throws (Systemone.validateResult question result) :=
  (Throws.throwIf _ _).bind fun _ => (Throws.throwIf _ _).bind fun _ => .throwIf _ _

theorem addQuestion_throws (includeRawLogits : Bool) (parts : Systemone.ResponseParts D)
    (answered : Systemone.ChoiceQuestion × DecisionResult D) :
    Throws (Systemone.addQuestion lib ofSize includeRawLogits parts answered) := by
  refine (validateResult_throws _ _).bind fun _ => ?_
  refine (Throws.throwIf _ _).bind fun _ => ?_
  refine (scoreObject_throws lib _ _).bind fun _ => ?_
  refine (scoreObject_throws lib _ _).bind fun _ => ?_
  refine (number_throws lib _).bind fun _ => ?_
  exact (timingJson_throws lib ofSize _).bind fun _ => .ok _

theorem makeResponse_throws (request : Systemone.Request) (results : List (DecisionResult D))
    (includeRawLogits : Bool) :
    Throws (Systemone.makeResponse lib ofSize request results includeRawLogits) := by
  refine (Throws.throwIf _ _).bind fun _ => ?_
  refine (Throws.foldlM (addQuestion_throws lib ofSize includeRawLogits) _).bind fun _ => ?_
  refine (number_throws lib _).bind fun _ => ?_
  refine (number_throws lib _).bind fun _ => ?_
  exact (number_throws lib _).bind fun _ => .ok _

end Parts

section Handlers
variable (service : Service D)

theorem withMetadata_throws (response : Json.Value D) (requestPositions : Nat) :
    Throws (withMetadata service response requestPositions) := by
  refine (asObject_throws response).bind fun members => ?_
  split
  · exact .outOfRange _
  · refine (set_throws _ _ _).bind fun _ => ?_
    refine (set_throws _ _ _).bind fun _ => ?_
    exact (set_throws _ _ _).bind fun _ => set_throws _ _ _

theorem inspectEncoded_throws (stb : StbImage) (encoded : Bytes) :
    Throws (ImagePreprocessor.inspectEncoded stb encoded) := by
  have hdecode : ∀ message, Throws (.error (.imageDecodeError message) :
      Except Exception EncodedImageInfo) := by
    rintro message (h | h) <;> cases h
  unfold ImagePreprocessor.inspectEncoded
  split
  · exact hdecode _
  split
  · exact hdecode _
  split
  · exact hdecode _
  split
  · exact hdecode _
  · exact .ok _

theorem imageTooLarge_throws (imageBytes : Option Bytes) :
    Throws (imageTooLarge service imageBytes) := by
  cases imageBytes with
  | none => exact .ok _
  | some encoded => exact (inspectEncoded_throws _ _).bind fun _ => .ok _

theorem parseRequest_throws {body : Bytes} {envelope : Json.Value D}
    (h : Json.parse service.numbers body = .ok envelope) :
    Throws (Systemone.parseRequest service.numbers service.stb envelope service.modelId) := by
  have hrequest : ∀ e, Systemone.IsRequestError e → ¬Stuck e := by
    rintro e ⟨code, message, rfl⟩ (h | h) <;> cases h
  by_cases hmodel : service.modelId = []
  · refine Ends.bind (ends_weaken (Systemone.requireObject_ends envelope _) hrequest) ?_
    rintro _ ⟨members, rfl⟩
    refine Ends.bind (ends_weaken (Systemone.rejectUnknownFields_ends members _ _) hrequest) ?_
    intro _ _
    rw [if_pos hmodel]
    rintro (h | h) <;> cases h
  · exact (ends_weaken (Systemone.parseRequest_ends service.stb (Json.parse_regular h) hmodel)
      hrequest).mono fun _ _ => trivial

/-! ## The calls to the engine -/

/-- A call to the engine has ended with this error. -/
def Action.Fails : Action D → Exception → Prop
  | .estimate _ outcome, e => outcome = .error e
  | .evaluate _ outcome, e => outcome = .error e
  | .send _ _, _ | .sendUi _, _ | .parse _, _ => False

/-- An end that is no exception comes from a call to the engine. -/
abbrev FromEngine {α : Type} (x : Connection D α) : Prop := Traced Stuck Action.Fails x

theorem preflight_fromEngine (total : Nat) (questions : List Systemone.ChoiceQuestion) :
    FromEngine (preflight service total questions) := by
  induction questions generalizing total with
  | nil => exact .lift (Throws.ok total)
  | cons question questions ih =>
    rw [preflight]
    refine Traced.bind (.call fun e he _ => he) fun positions _ => ?_
    split
    · refine .lift (Q := fun _ => True) ?_
      rintro (h | h) <;> cases h
    · exact ih _

theorem evaluateAll_fromEngine (questions : List Systemone.ChoiceQuestion) :
    FromEngine (evaluateAll service questions) := by
  induction questions with
  | nil => exact .lift (Throws.ok [])
  | cons question questions ih =>
    rw [evaluateAll]
    refine Traced.bind (.call fun e he _ => he) fun result _ => ?_
    exact Traced.bind ih fun results _ => .lift (Throws.ok _)

theorem sendJson_fromEngine (status : Nat) (body : Json.Value D) :
    FromEngine (sendJson service status body) := by
  refine Traced.bind (.lift (stringify_throws _ _)) fun encoded _ => ?_
  exact .call nofun

theorem sendUi_fromEngine : FromEngine (sendUi service) := by
  refine Traced.bind (.lift (Q := fun _ => True) ?_) fun body _ => .call nofun
  unfold uiBody
  split
  · exact Throws.outOfRange _
  · exact Throws.ok _

theorem answerRequest_fromEngine (request : Systemone.Request) :
    FromEngine (answerRequest service request) := by
  refine Traced.bind (preflight_fromEngine service _ _) fun total _ => ?_
  refine Traced.bind (evaluateAll_fromEngine service _) fun results _ => ?_
  refine Traced.bind (.lift (makeResponse_throws _ _ _ _ _)) fun response _ => ?_
  refine Traced.bind (.lift (withMetadata_throws _ _ _)) fun response _ => ?_
  exact sendJson_fromEngine service 200 response

theorem decideEnvelope_fromEngine {body : Bytes} {envelope : Json.Value D}
    (h : Json.parse service.numbers body = .ok envelope) (requestId : Option Bytes) :
    FromEngine (decideEnvelope service envelope requestId) := by
  refine Traced.bind (.lift (parseRequest_throws service h)) fun request _ => ?_
  refine Traced.bind (.lift (imageTooLarge_throws service _)) fun tooLarge _ => ?_
  split
  · exact sendJson_fromEngine service _ _
  · exact answerRequest_fromEngine service request

theorem catchException_fromEngine {α : Type} {x handler : Connection D α} (hx : FromEngine x)
    (hhandler : FromEngine handler) : FromEngine (catchException x handler) := by
  refine Traced.handle hx fun e _ => ?_
  cases e with
  | undefinedBehavior => exact Or.inl ⟨Or.inl rfl, rfl⟩
  | diverges => exact Or.inl ⟨Or.inr rfl, rfl⟩
  | _ => exact Or.inr hhandler

theorem handleDecisionError_fromEngine (requestId : Option Bytes) {x : Connection D Unit}
    (hx : FromEngine x) : FromEngine (x.handle (handleDecisionError service requestId)) := by
  refine Traced.handle hx fun e _ => ?_
  cases e with
  | undefinedBehavior => exact Or.inl ⟨Or.inl rfl, rfl⟩
  | diverges => exact Or.inl ⟨Or.inr rfl, rfl⟩
  | _ => exact Or.inr (sendJson_fromEngine service _ _)

theorem handleSystemone_fromEngine (request : HttpRequest) :
    FromEngine (handleSystemone service request) := by
  unfold handleSystemone
  split
  · exact sendJson_fromEngine service _ _
  · refine Traced.bind (catchException_fromEngine (.call ?_) (.lift (Throws.ok none))) ?_
    · intro e he hstuck
      obtain ⟨e', hparse, rfl⟩ : ∃ e', Json.parse service.numbers request.body = .error e' ∧
          e' = e := by
        cases hparse : Json.parse service.numbers request.body with
        | ok value =>
          rw [hparse] at he
          cases he
        | error e' =>
          rw [hparse] at he
          exact ⟨e', rfl, Except.error.inj he⟩
      exact absurd hstuck ((parse_throws service.numbers request.body).of_eq_error hparse)
    · intro parsed hparsed
      cases parsed with
      | none => exact sendJson_fromEngine service _ _
      | some envelope =>
        obtain ⟨outcome, _, hresult, hok⟩ := @parseBody_result D service request.body
        have hparse := hok envelope (hresult.symm.trans hparsed)
        exact handleDecisionError_fromEngine service _ (decideEnvelope_fromEngine service hparse _)

theorem dispatch_fromEngine (parsed : ParseResult) : FromEngine (dispatch service parsed) := by
  unfold dispatch
  dsimp only
  split_ifs
  iterate 5 exact sendJson_fromEngine service _ _
  · exact sendUi_fromEngine service
  · exact sendJson_fromEngine service _ _
  · exact handleSystemone_fromEngine service _

/-! ## One answer -/

/-- The action sends an answer. -/
def Action.answers : Action D → Bool
  | .send _ _ | .sendUi _ => true
  | .parse _ | .estimate _ _ | .evaluate _ _ => false

/-- The answer is sent once, behind all else, and not at all if nothing is returned. -/
abbrev AnswersOnce {α : Type} (x : Connection D α) : Prop := EndsOnce Action.answers x

theorem sendJson_once (status : Nat) (body : Json.Value D) :
    AnswersOnce (sendJson service status body) :=
  EndsOnce.bind (.lift _) fun _ => .call rfl ()

theorem sendUi_once : AnswersOnce (sendUi service) :=
  EndsOnce.bind (.lift _) fun _ => .call rfl ()

theorem preflight_silent (total : Nat) (questions : List Systemone.ChoiceQuestion) :
    Silent Action.answers (preflight service total questions) := by
  obtain ⟨turns, hlog⟩ := @preflight_log D service total questions
  intro action haction
  rw [hlog] at haction
  obtain ⟨_, _, rfl⟩ := List.mem_map.mp haction
  rfl

theorem evaluateAll_silent (questions : List Systemone.ChoiceQuestion) :
    Silent Action.answers (evaluateAll service questions) := by
  obtain ⟨turns, hlog⟩ := @evaluateAll_log D service questions
  intro action haction
  rw [hlog] at haction
  obtain ⟨_, _, rfl⟩ := List.mem_map.mp haction
  rfl

theorem answerRequest_once (request : Systemone.Request) :
    AnswersOnce (answerRequest service request) := by
  refine EndsOnce.bind (preflight_silent service _ _) fun total => ?_
  refine EndsOnce.bind (evaluateAll_silent service _) fun results => ?_
  refine EndsOnce.bind (.lift _) fun response => ?_
  exact EndsOnce.bind (.lift _) fun response => sendJson_once service 200 response

theorem decideEnvelope_once (envelope : Json.Value D) (requestId : Option Bytes) :
    AnswersOnce (decideEnvelope service envelope requestId) := by
  refine EndsOnce.bind (.lift _) fun request => ?_
  refine EndsOnce.bind (.lift _) fun tooLarge => ?_
  split
  · exact sendJson_once service _ _
  · exact answerRequest_once service request

theorem handleDecisionError_once (requestId : Option Bytes) (e : Exception) :
    AnswersOnce (handleDecisionError service requestId e) := by
  cases e with
  | undefinedBehavior => exact .throw _
  | diverges => exact .throw _
  | _ => exact sendJson_once service _ _

theorem catchException_once {x handler : Connection D Unit} (hx : AnswersOnce x)
    (hhandler : AnswersOnce handler) : AnswersOnce (catchException x handler) := by
  refine EndsOnce.handle hx fun e => ?_
  cases e with
  | undefinedBehavior => exact .throw _
  | diverges => exact .throw _
  | _ => exact hhandler

theorem catchException_silent {α : Type} {x handler : Connection D α}
    (hx : Silent Action.answers x) (hhandler : Silent Action.answers handler) :
    Silent Action.answers (catchException x handler) := by
  refine Every.handle hx fun e _ => ?_
  cases e with
  | undefinedBehavior => exact .lift _
  | diverges => exact .lift _
  | _ => exact hhandler

theorem handleSystemone_once (request : HttpRequest) :
    AnswersOnce (handleSystemone service request) := by
  unfold handleSystemone
  split
  · exact sendJson_once service _ _
  · refine EndsOnce.bind (catchException_silent (Silent.call rfl _) (.lift _)) ?_
    intro parsed
    cases parsed with
    | none => exact sendJson_once service _ _
    | some envelope =>
      exact (decideEnvelope_once service _ _).handle (handleDecisionError_once service _)

theorem dispatch_once (parsed : ParseResult) : AnswersOnce (dispatch service parsed) := by
  unfold dispatch
  dsimp only
  split_ifs
  iterate 5 exact sendJson_once service _ _
  · exact sendUi_once service
  · exact sendJson_once service _ _
  · exact handleSystemone_once service _

/-- Only a call to the engine that has ended as no exception does ends a connection so. -/
theorem handleConnection_stuck (events : List ParserEvent) (ending : Ending) (e : Exception)
    (he : (handleConnection service events ending).result = .error e) :
    Stuck e ∧ ∃ action ∈ (handleConnection service events ending).log, action.Fails e := by
  have hstuck : Stuck e := by
    obtain ⟨response, hsent⟩ := @sendError_eq D service 500 (bytes "internal_error") none
    rw [handleConnection, catchException, hsent] at he
    cases hrun : (dispatch service (receiveRequest service.requireBearer service.bearerToken events
        ending)).result with
    | ok u =>
      rw [handle_of_ok hrun, hrun] at he
      cases he
    | error e' =>
      rw [handle_of_error hrun] at he
      cases e' with
      | undefinedBehavior => exact Or.inl (Except.error.inj he).symm
      | diverges => exact Or.inr (Except.error.inj he).symm
      | _ => cases he
  have htraced : FromEngine (handleConnection service events ending) :=
    catchException_fromEngine (dispatch_fromEngine service _) (sendJson_fromEngine service _ _)
  exact ⟨hstuck, htraced e he hstuck⟩

theorem handleConnection_once (events : List ParserEvent) (ending : Ending) :
    AnswersOnce (handleConnection service events ending) :=
  catchException_once (dispatch_once service _) (sendJson_once service _ _)

/-- Every connection that is handled to its end has been answered once, behind all else that
was done for it. Where it is not, nothing was answered, and a call to the engine has ended as
no exception does. -/
theorem handleConnection_replies (service : Service D) (events : List ParserEvent)
    (ending : Ending) :
    AnswersOnce (handleConnection service events ending) ∧
    ∀ e, (handleConnection service events ending).result = .error e →
      Stuck e ∧ ∃ action ∈ (handleConnection service events ending).log, action.Fails e :=
  ⟨handleConnection_once service events ending, handleConnection_stuck service events ending⟩

end Handlers

end Branchscore.Server
