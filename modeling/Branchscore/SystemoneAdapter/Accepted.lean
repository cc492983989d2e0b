import Branchscore.DecisionEngine.Validation
import Branchscore.PromptRenderer
import Branchscore.SystemoneAdapter.Request

/-!
# What the adapter accepts

On a parsed body the adapter throws nothing but `RequestError`, and the requests it
returns pass every check the engine and the renderer make later.
-/

namespace Branchscore.Systemone

open Foundation Outcome
set_option autoImplicit false

variable {D : Type}

def IsRequestError (e : Exception) : Prop := ∃ code message, e = .requestError code message

theorem requestError_ends {α : Type} {Q : α → Prop} (code : String) (message : Bytes) :
    Ends IsRequestError Q (requestError code message) := ⟨_, _, rfl⟩

theorem rejectIf_ends (c : Prop) [Decidable c] (code : String) (message : Bytes) :
    Ends IsRequestError (fun _ => ¬c) (rejectIf c code message) := by
  unfold rejectIf
  split
  · exact requestError_ends _ _
  · assumption

/-! ## Field access -/

theorem find_eq_some {value item : Json.Value D} {key : Bytes} (h : value.find key = some item) :
    ∃ members, value = .object members ∧ (key, item) ∈ members := by
  cases value with
  | object members =>
    simp only [Json.Value.find, SortedMap.lookup, Option.map_eq_some_iff] at h
    obtain ⟨entry, he, rfl⟩ := h
    have hk : entry.1 = key := by simpa using List.find?_some he
    exact ⟨members, rfl, hk ▸ List.mem_of_find?_eq_some he⟩
  | _ => simp [Json.Value.find] at h

theorem find_regular {finite : D → Prop} {value item : Json.Value D} {key : Bytes}
    (hregular : value.Regular finite) (h : value.find key = some item) : item.Regular finite := by
  obtain ⟨members, rfl, hm⟩ := find_eq_some h
  cases hregular with
  | object _ hall => exact hall _ hm

theorem required_ends (object : Json.Value D) (key : Bytes) :
    Ends IsRequestError (fun value => object.find key = some value) (required object key) := by
  unfold required
  split
  · assumption
  · exact requestError_ends _ _

theorem requiredString_ends (object : Json.Value D) (key : Bytes) :
    Ends IsRequestError (fun _ => True) (requiredString object key) := by
  refine (required_ends object key).bind fun value _ => ?_
  split
  · trivial
  · exact requestError_ends _ _

theorem requireObject_ends (value : Json.Value D) (field : Bytes) :
    Ends IsRequestError (fun _ => ∃ members, value = .object members)
      (requireObject value field) := by
  unfold requireObject
  split
  · exact ⟨_, rfl⟩
  · exact requestError_ends _ _

theorem rejectUnknownFields_ends (members : List (Bytes × Json.Value D)) (supported : List Bytes)
    (field : Bytes) :
    Ends IsRequestError (fun _ => True) (rejectUnknownFields (.object members) supported field) :=
  Ends.forM fun _ _ => (rejectIf_ends _ _ _).mono fun _ _ => trivial

theorem serializeState_ends {lib : Json.NumberLibrary D} {state : Json.Value D}
    (h : state.Regular fun d => lib.isfinite d = true) :
    Ends IsRequestError (fun text => text ≠ []) (serializeState lib state) := by
  unfold serializeState
  cases state with
  | string value => exact (rejectIf_ends _ _ _).bind fun _ hne => hne
  | array items =>
    obtain ⟨text, htext, hne⟩ := Json.stringify_eq_ok h
    dsimp only
    rw [htext]
    exact hne (Or.inl ⟨_, rfl⟩)
  | object members =>
    obtain ⟨text, htext, hne⟩ := Json.stringify_eq_ok h
    dsimp only
    rw [htext]
    exact hne (Or.inr ⟨_, rfl⟩)
  | _ => exact requestError_ends _ _

/-! ## Images -/

theorem decodeGroup_ends (c0 c1 c2 c3 : Byte) (last : Bool) :
    Ends IsRequestError (fun _ => True) (decodeGroup c0 c1 c2 c3 last) := by
  unfold decodeGroup
  dsimp only
  split
  · split
    · exact requestError_ends _ _
    · trivial
  · exact requestError_ends _ _

theorem decodeGroups_ends (decoded encoded : Bytes) (h : encoded.length % 4 = 0) :
    Ends IsRequestError (fun _ => True) (decodeGroups decoded encoded) := by
  induction decoded, encoded using decodeGroups.induct with
  | case1 decoded c0 c1 c2 c3 rest ih =>
    refine (decodeGroup_ends c0 c1 c2 c3 _).bind fun group _ => ?_
    apply ih
    simp only [List.length_cons] at h
    omega
  | case2 decoded => trivial
  | case3 encoded decoded hcons hnil =>
    rcases encoded with _ | ⟨c0, _ | ⟨c1, _ | ⟨c2, _ | ⟨c3, rest⟩⟩⟩⟩
    · exact absurd rfl hnil
    · simp at h
    · simp at h
    · simp at h
    · exact absurd rfl (hcons c0 c1 c2 c3 rest)

theorem decodeBase64_ends (encoded : Bytes) :
    Ends IsRequestError (fun _ => True) (decodeBase64 encoded) := by
  unfold decodeBase64
  split
  · exact requestError_ends _ _
  · rename_i h
    exact decodeGroups_ends _ _ (not_not.mp (not_or.mp h).2)

theorem parseImage_ends (stb : StbImage) (image : Json.Value D) :
    Ends IsRequestError (fun _ => True) (parseImage stb image) := by
  refine (requireObject_ends image _).bind fun _ ⟨members, hobject⟩ => ?_
  rw [hobject]
  refine (rejectUnknownFields_ends members _ _).bind fun _ _ => ?_
  refine (requiredString_ends _ _).bind fun mediaType _ => ?_
  refine (requiredString_ends _ _).bind fun encoded _ => ?_
  refine (rejectIf_ends _ _ _).bind fun _ _ => ?_
  refine (decodeBase64_ends encoded).bind fun decoded _ => ?_
  refine (rejectIf_ends _ _ _).bind fun _ _ => ?_
  split
  · exact requestError_ends _ _
  · trivial

/-! ## Questions -/

theorem parseCriterion_ends (criterion : Bytes × Json.Value D) :
    Ends IsRequestError (fun option => option.id = criterion.1 ∧ option.id ≠ [] ∧
      option.description ≠ []) (parseCriterion criterion) := by
  obtain ⟨optionId, description⟩ := criterion
  refine (rejectIf_ends _ _ _).bind fun _ hne => ?_
  cases description with
  | null => exact ⟨rfl, hne, hne⟩
  | string text => exact ⟨rfl, hne, by simp [hne]⟩
  | _ => exact requestError_ends _ _

theorem forall₂_map_eq {α β γ : Type} {f : α → γ} {g : β → γ} {as : List α} {bs : List β}
    {R : α → β → Prop} (h : List.Forall₂ R as bs) (hR : ∀ a b, R a b → g b = f a) :
    bs.map g = as.map f := by
  induction h with
  | nil => rfl
  | cons hab _ ih => rw [List.map_cons, List.map_cons, hR _ _ hab, ih]

theorem forall₂_forall_right {α β : Type} {P : β → Prop} {as : List α} {bs : List β}
    {R : α → β → Prop} (h : List.Forall₂ R as bs) (hR : ∀ a b, R a b → P b) : ∀ b ∈ bs, P b := by
  induction h with
  | nil => simp
  | cons hab _ ih => exact List.forall_mem_cons.mpr ⟨hR _ _ hab, ih⟩

/-- The question read out of a member of the questions object: its options are the members
of the criteria object, in the order of their keys. -/
def QuestionOf (member : Bytes × Json.Value D) (question : ChoiceQuestion) : Prop :=
  question.id = member.1 ∧ ∃ criteria, member.2.find (bytes "criteria") = some (.object criteria) ∧
    SortedMap.Sorted criteria ∧
    question.decision.options.map DecisionOption.id = criteria.map Prod.fst

theorem parseQuestion_ends {finite : D → Prop} {state : Bytes} (hstate : state ≠ [])
    (imageBytes : Option Bytes) {question : Bytes × Json.Value D}
    (hregular : question.2.Regular finite) :
    Ends IsRequestError (fun result => QuestionOf question result ∧ result.id ≠ [] ∧
      result.decision.Valid) (parseQuestion state imageBytes question) := by
  obtain ⟨questionId, value⟩ := question
  refine (rejectIf_ends _ _ _).bind fun _ hid => ?_
  refine (requireObject_ends value _).bind fun _ ⟨members, hobject⟩ => ?_
  subst hobject
  refine (rejectUnknownFields_ends members _ _).bind fun _ _ => ?_
  refine (requiredString_ends _ _).bind fun type _ => ?_
  refine (rejectIf_ends _ _ _).bind fun _ _ => ?_
  refine (requiredString_ends _ _).bind fun instructions _ => ?_
  refine (rejectIf_ends _ _ _).bind fun _ hinstructions => ?_
  refine (required_ends _ _).bind fun criteria hcriteria => ?_
  refine (requireObject_ends criteria _).bind fun _ ⟨entries, hentries⟩ => ?_
  subst hentries
  have hsorted : SortedMap.Sorted entries := by
    cases find_regular hregular hcriteria with
    | object hsorted => exact hsorted
  simp only [Json.Value.asObject, ok_bind]
  refine (rejectIf_ends _ _ _).bind fun _ hcount => ?_
  refine (Ends.mapM fun criterion _ => parseCriterion_ends criterion).bind fun options hoptions => ?_
  have hlen : entries.length = options.length := hoptions.length_eq
  have hids : options.map DecisionOption.id = entries.map Prod.fst :=
    forall₂_map_eq hoptions fun _ _ h => h.1
  simp only [not_or, Nat.not_lt] at hcount
  exact ⟨⟨rfl, entries, hcriteria, hsorted, hids⟩, hid, {
    state := hstate
    question := hinstructions
    minOptions := hlen ▸ hcount.1
    maxOptions := hlen ▸ hcount.2
    ids := forall₂_forall_right hoptions fun _ _ h => h.2.1
    descriptions := forall₂_forall_right hoptions fun _ _ h => h.2.2
    unique := hids ▸ hsorted.nodup_keys
    imagePath := by simp
    oneImage := by simp
    chatTemplateFile := by simp
    visionDebug := by simp }⟩

theorem parseRequestId_ends (envelope : Json.Value D) :
    Ends IsRequestError (fun _ => True) (parseRequestId envelope) := by
  unfold parseRequestId
  split
  · trivial
  · trivial
  · exact requestError_ends _ _

theorem parseRequestImage_ends (stb : StbImage) (envelope : Json.Value D) :
    Ends IsRequestError (fun _ => True) (parseRequestImage stb envelope) := by
  unfold parseRequestImage
  split
  · trivial
  · rename_i image _
    have h := parseImage_ends stb image
    cases hparse : parseImage stb image with
    | ok decoded => trivial
    | error e =>
      rw [hparse] at h
      exact h

/-- What the adapter returns. -/
structure Request.Valid (request : Request) : Prop where
  minQuestions : 1 ≤ request.questions.length
  maxQuestions : request.questions.length ≤ maxQuestionsPerRequest
  ids : ∀ question ∈ request.questions, question.id ≠ []
  unique : (request.questions.map ChoiceQuestion.id).Nodup
  decisions : ∀ question ∈ request.questions, question.decision.Valid

/-- The questions are the members of the questions object, in the order of their keys. -/
def Request.Of (envelope : Json.Value D) (request : Request) : Prop :=
  ∃ members, envelope.find (bytes "questions") = some (.object members) ∧
    SortedMap.Sorted members ∧ List.Forall₂ QuestionOf members request.questions

theorem parseRequest_ends {lib : Json.NumberLibrary D} (stb : StbImage)
    {envelope : Json.Value D} (hregular : envelope.Regular fun d => lib.isfinite d = true)
    {advertisedModelId : Bytes} (hmodel : advertisedModelId ≠ []) :
    Ends IsRequestError (fun request => request.Valid ∧ request.Of envelope)
      (parseRequest lib stb envelope advertisedModelId) := by
  refine (requireObject_ends envelope _).bind fun _ ⟨members, hobject⟩ => ?_
  subst hobject
  refine (rejectUnknownFields_ends members _ _).bind fun _ _ => ?_
  rw [if_neg hmodel]
  refine (required_ends _ _).bind fun stateValue hstateValue => ?_
  refine (serializeState_ends (find_regular hregular hstateValue)).bind fun state hstate => ?_
  refine (requiredString_ends _ _).bind fun modelId _ => ?_
  refine (rejectIf_ends _ _ _).bind fun _ _ => ?_
  refine (parseRequestId_ends _).bind fun requestId _ => ?_
  refine (parseRequestImage_ends stb _).bind fun imageBytes _ => ?_
  refine (required_ends _ _).bind fun questions hquestions => ?_
  refine (requireObject_ends questions _).bind fun _ ⟨entries, hentries⟩ => ?_
  subst hentries
  obtain ⟨hsorted, hall⟩ : SortedMap.Sorted entries ∧
      ∀ entry ∈ entries, entry.2.Regular fun d => lib.isfinite d = true := by
    cases find_regular hregular hquestions with
    | object hsorted hall => exact ⟨hsorted, hall⟩
  simp only [Json.Value.asObject, ok_bind]
  refine (rejectIf_ends _ _ _).bind fun _ hne => ?_
  refine (rejectIf_ends _ _ _).bind fun _ hmax => ?_
  refine (Ends.mapM fun question hq => parseQuestion_ends hstate imageBytes (hall question hq)).bind
    fun results hresults => ?_
  have hlen : entries.length = results.length := hresults.length_eq
  have hids : results.map ChoiceQuestion.id = entries.map Prod.fst :=
    forall₂_map_eq hresults fun _ _ h => h.1.1
  refine ⟨?_, entries, hquestions, hsorted, hresults.imp fun _ _ h => h.1⟩
  exact {
    minQuestions := by
      rw [← hlen]
      exact List.length_pos_of_ne_nil hne
    maxQuestions := by
      rw [← hlen]
      exact Nat.not_lt.mp hmax
    ids := forall₂_forall_right hresults fun _ _ h => h.2.1
    unique := hids ▸ hsorted.nodup_keys
    decisions := forall₂_forall_right hresults fun _ _ h => h.2.2 }

/-- On a parsed body the adapter rejects with `RequestError` or returns a request whose
questions the engine and the renderer accept. -/
theorem parseRequest_rejects_or_valid (lib : Json.NumberLibrary D) (stb : StbImage)
    {body : Bytes} {envelope : Json.Value D} (hparse : Json.parse lib body = .ok envelope)
    {advertisedModelId : Bytes} (hmodel : advertisedModelId ≠ []) :
    (∃ code message, parseRequest lib stb envelope advertisedModelId =
      .error (.requestError code message)) ∨
    ∃ request, parseRequest lib stb envelope advertisedModelId = .ok request ∧ request.Valid ∧
      ∀ question ∈ request.questions,
        Gemma4DecisionEngine.validateRequest question.decision = .ok () ∧
        ∀ present, ∃ prompt, Gemma4PromptRenderer.render lib question.decision.state
          question.decision.question question.decision.options question.decision.hasImage
          question.decision.promptPolicy question.decision.chatTemplateFile present =
            .ok prompt := by
  have hends := parseRequest_ends stb (Json.parse_regular hparse) hmodel
  cases hresult : parseRequest lib stb envelope advertisedModelId with
  | error e =>
    obtain ⟨code, message, rfl⟩ := hends.of_eq_error hresult
    exact Or.inl ⟨code, message, rfl⟩
  | ok request =>
    obtain ⟨hvalid, _⟩ := hends.of_eq_ok hresult
    refine Or.inr ⟨request, rfl, hvalid, fun question hq => ?_⟩
    have hdecision := hvalid.decisions question hq
    refine ⟨(Gemma4DecisionEngine.validateRequest_eq_ok _).mpr hdecision, fun present => ?_⟩
    exact Gemma4PromptRenderer.exists_render hdecision.state hdecision.question
      hdecision.minOptions hdecision.maxOptions

/-- A decoder that knows no image. -/
def noImages : StbImage where
  info _ := .error none
  load _ := .error none
  loadFile _ := .error none

def sampleEnvelope : Json.Value (Fin 10) :=
  .object [(bytes "model", .string (bytes "m")),
    (bytes "questions", .object [(bytes "q", .object [
      (bytes "criteria", .object [(bytes "no", .null), (bytes "yes", .string (bytes "y"))]),
      (bytes "instructions", .string (bytes "i")), (bytes "type", .string (bytes "choice"))])]),
    (bytes "state", .array [.number 7])]

def sampleBody : Bytes :=
  bytes "\x7b\"state\": [7], \"model\": \"m\", \"questions\": \x7b\"q\": \x7b\"type\": \"choice\", " ++
  bytes "\"instructions\": \"i\", \"criteria\": \x7b\"yes\": \"y\", \"no\": null\x7d\x7d\x7d\x7d"

set_option maxRecDepth 8000 in
theorem sampleBody_parse : Json.parse Json.digitNumbers sampleBody = .ok sampleEnvelope := rfl

/-- The body is accepted, and its question passes the engine's check and is rendered. -/
theorem parseRequest_rejects_or_valid_sample :
    ∃ request, parseRequest Json.digitNumbers noImages sampleEnvelope (bytes "m") = .ok request ∧
      request.Valid ∧ request.questions ≠ [] ∧
      ∀ question ∈ request.questions,
        Gemma4DecisionEngine.validateRequest question.decision = .ok () ∧
        ∃ prompt, Gemma4PromptRenderer.render Json.digitNumbers question.decision.state
          question.decision.question question.decision.options question.decision.hasImage
          question.decision.promptPolicy question.decision.chatTemplateFile true = .ok prompt := by
  have hok : (parseRequest Json.digitNumbers noImages sampleEnvelope (bytes "m")).isOk = true := by
    decide +kernel
  rcases parseRequest_rejects_or_valid Json.digitNumbers noImages sampleBody_parse
    (by decide : bytes "m" ≠ []) with ⟨code, message, herror⟩ | ⟨request, hrequest, hvalid, hall⟩
  · rw [herror] at hok
    cases hok
  · refine ⟨request, hrequest, hvalid, List.ne_nil_of_length_pos hvalid.minQuestions,
      fun question hq => ?_⟩
    obtain ⟨hchecked, hrendered⟩ := hall question hq
    exact ⟨hchecked, hrendered true⟩

end Branchscore.Systemone
