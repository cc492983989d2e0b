import Branchscore.Json.MemberOrder
import Branchscore.SystemoneAdapter.Accepted

/-!
# Requests do not depend on the order of members

Two bodies that differ only in the written order of object members and in white space
are read as the same request, and the prompts rendered for its questions are the same.
-/

namespace Branchscore.Systemone

open Foundation Outcome
set_option autoImplicit false

variable {D : Type}

/-- The request in a body. -/
def readRequest (lib : Json.NumberLibrary D) (stb : StbImage) (advertisedModelId body : Bytes) :
    Except Exception Request := do
  let envelope ← Json.parse lib body
  parseRequest lib stb envelope advertisedModelId

def renderQuestion (lib : Json.NumberLibrary D) (ggufChatTemplatePresent : Bool)
    (question : ChoiceQuestion) : Except Exception RenderedPrompt :=
  let decision := question.decision
  Gemma4PromptRenderer.render lib decision.state decision.question decision.options
    decision.hasImage decision.promptPolicy decision.chatTemplateFile ggufChatTemplatePresent

/-- The prompts of the questions in a body. -/
def readPrompts (lib : Json.NumberLibrary D) (stb : StbImage) (advertisedModelId : Bytes)
    (ggufChatTemplatePresent : Bool) (body : Bytes) : Except Exception (List RenderedPrompt) := do
  let request ← readRequest lib stb advertisedModelId body
  request.questions.mapM (renderQuestion lib ggufChatTemplatePresent)

/-- Questions by id and the options of each by id, both in byte order. -/
def Request.Ordered (request : Request) : Prop :=
  (request.questions.map ChoiceQuestion.id).Pairwise (· < ·) ∧
    ∀ question ∈ request.questions,
      (question.decision.options.map DecisionOption.id).Pairwise (· < ·)

theorem Request.Of.ordered {envelope : Json.Value D} {request : Request}
    (h : request.Of envelope) : request.Ordered := by
  obtain ⟨members, _, hsorted, hquestions⟩ := h
  constructor
  · rw [forall₂_map_eq hquestions fun _ _ h => h.1]
    exact hsorted.keys
  · refine forall₂_forall_right hquestions ?_
    rintro member question ⟨_, criteria, _, hcriteria, hids⟩
    rw [hids]
    exact hcriteria.keys

section Order
variable {lib : Json.NumberLibrary D} {stb : StbImage} {model body body' : Bytes}

theorem parseRequest_model {envelope : Json.Value D} {request : Request}
    (h : parseRequest lib stb envelope model = .ok request) : model ≠ [] := by
  intro hmodel
  obtain ⟨_, _, h⟩ := bind_eq_ok.mp h
  obtain ⟨_, _, h⟩ := bind_eq_ok.mp h
  rw [if_pos hmodel] at h
  cases h

theorem readRequest_ordered {request : Request}
    (h : readRequest lib stb model body = .ok request) : request.Ordered := by
  obtain ⟨envelope, hparse, hrequest⟩ := bind_eq_ok.mp h
  have hends := parseRequest_ends stb (Json.parse_regular hparse) (parseRequest_model hrequest)
  exact (hends.of_eq_ok hrequest).2.ordered

/-- What is computed from the value of a body is the same for bodies with the same value. -/
theorem bind_congr_ok {α β : Type} {x x' : Except Exception α} (f : α → Except Exception β)
    (h : ∀ a, x = .ok a ↔ x' = .ok a) (b : β) : (x >>= f) = .ok b ↔ (x' >>= f) = .ok b := by
  simp only [bind_eq_ok, h]

/-- The written order of members leaves no trace in the value, in the request, whose
questions and options are in the order of their ids, or in the prompts and identities. -/
theorem memberOrder_irrelevant (hread : Json.ReadsNumbers lib) {tree tree' : Json.WireTree D}
    (h : Json.Grammar.Writes (Json.Grammar.Denotes lib) body tree)
    (h' : Json.Grammar.Writes (Json.Grammar.Denotes lib) body' tree') (hsame : tree.Same tree') :
    (∀ value, Json.parse lib body = .ok value ↔ Json.parse lib body' = .ok value) ∧
    (∀ request, readRequest lib stb model body = .ok request ↔
      readRequest lib stb model body' = .ok request) ∧
    (∀ request, readRequest lib stb model body = .ok request → request.Ordered) ∧
    ∀ present prompts, readPrompts lib stb model present body = .ok prompts ↔
      readPrompts lib stb model present body' = .ok prompts := by
  rw [← Json.scans_eq_denotes hread] at h h'
  have hparse := Json.parse_same h h' hsame
  have hrequest := bind_congr_ok (fun envelope => parseRequest lib stb envelope model) hparse
  exact ⟨hparse, hrequest, fun _ => readRequest_ordered, fun _ => bind_congr_ok _ hrequest⟩

/-- `sampleBody` with the members of its objects in another order. -/
def reorderedBody : Bytes :=
  bytes "\x7b \"questions\": \x7b\"q\": \x7b\"criteria\": \x7b\"no\": null, \"yes\": \"y\"\x7d, " ++
  bytes "\"type\": \"choice\", \"instructions\": \"i\"\x7d\x7d,\"state\": [7], \"model\": \"m\"\x7d"

set_option maxRecDepth 8000 in
theorem reorderedBody_parse : Json.parse Json.digitNumbers reorderedBody = .ok sampleEnvelope :=
  rfl

def sampleRequest : Request where
  modelId := bytes "m"
  requestId := none
  imageBytes := none
  questions := [⟨bytes "q", {
    state := bytes "[7]"
    question := bytes "i"
    options := [⟨bytes "no", bytes "no"⟩, ⟨bytes "yes", bytes "yes: y"⟩] }⟩]

theorem sampleRequest_read :
    readRequest Json.digitNumbers noImages (bytes "m") sampleBody = .ok sampleRequest := by
  rw [readRequest, sampleBody_parse]
  rfl

theorem memberOrder_irrelevant_sample :
    readRequest Json.digitNumbers noImages (bytes "m") reorderedBody = .ok sampleRequest ∧
      sampleRequest.Ordered := by
  obtain ⟨tree, tree', h, h', hsame⟩ := Json.exists_same sampleBody_parse reorderedBody_parse
  have hread : Json.ReadsNumbers Json.digitNumbers := fun _ _ => rfl
  rw [Json.scans_eq_denotes hread] at h h'
  obtain ⟨_, hrequest, hordered, _⟩ :=
    @memberOrder_irrelevant _ _ noImages (bytes "m") _ _ hread _ _ h h' hsame
  exact ⟨(hrequest sampleRequest).mp sampleRequest_read, hordered sampleRequest sampleRequest_read⟩

end Order

end Branchscore.Systemone
