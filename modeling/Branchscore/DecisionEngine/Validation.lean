import Branchscore.Decision
import Branchscore.Foundation.Outcome

/-! The checks the decision engine makes on a request before it renders it. -/

namespace Branchscore

open Foundation Outcome
set_option autoImplicit false

namespace Gemma4DecisionEngine

/-- The loop over the options, with the ids seen so far. -/
def validateOptions : List Bytes → List DecisionOption → Except Exception Unit
  | _, [] => .ok ()
  | ids, option :: options =>
    if option.id = [] then runtimeError "option IDs must not be empty"
    else if option.description = [] then runtimeError "option descriptions must not be empty"
    else if option.id ∈ ids then runtimeError "option IDs must be unique"
    else validateOptions (option.id :: ids) options

def validateRequest (request : DecisionRequest) : Except Exception Unit := do
  throwIf (request.state = []) "state must not be empty"
  throwIf (request.question = []) "question must not be empty"
  throwIf (request.options.length < minDecisionOptions ∨
    maxDecisionOptions < request.options.length) "decision request must contain 2-512 options"
  validateOptions [] request.options
  throwIf (request.imagePath = some []) "image path must not be empty"
  throwIf (request.imagePath.isSome ∧ request.imageBytes.isSome)
    "request must use either an image path or image bytes"
  throwIf (request.chatTemplateFile = some []) "chat template file name must not be empty"
  throwIf (request.captureVisionDebug ∧ ¬request.hasImage)
    "vision debug capture requires an image"

end Gemma4DecisionEngine

/-- What `validate_request` accepts. -/
structure DecisionRequest.Valid (request : DecisionRequest) : Prop where
  state : request.state ≠ []
  question : request.question ≠ []
  minOptions : minDecisionOptions ≤ request.options.length
  maxOptions : request.options.length ≤ maxDecisionOptions
  ids : ∀ option ∈ request.options, option.id ≠ []
  descriptions : ∀ option ∈ request.options, option.description ≠ []
  unique : (request.options.map DecisionOption.id).Nodup
  imagePath : request.imagePath ≠ some []
  oneImage : ¬(request.imagePath.isSome ∧ request.imageBytes.isSome)
  chatTemplateFile : request.chatTemplateFile ≠ some []
  visionDebug : request.captureVisionDebug → request.hasImage

namespace Gemma4DecisionEngine

theorem validateOptions_eq_ok {ids : List Bytes} {options : List DecisionOption} {u : Unit} :
    validateOptions ids options = .ok u ↔
      (∀ option ∈ options, option.id ≠ [] ∧ option.description ≠ [] ∧ option.id ∉ ids) ∧
      (options.map DecisionOption.id).Nodup := by
  induction options generalizing ids with
  | nil => simp [validateOptions]
  | cons option options ih =>
    simp only [validateOptions, List.forall_mem_cons, List.map_cons, List.nodup_cons]
    split
    · simp [runtimeError, *]
    split
    · simp [runtimeError, *]
    split
    · simp [runtimeError, *]
    rw [ih]
    constructor
    · rintro ⟨hall, hnodup⟩
      refine ⟨⟨⟨‹_›, ‹_›, ‹_›⟩, fun o ho => ?_⟩, ?_, hnodup⟩
      · obtain ⟨hid, hdesc, hnot⟩ := hall o ho
        exact ⟨hid, hdesc, fun hm => hnot (List.mem_cons_of_mem _ hm)⟩
      · intro hm
        obtain ⟨o, ho, he⟩ := List.mem_map.mp hm
        exact (hall o ho).2.2 (he ▸ List.mem_cons_self)
    · rintro ⟨⟨_, hall⟩, hnew, hnodup⟩
      refine ⟨fun o ho => ⟨(hall o ho).1, (hall o ho).2.1, ?_⟩, hnodup⟩
      intro hm
      rcases List.mem_cons.mp hm with he | hm
      · exact hnew (he ▸ List.mem_map_of_mem ho)
      · exact (hall o ho).2.2 hm

theorem validateRequest_eq_ok (request : DecisionRequest) :
    validateRequest request = .ok () ↔ request.Valid := by
  simp only [validateRequest, bind_eq_ok, throwIf_eq_ok, exists_const, validateOptions_eq_ok,
    not_or, Nat.not_lt]
  constructor
  · rintro ⟨hs, hq, ⟨hmin, hmax⟩, ⟨hall, hnodup⟩, hp, hone, hf, hv⟩
    exact ⟨hs, hq, hmin, hmax, fun o ho => (hall o ho).1, fun o ho => (hall o ho).2.1, hnodup, hp,
      hone, hf, fun hd => by simpa [hd] using hv⟩
  · rintro ⟨hs, hq, hmin, hmax, hids, hdescs, hnodup, hp, hone, hf, hv⟩
    refine ⟨hs, hq, ⟨hmin, hmax⟩, ⟨fun o ho => ⟨hids o ho, hdescs o ho, by simp⟩, hnodup⟩, hp, hone,
      hf, fun h => h.2 (hv h.1)⟩

end Gemma4DecisionEngine

end Branchscore
