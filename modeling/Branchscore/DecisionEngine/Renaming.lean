import Branchscore.DecisionEngine.Meaning

/-!
# The ids of the options are only names

Under other ids the same prompt is rendered and the same scores are read. An evaluation returns
the same result with the new ids in it.
-/

namespace Branchscore

open Foundation Outcome
set_option autoImplicit false

/-! ## Renaming -/

def DecisionOption.rename (f : Bytes → Bytes) (option : DecisionOption) : DecisionOption :=
  { option with id := f option.id }

def DecisionRequest.rename (f : Bytes → Bytes) (request : DecisionRequest) : DecisionRequest :=
  { request with options := request.options.map (DecisionOption.rename f) }

def RenderedAnswerSlot.rename (f : Bytes → Bytes) (slot : RenderedAnswerSlot) :
    RenderedAnswerSlot :=
  { slot with optionId := f slot.optionId }

def RenderedPrompt.rename (f : Bytes → Bytes) (prompt : RenderedPrompt) : RenderedPrompt :=
  { prompt with answerSlots := prompt.answerSlots.map (RenderedAnswerSlot.rename f) }

def OptionScore.rename {D : Type} (f : Bytes → Bytes) (score : OptionScore D) : OptionScore D :=
  { score with optionId := f score.optionId }

def DecisionResult.rename {D : Type} (f : Bytes → Bytes) (result : DecisionResult D) :
    DecisionResult D :=
  { result with
    optionScores := result.optionScores.map (OptionScore.rename f)
    selectedId := f result.selectedId }

def Prepared.rename (f : Bytes → Bytes) (prepared : Gemma4DecisionEngine.Prepared) :
    Gemma4DecisionEngine.Prepared :=
  { prepared with rendered := prepared.rendered.rename f }

section Maps
variable {ε α β γ : Type}

theorem map_bind_eq (x : Except ε α) (f : α → β) (g : β → Except ε γ) :
    x.map f >>= g = x >>= fun a => g (f a) := by
  cases x <;> rfl

theorem bind_map_eq (x : Except ε α) (g : α → Except ε β) (f : β → γ) :
    (x >>= g).map f = x >>= fun a => (g a).map f := by
  cases x <;> rfl

end Maps

/-! ## The prompt -/

section Prompt
variable {f : Bytes → Bytes}

theorem answerSlots_rename (extended : Bool) (options : List (DecisionOption × Nat)) :
    (options.map (Prod.map (DecisionOption.rename f) id)).mapM
        (Gemma4PromptRenderer.answerSlot extended) =
      (options.mapM (Gemma4PromptRenderer.answerSlot extended)).map
        (List.map (RenderedAnswerSlot.rename f)) := by
  induction options with
  | nil => rfl
  | cons option options ih =>
    have hslot : Gemma4PromptRenderer.answerSlot extended
        (Prod.map (DecisionOption.rename f) id option) =
          (Gemma4PromptRenderer.answerSlot extended option).map (RenderedAnswerSlot.rename f) := by
      unfold Gemma4PromptRenderer.answerSlot
      rw [bind_map_eq]
      rfl
    rw [List.map_cons, List.mapM_cons, List.mapM_cons, hslot, ih, map_bind_eq, bind_map_eq]
    congr 1
    funext slot
    rw [map_bind_eq, bind_map_eq]
    rfl

/-- What is shown of an option does not hold its id. -/
theorem renderedOptions_rename {D : Type} (slots : List RenderedAnswerSlot)
    (options : List DecisionOption) :
    ((slots.map (RenderedAnswerSlot.rename f)).zip (options.map (DecisionOption.rename f))).map
        (fun p => (Gemma4PromptRenderer.renderedOption p.1.label p.2.description : Json.Value D)) =
      (slots.zip options).map fun p =>
        Gemma4PromptRenderer.renderedOption p.1.label p.2.description := by
  rw [List.zip_map, List.map_map]
  rfl

theorem render_rename {D : Type} (lib : Json.NumberLibrary D) (state question : Bytes)
    (options : List DecisionOption) (hasImage : Bool) (policy : PromptPolicy)
    (file : Option Bytes) (present : Bool) :
    Gemma4PromptRenderer.render lib state question (options.map (DecisionOption.rename f)) hasImage
        policy file present =
      (Gemma4PromptRenderer.render lib state question options hasImage policy file present).map
        (RenderedPrompt.rename f) := by
  unfold Gemma4PromptRenderer.render
  rw [List.length_map, List.zipIdx_map]
  split_ifs
  iterate 4 rfl
  dsimp only
  rw [answerSlots_rename, map_bind_eq, bind_map_eq]
  congr 1
  funext slots
  rw [renderedOptions_rename, bind_map_eq]
  rfl

theorem answerTokens_rename (tokenizer : GemmaTokenizer) (text : Bytes) (seen : List TokenId)
    (slots : List RenderedAnswerSlot) :
    Gemma4DecisionEngine.answerTokens tokenizer text seen (slots.map (RenderedAnswerSlot.rename f)) =
      Gemma4DecisionEngine.answerTokens tokenizer text seen slots := by
  induction slots generalizing seen with
  | nil => rfl
  | cons slot slots ih =>
    rw [List.map_cons, Gemma4DecisionEngine.answerTokens, Gemma4DecisionEngine.answerTokens]
    congr 1
    funext answer
    congr 1
    funext _
    rw [ih]

end Prompt

/-! ## The engine -/

namespace Gemma4DecisionEngine
variable {R A Tensor Row : Type} (engine : Gemma4DecisionEngine R A Tensor Row)
  {request : DecisionRequest} {f : Bytes → Bytes}

theorem render_request_rename (request : DecisionRequest) :
    engine.render (request.rename f) = (engine.render request).map (RenderedPrompt.rename f) :=
  render_rename _ _ _ _ _ _ _ _

theorem prepare_rename (h : validateRequest request = .ok ())
    (h' : validateRequest (request.rename f) = .ok ()) :
    engine.prepare (request.rename f) = (engine.prepare request).map (Prepared.rename f) := by
  unfold prepare
  rw [h, h', ok_bind, ok_bind, render_request_rename, map_bind_eq, bind_map_eq]
  congr 1
  funext rendered
  rw [bind_map_eq]
  congr 1
  funext allIds
  rw [bind_map_eq]
  congr 1
  funext _
  rw [bind_map_eq]
  congr 1
  funext segments
  obtain ⟨tokensBefore, tokensAfter⟩ := segments
  dsimp only
  rw [bind_map_eq, RenderedPrompt.rename, answerTokens_rename]
  rfl

theorem encodeImage_rename (prepared : Prepared) :
    engine.encodeImage (request.rename f) (Branchscore.Prepared.rename f prepared) =
      engine.encodeImage request prepared := rfl

variable [Field R]

theorem decisionResult_rename (prepared : Prepared) (rawScores : List (Ieee R))
    (summary : CategoricalSummary R) (state : PrefillState Row) :
    engine.decisionResult (request.rename f) (Branchscore.Prepared.rename f prepared) rawScores
        summary state =
      (engine.decisionResult request prepared rawScores summary state).map
        (DecisionResult.rename f) := by
  have hscores : ((prepared.rendered.answerSlots.map (RenderedAnswerSlot.rename f)).zipIdx.map
      (optionScore (Branchscore.Prepared.rename f prepared) rawScores
        summary.relativeProbabilities)) =
      (prepared.rendered.answerSlots.zipIdx.map
        (optionScore prepared rawScores summary.relativeProbabilities)).map
          (OptionScore.rename f) := by
    rw [List.zipIdx_map, List.map_map, List.map_map]
    rfl
  unfold decisionResult
  dsimp only [Branchscore.Prepared.rename, RenderedPrompt.rename]
  dsimp only [Branchscore.Prepared.rename, RenderedPrompt.rename] at hscores
  rw [hscores, List.getElem?_map]
  cases (prepared.rendered.answerSlots.zipIdx.map
    (optionScore prepared rawScores summary.relativeProbabilities))[summary.selectedIndex]? with
  | none => rfl
  | some score =>
    rw [Option.map_some]
    dsimp only
    rw [bind_map_eq]
    rfl

variable [LinearOrder R]

/-- Under other ids an evaluation returns the same scores, and the estimate is the same. -/
theorem evaluate_rename (h : request.Valid) (h' : (request.rename f).Valid) :
    engine.evaluate (request.rename f) =
        (engine.evaluate request).map (DecisionResult.rename f) ∧
      engine.estimatePrefillPositions (request.rename f) =
        engine.estimatePrefillPositions request := by
  have hvalid := (validateRequest_eq_ok request).mpr h
  have hvalid' := (validateRequest_eq_ok (request.rename f)).mpr h'
  constructor
  · unfold evaluate
    rw [prepare_rename engine hvalid hvalid', map_bind_eq, bind_map_eq]
    congr 1
    funext prepared
    rw [encodeImage_rename, bind_map_eq]
    congr 1
    funext visualTokens
    rw [bind_map_eq]
    congr 1
    funext state
    rw [bind_map_eq]
    congr 1
    funext rawScores
    rw [bind_map_eq]
    congr 1
    funext summary
    exact decisionResult_rename engine _ _ _ _
  · unfold estimatePrefillPositions
    rw [hvalid, hvalid', ok_bind, ok_bind, render_request_rename, map_bind_eq]
    rfl

theorem evenEngine_evaluates : ∃ result, evenEngine.evaluate textRequest = .ok result :=
  @engineWith_evaluates evenEngine.library.numbers _ (by decide +kernel) zeroLogits_finite

/-- Both evaluations return, the second with the new ids and the scores of the first. -/
theorem evaluate_rename_sample : ∃ result,
    evenEngine.evaluate textRequest = .ok result ∧
      result.optionScores.map OptionScore.optionId = [bytes "a", bytes "b"] ∧
      evenEngine.evaluate (textRequest.rename fun id => bytes "new" ++ id) =
        .ok (result.rename fun id => bytes "new" ++ id) ∧
      evenEngine.estimatePrefillPositions (textRequest.rename fun id => bytes "new" ++ id) =
        .ok 287 := by
  have hvalid : validateRequest textRequest = .ok () := by decide
  have hvalid' : validateRequest (textRequest.rename fun id => bytes "new" ++ id) = .ok () := by
    decide
  have hestimate : evenEngine.estimatePrefillPositions textRequest = .ok 287 := by decide +kernel
  obtain ⟨hevaluate, hestimates⟩ := evaluate_rename evenEngine
    ((validateRequest_eq_ok _).mp hvalid) ((validateRequest_eq_ok _).mp hvalid')
  obtain ⟨result, hresult⟩ := evenEngine_evaluates
  obtain ⟨_, _, _, _, _, hscored⟩ := evaluate_scored hresult
  rw [hresult, map_of_ok] at hevaluate
  exact ⟨result, hresult, hscored.optionIds, hevaluate, hestimates.trans hestimate⟩

end Gemma4DecisionEngine

end Branchscore
