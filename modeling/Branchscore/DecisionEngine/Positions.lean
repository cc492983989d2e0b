import Branchscore.DecisionEngine.BudgetErrors
import Branchscore.DecisionEngine.Preflight

/-!
# The positions of an evaluation

An evaluation freezes as many positions as the estimate has counted, and raises no budget
error where the tokens of the prompt fit.
-/

namespace Branchscore

open Foundation Outcome
set_option autoImplicit false

/-! ## The image is counted by its target size -/

namespace ImagePreprocessor
variable {A : Type} {arith : DoubleArithmetic A} {stb : StbImage} {normalize : NormalizeSample}

theorem preprocessRgb_visualTokenCount {rgb : Bytes} {width height : Nat}
    {config : VisionModelConfig} {image : PreparedImage}
    (h : preprocessRgb arith normalize rgb width height config = .ok image) :
    image.visualTokenCount config = estimateVisualTokenCount arith width height config := by
  obtain ⟨inputWidth, hwidth, h⟩ := bind_eq_ok.mp h
  obtain ⟨inputHeight, hheight, h⟩ := bind_eq_ok.mp h
  obtain ⟨target, htarget, h⟩ := bind_eq_ok.mp h
  cases h
  rw [estimateVisualTokenCount, hwidth, ok_bind, hheight, ok_bind, htarget, ok_bind]
  rfl

/-- A decoded image is counted as its header has been. -/
theorem loadEncoded_visualTokenCount {encoded : Bytes} {config : VisionModelConfig}
    {info : EncodedImageInfo} {image : PreparedImage} (hinfo : inspectEncoded stb encoded = .ok info)
    (h : loadEncoded arith stb normalize encoded config = .ok image) :
    image.visualTokenCount config =
      estimateVisualTokenCount arith info.width info.height config := by
  rw [loadEncoded, hinfo, ok_bind] at h
  cases hload : stb.load encoded with
  | error reason =>
    rw [hload] at h
    cases h
  | ok decoded =>
    obtain ⟨width, height, rgb⟩ := decoded
    rw [hload] at h
    dsimp only at h
    split at h
    · cases h
    next hsame =>
      rw [not_or, not_not, not_not] at hsame
      have hcount := preprocessRgb_visualTokenCount h
      rwa [hsame.1, hsame.2, Int.toNat_natCast, Int.toNat_natCast] at hcount

end ImagePreprocessor

theorem VisionEncoder.encode_tokenCount {Tensor Row : Type} {ops : VisionOps Tensor Row}
    {model : ModelBundle} {backend : BackendContext} {image : PreparedImage}
    {tokens : VisualTokens Row} (h : encode ops model backend image = .ok tokens) :
    image.visualTokenCount model.visionConfig = .ok tokens.tokenCount := by
  obtain ⟨_, _, h⟩ := bind_eq_ok.mp h
  obtain ⟨outputTokens, hcount, h⟩ := bind_eq_ok.mp h
  obtain ⟨_, _, h⟩ := bind_eq_ok.mp h
  obtain ⟨_, _, h⟩ := bind_eq_ok.mp h
  obtain ⟨_, _, h⟩ := bind_eq_ok.mp h
  obtain ⟨_, _, h⟩ := bind_eq_ok.mp h
  obtain ⟨_, _, h⟩ := bind_eq_ok.mp h
  obtain ⟨_, _, h⟩ := bind_eq_ok.mp h
  cases h
  exact hcount

namespace Gemma4DecisionEngine
variable {R A Tensor Row : Type} {engine : Gemma4DecisionEngine R A Tensor Row}
  {request : DecisionRequest}

theorem loadImage_visualTokenCount (hvalid : request.Valid) {visual : Nat} {image : PreparedImage}
    (hvisual : engine.estimateVisualTokens request = .ok visual)
    (h : engine.loadImage request = .ok image) :
    image.visualTokenCount engine.model.visionConfig = .ok visual := by
  unfold estimateVisualTokens at hvisual
  unfold loadImage at h
  have hone := hvalid.oneImage
  cases hpath : request.imagePath with
  | none =>
    cases hbytes : request.imageBytes with
    | none =>
      rw [hpath, hbytes] at h
      cases h
    | some encoded =>
      rw [hpath, hbytes] at h hvisual
      obtain ⟨info, hinfo, hvisual⟩ := bind_eq_ok.mp hvisual
      rw [ImagePreprocessor.loadEncoded_visualTokenCount hinfo h, hvisual]
  | some path =>
    cases hbytes : request.imageBytes with
    | some encoded =>
      rw [hpath, hbytes] at hone
      exact absurd ⟨rfl, rfl⟩ hone
    | none =>
      rw [hpath, hbytes] at h hvisual
      obtain ⟨loaded, hloaded, hvisual⟩ := bind_eq_ok.mp hvisual
      cases hloaded.symm.trans h
      exact hvisual

/-! ## The steps of the evaluation -/

/-- An image counted as no visual token leaves the placeholder among the tokens of the
prompt, which then have to fit. -/
def PlaceholderFits (engine : Gemma4DecisionEngine R A Tensor Row) (request : DecisionRequest) :
    Prop :=
  request.hasImage = true → engine.estimateVisualTokens request = .ok 0 → ∀ rendered ids,
    Tokenized engine request rendered ids →
      ids.length ≤ engine.model.textConfig.contextLength ∧ ids.length ≤ maxPrefillPositions

theorem splitAtImage_quiet (t : GemmaTokenizer) (hasImage : Bool) (allIds : List TokenId) :
    Quiet (splitAtImage t hasImage allIds) := by
  unfold splitAtImage
  refine Quiet.bind (.throwIf _ _) fun _ => Quiet.bind (.throwIf _ _) fun _ => ?_
  exact Quiet.bind (.throwIf _ _) fun _ => .ok _

theorem answerTokens_quiet (t : GemmaTokenizer) (text : Bytes) (slots : List RenderedAnswerSlot)
    (seen : List TokenId) : Quiet (answerTokens t text seen slots) := by
  induction slots generalizing seen with
  | nil => exact .ok _
  | cons slot slots ih =>
    unfold answerTokens
    refine (t.tokenizeAnswerLabel_quiet _ _).bind fun answer => ?_
    exact Quiet.bind (.throwIf _ _) fun _ => (ih _).bind fun _ => .ok _

theorem EstimatedAt.fits {rendered : RenderedPrompt} {ids : List TokenId} {positions : Nat}
    (h : EstimatedAt engine request ids.length positions)
    (htokens : Tokenized engine request rendered ids) (hfits : PlaceholderFits engine request)
    (hcontext : positions ≤ engine.model.textConfig.contextLength)
    (hmax : positions ≤ maxPrefillPositions) :
    ids.length ≤ engine.model.textConfig.contextLength ∧ ids.length ≤ maxPrefillPositions := by
  unfold EstimatedAt at h
  by_cases himage : request.hasImage = true
  · rw [if_pos himage] at h
    obtain ⟨visual, hvisual, hpositions⟩ := h
    rcases Nat.eq_zero_or_pos visual with rfl | hpos
    · exact hfits himage hvisual rendered ids htokens
    · omega
  · rw [if_neg himage] at h
    omega

/-- What the checks before the image leave. -/
structure Prepares (engine : Gemma4DecisionEngine R A Tensor Row) (request : DecisionRequest)
    (prepared : Prepared) : Prop where
  tokenized : Tokenized engine request prepared.rendered prepared.allIds
  split : splitAtImage engine.tokenizer request.hasImage prepared.allIds =
    .ok (prepared.tokensBefore, prepared.tokensAfter)
  answers : answerTokens engine.tokenizer prepared.rendered.text [] prepared.rendered.answerSlots =
    .ok prepared.answers

theorem prepare_eq_ok {prepared : Prepared} (h : engine.prepare request = .ok prepared) :
    Prepares engine request prepared := by
  obtain ⟨_, hvalid, h⟩ := bind_eq_ok.mp h
  obtain ⟨rendered, hrender, h⟩ := bind_eq_ok.mp h
  obtain ⟨ids, hids, h⟩ := bind_eq_ok.mp h
  obtain ⟨_, _, h⟩ := bind_eq_ok.mp h
  obtain ⟨split, hsplit, h⟩ := bind_eq_ok.mp h
  obtain ⟨answers, hanswers, h⟩ := bind_eq_ok.mp h
  cases h
  exact ⟨⟨hvalid, hrender, hids⟩, hsplit, hanswers⟩

theorem Tokenized.unique {rendered rendered' : RenderedPrompt} {ids ids' : List TokenId}
    (h : Tokenized engine request rendered ids) (h' : Tokenized engine request rendered' ids') :
    rendered' = rendered ∧ ids' = ids := by
  obtain rfl := Except.ok.inj (h'.renders.symm.trans h.renders)
  exact ⟨rfl, Except.ok.inj (h'.tokens.symm.trans h.tokens)⟩

theorem checkPositionBudget_of_fits {positions contextLength : Nat}
    (h : positions ≤ contextLength ∧ positions ≤ maxPrefillPositions) :
    checkPositionBudget positions contextLength = .ok () := checkPositionBudget_eq_ok.mpr h

theorem prepare_quiet {rendered : RenderedPrompt} {ids : List TokenId}
    (h : Tokenized engine request rendered ids)
    (hfits : ids.length ≤ engine.model.textConfig.contextLength ∧ ids.length ≤ maxPrefillPositions) :
    Quiet (engine.prepare request) := by
  rw [prepare, h.valid, ok_bind, h.renders, ok_bind, h.tokens, ok_bind,
    checkPositionBudget_of_fits hfits, ok_bind]
  exact (splitAtImage_quiet _ _ _).bind fun _ => (answerTokens_quiet _ _ _ _).bind fun _ => .ok _

/-- Tokens around the placeholder. -/
theorem Prepares.length_eq {prepared : Prepared} (h : Prepares engine request prepared) :
    prepared.allIds.length = prepared.tokensBefore.length + prepared.tokensAfter.length +
      if request.hasImage then 1 else 0 := by
  have hsplit := h.split
  cases himage : request.hasImage with
  | false =>
    rw [himage] at hsplit
    obtain ⟨_, hbefore, hafter⟩ := splitAtImage_text.mp hsplit
    rw [hbefore, hafter]
    rfl
  | true =>
    rw [himage] at hsplit
    obtain ⟨_, hat⟩ := splitAtImage_image.mp hsplit
    rw [hat.ids_eq, List.length_append, List.length_cons]
    rfl

/-- The image takes the positions that the estimate has counted for it. -/
theorem encodeImage_ends {prepared : Prepared} {positions : Nat}
    (h : Prepares engine request prepared)
    (hestimated : EstimatedAt engine request prepared.allIds.length positions)
    (hbudget : positions ≤ engine.model.textConfig.contextLength ∧ positions ≤ maxPrefillPositions) :
    Ends (fun e => ¬IsBudgetError e) (fun visual => prepared.tokensBefore.length +
      PrefillEngine.visualCount visual + prepared.tokensAfter.length = positions)
      (engine.encodeImage request prepared) := by
  have hlength := h.length_eq
  unfold EstimatedAt at hestimated
  unfold encodeImage
  cases himage : request.hasImage with
  | false =>
    rw [himage, if_neg (by decide)] at hlength hestimated
    rw [if_pos rfl]
    exact hestimated ▸ hlength.symm
  | true =>
    rw [himage, if_pos rfl] at hlength hestimated
    obtain ⟨visual, hvisual, hpositions⟩ := hestimated
    rw [if_neg (by decide)]
    cases hload : engine.loadImage request with
    | error e =>
      have hquiet : Quiet (engine.loadImage request) := by
        unfold loadImage
        split
        · exact ImagePreprocessor.load_quiet _ _ _ _ _
        · exact ImagePreprocessor.loadEncoded_quiet _ _ _ _ _
        · exact nofun
      exact hquiet.of_eq_error hload
    | ok image =>
      have hvalid := (validateRequest_eq_ok request).mp h.tokenized.valid
      have hcount := loadImage_visualTokenCount hvalid hvisual hload
      have hsum : prepared.tokensBefore.length + prepared.tokensAfter.length + visual = positions := by
        omega
      rw [ok_bind, hcount, ok_bind, hsum, checkPositionBudget_of_fits hbudget, ok_bind]
      cases hencode : VisionEncoder.encode engine.library.vision engine.model engine.backend image with
      | error e => exact (VisionEncoder.encode_quiet _ _ _ _).of_eq_error hencode
      | ok tokens =>
        have htokens := VisionEncoder.encode_tokenCount hencode
        rw [hcount] at htokens
        cases htokens
        change _ + tokens.tokenCount + _ = _
        omega

/-! ## The whole evaluation -/

section Evaluate
variable [Field R] [LinearOrder R] {positions : Nat}

/-- What an evaluation that returns has done: it has frozen `positions` positions. -/
def Freezes (engine : Gemma4DecisionEngine R A Tensor Row) (request : DecisionRequest)
    (result : DecisionResult (Ieee R)) (positions : Nat) : Prop :=
  ∃ prepared visual state, engine.prepare request = .ok prepared ∧
    engine.encodeImage request prepared = .ok visual ∧
    PrefillEngine.prefill engine.library.text engine.model engine.backend prepared.tokensBefore
      visual prepared.tokensAfter = .ok state ∧
    state.prefixLength = prepared.tokensBefore.length + PrefillEngine.visualCount visual +
      prepared.tokensAfter.length ∧
    state.prefixLength = positions ∧ result.timings.prefillPositions = positions

omit [LinearOrder R] in
theorem decisionResult_eq_ok {prepared : Prepared} {rawScores : List (Ieee R)}
    {summary : CategoricalSummary R} {state : PrefillState Row} {result : DecisionResult (Ieee R)}
    (h : engine.decisionResult request prepared rawScores summary state = .ok result) :
    result.timings = engine.timings request state := by
  unfold decisionResult at h
  dsimp only at h
  split at h
  · cases h
  · obtain ⟨_, _, h⟩ := bind_eq_ok.mp h
    cases h
    rfl

omit [LinearOrder R] in
theorem decisionResult_quiet (prepared : Prepared) (rawScores : List (Ieee R))
    (summary : CategoricalSummary R) (state : PrefillState Row) :
    Quiet (engine.decisionResult request prepared rawScores summary state) := by
  unfold decisionResult
  dsimp only
  split
  · exact nofun
  · exact (state.cache.key_quiet 0).bind fun _ => .ok _

/-- An evaluation after its estimate raises no budget error and freezes what the estimate
has counted. -/
theorem evaluate_ends (h : engine.estimatePrefillPositions request = .ok positions)
    (hfits : PlaceholderFits engine request) :
    Ends (fun e => ¬IsBudgetError e) (fun result => Freezes engine request result positions)
      (engine.evaluate request) := by
  obtain ⟨rendered, ids, htokens, hestimated, hbudget⟩ := estimatePrefillPositions_eq_ok.mp h
  have hids := hestimated.fits htokens hfits hbudget.1 hbudget.2
  unfold evaluate
  cases hprepare : engine.prepare request with
  | error e => exact (prepare_quiet htokens hids).of_eq_error hprepare
  | ok prepared =>
    have hprepares := prepare_eq_ok hprepare
    rw [← (htokens.unique hprepares.tokenized).2] at hestimated
    have himage := encodeImage_ends hprepares hestimated hbudget
    rw [ok_bind]
    cases hencode : engine.encodeImage request prepared with
    | error e => exact himage.of_eq_error hencode
    | ok visual =>
      have hcount := himage.of_eq_ok hencode
      rw [ok_bind]
      cases hprefill : PrefillEngine.prefill engine.library.text engine.model engine.backend
          prepared.tokensBefore visual prepared.tokensAfter with
      | error e => exact (PrefillEngine.prefill_quiet _ _ _ _ _ _).of_eq_error hprefill
      | ok state =>
        have hlength := ((PrefillEngine.prefill_ends engine.library.text engine.model
          prepared.tokensBefore visual prepared.tokensAfter).of_eq_ok hprefill).1.prefixLength
        rw [ok_bind]
        have hgather := @gatherCategoricalLogits_quiet R (state.logits.map engine.library.logits)
          (prepared.answers.map AnswerToken.id) engine.library.readout
        refine Ends.bind hgather fun rawScores _ => ?_
        have hsummary := summarizeCategorical_quiet engine.library.exp rawScores
        refine Ends.bind hsummary fun summary _ => ?_
        cases hresult : engine.decisionResult request prepared rawScores summary state with
        | error e => exact (decisionResult_quiet _ _ _ _).of_eq_error hresult
        | ok result =>
          have htimings := decisionResult_eq_ok hresult
          refine ⟨prepared, visual, state, hprepare, hencode, hprefill, hlength,
            hlength.trans hcount, ?_⟩
          rw [htimings]
          exact hlength.trans hcount

end Evaluate

end Gemma4DecisionEngine

end Branchscore
