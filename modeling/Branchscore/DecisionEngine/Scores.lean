import Branchscore.CategoricalReadout.Summary
import Branchscore.DecisionEngine.Positions
import Branchscore.PromptRenderer.OptionList

/-!
# The scores of an evaluation

The score of an option is the logit of the token of the label that the renderer has given to
the option, and its probability is the softmax entry at the same place.
-/

namespace Branchscore

open Foundation Outcome
set_option autoImplicit false

/-! ## The steps behind the Prefill -/

section Readout
variable {R : Type}

theorem gatherCategoricalLogits_eq_ok {frozen : Option (List (Ieee R))} {ids : List TokenId}
    {device : ReadoutDevice} {rawScores : List (Ieee R)}
    (h : gatherCategoricalLogits frozen ids device = .ok rawScores) :
    ∃ logits values, frozen = some logits ∧ rawScores = values.map .finite ∧
      List.Forall₂ (fun id value => logits[id]? = some (.finite value)) ids values := by
  obtain ⟨_, _, h⟩ := bind_eq_ok.mp h
  cases frozen with
  | none => cases h
  | some logits =>
    dsimp only at h
    obtain ⟨_, hinside, h⟩ := bind_eq_ok.mp h
    obtain ⟨_, _, h⟩ := bind_eq_ok.mp h
    obtain ⟨_, _, h⟩ := bind_eq_ok.mp h
    cases hcompute : device.compute with
    | error status =>
      rw [hcompute] at h
      cases h
    | ok u =>
      rw [hcompute] at h
      dsimp only at h
      obtain ⟨_, hfinite, h⟩ := bind_eq_ok.mp h
      cases h
      rw [throwIf_eq_ok] at hinside hfinite
      obtain ⟨values, hvalues⟩ : ∃ values : List R,
          (ids.map fun id => logits.getD id .nan) = values.map .finite := by
        apply Ieee.exists_map_finite
        intro score hscore
        by_contra hnot
        exact hfinite ⟨score, hscore, eq_false_of_ne_true hnot⟩
      refine ⟨logits, values, rfl, hvalues, ?_⟩
      have hlength : ids.length = values.length := by
        simpa using congrArg List.length hvalues
      rw [List.forall₂_iff_get]
      refine ⟨hlength, ?_⟩
      intro i hi hi'
      have hat := congrArg (fun scores => scores[i]?) hvalues
      simp only [List.getElem?_map, List.getElem?_eq_getElem hi, List.getElem?_eq_getElem hi',
        Option.map_some, Option.some.injEq] at hat
      have hlt : ids[i] < logits.length := by
        by_contra hle
        exact hinside ⟨ids[i], List.getElem_mem hi, not_lt.mp hle⟩
      rw [List.getD_eq_getElem?_getD, List.getElem?_eq_getElem hlt, Option.getD_some] at hat
      rw [List.get_eq_getElem, List.get_eq_getElem, List.getElem?_eq_getElem hlt, hat]

variable [Field R] [LinearOrder R] {exp : R → R}

theorem summarizeCategorical_eq_ok {values : List R} {summary : CategoricalSummary R}
    (h : summarizeCategorical exp (values.map .finite) = .ok summary) :
    ∃ maximum, FirstMax values maximum summary.selectedIndex ∧
      summary.relativeProbabilities = softmax exp values maximum := by
  have hless : ∀ a b : R, Ieee.lt (.finite a) (.finite b) = decide (a < b) := fun _ _ => rfl
  unfold summarizeCategorical at h
  rw [maxElement_map hless] at h
  cases hmax : maxElement (fun a b => decide (a < b)) values with
  | none =>
    rw [hmax] at h
    cases h
  | some found =>
    obtain ⟨maximum, selected⟩ := found
    rw [hmax] at h
    obtain ⟨largest, hlargest, h⟩ := bind_eq_ok.mp h
    cases finiteLogit_eq_ok.mp hlargest
    obtain ⟨values', hvalues, h⟩ := bind_eq_ok.mp h
    have hinjective : Function.Injective (Ieee.finite : R → Ieee R) := fun _ _ => Ieee.finite.inj
    obtain rfl := hinjective.list_map (mapM_finiteLogit.mp hvalues)
    obtain ⟨_, _, h⟩ := bind_eq_ok.mp h
    cases h
    refine ⟨maximum, firstMax_maxElement hmax, ?_⟩
    dsimp only
    rw [List.map_map, ← List.sum_eq_foldl]
    rfl

end Readout

namespace GemmaTokenizer

/-- The label is this one token. -/
structure LabelToken (t : GemmaTokenizer) (label : Bytes) (id : TokenId) : Prop where
  token : t.tokenize label false true = .ok [id]
  piece : t.piece id = .ok label

theorem validateLabel_token {t : GemmaTokenizer} {prompt label : Bytes} {answer : AnswerToken}
    (h : t.validateLabel prompt label = .ok answer) : t.LabelToken label answer.id := by
  obtain ⟨_, _, h⟩ := bind_eq_ok.mp h
  obtain ⟨standalone, htoken, h⟩ := bind_eq_ok.mp h
  split at h
  · obtain ⟨text, htext, h⟩ := bind_eq_ok.mp h
    split at h
    · cases h
    next hnormal =>
      obtain ⟨_, _, h⟩ := bind_eq_ok.mp h
      split at h
      · cases h
      · cases h
        rw [not_or, not_not] at hnormal
        exact ⟨htoken, hnormal.1 ▸ htext⟩
  · cases h

theorem tokenizeAnswerLabel_token {t : GemmaTokenizer} {prompt label : Bytes}
    {answer : AnswerToken} (h : t.tokenizeAnswerLabel prompt label = .ok answer) :
    t.LabelToken label answer.id := by
  unfold tokenizeAnswerLabel at h
  split at h
  · cases h
  · split at h
    · exact validateLabel_token h
    · exact validateLabel_token h

end GemmaTokenizer

namespace Gemma4DecisionEngine

theorem answerTokens_tokens {t : GemmaTokenizer} {text : Bytes} {slots : List RenderedAnswerSlot}
    {seen : List TokenId} {answers : List AnswerToken}
    (h : answerTokens t text seen slots = .ok answers) :
    List.Forall₂ (fun slot id => t.LabelToken slot.label id) slots (answers.map AnswerToken.id) := by
  induction slots generalizing seen answers with
  | nil =>
    cases h
    exact .nil
  | cons slot slots ih =>
    obtain ⟨answer, hanswer, h⟩ := bind_eq_ok.mp h
    obtain ⟨_, _, h⟩ := bind_eq_ok.mp h
    obtain ⟨rest, hrest, h⟩ := bind_eq_ok.mp h
    cases h
    exact .cons (GemmaTokenizer.tokenizeAnswerLabel_token hanswer) (ih hrest)

end Gemma4DecisionEngine

theorem Gemma4PromptRenderer.SlotsOf.ids {extended : Bool} {options : List DecisionOption}
    {slots : List RenderedAnswerSlot} (h : SlotsOf extended options slots) :
    slots.map RenderedAnswerSlot.optionId = options.map DecisionOption.id := by
  apply List.ext_getElem?
  intro i
  rw [List.getElem?_map, List.getElem?_map]
  cases hslot : slots[i]? with
  | none =>
    rw [List.getElem?_eq_none_iff, h.length_eq, ← List.getElem?_eq_none_iff] at hslot
    rw [hslot]
    rfl
  | some slot =>
    have hi : i < options.length := h.length_eq ▸ (List.getElem?_eq_some_iff.mp hslot).1
    rw [List.getElem?_eq_getElem hi, Option.map_some, Option.map_some,
      (h.getElem? hslot (List.getElem?_eq_getElem hi)).2.1]

/-! ## The whole evaluation -/

namespace Gemma4DecisionEngine

/-- A list read at the positions of another one of its length. -/
theorem map_zipIdx_getD {α β : Type} {xs : List α} {ys : List β} (h : ys.length = xs.length)
    (default : β) : (xs.zipIdx.map fun x => ys.getD x.2 default) = ys := by
  apply List.ext_getElem
  · rw [List.length_map, List.length_zipIdx, h]
  · intro i _ hi
    rw [List.getElem_map, List.getElem_zipIdx, Nat.zero_add, List.getD_eq_getElem?_getD,
      List.getElem?_eq_getElem hi, Option.getD_some]

variable {R A Tensor Row : Type} (engine : Gemma4DecisionEngine R A Tensor Row)
  (request : DecisionRequest)

/-- The logits that an evaluation reads its scores from. -/
def frozenLogits : Except Exception (Option (List (Ieee R))) := do
  let prepared ← engine.prepare request
  let visualTokens ← engine.encodeImage request prepared
  let state ← PrefillEngine.prefill engine.library.text engine.model engine.backend
    prepared.tokensBefore visualTokens prepared.tokensAfter
  return state.logits.map engine.library.logits

variable [Field R] [LinearOrder R]

/-- What an evaluation returns: the tokens of the labels, the values of their logits, and the
first of the largest values. -/
structure Scored (result : DecisionResult (Ieee R)) (prompt : RenderedPrompt) (ids : List TokenId)
    (values : List R) (maximum : R) (selected : Nat) : Prop where
  renders : engine.render request = .ok prompt
  tokens : List.Forall₂ (fun slot id => engine.tokenizer.LabelToken slot.label id)
    prompt.answerSlots ids
  logits : ∃ logits, engine.frozenLogits request = .ok (some logits) ∧
    List.Forall₂ (fun id value => logits[id]? = some (.finite value)) ids values
  largest : FirstMax values maximum selected
  optionIds : result.optionScores.map OptionScore.optionId =
    request.options.map DecisionOption.id
  rawScores : result.optionScores.map OptionScore.rawScore = values.map .finite
  probabilities : result.optionScores.map OptionScore.relativeProbability =
    (softmax engine.library.exp values maximum).map .finite
  selectedId : (request.options.map DecisionOption.id)[selected]? = some result.selectedId
  promptTokens : result.renderedPromptTokenIds.length ≤ maxPrefillPositions
  timings : ∃ state, result.timings = engine.timings request state

variable {engine request}

omit [Field R] [LinearOrder R] in
theorem Prepares.budget {prepared : Prepared} (h : engine.prepare request = .ok prepared) :
    prepared.allIds.length ≤ maxPrefillPositions := by
  obtain ⟨_, _, h⟩ := bind_eq_ok.mp h
  obtain ⟨_, _, h⟩ := bind_eq_ok.mp h
  obtain ⟨_, _, h⟩ := bind_eq_ok.mp h
  obtain ⟨_, hbudget, h⟩ := bind_eq_ok.mp h
  obtain ⟨_, _, h⟩ := bind_eq_ok.mp h
  obtain ⟨_, _, h⟩ := bind_eq_ok.mp h
  cases h
  exact (checkPositionBudget_eq_ok.mp hbudget).2

theorem evaluate_scored {result : DecisionResult (Ieee R)}
    (h : engine.evaluate request = .ok result) :
    ∃ prompt ids values maximum selected,
      Scored engine request result prompt ids values maximum selected := by
  obtain ⟨prepared, hprepare, h⟩ := bind_eq_ok.mp h
  obtain ⟨visualTokens, hencode, h⟩ := bind_eq_ok.mp h
  obtain ⟨state, hprefill, h⟩ := bind_eq_ok.mp h
  obtain ⟨rawScores, hgather, h⟩ := bind_eq_ok.mp h
  obtain ⟨summary, hsummary, h⟩ := bind_eq_ok.mp h
  obtain ⟨logits, values, hlogits, rfl, hvalues⟩ := gatherCategoricalLogits_eq_ok hgather
  obtain ⟨maximum, hlargest, hsoftmax⟩ := summarizeCategorical_eq_ok hsummary
  have hprepares := prepare_eq_ok hprepare
  have hbudget := Prepares.budget hprepare
  have htokens := answerTokens_tokens hprepares.answers
  obtain ⟨_, _, _, _, hslots, _⟩ := Gemma4PromptRenderer.render_eq_ok hprepares.tokenized.renders
  have hfrozen : engine.frozenLogits request = .ok (some logits) := by
    rw [frozenLogits, hprepare, ok_bind, hencode, ok_bind, hprefill, ok_bind, hlogits]
    rfl
  have hlength : (values.map Ieee.finite).length = prepared.rendered.answerSlots.length := by
    rw [List.length_map, ← hvalues.length_eq, htokens.length_eq]
  have hprobabilities : ((softmax engine.library.exp values maximum).map Ieee.finite).length =
      prepared.rendered.answerSlots.length := by
    rw [List.length_map, softmax, List.length_map, ← hlength, List.length_map]
  unfold decisionResult at h
  dsimp only at h
  split at h
  · cases h
  next score hscore =>
    obtain ⟨_, _, h⟩ := bind_eq_ok.mp h
    cases h
    have hids : (prepared.rendered.answerSlots.zipIdx.map (optionScore prepared
        (values.map .finite) summary.relativeProbabilities)).map OptionScore.optionId =
          request.options.map DecisionOption.id := by
      calc _ = (prepared.rendered.answerSlots.zipIdx.map Prod.fst).map
            RenderedAnswerSlot.optionId := by
            rw [List.map_map, List.map_map]
            rfl
        _ = request.options.map DecisionOption.id := by rw [List.zipIdx_map_fst, hslots.ids]
    refine ⟨prepared.rendered, prepared.answers.map AnswerToken.id, values, maximum,
      summary.selectedIndex, hprepares.tokenized.renders, htokens, ⟨logits, hfrozen, hvalues⟩,
      hlargest, hids, ?_, ?_, ?_, hbudget, state, rfl⟩
    · rw [List.map_map]
      exact map_zipIdx_getD hlength .nan
    · rw [List.map_map, hsoftmax]
      have hread := map_zipIdx_getD hprobabilities .nan
      simp only [List.getD_eq_getElem?_getD, List.getElem?_map] at hread
      exact hread
    · rw [← hids, List.getElem?_map, hscore]
      rfl

end Gemma4DecisionEngine

end Branchscore
