import Branchscore.DecisionEngine.Scores

/-!
# An evaluation returns

With a device that does what it is asked and finite logits, an evaluation returns as soon as the
checks on the prompt have passed and the image is encoded.
-/

namespace Branchscore

open Foundation Outcome
set_option autoImplicit false

section Readout
variable {R : Type}

/-- A readout device that computes. -/
def ReadoutDevice.Computes (device : ReadoutDevice) : Prop :=
  device.createsContext = true ∧ device.allocatesGraph = true ∧ device.compute = .ok ()

theorem gatherCategoricalLogits_ok {logits : List (Ieee R)} {ids : List TokenId} {values : List R}
    {device : ReadoutDevice} (hdevice : device.Computes) (hne : ids ≠ [])
    (h : List.Forall₂ (fun id value => logits[id]? = some (.finite value)) ids values) :
    gatherCategoricalLogits (some logits) ids device = .ok (values.map .finite) := by
  obtain ⟨hcontext, hgraph, hcompute⟩ := hdevice
  have hinside : ¬∃ id ∈ ids, logits.length ≤ id := by
    rintro ⟨id, hid, hle⟩
    obtain ⟨i, hi, rfl⟩ := List.getElem_of_mem hid
    have hat := h.get hi (h.length_eq ▸ hi)
    rw [List.get_eq_getElem, List.getElem?_eq_none hle] at hat
    cases hat
  have hscores : (ids.map fun id => logits.getD id .nan) = values.map .finite := by
    clear hinside hne
    induction h with
    | nil => rfl
    | cons hvalue _ ih =>
      rw [List.map_cons, List.map_cons, ih, List.getD_eq_getElem?_getD, hvalue, Option.getD_some]
  have hfinite : ¬∃ score ∈ values.map Ieee.finite, score.isFinite = false := by
    rintro ⟨score, hscore, hnot⟩
    obtain ⟨x, _, rfl⟩ := List.mem_map.mp hscore
    cases hnot
  unfold gatherCategoricalLogits
  rw [throwIf_of_not hne, ok_bind]
  dsimp only
  rw [throwIf_of_not hinside, ok_bind, throwIf_of_not (by rw [hcontext]; decide), ok_bind,
    throwIf_of_not (by rw [hgraph]; decide), ok_bind, hcompute]
  dsimp only
  rw [hscores, throwIf_of_not hfinite]
  rfl

variable [Field R] [LinearOrder R] [IsStrictOrderedRing R] {exp : R → R}

theorem exists_summarizeCategorical (hexp : ∀ x, 0 < exp x) {values : List R} (hne : values ≠ []) :
    ∃ summary, summarizeCategorical exp (values.map .finite) = .ok summary := by
  have hless : ∀ a b : R, Ieee.lt (.finite a) (.finite b) = decide (a < b) := fun _ _ => rfl
  obtain ⟨v, rest, rfl⟩ := List.exists_cons_of_ne_nil hne
  obtain ⟨⟨x, selected⟩, hmax⟩ : ∃ found,
      maxElement (fun a b => decide (a < b)) (v :: rest) = some found := ⟨_, rfl⟩
  have hpos : 0 < ((v :: rest).map fun value => exp (value - x)).foldl (· + ·) 0 := by
    rw [← List.sum_eq_foldl]
    apply List.sum_pos
    · intro weight hweight
      obtain ⟨value, _, rfl⟩ := List.mem_map.mp hweight
      exact hexp _
    · simp
  unfold summarizeCategorical
  rw [maxElement_map hless, hmax]
  simp only [Option.map_some, Prod.map, id_eq, finiteLogit_eq_ok.mpr rfl, ok_bind,
    mapM_finiteLogit.mpr rfl, throwIf_of_not (not_le.mpr hpos), pure_eq_ok]
  exact ⟨_, rfl⟩

end Readout

namespace Gemma4DecisionEngine
variable {R A Tensor Row : Type} {engine : Gemma4DecisionEngine R A Tensor Row}
  {request : DecisionRequest} {prepared : Prepared} {visualTokens : Option (VisualTokens Row)}

/-- What an evaluation needs of the device and of the logits. -/
structure Runs (engine : Gemma4DecisionEngine R A Tensor Row) (prepared : Prepared)
    (visualTokens : Option (VisualTokens Row)) : Prop where
  prefill : PrefillEngine.Accepts engine.model engine.backend
    (prepared.tokensBefore.length + PrefillEngine.visualCount visualTokens +
      prepared.tokensAfter.length) (visualTokens.map VisualTokens.embeddingLength)
  readout : engine.library.readout.Computes
  logits : ∀ row, ∀ answer ∈ prepared.answers, ∃ x,
    (engine.library.logits row)[answer.id]? = some (.finite x)

theorem exists_forall₂ {α β : Type} {P : α → β → Prop} {as : List α} (h : ∀ a ∈ as, ∃ b, P a b) :
    ∃ bs, List.Forall₂ P as bs := by
  induction as with
  | nil => exact ⟨[], .nil⟩
  | cons a as ih =>
    obtain ⟨⟨b, hb⟩, hrest⟩ := List.forall_mem_cons.mp h
    obtain ⟨bs, hbs⟩ := ih hrest
    exact ⟨b :: bs, .cons hb hbs⟩

theorem Runs.key {state : PrefillState Row} (h : Runs engine prepared visualTokens)
    (hconfig : state.cache.config = engine.model.textConfig) :
    ∃ keys, state.cache.key 0 = .ok keys := by
  have hlayer : 0 < engine.model.textConfig.blockCount := Nat.zero_lt_of_lt h.prefill.sharedLayers
  obtain ⟨source, hlt, hsource⟩ := h.prefill.sources 0 hlayer
  refine ⟨state.cache.keys source, ?_⟩
  rw [StateCache.key, StateCache.slot, hconfig, hsource, ok_bind, if_pos hlt]
  rfl

variable [Field R] [LinearOrder R] [IsStrictOrderedRing R]

/-- With a device that does what it is asked and finite logits of the labels, an evaluation
returns once its checks have passed and its image is encoded. -/
theorem exists_evaluate (hexp : ∀ x, 0 < engine.library.exp x)
    (hprepare : engine.prepare request = .ok prepared)
    (hencode : engine.encodeImage request prepared = .ok visualTokens)
    (hruns : Runs engine prepared visualTokens) :
    ∃ result, engine.evaluate request = .ok result := by
  have hends := @PrefillEngine.prefill_holds _ engine.library.text engine.model
    prepared.tokensBefore visualTokens prepared.tokensAfter engine.backend
  obtain ⟨state, hprefill⟩ : ∃ state, PrefillEngine.prefill engine.library.text engine.model
      engine.backend prepared.tokensBefore visualTokens prepared.tokensAfter = .ok state := by
    cases hrun : PrefillEngine.prefill engine.library.text engine.model engine.backend
        prepared.tokensBefore visualTokens prepared.tokensAfter with
    | ok state => exact ⟨state, rfl⟩
    | error e => exact absurd (hends.of_eq_error hrun) hruns.prefill.not_refuses
  obtain ⟨⟨hconfig, _⟩, hpass, _⟩ := hends.of_eq_ok hprefill
  have hprepares := prepare_eq_ok hprepare
  have htokens := answerTokens_tokens hprepares.answers
  obtain ⟨_, _, hmin, _, hslots, _⟩ :=
    Gemma4PromptRenderer.render_eq_ok hprepares.tokenized.renders
  have hanswers : prepared.answers.length = request.options.length := by
    rw [← hslots.length_eq, htokens.length_eq, List.length_map]
  have hne : prepared.answers.map AnswerToken.id ≠ [] := by
    unfold minDecisionOptions at hmin
    rw [ne_eq, List.map_eq_nil_iff, ← List.length_eq_zero_iff]
    omega
  set row := PrefillEngine.finalLogits engine.library.text engine.model
    (PrefillEngine.cacheType engine.backend) (PrefillEngine.tokenSequence engine.library.text
      engine.model prepared.tokensBefore visualTokens prepared.tokensAfter)
  obtain ⟨values, hvalues⟩ : ∃ values, List.Forall₂ (fun id value =>
      (engine.library.logits row)[id]? = some (Ieee.finite value))
        (prepared.answers.map AnswerToken.id) values := by
    apply exists_forall₂
    intro id hid
    obtain ⟨answer, hanswer, rfl⟩ := List.mem_map.mp hid
    exact hruns.logits _ answer hanswer
  have hgather := gatherCategoricalLogits_ok hruns.readout hne hvalues
  have hvalue : values ≠ [] := by
    rintro rfl
    exact hne (List.forall₂_nil_right_iff.mp hvalues)
  obtain ⟨summary, hsummary⟩ := exists_summarizeCategorical hexp hvalue
  obtain ⟨maximum, hlargest, _⟩ := summarizeCategorical_eq_ok hsummary
  obtain ⟨keys, hkeys⟩ := hruns.key hconfig
  have hselected : summary.selectedIndex < prepared.rendered.answerSlots.length := by
    rw [htokens.length_eq, hvalues.length_eq]
    exact (List.getElem?_eq_some_iff.mp hlargest.at_index).1
  rw [evaluate, hprepare, ok_bind, hencode, ok_bind, hprefill, ok_bind, hpass.logits,
    Option.map_some, hgather, ok_bind, hsummary, ok_bind, decisionResult]
  rw [List.getElem?_map, List.getElem?_zipIdx, List.getElem?_eq_getElem hselected]
  dsimp only [Option.map_some]
  rw [hkeys]
  exact ⟨_, rfl⟩

/-- The sample engine with these numbers and these logits. -/
def engineWith (numbers : Json.NumberLibrary (Ieee ℚ)) (logits : List (Ieee ℚ)) :
    Gemma4DecisionEngine ℚ ℚ Unit Nat :=
  { evenEngine with library := { evenEngine.library with numbers, logits := fun _ => logits } }

def textRequest : DecisionRequest where
  state := bytes "s"
  question := bytes "q"
  options := twoOptions

theorem engineWith_evaluates {numbers : Json.NumberLibrary (Ieee ℚ)} {logits : List (Ieee ℚ)}
    (hprepares : ((engineWith numbers logits).prepare textRequest).map (fun prepared =>
      (prepared.answers.map AnswerToken.id, prepared.tokensBefore.length,
        prepared.tokensAfter.length)) = .ok ([70, 71], 287, 0))
    (hlogits : ∀ id ∈ [70, 71], ∃ value, logits[id]? = some (.finite value)) :
    ∃ result, (engineWith numbers logits).evaluate textRequest = .ok result := by
  obtain ⟨prepared, hprepare, hprepared⟩ := map_eq_ok.mp hprepares
  rw [Prod.mk.injEq, Prod.mk.injEq] at hprepared
  obtain ⟨hanswers, hbefore, hafter⟩ := hprepared
  have hcuda : (BackendContext.reliable (bytes "CPU")).cuda = false := by decide
  have hruns : Runs (engineWith numbers logits) prepared none := by
    refine ⟨?_, ⟨rfl, rfl, rfl⟩, ?_⟩
    · rw [hbefore, hafter]
      exact { PrefillEngine.sample_accepts with
        positive := by decide
        context := by
          change 287 ≤ PrefillEngine.sampleTextConfig.contextLength
          decide
        padding := fun h => absurd (hcuda.symm.trans h) Bool.false_ne_true }
    · intro row answer hanswer
      exact hlogits answer.id (hanswers ▸ List.mem_map_of_mem hanswer)
  exact exists_evaluate (fun _ => one_pos) hprepare rfl hruns

theorem zeroLogits_finite : ∀ id ∈ [70, 71], ∃ value : ℚ,
    (List.replicate 103 (Ieee.finite 0))[id]? = some (.finite value) := by
  intro id hid
  rcases List.mem_pair.mp hid with rfl | rfl <;> exact ⟨0, rfl⟩

end Gemma4DecisionEngine

end Branchscore
