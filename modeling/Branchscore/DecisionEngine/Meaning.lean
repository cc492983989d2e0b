import Branchscore.DecisionEngine.Progress

/-!
# What an evaluation means

On a device that does what it is asked, an evaluation is the decision of one causal pass over
the whole prompt. No chunk, no cache and no graph is left in what it returns.
-/

namespace Branchscore

open Foundation Outcome
set_option autoImplicit false

/-! ## The counts of a Prefill -/

namespace PrefillEngine

section Counts
variable {Row : Type} {ops : TensorOps Row} {model : ModelBundle} {backend : BackendContext}

theorem prefillChunk_counts {source : ChunkSource Row} {embedding : GgufTensor}
    {tokenCount start : Nat} {state state' : PrefillState Row}
    (h : prefillChunk ops model backend source embedding tokenCount state start = .ok state') :
    state'.graphCount = state.graphCount + 1 ∧
      state'.tokenMicrobatchSize = state.tokenMicrobatchSize := by
  obtain ⟨_, _, h⟩ := bind_eq_ok.mp h
  obtain ⟨_, _, h⟩ := bind_eq_ok.mp h
  obtain ⟨_, _, h⟩ := bind_eq_ok.mp h
  obtain ⟨⟨_, _⟩, _, h⟩ := bind_eq_ok.mp h
  obtain ⟨_, _, h⟩ := bind_eq_ok.mp h
  obtain ⟨_, _, h⟩ := bind_eq_ok.mp h
  cases h
  exact ⟨rfl, rfl⟩

theorem foldlM_counts {source : ChunkSource Row} {embedding : GgufTensor} {tokenCount : Nat}
    {starts : List Nat} {state state' : PrefillState Row}
    (h : starts.foldlM (prefillChunk ops model backend source embedding tokenCount) state =
      .ok state') :
    state'.graphCount = state.graphCount + starts.length ∧
      state'.tokenMicrobatchSize = state.tokenMicrobatchSize := by
  induction starts generalizing state with
  | nil =>
    cases h
    exact ⟨rfl, rfl⟩
  | cons start starts ih =>
    rw [List.foldlM_cons] at h
    obtain ⟨next, hchunk, hrest⟩ := bind_eq_ok.mp h
    obtain ⟨hcount, hsize⟩ := prefillChunk_counts hchunk
    obtain ⟨hcounts, hsizes⟩ := ih hrest
    rw [hcounts, hsizes, hcount, hsize, List.length_cons]
    exact ⟨by omega, rfl⟩

/-- The sequence is not empty and fits the context, on CUDA with its padding. -/
structure Fits (model : ModelBundle) (backend : BackendContext) (tokenCount : Nat) : Prop where
  positive : 0 < tokenCount
  context : tokenCount ≤ model.textConfig.contextLength
  padding : backend.cuda = true → paddedCount tokenCount ≤ model.textConfig.contextLength

/-- What a Prefill that returns has checked and counted. -/
structure Counted (model : ModelBundle) (backend : BackendContext)
    (visualTokens : Option (VisualTokens Row)) (tokenCount : Nat) (state : PrefillState Row) :
    Prop where
  fits : Fits model backend tokenCount
  visualWidth : ∀ width ∈ visualTokens.map VisualTokens.embeddingLength,
    width = model.textConfig.embeddingLength
  graphCount : state.graphCount =
    (tokenCount + prefillTokenMicrobatchSize - 1) / prefillTokenMicrobatchSize
  microbatch : state.tokenMicrobatchSize = prefillTokenMicrobatchSize

theorem prefillSequence_counts {source : GgufTensor → ChunkSource Row} {tokenCount : Nat}
    {state : PrefillState Row}
    (h : prefillSequence ops model backend tokenCount source = .ok state) :
    (backend.cuda = true → paddedCount tokenCount ≤ model.textConfig.contextLength) ∧
      state.graphCount =
        (tokenCount + prefillTokenMicrobatchSize - 1) / prefillTokenMicrobatchSize ∧
      state.tokenMicrobatchSize = prefillTokenMicrobatchSize := by
  obtain ⟨cache, hcreate, h⟩ := bind_eq_ok.mp h
  obtain ⟨_, _, h⟩ := bind_eq_ok.mp h
  obtain ⟨_, _, h⟩ := bind_eq_ok.mp h
  obtain ⟨embedding, _, h⟩ := bind_eq_ok.mp h
  obtain ⟨final, hloop, h⟩ := bind_eq_ok.mp h
  obtain ⟨frozen, _, h⟩ := bind_eq_ok.mp h
  cases h
  obtain ⟨_, hcapacity, _⟩ := bind_eq_ok.mp hcreate
  rw [throwIf_eq_ok, not_or, Nat.not_lt, cacheRows] at hcapacity
  obtain ⟨hcount, hsize⟩ := foldlM_counts hloop
  refine ⟨fun hcuda => ?_, ?_, hsize⟩
  · rw [if_pos hcuda] at hcapacity
    exact hcapacity.2
  · rw [hcount, chunkStarts, List.length_map, List.length_range, Nat.zero_add]

theorem prefill_counted {tokensBefore tokensAfter : List TokenId}
    {visualTokens : Option (VisualTokens Row)} {state : PrefillState Row}
    (h : prefill ops model backend tokensBefore visualTokens tokensAfter = .ok state) :
    Counted model backend visualTokens
      (tokensBefore.length + visualCount visualTokens + tokensAfter.length) state := by
  obtain ⟨_, hwidth, h⟩ := bind_eq_ok.mp h
  obtain ⟨_, hcontext, h⟩ := bind_eq_ok.mp h
  obtain ⟨hpadding, hcount, hsize⟩ := prefillSequence_counts h
  rw [throwIf_eq_ok, not_or, Nat.not_lt] at hcontext
  rw [throwIf_eq_ok] at hwidth
  refine ⟨⟨Nat.pos_of_ne_zero hcontext.1, hcontext.2, hpadding⟩, ?_, hcount, hsize⟩
  intro width hwidths
  obtain ⟨visual, hvisual, rfl⟩ := Option.map_eq_some_iff.mp hwidths
  by_contra hne
  exact hwidth ⟨visual, hvisual, hne⟩

end Counts

end PrefillEngine

/-! ## The summary of finite scores -/

section Summary
variable {R : Type} [LinearOrder R] {values : List R}

theorem firstMax_unique {x y : R} {i j : Nat} (h : FirstMax values x i) (h' : FirstMax values y j) :
    x = y ∧ i = j := by
  have hxy : x = y := h'.eq_of_perm h (List.Perm.refl values)
  subst hxy
  refine ⟨rfl, ?_⟩
  rcases Nat.lt_trichotomy i j with hlt | heq | hlt
  · exact absurd (h'.first i hlt x h.at_index) (lt_irrefl x)
  · exact heq
  · exact absurd (h.first j hlt x h'.at_index) (lt_irrefl x)

/-- There is a second largest value if and only if the largest one occurs twice. -/
theorem tied_iff {x : R} {selected : Nat} (h : FirstMax values x selected) :
    Tied values selected ↔ 1 < values.count x := by
  obtain ⟨hselected, hat⟩ := List.getElem?_eq_some_iff.mp h.at_index
  have hduplicate : 1 < values.count x ↔ ∃ (n m : Fin values.length) (_ : n < m),
      x = values.get n ∧ x = values.get m :=
    List.duplicate_iff_two_le_count.symm.trans List.duplicate_iff_exists_distinct_get
  rw [hduplicate]
  constructor
  · intro ⟨j, y, hne, hj, hy⟩
    have hyx : y = x := Option.some.inj (hy.symm.trans h.at_index)
    subst hyx
    obtain ⟨hlt, hjat⟩ := List.getElem?_eq_some_iff.mp hj
    rcases Nat.lt_or_gt_of_ne hne with hjs | hsj
    · exact ⟨⟨j, hlt⟩, ⟨selected, hselected⟩, hjs, hjat.symm, hat.symm⟩
    · exact ⟨⟨selected, hselected⟩, ⟨j, hlt⟩, hsj, hat.symm, hjat.symm⟩
  · intro ⟨n, m, hnm, hn, hm⟩
    have hnat : values[n.val]? = some x := List.getElem?_eq_some_iff.mpr ⟨n.isLt, hn.symm⟩
    have hmat : values[m.val]? = some x := List.getElem?_eq_some_iff.mpr ⟨m.isLt, hm.symm⟩
    by_cases heq : n.val = selected
    · exact ⟨m, x, fun hms => absurd hnm (by rw [Fin.lt_def]; omega), hmat, h.at_index⟩
    · exact ⟨n, x, heq, hnat, h.at_index⟩

variable [Field R] {exp : R → R}

/-- The softmax, the position of the first largest score, and whether there is a second. -/
def summaryOf (exp : R → R) (values : List R) (maximum : R) (selected : Nat) :
    CategoricalSummary R where
  relativeProbabilities := softmax exp values maximum
  selectedIndex := selected
  exactTie := decide (1 < values.count maximum)

theorem summarizeCategorical_summary {summary : CategoricalSummary R}
    (h : summarizeCategorical exp (values.map .finite) = .ok summary) : ∃ maximum selected,
      FirstMax values maximum selected ∧ summary = summaryOf exp values maximum selected := by
  have hless : ∀ a b : R, Ieee.lt (.finite a) (.finite b) = decide (a < b) := fun _ _ => rfl
  unfold summarizeCategorical at h
  rw [maxElement_map hless] at h
  cases hmax : maxElement (fun a b => decide (a < b)) values with
  | none =>
    rw [hmax] at h
    cases h
  | some found =>
    obtain ⟨maximum, selected⟩ := found
    have hfirst := firstMax_maxElement hmax
    rw [hmax] at h
    obtain ⟨largest, hlargest, h⟩ := bind_eq_ok.mp h
    cases finiteLogit_eq_ok.mp hlargest
    obtain ⟨values', hvalues, h⟩ := bind_eq_ok.mp h
    have hinjective : Function.Injective (Ieee.finite : R → Ieee R) := fun _ _ => Ieee.finite.inj
    obtain rfl := hinjective.list_map (mapM_finiteLogit.mp hvalues)
    obtain ⟨_, _, h⟩ := bind_eq_ok.mp h
    cases h
    refine ⟨maximum, selected, hfirst, ?_⟩
    have htie := (exactTie_iff hfirst).trans (tied_iff hfirst)
    rw [summaryOf, CategoricalSummary.mk.injEq]
    refine ⟨?_, rfl, ?_⟩
    · rw [List.map_map, ← List.sum_eq_foldl]
      rfl
    · rw [Bool.eq_iff_iff, decide_eq_true_iff]
      exact htie

variable [IsStrictOrderedRing R]

theorem summarizeCategorical_iff (hexp : ∀ x, 0 < exp x) {summary : CategoricalSummary R} :
    summarizeCategorical exp (values.map .finite) = .ok summary ↔ ∃ maximum selected,
      FirstMax values maximum selected ∧ summary = summaryOf exp values maximum selected := by
  constructor
  · exact summarizeCategorical_summary
  · rintro ⟨maximum, selected, hmax, rfl⟩
    have hne : values ≠ [] := by
      intro hnil
      rw [hnil] at hmax
      cases hmax.at_index
    obtain ⟨summary, hsummary⟩ := exists_summarizeCategorical hexp hne
    obtain ⟨maximum', selected', hmax', rfl⟩ := summarizeCategorical_summary hsummary
    obtain ⟨rfl, rfl⟩ := firstMax_unique hmax hmax'
    exact hsummary

end Summary

/-! ## The decision of one pass -/

namespace Gemma4DecisionEngine
variable {R A Tensor Row : Type} (engine : Gemma4DecisionEngine R A Tensor Row)

/-- The model is complete, and device and exponential do what they are asked. -/
structure Loaded [Zero R] [LT R] : Prop where
  sharedLayers : engine.model.textConfig.sharedKvLayers < engine.model.textConfig.blockCount
  pattern : engine.model.textConfig.blockCount ≤
    engine.model.textConfig.slidingWindowPattern.length
  sources : ∀ layer < engine.model.textConfig.blockCount,
    ∃ source < engine.model.textConfig.storedLayers,
      engine.model.textConfig.sourceLayer layer = .ok source
  headWidths : ∀ layer < engine.model.textConfig.blockCount, ∀ sliding,
    engine.model.textConfig.isSlidingWindow layer = .ok sliding →
      (PrefillEngine.headConfig engine.model engine.model.textConfig sliding).headSize =
        (PrefillEngine.headConfig engine.model engine.model.textConfig sliding).valueSize
  tensors : ∀ name ∈ PrefillEngine.requiredTextTensors engine.model.textConfig,
    (engine.model.textTensor name).isSome = true
  allocates : ∀ allocation, engine.backend.allocates allocation = true
  supported : ∀ graph, engine.backend.unsupportedOp graph = none
  computes : ∀ graph, engine.backend.compute graph = .ok ()
  readout : engine.library.readout.Computes
  exp : ∀ x, 0 < engine.library.exp x

/-- The positions of a prompt, with the placeholder replaced by the visual tokens. -/
def positionCount (prepared : Prepared) (visualTokens : Option (VisualTokens Row)) : Nat :=
  prepared.tokensBefore.length + PrefillEngine.visualCount visualTokens +
    prepared.tokensAfter.length

/-- The logits behind the last position, from one pass over the whole prompt. -/
def passLogits (prepared : Prepared) (visualTokens : Option (VisualTokens Row)) : List (Ieee R) :=
  engine.library.logits (PrefillEngine.finalLogits engine.library.text engine.model
    (PrefillEngine.cacheType engine.backend) (PrefillEngine.tokenSequence engine.library.text
      engine.model prepared.tokensBefore visualTokens prepared.tokensAfter))

variable [Field R] (request : DecisionRequest)

/-- The timings of a Prefill over that many positions. -/
def passTimings (positions : Nat) : TimingInfo (Ieee R) :=
  let measured := engine.library.measured
  let measured := if request.hasImage then measured else { measured with
    imagePreprocessingMs := .finite 0
    visionMs := .finite 0
    visionBackendCopyMs := .finite 0
    visionSynchronizationMs := .finite 0
    visionGraphNodeCount := 0
    visionAttentionPath := bytes "not_used" }
  { measured with
    prefillAttentionPath := if engine.backend.cuda then bytes "flash" else bytes "standard"
    prefillKvType := if engine.backend.cuda then bytes "f16" else bytes "f32"
    prefillPositions := positions
    prefillGraphCount := (positions + 511) / 512
    prefillMicrobatchSize := 512 }

variable [LinearOrder R]

/-- The decision that the values of the labels make, with the slot of the selected one. -/
def decided (prepared : Prepared) (positions : Nat) (values : List R) (maximum : R)
    (slot : RenderedAnswerSlot) : DecisionResult (Ieee R) where
  optionScores := (prepared.rendered.answerSlots.zip (prepared.answers.zip
    (values.zip (softmax engine.library.exp values maximum)))).map fun (slot, answer, value, p) =>
      { inputIndex := slot.inputIndex
        optionId := slot.optionId
        answerLabel := slot.label
        answerTokenId := answer.id
        rawScore := .finite value
        relativeProbability := .finite p }
  selectedIndex := slot.inputIndex
  selectedId := slot.optionId
  exactTie := decide (1 < values.count maximum)
  scoringBasis := bytes "answer_slot_logit"
  readoutId := bytes "gemma4-next-token-categorical-v1"
  promptFormat := prepared.rendered.format
  renderedPromptIdentity := prepared.rendered.identity
  renderedPromptTokenIds := prepared.allIds
  timings := engine.passTimings request positions

/-- The prompt passes its checks and fits the context, the labels have finite values in the
logits of one pass, and the result is the decision that these values make. -/
structure Decides (result : DecisionResult (Ieee R)) (prepared : Prepared)
    (visualTokens : Option (VisualTokens Row)) (values : List R) (maximum : R) (selected : Nat)
    (slot : RenderedAnswerSlot) : Prop where
  prepares : engine.prepare request = .ok prepared
  encodes : engine.encodeImage request prepared = .ok visualTokens
  fits : PrefillEngine.Fits engine.model engine.backend (positionCount prepared visualTokens)
  visualWidth : ∀ width ∈ visualTokens.map VisualTokens.embeddingLength,
    width = engine.model.textConfig.embeddingLength
  logits : List.Forall₂ (fun answer value =>
    (engine.passLogits prepared visualTokens)[answer.id]? = some (.finite value))
      prepared.answers values
  largest : FirstMax values maximum selected
  offered : prepared.rendered.answerSlots[selected]? = some slot
  result_eq : result = engine.decided request prepared (positionCount prepared visualTokens) values
    maximum slot

section Parts
variable {engine request}

theorem Loaded.accepts (h : engine.Loaded) {positions : Nat} {visualWidth : Option Nat}
    (hfits : PrefillEngine.Fits engine.model engine.backend positions)
    (hwidth : ∀ width ∈ visualWidth, width = engine.model.textConfig.embeddingLength) :
    PrefillEngine.Accepts engine.model engine.backend positions visualWidth where
  positive := hfits.positive
  context := hfits.context
  padding := hfits.padding
  visualWidth := hwidth
  sharedLayers := h.sharedLayers
  pattern := h.pattern
  sources := h.sources
  headWidths := h.headWidths
  allocates := h.allocates
  supported := h.supported
  computes := h.computes
  tensors := h.tensors

/-- The first layer has its keys. -/
theorem Loaded.key (h : engine.Loaded) {state : PrefillState Row}
    (hconfig : state.cache.config = engine.model.textConfig) :
    ∃ keys, state.cache.key 0 = .ok keys := by
  obtain ⟨source, hlt, hsource⟩ := h.sources 0 (Nat.zero_lt_of_lt h.sharedLayers)
  refine ⟨state.cache.keys source, ?_⟩
  rw [StateCache.key, StateCache.slot, hconfig, hsource, ok_bind, if_pos hlt]
  rfl

/-- A Prefill that returns. -/
structure Prefilled (engine : Gemma4DecisionEngine R A Tensor Row) (prepared : Prepared)
    (visualTokens : Option (VisualTokens Row)) (state : PrefillState Row) : Prop where
  config : state.cache.config = engine.model.textConfig
  logits : state.logits.map engine.library.logits = some (engine.passLogits prepared visualTokens)
  prefixLength : state.prefixLength = positionCount prepared visualTokens
  counted : PrefillEngine.Counted engine.model engine.backend visualTokens
    (positionCount prepared visualTokens) state

omit [Field R] [LinearOrder R] in
theorem prefilled_of_ok {prepared : Prepared} {visualTokens : Option (VisualTokens Row)}
    {state : PrefillState Row}
    (h : PrefillEngine.prefill engine.library.text engine.model engine.backend
      prepared.tokensBefore visualTokens prepared.tokensAfter = .ok state) :
    Prefilled engine prepared visualTokens state := by
  obtain ⟨⟨hconfig, _⟩, hpass, _⟩ := (PrefillEngine.prefill_holds engine.library.text engine.model
    prepared.tokensBefore visualTokens prepared.tokensAfter).of_eq_ok h
  refine ⟨hconfig, ?_, hpass.prefixLength, PrefillEngine.prefill_counted h⟩
  rw [hpass.logits]
  rfl

theorem Loaded.exists_prefill (h : engine.Loaded) {prepared : Prepared}
    {visualTokens : Option (VisualTokens Row)}
    (hfits : PrefillEngine.Fits engine.model engine.backend (positionCount prepared visualTokens))
    (hwidth : ∀ width ∈ visualTokens.map VisualTokens.embeddingLength,
      width = engine.model.textConfig.embeddingLength) :
    ∃ state, PrefillEngine.prefill engine.library.text engine.model engine.backend
      prepared.tokensBefore visualTokens prepared.tokensAfter = .ok state := by
  have hends := @PrefillEngine.prefill_holds _ engine.library.text engine.model
    prepared.tokensBefore visualTokens prepared.tokensAfter engine.backend
  cases hrun : PrefillEngine.prefill engine.library.text engine.model engine.backend
      prepared.tokensBefore visualTokens prepared.tokensAfter with
  | ok state => exact ⟨state, rfl⟩
  | error e => exact absurd (hends.of_eq_error hrun) (h.accepts hfits hwidth).not_refuses

omit [LinearOrder R] in
theorem Prefilled.timings_eq {prepared : Prepared} {visualTokens : Option (VisualTokens Row)}
    {state : PrefillState Row} (h : Prefilled engine prepared visualTokens state) :
    engine.timings request state =
      engine.passTimings request (positionCount prepared visualTokens) := by
  unfold timings passTimings
  rw [h.prefixLength, h.counted.graphCount, h.counted.microbatch]
  rfl

omit [Field R] [LinearOrder R] in
theorem optionScores_eq {prepared : Prepared} {values probabilities : List R}
    (hanswers : prepared.answers.length = prepared.rendered.answerSlots.length)
    (hvalues : values.length = prepared.answers.length)
    (hprobabilities : probabilities.length = values.length) :
    prepared.rendered.answerSlots.zipIdx.map
        (optionScore prepared (values.map Ieee.finite) probabilities) =
      (prepared.rendered.answerSlots.zip (prepared.answers.zip (values.zip probabilities))).map
        fun (slot, answer, value, p) =>
          { inputIndex := slot.inputIndex
            optionId := slot.optionId
            answerLabel := slot.label
            answerTokenId := answer.id
            rawScore := .finite value
            relativeProbability := .finite p } := by
  apply List.ext_getElem
  · simp only [List.length_map, List.length_zipIdx, List.length_zip]
    omega
  · intro i hi hi'
    rw [List.length_map, List.length_zipIdx] at hi
    have hanswer : i < prepared.answers.length := by omega
    have hvalue : i < values.length := by omega
    have hprobability : i < probabilities.length := by omega
    simp only [List.getElem_map, List.getElem_zipIdx, List.getElem_zip, optionScore, Nat.zero_add,
      List.getD_eq_getElem?_getD, List.getElem?_map, List.getElem?_eq_getElem hanswer,
      List.getElem?_eq_getElem hvalue, List.getElem?_eq_getElem hprobability, Option.map_some,
      Option.getD_some]

omit [Field R] [LinearOrder R] in
/-- The answers of a prompt, one for each slot. -/
theorem answers_length {prepared : Prepared} (h : engine.prepare request = .ok prepared) :
    prepared.answers.length = prepared.rendered.answerSlots.length := by
  have htokens := answerTokens_tokens (prepare_eq_ok h).answers
  rw [htokens.length_eq, List.length_map]

theorem decisionResult_iff (hloaded : engine.Loaded) {prepared : Prepared}
    {visualTokens : Option (VisualTokens Row)} {state : PrefillState Row} {values : List R}
    {maximum : R} {selected : Nat} {result : DecisionResult (Ieee R)}
    (hprepare : engine.prepare request = .ok prepared)
    (hprefilled : Prefilled engine prepared visualTokens state)
    (hvalues : values.length = prepared.answers.length) :
    engine.decisionResult request prepared (values.map Ieee.finite)
        (summaryOf engine.library.exp values maximum selected) state = .ok result ↔
      ∃ slot, prepared.rendered.answerSlots[selected]? = some slot ∧
        result = engine.decided request prepared (positionCount prepared visualTokens) values
          maximum slot := by
  obtain ⟨keys, hkeys⟩ := hloaded.key hprefilled.config
  have hsoftmax : (softmax engine.library.exp values maximum).length = values.length :=
    List.length_map _
  have hscores := optionScores_eq (answers_length hprepare) hvalues hsoftmax
  have hselected : (prepared.rendered.answerSlots.zipIdx.map (optionScore prepared
      (values.map Ieee.finite) (softmax engine.library.exp values maximum)))[selected]? =
        prepared.rendered.answerSlots[selected]?.map fun slot => optionScore prepared
          (values.map Ieee.finite) (softmax engine.library.exp values maximum) (slot, selected) := by
    rw [List.getElem?_map, List.getElem?_zipIdx, Option.map_map, Nat.zero_add]
    rfl
  unfold decisionResult summaryOf
  dsimp only
  rw [hselected]
  cases prepared.rendered.answerSlots[selected]? with
  | none =>
    constructor
    · intro h
      cases h
    · intro ⟨slot, hslot, _⟩
      cases hslot
  | some slot =>
    dsimp only [Option.map_some]
    rw [hkeys, ok_bind, hscores, hprefilled.timings_eq]
    constructor
    · intro h
      exact ⟨slot, rfl, (Except.ok.inj h).symm⟩
    · intro ⟨slot', hslot, hresult⟩
      cases hslot
      exact congrArg Except.ok hresult.symm

end Parts

variable {engine request} [IsStrictOrderedRing R]

/-- With a complete model on a device that does what it is asked, an evaluation returns a result
if and only if it is the decision that one pass over the whole prompt makes. -/
theorem evaluate_iff_decides (hloaded : engine.Loaded) {result : DecisionResult (Ieee R)} :
    engine.evaluate request = .ok result ↔
      ∃ prepared visualTokens values maximum selected slot,
        engine.Decides request result prepared visualTokens values maximum selected slot := by
  constructor
  · intro h
    obtain ⟨prepared, hprepare, h⟩ := bind_eq_ok.mp h
    obtain ⟨visualTokens, hencode, h⟩ := bind_eq_ok.mp h
    obtain ⟨state, hprefill, h⟩ := bind_eq_ok.mp h
    obtain ⟨rawScores, hgather, h⟩ := bind_eq_ok.mp h
    obtain ⟨summary, hsummary, h⟩ := bind_eq_ok.mp h
    have hprefilled := prefilled_of_ok hprefill
    rw [hprefilled.logits] at hgather
    obtain ⟨logits, values, hlogits, rfl, hvalues⟩ := gatherCategoricalLogits_eq_ok hgather
    cases hlogits
    obtain ⟨maximum, selected, hlargest, rfl⟩ := summarizeCategorical_summary hsummary
    have hlength := hvalues.length_eq
    rw [List.length_map] at hlength
    obtain ⟨slot, hslot, hresult⟩ :=
      (decisionResult_iff hloaded hprepare hprefilled hlength.symm).mp h
    exact ⟨prepared, visualTokens, values, maximum, selected, slot, hprepare, hencode,
      hprefilled.counted.fits, hprefilled.counted.visualWidth, List.forall₂_map_left_iff.mp hvalues,
      hlargest, hslot, hresult⟩
  · intro ⟨prepared, visualTokens, values, maximum, selected, slot, h⟩
    obtain ⟨state, hprefill⟩ := hloaded.exists_prefill h.fits h.visualWidth
    have hprefilled := prefilled_of_ok hprefill
    have hne : prepared.answers.map AnswerToken.id ≠ [] := by
      intro hnil
      have hlogits := h.logits
      rw [List.map_eq_nil_iff.mp hnil, List.forall₂_nil_left_iff] at hlogits
      have hat := h.largest.at_index
      rw [hlogits] at hat
      cases hat
    have hgather := gatherCategoricalLogits_ok hloaded.readout hne
      (List.forall₂_map_left_iff.mpr h.logits)
    have hsummary := (summarizeCategorical_iff hloaded.exp).mpr ⟨maximum, selected, h.largest, rfl⟩
    have hdecision := (decisionResult_iff hloaded h.prepares hprefilled
      h.logits.length_eq.symm).mpr ⟨slot, h.offered, h.result_eq⟩
    rw [evaluate, h.prepares, ok_bind, h.encodes, ok_bind, hprefill, ok_bind, hprefilled.logits,
      hgather, ok_bind, hsummary, ok_bind, hdecision]

theorem evenEngine_loaded : evenEngine.Loaded where
  sharedLayers := PrefillEngine.sample_accepts.sharedLayers
  pattern := PrefillEngine.sample_accepts.pattern
  sources := PrefillEngine.sample_accepts.sources
  headWidths := PrefillEngine.sample_accepts.headWidths
  tensors := PrefillEngine.sample_accepts.tensors
  allocates _ := rfl
  supported _ := rfl
  computes _ := rfl
  readout := ⟨rfl, rfl, rfl⟩
  exp _ := one_pos

/-- Two equal logits: the first option is selected, and the tie is reported. -/
theorem evaluate_iff_decides_sample : ∃ result, evenEngine.evaluate textRequest = .ok result ∧
    result.selectedIndex = 0 ∧ result.exactTie = true := by
  have hprepares : (evenEngine.prepare textRequest).map (fun prepared =>
      (prepared.answers.map AnswerToken.id, prepared.tokensBefore.length,
        prepared.tokensAfter.length, prepared.rendered.answerSlots.map
          RenderedAnswerSlot.inputIndex)) = .ok ([70, 71], 287, 0, [0, 1]) := by decide +kernel
  obtain ⟨prepared, hprepare, hprepared⟩ := map_eq_ok.mp hprepares
  simp only [Prod.mk.injEq] at hprepared
  obtain ⟨hanswers, hbefore, hafter, hslots⟩ := hprepared
  have hcount : positionCount prepared (none : Option (VisualTokens Nat)) = 287 := by
    rw [positionCount, hbefore, hafter]
    rfl
  have hcuda : (BackendContext.reliable (bytes "CPU")).cuda = false := by decide
  have hslot : ∃ slot, prepared.rendered.answerSlots[0]? = some slot ∧ slot.inputIndex = 0 := by
    have hfirst := congrArg (fun indices => indices[0]?) hslots
    rw [List.getElem?_map] at hfirst
    exact Option.map_eq_some_iff.mp hfirst
  obtain ⟨slot, hslot, hindex⟩ := hslot
  have hlogits : List.Forall₂ (fun id value => (evenEngine.passLogits prepared none)[id]? =
      some (Ieee.finite value)) (prepared.answers.map AnswerToken.id) [0, 0] := by
    rw [hanswers]
    exact .cons rfl (.cons rfl .nil)
  have hfits : PrefillEngine.Fits evenEngine.model evenEngine.backend
      (positionCount prepared (none : Option (VisualTokens Nat))) := by
    rw [hcount]
    exact ⟨by decide, by decide, fun h => absurd (hcuda.symm.trans h) Bool.false_ne_true⟩
  have hlargest : FirstMax [(0 : ℚ), 0] 0 0 :=
    ⟨rfl, by simp, fun j hj => absurd hj (Nat.not_lt_zero j)⟩
  have hdecides : evenEngine.Decides textRequest (evenEngine.decided textRequest prepared
      (positionCount prepared none) [0, 0] 0 slot) prepared none [0, 0] 0 0 slot :=
    ⟨hprepare, rfl, hfits, nofun, List.forall₂_map_left_iff.mp hlogits, hlargest, hslot, rfl⟩
  have htie : decide (1 < [(0 : ℚ), 0].count 0) = true := by decide
  exact ⟨_, (evaluate_iff_decides evenEngine_loaded).mpr ⟨_, _, _, _, _, _, hdecides⟩, hindex,
    htie⟩

end Gemma4DecisionEngine

end Branchscore
