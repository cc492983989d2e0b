import Branchscore.DecisionEngine.Preflight
import Branchscore.DecisionEngine.Progress
import Branchscore.SystemoneAdapter.Accepted
import Branchscore.SystemoneAdapter.ResponseParts

/-!
# The answers are aligned with the criteria

From the envelope to the response: the scores and the probabilities under a key of the criteria
are those of the label that the prompt shows beside the criterion.
-/

namespace Branchscore.Systemone

open Foundation Outcome
set_option autoImplicit false

/-! ## Reading an envelope -/

section Read
variable {D : Type}

/-- What the adapter has read a question from. -/
structure ReadFrom (member : Bytes × Json.Value D) (criteria : List (Bytes × Json.Value D))
    (question : ChoiceQuestion) : Prop where
  id : question.id = member.1
  object : member.2.find (bytes "criteria") = some (.object criteria)
  count : minDecisionOptions ≤ criteria.length ∧ criteria.length ≤ maxDecisionOptions
  options : List.Forall₂ (fun criterion option => parseCriterion criterion = .ok option) criteria
    question.decision.options

theorem requireObject_eq_ok {value : Json.Value D} {field : Bytes} {u : Unit}
    (h : requireObject value field = .ok u) : ∃ members, value = .object members :=
  (requireObject_ends value field).of_eq_ok h

theorem parseQuestion_eq_ok {state : Bytes} {imageBytes : Option Bytes}
    {member : Bytes × Json.Value D} {question : ChoiceQuestion}
    (h : parseQuestion state imageBytes member = .ok question) :
    ∃ criteria, ReadFrom member criteria question := by
  obtain ⟨questionId, value⟩ := member
  obtain ⟨_, _, h⟩ := bind_eq_ok.mp h
  obtain ⟨_, _, h⟩ := bind_eq_ok.mp h
  obtain ⟨_, _, h⟩ := bind_eq_ok.mp h
  obtain ⟨_, _, h⟩ := bind_eq_ok.mp h
  obtain ⟨_, _, h⟩ := bind_eq_ok.mp h
  obtain ⟨_, _, h⟩ := bind_eq_ok.mp h
  obtain ⟨_, _, h⟩ := bind_eq_ok.mp h
  obtain ⟨object, hfind, h⟩ := bind_eq_ok.mp h
  obtain ⟨_, hobject, h⟩ := bind_eq_ok.mp h
  obtain ⟨criteria, rfl⟩ := requireObject_eq_ok hobject
  rw [Json.Value.asObject, ok_bind] at h
  obtain ⟨_, hcount, h⟩ := bind_eq_ok.mp h
  obtain ⟨options, hoptions, h⟩ := bind_eq_ok.mp h
  cases h
  have hcount' := (rejectIf_ends _ _ _).of_eq_ok hcount
  rw [not_or, Nat.not_lt, Nat.not_lt] at hcount'
  exact ⟨criteria, rfl, (required_ends value _).of_eq_ok hfind, hcount', mapM_eq_ok.mp hoptions⟩

theorem parseRequest_eq_ok {lib : Json.NumberLibrary D} {stb : StbImage} {envelope : Json.Value D}
    {advertisedModelId : Bytes} {request : Request}
    (h : parseRequest lib stb envelope advertisedModelId = .ok request) :
    ∃ members, envelope.find (bytes "questions") = some (.object members) ∧
      members.length ≤ maxQuestionsPerRequest ∧
      List.Forall₂ (fun member question => ∃ criteria, ReadFrom member criteria question) members
        request.questions := by
  obtain ⟨_, _, h⟩ := bind_eq_ok.mp h
  obtain ⟨_, _, h⟩ := bind_eq_ok.mp h
  split at h
  · cases h
  · obtain ⟨_, _, h⟩ := bind_eq_ok.mp h
    obtain ⟨_, _, h⟩ := bind_eq_ok.mp h
    obtain ⟨_, _, h⟩ := bind_eq_ok.mp h
    obtain ⟨_, _, h⟩ := bind_eq_ok.mp h
    obtain ⟨_, _, h⟩ := bind_eq_ok.mp h
    obtain ⟨_, _, h⟩ := bind_eq_ok.mp h
    obtain ⟨object, hfind, h⟩ := bind_eq_ok.mp h
    obtain ⟨_, hobject, h⟩ := bind_eq_ok.mp h
    obtain ⟨members, rfl⟩ := requireObject_eq_ok hobject
    rw [Json.Value.asObject, ok_bind] at h
    obtain ⟨_, _, h⟩ := bind_eq_ok.mp h
    obtain ⟨_, hcount, h⟩ := bind_eq_ok.mp h
    obtain ⟨questions, hquestions, h⟩ := bind_eq_ok.mp h
    cases h
    have hcount' := (rejectIf_ends _ _ _).of_eq_ok hcount
    refine ⟨members, (required_ends envelope _).of_eq_ok hfind, Nat.not_lt.mp hcount', ?_⟩
    exact (mapM_eq_ok.mp hquestions).imp fun _ _ => parseQuestion_eq_ok

theorem ReadFrom.ids {member : Bytes × Json.Value D} {criteria : List (Bytes × Json.Value D)}
    {question : ChoiceQuestion} (h : ReadFrom member criteria question) :
    question.decision.options.map DecisionOption.id = criteria.map Prod.fst :=
  forall₂_map_eq h.options fun criterion _ hoption =>
    ((parseCriterion_ends criterion).of_eq_ok hoption).1

/-- The keys of an object inside an envelope are in increasing order. -/
theorem find_sorted {finite : D → Prop} {value : Json.Value D} {key : Bytes}
    {members : List (Bytes × Json.Value D)} (hregular : value.Regular finite)
    (h : value.find key = some (.object members)) :
    SortedMap.Sorted members ∧ ∀ member ∈ members, member.2.Regular finite := by
  cases find_regular hregular h with
  | object hsorted hall => exact ⟨hsorted, hall⟩

end Read

/-! ## Scores under their keys -/

section Aligned
variable {R A Tensor Row : Type} [Field R] [LinearOrder R]

/-- Every score, every size and every time that the clock reports can be encoded. -/
structure Encodes (lib : Json.NumberLibrary (Ieee R)) (ofSize : Nat → Ieee R)
    (measured : TimingInfo (Ieee R)) : Prop where
  finite : ∀ value, lib.isfinite (.finite value) = true
  size : ∀ size, lib.isfinite (ofSize size) = true
  times : ∀ time ∈ milliseconds measured, lib.isfinite time = true

/-- The logits that the evaluation reads its scores from are `L` on the vocabulary. -/
def Assigns (engine : Gemma4DecisionEngine R A Tensor Row) (decision : DecisionRequest)
    (L : TokenId → R) : Prop :=
  ∀ logits, engine.frozenLogits decision = .ok (some logits) →
    ∀ (id : TokenId) (x : Ieee R), logits[id]? = some x → x = .finite (L id)

/-- The prompt lists the options, each description beside its label. -/
def Shows {D : Type} (lib : Json.NumberLibrary D) (decision : DecisionRequest)
    (prompt : RenderedPrompt) (labels : List Bytes) : Prop :=
  labels.length = decision.options.length ∧ ∃ list,
    prompt.text = Gemma4PromptRenderer.promptHead decision.state decision.question decision.hasImage
      (decide (legacyDecisionOptions < decision.options.length)) ++ list ++
        bytes "<turn|>\n<|turn>model\n" ∧
    Json.parse lib list = .ok (.array ((labels.zip decision.options).map fun shown =>
      .object [(bytes "description", .string shown.2.description),
        (bytes "letter", .string shown.1)]))

/-- What the response says about a question, with the labels that its prompt shows and their
tokens, under the keys of its criteria. -/
structure AlignedBy (engine : Gemma4DecisionEngine R A Tensor Row) (decision : DecisionRequest)
    (keys : List Bytes) (answer diagnostic : Json.Value (Ieee R)) (L : TokenId → R)
    (prompt : RenderedPrompt) (labels : List Bytes) (ids : List TokenId) (maximum : R) : Prop where
  renders : engine.render decision = .ok prompt
  labels_shown : Shows engine.library.numbers decision prompt labels
  distinct : labels.Nodup
  tokens : List.Forall₂ engine.tokenizer.LabelToken labels ids
  count : ids.length = keys.length
  rawLogits : diagnostic.find (bytes "raw_logits") =
    some (.object (keys.zip ((ids.map L).map fun x => .number (.finite x))))
  optionOrder : diagnostic.find (bytes "option_order") = some (.array (keys.map .string))
  largest : maximum ∈ ids.map L ∧ ∀ x ∈ ids.map L, x ≤ maximum
  probabilities : answer.find (bytes "probabilities") = some (.object (keys.zip
    ((softmax engine.library.exp (ids.map L) maximum).map fun p => .number (.finite p))))
  choice : ∃ key, answer.find (bytes "choice") = some (.string key) ∧
    (key, maximum) ∈ keys.zip (ids.map L) ∧
    ∀ other, (other, maximum) ∈ keys.zip (ids.map L) → key ≤ other

def Aligned (engine : Gemma4DecisionEngine R A Tensor Row) (decision : DecisionRequest)
    (keys : List Bytes) (answer diagnostic : Json.Value (Ieee R)) (L : TokenId → R) : Prop :=
  ∃ prompt labels ids maximum,
    AlignedBy engine decision keys answer diagnostic L prompt labels ids maximum

omit [LinearOrder R] in
theorem milliseconds_timings {lib : Json.NumberLibrary (Ieee R)}
    {engine : Gemma4DecisionEngine R A Tensor Row} {decision : DecisionRequest}
    {state : PrefillState Row} (hfinite : ∀ value, lib.isfinite (.finite value) = true)
    (h : ∀ time ∈ milliseconds engine.library.measured, lib.isfinite time = true) :
    ∀ time ∈ milliseconds (engine.timings decision state), lib.isfinite time = true := by
  unfold Gemma4DecisionEngine.timings
  cases decision.hasImage with
  | true => exact h
  | false =>
    simp only [milliseconds, List.forall_mem_cons] at h ⊢
    simp [hfinite, h]

omit [Field R] [LinearOrder R] in
/-- A score object of values. -/
theorem scoreMembers_eq {value : OptionScore (Ieee R) → Ieee R} {result : DecisionResult (Ieee R)}
    {keys : List Bytes} {values : List R}
    (hkeys : result.optionScores.map OptionScore.optionId = keys)
    (hvalues : result.optionScores.map value = values.map .finite) :
    scoreMembers value result = .object (keys.zip (values.map fun x => .number (.finite x))) := by
  rw [scoreMembers, hkeys, hvalues, List.map_map]
  rfl

omit [Field R] [LinearOrder R] in
theorem isfinite_of_map {lib : Json.NumberLibrary (Ieee R)}
    (hfinite : ∀ value, lib.isfinite (.finite value) = true)
    {value : OptionScore (Ieee R) → Ieee R} {scores : List (OptionScore (Ieee R))} {values : List R}
    (h : scores.map value = values.map .finite) :
    ∀ score ∈ scores, lib.isfinite (value score) = true := by
  intro score hscore
  have hmem := List.mem_map_of_mem (f := value) hscore
  rw [h] at hmem
  obtain ⟨x, _, hx⟩ := List.mem_map.mp hmem
  rw [← hx]
  exact hfinite x

omit [Field R] in
/-- Among the keys of the largest values the first one is the smallest. -/
theorem firstMax_least {keys : List Bytes} {values : List R} {maximum : R} {selected : Nat}
    {key : Bytes} (hsorted : keys.Pairwise (· < ·)) (h : FirstMax values maximum selected)
    (hkey : keys[selected]? = some key) : (key, maximum) ∈ keys.zip values ∧
      ∀ other, (other, maximum) ∈ keys.zip values → key ≤ other := by
  constructor
  · exact List.mem_of_getElem? (List.getElem?_zip_eq_some.mpr ⟨hkey, h.at_index⟩)
  · intro other hother
    obtain ⟨j, hj⟩ := List.mem_iff_getElem?.mp hother
    obtain ⟨hother, hvalue⟩ := List.getElem?_zip_eq_some.mp hj
    have hle : selected ≤ j := by
      by_contra hlt
      exact lt_irrefl maximum (h.first j (not_le.mp hlt) maximum hvalue)
    rcases Nat.eq_or_lt_of_le hle with rfl | hlt
    · exact (Option.some.inj (hkey.symm.trans hother)).le
    · obtain ⟨hi, rfl⟩ := List.getElem?_eq_some_iff.mp hkey
      obtain ⟨hj', rfl⟩ := List.getElem?_eq_some_iff.mp hother
      exact (List.pairwise_iff_getElem.mp hsorted _ _ hi hj' hlt).le

end Aligned

/-! ## One question -/

section Question
variable {R A Tensor Row : Type} [Field R] [LinearOrder R]
  {engine : Gemma4DecisionEngine R A Tensor Row} {decision : DecisionRequest}
  {result : DecisionResult (Ieee R)} {prompt : RenderedPrompt} {ids : List TokenId}
  {values : List R} {maximum : R} {selected : Nat} {L : TokenId → R}

open Gemma4DecisionEngine (Scored)

theorem scored_values (h : Scored engine decision result prompt ids values maximum selected)
    (hassigns : Assigns engine decision L) : values = ids.map L := by
  obtain ⟨logits, hfrozen, hvalues⟩ := h.logits
  have hpoint := hassigns logits hfrozen
  clear h
  induction hvalues with
  | nil => rfl
  | @cons id value ids values hvalue _ ih =>
    rw [List.map_cons, ← ih, Ieee.finite.inj (hpoint id _ hvalue)]

theorem scored_shows (h : Scored engine decision result prompt ids values maximum selected) :
    Shows engine.library.numbers decision prompt (prompt.answerSlots.map RenderedAnswerSlot.label) ∧
      (prompt.answerSlots.map RenderedAnswerSlot.label).Nodup := by
  obtain ⟨hslots, list, htext, hparse⟩ := Gemma4PromptRenderer.render_reads_back h.renders
  refine ⟨⟨?_, list, htext, ?_⟩, hslots.nodup⟩
  · rw [List.length_map, hslots.length_eq]
  · rw [hparse, Gemma4PromptRenderer.optionList, List.zip_map_left, List.map_map]
    rfl

theorem fits_of_scored {question : ChoiceQuestion}
    (h : Scored engine question.decision result prompt ids values maximum selected)
    (hsorted : (question.decision.options.map DecisionOption.id).Pairwise (· < ·)) :
    Fits question result :=
  ⟨h.optionIds, hsorted, List.mem_of_getElem? h.selectedId, h.promptTokens⟩

theorem encodable_of_scored {ofSize : Nat → Ieee R}
    (hencodes : Encodes engine.library.numbers ofSize engine.library.measured)
    (h : Scored engine decision result prompt ids values maximum selected) :
    Encodable engine.library.numbers result := by
  obtain ⟨state, htimings⟩ := h.timings
  refine ⟨isfinite_of_map hencodes.finite h.rawScores,
    isfinite_of_map hencodes.finite h.probabilities, ?_⟩
  rw [htimings]
  exact milliseconds_timings hencodes.finite hencodes.times

theorem aligned_of_scored {keys : List Bytes} {ofSize : Nat → Ieee R}
    {timings : Json.Value (Ieee R)}
    (h : Scored engine decision result prompt ids values maximum selected)
    (hkeys : decision.options.map DecisionOption.id = keys) (hsorted : keys.Pairwise (· < ·))
    (hassigns : Assigns engine decision L) :
    Aligned engine decision keys (answerTo ofSize result) (diagnosticOf result timings) L := by
  obtain ⟨hshows, hdistinct⟩ := scored_shows h
  have hids := h.optionIds.trans hkeys
  obtain rfl := scored_values h hassigns
  have hchoice := h.selectedId
  rw [hkeys] at hchoice
  have hanswer : (["type", "choice", "probabilities", "confidence"].map bytes).Nodup := by
    decide +kernel
  have hdiagnostic : (["scoring_basis", "readout_id", "prompt_identity", "renderer_id",
      "option_order", "timings_ms", "raw_logits"].map bytes).Nodup := by
    decide +kernel
  refine ⟨prompt, _, ids, maximum, h.renders, hshows, hdistinct, ?_, ?_, ?_, ?_, ?_, ?_, ?_⟩
  · exact List.forall₂_map_left_iff.mpr h.tokens
  · rw [← List.length_map (f := L), ← hkeys]
    have hlength := congrArg List.length h.rawScores
    have hlength' := congrArg List.length h.optionIds
    simp only [List.length_map] at hlength hlength' ⊢
    omega
  · rw [← scoreMembers_eq hids h.rawScores]
    exact emplaced_find hdiagnostic (by simp)
  · have horder : (Json.Value.array (keys.map .string) : Json.Value (Ieee R)) =
        .array (result.optionScores.map fun score => .string score.optionId) := by
      rw [← hids, List.map_map]
      rfl
    rw [horder]
    exact emplaced_find hdiagnostic (by simp)
  · exact ⟨List.mem_of_getElem? h.largest.at_index, h.largest.maximal⟩
  · rw [← scoreMembers_eq hids h.probabilities]
    exact emplaced_find hanswer (by simp)
  · refine ⟨result.selectedId, ?_, firstMax_least hsorted h.largest hchoice⟩
    exact emplaced_find hanswer (by simp)

end Question

/-! ## The whole request -/

theorem exists_of_forall₂ {α β : Type} {R : α → β → Prop} {as : List α} {bs : List β}
    (h : List.Forall₂ R as bs) {a : α} (ha : a ∈ as) : ∃ b ∈ bs, (a, b) ∈ as.zip bs ∧ R a b := by
  obtain ⟨i, hi, rfl⟩ := List.getElem_of_mem ha
  have hi' : i < bs.length := h.length_eq ▸ hi
  have hzip : (as[i], bs[i]) ∈ as.zip bs :=
    List.mem_of_getElem? (List.getElem?_zip_eq_some.mpr
      ⟨List.getElem?_eq_getElem hi, List.getElem?_eq_getElem hi'⟩)
  exact ⟨bs[i], List.getElem_mem hi', hzip, (List.forall₂_iff_zip.mp h).2 hzip⟩

section Request
variable {R A Tensor Row : Type} [Field R] [LinearOrder R]
  {engine : Gemma4DecisionEngine R A Tensor Row}

theorem ReadFrom.sorted {D : Type} {finite : D → Prop} {member : Bytes × Json.Value D}
    {criteria : List (Bytes × Json.Value D)} {question : ChoiceQuestion}
    (h : ReadFrom member criteria question) (hregular : member.2.Regular finite) :
    (criteria.map Prod.fst).Pairwise (· < ·) :=
  (find_sorted hregular h.object).1.keys

/-- The results of the questions of an accepted envelope. -/
theorem answered_of_evaluates {ofSize : Nat → Ieee R}
    (hencodes : Encodes engine.library.numbers ofSize engine.library.measured)
    {questions : List ChoiceQuestion} {results : List (DecisionResult (Ieee R))}
    (hsorted : ∀ question ∈ questions,
      (question.decision.options.map DecisionOption.id).Pairwise (· < ·))
    (hresults : List.Forall₂ (fun question result =>
      engine.evaluate question.decision = .ok result) questions results) :
    Answered engine.library.numbers questions results := by
  obtain ⟨hlength, hevaluate⟩ := List.forall₂_iff_zip.mp hresults
  refine List.forall₂_iff_zip.mpr ⟨hlength, ?_⟩
  intro question result hmem
  obtain ⟨_, _, _, _, _, hscored⟩ := Gemma4DecisionEngine.evaluate_scored (hevaluate hmem)
  have hquestion := hsorted question (List.of_mem_zip hmem).1
  exact ⟨fits_of_scored hscored hquestion, encodable_of_scored hencodes hscored⟩

/-- For an accepted envelope whose questions have been evaluated, no result is rejected, and the
response holds under the id of every question, exactly once, an answer that is aligned with its
criteria. -/
theorem response_aligned {ofSize : Nat → Ieee R}
    (hencodes : Encodes engine.library.numbers ofSize engine.library.measured)
    {finite : Ieee R → Prop} {envelope : Json.Value (Ieee R)} (hregular : envelope.Regular finite)
    {stb : StbImage} {advertisedModelId : Bytes} {request : Request}
    (haccepted : parseRequest engine.library.numbers stb envelope advertisedModelId = .ok request)
    {results : List (DecisionResult (Ieee R))}
    (hresults : List.Forall₂ (fun question result =>
      engine.evaluate question.decision = .ok result) request.questions results) :
    List.Forall₂ (fun question result => validateResult question result = .ok ())
      request.questions results ∧
    ∃ members response answers metadata diagnostics,
      envelope.find (bytes "questions") = some (.object members) ∧
      makeResponse engine.library.numbers ofSize request results true = .ok response ∧
      response.find (bytes "answers") = some (.object answers) ∧
      response.find (bytes "branchscore") = some metadata ∧
      metadata.find (bytes "questions") = some (.object diagnostics) ∧
      answers.map Prod.fst = members.map Prod.fst ∧ (answers.map Prod.fst).Nodup ∧
      ∀ member ∈ members, ∃ question ∈ request.questions, ∃ criteria answer diagnostic,
        ReadFrom member criteria question ∧ (criteria.map Prod.fst).Pairwise (· < ·) ∧
        SortedMap.lookup member.1 answers = some answer ∧
        SortedMap.lookup member.1 diagnostics = some diagnostic ∧
        ∀ L, Assigns engine question.decision L →
          Aligned engine question.decision (criteria.map Prod.fst) answer diagnostic L := by
  obtain ⟨members, hfind, hcount, hread⟩ := parseRequest_eq_ok haccepted
  obtain ⟨hmembers, hall⟩ := find_sorted hregular hfind
  have hids : request.questions.map ChoiceQuestion.id = members.map Prod.fst :=
    forall₂_map_eq hread fun _ _ ⟨_, h⟩ => h.id
  have hsorted : ∀ question ∈ request.questions,
      (question.decision.options.map DecisionOption.id).Pairwise (· < ·) := by
    intro question hquestion
    obtain ⟨member, hmember, _, criteria, hcriteria⟩ := exists_of_forall₂ hread.flip hquestion
    rw [hcriteria.ids]
    exact hcriteria.sorted (hall member hmember)
  have hanswered := answered_of_evaluates hencodes hsorted hresults
  obtain ⟨response, diagnostics, hresponse, hholds⟩ := makeResponse_ok hencodes.size hanswered
    (hread.length_eq ▸ hcount) (hids ▸ hmembers.keys)
  obtain ⟨metadata, hmetadata, hquestions⟩ := hholds.metadata
  have hlength := hresults.length_eq
  have hanswerIds : ((request.questions.zip results).map fun answered =>
      (answered.1.id, answerTo ofSize answered.2)).map Prod.fst = members.map Prod.fst := by
    rw [List.map_map, ← hids, ← zip_ids hlength]
    rfl
  have hdiagnosticIds : diagnostics.map Prod.fst = members.map Prod.fst := by
    rw [diagnostics_ids hholds.entries, zip_ids hlength, hids]
  refine ⟨hanswered.imp fun _ _ h => h.1.validateResult, members, response, _, metadata,
    diagnostics, hfind, hresponse, hholds.answers, hmetadata, hquestions, hanswerIds, ?_, ?_⟩
  · rw [hanswerIds]
    exact hmembers.nodup_keys
  · intro member hmember
    obtain ⟨question, hquestion, _, criteria, hcriteria⟩ := exists_of_forall₂ hread hmember
    obtain ⟨result, _, hpair, hevaluate⟩ := exists_of_forall₂ hresults hquestion
    obtain ⟨entry, hentry, _, hdiagnostic⟩ := exists_of_forall₂ hholds.entries hpair
    obtain ⟨timings, htimings⟩ := hdiagnostic.value
    have hkeys := hcriteria.sorted (hall member hmember)
    refine ⟨question, hquestion, criteria, answerTo ofSize result, diagnosticOf result timings,
      hcriteria, hkeys, ?_, ?_, ?_⟩
    · have hanswers : SortedMap.Sorted ((request.questions.zip results).map fun answered =>
          (answered.1.id, answerTo ofSize answered.2)) := by
        apply List.pairwise_map.mp
        rw [hanswerIds]
        exact hmembers.keys
      rw [SortedMap.lookup_eq_some hanswers, ← hcriteria.id]
      exact List.mem_map_of_mem (f := fun answered : ChoiceQuestion × DecisionResult (Ieee R) =>
        (answered.1.id, answerTo ofSize answered.2)) hpair
    · have hdiagnostics : SortedMap.Sorted diagnostics := by
        apply List.pairwise_map.mp
        rw [hdiagnosticIds]
        exact hmembers.keys
      rw [SortedMap.lookup_eq_some hdiagnostics, ← hcriteria.id, ← hdiagnostic.id, ← htimings]
      exact hentry
    · intro L hassigns
      obtain ⟨_, _, _, _, _, hscored⟩ := Gemma4DecisionEngine.evaluate_scored hevaluate
      exact aligned_of_scored hscored hcriteria.ids hkeys hassigns

end Request

/-- An engine whose logits rise with the tokens. -/
def risingEngine : Gemma4DecisionEngine ℚ ℚ Unit Nat :=
  let even := Gemma4DecisionEngine.evenEngine
  { even with library := { even.library with
      logits := fun _ => (List.range 103).map fun id : Nat => .finite (id : ℚ) } }

def chosenEnvelope : Json.Value (Ieee ℚ) :=
  .object [(bytes "model", .string (bytes "m")),
    (bytes "questions", .object [(bytes "q", .object [
      (bytes "criteria", .object [(bytes "a", .null), (bytes "b", .null)]),
      (bytes "instructions", .string (bytes "q")), (bytes "type", .string (bytes "choice"))])]),
    (bytes "state", .string (bytes "s"))]

def chosenRequest : Request where
  modelId := bytes "m"
  requestId := none
  imageBytes := none
  questions := [⟨bytes "q", Gemma4DecisionEngine.textRequest⟩]

theorem chosenEnvelope_regular : chosenEnvelope.Regular fun _ => False := by
  have hfields : (["model", "questions", "state"].map bytes).Pairwise (· < ·) := by decide +kernel
  have hquestion : (["criteria", "instructions", "type"].map bytes).Pairwise (· < ·) := by
    decide +kernel
  have hcriteria : (["a", "b"].map bytes).Pairwise (· < ·) := by decide +kernel
  refine .object (List.pairwise_map.mp hfields) ?_
  simp only [List.forall_mem_cons]
  refine ⟨.string _, .object (List.pairwise_singleton _ _) ?_, .string _, List.forall_mem_nil _⟩
  simp only [List.forall_mem_cons]
  refine ⟨.object (List.pairwise_map.mp hquestion) ?_, List.forall_mem_nil _⟩
  simp only [List.forall_mem_cons]
  refine ⟨.object (List.pairwise_map.mp hcriteria) ?_, .string _, .string _, List.forall_mem_nil _⟩
  simp only [List.forall_mem_cons]
  exact ⟨.null, .null, List.forall_mem_nil _⟩

theorem risingEngine_evaluates :
    ∃ result, risingEngine.evaluate Gemma4DecisionEngine.textRequest = .ok result := by
  have hlogits : ∀ id ∈ [70, 71], ∃ value : ℚ,
      ((List.range 103).map fun id : Nat => Ieee.finite (id : ℚ))[id]? = some (.finite value) := by
    intro id hid
    have hlt : id < 103 := by
      rcases List.mem_pair.mp hid with rfl | rfl <;> decide
    refine ⟨(id : ℚ), ?_⟩
    rw [List.getElem?_map, List.getElem?_range hlt, Option.map_some]
  exact Gemma4DecisionEngine.engineWith_evaluates (by decide +kernel) hlogits

theorem risingEngine_assigns :
    Assigns risingEngine Gemma4DecisionEngine.textRequest fun id => (id : ℚ) := by
  intro logits hfrozen id x hx
  obtain ⟨_, _, hfrozen⟩ := bind_eq_ok.mp hfrozen
  obtain ⟨_, _, hfrozen⟩ := bind_eq_ok.mp hfrozen
  obtain ⟨state, _, hfrozen⟩ := bind_eq_ok.mp hfrozen
  have hlogits := Except.ok.inj hfrozen
  obtain ⟨row, _, rfl⟩ := Option.map_eq_some_iff.mp hlogits
  change ((List.range 103).map fun id : Nat => Ieee.finite (id : ℚ))[id]? = some x at hx
  rw [List.getElem?_map] at hx
  obtain ⟨i, hi, rfl⟩ := Option.map_eq_some_iff.mp hx
  obtain ⟨_, rfl⟩ := List.getElem?_eq_some_iff.mp hi
  rw [List.getElem_range]

theorem response_aligned_sample : ∃ result answer diagnostic,
    risingEngine.evaluate Gemma4DecisionEngine.textRequest = .ok result ∧
    Aligned risingEngine Gemma4DecisionEngine.textRequest [bytes "a", bytes "b"] answer diagnostic
      fun id => (id : ℚ) := by
  obtain ⟨result, hresult⟩ := risingEngine_evaluates
  have haccepted : parseRequest risingEngine.library.numbers noImages chosenEnvelope (bytes "m") =
      .ok chosenRequest := by decide +kernel
  have hencodes : Encodes risingEngine.library.numbers (fun size => .finite (size : ℚ))
      risingEngine.library.measured := ⟨fun _ => rfl, fun _ => rfl, by decide⟩
  obtain ⟨_, members, _, _, _, _, hmembers, _, _, _, _, _, _, hall⟩ := response_aligned hencodes
    chosenEnvelope_regular haccepted (.cons hresult .nil)
  cases hmembers
  obtain ⟨question, hquestion, criteria, answer, diagnostic, hread, _, _, _, haligned⟩ :=
    hall _ List.mem_cons_self
  obtain rfl := List.mem_singleton.mp hquestion
  cases hread.object
  exact ⟨result, answer, diagnostic, hresult, haligned _ risingEngine_assigns⟩

end Branchscore.Systemone
