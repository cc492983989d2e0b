import Branchscore.SystemoneAdapter.Response

/-!
# What a response holds

Results that fit their questions are never rejected, and the response holds one answer and one
diagnostic for every question.
-/

namespace Branchscore.Systemone

open Foundation Outcome
set_option autoImplicit false

variable {D : Type} {lib : Json.NumberLibrary D} {ofSize : Nat → D}

theorem number_of_finite {value : D} (h : lib.isfinite value = true) :
    number lib value = .ok (.number value) :=
  if_pos h

theorem emplaced_find {members : List (String × Json.Value D)} {key : String}
    {value : Json.Value D} (hnodup : (members.map fun member => bytes member.1).Nodup)
    (hmem : (key, value) ∈ members) : (emplaced members).find (bytes key) = some value := by
  apply (SortedMap.lookup_build _).mpr
  · exact List.mem_map_of_mem hmem
  · rwa [List.map_map]

theorem exists_mapM_ok {α β : Type} {f : α → Except Exception β} {as : List α}
    (h : ∀ a ∈ as, ∃ b, f a = .ok b) : ∃ bs, as.mapM f = .ok bs := by
  cases hresult : as.mapM f with
  | ok bs => exact ⟨bs, rfl⟩
  | error e =>
    obtain ⟨a, ha, herror⟩ := mapM_eq_error hresult
    obtain ⟨b, hok⟩ := h a ha
    cases hok.symm.trans herror

/-! ## Times and scores -/

/-- The measured times of a result. -/
def milliseconds (timing : TimingInfo D) : List D :=
  [timing.promptRenderingMs, timing.tokenizationMs, timing.imagePreprocessingMs, timing.visionMs,
    timing.visionBackendCopyMs, timing.visionSynchronizationMs, timing.prefillMs,
    timing.prefillBackendCopyMs, timing.prefillSynchronizationMs, timing.readoutMs,
    timing.readoutBackendCopyMs, timing.readoutSynchronizationMs, timing.normalizationMs,
    timing.requestTotalMs]

theorem exists_timingJson (hsize : ∀ size, lib.isfinite (ofSize size) = true)
    {timing : TimingInfo D} (htimes : ∀ time ∈ milliseconds timing, lib.isfinite time = true) :
    ∃ timings, timingJson lib ofSize timing = .ok timings := by
  have hmembers : ∀ member ∈ timingMembers lib ofSize timing, ∃ value, member.2 = .ok value := by
    simp only [milliseconds, List.forall_mem_cons] at htimes
    simp [timingMembers, number, sizeNumber, hsize, htimes]
  have hall : ∃ members, ((timingMembers lib ofSize timing).mapM fun member => do
      return (member.1, ← member.2) : Except Exception _) = .ok members := by
    apply exists_mapM_ok
    intro member hmember
    obtain ⟨value, hvalue⟩ := hmembers member hmember
    exact ⟨(member.1, value), by rw [hvalue]; rfl⟩
  obtain ⟨members, hall⟩ := hall
  exact ⟨emplaced members, by rw [timingJson, hall]; rfl⟩

/-- Scores in the order of their ids are the members of the object as they are. -/
theorem scoreObject_eq {value : OptionScore D → D} {scores : List (OptionScore D)}
    (hfinite : ∀ score ∈ scores, lib.isfinite (value score) = true)
    (hsorted : (scores.map OptionScore.optionId).Pairwise (· < ·)) :
    scoreObject lib value scores = .ok (.object ((scores.map OptionScore.optionId).zip
      ((scores.map value).map .number))) := by
  have hmembers : (scores.mapM fun score => do
      return (score.optionId, ← number lib (value score)) : Except Exception _) =
        .ok (scores.map fun score => (score.optionId, .number (value score))) := by
    apply mapM_ok
    intro score hscore
    rw [number_of_finite (hfinite score hscore)]
    rfl
  have hmap : SortedMap.Sorted (scores.map fun score =>
      (score.optionId, (.number (value score) : Json.Value D))) := by
    apply List.pairwise_map.mp at hsorted
    exact List.pairwise_map.mpr hsorted
  rw [scoreObject, hmembers, ok_bind, SortedMap.build_of_sorted hmap, List.map_map, List.zip_map']
  rfl

/-! ## One question -/

/-- The result names the options of the question. -/
structure Fits (question : ChoiceQuestion) (result : DecisionResult D) : Prop where
  optionIds : result.optionScores.map OptionScore.optionId =
    question.decision.options.map DecisionOption.id
  sorted : (question.decision.options.map DecisionOption.id).Pairwise (· < ·)
  selected : result.selectedId ∈ question.decision.options.map DecisionOption.id
  promptTokens : result.renderedPromptTokenIds.length ≤ maxPrefillPositions

/-- Every number of the result can be encoded. -/
structure Encodable (lib : Json.NumberLibrary D) (result : DecisionResult D) : Prop where
  rawScores : ∀ score ∈ result.optionScores, lib.isfinite score.rawScore = true
  probabilities : ∀ score ∈ result.optionScores, lib.isfinite score.relativeProbability = true
  times : ∀ time ∈ milliseconds result.timings, lib.isfinite time = true

theorem Fits.validateResult {question : ChoiceQuestion} {result : DecisionResult D}
    (h : Fits question result) : validateResult question result = .ok () := by
  have hlength : result.optionScores.length = question.decision.options.length := by
    simpa using congrArg List.length h.optionIds
  have hnodup : (question.decision.options.map DecisionOption.id).Nodup := h.sorted.imp ne_of_lt
  have hcard : (question.decision.options.map DecisionOption.id).toFinset.card =
      result.optionScores.length := by
    rw [List.toFinset_card_of_nodup hnodup, List.length_map, hlength]
  unfold Systemone.validateResult
  dsimp only
  rw [throwIf_of_not (not_not.mpr hlength), ok_bind, h.optionIds,
    throwIf_of_not (not_or.mpr ⟨not_not.mpr rfl, not_not.mpr hcard⟩), ok_bind,
    throwIf_of_not (not_not.mpr (List.mem_toFinset.mpr h.selected))]

/-- The ids and the values of the scores, as the members of an object. -/
def scoreMembers (value : OptionScore D → D) (result : DecisionResult D) : Json.Value D :=
  .object ((result.optionScores.map OptionScore.optionId).zip
    ((result.optionScores.map value).map .number))

/-- The answer to a question. -/
def answerTo (ofSize : Nat → D) (result : DecisionResult D) : Json.Value D :=
  choiceAnswer result (scoreMembers OptionScore.relativeProbability result) (.number (ofSize 1))

/-- The diagnostic of a question, with its raw logits. -/
def diagnosticOf (result : DecisionResult D) (timings : Json.Value D) : Json.Value D :=
  questionDiagnostic result timings (some (scoreMembers OptionScore.rawScore result))

theorem addQuestion_ok (hsize : ∀ size, lib.isfinite (ofSize size) = true)
    {question : ChoiceQuestion} {result : DecisionResult D} (hfits : Fits question result)
    (hencodable : Encodable lib result) {parts : ResponseParts D}
    (hbudget : parts.inputTokens + maxPrefillPositions ≤ 2 ^ 64 - 1) :
    ∃ timings, addQuestion lib ofSize true parts (question, result) = .ok
      { inputTokens := parts.inputTokens + result.renderedPromptTokenIds.length
        answers := parts.answers ++ [(question.id, answerTo ofSize result)]
        diagnosticQuestions := parts.diagnosticQuestions ++
          [(question.id, diagnosticOf result timings)] } := by
  obtain ⟨timings, htimings⟩ := exists_timingJson hsize hencodable.times
  have hsorted : (result.optionScores.map OptionScore.optionId).Pairwise (· < ·) :=
    hfits.optionIds ▸ hfits.sorted
  have htokens : ¬2 ^ 64 - 1 - parts.inputTokens < result.renderedPromptTokenIds.length := by
    have := hfits.promptTokens
    omega
  refine ⟨timings, ?_⟩
  unfold addQuestion
  dsimp only
  rw [hfits.validateResult, ok_bind, throwIf_of_not htokens, ok_bind,
    scoreObject_eq hencodable.probabilities hsorted, ok_bind,
    scoreObject_eq hencodable.rawScores hsorted, ok_bind, sizeNumber,
    number_of_finite (hsize 1), ok_bind, htimings]
  rfl

/-! ## All questions -/

/-- The entry of the diagnostics belongs to the question. -/
structure DiagnosticEntry (answered : ChoiceQuestion × DecisionResult D)
    (entry : Bytes × Json.Value D) : Prop where
  id : entry.1 = answered.1.id
  value : ∃ timings, entry.2 = diagnosticOf answered.2 timings

/-- Every question has its result. -/
def Answered (lib : Json.NumberLibrary D) (questions : List ChoiceQuestion)
    (results : List (DecisionResult D)) : Prop :=
  List.Forall₂ (fun question result => Fits question result ∧ Encodable lib result) questions results

/-- The loop over the questions, from any point on. -/
theorem foldlM_addQuestion (hsize : ∀ size, lib.isfinite (ofSize size) = true)
    {questions : List ChoiceQuestion} {results : List (DecisionResult D)}
    (h : Answered lib questions results) {parts : ResponseParts D}
    (hbudget : parts.inputTokens + questions.length * maxPrefillPositions ≤ 2 ^ 64 - 1) :
    ∃ inputTokens diagnostics,
      (questions.zip results).foldlM (addQuestion lib ofSize true) parts = .ok
        { inputTokens
          answers := parts.answers ++ (questions.zip results).map fun answered =>
            (answered.1.id, answerTo ofSize answered.2)
          diagnosticQuestions := parts.diagnosticQuestions ++ diagnostics } ∧
      List.Forall₂ DiagnosticEntry (questions.zip results) diagnostics := by
  induction h generalizing parts with
  | nil => exact ⟨parts.inputTokens, [], by simp, .nil⟩
  | @cons question result questions results hfirst hrest ih =>
    rw [List.length_cons, Nat.add_mul, Nat.one_mul] at hbudget
    obtain ⟨timings, hadd⟩ := addQuestion_ok hsize hfirst.1 hfirst.2
      (show parts.inputTokens + maxPrefillPositions ≤ 2 ^ 64 - 1 by omega)
    have htokens := hfirst.1.promptTokens
    obtain ⟨inputTokens, diagnostics, hfold, hdiagnostics⟩ := @ih
      { inputTokens := parts.inputTokens + result.renderedPromptTokenIds.length
        answers := parts.answers ++ [(question.id, answerTo ofSize result)]
        diagnosticQuestions := parts.diagnosticQuestions ++
          [(question.id, diagnosticOf result timings)] }
      (by dsimp only; omega)
    refine ⟨inputTokens, (question.id, diagnosticOf result timings) :: diagnostics, ?_,
      .cons ⟨rfl, timings, rfl⟩ hdiagnostics⟩
    rw [List.zip_cons_cons, List.foldlM_cons, hadd, ok_bind, hfold]
    simp only [List.map_cons, List.append_assoc, List.singleton_append]

theorem zip_ids {questions : List ChoiceQuestion} {results : List (DecisionResult D)}
    (h : questions.length = results.length) :
    (questions.zip results).map (fun answered => answered.1.id) = questions.map ChoiceQuestion.id := by
  calc _ = ((questions.zip results).map Prod.fst).map ChoiceQuestion.id := by
        rw [List.map_map]
        rfl
    _ = questions.map ChoiceQuestion.id := by rw [List.map_fst_zip h.le]

theorem diagnostics_ids {answered : List (ChoiceQuestion × DecisionResult D)}
    {diagnostics : List (Bytes × Json.Value D)} (h : List.Forall₂ DiagnosticEntry answered diagnostics) :
    diagnostics.map Prod.fst = answered.map fun answered => answered.1.id := by
  induction h with
  | nil => rfl
  | cons hentry _ ih => rw [List.map_cons, List.map_cons, hentry.id, ih]

/-- The metadata of a response. -/
def metadataOf (ofSize : Nat → D) (diagnostics : List (Bytes × Json.Value D)) : Json.Value D :=
  emplaced [("schema_version", .number (ofSize 2)),
    ("confidence_kind", .string (bytes "constant_placeholder")),
    ("questions", .object diagnostics)]

/-- The response to a request with these answers. -/
def responseOf (ofSize : Nat → D) (request : Request) (inputTokens : Nat)
    (answers diagnostics : List (Bytes × Json.Value D)) : Json.Value D :=
  emplaced ([("model", .string request.modelId), ("answers", .object answers),
    ("usage", emplaced [("input_tokens", .number (ofSize inputTokens)),
      ("output_tokens", .number (ofSize 0))]),
    ("branchscore", metadataOf ofSize diagnostics)] ++
      (request.requestId.map fun requestId => ("request_id", .string requestId)).toList)

theorem responseOf_find {request : Request} {inputTokens : Nat}
    {answers diagnostics : List (Bytes × Json.Value D)} {key : String} {value : Json.Value D}
    (h : (key, value) ∈ [("answers", .object answers),
      ("branchscore", metadataOf ofSize diagnostics)]) :
    (responseOf ofSize request inputTokens answers diagnostics).find (bytes key) = some value := by
  have hfields : (["model", "answers", "usage", "branchscore", "request_id"].map bytes).Nodup := by
    decide +kernel
  apply emplaced_find
  · cases request.requestId with
    | none => exact hfields.sublist (List.sublist_append_left _ [bytes "request_id"])
    | some requestId => exact hfields
  · apply List.mem_append_left
    simp only [List.mem_cons, List.not_mem_nil, or_false] at h ⊢
    tauto

theorem metadataOf_find {diagnostics : List (Bytes × Json.Value D)} :
    (metadataOf ofSize diagnostics).find (bytes "questions") = some (.object diagnostics) := by
  have hfields : (["schema_version", "confidence_kind", "questions"].map bytes).Nodup := by
    decide +kernel
  exact emplaced_find hfields (by simp)

/-- A response holds an answer and a diagnostic for every question, in the order of the
questions. -/
structure Holds (ofSize : Nat → D) (answered : List (ChoiceQuestion × DecisionResult D))
    (diagnostics : List (Bytes × Json.Value D)) (response : Json.Value D) : Prop where
  answers : response.find (bytes "answers") = some (.object
    (answered.map fun answered => (answered.1.id, answerTo ofSize answered.2)))
  metadata : ∃ metadata, response.find (bytes "branchscore") = some metadata ∧
    metadata.find (bytes "questions") = some (.object diagnostics)
  entries : List.Forall₂ DiagnosticEntry answered diagnostics

theorem makeResponse_ok (hsize : ∀ size, lib.isfinite (ofSize size) = true) {request : Request}
    {results : List (DecisionResult D)} (h : Answered lib request.questions results)
    (hcount : request.questions.length ≤ maxQuestionsPerRequest)
    (hsorted : (request.questions.map ChoiceQuestion.id).Pairwise (· < ·)) :
    ∃ response diagnostics, makeResponse lib ofSize request results true = .ok response ∧
      Holds ofSize (request.questions.zip results) diagnostics response := by
  have hlength : request.questions.length = results.length := h.length_eq
  have hbudget : 0 + request.questions.length * maxPrefillPositions ≤ 2 ^ 64 - 1 := by
    unfold maxQuestionsPerRequest at hcount
    unfold maxPrefillPositions
    omega
  obtain ⟨inputTokens, diagnostics, hfold, hdiagnostics⟩ :=
    @foldlM_addQuestion D lib ofSize hsize _ _ h {} hbudget
  rw [← zip_ids hlength] at hsorted
  have hanswers : SortedMap.Sorted ((request.questions.zip results).map fun answered =>
      (answered.1.id, answerTo ofSize answered.2)) := by
    apply List.pairwise_map.mp at hsorted
    exact List.pairwise_map.mpr hsorted
  have hentries : SortedMap.Sorted diagnostics := by
    rw [← diagnostics_ids hdiagnostics] at hsorted
    exact List.pairwise_map.mp hsorted
  rw [List.nil_append, List.nil_append] at hfold
  have hmake : makeResponse lib ofSize request results true = .ok (responseOf ofSize request
      inputTokens ((request.questions.zip results).map fun answered =>
        (answered.1.id, answerTo ofSize answered.2)) diagnostics) := by
    unfold makeResponse
    rw [throwIf_of_not (not_not.mpr hlength.symm), ok_bind, hfold, ok_bind, sizeNumber,
      number_of_finite (hsize _), ok_bind, sizeNumber, number_of_finite (hsize _), ok_bind, sizeNumber,
      number_of_finite (hsize _), ok_bind, SortedMap.build_of_sorted hanswers,
      SortedMap.build_of_sorted hentries]
    rfl
  exact ⟨_, diagnostics, hmake, responseOf_find List.mem_cons_self,
    ⟨_, responseOf_find (List.mem_cons_of_mem _ List.mem_cons_self), metadataOf_find⟩, hdiagnostics⟩

end Branchscore.Systemone
