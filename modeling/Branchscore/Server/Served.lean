import Branchscore.Server.PositionBudget
import Branchscore.Server.Transport
import Branchscore.SystemoneAdapter.Alignment

/-!
# A request that is decided

A request whose questions are all estimated within the budget and evaluated is answered with
success. The client reads from the answer what the engine has decided, under the ids of its
questions.
-/

namespace Branchscore.Server

open Foundation Foundation.Fragmentation Outcome Logged
set_option autoImplicit false

variable {D : Type}

/-! ## The numbers of a response -/

section Numbers
variable {P : D → Prop} {lib : Json.NumberLibrary D} {ofSize : Nat → D}

/-- The numbers of a result, each of which satisfies `P`. -/
structure NumbersOf (P : D → Prop) (result : DecisionResult D) : Prop where
  rawScores : ∀ score ∈ result.optionScores, P score.rawScore
  probabilities : ∀ score ∈ result.optionScores, P score.relativeProbability
  times : ∀ time ∈ Systemone.milliseconds result.timings, P time

theorem number_regular {value : D} {item : Json.Value D} (hvalue : P value)
    (h : Systemone.number lib value = .ok item) : item.Regular P := by
  unfold Systemone.number at h
  split_ifs at h
  · cases h
    exact .number hvalue
  · cases h

theorem timingJson_regular (hsize : ∀ size, P (ofSize size)) {timing : TimingInfo D}
    (htimes : ∀ time ∈ Systemone.milliseconds timing, P time) {timings : Json.Value D}
    (h : Systemone.timingJson lib ofSize timing = .ok timings) : timings.Regular P := by
  obtain ⟨members, hmembers, h⟩ := bind_eq_ok.mp h
  cases h
  apply emplaced_regular
  intro member hmember
  obtain ⟨source, hsource, _, hentry⟩ :=
    Systemone.exists_of_forall₂ (mapM_eq_ok.mp hmembers).flip hmember
  obtain ⟨value, hvalue, hentry⟩ := bind_eq_ok.mp hentry
  cases hentry
  simp only [Systemone.milliseconds, List.forall_mem_cons] at htimes
  simp only [Systemone.timingMembers, List.mem_cons, List.not_mem_nil, or_false] at hsource
  rcases hsource with rfl | rfl | rfl | rfl | rfl | rfl | rfl | rfl | rfl | rfl | rfl | rfl |
    rfl | rfl | rfl | rfl | rfl | rfl | rfl | rfl | rfl | rfl | rfl | rfl | rfl
  all_goals first
    | exact number_regular (hsize _) hvalue
    | exact number_regular (by simp only [htimes]) hvalue
    | cases hvalue
      exact .string _

theorem scoreObject_regular {value : OptionScore D → D} {scores : List (OptionScore D)}
    (hscores : ∀ score ∈ scores, P (value score)) {object : Json.Value D}
    (h : Systemone.scoreObject lib value scores = .ok object) : object.Regular P := by
  obtain ⟨members, hmembers, h⟩ := bind_eq_ok.mp h
  cases h
  refine .object (SortedMap.build_sorted _) fun member hmember => ?_
  obtain ⟨score, hscore, _, hentry⟩ := Systemone.exists_of_forall₂ (mapM_eq_ok.mp hmembers).flip
    (SortedMap.mem_of_mem_build hmember)
  obtain ⟨item, hitem, hentry⟩ := bind_eq_ok.mp hentry
  cases hentry
  exact number_regular (hscores score hscore) hitem

structure PartsRegular (P : D → Prop) (parts : Systemone.ResponseParts D) : Prop where
  answers : ∀ entry ∈ parts.answers, entry.2.Regular P
  diagnostics : ∀ entry ∈ parts.diagnosticQuestions, entry.2.Regular P

theorem choiceAnswer_regular (result : DecisionResult D) {probabilities confidence : Json.Value D}
    (hprobabilities : probabilities.Regular P) (hconfidence : confidence.Regular P) :
    (Systemone.choiceAnswer result probabilities confidence).Regular P := by
  apply emplaced_regular
  simp only [List.forall_mem_cons]
  exact ⟨.string _, .string _, hprobabilities, hconfidence, List.forall_mem_nil _⟩

theorem questionDiagnostic_regular (result : DecisionResult D) {timings rawLogits : Json.Value D}
    (htimings : timings.Regular P) (hrawLogits : rawLogits.Regular P) :
    (Systemone.questionDiagnostic result timings (some rawLogits)).Regular P := by
  have horder : (Json.Value.array (result.optionScores.map fun score =>
      (.string score.optionId : Json.Value D))).Regular P := by
    refine .array fun item hitem => ?_
    obtain ⟨score, _, rfl⟩ := List.mem_map.mp hitem
    exact .string _
  apply emplaced_regular
  simp only [Option.map_some, Option.toList_some, List.cons_append, List.nil_append,
    List.forall_mem_cons]
  exact ⟨.string _, .string _, .string _, .string _, horder, htimings, hrawLogits,
    List.forall_mem_nil _⟩

variable (hsize : ∀ size, P (ofSize size))
include hsize

theorem addQuestion_regular {parts final : Systemone.ResponseParts D}
    {answered : Systemone.ChoiceQuestion × DecisionResult D} (hnumbers : NumbersOf P answered.2)
    (hparts : PartsRegular P parts)
    (h : Systemone.addQuestion lib ofSize true parts answered = .ok final) :
    PartsRegular P final := by
  obtain ⟨question, result⟩ := answered
  obtain ⟨_, _, h⟩ := bind_eq_ok.mp h
  obtain ⟨_, _, h⟩ := bind_eq_ok.mp h
  obtain ⟨probabilities, hprobabilities, h⟩ := bind_eq_ok.mp h
  obtain ⟨rawLogits, hrawLogits, h⟩ := bind_eq_ok.mp h
  obtain ⟨confidence, hconfidence, h⟩ := bind_eq_ok.mp h
  obtain ⟨timings, htimings, h⟩ := bind_eq_ok.mp h
  cases h
  constructor
  · refine List.forall_mem_append.mpr ⟨hparts.answers, List.forall_mem_singleton.mpr ?_⟩
    exact choiceAnswer_regular result (scoreObject_regular hnumbers.probabilities hprobabilities)
      (number_regular (hsize 1) hconfidence)
  · refine List.forall_mem_append.mpr ⟨hparts.diagnostics, List.forall_mem_singleton.mpr ?_⟩
    exact questionDiagnostic_regular result (timingJson_regular hsize hnumbers.times htimings)
      (scoreObject_regular hnumbers.rawScores hrawLogits)

theorem foldlM_addQuestion_regular {parts final : Systemone.ResponseParts D}
    {answered : List (Systemone.ChoiceQuestion × DecisionResult D)}
    (hnumbers : ∀ pair ∈ answered, NumbersOf P pair.2) (hparts : PartsRegular P parts)
    (h : answered.foldlM (Systemone.addQuestion lib ofSize true) parts = .ok final) :
    PartsRegular P final := by
  induction answered generalizing parts with
  | nil =>
    cases h
    exact hparts
  | cons first answered ih =>
    rw [List.foldlM_cons] at h
    obtain ⟨next, hnext, h⟩ := bind_eq_ok.mp h
    obtain ⟨hfirst, hrest⟩ := List.forall_mem_cons.mp hnumbers
    exact ih hrest (addQuestion_regular hsize hfirst hparts hnext) h

omit hsize in
theorem build_regular {entries : List (Bytes × Json.Value D)}
    (h : ∀ entry ∈ entries, entry.2.Regular P) :
    (Json.Value.object (SortedMap.build entries)).Regular P :=
  .object (SortedMap.build_sorted _) fun entry hentry => h entry (SortedMap.mem_of_mem_build hentry)

/-- The numbers of a response are sizes and the numbers of its results. -/
theorem makeResponse_regular {request : Systemone.Request} {results : List (DecisionResult D)}
    (hnumbers : ∀ result ∈ results, NumbersOf P result) {response : Json.Value D}
    (h : Systemone.makeResponse lib ofSize request results true = .ok response) :
    response.Regular P := by
  obtain ⟨_, _, h⟩ := bind_eq_ok.mp h
  obtain ⟨parts, hparts, h⟩ := bind_eq_ok.mp h
  obtain ⟨inputTokens, hinput, h⟩ := bind_eq_ok.mp h
  obtain ⟨outputTokens, houtput, h⟩ := bind_eq_ok.mp h
  obtain ⟨schemaVersion, hschema, h⟩ := bind_eq_ok.mp h
  cases h
  have hfinal : PartsRegular P parts := foldlM_addQuestion_regular hsize
    (fun pair hpair => hnumbers pair.2 (List.of_mem_zip hpair).2)
    ⟨List.forall_mem_nil _, List.forall_mem_nil _⟩ hparts
  have husage : (Systemone.emplaced [("input_tokens", inputTokens),
      ("output_tokens", outputTokens)]).Regular P := by
    apply emplaced_regular
    simp only [List.forall_mem_cons]
    exact ⟨number_regular (hsize _) hinput, number_regular (hsize _) houtput,
      List.forall_mem_nil _⟩
  have hmetadata : (Systemone.emplaced [("schema_version", schemaVersion),
      ("confidence_kind", .string (bytes "constant_placeholder")),
      ("questions", .object (SortedMap.build parts.diagnosticQuestions))]).Regular P := by
    apply emplaced_regular
    simp only [List.forall_mem_cons]
    exact ⟨number_regular (hsize _) hschema, .string _, build_regular hfinal.diagnostics,
      List.forall_mem_nil _⟩
  apply emplaced_regular
  refine List.forall_mem_append.mpr ⟨?_, ?_⟩
  · simp only [List.forall_mem_cons]
    exact ⟨.string _, build_regular hfinal.answers, husage, hmetadata, List.forall_mem_nil _⟩
  · cases request.requestId with
    | none => exact List.forall_mem_nil _
    | some requestId => exact List.forall_mem_singleton.mpr (.string requestId)

end Numbers

/-! ## The fields of the server -/

section Metadata
variable {service : Service D}

theorem set_eq_ok {value item final : Json.Value D} {key : Bytes}
    (h : value.set key item = .ok final) :
    final.find key = some item ∧ (∀ other, other ≠ key → final.find other = value.find other) ∧
      ∀ finite : D → Prop, value.Regular finite → item.Regular finite → final.Regular finite := by
  obtain ⟨members, hmembers, h⟩ := bind_eq_ok.mp h
  cases h
  cases value with
  | object entries =>
    cases hmembers
    refine ⟨SortedMap.lookup_assign_self, fun other hne => SortedMap.lookup_assign_of_ne hne, ?_⟩
    intro finite hvalue hitem
    cases hvalue with
    | object hsorted hall =>
      refine .object (SortedMap.assign_sorted hsorted) fun member hmember => ?_
      rcases SortedMap.mem_of_mem_assign hmember with rfl | hmember
      · exact hitem
      · exact hall member hmember
  | _ => cases hmembers

/-- The response with the fields of the server differs from the one without them in these
fields only. -/
structure Extends (service : Service D) (total : Nat) (response final : Json.Value D) : Prop where
  keeps : ∀ key, key ≠ bytes "branchscore" → final.find key = response.find key
  metadata : ∃ before after, response.find (bytes "branchscore") = some before ∧
    final.find (bytes "branchscore") = some after ∧
    after.find (bytes "http_handling_ms") = some (.number service.handlingMs) ∧
    after.find (bytes "input_tokens_include_visual") = some (.boolean false) ∧
    after.find (bytes "prefill_positions") = some (.number (service.ofSize total)) ∧
    ∀ key, key ∉ ["http_handling_ms", "input_tokens_include_visual", "prefill_positions"].map bytes →
      after.find key = before.find key

theorem withMetadata_extends {response final : Json.Value D} {total : Nat}
    (h : withMetadata service response total = .ok final) :
    Extends service total response final ∧ ∀ P : D → Prop, response.Regular P →
      P service.handlingMs → P (service.ofSize total) → final.Regular P := by
  obtain ⟨members, hmembers, h⟩ := bind_eq_ok.mp h
  cases hmetadata : SortedMap.lookup (bytes "branchscore") members with
  | none =>
    rw [hmetadata] at h
    cases h
  | some metadata =>
    rw [hmetadata] at h
    obtain ⟨timed, htimed, h⟩ := bind_eq_ok.mp h
    obtain ⟨flagged, hflagged, h⟩ := bind_eq_ok.mp h
    obtain ⟨counted, hcounted, h⟩ := bind_eq_ok.mp h
    obtain ⟨htime, hother, htimedRegular⟩ := set_eq_ok htimed
    obtain ⟨hflag, hother', hflaggedRegular⟩ := set_eq_ok hflagged
    obtain ⟨hcount, hother'', hcountedRegular⟩ := set_eq_ok hcounted
    obtain ⟨hafter, hkeeps, hregular⟩ := set_eq_ok h
    have hbefore : response.find (bytes "branchscore") = some metadata := by
      cases response with
      | object entries =>
        cases hmembers
        exact hmetadata
      | _ => cases hmembers
    refine ⟨⟨hkeeps, metadata, counted, hbefore, hafter, ?_, ?_, hcount, ?_⟩, ?_⟩
    · rw [hother'' _ (by decide), hother' _ (by decide), htime]
    · rw [hother'' _ (by decide), hflag]
    · intro key hkey
      simp only [List.map_cons, List.map_nil, List.mem_cons, List.not_mem_nil, or_false,
        not_or] at hkey
      rw [hother'' _ hkey.2.2, hother' _ hkey.2.1, hother _ hkey.1]
    · intro P hresponse hhandling hsize
      have hmetadataRegular := Systemone.find_regular hresponse hbefore
      have htimed := htimedRegular _ hmetadataRegular (.number hhandling)
      have hflagged := hflaggedRegular _ htimed (.boolean false)
      exact hregular _ hresponse (hcountedRegular _ hflagged (.number hsize))

theorem exists_withMetadata {response metadata : Json.Value D} (total : Nat)
    (h : response.find (bytes "branchscore") = some metadata)
    (hmetadata : ∃ members, metadata = .object members) :
    ∃ final, withMetadata service response total = .ok final := by
  obtain ⟨members, rfl⟩ := hmetadata
  cases response with
  | object entries =>
    have hlookup : SortedMap.lookup (bytes "branchscore") entries = some (.object members) := h
    unfold withMetadata
    rw [Json.Value.asObject, ok_bind, hlookup]
    exact ⟨_, rfl⟩
  | _ => cases h

end Metadata

/-! ## A connection that is answered -/

section Connection
variable {service : Service D} {events : List ParserEvent} {ending : Ending}
  {request : Systemone.Request}

theorem evaluateAll_eq {questions : List Systemone.ChoiceQuestion}
    {results : List (DecisionResult D)} (h : Evaluates service questions results) :
    evaluateAll service questions = ⟨questions.map (evaluateCall service), .ok results⟩ := by
  induction h with
  | nil => rfl
  | @cons question result questions results hresult _ ih =>
    rw [evaluateAll, hresult, bind_of_ok rfl, ih, bind_of_ok rfl, log_pure, List.append_nil,
      List.map_cons, evaluateCall, hresult]
    rfl

/-- What a request whose estimates and evaluations pass is answered with. -/
structure Answers (service : Service D) (request : Systemone.Request) (total : Nat)
    (results : List (DecisionResult D)) (made final : Json.Value D) (encoded : Bytes) : Prop where
  passes : PreflightPasses service request total
  evaluates : Evaluates service request.questions results
  responds : Systemone.makeResponse service.numbers service.ofSize request results true = .ok made
  extended : withMetadata service made total = .ok final
  prints : Json.stringify service.numbers final = .ok encoded

/-- Everything that is done for such a request, in its order. -/
def answerActions (service : Service D) (request : Systemone.Request) (encoded : Bytes) :
    List (Action D) :=
  request.questions.map (estimateCall service) ++ (request.questions.map (evaluateCall service) ++
    [.send 200 (jsonResponse 200 encoded)])

theorem Answers.answerRequest {total : Nat} {results : List (DecisionResult D)}
    {made final : Json.Value D} {encoded : Bytes}
    (h : Answers service request total results made final encoded) :
    answerRequest service request = ⟨answerActions service request encoded, .ok ()⟩ := by
  have hestimates := (preflight_ok (Nat.zero_le _) h.passes).2.2
  rw [Server.answerRequest, bind_of_ok h.passes, hestimates, evaluateAll_eq h.evaluates,
    bind_of_ok rfl, h.responds, lift_bind_ok, h.extended, lift_bind_ok, sendJson, h.prints,
    lift_bind_ok]
  rfl

theorem dispatch_of_received (h : Receives service events ending request) :
    dispatch service (receiveRequest service.requireBearer service.bearerToken events ending) =
      handleSystemone service
        (receiveRequest service.requireBearer service.bearerToken events ending).request := by
  have hui : bytes "/v1/systemone" ≠ bytes "/ui" := by decide
  have hhealthz : bytes "/v1/systemone" ≠ bytes "/healthz" := by decide
  unfold dispatch
  dsimp only
  rw [h.url, h.method, if_neg (not_not.mpr h.status), if_neg fun hne => hne.2.1 rfl,
    if_neg fun hget => hui hget.1, if_neg fun hget => hhealthz hget.1, if_neg fun hpost => hpost.2 rfl,
    if_neg hui, if_neg hhealthz]

/-- What an accepted request leads to. -/
theorem handleSystemone_of_received (h : Receives service events ending request) :
    ∃ requestId, handleSystemone service
        (receiveRequest service.requireBearer service.bearerToken events ending).request =
      (.call (.parse (receiveRequest service.requireBearer service.bearerToken events
          ending).request.body) (.ok ()) >>= fun _ =>
        (answerRequest service request).handle (handleDecisionError service requestId)) := by
  obtain ⟨envelope, hparse, hrequest⟩ := h.accepted
  have hdecides : decideEnvelope service envelope (suppliedId envelope) =
      answerRequest service request := by
    rw [decideEnvelope, hrequest, lift_bind_ok, h.fits, lift_bind_ok]
    rfl
  refine ⟨suppliedId envelope, ?_⟩
  unfold handleSystemone
  rw [if_neg (by rw [h.contentType]; exact Bool.noConfusion)]
  dsimp only
  rw [hparse, catchException_ok rfl, bind_of_ok rfl, bind_of_ok rfl]
  dsimp only
  rw [hdecides]
  rfl

/-- Nothing is done before or behind the answer of a request that is answered. -/
theorem handleConnection_of_answered (h : Receives service events ending request)
    (hanswered : (answerRequest service request).result = .ok ()) :
    handleConnection service events ending =
      ⟨.parse (receiveRequest service.requireBearer service.bearerToken events ending).request.body ::
        (answerRequest service request).log, .ok ()⟩ := by
  obtain ⟨requestId, hhandled⟩ := handleSystemone_of_received h
  rw [handleConnection, dispatch_of_received h, hhandled, handle_of_ok hanswered, bind_of_ok rfl,
    hanswered, catchException_ok rfl]
  rfl

theorem statusForCode_ne (code : Bytes) : statusForCode code ≠ 200 := by
  unfold statusForCode
  split_ifs <;> decide

theorem sent_of_sendError {status : Nat} {code response : Bytes} {requestId : Option Bytes}
    (hne : status ≠ 200) : .send 200 response ∉ (sendError service status code requestId).log := by
  intro hsent
  obtain ⟨encoded, _, heq⟩ := mem_sendJson_log hsent
  cases heq
  exact hne rfl

/-- Success is sent by the request itself, not by a handler. -/
theorem answerRequest_of_sent (h : Receives service events ending request) {response : Bytes}
    (hsent : .send 200 response ∈ (handleConnection service events ending).log) :
    .send 200 response ∈ (answerRequest service request).log := by
  obtain ⟨requestId, hhandled⟩ := handleSystemone_of_received h
  rw [handleConnection, dispatch_of_received h, hhandled] at hsent
  rcases mem_log_handle.mp hsent with hsent | ⟨e, _, hsent⟩
  · rcases mem_log_bind.mp hsent with hsent | ⟨_, _, hsent⟩
    · cases List.mem_singleton.mp hsent
    · rcases mem_log_handle.mp hsent with hsent | ⟨e, _, hsent⟩
      · exact hsent
      · cases e with
        | undefinedBehavior => cases hsent
        | diverges => cases hsent
        | requestError code message => exact absurd hsent (sent_of_sendError (statusForCode_ne code))
        | decisionBudgetError code message =>
          exact absurd hsent (sent_of_sendError (statusForCode_ne code))
        | _ => exact absurd hsent (sent_of_sendError (by decide))
  · cases e with
    | undefinedBehavior => cases hsent
    | diverges => cases hsent
    | _ => exact absurd hsent (sent_of_sendError (by decide))

end Connection

/-! ## What the client reads -/

section Reads
variable {service : Service D} {events : List ParserEvent} {ending : Ending}
  {request : Systemone.Request} {positions : List Nat} {results : List (DecisionResult D)}

/-- What a client reads in the answer to its request: the results of its questions, and the
positions of all estimates. -/
structure ReadsResults (service : Service D) (questions : List Systemone.ChoiceQuestion)
    (results : List (DecisionResult D)) (positions : List Nat) (response : Json.Value D) : Prop where
  answers : response.find (bytes "answers") = some (.object ((questions.zip results).map
    fun answered => (answered.1.id, Systemone.answerTo service.ofSize answered.2)))
  metadata : ∃ metadata diagnostics, response.find (bytes "branchscore") = some metadata ∧
    metadata.find (bytes "questions") = some (.object diagnostics) ∧
    List.Forall₂ Systemone.DiagnosticEntry (questions.zip results) diagnostics ∧
    metadata.find (bytes "prefill_positions") = some (.number (service.ofSize positions.sum))

/-- The printed number is a token that is read as the number. -/
abbrev ReadBack (lib : Json.NumberLibrary D) (d : D) : Prop :=
  Json.Grammar.Scans lib (lib.print d) d

/-- A request that is evaluated within the budget is answered, and who reads its numbers back
reads the whole answer back. -/
theorem exists_answers (hsize : ∀ size, service.numbers.isfinite (service.ofSize size) = true)
    (hhandling : service.numbers.isfinite service.handlingMs = true)
    (hcount : request.questions.length ≤ Systemone.maxQuestionsPerRequest)
    (hids : (request.questions.map Systemone.ChoiceQuestion.id).Pairwise (· < ·))
    (hestimates : Estimates service request.questions positions)
    (hbudget : positions.sum ≤ maxRequestPrefillPositions)
    (hresults : Evaluates service request.questions results)
    (hanswered : Systemone.Answered service.numbers request.questions results) :
    ∃ made final encoded, Answers service request positions.sum results made final encoded ∧
      ReadsResults service request.questions results positions final ∧
      (final.Regular (ReadBack service.numbers) →
        Json.parse service.numbers encoded = .ok final) := by
  obtain ⟨made, diagnostics, hmade, hholds⟩ :=
    Systemone.makeResponse_ok hsize hanswered hcount hids
  obtain ⟨metadata, hmetadata, hquestions⟩ := hholds.metadata
  obtain ⟨members, hmembers, _⟩ := Systemone.find_eq_some hquestions
  obtain ⟨final, hfinal⟩ := exists_withMetadata positions.sum hmetadata ⟨members, hmembers⟩
  obtain ⟨hextends, hregular⟩ := withMetadata_extends hfinal
  obtain ⟨before, after, hbefore, hafter, _, _, hpositions, hkeeps⟩ := hextends.metadata
  cases hmetadata.symm.trans hbefore
  have hnumbers : ∀ result ∈ results,
      NumbersOf (fun d => service.numbers.isfinite d = true) result := by
    intro result hresult
    obtain ⟨question, _, _, _, hencodable⟩ := Systemone.exists_of_forall₂ hanswered.flip hresult
    exact ⟨hencodable.rawScores, hencodable.probabilities, hencodable.times⟩
  obtain ⟨encoded, hencoded, _⟩ := Json.stringify_eq_ok
    (hregular _ (makeResponse_regular hsize hnumbers hmade) hhandling (hsize _))
  have hpass := preflight_of_estimates hestimates ((Nat.zero_add _).trans_le hbudget)
  rw [Nat.zero_add] at hpass
  refine ⟨made, final, encoded, ⟨hpass, hresults, hmade, hfinal, hencoded⟩,
    ⟨?_, after, diagnostics, hafter, ?_, hholds.entries, hpositions⟩, fun hscans => ?_⟩
  · rw [hextends.keeps _ (by decide)]
    exact hholds.answers
  · rw [hkeeps _ (by decide)]
    exact hquestions
  · obtain ⟨text, htext, hparse⟩ := Json.stringify_reads_back (fun _ h => h) hscans
    cases hencoded.symm.trans htext
    exact hparse

end Reads

section Served
variable {R A Tensor Row : Type} [Field R] [LinearOrder R]
  {engine : Gemma4DecisionEngine R A Tensor Row} {service : Service (Ieee R)}
  {events : List ParserEvent} {ending : Ending} {request : Systemone.Request}

/-- The questions of an accepted request and their options are in the order of their ids. -/
theorem Receives.sorted {D : Type} {service : Service D} (h : Receives service events ending request) :
    request.questions.length ≤ Systemone.maxQuestionsPerRequest ∧
      (request.questions.map Systemone.ChoiceQuestion.id).Pairwise (· < ·) ∧
      ∀ question ∈ request.questions,
        (question.decision.options.map DecisionOption.id).Pairwise (· < ·) := by
  obtain ⟨envelope, hparse, hrequest⟩ := h.accepted
  obtain ⟨members, hfind, hcount, hread⟩ := Systemone.parseRequest_eq_ok hrequest
  obtain ⟨hmembers, hall⟩ := Systemone.find_sorted (Json.parse_regular hparse) hfind
  refine ⟨hread.length_eq ▸ hcount, ?_, fun question hquestion => ?_⟩
  · rw [Systemone.forall₂_map_eq hread fun _ _ ⟨_, h⟩ => h.id]
    exact hmembers.keys
  · obtain ⟨member, hmember, _, criteria, hcriteria⟩ :=
      Systemone.exists_of_forall₂ hread.flip hquestion
    rw [hcriteria.ids]
    exact hcriteria.sorted (hall member hmember)

/-- An accepted request is answered with success exactly if its estimates stay within the budget
and all its questions are evaluated. Then nothing else is done, and the answer holds the results
under the ids of the questions; a client that reads its numbers back reads the answer. -/
theorem decision_served (hnumbers : service.numbers = engine.library.numbers)
    (hencodes : Systemone.Encodes engine.library.numbers service.ofSize engine.library.measured)
    (hhandling : service.numbers.isfinite service.handlingMs = true)
    (hreceives : Receives (service.calling engine) events ending request) :
    let server := service.calling engine
    (∀ positions results, Estimates server request.questions positions →
      positions.sum ≤ maxRequestPrefillPositions → Evaluates server request.questions results →
      ∃ made response encoded,
        Answers server request positions.sum results made response encoded ∧
        handleConnection server events ending = ⟨.parse (receiveRequest server.requireBearer
          server.bearerToken events ending).request.body :: answerActions server request encoded,
            .ok ()⟩ ∧
        Delivers (jsonResponse 200 encoded) (jsonMessage 200 encoded) ∧
        ReadsResults server request.questions results positions response ∧
        (response.Regular (ReadBack server.numbers) →
          Json.parse server.numbers encoded = .ok response)) ∧
    ∀ sent, .send 200 sent ∈ (handleConnection server events ending).log →
      ∃ positions results, Estimates server request.questions positions ∧
        positions.sum ≤ maxRequestPrefillPositions ∧
        Evaluates server request.questions results := by
  intro server
  constructor
  · intro positions results hestimates hbudget hresults
    obtain ⟨hcount, hids, hsorted⟩ := hreceives.sorted
    have hsize : ∀ size, server.numbers.isfinite (server.ofSize size) = true := by
      change ∀ size, service.numbers.isfinite (service.ofSize size) = true
      rw [hnumbers]
      exact hencodes.size
    have hanswered : Systemone.Answered server.numbers request.questions results := by
      change Systemone.Answered service.numbers request.questions results
      rw [hnumbers]
      exact Systemone.answered_of_evaluates hencodes hsorted hresults
    obtain ⟨made, response, encoded, hanswers, hreads, hparse⟩ :=
      exists_answers hsize hhandling hcount hids hestimates hbudget hresults hanswered
    refine ⟨made, response, encoded, hanswers, ?_, ?_, hreads, hparse⟩
    · have hok : (answerRequest server request).result = .ok () := by
        rw [hanswers.answerRequest]
      rw [handleConnection_of_answered hreceives hok, hanswers.answerRequest]
    · rw [jsonResponse_eq]
      exact delivers_print (jsonMessage_framed _ _)
  · intro sent hsent
    obtain ⟨total, results, _, _, _, hpass, hresults, _⟩ :=
      passes_of_sent (answerRequest_of_sent hreceives hsent)
    obtain ⟨⟨positions, hpositions, hsum⟩, hmax, _⟩ := preflight_ok (Nat.zero_le _) hpass
    rw [Nat.zero_add] at hsum
    exact ⟨positions, results, hpositions, hsum ▸ hmax, hresults⟩

end Served

/-! ## A request that is served -/

/-- Counts are printed with their digits, and a half as a decimal fraction. -/
def decimalNumbers : Json.NumberLibrary (Ieee ℚ) where
  isfinite := Ieee.isFinite
  strtod text :=
    if text = bytes "0.5" then (.finite (1 / 2), 3)
    else
      match readDecimal text with
      | some n => (.finite n, text.length)
      | none => (.finite 0, 0)
  print
    | .finite value => if value = 1 / 2 then bytes "0.5" else decimal value.num.toNat
    | _ => bytes "nan"

theorem decimal_leading {n : Nat} (h : 0 < n) :
    ∃ b word, decimal n = b :: word ∧ b ∈ bytes "123456789" ∧ Json.Grammar.Digits word := by
  have hleading : ∀ d, 0 < d → d < 10 → byte d.digitChar ∈ bytes "123456789" := by
    intro d hd hlt
    interval_cases d <;> decide
  have hdigit : ∀ d, d < 10 → byte d.digitChar ∈ bytes "0123456789" := by decide
  induction n using Nat.strong_induction_on with
  | _ n ih =>
    rcases Nat.lt_or_ge n 10 with hlt | hge
    · exact ⟨_, [], decimal_of_lt hlt, hleading n h hlt, by simp [Json.Grammar.Digits]⟩
    · obtain ⟨b, word, hword, hb, hdigits⟩ := ih (n / 10) (by omega) (by omega)
      refine ⟨b, word ++ [byte (n % 10).digitChar], ?_, hb, ?_⟩
      · rw [decimal_of_ge hge, hword, List.cons_append]
      · intro c hc
        rcases List.mem_append.mp hc with hc | hc
        · exact hdigits c hc
        · rw [List.mem_singleton.mp hc]
          exact hdigit _ (Nat.mod_lt n (by decide))

theorem decimal_numberToken (n : Nat) : Json.Grammar.NumberToken (decimal n) := by
  have hwhole : Json.Grammar.IntegerPart (decimal n) := by
    rcases Nat.eq_zero_or_pos n with rfl | hpos
    · exact .zero
    · obtain ⟨b, word, hword, hb, hdigits⟩ := decimal_leading hpos
      rw [hword]
      exact .digits hb hdigits
  have htoken := Json.Grammar.NumberToken.intro List.mem_cons_self hwhole .none .none
  rwa [List.nil_append, List.append_nil, List.append_nil] at htoken

theorem decimalNumbers_nat (n : Nat) : ReadBack decimalNumbers (.finite n) := by
  have hne : (n : ℚ) ≠ 1 / 2 := by
    intro heq
    have hdouble : (2 * n : ℚ) = 1 := by rw [heq]; norm_num
    have : 2 * n = 1 := by exact_mod_cast hdouble
    omega
  have hprint : decimalNumbers.print (.finite n) = decimal n := if_neg hne
  have hdot : decimal n ≠ bytes "0.5" := by
    intro heq
    have hmem : byte '.' ∈ decimal n := by
      rw [heq]
      decide
    exact absurd (mem_decimal hmem).1 (by decide)
  rw [ReadBack, hprint]
  refine ⟨decimal_numberToken n, rfl, ?_⟩
  unfold decimalNumbers
  dsimp only
  rw [if_neg hdot, readDecimal_decimal]

theorem decimalNumbers_half : ReadBack decimalNumbers (.finite (1 / 2)) := by
  have hprint : decimalNumbers.print (.finite (1 / 2)) = bytes "0.5" := if_pos rfl
  have hfive : Json.Grammar.Digits [byte '5'] := List.forall_mem_singleton.mpr (by decide)
  rw [ReadBack, hprint]
  exact ⟨@Json.Grammar.NumberToken.intro [] _ _ _ List.mem_cons_self .zero (.digits hfive) .none,
    rfl, by decide +kernel⟩

/-- An engine whose two labels have the same logit. -/
def servedEngine : Gemma4DecisionEngine ℚ ℚ Unit Nat :=
  Gemma4DecisionEngine.engineWith decimalNumbers (List.replicate 103 (.finite 0))

def askedService : Service (Ieee ℚ) :=
  { evenService with engine := servedEngine.served, numbers := decimalNumbers }

def askedBody : Bytes :=
  bytes "\x7b\"model\":\"m\",\"state\":\"s\",\"questions\":\x7b\"q\":\x7b\"type\":\"choice\"," ++
  bytes "\"instructions\":\"q\",\"criteria\":\x7b\"a\":null,\"b\":null\x7d\x7d\x7d\x7d"

def askedDecision : Message := { postedDecision with
  contentLength := askedBody.length
  body := [askedBody] }

def askedParse : ParseResult := { postedParse with
  request := { postedParse.request with body := askedBody } }

theorem askedDecision_received :
    Receives (askedService.calling servedEngine) askedDecision.events .closed
      Systemone.chosenRequest := by
  have haccepted : (Json.parse decimalNumbers askedBody >>= fun envelope =>
      Systemone.parseRequest decimalNumbers askedService.stb envelope askedService.modelId) =
        .ok Systemone.chosenRequest := by decide +kernel
  have hreceived : receiveRequest (askedService.calling servedEngine).requireBearer
      (askedService.calling servedEngine).bearerToken askedDecision.events .closed = askedParse := by
    decide +kernel
  have hcontentType : contentTypeIsJson (bytes "application/json") = true := by decide +kernel
  obtain ⟨envelope, hparse, hrequest⟩ := bind_eq_ok.mp haccepted
  refine ⟨?_, ?_, ?_, ?_, ⟨envelope, ?_, hrequest⟩, rfl⟩
  all_goals rw [hreceived]
  · rfl
  · rfl
  · rfl
  · exact hcontentType
  · exact hparse

theorem servedEngine_evaluates :
    ∃ result, servedEngine.evaluate Gemma4DecisionEngine.textRequest = .ok result :=
  Gemma4DecisionEngine.engineWith_evaluates (by decide +kernel)
    Gemma4DecisionEngine.zeroLogits_finite

/-- The options share the probability, and no time is measured. -/
theorem servedEngine_numbers {result : DecisionResult (Ieee ℚ)}
    (h : servedEngine.evaluate Gemma4DecisionEngine.textRequest = .ok result) :
    NumbersOf (ReadBack decimalNumbers) result := by
  obtain ⟨_, ids, values, maximum, selected, hscored⟩ := Gemma4DecisionEngine.evaluate_scored h
  obtain ⟨logits, hfrozen, hvalues⟩ := hscored.logits
  have hlogits : logits = List.replicate 103 (.finite 0) := by
    obtain ⟨_, _, hfrozen⟩ := bind_eq_ok.mp hfrozen
    obtain ⟨_, _, hfrozen⟩ := bind_eq_ok.mp hfrozen
    obtain ⟨state, _, hfrozen⟩ := bind_eq_ok.mp hfrozen
    have hsome : state.logits.map (fun _ => List.replicate 103 (Ieee.finite 0)) = some logits :=
      Except.ok.inj hfrozen
    obtain ⟨_, _, rfl⟩ := Option.map_eq_some_iff.mp hsome
    rfl
  have hzeros : ∀ value ∈ values, value = 0 := by
    intro value hvalue
    obtain ⟨id, _, _, hid⟩ := Systemone.exists_of_forall₂ hvalues.flip hvalue
    rw [hlogits] at hid
    have hmem := List.mem_of_getElem? hid
    exact Ieee.finite.inj (List.eq_of_mem_replicate hmem)
  have hlength : values.length = 2 := by
    have hscores := congrArg List.length hscored.rawScores
    have hids := congrArg List.length hscored.optionIds
    rw [List.length_map, List.length_map] at hscores hids
    exact hscores.symm.trans hids
  obtain rfl : values = [0, 0] := List.eq_replicate_of_mem hzeros |>.trans (by rw [hlength]; rfl)
  have hmaximum : maximum = 0 := hzeros maximum (List.mem_of_getElem? hscored.largest.at_index)
  have hshares : softmax servedEngine.library.exp [0, 0] maximum = [1 / 2, 1 / 2] := by
    rw [hmaximum]
    decide +kernel
  have hzero : ReadBack decimalNumbers (.finite 0) := by
    have h := decimalNumbers_nat 0
    rwa [Nat.cast_zero] at h
  refine ⟨?_, ?_, ?_⟩
  · intro score hscore
    have hmem := List.mem_map_of_mem (f := OptionScore.rawScore) hscore
    rw [hscored.rawScores] at hmem
    simp only [List.map_cons, List.map_nil, List.mem_cons, List.not_mem_nil, or_false,
      or_self] at hmem
    rwa [hmem]
  · intro score hscore
    have hmem := List.mem_map_of_mem (f := OptionScore.relativeProbability) hscore
    rw [hscored.probabilities, hshares] at hmem
    simp only [List.map_cons, List.map_nil, List.mem_cons, List.not_mem_nil, or_false,
      or_self] at hmem
    rw [hmem]
    exact decimalNumbers_half
  · obtain ⟨state, htimings⟩ := hscored.timings
    have htimes : Systemone.milliseconds result.timings = List.replicate 14 (.finite 0) := by
      rw [htimings]
      rfl
    intro time htime
    rw [htimes] at htime
    rw [List.eq_of_mem_replicate htime]
    exact hzero

theorem decision_served_sample : ∃ result encoded response,
    servedEngine.evaluate Gemma4DecisionEngine.textRequest = .ok result ∧
    handleConnection (askedService.calling servedEngine) askedDecision.events .closed =
      ⟨.parse askedBody :: answerActions (askedService.calling servedEngine)
        Systemone.chosenRequest encoded, .ok ()⟩ ∧
    Json.parse decimalNumbers encoded = .ok response ∧
    ReadsResults (askedService.calling servedEngine) Systemone.chosenRequest.questions [result]
      [287] response := by
  have hencodes : Systemone.Encodes servedEngine.library.numbers askedService.ofSize
      servedEngine.library.measured := ⟨fun _ => rfl, fun _ => rfl, by decide⟩
  have hestimate : servedEngine.estimatePrefillPositions Gemma4DecisionEngine.textRequest =
      .ok 287 := by decide +kernel
  have hbody : (receiveRequest (askedService.calling servedEngine).requireBearer
      (askedService.calling servedEngine).bearerToken askedDecision.events
        .closed).request.body = askedBody := by decide +kernel
  obtain ⟨result, hresult⟩ := servedEngine_evaluates
  obtain ⟨made, response, encoded, hanswers, hhandled, _, hreads, hparse⟩ :=
    (decision_served rfl hencodes rfl askedDecision_received).1 [287] [result]
      (.cons hestimate .nil) (by decide) (.cons hresult .nil)
  have hmade : made.Regular (ReadBack decimalNumbers) := makeResponse_regular decimalNumbers_nat
    (List.forall_mem_singleton.mpr (servedEngine_numbers hresult)) hanswers.responds
  have hhandling : ReadBack decimalNumbers (.finite 0) := by
    have h := decimalNumbers_nat 0
    rwa [Nat.cast_zero] at h
  have hregular := (withMetadata_extends hanswers.extended).2 _ hmade hhandling
    (decimalNumbers_nat _)
  rw [hbody] at hhandled
  exact ⟨result, encoded, response, hresult, hhandled, hparse hregular, hreads⟩

end Branchscore.Server
