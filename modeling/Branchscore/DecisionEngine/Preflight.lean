import Branchscore.DecisionEngine.UserText
import Branchscore.ImagePreprocessor.Window
import Branchscore.PrefillEngine.Correctness

/-!
# The estimate and the checks of the evaluation

What the estimate lets through and the evaluation then rejects before it decodes the image.
-/

namespace Branchscore

open Foundation Outcome Foundation.Scan Foundation.Words
set_option autoImplicit false

/-! ## Answer labels at the end of a prompt -/

namespace GemmaTokenizer
variable (t : GemmaTokenizer)

theorem spansBoundary_of_unstraddled {front back : Bytes}
    (h : Segments.Unstraddled SpecialToken.text t.specialTokens front back) {special : SpecialToken}
    (hspecial : special ∈ t.specialTokens) :
    spansBoundary (front ++ back) front.length special = false := by
  unfold spansBoundary
  dsimp only
  set start := if special.text.length ≤ front.length then front.length - special.text.length + 1
    else 0
  cases hfind : Search.find? special.text ((front ++ back).drop start) with
  | none => rfl
  | some i =>
    have hoccurs : Search.OccursAt special.text (front ++ back) (start + i) := by
      have hat := (Search.find?_eq_some.mp hfind).2.1
      rwa [Search.OccursAt, List.drop_drop] at hat
    have hend (hlt : start + i < front.length) := h special hspecial (start + i) hlt hoccurs
    dsimp only
    rw [Bool.and_eq_false_iff, decide_eq_false_iff_not, decide_eq_false_iff_not]
    by_cases hlt : start + i < front.length
    · have := hend hlt
      exact Or.inr (by omega)
    · exact Or.inl hlt

/-- A label that is one normal token and does not merge with the end of the prompt. -/
structure NormalLabel (label : Bytes) (id : TokenId) : Prop where
  token : t.tokenize label false true = .ok [id]
  piece : t.piece id = .ok label
  ne_eos : id ≠ t.eos
  normal : t.isSpecialToken id = false
  boundary : ∃ ids, t.tokenize answerSuffix false true = .ok ids ∧
    t.tokenize (answerSuffix ++ label) false true = .ok (ids ++ [id])

variable {t}

theorem NormalLabel.validateLabel {label : Bytes} {id : TokenId} (h : t.NormalLabel label id) :
    t.validateLabel answerSuffix label = .ok ⟨label, id, true⟩ := by
  obtain ⟨ids, hsuffix, hcombined⟩ := h.boundary
  have hnormal : ¬(label ≠ label ∨ id = t.eos ∨ t.isSpecialToken id = true) := by
    simp [h.ne_eos, h.normal]
  rw [t.validateLabel_eq hsuffix, labelOutcome, h.token, ok_bind]
  dsimp only
  rw [h.piece, ok_bind, if_neg hnormal, hcombined, ok_bind, if_pos rfl]
  rfl

end GemmaTokenizer

namespace Gemma4DecisionEngine

/-! ## Vocabularies with the markers -/

def markers : List Bytes := [turnText, imageBeginText, imageText, imageEndText]

/-- The markers are special tokens, and no other special token overlaps one in any text. -/
structure Marked (t : GemmaTokenizer) : Prop where
  special : ∀ text ∈ markers, SpecialText t text
  alone : ∀ text ∈ markers, ∀ before after, Alone t before text after

section Vocabulary
variable {t : GemmaTokenizer}

theorem Marked.nonempty (h : Marked t) {special : SpecialToken} (hspecial : special ∈ t.specialTokens) :
    special.text ≠ [] := by
  have halone : Alone t [] imageText [] := h.alone imageText (by decide) [] []
  exact halone.nonempty (by decide) hspecial

theorem Marked.fixedSuffix (h : Marked t) (front label : Bytes) :
    t.fixedSuffix (front ++ answerSuffix) label = true := by
  have hturn : turnText ∈ markers := List.mem_cons_self
  obtain ⟨special, hspecial, htext⟩ := h.special turnText hturn
  have hisSpecial : t.isSpecialToken special.id = true :=
    List.any_eq_true.mpr ⟨special, hspecial, decide_eq_true rfl⟩
  have halone : Alone t front turnText (bytes "model\n" ++ label) := h.alone turnText hturn _ _
  have hunstraddled : Segments.Unstraddled SpecialToken.text t.specialTokens front
      (answerSuffix ++ label) := halone.unstraddled
  have hspan : t.specialTokens.any (GemmaTokenizer.spansBoundary (front ++ (answerSuffix ++ label))
      front.length) = false := by
    rw [List.any_eq_false]
    intro other hother
    rw [t.spansBoundary_of_unstraddled hunstraddled hother]
    decide
  have hfind := t.findToken_special hspecial
  rw [htext] at hfind
  rw [GemmaTokenizer.fixedSuffix, hfind]
  dsimp only
  rw [hisSpecial, List.isSuffixOf_iff_suffix.mpr (List.suffix_append _ _), List.length_append,
    Nat.add_sub_cancel, List.append_assoc, hspan]
  rfl

/-- The placeholder is among the tokens of a text where it stands in the text. -/
theorem Marked.mem_tokenize_iff (h : Marked t) {text : Bytes} {imageId : TokenId}
    {ids : List TokenId} (himage : t.findToken imageText = some imageId)
    (hids : t.tokenize text false true = .ok ids) : imageId ∈ ids ↔ imageText <:+: text := by
  constructor
  · exact t.infix_of_mem_tokenize (fun _ => h.nonempty) himage (by decide +kernel) (by decide +kernel) hids
  · intro ⟨before, after, htext⟩
    rw [← htext, List.append_assoc] at hids
    obtain ⟨id, _, _, hid, _, _, rfl⟩ := (tokenize_alone (h.alone imageText (by decide) _ _)
      (h.special imageText (by decide)) (by decide)).mp hids
    cases himage.symm.trans hid
    exact List.mem_append_right _ List.mem_cons_self

/-- The split succeeds where nothing behind the placeholder of the renderer spells it again. -/
theorem Marked.exists_split_image (h : Marked t) {head tail : Bytes} {ids : List TokenId}
    (hhead : ¬imageText <:+: head ++ imageBeginText)
    (hids : t.tokenize (head ++ (imageBeginText ++ (imageText ++ (imageEndText ++ tail)))) false
      true = .ok ids) :
    (∃ split, splitAtImage t true ids = .ok split) ↔ ¬imageText <:+: imageEndText ++ tail := by
  have halone {text : Bytes} (hmem : text ∈ markers) (before after : Bytes) :=
    h.alone text hmem before after
  have himage : imageText ∈ markers := by decide
  have hbegin : imageBeginText ∈ markers := by decide
  have hend : imageEndText ∈ markers := by decide
  rw [← List.append_assoc] at hids
  obtain ⟨imageId, idsBefore, idsAfter, htoken, hbefore, hafter, rfl⟩ :=
    (tokenize_alone (halone himage _ _) (h.special _ himage) (by decide)).mp hids
  have hnotBefore : imageId ∉ idsBefore := (h.mem_tokenize_iff htoken hbefore).not.mpr hhead
  have hmemAfter := h.mem_tokenize_iff htoken hafter
  constructor
  · intro ⟨split, hsplit⟩ hinfix
    obtain ⟨id, hat⟩ := splitAtImage_image.mp hsplit
    cases hat.token.symm.trans htoken
    have heq := (List.append_cons_inj_of_notMem hat.notMem_before hat.notMem_after).mp
      hat.ids_eq.symm
    rw [heq.2.2] at hat
    exact hat.notMem_after (hmemAfter.mpr hinfix)
  · intro hfree
    obtain ⟨beginId, idsHead, hbeginId, _, hlast⟩ :=
      (tokenize_last (halone hbegin _ _) (h.special _ hbegin) (by decide)).mp hbefore
    obtain ⟨endId, idsTail, hendId, _, hfirst⟩ :=
      (tokenize_first (halone hend _ _) (h.special _ hend) (by decide)).mp hafter
    refine ⟨(idsBefore, idsAfter), splitAtImage_image.mpr ⟨imageId, htoken, rfl, hnotBefore,
      hmemAfter.not.mpr hfree, ⟨beginId, hbeginId, ?_⟩, ⟨endId, hendId, ?_⟩⟩⟩
    · rw [hlast, List.getLast?_concat]
    · rw [hfirst, List.head?_cons]

theorem Marked.exists_split_text (h : Marked t) {text : Bytes} {ids : List TokenId}
    (hids : t.tokenize text false true = .ok ids) :
    (∃ split, splitAtImage t false ids = .ok split) ↔ ¬imageText <:+: text := by
  obtain ⟨special, hspecial, htext⟩ := h.special imageText (by decide)
  have htoken := t.findToken_special hspecial
  rw [htext] at htoken
  rw [← h.mem_tokenize_iff htoken hids]
  constructor
  · intro ⟨split, hsplit⟩
    exact (splitAtImage_text.mp hsplit).1 _ htoken
  · intro hnotMem
    refine ⟨(ids, []), splitAtImage_text.mpr ⟨?_, rfl, rfl⟩⟩
    intro imageId hid
    cases htoken.symm.trans hid
    exact hnotMem

end Vocabulary

/-! ## The loop over the answer slots -/

section Answers
variable {t : GemmaTokenizer} {text : Bytes}

theorem exists_answerTokens {slots : List RenderedAnswerSlot} {seen : List TokenId}
    (h : ∀ slot ∈ slots, ∃ id, t.tokenizeAnswerLabel text slot.label = .ok ⟨slot.label, id, true⟩ ∧
      t.piece id = .ok slot.label)
    (hnodup : (slots.map (·.label)).Nodup)
    (hseen : ∀ slot ∈ slots, ∀ id ∈ seen, t.piece id ≠ .ok slot.label) :
    ∃ answers, answerTokens t text seen slots = .ok answers := by
  induction slots generalizing seen with
  | nil => exact ⟨[], rfl⟩
  | cons slot slots ih =>
    obtain ⟨⟨id, hanswer, hpiece⟩, hrest⟩ := List.forall_mem_cons.mp h
    obtain ⟨hnew, hnodup⟩ := List.nodup_cons.mp hnodup
    obtain ⟨hfresh, hseen⟩ := List.forall_mem_cons.mp hseen
    have hid : ¬(true = false ∨ id ∈ seen) := by
      intro hbad
      rcases hbad with hbad | hbad
      · cases hbad
      · exact hfresh id hbad hpiece
    obtain ⟨answers, hanswers⟩ := @ih (id :: seen) hrest hnodup (by
      intro other hother id' hid'
      rcases List.mem_cons.mp hid' with rfl | hid'
      · intro hsame
        rw [hpiece] at hsame
        exact hnew (List.mem_map.mpr ⟨other, hother, (Except.ok.inj hsame).symm⟩)
      · exact hseen other hother id' hid')
    refine ⟨⟨slot.label, id, true⟩ :: answers, ?_⟩
    rw [answerTokens, hanswer, ok_bind]
    dsimp only
    rw [throwIf_of_not hid, ok_bind, hanswers, ok_bind]
    rfl

end Answers

/-! ## The estimate -/

theorem checkPositionBudget_eq_ok {positions contextLength : Nat} {u : Unit} :
    checkPositionBudget positions contextLength = .ok u ↔
      positions ≤ contextLength ∧ positions ≤ maxPrefillPositions := by
  unfold checkPositionBudget
  split
  · simp only [reduceCtorEq, false_iff]
    omega
  · split
    · simp only [reduceCtorEq, false_iff]
      omega
    · simp only [true_iff]
      omega

section Engine
variable {R A Tensor Row : Type} {engine : Gemma4DecisionEngine R A Tensor Row}
  {request : DecisionRequest}

/-- The tokens of a request, once its checks and the renderer have let it through. -/
structure Tokenized (engine : Gemma4DecisionEngine R A Tensor Row) (request : DecisionRequest)
    (rendered : RenderedPrompt) (ids : List TokenId) : Prop where
  valid : validateRequest request = .ok ()
  renders : engine.render request = .ok rendered
  tokens : engine.tokenizer.tokenize rendered.text false true = .ok ids

/-- The positions that the estimate counts for the tokens of a request. -/
def EstimatedAt (engine : Gemma4DecisionEngine R A Tensor Row) (request : DecisionRequest)
    (tokens positions : Nat) : Prop :=
  if request.hasImage then ∃ visual, engine.estimateVisualTokens request = .ok visual ∧
    positions = tokens - 1 + visual
  else positions = tokens

theorem estimatePrefillPositions_eq_ok {positions : Nat} :
    engine.estimatePrefillPositions request = .ok positions ↔ ∃ rendered ids,
      Tokenized engine request rendered ids ∧ EstimatedAt engine request ids.length positions ∧
      positions ≤ engine.model.textConfig.contextLength ∧ positions ≤ maxPrefillPositions := by
  unfold estimatePrefillPositions EstimatedAt
  by_cases himage : request.hasImage = true
  · simp only [if_pos himage, bind_eq_ok, pure_eq_ok, Except.ok.injEq]
    constructor
    · intro ⟨_, hvalid, rendered, hrender, ids, hids, visual, hvisual, count, hcount, _, hbudget, heq⟩
      subst heq
      exact ⟨rendered, ids, ⟨hvalid, hrender, hids⟩, ⟨visual, hvisual, hcount.symm⟩,
        checkPositionBudget_eq_ok.mp hbudget⟩
    · intro ⟨rendered, ids, htokens, ⟨visual, hvisual, hcount⟩, hbudget⟩
      exact ⟨(), htokens.valid, rendered, htokens.renders, ids, htokens.tokens, visual, hvisual,
        positions, hcount.symm, (), checkPositionBudget_eq_ok.mpr hbudget, rfl⟩
  · simp only [if_neg himage, bind_eq_ok, pure_eq_ok, Except.ok.injEq]
    constructor
    · intro ⟨_, hvalid, rendered, hrender, ids, hids, count, hcount, _, hbudget, heq⟩
      subst heq
      exact ⟨rendered, ids, ⟨hvalid, hrender, hids⟩, hcount.symm,
        checkPositionBudget_eq_ok.mp hbudget⟩
    · intro ⟨rendered, ids, htokens, hcount, hbudget⟩
      exact ⟨(), htokens.valid, rendered, htokens.renders, ids, htokens.tokens, positions,
        hcount.symm, (), checkPositionBudget_eq_ok.mpr hbudget, rfl⟩

/-- The checks of the evaluation on the tokens of a request. -/
theorem exists_prepare_iff {rendered : RenderedPrompt} {ids : List TokenId}
    (h : Tokenized engine request rendered ids)
    (hanswers : ∃ answers, answerTokens engine.tokenizer rendered.text [] rendered.answerSlots =
      .ok answers) :
    (∃ prepared, engine.prepare request = .ok prepared) ↔
      (ids.length ≤ engine.model.textConfig.contextLength ∧ ids.length ≤ maxPrefillPositions) ∧
      ∃ split, splitAtImage engine.tokenizer request.hasImage ids = .ok split := by
  obtain ⟨answers, hanswers⟩ := hanswers
  have hprepare : engine.prepare request = (do
      checkPositionBudget ids.length engine.model.textConfig.contextLength
      let split ← splitAtImage engine.tokenizer request.hasImage ids
      return ⟨rendered, ids, split.1, split.2, answers⟩) := by
    rw [prepare, h.valid, ok_bind, h.renders, ok_bind, h.tokens, ok_bind, hanswers]
    rfl
  rw [hprepare]
  simp only [bind_eq_ok, pure_eq_ok, Except.ok.injEq, checkPositionBudget_eq_ok]
  constructor
  · intro ⟨_, _, hbudget, split, hsplit, _⟩
    exact ⟨hbudget, split, hsplit⟩
  · intro ⟨hbudget, split, hsplit⟩
    exact ⟨_, (), hbudget, split, hsplit, rfl⟩

/-- Every label that the renderer shows for so many options is a normal token. -/
def ShowsNormalLabels (t : GemmaTokenizer) (options : Nat) : Prop :=
  ∀ index < options, ∀ label,
    answerLabel index (decide (legacyDecisionOptions < options)) = .ok label →
      ∃ id, t.NormalLabel label id

theorem Tokenized.exists_answers {rendered : RenderedPrompt} {ids : List TokenId}
    (h : Tokenized engine request rendered ids) (hmarked : Marked engine.tokenizer)
    (hlabels : ShowsNormalLabels engine.tokenizer request.options.length) :
    ∃ answers, answerTokens engine.tokenizer rendered.text [] rendered.answerSlots = .ok answers := by
  obtain ⟨_, _, _, _, hslots, list, _, htext, _⟩ := Gemma4PromptRenderer.render_eq_ok h.renders
  refine exists_answerTokens ?_ hslots.nodup nofun
  intro slot hslot
  obtain ⟨index, hindex, hlabel⟩ := hslots.exists_label hslot
  obtain ⟨id, hnormal⟩ := hlabels index hindex slot.label hlabel
  refine ⟨id, ?_, hnormal.piece⟩
  have hfixed : engine.tokenizer.fixedSuffix rendered.text slot.label = true := by
    have hend : bytes "<turn|>\n<|turn>model\n" = bytes "<turn|>\n" ++ answerSuffix := by decide
    rw [htext, hend, ← List.append_assoc]
    exact hmarked.fixedSuffix _ _
  have hshape := answerLabel_shape hindex hlabel
  rw [GemmaTokenizer.tokenizeAnswerLabel, hshape, hfixed]
  exact hnormal.validateLabel

/-- The placeholder checks of the evaluation fail where the user spells the placeholder. -/
theorem Tokenized.exists_split_iff {rendered : RenderedPrompt} {ids : List TokenId}
    (h : Tokenized engine request rendered ids) (hmarked : Marked engine.tokenizer) :
    (∃ split, splitAtImage engine.tokenizer request.hasImage ids = .ok split) ↔
      ¬SpellsPlaceholder request := by
  obtain ⟨items, hitems, hlabels, htext⟩ := exists_items h.renders
  have htail := @infix_tail_iff request.state request.question request.options items hitems hlabels
  set head := imageHead (decide (legacyDecisionOptions < request.options.length)) with hhead
  have hfree : ∀ extended, ¬imageText <:+: imageHead extended ∧
      ¬imageText <:+: imageHead extended ++ imageBeginText := by decide +kernel
  have hids := h.tokens
  rw [htext] at hids
  cases himage : request.hasImage with
  | false =>
    have hlast : ∀ extended, ∃ c ∈ (imageHead extended).getLast?, c ∉ imageText := by decide +kernel
    rw [himage, if_neg (by decide), List.nil_append] at hids
    rw [hmarked.exists_split_text hids, infix_append_right_iff (hlast _) (hfree _).1, htail]
    rfl
  | true =>
    have hlast : (∃ c ∈ (imageEndText ++ bytes "\n").getLast?, c ∉ imageText) ∧
        ¬imageText <:+: imageEndText ++ bytes "\n" := by decide +kernel
    rw [himage, if_pos rfl] at hids
    simp only [List.append_assoc] at hids
    rw [hmarked.exists_split_image (hfree _).2 hids, ← List.append_assoc,
      infix_append_right_iff hlast.1 hlast.2, htail]
    rfl

theorem Tokenized.length_pos {rendered : RenderedPrompt} {ids : List TokenId}
    (h : Tokenized engine request rendered ids) (hmarked : Marked engine.tokenizer)
    (himage : request.hasImage = true) : 0 < ids.length := by
  obtain ⟨items, _, _, htext⟩ := exists_items h.renders
  have hids := h.tokens
  rw [htext, himage, if_pos rfl] at hids
  simp only [List.append_assoc] at hids
  rw [← List.append_assoc] at hids
  obtain ⟨_, _, _, _, _, _, rfl⟩ := (tokenize_alone (hmarked.alone imageText (by decide) _ _)
    (hmarked.special imageText (by decide)) (by decide)).mp hids
  rw [List.length_append, List.length_cons]
  omega

/-- When the estimate returns, the checks that the evaluation makes before it decodes the
image succeed exactly where no text of the user spells the placeholder, and an image of no
visual tokens leaves a position for the placeholder itself. -/
theorem exists_prepare_iff_spells (hmarked : Marked engine.tokenizer)
    (hlabels : ShowsNormalLabels engine.tokenizer request.options.length) {positions : Nat}
    (h : engine.estimatePrefillPositions request = .ok positions) :
    (∃ prepared, engine.prepare request = .ok prepared) ↔ ¬SpellsPlaceholder request ∧
      (request.hasImage = true → engine.estimateVisualTokens request = .ok 0 →
        positions < engine.model.textConfig.contextLength ∧ positions < maxPrefillPositions) := by
  obtain ⟨rendered, ids, htokens, hestimated, hcontext, hmax⟩ := estimatePrefillPositions_eq_ok.mp h
  rw [exists_prepare_iff htokens (htokens.exists_answers hmarked hlabels),
    htokens.exists_split_iff hmarked, and_comm]
  apply and_congr_right
  intro _
  rw [EstimatedAt] at hestimated
  cases himage : request.hasImage with
  | false =>
    rw [himage, if_neg (by decide)] at hestimated
    rw [← hestimated]
    exact iff_of_true ⟨hcontext, hmax⟩ nofun
  | true =>
    rw [himage, if_pos rfl] at hestimated
    obtain ⟨visual, hvisual, hpositions⟩ := hestimated
    have hpos := htokens.length_pos hmarked himage
    rw [hvisual]
    constructor
    · intro ⟨hcontext, hmax⟩ _ hzero
      cases hzero
      omega
    · intro hfits
      rcases Nat.eq_zero_or_pos visual with rfl | hsome
      · have := hfits rfl rfl
        omega
      · omega

end Engine

/-! ## An engine that scores every option alike -/

/-- A graph of one row of width one. -/
def unitVision : VisionOps Unit Nat where
  input _ _ _ := ()
  positions _ := ()
  weight _ := ()
  tableView _ _ _ := ()
  scaleBias _ _ _ := ()
  conv2d _ _ _ := ()
  reshape _ _ := ()
  transpose _ := ()
  permute _ _ := ()
  getRows _ _ := ()
  add _ _ := ()
  mul _ _ := ()
  mulMat _ _ := ()
  clamp _ _ _ := ()
  rmsNorm _ _ := ()
  rope _ _ _ := ()
  ropeOffset _ _ := ()
  castF16 _ := ()
  flashAttention _ _ _ := ()
  softMax _ := ()
  gegluQuick _ _ := ()
  averagePool _ _ := ()
  scaleSqrt _ _ := ()
  headWidth _ := 1
  elements _ := some 1
  row _ _ := 0

/-- A decoder that reads every text as a black image of 10 by 10 pixels. -/
def blackImages : StbImage where
  info _ := .ok (10, 10)
  load _ := .ok (10, 10, List.replicate 300 0)
  loadFile _ := .ok (10, 10, List.replicate 300 0)

def noTime : TimingInfo (Ieee ℚ) where
  promptRenderingMs := .finite 0
  tokenizationMs := .finite 0
  imagePreprocessingMs := .finite 0
  visionMs := .finite 0
  visionBackendCopyMs := .finite 0
  visionSynchronizationMs := .finite 0
  prefillMs := .finite 0
  prefillBackendCopyMs := .finite 0
  prefillSynchronizationMs := .finite 0
  readoutMs := .finite 0
  readoutBackendCopyMs := .finite 0
  readoutSynchronizationMs := .finite 0
  normalizationMs := .finite 0
  requestTotalMs := .finite 0

def evenEngine : Gemma4DecisionEngine ℚ ℚ Unit Nat where
  model := PrefillEngine.modelWith
    (PrefillEngine.requiredTextTensors PrefillEngine.sampleTextConfig)
  backend := .reliable (bytes "CPU")
  tokenizer := characterTokenizer
  library := {
    numbers := ⟨Ieee.isFinite, fun _ => (.finite 0, 0), fun _ => bytes "0"⟩
    stb := blackImages
    arith := ImagePreprocessor.ideal fun x => x
    normalize := fun _ _ _ => 0
    vision := unitVision
    text := PrefillEngine.sampleOps
    logits := fun _ => List.replicate 103 (.finite 0)
    exp := fun _ => 1
    readout := ⟨true, true, .ok ()⟩
    measured := noTime }

theorem characterTokenizer_marked : Marked characterTokenizer where
  special text hmem := by
    rw [markers] at hmem
    simp only [SpecialText, characterTokenizer_specials]
    revert text
    decide +kernel
  alone text hmem before after := by
    apply characterTokenizer_alone
    revert text
    decide

theorem characterTokenizer_normalLabel {label : Bytes} {id : TokenId}
    (htoken : characterTokenizer.tokenize label false true = .ok [id])
    (hpiece : characterTokenizer.piece id = .ok label) (hplain : 7 ≤ id)
    (hboundary : characterTokenizer.tokenize (answerSuffix ++ label) false true =
      (characterTokenizer.tokenize answerSuffix false true).map (· ++ [id])) :
    characterTokenizer.NormalLabel label id where
  token := htoken
  piece := hpiece
  ne_eos := by
    rintro rfl
    exact absurd hplain (by decide)
  normal := by
    have hlow : ∀ special ∈ characterTokenizer.specialTokens, special.id < 7 := by
      rw [characterTokenizer_specials]
      decide
    rw [GemmaTokenizer.isSpecialToken, List.any_eq_false]
    intro special hspecial heq
    have hid : special.id = id := of_decide_eq_true heq
    exact absurd (hlow special hspecial) (not_lt.mpr (hid ▸ hplain))
  boundary := by
    have hok : (characterTokenizer.tokenize answerSuffix false true).isOk = true := by decide +kernel
    obtain ⟨ids, hsuffix⟩ := exists_of_isOk hok
    rw [hsuffix] at hboundary
    exact ⟨ids, hsuffix, hboundary⟩

theorem characterTokenizer_normalLabels : ShowsNormalLabels characterTokenizer 2 := by
  intro index hindex label hlabel
  have hcases : index = 0 ∨ index = 1 := by omega
  rcases hcases with rfl | rfl
  · cases hlabel
    exact ⟨70, characterTokenizer_normalLabel (by decide +kernel) (by decide +kernel) (by decide)
      (by decide +kernel)⟩
  · cases hlabel
    exact ⟨71, characterTokenizer_normalLabel (by decide +kernel) (by decide +kernel) (by decide)
      (by decide +kernel)⟩

/-- A state that spells the placeholder. -/
def placeholderRequest : DecisionRequest where
  state := imageText
  question := bytes "q"
  options := twoOptions

def imageRequest : DecisionRequest where
  state := bytes "s"
  question := bytes "q"
  options := twoOptions
  imageBytes := some (bytes "i")

theorem placeholderRequest_estimated :
    ∃ positions, evenEngine.estimatePrefillPositions placeholderRequest = .ok positions := by
  apply exists_of_isOk
  decide +kernel

theorem exists_prepare_iff_spells_sample :
    ∃ prepared, evenEngine.prepare imageRequest = .ok prepared := by
  have hestimate : evenEngine.estimatePrefillPositions imageRequest = .ok 390 := by
    decide +kernel
  have hvisual : evenEngine.estimateVisualTokens imageRequest = .ok 100 := by decide +kernel
  have hiff := exists_prepare_iff_spells characterTokenizer_marked characterTokenizer_normalLabels
    hestimate
  refine hiff.mpr ⟨by decide, fun _ hzero => ?_⟩
  rw [hvisual] at hzero
  cases hzero

/-- The estimate returns for a state that spells the placeholder, the evaluation rejects it. -/
theorem exists_prepare_fails :
    ¬∀ (engine : Gemma4DecisionEngine ℚ ℚ Unit Nat) (request : DecisionRequest) (positions : Nat),
      Marked engine.tokenizer → ShowsNormalLabels engine.tokenizer request.options.length →
      engine.estimatePrefillPositions request = .ok positions →
      ∃ prepared, engine.prepare request = .ok prepared := by
  intro h
  obtain ⟨positions, hestimate⟩ := placeholderRequest_estimated
  have hprepare := h evenEngine placeholderRequest positions characterTokenizer_marked
    characterTokenizer_normalLabels hestimate
  obtain ⟨rendered, ids, htokens, _⟩ := estimatePrefillPositions_eq_ok.mp hestimate
  have hanswers := htokens.exists_answers characterTokenizer_marked characterTokenizer_normalLabels
  have hsplit := ((exists_prepare_iff htokens hanswers).mp hprepare).2
  have hspells : SpellsPlaceholder placeholderRequest := Or.inl List.infix_rfl
  exact (htokens.exists_split_iff characterTokenizer_marked).mp hsplit hspells

end Gemma4DecisionEngine

end Branchscore
