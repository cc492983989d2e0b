import Branchscore.Tokenizer.Tokenize

/-!
# Answer labels

`tokenize_answer_label` validates a label against the fixed suffix of the prompt
when it can, instead of the whole prompt. The shortcut is exact: `<|turn>` starts
at the boundary and nothing straddles it, so the text before it is segmented
independently of the suffix and of the label.
-/

namespace Branchscore

open Foundation Foundation.Outcome Foundation.Search Foundation.Scan
set_option autoImplicit false

structure AnswerToken where
  label : Bytes
  id : TokenId
  boundaryValid : Bool
  deriving Repr, DecidableEq

def answerSuffix : Bytes := bytes "<|turn>model\n"

def turnText : Bytes := bytes "<|turn>"

namespace GemmaTokenizer
variable (t : GemmaTokenizer)

/-- The first occurrence not before `boundary - size + 1` spans the boundary. -/
def spansBoundary (inspected : Bytes) (boundary : Nat) (special : SpecialToken) : Bool :=
  let size := special.text.length
  let start := if size ≤ boundary then boundary - size + 1 else 0
  match find? special.text (inspected.drop start) with
  | none => false
  | some i => start + i < boundary && boundary < start + i + size

def fixedSuffix (renderedPrompt label : Bytes) : Bool :=
  match t.findToken turnText with
  | none => false
  | some turnId =>
    t.isSpecialToken turnId && answerSuffix.isSuffixOf renderedPrompt &&
      !t.specialTokens.any
        (spansBoundary (renderedPrompt ++ label) (renderedPrompt.length - answerSuffix.length))

/-- The checks of `tokenize_answer_label` once the boundary prompt is chosen. -/
def validateLabel (boundaryPrompt label : Bytes) : Except Exception AnswerToken := do
  let renderedHasBos := (bytes "<bos>").isPrefixOf boundaryPrompt
  let prefixIds ← t.tokenize boundaryPrompt (!renderedHasBos) true
  match ← t.tokenize label false true with
  | [id] =>
    if (← t.piece id) ≠ label ∨ id = t.eos ∨ t.isSpecialToken id then
      .error (.runtimeError (bytes "answer label '" ++ label ++ bytes "' is not a normal token"))
    else
      let combinedIds ← t.tokenize (boundaryPrompt ++ label) (!renderedHasBos) true
      if combinedIds.length ≠ prefixIds.length + 1 ∨
          combinedIds.take prefixIds.length ≠ prefixIds ∨ combinedIds.getLast? ≠ some id then
        .error (.runtimeError (bytes "answer label '" ++ label ++
          bytes "' changes tokenization at the prompt boundary"))
      else return ⟨label, id, true⟩
  | _ =>
    .error (.runtimeError (bytes "answer label '" ++ label ++ bytes "' is not a single token"))

def labelShape (label : Bytes) : Bool :=
  label ≠ [] && label.length ≤ 2 && label.all fun c => byte 'A' ≤ c && c ≤ byte 'Z'

def tokenizeAnswerLabel (renderedPrompt label : Bytes) : Except Exception AnswerToken :=
  if !labelShape label then
    runtimeError "Gemma 4 answer label must be one or two uppercase letters"
  else if t.fixedSuffix renderedPrompt label then t.validateLabel answerSuffix label
  else t.validateLabel renderedPrompt label

/-- The slow path alone: every label is validated against the whole prompt. -/
def tokenizeAnswerLabelSlow (renderedPrompt label : Bytes) : Except Exception AnswerToken :=
  if !labelShape label then
    runtimeError "Gemma 4 answer label must be one or two uppercase letters"
  else t.validateLabel renderedPrompt label

/-! ## The boundary -/

/-- The search window catches every occurrence that spans the boundary. -/
theorem spansBoundary_eq_false {inspected : Bytes} {boundary : Nat} {special : SpecialToken}
    (hb : boundary ≤ inspected.length)
    (h : spansBoundary inspected boundary special = false) {i : Nat} (hi : i < boundary)
    (ho : OccursAt special.text inspected i) : i + special.text.length ≤ boundary := by
  by_contra hspan
  simp only [spansBoundary] at h
  set start := if special.text.length ≤ boundary then boundary - special.text.length + 1 else 0
    with hstart
  have hsi : start ≤ i := by split at hstart <;> omega
  have hocc : OccursAt special.text (inspected.drop start) (i - start) := by
    rw [OccursAt, List.drop_drop, Nat.add_sub_cancel' hsi]
    exact ho
  cases hf : find? special.text (inspected.drop start) with
  | none =>
    refine find?_eq_none.mp hf (i - start) ?_ hocc
    rw [List.length_drop]
    omega
  | some j =>
    have hj : j ≤ i - start := by
      by_contra hji
      exact (find?_eq_some.mp hf).2.2 _ (Nat.lt_of_not_le hji) hocc
    simp only [hf, Bool.and_eq_false_iff, decide_eq_false_iff_not] at h
    rcases h with h | h
    · omega
    · split at hstart <;> omega

theorem fixedSuffix_spec {renderedPrompt label : Bytes}
    (h : t.fixedSuffix renderedPrompt label = true) :
    ∃ front, renderedPrompt = front ++ answerSuffix ∧
      Segments.Unstraddled SpecialToken.text t.specialTokens front (answerSuffix ++ label) ∧
      ∃ special ∈ t.specialTokens, special.text = turnText := by
  unfold fixedSuffix at h
  split at h
  · simp at h
  · rename_i turnId hturn
    simp only [Bool.and_eq_true, Bool.not_eq_true', List.any_eq_false,
      List.isSuffixOf_iff_suffix] at h
    obtain ⟨⟨hspecial, front, rfl⟩, hspan⟩ := h
    refine ⟨front, rfl, ?_, ?_⟩
    · intro special hs i hi ho
      rw [← List.append_assoc] at ho
      have hsp := hspan special hs
      simp only [List.length_append, Nat.add_sub_cancel, Bool.not_eq_true] at hsp
      exact spansBoundary_eq_false (by simp only [List.length_append]; omega) hsp hi ho
    · obtain ⟨special, hm, he, _⟩ := t.exists_special_of_findToken hturn hspecial
      exact ⟨special, hm, he⟩

theorem Unstraddled.left {front suffix label : Bytes} {specials : List SpecialToken}
    (h : Segments.Unstraddled SpecialToken.text specials front (suffix ++ label)) :
    Segments.Unstraddled SpecialToken.text specials front suffix := by
  intro special hs i hi ho
  refine h special hs i hi ?_
  rw [← List.append_assoc, OccursAt, List.drop_append_of_le_length (by simp; omega)]
  exact ho.trans (List.prefix_append _ _)

/-- `<|turn>` stands at the start of the suffix, so some special token is matched there. -/
theorem earliest_answerSuffix {special : SpecialToken} (hm : special ∈ t.specialTokens)
    (he : special.text = turnText) (label : Bytes) : ∃ first,
      earliest SpecialToken.text t.specialTokens (answerSuffix ++ label) = some (0, first) := by
  have hfound : find? special.text (answerSuffix ++ label) = some 0 := by
    have : answerSuffix ++ label = turnText ++ (bytes "model\n" ++ label) := rfl
    rw [he, this]
    exact find?_self_append _ _
  rcases earliest_cases SpecialToken.text t.specialTokens (answerSuffix ++ label) with
    ⟨_, hn⟩ | ⟨i, first, hi, hfirst⟩
  · have := hn special hm
    simp [hfound] at this
  · have : i = 0 := Nat.le_zero.mp (hfirst.le hm hfound)
    subst i
    exact ⟨first, hi⟩

theorem tokenize_addBos (text : Bytes) (addBos parseSpecial : Bool) :
    t.tokenize text addBos parseSpecial =
      (t.tokenize text false parseSpecial).map ((if addBos then [t.bos] else []) ++ ·) := by
  unfold tokenize
  cases t.scanTokens parseSpecial (text.length + 1) text <;> simp

/-- What precedes the suffix contributes the same ids whatever follows it. -/
theorem tokenize_front (hne : t.NonemptySpecials true) {front suffix : Bytes}
    {pieces : List (Piece Byte SpecialToken)}
    (hp : Segments SpecialToken.text t.specialTokens front pieces)
    (hu : Segments.Unstraddled SpecialToken.text t.specialTokens front suffix)
    {first : SpecialToken}
    (hfirst : earliest SpecialToken.text t.specialTokens suffix = some (0, first)) :
    t.tokenize (front ++ suffix) false true = (do
      let ids ← t.emit pieces
      (t.tokenize suffix false true).map (ids ++ ·)) := by
  have hne' : ∀ special ∈ t.specialTokens, special.text ≠ [] := by
    simpa [NonemptySpecials] using hne
  obtain ⟨rest, hr⟩ := Segments.total hne' suffix
  have happ := hp.append hne' hr hu hfirst
  rw [t.tokenize_eq_emit hne (by simpa using happ), t.tokenize_eq_emit hne (by simpa using hr),
    emit_append]
  cases t.emit pieces <;> cases t.emit rest <;> simp

theorem boundary_check_iff (prefixIds combinedIds : List TokenId) (id : TokenId) :
    (combinedIds.length ≠ prefixIds.length + 1 ∨
      combinedIds.take prefixIds.length ≠ prefixIds ∨ combinedIds.getLast? ≠ some id) ↔
    combinedIds ≠ prefixIds ++ [id] := by
  rw [← not_iff_not]
  simp only [not_or, not_not, ne_eq]
  constructor
  · rintro ⟨hl, ht, hlast⟩
    obtain ⟨init, rfl⟩ := List.getLast?_eq_some_iff.mp hlast
    simp only [List.length_append, List.length_singleton, Nat.add_right_cancel_iff] at hl
    rw [← hl, List.take_left] at ht
    rw [ht]
  · rintro rfl
    simp

/-- The outcome of the checks in terms of the ids of the prompt and of the prompt with
the label. -/
def labelOutcome (label : Bytes) (prefixIds : List TokenId)
    (combined : Except Exception (List TokenId)) : Except Exception AnswerToken := do
  match ← t.tokenize label false true with
  | [id] =>
    if (← t.piece id) ≠ label ∨ id = t.eos ∨ t.isSpecialToken id then
      .error (.runtimeError (bytes "answer label '" ++ label ++ bytes "' is not a normal token"))
    else if (← combined) = prefixIds ++ [id] then return ⟨label, id, true⟩
    else .error (.runtimeError (bytes "answer label '" ++ label ++
      bytes "' changes tokenization at the prompt boundary"))
  | _ =>
    .error (.runtimeError (bytes "answer label '" ++ label ++ bytes "' is not a single token"))

theorem validateLabel_eq {prompt : Bytes} {ids : List TokenId}
    (h : t.tokenize prompt false true = .ok ids) (label : Bytes) :
    t.validateLabel prompt label =
      t.labelOutcome label ids (t.tokenize (prompt ++ label) false true) := by
  unfold validateLabel labelOutcome
  dsimp only
  set addBos := !(bytes "<bos>").isPrefixOf prompt
  rw [t.tokenize_addBos prompt addBos, t.tokenize_addBos (prompt ++ label) addBos, h]
  simp only [map_of_ok, ok_bind, boundary_check_iff]
  congr 1
  funext standalone
  split
  · rename_i id
    congr 1
    funext text
    split
    · rfl
    · cases t.tokenize (prompt ++ label) false true with
      | error e => rfl
      | ok combined =>
        simp only [map_of_ok, ok_bind, List.append_assoc, ne_eq, List.append_cancel_left_eq]
        split <;> simp_all
  · rfl

theorem labelOutcome_append (label : Bytes) (front ids : List TokenId)
    (combined : Except Exception (List TokenId)) :
    t.labelOutcome label (front ++ ids) (combined.map (front ++ ·)) =
      t.labelOutcome label ids combined := by
  unfold labelOutcome
  cases combined <;> simp [List.append_assoc]

/-- On the fast path both validations reach the same outcome, error texts included. -/
theorem validateLabel_fixedSuffix (hne : t.NonemptySpecials true) {prompt label : Bytes}
    {ids : List TokenId} (h : t.tokenize prompt false true = .ok ids)
    (hfixed : t.fixedSuffix prompt label = true) :
    t.validateLabel answerSuffix label = t.validateLabel prompt label := by
  obtain ⟨front, rfl, hu, special, hm, he⟩ := t.fixedSuffix_spec hfixed
  obtain ⟨pieces, hp⟩ := Segments.total (by simpa [NonemptySpecials] using hne) front
  obtain ⟨first, hfirst⟩ := t.earliest_answerSuffix hm he []
  obtain ⟨firstLabel, hfirstLabel⟩ := t.earliest_answerSuffix hm he label
  rw [List.append_nil] at hfirst
  have hprompt := t.tokenize_front hne hp (Unstraddled.left hu) hfirst
  have hcombined := t.tokenize_front hne hp hu hfirstLabel
  rw [h] at hprompt
  obtain ⟨frontIds, hfront, hsuffix⟩ := bind_eq_ok.mp hprompt.symm
  cases hs : t.tokenize answerSuffix false true with
  | error e => simp [hs] at hsuffix
  | ok suffixIds =>
    simp only [hs, map_of_ok, Except.ok.injEq] at hsuffix
    subst hsuffix
    rw [t.validateLabel_eq hs, t.validateLabel_eq h, List.append_assoc, hcombined, hfront,
      ok_bind, labelOutcome_append]

theorem labelOutcome_eq_ok {label : Bytes} {prefixIds : List TokenId}
    {combined : Except Exception (List TokenId)} {answer : AnswerToken}
    (h : t.labelOutcome label prefixIds combined = .ok answer) :
    answer = ⟨label, answer.id, true⟩ ∧ t.piece answer.id = .ok label ∧ answer.id ≠ t.eos ∧
      t.isSpecialToken answer.id = false ∧ combined = .ok (prefixIds ++ [answer.id]) := by
  obtain ⟨standalone, _, h⟩ := bind_eq_ok.mp h
  split at h
  · rename_i id
    obtain ⟨text, htext, h⟩ := bind_eq_ok.mp h
    split at h
    · simp at h
    · rename_i hnormal
      obtain ⟨ids, hids, h⟩ := bind_eq_ok.mp h
      split at h
      · rename_i heq
        simp only [pure_eq_ok, Except.ok.injEq] at h
        subst h
        simp only [not_or, not_not, ne_eq, Bool.not_eq_true] at hnormal
        exact ⟨rfl, by rw [htext, hnormal.1], hnormal.2.1, hnormal.2.2, by rw [hids, heq]⟩
      · simp at h
  · simp at h

theorem tokenizeAnswerLabel_eq_slow (hne : t.NonemptySpecials true) {prompt label : Bytes}
    {ids : List TokenId} (h : t.tokenize prompt false true = .ok ids) :
    t.tokenizeAnswerLabel prompt label = t.tokenizeAnswerLabelSlow prompt label := by
  unfold tokenizeAnswerLabel tokenizeAnswerLabelSlow
  split
  · rfl
  · split
    · rename_i hfixed
      exact t.validateLabel_fixedSuffix hne h hfixed
    · rfl

theorem tokenizeAnswerLabel_accepts (hne : t.NonemptySpecials true) {prompt label : Bytes}
    {ids : List TokenId} (h : t.tokenize prompt false true = .ok ids) {answer : AnswerToken}
    (hanswer : t.tokenizeAnswerLabel prompt label = .ok answer) :
    answer = ⟨label, answer.id, true⟩ ∧ t.piece answer.id = .ok label ∧ answer.id ≠ t.eos ∧
      t.isSpecialToken answer.id = false ∧
      t.tokenize (prompt ++ label) false true = .ok (ids ++ [answer.id]) := by
  rw [t.tokenizeAnswerLabel_eq_slow hne h, tokenizeAnswerLabelSlow] at hanswer
  split at hanswer
  · simp [runtimeError] at hanswer
  · rw [t.validateLabel_eq h] at hanswer
    exact t.labelOutcome_eq_ok hanswer

/-- Validation against the fixed suffix accepts and rejects exactly as validation
against the whole prompt, and an accepted label adds one normal token to the prompt. -/
theorem answerLabel_shortcut_exact (hne : ∀ special ∈ t.specialTokens, special.text ≠ [])
    {prompt : Bytes} {ids : List TokenId} (h : t.tokenize prompt false true = .ok ids)
    (label : Bytes) :
    t.tokenizeAnswerLabel prompt label = t.tokenizeAnswerLabelSlow prompt label ∧
    ∀ answer, t.tokenizeAnswerLabel prompt label = .ok answer →
      answer.label = label ∧ t.piece answer.id = .ok label ∧ answer.id ≠ t.eos ∧
      t.isSpecialToken answer.id = false ∧
      ∀ addBos promptIds, t.tokenize prompt addBos true = .ok promptIds →
        t.tokenize (prompt ++ label) addBos true = .ok (promptIds ++ [answer.id]) := by
  have hne' : t.NonemptySpecials true := by simpa [NonemptySpecials] using hne
  refine ⟨t.tokenizeAnswerLabel_eq_slow hne' h, ?_⟩
  intro answer hanswer
  obtain ⟨hl, hpiece, heos, hspecial, hcombined⟩ := t.tokenizeAnswerLabel_accepts hne' h hanswer
  refine ⟨congrArg AnswerToken.label hl, hpiece, heos, hspecial, ?_⟩
  intro addBos promptIds hprompt
  rw [t.tokenize_addBos, h, map_of_ok, Except.ok.injEq] at hprompt
  rw [t.tokenize_addBos, hcombined, map_of_ok, ← hprompt, List.append_assoc]

end GemmaTokenizer

theorem samplePrompt_answer :
    sampleTokenizer.tokenizeAnswerLabel samplePrompt (bytes "A") = .ok ⟨bytes "A", 11, true⟩ := by
  decide +kernel

/-- The prompt takes the shortcut, and the label appends the id of `A`. -/
theorem answerLabel_shortcut_exact_sample :
    sampleTokenizer.fixedSuffix samplePrompt (bytes "A") = true ∧
      sampleTokenizer.tokenizeAnswerLabel samplePrompt (bytes "A") =
        .ok ⟨bytes "A", 11, true⟩ ∧
      sampleTokenizer.tokenizeAnswerLabelSlow samplePrompt (bytes "A") =
        .ok ⟨bytes "A", 11, true⟩ ∧
      sampleTokenizer.tokenize (samplePrompt ++ bytes "A") false true =
        .ok [0, 12, 3, 5, 6, 7, 8, 10, 11] := by
  obtain ⟨hslow, haccepted⟩ := sampleTokenizer.answerLabel_shortcut_exact (by decide)
    samplePrompt_tokens (bytes "A")
  refine ⟨by decide +kernel, samplePrompt_answer, hslow.symm.trans samplePrompt_answer, ?_⟩
  obtain ⟨-, -, -, -, happends⟩ := haccepted _ samplePrompt_answer
  exact happends false _ samplePrompt_tokens

end Branchscore
