import Branchscore.AnswerLabels
import Branchscore.Json.RoundTrip
import Branchscore.Sha256

/-! The Gemma 4 prompt and the answer slots it offers. -/

namespace Branchscore

open Foundation Outcome
set_option autoImplicit false

variable {D : Type}

structure RenderedAnswerSlot where
  label : Bytes
  inputIndex : Nat
  optionId : Bytes
  deriving DecidableEq, Repr

structure RenderedPrompt where
  text : Bytes
  format : PromptFormatInfo
  identity : Bytes
  answerSlots : List RenderedAnswerSlot
  deriving DecidableEq, Repr

def promptIdentity (text renderer : Bytes) : Bytes :=
  renderer ++ bytes "/sha256:" ++ (({} : Sha256).update text).finish

def answerLabel (index : Nat) (extended : Bool) : Except Exception Bytes :=
  if extended then
    match gemma4ExtendedAnswerLabels[index]? with
    | some label => .ok label
    | none => .error (.outOfRange (bytes "array::at"))
  else .ok [Fin.ofNat 256 ((byte 'A').val + index)]

namespace Gemma4PromptRenderer

def rendererId (optionCount : Nat) : Bytes :=
  if optionCount ≤ legacyDecisionOptions then bytes "gemma4-categorical-v1"
  else bytes "gemma4-categorical-512-v1"

/-- The JSON object shown to the model for an option. -/
def renderedOption (label description : Bytes) : Json.Value D :=
  .object (SortedMap.build [(bytes "letter", .string label),
    (bytes "description", .string description)])

def answerSlot (extended : Bool) (option : DecisionOption × Nat) :
    Except Exception RenderedAnswerSlot := do
  let label ← answerLabel option.2 extended
  return ⟨label, option.2, option.1.id⟩

/-- The text in front of the option list. -/
def promptHead (state question : Bytes) (hasImage extended : Bool) : Bytes :=
  bytes "<bos><|turn>system\n" ++
  bytes "Apply the supplied criterion to the supplied evidence. Choose exactly one listed option. Respond with only its uppercase " ++
  (if extended then bytes "label" else bytes "letter") ++
  bytes ", with no explanation or reasoning." ++
  bytes "<turn|>\n<|turn>user\n" ++
  (if hasImage then bytes "<|image><|image|><image|>\n" else []) ++
  bytes "State:\n" ++ state ++ bytes "\n\nQuestion:\n" ++ question ++ bytes "\n\nOptions:\n"

def render (lib : Json.NumberLibrary D) (state question : Bytes) (options : List DecisionOption)
    (hasImage : Bool) (policy : PromptPolicy) (requestedTemplateFile : Option Bytes)
    (ggufChatTemplatePresent : Bool) : Except Exception RenderedPrompt := do
  if state = [] then runtimeError "state must not be empty"
  else if question = [] then runtimeError "question must not be empty"
  else if options.length < minDecisionOptions ∨ maxDecisionOptions < options.length then
    runtimeError "categorical prompt requires 2-512 options"
  else if policy.reasoning ≠ .directAnswerDisabled then
    runtimeError "unsupported Gemma 4 reasoning policy"
  else do
    let extended := decide (legacyDecisionOptions < options.length)
    let answerSlots ← options.zipIdx.mapM (answerSlot extended)
    let renderedOptions : List (Json.Value D) :=
      (answerSlots.zip options).map fun p => renderedOption p.1.label p.2.description
    let list ← Json.stringify lib (.array renderedOptions)
    let text := promptHead state question hasImage extended ++ list ++
      bytes "<turn|>\n<|turn>model\n"
    let format : PromptFormatInfo :=
      { rendererId := rendererId options.length
        modelFamily := bytes "gemma4"
        effectiveSource := bytes "built-in"
        promptPolicy := policy
        requestedTemplateFile
        requestedTemplateApplied := false
        ggufChatTemplatePresent
        ggufChatTemplateUsed := false }
    return { text, format, identity := promptIdentity text (rendererId options.length), answerSlots }

/-! ## What a rendered prompt holds -/

set_option maxRecDepth 4000 in
theorem gemma4ExtendedAnswerLabels_length :
    gemma4ExtendedAnswerLabels.length = maxDecisionOptions := rfl

theorem exists_answerLabel (extended : Bool) {index : Nat} (h : index < maxDecisionOptions) :
    ∃ label, answerLabel index extended = .ok label := by
  cases extended with
  | false => exact ⟨_, rfl⟩
  | true =>
    have hlen : index < gemma4ExtendedAnswerLabels.length := by
      rwa [gemma4ExtendedAnswerLabels_length]
    refine ⟨gemma4ExtendedAnswerLabels[index], ?_⟩
    simp only [answerLabel, List.getElem?_eq_getElem hlen]
    rfl

theorem renderedOption_regular (finite : D → Prop) (label description : Bytes) :
    (renderedOption label description : Json.Value D).Regular finite := by
  refine .object (SortedMap.build_sorted _) ?_
  intro member hm
  have hmem := SortedMap.mem_of_mem_build hm
  simp only [List.mem_cons, List.not_mem_nil, or_false] at hmem
  rcases hmem with rfl | rfl
  · exact .string label
  · exact .string description

/-- The slots of the options, one each and in order. -/
def SlotsOf (extended : Bool) (options : List DecisionOption) (slots : List RenderedAnswerSlot) :
    Prop :=
  List.Forall₂ (fun option slot => answerSlot extended option = .ok slot) options.zipIdx slots

theorem exists_slots {options : List DecisionOption} (h : options.length ≤ maxDecisionOptions)
    (extended : Bool) : ∃ slots, options.zipIdx.mapM (answerSlot extended) = .ok slots := by
  cases hslots : options.zipIdx.mapM (answerSlot extended) with
  | ok slots => exact ⟨slots, rfl⟩
  | error e =>
    obtain ⟨⟨option, index⟩, hm, he⟩ := mapM_eq_error hslots
    have hlt := List.snd_lt_of_mem_zipIdx hm
    obtain ⟨label, hl⟩ := exists_answerLabel extended (hlt.trans_le h)
    simp [answerSlot, hl] at he

section Rendered
variable {lib : Json.NumberLibrary D} {state question : Bytes} {options : List DecisionOption}
  {hasImage present : Bool} {policy : PromptPolicy} {file : Option Bytes}

/-- `render` succeeds on everything its own checks let through. -/
theorem exists_render (hstate : state ≠ []) (hquestion : question ≠ [])
    (hmin : minDecisionOptions ≤ options.length) (hmax : options.length ≤ maxDecisionOptions) :
    ∃ prompt, render lib state question options hasImage policy file present = .ok prompt := by
  obtain ⟨slots, hslots⟩ := exists_slots hmax (decide (legacyDecisionOptions < options.length))
  have hregular : (Json.Value.array ((slots.zip options).map fun p =>
      renderedOption p.1.label p.2.description) : Json.Value D).Regular
      fun d => lib.isfinite d = true := by
    refine .array fun item hm => ?_
    obtain ⟨p, _, rfl⟩ := List.mem_map.mp hm
    exact renderedOption_regular _ _ _
  obtain ⟨list, hlist, _⟩ := Json.stringify_eq_ok hregular
  have hreasoning : policy.reasoning = .directAnswerDisabled := rfl
  rw [render, if_neg hstate, if_neg hquestion, if_neg (by omega), if_neg (not_not.mpr hreasoning)]
  dsimp only
  rw [hslots, ok_bind, hlist]
  exact ⟨_, rfl⟩

/-- What `render` returns, once its checks have passed. -/
theorem render_eq_ok {prompt : RenderedPrompt}
    (h : render lib state question options hasImage policy file present = .ok prompt) :
    state ≠ [] ∧ question ≠ [] ∧ minDecisionOptions ≤ options.length ∧
      options.length ≤ maxDecisionOptions ∧
      SlotsOf (decide (legacyDecisionOptions < options.length)) options prompt.answerSlots ∧
      ∃ list, Json.stringify lib (.array ((prompt.answerSlots.zip options).map fun p =>
          renderedOption p.1.label p.2.description)) = .ok list ∧
        prompt.text = promptHead state question hasImage
          (decide (legacyDecisionOptions < options.length)) ++ list ++
            bytes "<turn|>\n<|turn>model\n" ∧
        prompt.identity = promptIdentity prompt.text (rendererId options.length) := by
  rw [render] at h
  by_cases hstate : state = []
  · rw [if_pos hstate] at h
    cases h
  by_cases hquestion : question = []
  · rw [if_neg hstate, if_pos hquestion] at h
    cases h
  by_cases hcount : options.length < minDecisionOptions ∨ maxDecisionOptions < options.length
  · rw [if_neg hstate, if_neg hquestion, if_pos hcount] at h
    cases h
  have hreasoning : policy.reasoning = .directAnswerDisabled := rfl
  rw [if_neg hstate, if_neg hquestion, if_neg hcount, if_neg (not_not.mpr hreasoning)] at h
  obtain ⟨slots, hslots, h⟩ := bind_eq_ok.mp h
  obtain ⟨list, hlist, h⟩ := bind_eq_ok.mp h
  cases h
  exact ⟨hstate, hquestion, by omega, by omega, mapM_eq_ok.mp hslots, list, hlist, rfl, rfl⟩

end Rendered

end Gemma4PromptRenderer

end Branchscore
