import Branchscore.DecisionEngine.Placeholder
import Branchscore.PromptRenderer.OptionList

/-!
# The placeholder in the texts of a request

The placeholder stands in a rendered prompt where the renderer writes it and where the
state, the question or a description spells it, and nowhere else.
-/

namespace Branchscore

open Foundation Outcome Foundation.Words
set_option autoImplicit false

/-! ## Labels -/

theorem answerLabel_shape {index options : Nat} {label : Bytes} (hindex : index < options)
    (h : answerLabel index (decide (legacyDecisionOptions < options)) = .ok label) :
    GemmaTokenizer.labelShape label = true := by
  have hextended : ∀ label ∈ gemma4ExtendedAnswerLabels, GemmaTokenizer.labelShape label = true := by
    decide +kernel
  have hlegacy : ∀ i < 16, GemmaTokenizer.labelShape [Fin.ofNat 256 ((byte 'A').val + i)] = true := by
    decide
  by_cases hmany : legacyDecisionOptions < options
  · rw [decide_eq_true hmany, answerLabel, if_pos rfl] at h
    cases hlabel : gemma4ExtendedAnswerLabels[index]? with
    | none =>
      rw [hlabel] at h
      cases h
    | some l =>
      rw [hlabel] at h
      cases h
      exact hextended label (List.mem_of_getElem? hlabel)
  · rw [decide_eq_false hmany] at h
    cases h
    exact hlegacy index (hindex.trans_le (Nat.le_of_not_lt hmany))

namespace Gemma4DecisionEngine

/-! ## The option list -/

/-- The text of one option in the list. -/
def optionText (label description : Bytes) : Bytes :=
  bytes "\x7b\"description\":\"" ++ (description.flatMap Json.escapeByte ++
    (bytes "\",\"letter\":\"" ++ (label.flatMap Json.escapeByte ++ bytes "\"\x7d")))

def itemsText (first : Bool) : List (RenderedAnswerSlot × DecisionOption) → Bytes
  | [] => []
  | item :: items => (if first then [] else [byte ',']) ++
      (optionText item.1.label item.2.description ++ itemsText false items)

section List
variable {D : Type} (lib : Json.NumberLibrary D)

theorem appendValue_option (output label description : Bytes) :
    Json.appendValue lib output (Gemma4PromptRenderer.renderedOption label description) =
      .ok (output ++ optionText label description) := by
  rw [Gemma4PromptRenderer.renderedOption_eq]
  have hkeys : (bytes "description").flatMap Json.escapeByte = bytes "description" ∧
      (bytes "letter").flatMap Json.escapeByte = bytes "letter" := by decide +kernel
  have htexts : bytes "\x7b\"description\":\"" =
        byte '{' :: byte '"' :: (bytes "description" ++ [byte '"', byte ':', byte '"']) ∧
      bytes "\",\"letter\":\"" = byte '"' :: byte ',' :: byte '"' :: (bytes "letter" ++
        [byte '"', byte ':', byte '"']) ∧
      bytes "\"\x7d" = [byte '"', byte '}'] := by decide
  simp only [Json.appendValue, Json.appendMembers, Json.appendEscaped_eq, ok_bind, pure_eq_ok,
    hkeys, optionText, htexts, if_true, if_false, reduceCtorEq, List.append_assoc, List.cons_append,
    List.nil_append]

theorem appendItems_options (output : Bytes) (first : Bool)
    (items : List (RenderedAnswerSlot × DecisionOption)) :
    Json.appendItems lib output first (items.map fun p =>
        Gemma4PromptRenderer.renderedOption p.1.label p.2.description) =
      .ok (output ++ itemsText first items) := by
  induction items generalizing output first with
  | nil => rw [itemsText, List.append_nil, List.map_nil, Json.appendItems]
  | cons item items ih =>
    rw [List.map_cons, Json.appendItems, appendValue_option, ok_bind, ih, itemsText]
    cases first <;> simp

theorem stringify_options (items : List (RenderedAnswerSlot × DecisionOption)) :
    Json.stringify lib (.array (items.map fun p =>
        Gemma4PromptRenderer.renderedOption p.1.label p.2.description)) =
      .ok (bytes "[" ++ (itemsText true items ++ bytes "]")) := by
  rw [Json.stringify, Json.appendValue, appendItems_options]
  simp [bytes]

end List

/-! ## Where the placeholder stands -/

theorem escapeByte_spares : Spares Json.escapeByte imageText := by
  unfold Spares
  decide +kernel

theorem infix_label {label : Bytes} (hlabel : GemmaTokenizer.labelShape label = true) :
    ¬imageText <:+: label.flatMap Json.escapeByte := by
  rw [escapeByte_spares.infix_flatMap_iff]
  intro h
  have hlength := h.length_le
  have hshort : label.length ≤ 2 := by
    simp only [GemmaTokenizer.labelShape, Bool.and_eq_true, decide_eq_true_eq] at hlabel
    exact hlabel.1.2
  exact absurd (hlength.trans hshort) (by decide)

theorem infix_option {label description rest : Bytes}
    (hlabel : GemmaTokenizer.labelShape label = true) :
    imageText <:+: optionText label description ++ rest ↔
      imageText <:+: description ∨ imageText <:+: rest := by
  have hhead : Gap imageText (bytes "\x7b\"description\":\"") := by decide +kernel
  have hmiddle : Gap imageText (bytes "\",\"letter\":\"") := by decide +kernel
  have hlast : Gap imageText (bytes "\"\x7d") := by decide +kernel
  simp only [optionText, List.append_assoc]
  rw [hhead.infix_iff, hmiddle.infix_append_iff, hlast.infix_append_iff,
    escapeByte_spares.infix_flatMap_iff, or_iff_right (infix_label hlabel)]

theorem infix_items {items : List (RenderedAnswerSlot × DecisionOption)}
    (h : ∀ item ∈ items, GemmaTokenizer.labelShape item.1.label = true) (first : Bool) {rest : Bytes} :
    imageText <:+: itemsText first items ++ rest ↔
      (∃ item ∈ items, imageText <:+: item.2.description) ∨ imageText <:+: rest := by
  have hcomma : Gap imageText [byte ','] := by decide +kernel
  induction items generalizing first with
  | nil => simp [itemsText]
  | cons item items ih =>
    obtain ⟨hlabel, hlabels⟩ := List.forall_mem_cons.mp h
    have hoption : imageText <:+: optionText item.1.label item.2.description ++
        (itemsText false items ++ rest) ↔
          (∃ p ∈ item :: items, imageText <:+: p.2.description) ∨ imageText <:+: rest := by
      rw [infix_option hlabel, List.exists_mem_cons_iff, or_assoc]
      exact or_congr_right (ih hlabels false)
    rw [itemsText, List.append_assoc, List.append_assoc]
    cases first with
    | true => exact hoption
    | false => exact (hcomma.infix_iff).trans hoption

/-- What the user wrote: the state, the question or a description spells the placeholder. -/
def SpellsPlaceholder (request : DecisionRequest) : Prop :=
  imageText <:+: request.state ∨ imageText <:+: request.question ∨
    ∃ option ∈ request.options, imageText <:+: option.description

instance (request : DecisionRequest) : Decidable (SpellsPlaceholder request) :=
  inferInstanceAs (Decidable (_ ∨ _ ∨ _))

theorem infix_userTail {items : List (RenderedAnswerSlot × DecisionOption)}
    (h : ∀ item ∈ items, GemmaTokenizer.labelShape item.1.label = true) {state question : Bytes} :
    imageText <:+: userTail state question (bytes "[" ++ (itemsText true items ++ bytes "]")) ↔
      imageText <:+: state ∨ imageText <:+: question ∨
        ∃ item ∈ items, imageText <:+: item.2.description := by
  have hstate : Gap imageText (bytes "State:\n") := by decide +kernel
  have hquestion : Gap imageText (bytes "\n\nQuestion:\n") := by decide +kernel
  have hoptions : Gap imageText (bytes "\n\nOptions:\n") := by decide +kernel
  have hopen : Gap imageText (bytes "[") := by decide +kernel
  have hend : ¬imageText <:+: bytes "]" ++ bytes "<turn|>\n<|turn>model\n" := by
    decide +kernel
  simp only [userTail, List.append_assoc]
  rw [hstate.infix_iff, hquestion.infix_append_iff, hoptions.infix_append_iff,
    hopen.infix_iff, infix_items h, or_iff_left hend]

/-! ## Rendered prompts -/

section Rendered
variable {D : Type} {lib : Json.NumberLibrary D} {state question : Bytes}
  {options : List DecisionOption} {hasImage present : Bool} {policy : PromptPolicy}
  {file : Option Bytes} {rendered : RenderedPrompt}

/-- The options in the list are those of the request, under labels of capital letters. -/
theorem exists_items (h : Gemma4PromptRenderer.render lib state question options hasImage policy
    file present = .ok rendered) : ∃ items : List (RenderedAnswerSlot × DecisionOption),
      items.map Prod.snd = options ∧
      (∀ item ∈ items, GemmaTokenizer.labelShape item.1.label = true) ∧
      rendered.text = imageHead (decide (legacyDecisionOptions < options.length)) ++
        ((if hasImage then imageBeginText ++ (imageText ++ (imageEndText ++ bytes "\n")) else []) ++
          userTail state question (bytes "[" ++ (itemsText true items ++ bytes "]"))) := by
  obtain ⟨_, _, _, _, hslots, list, hlist, htext, _⟩ := Gemma4PromptRenderer.render_eq_ok h
  rw [stringify_options] at hlist
  cases hlist
  refine ⟨rendered.answerSlots.zip options, List.map_snd_zip hslots.length_eq.ge, ?_, ?_⟩
  · intro item hitem
    obtain ⟨index, hindex, hlabel⟩ := hslots.exists_label (List.of_mem_zip hitem).1
    exact answerLabel_shape hindex hlabel
  · rw [htext, promptHead_eq]

/-- The text from the state on spells the placeholder where the user does. -/
theorem infix_tail_iff {items : List (RenderedAnswerSlot × DecisionOption)}
    (hitems : items.map Prod.snd = options)
    (hlabels : ∀ item ∈ items, GemmaTokenizer.labelShape item.1.label = true) :
    imageText <:+: userTail state question (bytes "[" ++ (itemsText true items ++ bytes "]")) ↔
      imageText <:+: state ∨ imageText <:+: question ∨
        ∃ option ∈ options, imageText <:+: option.description := by
  rw [infix_userTail hlabels, ← hitems]
  simp only [List.mem_map, exists_exists_and_eq_and]

end Rendered

end Gemma4DecisionEngine

end Branchscore
