import Branchscore.PromptRenderer

/-! The option list in the prompt reads back as the answer slots. -/

namespace Branchscore

open Foundation Outcome
set_option autoImplicit false

variable {D : Type}

namespace Gemma4PromptRenderer

/-! ## Labels -/

/-- Whether no number occurs twice, with the numbers seen so far as the bits of `seen`. -/
def distinct : List Nat → Nat → Bool
  | [], _ => true
  | n :: ns, seen => !seen.testBit n && distinct ns (seen ||| 2 ^ n)

theorem nodup_of_distinct {ns : List Nat} {seen : Nat} (h : distinct ns seen = true) :
    ns.Nodup ∧ ∀ n ∈ ns, seen.testBit n = false := by
  induction ns generalizing seen with
  | nil => exact ⟨List.nodup_nil, by simp⟩
  | cons n ns ih =>
    rw [distinct, Bool.and_eq_true, Bool.not_eq_true'] at h
    obtain ⟨hnodup, hunseen⟩ := ih h.2
    have hrest : ∀ m ∈ ns, m ≠ n ∧ seen.testBit m = false := by
      intro m hm
      have hbit := hunseen m hm
      rw [Nat.testBit_or, Nat.testBit_two_pow, Bool.or_eq_false_iff, decide_eq_false_iff_not] at hbit
      exact ⟨Ne.symm hbit.2, hbit.1⟩
    refine ⟨List.nodup_cons.mpr ⟨fun hn => (hrest n hn).1 rfl, hnodup⟩, ?_⟩
    rw [List.forall_mem_cons]
    exact ⟨h.1, fun m hm => (hrest m hm).2⟩

/-- The number that two capital letters spell. -/
def labelCode (label : Bytes) : Nat :=
  label.foldl (fun n b => n * 26 + (b.val - (byte 'A').val)) 0

theorem gemma4ExtendedAnswerLabels_nodup : gemma4ExtendedAnswerLabels.Nodup := by
  have hcodes : distinct (gemma4ExtendedAnswerLabels.map labelCode) 0 = true := by decide +kernel
  exact (nodup_of_distinct hcodes).1.of_map

theorem answerLabel_injective {options i j : Nat} {label : Bytes} (hi : i < options)
    (hj : j < options)
    (h : answerLabel i (decide (legacyDecisionOptions < options)) = .ok label)
    (h' : answerLabel j (decide (legacyDecisionOptions < options)) = .ok label) : i = j := by
  by_cases hextended : legacyDecisionOptions < options
  · rw [decide_eq_true hextended] at h h'
    have hget : ∀ k, answerLabel k true = .ok label →
        gemma4ExtendedAnswerLabels[k]? = some label := by
      intro k hk
      rw [answerLabel, if_pos rfl] at hk
      cases hlabel : gemma4ExtendedAnswerLabels[k]? with
      | none => simp [hlabel] at hk
      | some l => simpa [hlabel] using hk
    have hlt := (List.getElem?_eq_some_iff.mp (hget i h)).1
    exact (List.getElem?_inj hlt gemma4ExtendedAnswerLabels_nodup).mp
      ((hget i h).trans (hget j h').symm)
  · rw [decide_eq_false hextended] at h h'
    have hsmall : options ≤ 16 := Nat.le_of_not_lt hextended
    have hbyte : ∀ k < 16, ∀ l < 16, Fin.ofNat 256 ((byte 'A').val + k) =
        Fin.ofNat 256 ((byte 'A').val + l) → k = l := by decide
    have hlabels := Except.ok.inj (h.trans h'.symm)
    exact hbyte i (by omega) j (by omega) (List.singleton_inj.mp hlabels)

/-! ## Slots -/

theorem SlotsOf.length_eq {extended : Bool} {options : List DecisionOption}
    {slots : List RenderedAnswerSlot} (h : SlotsOf extended options slots) :
    slots.length = options.length := by
  rw [← List.Forall₂.length_eq h, List.length_zipIdx]

theorem SlotsOf.getElem? {extended : Bool} {options : List DecisionOption}
    {slots : List RenderedAnswerSlot} (h : SlotsOf extended options slots) {i : Nat}
    {slot : RenderedAnswerSlot} {option : DecisionOption} (hslot : slots[i]? = some slot)
    (hoption : options[i]? = some option) : slot.inputIndex = i ∧ slot.optionId = option.id ∧
      answerLabel i extended = .ok slot.label := by
  have hzip : options.zipIdx[i]? = some (option, i) := by
    rw [List.getElem?_zipIdx, hoption]
    simp
  have hanswer : answerSlot extended (option, i) = .ok slot := by
    obtain ⟨hi, hslot⟩ := List.getElem?_eq_some_iff.mp hslot
    obtain ⟨hi', hzip⟩ := List.getElem?_eq_some_iff.mp hzip
    have hget := List.Forall₂.get h hi' hi
    rwa [List.get_eq_getElem, List.get_eq_getElem, hzip, hslot] at hget
  obtain ⟨label, hlabel, hslot⟩ := bind_eq_ok.mp hanswer
  cases hslot
  exact ⟨rfl, rfl, hlabel⟩

/-- A slot shows a label of the scheme. -/
theorem SlotsOf.exists_label {extended : Bool} {options : List DecisionOption}
    {slots : List RenderedAnswerSlot} (h : SlotsOf extended options slots)
    {slot : RenderedAnswerSlot} (hslot : slot ∈ slots) :
    ∃ index < options.length, answerLabel index extended = .ok slot.label := by
  obtain ⟨index, hindex, hget⟩ := List.getElem_of_mem hslot
  have hlt : index < options.length := by rwa [← h.length_eq]
  have hat := h.getElem? (List.getElem?_eq_some_iff.mpr ⟨hindex, hget⟩)
    (List.getElem?_eq_getElem hlt)
  exact ⟨index, hlt, hat.2.2⟩

theorem SlotsOf.nodup {options : List DecisionOption} {slots : List RenderedAnswerSlot}
    (h : SlotsOf (decide (legacyDecisionOptions < options.length)) options slots) :
    (slots.map (·.label)).Nodup := by
  have hlabel : ∀ i (hi : i < slots.length), i < options.length ∧
      answerLabel i (decide (legacyDecisionOptions < options.length)) = .ok slots[i].label := by
    intro i hi
    have hi' : i < options.length := by rwa [← h.length_eq]
    exact ⟨hi', (h.getElem? (List.getElem?_eq_getElem hi) (List.getElem?_eq_getElem hi')).2.2⟩
  apply List.pairwise_map.mpr
  rw [List.pairwise_iff_getElem]
  intro i j hi hj hlt heq
  have hlabel' := (hlabel j hj).2
  rw [← heq] at hlabel'
  have hij := answerLabel_injective (hlabel i hi).1 (hlabel j hj).1 (hlabel i hi).2 hlabel'
  omega

/-! ## The list -/

/-- The option list the model sees. -/
def optionList (slots : List RenderedAnswerSlot) (options : List DecisionOption) : Json.Value D :=
  .array ((slots.zip options).map fun p => renderedOption p.1.label p.2.description)

theorem renderedOption_eq (label description : Bytes) :
    (renderedOption label description : Json.Value D) =
      .object [(bytes "description", .string description), (bytes "letter", .string label)] := rfl

theorem optionList_regular (slots : List RenderedAnswerSlot) (options : List DecisionOption) :
    (optionList slots options : Json.Value D).Regular fun _ => False := by
  refine .array fun item hm => ?_
  obtain ⟨p, _, rfl⟩ := List.mem_map.mp hm
  exact renderedOption_regular _ _ _

/-- What the option list says about an option. -/
def shownDescription : Json.Value D → Bytes
  | .object ((_, .string description) :: _) => description
  | _ => []

theorem descriptions_eq {slots slots' : List RenderedAnswerSlot} {options options' : List DecisionOption}
    (hlen : slots.length = options.length) (hlen' : slots'.length = options'.length)
    (h : (optionList slots options : Json.Value D) = optionList slots' options') :
    options.map (·.description) = options'.map (·.description) := by
  have hshown : ∀ (slots : List RenderedAnswerSlot) (options : List DecisionOption),
      slots.length = options.length →
      ((slots.zip options).map fun p =>
        (renderedOption p.1.label p.2.description : Json.Value D)).map shownDescription =
          options.map (·.description) := by
    intro slots options hlen
    calc _ = ((slots.zip options).map Prod.snd).map (·.description) := by
          rw [List.map_map, List.map_map]
          rfl
      _ = options.map (·.description) := by rw [List.map_snd_zip hlen.ge]
  rw [← hshown slots options hlen, ← hshown slots' options' hlen', Json.Value.array.inj h]

/-! ## The text -/

theorem marker_ne_state (rest rest' : Bytes) :
    bytes "<|image><|image|><image|>\n" ++ rest ≠ bytes "State:\n" ++ rest' := by
  intro h
  have hhead : some (byte '<') = some (byte 'S') := congrArg List.head? h
  exact absurd hhead (by decide)

theorem promptHead_inj {state question list list' : Bytes} {extended hasImage hasImage' : Bool}
    (h : promptHead state question hasImage extended ++ list =
      promptHead state question hasImage' extended ++ list') : list = list' := by
  simp only [promptHead, List.append_assoc, List.append_cancel_left_eq] at h
  cases hasImage with
  | false =>
    cases hasImage' with
    | false => simpa using h
    | true => exact absurd h.symm (marker_ne_state _ _)
  | true =>
    cases hasImage' with
    | false => exact absurd h (marker_ne_state _ _)
    | true => simpa using h

theorem render_reads_back {lib : Json.NumberLibrary D} {state question : Bytes}
    {options : List DecisionOption} {hasImage present : Bool} {policy : PromptPolicy}
    {file : Option Bytes} {prompt : RenderedPrompt}
    (h : render lib state question options hasImage policy file present = .ok prompt) :
    SlotsOf (decide (legacyDecisionOptions < options.length)) options prompt.answerSlots ∧
      ∃ list, prompt.text = promptHead state question hasImage
          (decide (legacyDecisionOptions < options.length)) ++ list ++
            bytes "<turn|>\n<|turn>model\n" ∧
        Json.parse lib list = .ok (optionList prompt.answerSlots options) := by
  obtain ⟨-, -, -, -, hslots, list, hlist, htext, -⟩ := render_eq_ok h
  obtain ⟨text, hstringify, hparse⟩ := Json.stringify_reads_back
    (fun _ hfalse => hfalse.elim) (optionList_regular prompt.answerSlots options)
  obtain rfl : list = text := Except.ok.inj (hlist.symm.trans hstringify)
  exact ⟨hslots, list, htext, hparse⟩

/-- Between the fixed prefix and the end of the turn stands a JSON text of the options under
the labels of the slots, so no two lists of descriptions have the same prompt. -/
theorem render_optionList (lib : Json.NumberLibrary D) {state question : Bytes}
    {options : List DecisionOption} (hstate : state ≠ []) (hquestion : question ≠ [])
    (hmin : 2 ≤ options.length) (hmax : options.length ≤ 512) (hasImage : Bool)
    (policy : PromptPolicy) (file : Option Bytes) (present : Bool) :
    ∃ (prompt : RenderedPrompt) (list : Bytes) (items : List (Json.Value D)),
      render lib state question options hasImage policy file present = .ok prompt ∧
      prompt.text = promptHead state question hasImage (decide (16 < options.length)) ++ list ++
        bytes "<turn|>\n<|turn>model\n" ∧
      Json.parse lib list = .ok (.array items) ∧
      items.length = options.length ∧ prompt.answerSlots.length = options.length ∧
      (∀ (i : Nat) (slot : RenderedAnswerSlot) (option : DecisionOption),
        prompt.answerSlots[i]? = some slot → options[i]? = some option →
          items[i]? = some (.object [(bytes "description", .string option.description),
            (bytes "letter", .string slot.label)]) ∧
          slot.inputIndex = i ∧ slot.optionId = option.id) ∧
      (prompt.answerSlots.map (·.label)).Nodup ∧
      ∀ (options' : List DecisionOption) (hasImage' : Bool) (policy' : PromptPolicy)
        (file' : Option Bytes) (present' : Bool) (prompt' : RenderedPrompt),
        options'.length = options.length →
        render lib state question options' hasImage' policy' file' present' = .ok prompt' →
        prompt'.text = prompt.text →
        options'.map (·.description) = options.map (·.description) := by
  obtain ⟨prompt, hprompt⟩ :
      ∃ prompt, render lib state question options hasImage policy file present = .ok prompt :=
    exists_render hstate hquestion hmin hmax
  obtain ⟨hslots, list, htext, hparse⟩ := render_reads_back hprompt
  have hlen := hslots.length_eq
  refine ⟨prompt, list, _, hprompt, htext, hparse, by simp [hlen], hlen, ?_, hslots.nodup, ?_⟩
  · intro i slot option hslot hoption
    obtain ⟨hindex, hid, -⟩ := hslots.getElem? hslot hoption
    have hzip : (prompt.answerSlots.zip options)[i]? = some (slot, option) :=
      List.getElem?_zip_eq_some.mpr ⟨hslot, hoption⟩
    rw [List.getElem?_map, hzip]
    exact ⟨rfl, hindex, hid⟩
  · intro options' hasImage' policy' file' present' prompt' hcount hprompt' hsame
    obtain ⟨hslots', list', htext', hparse'⟩ := render_reads_back hprompt'
    rw [htext, htext', hcount, List.append_left_inj] at hsame
    obtain rfl := promptHead_inj hsame
    exact descriptions_eq hslots'.length_eq hlen (Except.ok.inj (hparse'.symm.trans hparse))

theorem render_optionList_two :
    ∃ (prompt : RenderedPrompt) (list : Bytes) (items : List (Json.Value (Fin 10))),
      render Json.digitNumbers (bytes "\n\nQuestion:\n") (bytes "q")
        [⟨bytes "a", [0xff, 0x22]⟩, ⟨bytes "b", bytes "\\\n"⟩] true {} none false = .ok prompt ∧
      Json.parse Json.digitNumbers list = .ok (.array items) ∧ items.length = 2 := by
  obtain ⟨prompt, list, items, hprompt, -, hparse, hlen, -⟩ :=
    @render_optionList _ Json.digitNumbers (bytes "\n\nQuestion:\n") (bytes "q")
      [⟨bytes "a", [0xff, 0x22]⟩, ⟨bytes "b", bytes "\\\n"⟩] (by decide) (by decide)
      (by decide) (by decide) true {} none false
  exact ⟨prompt, list, items, hprompt, hparse, hlen⟩

end Gemma4PromptRenderer

end Branchscore
