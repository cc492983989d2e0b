import Branchscore.DecisionEngine
import Branchscore.Tokenizer.Isolated

/-!
# The image placeholder

The renderer writes the three markers of an image in front of the state. Where no other
special token overlaps them, the checks of the engine leave one way to split the tokens:
at the placeholder of the renderer.
-/

namespace Branchscore

open Foundation Outcome Foundation.Search Foundation.Scan
set_option autoImplicit false

namespace Gemma4DecisionEngine

/-! ## The text around the placeholder -/

/-- The text in front of the image markers. -/
def imageHead (extended : Bool) : Bytes :=
  bytes "<bos><|turn>system\n" ++
  bytes "Apply the supplied criterion to the supplied evidence. Choose exactly one listed option. Respond with only its uppercase " ++
  (if extended then bytes "label" else bytes "letter") ++
  bytes ", with no explanation or reasoning." ++
  bytes "<turn|>\n<|turn>user\n"

/-- The text from the state on. -/
def userTail (state question list : Bytes) : Bytes :=
  bytes "State:\n" ++ (state ++ (bytes "\n\nQuestion:\n" ++ (question ++
    (bytes "\n\nOptions:\n" ++ (list ++ bytes "<turn|>\n<|turn>model\n")))))

theorem imageMarkers_eq : bytes "<|image><|image|><image|>\n" =
    imageBeginText ++ (imageText ++ (imageEndText ++ bytes "\n")) := by decide

theorem promptHead_eq (state question list : Bytes) (hasImage extended : Bool) :
    Gemma4PromptRenderer.promptHead state question hasImage extended ++ list ++
        bytes "<turn|>\n<|turn>model\n" =
      imageHead extended ++ ((if hasImage then
        imageBeginText ++ (imageText ++ (imageEndText ++ bytes "\n")) else []) ++
          userTail state question list) := by
  rw [← imageMarkers_eq]
  simp only [Gemma4PromptRenderer.promptHead, imageHead, userTail, List.append_assoc]

/-! ## The split -/

section Split
variable {t : GemmaTokenizer} {ids tokensBefore tokensAfter : List TokenId}

/-- The one placeholder among the tokens, between its boundary tokens. -/
structure SplitsAtImage (t : GemmaTokenizer) (ids tokensBefore tokensAfter : List TokenId)
    (imageId : TokenId) : Prop where
  token : t.findToken imageText = some imageId
  ids_eq : ids = tokensBefore ++ imageId :: tokensAfter
  notMem_before : imageId ∉ tokensBefore
  notMem_after : imageId ∉ tokensAfter
  before : ∃ imageBegin, t.findToken imageBeginText = some imageBegin ∧
    tokensBefore.getLast? = some imageBegin
  after : ∃ imageEnd, t.findToken imageEndText = some imageEnd ∧
    tokensAfter.head? = some imageEnd

theorem exists_split_of_count {imageId : TokenId} (h : ids.count imageId = 1) :
    ∃ tokensBefore tokensAfter, ids = tokensBefore ++ imageId :: tokensAfter ∧
      imageId ∉ tokensBefore ∧ imageId ∉ tokensAfter := by
  have hmem : imageId ∈ ids := List.count_pos_iff.mp (by omega)
  obtain ⟨tokensBefore, tokensAfter, rfl, hbefore⟩ := List.eq_append_cons_of_mem hmem
  refine ⟨tokensBefore, tokensAfter, rfl, hbefore, ?_⟩
  rw [List.count_append, List.count_cons_self, List.count_eq_zero_of_not_mem hbefore] at h
  exact List.count_eq_zero.mp (by omega)

theorem idxOf_split {imageId : TokenId} (hbefore : imageId ∉ tokensBefore) :
    (tokensBefore ++ imageId :: tokensAfter).idxOf imageId = tokensBefore.length := by
  rw [List.idxOf_append_of_notMem hbefore, List.idxOf_cons_self, Nat.add_zero]

/-- The neighbours of the placeholder are the boundary tokens. -/
theorem boundariesStand_iff {imageId : TokenId} :
    boundariesStand t (tokensBefore ++ imageId :: tokensAfter) tokensBefore.length = true ↔
      (∃ imageBegin, t.findToken imageBeginText = some imageBegin ∧
        tokensBefore.getLast? = some imageBegin) ∧
      ∃ imageEnd, t.findToken imageEndText = some imageEnd ∧
        tokensAfter.head? = some imageEnd := by
  have hafter : (tokensBefore ++ imageId :: tokensAfter)[tokensBefore.length + 1]? =
      tokensAfter.head? := by
    rw [List.getElem?_append_right (by omega), Nat.add_sub_cancel_left, List.getElem?_cons_succ,
      List.head?_eq_getElem?]
  have hbefore (hpos : tokensBefore.length ≠ 0) :
      (tokensBefore ++ imageId :: tokensAfter)[tokensBefore.length - 1]? =
        tokensBefore.getLast? := by
    rw [List.getElem?_append_left (by omega), List.getLast?_eq_getElem?]
  unfold boundariesStand
  cases t.findToken imageBeginText with
  | none => simp
  | some imageBegin =>
    cases t.findToken imageEndText with
    | none => simp
    | some imageEnd =>
      simp only [Bool.and_eq_true, decide_eq_true_eq, Option.some.injEq, exists_eq_left', hafter]
      constructor
      · intro ⟨⟨⟨hpos, _⟩, hlast⟩, hhead⟩
        rw [hbefore hpos] at hlast
        exact ⟨hlast, hhead⟩
      · intro ⟨hlast, hhead⟩
        have hpos : tokensBefore.length ≠ 0 := by
          intro hzero
          rw [List.length_eq_zero_iff.mp hzero] at hlast
          cases hlast
        have hne : tokensAfter ≠ [] := by
          intro hnil
          rw [hnil] at hhead
          cases hhead
        have hlength := List.length_pos_of_ne_nil hne
        refine ⟨⟨⟨hpos, ?_⟩, (hbefore hpos).trans hlast⟩, hhead⟩
        rw [List.length_append, List.length_cons]
        omega

/-- With an image the checks leave the split at the only placeholder. -/
theorem splitAtImage_image : splitAtImage t true ids = .ok (tokensBefore, tokensAfter) ↔
    ∃ imageId, SplitsAtImage t ids tokensBefore tokensAfter imageId := by
  unfold splitAtImage
  simp only [bind_eq_ok, throwIf_eq_ok, exists_const, true_and, pure_eq_ok, Except.ok.injEq,
    Prod.mk.injEq, not_not, reduceCtorEq, false_and, not_false_eq_true, Bool.not_eq_false]
  cases himage : t.findToken imageText with
  | none =>
    constructor
    · intro ⟨hcount, _⟩
      cases hcount
    · intro ⟨imageId, hsplit⟩
      rw [hsplit.token] at himage
      cases himage
  | some imageId =>
    simp only [Option.map_some, Option.getD_some]
    constructor
    · intro ⟨hcount, hstands, hbefore, hafter⟩
      obtain ⟨before, after, rfl, hnotBefore, hnotAfter⟩ := exists_split_of_count hcount
      rw [idxOf_split hnotBefore] at hstands hbefore hafter
      obtain ⟨hbegin, hend⟩ := boundariesStand_iff.mp hstands
      rw [List.take_left] at hbefore
      rw [List.drop_length_add_append, List.drop_one, List.tail_cons] at hafter
      subst hbefore
      subst hafter
      exact ⟨imageId, himage, rfl, hnotBefore, hnotAfter, hbegin, hend⟩
    · intro ⟨id, htoken, hids, hnotBefore, hnotAfter, hbegin, hend⟩
      rw [himage] at htoken
      cases htoken
      subst hids
      rw [idxOf_split hnotBefore]
      refine ⟨?_, boundariesStand_iff.mpr ⟨hbegin, hend⟩, ?_, ?_⟩
      · rw [List.count_append, List.count_cons_self, List.count_eq_zero_of_not_mem hnotBefore,
          List.count_eq_zero_of_not_mem hnotAfter]
      · rw [List.take_left]
      · rw [List.drop_length_add_append, List.drop_one, List.tail_cons]

/-- Without an image the checks leave no placeholder. -/
theorem splitAtImage_text : splitAtImage t false ids = .ok (tokensBefore, tokensAfter) ↔
    (∀ imageId, t.findToken imageText = some imageId → imageId ∉ ids) ∧
      tokensBefore = ids ∧ tokensAfter = [] := by
  unfold splitAtImage
  simp only [bind_eq_ok, throwIf_eq_ok, exists_const, true_and, pure_eq_ok, Except.ok.injEq,
    Prod.mk.injEq, not_not, reduceCtorEq, false_and, not_false_eq_true]
  cases himage : t.findToken imageText with
  | none =>
    simp only [Option.map_none, Option.getD_none, List.take_length]
    constructor
    · intro ⟨_, hbefore, hafter⟩
      rw [List.drop_eq_nil_of_le (Nat.le_succ _)] at hafter
      exact ⟨nofun, hbefore.symm, hafter.symm⟩
    · intro ⟨_, hbefore, hafter⟩
      rw [List.drop_eq_nil_of_le (Nat.le_succ _)]
      exact ⟨trivial, hbefore.symm, hafter.symm⟩
  | some imageId =>
    simp only [Option.map_some, Option.getD_some, List.count_eq_zero, Option.some.injEq,
      forall_eq']
    constructor
    · intro ⟨hnotMem, hbefore, hafter⟩
      have hindex := List.idxOf_eq_length hnotMem
      rw [hindex, List.take_length] at hbefore
      rw [hindex, List.drop_eq_nil_of_le (Nat.le_succ _)] at hafter
      exact ⟨hnotMem, hbefore.symm, hafter.symm⟩
    · intro ⟨hnotMem, hbefore, hafter⟩
      have hindex := List.idxOf_eq_length hnotMem
      rw [hindex, List.take_length, List.drop_eq_nil_of_le (Nat.le_succ _)]
      exact ⟨hnotMem, hbefore.symm, hafter.symm⟩

end Split

/-! ## The markers of the renderer -/

section Markers
variable {t : GemmaTokenizer}

def SpecialText (t : GemmaTokenizer) (text : Bytes) : Prop :=
  ∃ special ∈ t.specialTokens, special.text = text

/-- No other special token overlaps the text between what stands before and behind it. -/
def Alone (t : GemmaTokenizer) (before text after : Bytes) : Prop :=
  Isolated SpecialToken.text t.specialTokens before text after

theorem tokenize_nil : t.tokenize [] false true = .ok [] := rfl

/-- A marker is one token between the tokens of what stands around it. -/
theorem tokenize_alone {before text after : Bytes} (h : Alone t before text after)
    (htext : SpecialText t text) (hsize : 2 ≤ text.length) {ids : List TokenId} :
    t.tokenize (before ++ (text ++ after)) false true = .ok ids ↔
      ∃ id idsBefore idsAfter, t.findToken text = some id ∧
        t.tokenize before false true = .ok idsBefore ∧
        t.tokenize after false true = .ok idsAfter ∧ ids = idsBefore ++ id :: idsAfter := by
  obtain ⟨special, hmem, rfl⟩ := htext
  rw [t.tokenize_isolated h hmem hsize, t.findToken_special hmem]
  simp only [Option.some.injEq, exists_and_left, exists_eq_left']

theorem tokenize_last {before text : Bytes} (h : Alone t before text []) (htext : SpecialText t text)
    (hsize : 2 ≤ text.length) {ids : List TokenId} :
    t.tokenize (before ++ text) false true = .ok ids ↔
      ∃ id idsBefore, t.findToken text = some id ∧
        t.tokenize before false true = .ok idsBefore ∧ ids = idsBefore ++ [id] := by
  have halone := @tokenize_alone t before text [] h htext hsize ids
  rw [List.append_nil, tokenize_nil] at halone
  rw [halone]
  simp only [Except.ok.injEq, exists_and_left, exists_eq_left']

theorem tokenize_first {text after : Bytes} (h : Alone t [] text after) (htext : SpecialText t text)
    (hsize : 2 ≤ text.length) {ids : List TokenId} :
    t.tokenize (text ++ after) false true = .ok ids ↔
      ∃ id idsAfter, t.findToken text = some id ∧
        t.tokenize after false true = .ok idsAfter ∧ ids = id :: idsAfter := by
  have halone := @tokenize_alone t [] text after h htext hsize ids
  rw [List.nil_append, tokenize_nil] at halone
  rw [halone]
  simp only [Except.ok.injEq, exists_and_left, exists_eq_left', List.nil_append]

end Markers

section Spliced
variable {D : Type} {lib : Json.NumberLibrary D} {state question : Bytes}
  {options : List DecisionOption} {hasImage present : Bool} {policy : PromptPolicy}
  {file : Option Bytes} {rendered : RenderedPrompt} {t : GemmaTokenizer}

/-- The rendered text of a request with an image, cut at its markers. -/
theorem exists_tail (h : Gemma4PromptRenderer.render lib state question options true policy file
    present = .ok rendered) : ∃ list, rendered.text =
      imageHead (decide (legacyDecisionOptions < options.length)) ++
        (imageBeginText ++ (imageText ++ (imageEndText ++
          (bytes "\n" ++ userTail state question list)))) := by
  obtain ⟨_, _, _, _, _, list, _, htext, _⟩ := Gemma4PromptRenderer.render_eq_ok h
  refine ⟨list, ?_⟩
  rw [htext, promptHead_eq]
  simp only [if_true, List.append_assoc]

/-- The checks of the engine leave the split at the placeholder that the renderer has written
in front of the state, between its boundary tokens, and no other token is a placeholder. A
request without an image has no placeholder at all. -/
theorem splitAtImage_spliced (hrender : Gemma4PromptRenderer.render lib state question options
      hasImage policy file present = .ok rendered) (himage : SpecialText t imageText)
    (halone : ∀ head tail, head = imageHead (decide (legacyDecisionOptions < options.length)) →
      rendered.text = head ++ (imageBeginText ++ (imageText ++ (imageEndText ++ tail))) →
        Alone t (head ++ imageBeginText) imageText (imageEndText ++ tail))
    {ids tokensBefore tokensAfter : List TokenId}
    (hids : t.tokenize rendered.text false true = .ok ids)
    (hsplit : splitAtImage t hasImage ids = .ok (tokensBefore, tokensAfter)) :
    (hasImage = true → ∃ imageId imageBegin imageEnd list,
      let head := imageHead (decide (legacyDecisionOptions < options.length))
      let tail := bytes "\n" ++ userTail state question list
      rendered.text = head ++ (imageBeginText ++ (imageText ++ (imageEndText ++ tail))) ∧
      t.findToken imageText = some imageId ∧ t.findToken imageBeginText = some imageBegin ∧
      t.findToken imageEndText = some imageEnd ∧
      tokensBefore ++ [imageId] ++ tokensAfter = ids ∧
      t.tokenize (head ++ imageBeginText) false true = .ok tokensBefore ∧
      t.tokenize (imageEndText ++ tail) false true = .ok tokensAfter ∧
      tokensBefore.getLast? = some imageBegin ∧ tokensAfter.head? = some imageEnd ∧
      imageId ∉ tokensBefore ∧ imageId ∉ tokensAfter) ∧
    (hasImage = false → tokensBefore = ids ∧ tokensAfter = [] ∧
      ∀ imageId, t.findToken imageText = some imageId → imageId ∉ ids) := by
  cases hasImage with
  | false =>
    obtain ⟨hnotMem, hbefore, hafter⟩ := splitAtImage_text.mp hsplit
    exact ⟨nofun, fun _ => ⟨hbefore, hafter, hnotMem⟩⟩
  | true =>
    refine ⟨fun _ => ?_, nofun⟩
    obtain ⟨list, htext⟩ := exists_tail hrender
    rw [htext, ← List.append_assoc] at hids
    obtain ⟨imageId, idsBefore, idsAfter, htoken, hbefore, hafter, hids⟩ :=
      (tokenize_alone (halone _ _ rfl htext) himage (by decide)).mp hids
    obtain ⟨imageId', hat⟩ := splitAtImage_image.mp hsplit
    obtain ⟨imageBegin, hbeginId, hlast⟩ := hat.before
    obtain ⟨imageEnd, hendId, hfirst⟩ := hat.after
    cases hat.token.symm.trans htoken
    have hcut : tokensBefore ++ imageId :: tokensAfter = idsBefore ++ imageId :: idsAfter :=
      hat.ids_eq.symm.trans hids
    obtain ⟨rfl, _, rfl⟩ :=
      (List.append_cons_inj_of_notMem hat.notMem_before hat.notMem_after).mp hcut
    refine ⟨imageId, imageBegin, imageEnd, list, htext, htoken, hbeginId, hendId, ?_, hbefore,
      hafter, hlast, hfirst, hat.notMem_before, hat.notMem_after⟩
    rw [hids, List.append_assoc, List.singleton_append]

end Spliced

/-! ## A vocabulary of characters -/

def markerPieces : List Bytes :=
  ["<bos>", "<eos>", "<|turn>", "<turn|>", "<|image>", "<|image|>", "<image|>"].map bytes

/-- The escaped space, the visible ASCII characters from `a` on, the others and the newline. -/
def characterPieces : List Bytes :=
  [0xE2, 0x96, 0x81] :: ((List.range 30).map (fun i => [Fin.ofNat 256 (0x61 + i)]) ++
    ((List.range 64).map (fun i => [Fin.ofNat 256 (0x21 + i)]) ++ [[0x0A]]))

def characterTokenizer : GemmaTokenizer where
  idToPiece := markerPieces ++ characterPieces
  tokenTypes := List.replicate 7 tokenTypeControl ++ List.replicate 96 1
  merges := []
  bos := 0
  eos := 1
  chatTemplate := none
  unique := by decide +kernel
  typed := by decide +kernel
  bos_lt := by decide +kernel
  eos_lt := by decide +kernel

theorem characterTokenizer_specials : characterTokenizer.specialTokens =
    [⟨imageText, 5, 3⟩, ⟨imageBeginText, 4, 3⟩, ⟨imageEndText, 6, 3⟩, ⟨turnText, 2, 3⟩,
      ⟨bytes "<turn|>", 3, 3⟩, ⟨bytes "<bos>", 0, 3⟩, ⟨bytes "<eos>", 1, 3⟩] := by decide +kernel

def bracketed (word : Bytes) : Bool :=
  2 ≤ word.length && word[0]? = some (byte '<') && word[word.length - 1]? = some (byte '>') &&
    (List.range (word.length - 1)).all fun i => i = 0 || word[i]? ≠ some (byte '<') &&
      word[i]? ≠ some (byte '>')

theorem bracketed_spec {word : Bytes} (h : bracketed word = true) :
    Bracketed (byte '<') (byte '>') word := by
  simp only [bracketed, Bool.and_eq_true, decide_eq_true_eq, List.all_eq_true, List.mem_range,
    Bool.or_eq_true, ne_eq] at h
  obtain ⟨⟨⟨hlong, hfirst⟩, hlast⟩, hinside⟩ := h
  exact ⟨hlong, hfirst, hlast, fun i hpos hi =>
    (hinside i hi).resolve_left (Nat.pos_iff_ne_zero.mp hpos)⟩

theorem characterTokenizer_alone {text : Bytes} (h : bracketed text = true) (before after : Bytes) :
    Alone characterTokenizer before text after := by
  apply isolated_of_bracketed (by decide) _ (bracketed_spec h)
  intro special hmem
  apply bracketed_spec
  rw [characterTokenizer_specials] at hmem
  revert special
  decide +kernel

def unitNumbers : Json.NumberLibrary Unit := ⟨fun _ => true, fun _ => ((), 0), fun _ => bytes "0"⟩

/-- A state that spells the boundary tokens of an image. -/
def spelledState : Bytes := bytes "<|image><image|> <|turn>"

def twoOptions : List DecisionOption := [⟨bytes "a", bytes "a"⟩, ⟨bytes "b", bytes "b"⟩]

/-- The image checks on the spelled state. -/
def spelledRun : Except Exception (List TokenId × List TokenId) := do
  let rendered ← Gemma4PromptRenderer.render unitNumbers spelledState (bytes "q") twoOptions
    true {} none false
  let ids ← characterTokenizer.tokenize rendered.text false true
  splitAtImage characterTokenizer true ids

theorem splitAtImage_spliced_sample : ∃ rendered ids tokensBefore tokensAfter,
    Gemma4PromptRenderer.render unitNumbers spelledState (bytes "q") twoOptions true {} none false =
      .ok rendered ∧
    characterTokenizer.tokenize rendered.text false true = .ok ids ∧
    splitAtImage characterTokenizer true ids = .ok (tokensBefore, tokensAfter) ∧
    ∃ imageId, tokensBefore ++ [imageId] ++ tokensAfter = ids := by
  have hruns : spelledRun.isOk = true := by decide +kernel
  obtain ⟨split, hrun⟩ := exists_of_isOk hruns
  obtain ⟨rendered, hrender, hrun⟩ := bind_eq_ok.mp hrun
  obtain ⟨ids, hids, hsplit⟩ := bind_eq_ok.mp hrun
  have himage : SpecialText characterTokenizer imageText :=
    ⟨⟨imageText, 5, 3⟩, by rw [characterTokenizer_specials]; exact List.mem_cons_self, rfl⟩
  have halone (before after : Bytes) : Alone characterTokenizer before imageText after :=
    characterTokenizer_alone (by decide) before after
  have hspliced := splitAtImage_spliced hrender himage (fun _ _ _ _ => halone _ _) hids hsplit
  obtain ⟨imageId, _, _, _, _, _, _, _, hjoin, _⟩ := hspliced.1 rfl
  exact ⟨rendered, ids, split.1, split.2, hrender, hids, hsplit, imageId, hjoin⟩

end Gemma4DecisionEngine

end Branchscore
