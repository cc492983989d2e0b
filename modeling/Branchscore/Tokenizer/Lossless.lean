import Branchscore.Foundation.LongestMatch
import Branchscore.Tokenizer.Bpe
import Branchscore.Tokenizer.Tokenize

/-!
# Tokenization loses no byte

The ids come from a leftmost-longest segmentation of the text. Raw stretches are cut
into newline runs and every run into chunks, each emitted as one id or byte by byte,
so the chunks spell the text back.
-/

namespace Branchscore

open Foundation Foundation.Outcome Foundation.Search Foundation.Scan Foundation.PairMerging
set_option autoImplicit false

/-- A stretch of the escaped text and the ids it is emitted as. -/
structure Chunk where
  text : Bytes
  ids : List TokenId
  deriving Repr, DecidableEq

/-- Both bytes are newlines or neither is. -/
def SameKind (a b : Byte) : Prop := (a = byte '\n') ↔ (b = byte '\n')

instance : Std.Symm SameKind := ⟨fun _ _ h => Iff.symm h⟩

instance : Trans SameKind SameKind SameKind := ⟨fun h h' => Iff.trans h h'⟩

/-- The maximal newline and non-newline runs of a text. -/
structure NewlineRuns (text : Bytes) (runs : List Bytes) : Prop where
  flatten : runs.flatten = text
  nonempty : ∀ run ∈ runs, run ≠ []
  uniform : ∀ run ∈ runs, ∀ a ∈ run, ∀ b ∈ run, SameKind a b
  maximal : runs.IsChain fun left right => ∀ a ∈ left, ∀ b ∈ right, ¬SameKind a b

theorem splitBy_newlineRuns (text : Bytes) :
    NewlineRuns text (text.splitBy fun a b => (a = byte '\n') == (b = byte '\n')) := by
  have huniform : ∀ run ∈ text.splitBy fun a b => (a = byte '\n') == (b = byte '\n'),
      ∀ a ∈ run, ∀ b ∈ run, SameKind a b := by
    intro run hrun a ha b hb
    have hchain : run.IsChain SameKind :=
      (List.isChain_of_mem_splitBy hrun).imp fun a b h => by simpa [SameKind] using h
    exact List.Pairwise.forall_of_forall (R := SameKind) (fun _ _ => Iff.rfl) hchain.pairwise ha hb
  refine ⟨List.flatten_splitBy _ _, fun run => List.ne_nil_of_mem_splitBy, huniform, ?_⟩
  refine (List.isChain_getLast_head_splitBy _ text).imp_of_mem_imp ?_
  rintro left right hleft hright ⟨hl, hr, hdiffer⟩ a ha b hb hsame
  have hlast := huniform left hleft a ha _ (List.getLast_mem hl)
  have hhead := huniform right hright _ (List.head_mem hr) b hb
  have : SameKind (left.getLast hl) (right.head hr) :=
    hlast.symm.trans (hsame.trans hhead.symm)
  unfold SameKind at this
  simp [this] at hdiffer

/-- What a piece stands for once the spaces of raw stretches are escaped. -/
def escapedText : Piece Byte SpecialToken → Bytes
  | .raw raw => escapeSpaces raw
  | .hit special => special.text

namespace GemmaTokenizer
variable (t : GemmaTokenizer)

/-- The chunks spell the run, and each is emitted as its ids. -/
def RunChunks (run : Bytes) (chunks : List Chunk) : Prop :=
  chunks.flatMap Chunk.text = run ∧ ∀ chunk ∈ chunks, t.Emits chunk.text chunk.ids

/-- The runs of a raw stretch are cut into chunks one by one; a special token is one. -/
def PieceChunks : Piece Byte SpecialToken → List Chunk → Prop
  | .raw raw, chunks => ∃ runs groups, NewlineRuns (escapeSpaces raw) runs ∧
      List.Forall₂ t.RunChunks runs groups ∧ chunks = groups.flatten
  | .hit special, chunks => chunks = [⟨special.text, [special.id]⟩]

theorem exists_chunks {texts : List Bytes} {groups : List (List TokenId)}
    (h : List.Forall₂ t.Emits texts groups) :
    ∃ chunks, t.RunChunks texts.flatten chunks ∧ groups.flatten = chunks.flatMap Chunk.ids := by
  induction h with
  | nil => exact ⟨[], ⟨rfl, by simp⟩, rfl⟩
  | @cons text ids texts groups hemits _ ih =>
    obtain ⟨chunks, ⟨htext, hchunks⟩, hids⟩ := ih
    refine ⟨⟨text, ids⟩ :: chunks, ⟨?_, List.forall_mem_cons.mpr ⟨hemits, hchunks⟩⟩, ?_⟩
    · rw [List.flatMap_cons, htext, List.flatten_cons]
    · rw [List.flatten_cons, hids, List.flatMap_cons]

theorem tokenizeSegment_chunks {segment : Bytes} {ids : List TokenId}
    (h : t.tokenizeSegment segment = .ok ids) :
    ∃ chunks, t.RunChunks segment chunks ∧ ids = chunks.flatMap Chunk.ids := by
  rw [tokenizeSegment_eq_ok] at h
  split at h
  · rename_i id hid
    have hpiece : t.pieceToId segment = some id := by
      unfold newlineToken at hid
      split at hid
      · exact hid
      · cases hid
    refine ⟨[⟨segment, [id]⟩], ⟨by simp, ?_⟩, by simpa using h⟩
    intro chunk hmem
    rw [List.mem_singleton.mp hmem]
    exact Or.inl ⟨id, hpiece, rfl⟩
  · obtain ⟨groups, hgroups, rfl⟩ := h
    obtain ⟨chunks, hchunks, hids⟩ := t.exists_chunks hgroups
    rw [mergedTexts_flatten] at hchunks
    exact ⟨chunks, hchunks, hids⟩

theorem exists_groups {runs : List Bytes} {parts : List (List TokenId)}
    (h : List.Forall₂ (fun run ids => t.tokenizeSegment run = .ok ids) runs parts) :
    ∃ groups, List.Forall₂ t.RunChunks runs groups ∧
      parts.flatten = groups.flatten.flatMap Chunk.ids := by
  induction h with
  | nil => exact ⟨[], .nil, rfl⟩
  | cons hrun _ ih =>
    obtain ⟨chunks, hchunks, rfl⟩ := t.tokenizeSegment_chunks hrun
    obtain ⟨groups, hgroups, hids⟩ := ih
    refine ⟨chunks :: groups, .cons hchunks hgroups, ?_⟩
    rw [List.flatten_cons, List.flatten_cons, List.flatMap_append, hids]

theorem tokenizeRaw_chunks {raw : Bytes} {ids : List TokenId} (h : t.tokenizeRaw raw = .ok ids) :
    ∃ chunks, t.PieceChunks (.raw raw) chunks ∧ ids = chunks.flatMap Chunk.ids := by
  unfold tokenizeRaw at h
  simp only [bind_eq_ok, mapM_eq_ok, pure_eq_ok, Except.ok.injEq] at h
  obtain ⟨parts, hparts, rfl⟩ := h
  obtain ⟨groups, hgroups, hids⟩ := t.exists_groups hparts
  exact ⟨groups.flatten, ⟨_, groups, splitBy_newlineRuns _, hgroups, rfl⟩, hids⟩

theorem emit_chunks {pieces : List (Piece Byte SpecialToken)} {ids : List TokenId}
    (h : t.emit pieces = .ok ids) :
    ∃ groups, List.Forall₂ t.PieceChunks pieces groups ∧
      ids = groups.flatten.flatMap Chunk.ids := by
  induction pieces generalizing ids with
  | nil =>
    cases h
    exact ⟨[], .nil, rfl⟩
  | cons piece pieces ih =>
    simp only [emit, bind_eq_ok, pure_eq_ok, Except.ok.injEq] at h
    obtain ⟨head, hhead, tail, htail, rfl⟩ := h
    obtain ⟨groups, hgroups, rfl⟩ := ih htail
    have hchunks : ∃ chunks, t.PieceChunks piece chunks ∧ head = chunks.flatMap Chunk.ids := by
      cases piece with
      | raw raw => exact t.tokenizeRaw_chunks hhead
      | hit special =>
        cases hhead
        exact ⟨_, rfl, by simp⟩
    obtain ⟨chunks, hchunks, rfl⟩ := hchunks
    refine ⟨chunks :: groups, .cons hchunks hgroups, ?_⟩
    rw [List.flatten_cons, List.flatMap_append]

theorem PieceChunks.flatMap_text {t : GemmaTokenizer} {piece : Piece Byte SpecialToken}
    {chunks : List Chunk} (h : t.PieceChunks piece chunks) :
    chunks.flatMap Chunk.text = escapedText piece := by
  cases piece with
  | hit special =>
    cases h
    simp [escapedText]
  | raw raw =>
    obtain ⟨runs, groups, hruns, hgroups, rfl⟩ := h
    rw [escapedText, ← hruns.flatten]
    clear hruns
    induction hgroups with
    | nil => rfl
    | cons hrun _ ih => rw [List.flatten_cons, List.flatMap_append, hrun.1, ih, List.flatten_cons]

theorem eligible_longestFirst (parseSpecial : Bool) :
    LongestFirst SpecialToken.text (t.eligible parseSpecial) := by
  constructor
  · have htotal : Std.Total fun left right : SpecialToken => right.text.length ≤ left.text.length :=
      ⟨fun _ _ => Nat.le_total _ _⟩
    have htrans : IsTrans SpecialToken fun left right => right.text.length ≤ left.text.length :=
      ⟨fun _ _ _ h h' => Nat.le_trans h' h⟩
    exact (List.pairwise_insertionSort _ t.unsortedSpecialTokens).sublist List.filter_sublist
  · intro a ha b hb h
    exact t.specialToken_ext (List.mem_of_mem_filter ha) (List.mem_of_mem_filter hb) h

/-- Tokens that a text was tokenized to come from its only leftmost-longest segmentation
into eligible special tokens and raw stretches free of them. The chunks of its pieces
give the ids after the BOS, and spell the text with the spaces of raw stretches escaped. -/
theorem tokenize_lossless {text : Bytes} {addBos parseSpecial : Bool} {ids : List TokenId}
    (hspecials : ∀ special ∈ t.specialTokens, special.text ≠ [])
    (h : t.tokenize text addBos parseSpecial = .ok ids) :
    ∃ pieces groups,
      LeftmostLongest SpecialToken.text (t.eligible parseSpecial) text pieces ∧
      (∀ pieces', LeftmostLongest SpecialToken.text (t.eligible parseSpecial) text pieces' →
        pieces' = pieces) ∧
      (∀ raw, .raw raw ∈ pieces → ∀ special ∈ t.eligible parseSpecial,
        ¬Occurs special.text raw) ∧
      pieces.flatMap (Piece.toText SpecialToken.text) = text ∧
      List.Forall₂ t.PieceChunks pieces groups ∧
      ids = (if addBos then [t.bos] else []) ++ groups.flatten.flatMap Chunk.ids ∧
      groups.flatten.flatMap Chunk.text = pieces.flatMap escapedText := by
  have hne : t.NonemptySpecials parseSpecial := fun special hmem =>
    hspecials special (List.mem_of_mem_filter hmem)
  have hlongest := t.eligible_longestFirst parseSpecial
  obtain ⟨pieces, hpieces⟩ := Segments.total hne text
  rw [t.tokenize_eq_emit hne hpieces] at h
  cases hemit : t.emit pieces with
  | error e =>
    rw [hemit] at h
    cases h
  | ok tail =>
    rw [hemit] at h
    cases h
    obtain ⟨groups, hgroups, rfl⟩ := t.emit_chunks hemit
    have hout := (leftmostLongest_iff hlongest).mpr hpieces
    refine ⟨pieces, groups, hout, fun pieces' h' => ?_, fun raw hraw => hout.raw_free hne hraw,
      hpieces.flatMap_toText, hgroups, rfl, ?_⟩
    · exact ((leftmostLongest_iff hlongest).mp h').deterministic hpieces
    · clear hout hpieces hemit
      induction hgroups with
      | nil => rfl
      | cons hpiece _ ih =>
        rw [List.flatten_cons, List.flatMap_append, hpiece.flatMap_text, ih, List.flatMap_cons]

end GemmaTokenizer

theorem tokenize_lossless_sample :
    ∃ pieces groups,
      LeftmostLongest SpecialToken.text (sampleTokenizer.eligible true) samplePrompt pieces ∧
      (∀ pieces', LeftmostLongest SpecialToken.text (sampleTokenizer.eligible true) samplePrompt
        pieces' → pieces' = pieces) ∧
      (∀ raw, .raw raw ∈ pieces → ∀ special ∈ sampleTokenizer.eligible true,
        ¬Occurs special.text raw) ∧
      pieces.flatMap (Piece.toText SpecialToken.text) = samplePrompt ∧
      List.Forall₂ sampleTokenizer.PieceChunks pieces groups ∧
      [0, 12, 3, 5, 6, 7, 8, 10] = [] ++ groups.flatten.flatMap Chunk.ids ∧
      groups.flatten.flatMap Chunk.text = pieces.flatMap escapedText :=
  sampleTokenizer.tokenize_lossless (by decide) samplePrompt_tokens

end Branchscore
