import Branchscore.Gguf

/-!
# The tokenizer read from a GGUF file

`GemmaTokenizer` carries what `from_gguf` checks, so a vocabulary with duplicate
pieces or a BOS outside it cannot be built. The maps of the source are read off the
lists they are filled from.
-/

namespace Branchscore

open Foundation Foundation.Outcome
set_option autoImplicit false

abbrev TokenId := Nat

def tokenTypeUnknown : Int := 2
def tokenTypeControl : Int := 3
def tokenTypeUserDefined : Int := 4

structure SpecialToken where
  text : Bytes
  id : TokenId
  type : Int
  deriving Repr, DecidableEq

structure GemmaTokenizer where
  idToPiece : List Bytes
  tokenTypes : List Int
  merges : List (Bytes × Bytes)
  bos : TokenId
  eos : TokenId
  chatTemplate : Option Bytes
  unique : idToPiece.Nodup
  typed : tokenTypes.length = idToPiece.length
  bos_lt : bos < idToPiece.length
  eos_lt : eos < idToPiece.length
  deriving DecidableEq

namespace GemmaTokenizer

/-- `piece_to_id`: `emplace` keeps the first id of a piece. -/
def pieceToId (t : GemmaTokenizer) (piece : Bytes) : Option TokenId := t.idToPiece.idxOf? piece

/-- `merge_ranks`: `emplace` keeps the first rank of a pair. -/
def mergeRank (t : GemmaTokenizer) (left right : Bytes) : Option Nat :=
  t.merges.idxOf? (left, right)

def isSpecialType (type : Int) : Bool :=
  type = tokenTypeControl || type = tokenTypeUserDefined || type = tokenTypeUnknown

def unsortedSpecialTokens (t : GemmaTokenizer) : List SpecialToken :=
  ((t.idToPiece.zip t.tokenTypes).zipIdx.filter fun e => isSpecialType e.1.2).map
    fun e => ⟨e.1.1, e.2, e.1.2⟩

/-- `special_tokens`, stably sorted by decreasing length of the text. -/
def specialTokens (t : GemmaTokenizer) : List SpecialToken :=
  t.unsortedSpecialTokens.insertionSort fun left right => right.text.length ≤ left.text.length

def piece (t : GemmaTokenizer) (id : TokenId) : Except Exception Bytes :=
  match t.idToPiece[id]? with
  | some piece => .ok piece
  | none => .error (.outOfRange (bytes "token ID is outside the vocabulary"))

def findToken (t : GemmaTokenizer) (piece : Bytes) : Option TokenId := t.pieceToId piece

def isSpecialToken (t : GemmaTokenizer) (id : TokenId) : Bool :=
  t.specialTokens.any fun token => token.id = id

end GemmaTokenizer

/-! ## Reading the metadata -/

def requireTokenizerKey (context : Gguf) (key : String) : Except Exception GgufValue :=
  match context.findKey (bytes key) with
  | some value => .ok value
  | none => runtimeError ("required tokenizer key is missing: " ++ key)

def requireTokenizerString (context : Gguf) (key : String) : Except Exception Bytes := do
  match ← requireTokenizerKey context key with
  | .string value => pure (cString value)
  | _ => runtimeError ("tokenizer key has wrong type: " ++ key)

/-- `none` is the source's fallback id -1. -/
def optionalTokenId (context : Gguf) (key : String) : Except Exception (Option TokenId) := do
  let value ← match context.findKey (bytes key) with
    | none => return none
    | some (.uint32 value) => pure value
    | some (.int32 value) =>
      if value < 0 then runtimeError ("negative tokenizer ID: " ++ key) else pure value.toNat
    | some (.uint64 value) => pure value
    | some _ => runtimeError ("tokenizer ID has wrong type: " ++ key)
  if 2147483647 < value then runtimeError ("tokenizer ID is out of range: " ++ key)
  return some value

def requireTokens (context : Gguf) : Except Exception (List Bytes) := do
  match ← requireTokenizerKey context "tokenizer.ggml.tokens" with
  | .array (.string values) => pure (values.map cString)
  | _ => runtimeError "tokenizer.ggml.tokens is not a string array"

/-- The types of the first `tokenCount` tokens. -/
def requireTokenTypes (context : Gguf) (tokenCount : Nat) :
    Except Exception {types : List Int // types.length = tokenCount} := do
  match ← requireTokenizerKey context "tokenizer.ggml.token_type" with
  | .array (.int32 values) =>
    if h : values.length < tokenCount then runtimeError "tokenizer.ggml.token_type is invalid"
    else pure ⟨values.take tokenCount, by rw [List.length_take]; omega⟩
  | _ => runtimeError "tokenizer.ggml.token_type is invalid"

/-- A merge entry is cut at its first space at index 1 or later. -/
def parseMerge (merge : Bytes) : Except Exception (Bytes × Bytes) :=
  match (merge.drop 1).idxOf? (byte ' ') with
  | none => runtimeError "invalid Gemma 4 BPE merge entry"
  | some i => .ok (merge.take (i + 1), merge.drop (i + 2))

def requireMerges (context : Gguf) : Except Exception (List (Bytes × Bytes)) := do
  match ← requireTokenizerKey context "tokenizer.ggml.merges" with
  | .array (.string values) => values.mapM fun merge => parseMerge (cString merge)
  | _ => runtimeError "tokenizer.ggml.merges is not a string array"

def readChatTemplate (context : Gguf) : Except Exception (Option Bytes) :=
  match context.findKey (bytes "tokenizer.chat_template") with
  | none => .ok none
  | some (.string value) => .ok (some (cString value))
  | some _ => runtimeError "tokenizer.chat_template has wrong type"

/-- Three pieces are control tokens whatever the file says. -/
def effectiveType (piece : Bytes) (type : Int) : Int :=
  if piece = bytes "<eos>" ∨ piece = bytes "<turn|>" ∨ piece = bytes "<|tool_response>"
  then tokenTypeControl else type

namespace GemmaTokenizer

def fromGguf (context : Gguf) : Except Exception GemmaTokenizer := do
  if (← requireTokenizerString context "tokenizer.ggml.model") ≠ bytes "gemma4" then
    runtimeError "GGUF does not contain a Gemma 4 tokenizer"
  let tokens ← requireTokens context
  if unique : tokens.Nodup then
    let types ← requireTokenTypes context tokens.length
    let merges ← requireMerges context
    match ← optionalTokenId context "tokenizer.ggml.bos_token_id",
      ← optionalTokenId context "tokenizer.ggml.eos_token_id" with
    | some bos, some eos =>
      if inside : bos < tokens.length ∧ eos < tokens.length then
        let chatTemplate ← readChatTemplate context
        return {
          idToPiece := tokens
          tokenTypes := tokens.zipWith effectiveType types.1
          merges, bos, eos, chatTemplate, unique
          typed := by simp [types.2]
          bos_lt := inside.1
          eos_lt := inside.2
        }
      else runtimeError "Gemma 4 BOS/EOS IDs are missing or invalid"
    | _, _ => runtimeError "Gemma 4 BOS/EOS IDs are missing or invalid"
  else runtimeError "tokenizer contains duplicate pieces"

end GemmaTokenizer

/-! ## Vocabulary facts -/

namespace GemmaTokenizer
variable (t : GemmaTokenizer)

theorem mem_specialTokens_iff {special : SpecialToken} :
    special ∈ t.specialTokens ↔ t.idToPiece[special.id]? = some special.text ∧
      t.tokenTypes[special.id]? = some special.type ∧ isSpecialType special.type = true := by
  simp only [specialTokens, List.mem_insertionSort, unsortedSpecialTokens, List.mem_map,
    List.mem_filter]
  constructor
  · rintro ⟨⟨⟨text, type⟩, id⟩, ⟨hmem, htype⟩, rfl⟩
    have hzip := List.mem_zipIdx_iff_getElem?.mp hmem
    rw [List.getElem?_zip_eq_some] at hzip
    exact ⟨hzip.1, hzip.2, htype⟩
  · rintro ⟨htext, htype, hspecial⟩
    refine ⟨⟨⟨special.text, special.type⟩, special.id⟩, ⟨?_, hspecial⟩, rfl⟩
    exact List.mem_zipIdx_iff_getElem?.mpr (List.getElem?_zip_eq_some.mpr ⟨htext, htype⟩)

theorem mem_specialTokens {special : SpecialToken} (h : special ∈ t.specialTokens) :
    t.idToPiece[special.id]? = some special.text := (t.mem_specialTokens_iff.mp h).1

/-- Pieces are distinct, so a text names at most one special token. -/
theorem specialToken_ext {a b : SpecialToken} (ha : a ∈ t.specialTokens)
    (hb : b ∈ t.specialTokens) (h : a.text = b.text) : a = b := by
  obtain ⟨hta, htypea, -⟩ := t.mem_specialTokens_iff.mp ha
  obtain ⟨htb, htypeb, -⟩ := t.mem_specialTokens_iff.mp hb
  have hid : a.id = b.id := by
    obtain ⟨hlta, hgeta⟩ := List.getElem?_eq_some_iff.mp hta
    obtain ⟨hltb, hgetb⟩ := List.getElem?_eq_some_iff.mp htb
    exact t.unique.getElem_inj_iff.mp (hgeta.trans (h.trans hgetb.symm))
  obtain ⟨text, id, type⟩ := a
  obtain ⟨text', id', type'⟩ := b
  cases h
  cases hid
  cases htypea.symm.trans htypeb
  rfl

theorem findToken_eq_some {text : Bytes} {id : TokenId} :
    t.findToken text = some id ↔ t.idToPiece[id]? = some text := by
  simp only [findToken, pieceToId, List.idxOf?_eq_some_iff, List.getElem?_eq_some_iff]
  constructor
  · rintro ⟨hi, he, _⟩
    exact ⟨hi, he⟩
  · rintro ⟨hi, he⟩
    refine ⟨hi, he, ?_⟩
    intro j hj hje
    have := (t.unique.getElem_inj_iff).mp (hje.trans he.symm)
    omega

theorem exists_special_of_findToken {text : Bytes} {id : TokenId} (h : t.findToken text = some id)
    (hs : t.isSpecialToken id = true) : ∃ special ∈ t.specialTokens,
      special.text = text ∧ special.id = id := by
  simp only [isSpecialToken, List.any_eq_true, decide_eq_true_eq] at hs
  obtain ⟨special, hm, rfl⟩ := hs
  have h1 := t.mem_specialTokens hm
  have h2 := t.findToken_eq_some.mp h
  exact ⟨special, hm, Option.some.inj (h1.symm.trans h2), rfl⟩

/-- Pieces and types of a loaded vocabulary are those of the file. -/
theorem fromGguf_spec {context : Gguf} {t : GemmaTokenizer} (h : fromGguf context = .ok t) :
    requireTokens context = .ok t.idToPiece ∧
    ∃ types, requireTokenTypes context t.idToPiece.length = .ok types ∧
      t.tokenTypes = t.idToPiece.zipWith effectiveType types.1 := by
  unfold fromGguf at h
  obtain ⟨model, -, h⟩ := bind_eq_ok.mp h
  split at h
  · cases h
  · obtain ⟨tokens, htokens, h⟩ := bind_eq_ok.mp h
    split at h
    · obtain ⟨types, htypes, h⟩ := bind_eq_ok.mp h
      obtain ⟨merges, -, h⟩ := bind_eq_ok.mp h
      obtain ⟨bos, -, h⟩ := bind_eq_ok.mp h
      obtain ⟨eos, -, h⟩ := bind_eq_ok.mp h
      split at h
      · split at h
        · obtain ⟨chatTemplate, -, h⟩ := bind_eq_ok.mp h
          cases h
          exact ⟨htokens, types, htypes, rfl⟩
        · cases h
      · cases h
    · cases h

/-- Pieces are read through NUL-terminated pointers. -/
theorem zero_notMem_piece {context : Gguf} {tokens : List Bytes}
    (h : requireTokens context = .ok tokens) {piece : Bytes} (hpiece : piece ∈ tokens) :
    0 ∉ piece := by
  unfold requireTokens at h
  obtain ⟨value, -, h⟩ := bind_eq_ok.mp h
  split at h
  · cases h
    obtain ⟨string, -, rfl⟩ := List.mem_map.mp hpiece
    intro hmem
    simpa using List.mem_takeWhile_imp hmem
  · cases h

end GemmaTokenizer

end Branchscore
