import Branchscore.Foundation.Outcome
import Branchscore.Foundation.Scan
import Branchscore.Tokenizer.Segment

/-!
# Special tokens and raw stretches

The scanning loop of `tokenize` is the greedy scan of `Foundation.Scan` over the
special tokens; its ids are those of the pieces of the segmentation, in order.
-/

namespace Branchscore

open Foundation Foundation.Outcome Foundation.Scan
set_option autoImplicit false

namespace GemmaTokenizer
variable (t : GemmaTokenizer)

/-- Maximal newline and non-newline runs are encoded one by one. -/
def tokenizeRaw (raw : Bytes) : Except Exception (List TokenId) := do
  let runs := (escapeSpaces raw).splitBy fun a b => (a = byte '\n') == (b = byte '\n')
  return (← runs.mapM t.tokenizeSegment).flatten

def eligible (parseSpecial : Bool) : List SpecialToken :=
  t.specialTokens.filter fun special => parseSpecial || special.type = tokenTypeUserDefined

@[simp] theorem eligible_true : t.eligible true = t.specialTokens := by simp [eligible]

/-- The loop of `tokenize` on the text from `position` on. Without empty special
tokens every turn shortens it, so one turn more than its length is enough. -/
def scanTokens (parseSpecial : Bool) : Nat → Bytes → Except Exception (List TokenId)
  | 0, _ => .error .diverges
  | fuel + 1, rest =>
    if rest = [] then .ok []
    else
      match earliest SpecialToken.text (t.eligible parseSpecial) rest with
      | none => t.tokenizeRaw rest
      | some (matchPosition, special) => do
        let raw ←
          if 0 < matchPosition then t.tokenizeRaw (rest.take matchPosition) else .ok []
        let tail ← scanTokens parseSpecial fuel
          (rest.drop (matchPosition + special.text.length))
        return raw ++ special.id :: tail

def tokenize (text : Bytes) (addBos parseSpecial : Bool) : Except Exception (List TokenId) := do
  let ids ← t.scanTokens parseSpecial (text.length + 1) text
  return (if addBos then [t.bos] else []) ++ ids

/-! ## The ids of a segmentation -/

def emitPiece : Piece Byte SpecialToken → Except Exception (List TokenId)
  | .raw chunk => t.tokenizeRaw chunk
  | .hit special => .ok [special.id]

def emit : List (Piece Byte SpecialToken) → Except Exception (List TokenId)
  | [] => .ok []
  | piece :: pieces => do
    let ids ← t.emitPiece piece
    return ids ++ (← emit pieces)

theorem emit_append (a b : List (Piece Byte SpecialToken)) :
    t.emit (a ++ b) = (do
      let ids ← t.emit a
      return ids ++ (← t.emit b)) := by
  induction a with
  | nil => cases hb : t.emit b <;> simp [emit, hb]
  | cons piece a ih =>
    simp only [List.cons_append, emit, ih]
    cases t.emitPiece piece with
    | error e => rfl
    | ok ids => cases t.emit a <;> cases t.emit b <;> simp

def NonemptySpecials (parseSpecial : Bool) : Prop :=
  ∀ special ∈ t.eligible parseSpecial, special.text ≠ []

/-- With enough fuel the loop emits the pieces of the segmentation. -/
theorem scanTokens_eq_emit {parseSpecial : Bool} (hne : t.NonemptySpecials parseSpecial)
    {rest : Bytes} {pieces : List (Piece Byte SpecialToken)}
    (h : Segments SpecialToken.text (t.eligible parseSpecial) rest pieces)
    {fuel : Nat} (hf : rest.length < fuel) :
    t.scanTokens parseSpecial fuel rest = t.emit pieces := by
  induction h generalizing fuel with
  | nil =>
    obtain ⟨fuel, rfl⟩ := Nat.exists_eq_add_of_lt hf
    simp [scanTokens, emit]
  | @tail rest hrest he =>
    obtain ⟨fuel, rfl⟩ := Nat.exists_eq_add_of_lt hf
    simp only [scanTokens, hrest, he, emit, emitPiece]
    cases t.tokenizeRaw rest <;> simp
  | @hit rest i special out hrest he _ ih =>
    obtain ⟨fuel, rfl⟩ := Nat.exists_eq_add_of_lt hf
    have hpos := List.length_pos_of_ne_nil (hne special (isEarliest_of_eq he).mem)
    have hlen := List.length_pos_of_ne_nil hrest
    have hi := Search.find?_length_le (isEarliest_of_eq he).found
    have htail : t.scanTokens parseSpecial (rest.length + fuel)
        (rest.drop (i + special.text.length)) = t.emit out :=
      ih (by rw [List.length_drop]; omega)
    simp only [scanTokens, hrest, he, htail, if_false]
    by_cases h0 : 0 < i
    · have htake : rest.take i ≠ [] := by
        rw [Ne, ← List.length_eq_zero_iff, List.length_take]
        omega
      simp only [h0, if_true, lead, htake, if_false, List.cons_append, List.nil_append, emit,
        emitPiece]
      cases t.tokenizeRaw (rest.take i) <;> cases t.emit out <;> simp
    · have h00 : i = 0 := by omega
      subst i
      simp only [Nat.lt_irrefl, if_false, lead, List.take_zero, if_true, List.nil_append, emit,
        emitPiece]
      cases t.emit out <;> simp

theorem tokenize_eq_emit {parseSpecial : Bool} (hne : t.NonemptySpecials parseSpecial)
    {text : Bytes} {pieces : List (Piece Byte SpecialToken)}
    (h : Segments SpecialToken.text (t.eligible parseSpecial) text pieces) (addBos : Bool) :
    t.tokenize text addBos parseSpecial =
      (t.emit pieces).map ((if addBos then [t.bos] else []) ++ ·) := by
  rw [tokenize, t.scanTokens_eq_emit hne h (Nat.lt_succ_self _)]
  cases t.emit pieces <;> simp

end GemmaTokenizer

/-- A vocabulary with two overlapping special tokens. -/
def sampleTokenizer : GemmaTokenizer where
  idToPiece := ["<bos>", "<eos>", "<|turn>", "<|turn>m", "m", "o", "d", "e", "l", "mo", "\n",
    "A", "u"].map bytes
  tokenTypes := [3, 3, 3, 4, 1, 1, 1, 1, 1, 1, 1, 1, 1]
  merges := [(bytes "m", bytes "o")]
  bos := 0
  eos := 1
  chatTemplate := none
  unique := by decide
  typed := by decide
  bos_lt := by decide
  eos_lt := by decide

def samplePrompt : Bytes := bytes "<bos>u<|turn>model\n"

theorem samplePrompt_tokens :
    sampleTokenizer.tokenize samplePrompt false true = .ok [0, 12, 3, 5, 6, 7, 8, 10] := by
  decide

end Branchscore
