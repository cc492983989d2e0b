import Branchscore.Tokenizer.Vocabulary

/-!
# Byte-pair encoding of one raw segment

`tokenize_segment` keeps its symbols in an index-linked list and its candidate
merges in a priority queue with lazy deletion. The queue is a list in the order in
which `std::priority_queue` would pop it.
-/

namespace Branchscore

open Foundation
set_option autoImplicit false

def utf8CharacterSize (first : Byte) (remaining : Nat) : Nat :=
  let expected :=
    if first.val &&& 0xE0 = 0xC0 then 2
    else if first.val &&& 0xF0 = 0xE0 then 3
    else if first.val &&& 0xF8 = 0xF0 then 4
    else 1
  min expected remaining

/-- A space becomes U+2581. -/
def escapeSpaces (text : Bytes) : Bytes :=
  text.flatMap fun b => if b = byte ' ' then [0xE2, 0x96, 0x81] else [b]

def hexDigit (digit : Nat) : Byte := (bytes "0123456789ABCDEF").getD digit 0

def bytePiece (b : Byte) : Bytes :=
  bytes "<0x" ++ [hexDigit (b.val >>> 4), hexDigit (b.val &&& 0x0F)] ++ bytes ">"

/-- `previous` and `next` are `none` where the source has -1. -/
structure Symbol where
  previous : Option Nat
  next : Option Nat
  offset : Nat
  size : Nat
  deriving Repr, DecidableEq

structure Bigram where
  left : Nat
  right : Nat
  rank : Nat
  text : Bytes
  deriving Repr, DecidableEq

/-- `BigramLater left right`: `left` is popped after `right`. -/
def bigramLater (left right : Bigram) : Bool :=
  right.rank < left.rank || (left.rank = right.rank && right.left < left.left)

/-- `queue.push`. -/
def pushBigram (bigram : Bigram) : List Bigram → List Bigram
  | [] => [bigram]
  | head :: queue =>
    if bigramLater head bigram then bigram :: head :: queue else head :: pushBigram bigram queue

/-- `segment.substr(offset, size)`. -/
def substr (segment : Bytes) (offset size : Nat) : Bytes := (segment.drop offset).take size

/-- The symbols of `segment` from `offset` on, one per UTF-8 character. -/
def splitSymbols (segment : Bytes) : Nat → Nat → Nat → List Symbol
  | 0, _, _ => []
  | fuel + 1, offset, index =>
    match segment[offset]? with
    | none => []
    | some first =>
      let size := utf8CharacterSize first (segment.length - offset)
      ⟨if index = 0 then none else some (index - 1),
        if offset + size = segment.length then none else some (index + 1), offset, size⟩ ::
          splitSymbols segment fuel (offset + size) (index + 1)

structure BpeState where
  symbols : List Symbol
  queue : List Bigram
  deriving Repr, DecidableEq

namespace GemmaTokenizer
variable (t : GemmaTokenizer) (segment : Bytes)

def addBigram (s : BpeState) (left right : Option Nat) : BpeState :=
  match left, right with
  | some l, some r =>
    match s.symbols[l]?, s.symbols[r]? with
    | some ls, some rs =>
      let leftText := substr segment ls.offset ls.size
      let rightText := substr segment rs.offset rs.size
      match t.mergeRank leftText rightText with
      | none => s
      | some rank => { s with queue := pushBigram ⟨l, r, rank, leftText ++ rightText⟩ s.queue }
    | _, _ => s
  | _, _ => s

/-- The queue holds every adjacent pair that has a rank. -/
def initialState : BpeState :=
  let symbols := splitSymbols segment segment.length 0 0
  (List.range' 1 (symbols.length - 1)).foldl
    (fun s i => t.addBigram segment s (some (i - 1)) (some i)) ⟨symbols, []⟩

/-- `symbols[next].previous = left`, when there is a next symbol. -/
def setPrevious (symbols : List Symbol) (next : Option Nat) (left : Nat) : List Symbol :=
  match next with
  | none => symbols
  | some n =>
    match symbols[n]? with
    | none => symbols
    | some symbol => symbols.set n { symbol with previous := some left }

/-- One turn of the queue loop on a popped bigram. -/
def mergeStep (bigram : Bigram) (s : BpeState) : BpeState :=
  match s.symbols[bigram.left]?, s.symbols[bigram.right]? with
  | some left, some right =>
    if left.size = 0 ∨ right.size = 0 ∨
        substr segment left.offset (left.size + right.size) ≠ bigram.text then s
    else
      let left := { left with size := left.size + right.size, next := right.next }
      let symbols := (s.symbols.set bigram.left left).set bigram.right { right with size := 0 }
      let s := { s with symbols := setPrevious symbols right.next bigram.left }
      let s := t.addBigram segment s left.previous (some bigram.left)
      t.addBigram segment s (some bigram.left) left.next
  | _, _ => s

def mergeLoop : Nat → BpeState → BpeState
  | 0, s => s
  | fuel + 1, s =>
    match s.queue with
    | [] => s
    | bigram :: queue => mergeLoop fuel (t.mergeStep segment bigram { s with queue })

/-- The remaining symbols in order, following `next` from index 0. -/
def symbolTexts (symbols : List Symbol) : Nat → Option Nat → List Bytes
  | 0, _ => []
  | _ + 1, none => []
  | fuel + 1, some index =>
    match symbols[index]? with
    | none => []
    | some symbol =>
      substr segment symbol.offset symbol.size :: symbolTexts symbols fuel symbol.next

/-- The id of a piece, or its byte-fallback ids. -/
def emitSymbol (text : Bytes) : Except Exception (List TokenId) :=
  match t.pieceToId text with
  | some id => .ok [id]
  | none => text.mapM fun b =>
    match t.pieceToId (bytePiece b) with
    | some id => .ok id
    | none => runtimeError "tokenizer has no byte fallback for input"

/-- Enough turns for any run: the queue is empty after them (`mergeLoop_queue`). -/
def mergeFuel (s : BpeState) : Nat := s.queue.length + 3 * s.symbols.length

def mergedSymbols : List Symbol :=
  let s := t.initialState segment
  (t.mergeLoop segment (mergeFuel s) s).symbols

def tokenizeSegment : Except Exception (List TokenId) :=
  if segment = [] then .ok []
  else
    match if segment.all (· = byte '\n') then t.pieceToId segment else none with
    | some whole => .ok [whole]
    | none =>
      let symbols := t.mergedSymbols segment
      return (← (symbolTexts segment symbols symbols.length (some 0)).mapM t.emitSymbol).flatten

/-! ## The queue loop ends

A stale entry leaves the queue; a merge absorbs one live symbol and pushes at most
two entries. -/

def liveCount (symbols : List Symbol) : Nat := symbols.countP (0 < ·.size)

def queueMeasure (s : BpeState) : Nat := s.queue.length + 3 * liveCount s.symbols

theorem pushBigram_length (bigram : Bigram) (queue : List Bigram) :
    (pushBigram bigram queue).length = queue.length + 1 := by
  induction queue with
  | nil => rfl
  | cons head queue ih =>
    simp only [pushBigram]
    split <;> simp [ih]

theorem addBigram_cases (s : BpeState) (left right : Option Nat) :
    t.addBigram segment s left right = s ∨
    ∃ bigram, t.addBigram segment s left right =
      { s with queue := pushBigram bigram s.queue } := by
  unfold addBigram
  split
  · split
    · dsimp only
      split
      · exact Or.inl rfl
      · exact Or.inr ⟨_, rfl⟩
    · exact Or.inl rfl
  · exact Or.inl rfl

@[simp] theorem addBigram_symbols (s : BpeState) (left right : Option Nat) :
    (t.addBigram segment s left right).symbols = s.symbols := by
  rcases t.addBigram_cases segment s left right with h | ⟨_, h⟩ <;> rw [h]

theorem addBigram_queue_length (s : BpeState) (left right : Option Nat) :
    (t.addBigram segment s left right).queue.length ≤ s.queue.length + 1 := by
  rcases t.addBigram_cases segment s left right with h | ⟨_, h⟩ <;> rw [h]
  · exact Nat.le_succ _
  · exact Nat.le_of_eq (pushBigram_length _ _)

theorem liveCount_set {symbols : List Symbol} {i : Nat} {old : Symbol}
    (h : symbols[i]? = some old) (new : Symbol) :
    liveCount (symbols.set i new) + (if 0 < old.size then 1 else 0) =
      liveCount symbols + (if 0 < new.size then 1 else 0) := by
  induction symbols generalizing i with
  | nil => simp at h
  | cons symbol symbols ih =>
    cases i with
    | zero =>
      simp only [List.getElem?_cons_zero, Option.some.injEq] at h
      subst h
      simp only [liveCount, List.set_cons_zero, List.countP_cons, decide_eq_true_eq]
      omega
    | succ i =>
      have := ih (by simpa using h)
      simp only [liveCount, List.set_cons_succ, List.countP_cons] at this ⊢
      omega

theorem liveCount_setPrevious (symbols : List Symbol) (next : Option Nat) (left : Nat) :
    liveCount (setPrevious symbols next left) = liveCount symbols := by
  unfold setPrevious
  split
  · rfl
  · split
    · rfl
    · rename_i symbol h
      have := liveCount_set h { symbol with previous := some left }
      simpa using this

theorem mergeStep_measure (bigram : Bigram) (s : BpeState) :
    queueMeasure (t.mergeStep segment bigram s) ≤ queueMeasure s := by
  unfold mergeStep
  split
  · rename_i left right hl hr
    split
    · exact Nat.le_refl _
    · rename_i hlive
      have hleft : 0 < left.size := by omega
      have hright : 0 < right.size := by omega
      set left' : Symbol := { left with size := left.size + right.size, next := right.next }
      have h1 := liveCount_set hl left'
      have hmid : ∃ old, (s.symbols.set bigram.left left')[bigram.right]? = some old ∧
          0 < old.size := by
        by_cases he : bigram.left = bigram.right
        · have hlt := (List.getElem?_eq_some_iff.mp hr).1
          refine ⟨left', by rw [he]; simp [hlt], ?_⟩
          simp only [left']; omega
        · exact ⟨right, by rw [List.getElem?_set_ne he, hr], hright⟩
      obtain ⟨old, hold, hpos⟩ := hmid
      have h2 := liveCount_set hold { right with size := 0 }
      have hq (s : BpeState) (a b c d : Option Nat) :
          (t.addBigram segment (t.addBigram segment s a b) c d).queue.length ≤
            s.queue.length + 2 :=
        Nat.le_trans (t.addBigram_queue_length segment _ c d)
          (Nat.add_le_add_right (t.addBigram_queue_length segment s a b) 1)
      have h3 : 0 < left'.size := by simp only [left']; omega
      simp only [hleft, h3, hpos, if_true, Nat.lt_irrefl, if_false] at h1 h2
      simp only [queueMeasure, addBigram_symbols, liveCount_setPrevious]
      have := hq { s with symbols := setPrevious ((s.symbols.set bigram.left left').set
        bigram.right { right with size := 0 }) right.next bigram.left }
          left'.previous (some bigram.left) (some bigram.left) left'.next
      dsimp only at this
      omega
  · exact Nat.le_refl _

theorem mergeLoop_queue {fuel : Nat} {s : BpeState} (h : queueMeasure s ≤ fuel) :
    (t.mergeLoop segment fuel s).queue = [] := by
  induction fuel generalizing s with
  | zero =>
    have : s.queue.length = 0 := by unfold queueMeasure at h; omega
    exact List.length_eq_zero_iff.mp this
  | succ fuel ih =>
    unfold mergeLoop
    split
    · assumption
    · rename_i bigram queue hq
      apply ih
      have := t.mergeStep_measure segment bigram { s with queue }
      simp only [queueMeasure, hq, List.length_cons] at h this ⊢
      omega

theorem mergeLoop_terminates (s : BpeState) :
    (t.mergeLoop segment (mergeFuel s) s).queue = [] := by
  apply mergeLoop_queue
  have := List.countP_le_length (p := fun symbol : Symbol => decide (0 < symbol.size))
    (l := s.symbols)
  unfold queueMeasure liveCount mergeFuel
  omega

end GemmaTokenizer

end Branchscore
