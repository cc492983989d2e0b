import Branchscore.Foundation.Outcome
import Branchscore.Foundation.PairMerging
import Branchscore.Tokenizer.Segment

/-!
# The merge queue computes plain byte-pair encoding

The live symbols are a doubly linked list that tiles the segment. A queue entry that
passes the text test is the pair of two adjacent live symbols as they are now, so a
turn of the loop either drops a stale entry or makes the reference merge.
-/

namespace Branchscore

open Foundation Foundation.Outcome Foundation.PairMerging
set_option autoImplicit false

theorem substr_add (segment : Bytes) (offset a b : Nat) :
    substr segment offset (a + b) = substr segment offset a ++ substr segment (offset + a) b := by
  simp only [substr, List.take_add, List.drop_drop]

theorem substr_length {segment : Bytes} {offset size : Nat}
    (h : offset + size ≤ segment.length) : (substr segment offset size).length = size := by
  simp only [substr, List.length_take, List.length_drop]
  omega

theorem utf8CharacterSize_bounds (first : Byte) {remaining : Nat} (h : 0 < remaining) :
    0 < utf8CharacterSize first remaining ∧ utf8CharacterSize first remaining ≤ remaining := by
  unfold utf8CharacterSize
  dsimp only
  split_ifs <;> omega

theorem GemmaTokenizer.mergeRank_injective (t : GemmaTokenizer) {a b c d : Bytes} {k : Nat}
    (h : t.mergeRank a b = some k) (h' : t.mergeRank c d = some k) : a = c ∧ b = d := by
  obtain ⟨_, hk, -⟩ := List.idxOf?_eq_some_iff.mp h
  obtain ⟨_, hk', -⟩ := List.idxOf?_eq_some_iff.mp h'
  exact Prod.mk.inj (hk.symm.trans hk')

/-! ## The linked list -/

variable (segment : Bytes)

def Symbol.text (symbol : Symbol) : Bytes := substr segment symbol.offset symbol.size

def textAt (symbols : List Symbol) (i : Nat) : Bytes :=
  (symbols[i]?.map (Symbol.text segment)).getD []

/-- Following `next` from `start` visits the indices `live`, whose symbols tile the
segment from `offset` on. -/
inductive Linked (symbols : List Symbol) : Option Nat → Nat → Option Nat → List Nat → Prop
  | nil {previous : Option Nat} {offset : Nat} (stop : offset = segment.length) :
      Linked symbols previous offset none []
  | cons {previous next : Option Nat} {offset size i : Nat} {live : List Nat}
      (get : symbols[i]? = some ⟨previous, next, offset, size⟩) (pos : 0 < size)
      (tail : Linked symbols (some i) (offset + size) next live) :
      Linked symbols previous offset (some i) (i :: live)

namespace Linked
variable {segment} {symbols symbols' : List Symbol} {previous start : Option Nat} {offset : Nat}
variable {live : List Nat}

theorem textAt_eq {i : Nat} {symbol : Symbol} (h : symbols[i]? = some symbol) :
    textAt segment symbols i = symbol.text segment := by
  rw [textAt, h]
  rfl

theorem offset_le (h : Linked segment symbols previous offset start live) :
    offset ≤ segment.length := by
  induction h with
  | nil stop => exact Nat.le_of_eq stop
  | cons _ _ _ ih => exact Nat.le_trans (Nat.le_add_right _ _) ih

theorem get_mem (h : Linked segment symbols previous offset start live) {i : Nat} (hi : i ∈ live) :
    ∃ symbol, symbols[i]? = some symbol ∧ 0 < symbol.size ∧ offset ≤ symbol.offset ∧
      symbol.offset + symbol.size ≤ segment.length := by
  induction h with
  | nil => simp at hi
  | @cons previous next offset size j live get pos tail ih =>
    rcases List.mem_cons.mp hi with rfl | hi
    · exact ⟨_, get, pos, Nat.le_refl _, tail.offset_le⟩
    · obtain ⟨symbol, hget, hpos, hle, hend⟩ := ih hi
      exact ⟨symbol, hget, hpos, Nat.le_trans (Nat.le_add_right _ _) hle, hend⟩

/-- The links and the offset at one of the live indices. -/
theorem split {pre post : List Nat} {i : Nat}
    (h : Linked segment symbols previous offset start (pre ++ i :: post)) :
    ∃ symbol, symbols[i]? = some symbol ∧ 0 < symbol.size ∧
      symbol.previous = pre.getLast?.or previous ∧ symbol.next = post.head? ∧
      Linked segment symbols (some i) (symbol.offset + symbol.size) symbol.next post := by
  induction pre generalizing previous offset start with
  | nil =>
    cases h with
    | cons get pos tail =>
      refine ⟨_, get, pos, rfl, ?_, tail⟩
      cases tail <;> rfl
  | cons j pre ih =>
    cases h with
    | cons get pos tail =>
      obtain ⟨symbol, hget, hpos, hprevious, hnext, hpost⟩ := ih tail
      refine ⟨symbol, hget, hpos, ?_, hnext, hpost⟩
      rw [hprevious, List.getLast?_cons]
      cases pre.getLast? <;> rfl

/-- The next symbol points back and starts where this one ends. -/
theorem next_spec (h : Linked segment symbols previous offset start live) {i j : Nat}
    {symbol : Symbol} (hi : i ∈ live) (hget : symbols[i]? = some symbol)
    (hj : symbol.next = some j) :
    j ∈ live ∧ ∃ after, symbols[j]? = some after ∧ 0 < after.size ∧ after.previous = some i ∧
      after.offset = symbol.offset + symbol.size := by
  obtain ⟨pre, post, rfl⟩ := List.append_of_mem hi
  obtain ⟨symbol', hget', -, -, -, hpost⟩ := h.split
  cases hget.symm.trans hget'
  rw [hj] at hpost
  cases hpost with
  | cons get pos _ => exact ⟨by simp, _, get, pos, rfl, rfl⟩

/-- A symbol ends before any later one starts. -/
theorem before {pre post : List Nat} {i j : Nat}
    (h : Linked segment symbols previous offset start (pre ++ i :: post)) (hj : j ∈ post)
    {a b : Symbol} (ha : symbols[i]? = some a) (hb : symbols[j]? = some b) :
    a.offset + a.size ≤ b.offset := by
  obtain ⟨a', ha', -, -, -, hpost⟩ := h.split
  obtain ⟨b', hb', -, hle, -⟩ := hpost.get_mem hj
  cases ha.symm.trans ha'
  cases hb.symm.trans hb'
  exact hle

/-- Live symbols do not overlap. -/
theorem disjoint (h : Linked segment symbols previous offset start live) {i j : Nat}
    (hi : i ∈ live) (hj : j ∈ live) {a b : Symbol} (ha : symbols[i]? = some a)
    (hb : symbols[j]? = some b) (hij : i ≠ j) :
    a.offset + a.size ≤ b.offset ∨ b.offset + b.size ≤ a.offset := by
  obtain ⟨pre, post, rfl⟩ := List.append_of_mem hi
  rcases List.mem_append.mp hj with hj | hj
  · obtain ⟨pre, mid, rfl⟩ := List.append_of_mem hj
    rw [List.append_assoc, List.cons_append] at h
    exact Or.inr (h.before (by simp) hb ha)
  · exact Or.inl (h.before ((List.mem_cons.mp hj).resolve_left hij.symm) ha hb)

/-- Inside a whole list the previous symbol points forward. -/
theorem previous_spec (h : Linked segment symbols none offset start live) {i j : Nat}
    {symbol : Symbol} (hi : i ∈ live) (hget : symbols[i]? = some symbol)
    (hj : symbol.previous = some j) :
    ∃ before, symbols[j]? = some before ∧ 0 < before.size ∧ before.next = some i := by
  obtain ⟨pre, post, rfl⟩ := List.append_of_mem hi
  obtain ⟨symbol', hget', -, hprevious, -⟩ := h.split
  cases hget.symm.trans hget'
  rw [hj, Option.or_none] at hprevious
  obtain ⟨pre, rfl⟩ := List.getLast?_eq_some_iff.mp hprevious.symm
  rw [List.append_assoc, List.singleton_append] at h
  obtain ⟨before, hbefore, hpos, -, hnext, -⟩ := h.split
  exact ⟨before, hbefore, hpos, hnext⟩

theorem start_of_offset (h : Linked segment symbols previous offset start live) {i : Nat}
    (hi : i ∈ live) {symbol : Symbol} (hget : symbols[i]? = some symbol)
    (hoffset : symbol.offset = offset) : start = some i := by
  cases h with
  | nil => simp at hi
  | cons get pos tail =>
    rcases List.mem_cons.mp hi with rfl | hi
    · rfl
    · obtain ⟨symbol', hget', -, hle, -⟩ := tail.get_mem hi
      cases hget.symm.trans hget'
      omega

/-- The live symbol that starts where another one ends is the next one. -/
theorem next_of_offset (h : Linked segment symbols previous offset start live) {i j : Nat}
    (hi : i ∈ live) (hj : j ∈ live) {a b : Symbol} (ha : symbols[i]? = some a)
    (hb : symbols[j]? = some b) (hoffset : b.offset = a.offset + a.size) : a.next = some j := by
  obtain ⟨pre, post, rfl⟩ := List.append_of_mem hi
  obtain ⟨a', ha', hpos, -, -, hpost⟩ := h.split
  cases ha.symm.trans ha'
  have hne : i ≠ j := by
    rintro rfl
    cases ha.symm.trans hb
    omega
  refine hpost.start_of_offset ?_ hb hoffset
  rcases List.mem_append.mp hj with hj | hj
  · obtain ⟨pre, mid, rfl⟩ := List.append_of_mem hj
    rw [List.append_assoc, List.cons_append] at h
    have := h.before (by simp) hb ha
    omega
  · exact (List.mem_cons.mp hj).resolve_left hne.symm

theorem flatten_texts (h : Linked segment symbols previous offset start live) :
    (live.map (textAt segment symbols)).flatten = segment.drop offset := by
  induction h with
  | nil stop => simp [stop]
  | @cons previous next offset size i live get _ _ ih =>
    rw [List.map_cons, List.flatten_cons, ih, textAt_eq get, Symbol.text, substr,
      ← List.drop_drop, List.take_append_drop]

theorem symbolTexts_eq (h : Linked segment symbols previous offset start live) {fuel : Nat}
    (hf : live.length ≤ fuel) :
    GemmaTokenizer.symbolTexts segment symbols fuel start = live.map (textAt segment symbols) := by
  induction h generalizing fuel with
  | nil => cases fuel <;> rfl
  | @cons previous next offset size i live get _ _ ih =>
    cases fuel with
    | zero => simp at hf
    | succ fuel =>
      simp only [GemmaTokenizer.symbolTexts, get, List.map_cons, textAt_eq get, Symbol.text]
      rw [ih (Nat.le_of_succ_le_succ hf)]

theorem congr (h : Linked segment symbols previous offset start live)
    (hsame : ∀ i ∈ live, symbols'[i]? = symbols[i]?) :
    Linked segment symbols' previous offset start live := by
  induction h with
  | nil stop => exact nil stop
  | @cons previous next offset size i live get pos _ ih =>
    refine cons ?_ pos (ih fun j hj => hsame j (List.mem_cons_of_mem _ hj))
    rw [hsame i List.mem_cons_self, get]

/-- Only the first symbol of a list holds a link into what precedes it. -/
theorem relink (h : Linked segment symbols previous offset start live) (hnodup : live.Nodup)
    {previous' : Option Nat}
    (hsame : ∀ i ∈ live, symbols'[i]? = if start = some i
      then symbols[i]?.map (fun symbol => { symbol with previous := previous' })
      else symbols[i]?) :
    Linked segment symbols' previous' offset start live := by
  cases h with
  | nil stop => exact nil stop
  | @cons _ next _ size i live get pos tail =>
    have hget : symbols'[i]? = some ⟨previous', next, offset, size⟩ := by
      rw [hsame i List.mem_cons_self, if_pos rfl, get]
      rfl
    refine cons hget pos (tail.congr fun j hj => ?_)
    · have hij : i ≠ j := fun e => (List.nodup_cons.mp hnodup).1 (e ▸ hj)
      rw [hsame j (List.mem_cons_of_mem _ hj), if_neg (by simpa using hij)]

end Linked

/-! ## A merge in the list -/

variable {segment}

theorem setPrevious_get (symbols : List Symbol) (next : Option Nat) (left i : Nat) :
    (GemmaTokenizer.setPrevious symbols next left)[i]? = if next = some i
      then symbols[i]?.map (fun symbol => { symbol with previous := some left })
      else symbols[i]? := by
  unfold GemmaTokenizer.setPrevious
  cases next with
  | none => simp
  | some n =>
    dsimp only
    split
    · rename_i hn
      split
      · rename_i h
        cases h
        rw [hn]
        rfl
      · rfl
    · rename_i symbol hn
      rw [List.getElem?_set]
      by_cases h : n = i
      · subst n
        rw [if_pos rfl, if_pos rfl, hn, if_pos (List.getElem?_eq_some_iff.mp hn).1]
        rfl
      · rw [if_neg h, if_neg (by simpa using h)]

/-- The symbols after the pair at `l` and `r` has been joined. -/
def joined (symbols : List Symbol) (l r : Nat) (left right : Symbol) : List Symbol :=
  GemmaTokenizer.setPrevious
    ((symbols.set l { left with size := left.size + right.size, next := right.next }).set r
      { right with size := 0 }) right.next l

/-- Two neighbours of the list `pre ++ l :: r :: post`. -/
structure Neighbours (symbols : List Symbol) (l r : Nat) (left right : Symbol)
    (pre post : List Nat) : Prop where
  left_eq : symbols[l]? = some left
  right_eq : symbols[r]? = some right
  left_pos : 0 < left.size
  nodup : (pre ++ l :: r :: post).Nodup
  next_left : left.next = some r
  next_right : right.next = post.head?
  offset_eq : right.offset = left.offset + left.size

theorem Linked.neighbours {symbols : List Symbol} {previous start : Option Nat} {offset : Nat}
    {live : List Nat} (h : Linked segment symbols previous offset start live)
    (hnodup : live.Nodup) {l r : Nat} {left : Symbol} (hl : symbols[l]? = some left)
    (hmem : l ∈ live) (hnext : left.next = some r) :
    ∃ right pre post, live = pre ++ l :: r :: post ∧ Neighbours symbols l r left right pre post := by
  obtain ⟨pre, post, rfl⟩ := List.append_of_mem hmem
  obtain ⟨left', hl', hpos, -, hhead, -⟩ := h.split
  cases hl.symm.trans hl'
  obtain ⟨post, rfl⟩ := List.head?_eq_some_iff.mp (hhead ▸ hnext)
  obtain ⟨-, right, hr, -, -, hoffset⟩ := h.next_spec hmem hl hnext
  rw [← List.singleton_append, ← List.append_assoc] at h
  obtain ⟨right', hr', -, -, hhead', -⟩ := h.split
  cases hr.symm.trans hr'
  exact ⟨right, pre, post, rfl, hl, hr, hpos, hnodup, hnext, hhead', hoffset⟩

namespace Neighbours
variable {symbols : List Symbol} {l r : Nat} {left right : Symbol} {pre post : List Nat}

theorem mem_post (p : Neighbours symbols l r left right pre post) {i : Nat}
    (h : right.next = some i) : i ∈ post :=
  List.mem_of_mem_head? (p.next_right ▸ h)

theorem ne_of_mem_post (p : Neighbours symbols l r left right pre post) {i : Nat} (h : i ∈ post) :
    i ≠ l ∧ i ≠ r := by
  have hsub : (l :: r :: post).Nodup := p.nodup.sublist (List.sublist_append_right _ _)
  simp only [List.nodup_cons, List.mem_cons, not_or] at hsub
  exact ⟨fun e => hsub.1.2 (e ▸ h), fun e => hsub.2.1 (e ▸ h)⟩

theorem ne_of_mem_pre (p : Neighbours symbols l r left right pre post) {i : Nat} (h : i ∈ pre) :
    i ≠ l ∧ i ≠ r := by
  have := (List.nodup_append.mp p.nodup).2.2 i h
  exact ⟨this l (by simp), this r (by simp)⟩

theorem left_ne_right (p : Neighbours symbols l r left right pre post) : l ≠ r := by
  have hsub : (l :: r :: post).Nodup := p.nodup.sublist (List.sublist_append_right _ _)
  simp only [List.nodup_cons, List.mem_cons, not_or] at hsub
  exact hsub.1.1

theorem joined_get (p : Neighbours symbols l r left right pre post) (i : Nat) :
    (joined symbols l r left right)[i]? =
      if i = l then some { left with size := left.size + right.size, next := right.next }
      else if i = r then some { right with size := 0 }
      else if right.next = some i
        then symbols[i]?.map (fun symbol => { symbol with previous := some l })
        else symbols[i]? := by
  have hltl := (List.getElem?_eq_some_iff.mp p.left_eq).1
  have hltr := (List.getElem?_eq_some_iff.mp p.right_eq).1
  rw [joined, setPrevious_get]
  by_cases hil : i = l
  · subst i
    rw [if_neg fun e => (p.ne_of_mem_post (p.mem_post e)).1 rfl, if_pos rfl,
      List.getElem?_set_ne p.left_ne_right.symm, List.getElem?_set_self hltl]
  · by_cases hir : i = r
    · subst i
      rw [if_neg fun e => (p.ne_of_mem_post (p.mem_post e)).2 rfl, if_neg hil, if_pos rfl,
        List.getElem?_set_self (by simpa using hltr)]
    · rw [if_neg hil, if_neg hir, List.getElem?_set_ne (Ne.symm hir),
        List.getElem?_set_ne (Ne.symm hil)]

theorem joined_left (p : Neighbours symbols l r left right pre post) :
    (joined symbols l r left right)[l]? =
      some { left with size := left.size + right.size, next := right.next } := by
  rw [p.joined_get, if_pos rfl]

theorem joined_right (p : Neighbours symbols l r left right pre post) :
    (joined symbols l r left right)[r]? = some { right with size := 0 } := by
  rw [p.joined_get, if_neg p.left_ne_right.symm, if_pos rfl]

theorem joined_other (p : Neighbours symbols l r left right pre post) {i : Nat} (hi : i ≠ l ∧ i ≠ r) :
    ∃ relink : Option Nat → Option Nat, (joined symbols l r left right)[i]? =
      symbols[i]?.map fun symbol => { symbol with previous := relink symbol.previous } := by
  rw [p.joined_get, if_neg hi.1, if_neg hi.2]
  split
  · exact ⟨fun _ => some l, rfl⟩
  · exact ⟨id, by cases symbols[i]? <;> rfl⟩

/-- Offsets stay; a symbol grows or disappears. -/
theorem joined_grows (p : Neighbours symbols l r left right pre post) {i : Nat} {symbol : Symbol}
    (hget : symbols[i]? = some symbol) :
    ∃ symbol', (joined symbols l r left right)[i]? = some symbol' ∧
      symbol'.offset = symbol.offset ∧
      (symbol'.size = 0 ∨ 0 < symbol.size ∧ symbol.size ≤ symbol'.size) := by
  by_cases hil : i = l
  · subst i
    cases p.left_eq.symm.trans hget
    exact ⟨_, p.joined_left, rfl, Or.inr ⟨p.left_pos, Nat.le_add_right _ _⟩⟩
  · by_cases hir : i = r
    · subst i
      cases p.right_eq.symm.trans hget
      exact ⟨_, p.joined_right, rfl, Or.inl rfl⟩
    · obtain ⟨relink, he⟩ := p.joined_other ⟨hil, hir⟩
      rw [hget] at he
      refine ⟨_, he, rfl, ?_⟩
      rcases Nat.eq_zero_or_pos symbol.size with hzero | hsize
      · exact Or.inl hzero
      · exact Or.inr ⟨hsize, Nat.le_refl _⟩

theorem joined_offsets (p : Neighbours symbols l r left right pre post) :
    (joined symbols l r left right).map Symbol.offset = symbols.map Symbol.offset := by
  have hlength : (joined symbols l r left right).length = symbols.length := by
    unfold joined GemmaTokenizer.setPrevious
    split
    · simp
    · split <;> simp
  apply List.ext_getElem?
  intro i
  rw [List.getElem?_map, List.getElem?_map]
  cases hget : symbols[i]? with
  | none =>
    rw [List.getElem?_eq_none_iff] at hget
    rw [List.getElem?_eq_none (by omega)]
  | some symbol =>
    obtain ⟨symbol', hget', hoffset, -⟩ := p.joined_grows hget
    rw [hget', Option.map_some, Option.map_some, hoffset]

theorem textAt_joined (p : Neighbours symbols l r left right pre post) {i : Nat}
    (hi : i ≠ l ∧ i ≠ r) :
    textAt segment (joined symbols l r left right) i = textAt segment symbols i := by
  obtain ⟨relink, he⟩ := p.joined_other hi
  rw [textAt, textAt, he, Option.map_map]
  rfl

/-- Joining the pair is the reference merge on the texts. -/
theorem texts_joined (p : Neighbours symbols l r left right pre post) :
    (pre ++ l :: post).map (textAt segment (joined symbols l r left right)) =
      mergeAt (· ++ ·) ((pre ++ l :: r :: post).map (textAt segment symbols)) pre.length := by
  have hpre : pre.map (textAt segment (joined symbols l r left right)) =
      pre.map (textAt segment symbols) :=
    List.map_congr_left fun i hi => p.textAt_joined (p.ne_of_mem_pre hi)
  have hpost : post.map (textAt segment (joined symbols l r left right)) =
      post.map (textAt segment symbols) :=
    List.map_congr_left fun i hi => p.textAt_joined (p.ne_of_mem_post hi)
  have hjoin : textAt segment (joined symbols l r left right) l =
      textAt segment symbols l ++ textAt segment symbols r := by
    rw [Linked.textAt_eq p.joined_left, Linked.textAt_eq p.left_eq, Linked.textAt_eq p.right_eq]
    simp only [Symbol.text, substr_add, p.offset_eq]
  simp only [List.map_append, List.map_cons]
  rw [← pre.length_map (textAt segment symbols), mergeAt_append, hpre, hpost, hjoin]

theorem linked_suffix {previous start : Option Nat} {offset : Nat}
    (p : Neighbours symbols l r left right pre post) {mid : List Nat} (hmid : mid.IsSuffix pre)
    (h : Linked segment symbols previous offset start (mid ++ l :: r :: post)) :
    Linked segment (joined symbols l r left right) previous offset start (mid ++ l :: post) := by
  induction mid generalizing previous offset start with
  | nil =>
    cases h with
    | cons getl posl tail =>
      cases tail with
      | cons getr posr tail =>
        cases p.left_eq.symm.trans getl
        cases p.right_eq.symm.trans getr
        have hpost := (List.nodup_append.mp p.nodup).2.1.of_cons.of_cons
        refine Linked.cons p.joined_left (Nat.add_pos_left posl _)
          ((Nat.add_assoc _ _ _ ▸ tail).relink hpost fun i hi => ?_)
        have hne := p.ne_of_mem_post hi
        rw [p.joined_get, if_neg hne.1, if_neg hne.2]
  | cons j mid ih =>
    cases h with
    | cons get pos tail =>
      have hj : j ∈ pre := hmid.subset List.mem_cons_self
      have hne := p.ne_of_mem_pre hj
      have hnext : right.next ≠ some j := fun e =>
        (List.nodup_append.mp p.nodup).2.2 j hj j (by simp [p.mem_post e]) rfl
      refine Linked.cons ?_ pos (ih ((List.suffix_cons j mid).trans hmid) tail)
      rw [p.joined_get, if_neg hne.1, if_neg hne.2, if_neg hnext, get]

theorem linked {previous start : Option Nat} {offset : Nat}
    (p : Neighbours symbols l r left right pre post)
    (h : Linked segment symbols previous offset start (pre ++ l :: r :: post)) :
    Linked segment (joined symbols l r left right) previous offset start (pre ++ l :: post) :=
  p.linked_suffix List.suffix_rfl h

end Neighbours

/-! ## The queue -/

theorem mem_pushBigram {bigram x : Bigram} {queue : List Bigram} :
    x ∈ pushBigram bigram queue ↔ x = bigram ∨ x ∈ queue := by
  induction queue with
  | nil => simp [pushBigram]
  | cons head queue ih =>
    rw [pushBigram]
    split
    · exact List.mem_cons
    · rw [List.mem_cons, ih, List.mem_cons]
      tauto

theorem bigramLater_iff {a b : Bigram} :
    bigramLater a b = true ↔ b.rank < a.rank ∨ a.rank = b.rank ∧ b.left < a.left := by
  simp [bigramLater]

/-- The order in which entries leave the queue. -/
def QueueOrdered (queue : List Bigram) : Prop :=
  queue.Pairwise fun a b => bigramLater a b = false

theorem pushBigram_ordered {queue : List Bigram} (h : QueueOrdered queue) (bigram : Bigram) :
    QueueOrdered (pushBigram bigram queue) := by
  induction queue with
  | nil => exact List.pairwise_singleton _ _
  | cons head queue ih =>
    obtain ⟨hhead, hqueue⟩ := List.pairwise_cons.mp h
    rw [pushBigram]
    split
    · rename_i hlater
      refine List.pairwise_cons.mpr ⟨fun x hx => ?_, h⟩
      have hx' : bigramLater head x = false := by
        rcases List.mem_cons.mp hx with rfl | hx
        · simp [bigramLater]
        · exact hhead x hx
      rw [← Bool.not_eq_true, bigramLater_iff] at hx' ⊢
      rw [bigramLater_iff] at hlater
      omega
    · rename_i hlater
      refine List.pairwise_cons.mpr ⟨fun x hx => ?_, ih hqueue⟩
      rcases mem_pushBigram.mp hx with rfl | hx
      · simpa using hlater
      · exact hhead x hx

namespace GemmaTokenizer
variable (t : GemmaTokenizer)

variable (segment) in
/-- The entry's text and rank are those of the symbols it names. -/
def IsBigram (symbols : List Symbol) (bigram : Bigram) : Prop :=
  ∃ left right, symbols[bigram.left]? = some left ∧ symbols[bigram.right]? = some right ∧
    bigram.text = left.text segment ++ right.text segment ∧
    t.mergeRank (left.text segment) (right.text segment) = some bigram.rank

theorem addBigram_of_isBigram {s : BpeState} {x : Bigram} (h : t.IsBigram segment s.symbols x) :
    t.addBigram segment s (some x.left) (some x.right) =
      { s with queue := pushBigram x s.queue } := by
  obtain ⟨left, right, hl, hr, htext, hrank⟩ := h
  unfold Symbol.text at htext hrank
  simp only [addBigram, hl, hr, hrank, ← htext]

theorem addBigram_spec (s : BpeState) (l r : Option Nat) :
    t.addBigram segment s l r = s ∨
    ∃ x, l = some x.left ∧ r = some x.right ∧ t.IsBigram segment s.symbols x ∧
      t.addBigram segment s l r = { s with queue := pushBigram x s.queue } := by
  unfold addBigram
  split
  · rename_i l r
    split
    · rename_i left right hl hr
      dsimp only
      split
      · exact Or.inl rfl
      · rename_i rank hrank
        exact Or.inr ⟨⟨l, r, rank, _⟩, rfl, rfl, ⟨left, right, hl, hr, rfl, hrank⟩, rfl⟩
    · exact Or.inl rfl
  · exact Or.inl rfl

theorem mem_addBigram {s : BpeState} {l r : Option Nat} {x : Bigram} :
    x ∈ (t.addBigram segment s l r).queue ↔
      x ∈ s.queue ∨ l = some x.left ∧ r = some x.right ∧ t.IsBigram segment s.symbols x := by
  constructor
  · intro h
    rcases t.addBigram_spec s l r with he | ⟨y, hl, hr, hy, he⟩ <;> rw [he] at h
    · exact Or.inl h
    · rcases mem_pushBigram.mp h with rfl | h
      · exact Or.inr ⟨hl, hr, hy⟩
      · exact Or.inl h
  · rintro (h | ⟨rfl, rfl, h⟩)
    · rcases t.addBigram_spec s l r with he | ⟨y, -, -, -, he⟩ <;> rw [he]
      · exact h
      · exact mem_pushBigram.mpr (Or.inr h)
    · rw [t.addBigram_of_isBigram h]
      exact mem_pushBigram.mpr (Or.inl rfl)

theorem addBigram_ordered {s : BpeState} (h : QueueOrdered s.queue) (l r : Option Nat) :
    QueueOrdered (t.addBigram segment s l r).queue := by
  rcases t.addBigram_cases segment s l r with he | ⟨_, he⟩ <;> rw [he]
  · exact h
  · exact pushBigram_ordered h _

/-! ## Stale and current entries -/

variable (segment) in
/-- The entry is the pair of two adjacent live symbols as they are now. -/
def Current (symbols : List Symbol) (bigram : Bigram) : Prop :=
  t.IsBigram segment symbols bigram ∧
    ∃ left, symbols[bigram.left]? = some left ∧ 0 < left.size ∧ left.next = some bigram.right

variable (segment) in
/-- What stays true of an entry: the sizes it was made from, of which the left one has
only grown since, unless the symbol is gone. -/
def Recorded (symbols : List Symbol) (bigram : Bigram) : Prop :=
  ∃ left right a b, symbols[bigram.left]? = some left ∧ symbols[bigram.right]? = some right ∧
    (left.size = 0 ∨ a ≤ left.size) ∧ 0 < a ∧ right.offset = left.offset + a ∧
    right.offset + b ≤ segment.length ∧
    bigram.text = substr segment left.offset (a + b) ∧
    t.mergeRank (substr segment left.offset a) (substr segment right.offset b) = some bigram.rank

structure Holds (segment : Bytes) (s : BpeState) (live : List Nat) : Prop where
  linked : Linked segment s.symbols none 0 (some 0) live
  increasing : live.Pairwise (· < ·)
  covers : ∀ i symbol, s.symbols[i]? = some symbol → 0 < symbol.size → i ∈ live
  offsets : (s.symbols.map Symbol.offset).Pairwise (· < ·)
  ordered : QueueOrdered s.queue
  recorded : ∀ bigram ∈ s.queue, t.Recorded segment s.symbols bigram
  complete : ∀ bigram, t.Current segment s.symbols bigram → bigram ∈ s.queue

variable {t} in
theorem recorded_of_current {symbols : List Symbol} {live' : List Nat}
    (hlinked : Linked segment symbols none 0 (some 0) live')
    (hcovers : ∀ i symbol, symbols[i]? = some symbol → 0 < symbol.size → i ∈ live')
    {bigram : Bigram} (hcurrent : t.Current segment symbols bigram) :
    t.Recorded segment symbols bigram := by
  obtain ⟨⟨left, right, hl, hr, htext, hrank⟩, left', hl', hpos, hnext⟩ := hcurrent
  cases hl.symm.trans hl'
  have hmem := hcovers _ _ hl hpos
  obtain ⟨hright, right', hr', -, -, hoffset⟩ := hlinked.next_spec hmem hl hnext
  cases hr.symm.trans hr'
  obtain ⟨right', hr', -, -, hend⟩ := hlinked.get_mem hright
  cases hr.symm.trans hr'
  refine ⟨left, right, left.size, right.size, hl, hr, Or.inr (Nat.le_refl _), hpos, hoffset, hend,
    ?_, hrank⟩
  rw [htext, substr_add, ← hoffset]
  rfl

namespace Holds
variable {t} {s : BpeState} {live : List Nat}

/-- The test of the loop passes exactly on the current entries. -/
theorem current_iff (h : t.Holds segment s live) {bigram : Bigram} {left right : Symbol}
    (hrecorded : t.Recorded segment s.symbols bigram)
    (hl : s.symbols[bigram.left]? = some left) (hr : s.symbols[bigram.right]? = some right) :
    t.Current segment s.symbols bigram ↔
      ¬(left.size = 0 ∨ right.size = 0 ∨
        substr segment left.offset (left.size + right.size) ≠ bigram.text) := by
  constructor
  · rintro ⟨⟨left', right', hl', hr', htext, -⟩, left'', hl'', hpos, hnext⟩
    cases hl.symm.trans hl'
    cases hl.symm.trans hl''
    cases hr.symm.trans hr'
    obtain ⟨-, right'', hr'', hpos', -, hoffset⟩ :=
      h.linked.next_spec (h.covers _ _ hl hpos) hl hnext
    cases hr.symm.trans hr''
    rw [substr_add, ← hoffset, htext]
    simp only [Symbol.text, ne_eq, not_true_eq_false, or_false, not_or]
    omega
  · intro hcheck
    simp only [not_or, ne_eq, not_not] at hcheck
    obtain ⟨hposl, hposr, hsame⟩ := hcheck
    obtain ⟨left', right', a, b, hl', hr', hgrown, hposa, hoffset, hend, htext, hrank⟩ := hrecorded
    cases hl.symm.trans hl'
    cases hr.symm.trans hr'
    have hleft := h.covers _ _ hl (Nat.pos_of_ne_zero hposl)
    have hright := h.covers _ _ hr (Nat.pos_of_ne_zero hposr)
    have hne : bigram.left ≠ bigram.right := by
      intro e
      rw [e, hr] at hl
      cases hl
      omega
    -- a left symbol that had grown would cover the start of the right one
    have hsize : left.size = a := by
      rcases h.linked.disjoint hleft hright hl hr hne with hd | hd <;> omega
    subst a
    obtain ⟨right', hr', -, -, hbound⟩ := h.linked.get_mem hright
    cases hr.symm.trans hr'
    have hsize' : right.size = b := by
      have := congrArg List.length hsame
      rw [htext, substr_length (by omega), substr_length (by omega)] at this
      omega
    subst b
    refine ⟨⟨left, right, hl, hr, ?_, hrank⟩, left, hl, Nat.pos_of_ne_zero hposl,
      h.linked.next_of_offset hleft hright hl hr hoffset⟩
    rw [htext, substr_add, ← hoffset]
    rfl

/-- A popped entry that is stale leaves the rest complete. -/
theorem pop (h : t.Holds segment s live) {bigram : Bigram} {queue : List Bigram}
    (hq : s.queue = bigram :: queue) (hstale : ¬t.Current segment s.symbols bigram) :
    t.Holds segment { s with queue } live := by
  have hordered := h.ordered
  have hrecorded := h.recorded
  rw [hq] at hordered hrecorded
  refine ⟨h.linked, h.increasing, h.covers, h.offsets, (List.pairwise_cons.mp hordered).2,
    fun x hx => hrecorded x (List.mem_cons_of_mem _ hx), fun x hx => ?_⟩
  have hmem := h.complete x hx
  rw [hq] at hmem
  exact (List.mem_cons.mp hmem).resolve_left fun e => hstale (e ▸ hx)

/-- A pair of texts that has a rank is a pair of neighbours. -/
theorem ranked_pair (h : t.Holds segment s live) {i k : Nat}
    (hk : pairRank t.mergeRank (live.map (textAt segment s.symbols)) i = some k) :
    ∃ pre l r post left right, live = pre ++ l :: r :: post ∧ pre.length = i ∧
      s.symbols[l]? = some left ∧ s.symbols[r]? = some right ∧ 0 < left.size ∧
      left.next = some r ∧ t.mergeRank (left.text segment) (right.text segment) = some k := by
  obtain ⟨pre, x, y, post, hsplit, hlen, hrank⟩ := pairRank_eq_some hk
  obtain ⟨pre, rest, rfl, rfl, hrest⟩ := List.map_eq_append_iff.mp hsplit
  obtain ⟨l, tail, rfl, rfl, htail⟩ := List.map_eq_cons_iff.mp hrest
  obtain ⟨r, post, rfl, rfl, rfl⟩ := List.map_eq_cons_iff.mp htail
  obtain ⟨left, hl, hpos, -, hnext, -⟩ := h.linked.split
  obtain ⟨-, right, hr, -⟩ := h.linked.next_spec (by simp) hl hnext
  rw [Linked.textAt_eq hl, Linked.textAt_eq hr] at hrank
  exact ⟨pre, l, r, post, left, right, rfl, by simpa using hlen, hl, hr, hpos, hnext, hrank⟩

/-- A current entry that is popped first names the lowest pair. -/
theorem isLowest (h : t.Holds segment s live) {bigram : Bigram} {queue : List Bigram}
    (hq : s.queue = bigram :: queue) {pre post : List Nat}
    (hlive : live = pre ++ bigram.left :: bigram.right :: post)
    (hbigram : t.IsBigram segment s.symbols bigram) :
    IsLowest t.mergeRank (live.map (textAt segment s.symbols)) bigram.rank pre.length := by
  constructor
  · obtain ⟨left, right, hl, hr, -, hrank⟩ := hbigram
    rw [hlive, List.map_append, List.map_cons, List.map_cons,
      ← pre.length_map (textAt segment s.symbols), pairRank_append, Linked.textAt_eq hl,
      Linked.textAt_eq hr, hrank]
  · intro k' i' hk'
    obtain ⟨pre', l', r', post', left, right, hlive', rfl, hl, hr, hpos, hnext, hrank⟩ :=
      h.ranked_pair hk'
    have hmem := h.complete ⟨l', r', k', left.text segment ++ right.text segment⟩
      ⟨⟨left, right, hl, hr, rfl, hrank⟩, left, hl, hpos, hnext⟩
    have hlater : bigramLater bigram
        ⟨l', r', k', left.text segment ++ right.text segment⟩ = false := by
      have hordered := h.ordered
      rw [hq] at hmem hordered
      rcases List.mem_cons.mp hmem with e | hmem
      · simp [← e, bigramLater]
      · exact (List.pairwise_cons.mp hordered).1 _ hmem
    rw [← Bool.not_eq_true, bigramLater_iff] at hlater
    rcases Nat.lt_or_ge bigram.rank k' with hlt | hge
    · exact Or.inl hlt
    · dsimp only at hlater
      refine Or.inr ⟨by omega, ?_⟩
      by_contra hlt
      have hpre : l' ∈ pre := by
        have hget : (pre ++ bigram.left :: bigram.right :: post)[pre'.length]? = some l' := by
          rw [← hlive, hlive']
          simp
        rw [List.getElem?_append_left (by omega)] at hget
        exact List.mem_of_getElem? hget
      have hincreasing := h.increasing
      rw [hlive] at hincreasing
      have := (List.pairwise_append.mp hincreasing).2.2 l' hpre bigram.left (by simp)
      omega

end Holds

theorem Recorded.joined {t : GemmaTokenizer} {symbols : List Symbol} {l r : Nat}
    {left right : Symbol} {pre post : List Nat} (p : Neighbours symbols l r left right pre post)
    {x : Bigram} (h : t.Recorded segment symbols x) :
    t.Recorded segment (joined symbols l r left right) x := by
  obtain ⟨xl, xr, a, b, hxl, hxr, hsize, ha, hoffset, hend, htext, hrank⟩ := h
  obtain ⟨xl', hxl', hloffset, hlsize⟩ := p.joined_grows hxl
  obtain ⟨xr', hxr', hroffset, -⟩ := p.joined_grows hxr
  refine ⟨xl', xr', a, b, hxl', hxr', by omega, ha, by omega, by omega, ?_, ?_⟩
  · rw [htext, hloffset]
  · rw [hloffset, hroffset, hrank]

variable (segment) in
theorem mergeStep_eq {s : BpeState} {bigram : Bigram} {left right : Symbol}
    (hl : s.symbols[bigram.left]? = some left) (hr : s.symbols[bigram.right]? = some right) :
    t.mergeStep segment bigram s =
      if left.size = 0 ∨ right.size = 0 ∨
        substr segment left.offset (left.size + right.size) ≠ bigram.text then s
      else
        t.addBigram segment
          (t.addBigram segment
            { s with symbols := joined s.symbols bigram.left bigram.right left right }
            left.previous (some bigram.left))
          (some bigram.left) right.next := by
  simp only [mergeStep, hl, hr]
  rfl

namespace Holds
variable {t} {s : BpeState} {live : List Nat}

/-- The state after the pair of the popped entry has been joined. -/
theorem join (h : t.Holds segment s live) {bigram : Bigram} {queue : List Bigram}
    (hq : s.queue = bigram :: queue) {left right : Symbol} {pre post : List Nat}
    (hlive : live = pre ++ bigram.left :: bigram.right :: post)
    (p : Neighbours s.symbols bigram.left bigram.right left right pre post) :
    t.Holds segment
      (t.addBigram segment
        (t.addBigram segment
          ⟨joined s.symbols bigram.left bigram.right left right, queue⟩
          left.previous (some bigram.left))
        (some bigram.left) right.next) (pre ++ bigram.left :: post) := by
  have hlinked := p.linked (hlive ▸ h.linked)
  have hcovers : ∀ i symbol, (joined s.symbols bigram.left bigram.right left right)[i]? = some symbol →
      0 < symbol.size → i ∈ pre ++ bigram.left :: post := by
    intro i symbol hget hpos
    by_cases hir : i = bigram.right
    · subst i
      cases p.joined_right.symm.trans hget
      exact absurd hpos (Nat.lt_irrefl 0)
    · by_cases hil : i = bigram.left
      · simp [hil]
      · obtain ⟨relink, he⟩ := p.joined_other ⟨hil, hir⟩
        rw [hget] at he
        obtain ⟨symbol', hget', rfl⟩ := Option.map_eq_some_iff.mp he.symm
        have := h.covers i symbol' hget' hpos
        rw [hlive] at this
        simpa [hil, hir] using this
  have hordered := h.ordered
  have hrecorded := h.recorded
  rw [hq] at hordered hrecorded
  refine ⟨?_, ?_, ?_, ?_, ?_, ?_, ?_⟩
  · simpa using hlinked
  · exact (hlive ▸ h.increasing).sublist ((List.sublist_cons_self _ _).cons_cons _ |>.append_left _)
  · simpa using hcovers
  · simpa [p.joined_offsets] using h.offsets
  · refine t.addBigram_ordered (t.addBigram_ordered ?_ _ _) _ _
    exact (List.pairwise_cons.mp hordered).2
  · intro x hx
    rw [addBigram_symbols, addBigram_symbols]
    rw [mem_addBigram, mem_addBigram, addBigram_symbols] at hx
    rcases hx with (hx | ⟨hprevious, hxr, hx⟩) | ⟨hxl, hnext, hx⟩
    · exact (hrecorded x (List.mem_cons_of_mem _ hx)).joined p
    · obtain ⟨before, hbefore, hpos, hnext⟩ :=
        hlinked.previous_spec (by simp) p.joined_left hprevious
      rw [hxr] at hnext
      exact recorded_of_current hlinked hcovers ⟨hx, before, hbefore, hpos, hnext⟩
    · refine recorded_of_current hlinked hcovers
        ⟨hx, { left with size := left.size + right.size, next := right.next }, ?_,
          Nat.add_pos_left p.left_pos _, hnext⟩
      rw [← Option.some.inj hxl]
      exact p.joined_left
  · intro x hx
    rw [addBigram_symbols, addBigram_symbols] at hx
    rw [mem_addBigram, mem_addBigram, addBigram_symbols]
    obtain ⟨hbigram, xl, hxl, hpos, hnext⟩ := hx
    obtain ⟨hmem, xr, hxr, hposr, hprevious, -⟩ :=
      hlinked.next_spec (hcovers _ _ hxl hpos) hxl hnext
    by_cases hl : x.left = bigram.left
    · rw [hl, p.joined_left] at hxl
      cases hxl
      exact Or.inr ⟨by rw [hl], hnext, hbigram⟩
    · by_cases hr : x.right = bigram.left
      · rw [hr, p.joined_left] at hxr
        cases hxr
        exact Or.inl (Or.inr ⟨hprevious, by rw [hr], hbigram⟩)
      · -- away from the merge nothing has changed
        have hne : ∀ i symbol, (joined s.symbols bigram.left bigram.right left right)[i]? = some symbol →
            0 < symbol.size → i ≠ bigram.right := by
          rintro i symbol hget hpos rfl
          cases p.joined_right.symm.trans hget
          exact Nat.lt_irrefl 0 hpos
        obtain ⟨_, hel⟩ := p.joined_other ⟨hl, hne _ _ hxl hpos⟩
        obtain ⟨_, her⟩ := p.joined_other ⟨hr, hne _ _ hxr hposr⟩
        obtain ⟨xl', xr', hxl', hxr', htext, hrank⟩ := hbigram
        cases hxl.symm.trans hxl'
        cases hxr.symm.trans hxr'
        rw [hel] at hxl
        rw [her] at hxr
        obtain ⟨yl, hyl, rfl⟩ := Option.map_eq_some_iff.mp hxl
        obtain ⟨yr, hyr, rfl⟩ := Option.map_eq_some_iff.mp hxr
        have hmem := h.complete x ⟨⟨yl, yr, hyl, hyr, htext, hrank⟩, yl, hyl, hpos, hnext⟩
        rw [hq] at hmem
        exact Or.inl (Or.inl ((List.mem_cons.mp hmem).resolve_left fun e => hl (by rw [e])))

/-- A popped entry that is current is merged. -/
theorem merge (h : t.Holds segment s live) {bigram : Bigram} {queue : List Bigram}
    (hq : s.queue = bigram :: queue) (hcurrent : t.Current segment s.symbols bigram) :
    ∃ i live', IsLowest t.mergeRank (live.map (textAt segment s.symbols)) bigram.rank i ∧
      t.Holds segment (t.mergeStep segment bigram { s with queue }) live' ∧
      live'.map (textAt segment (t.mergeStep segment bigram { s with queue }).symbols) =
        mergeAt (· ++ ·) (live.map (textAt segment s.symbols)) i := by
  have hbigram := hcurrent.1
  have hrecorded := h.recorded bigram (by simp [hq])
  obtain ⟨-, left, hl, hpos, hnext⟩ := hcurrent
  obtain ⟨right, pre, post, rfl, p⟩ :=
    h.linked.neighbours (h.increasing.imp Nat.ne_of_lt) hl (h.covers _ _ hl hpos) hnext
  have hstep := t.mergeStep_eq segment (s := { s with queue }) hl p.right_eq
  rw [if_neg ((h.current_iff hrecorded hl p.right_eq).mp
    ⟨hbigram, left, hl, hpos, hnext⟩)] at hstep
  refine ⟨pre.length, pre ++ bigram.left :: post, h.isLowest hq rfl hbigram, ?_, ?_⟩
  · rw [hstep]
    exact h.join hq rfl p
  · rw [hstep, addBigram_symbols, addBigram_symbols]
    exact p.texts_joined

/-- The loop drops the stale entries and no others. -/
theorem discard_iff (h : t.Holds segment s live) {bigram : Bigram} {queue : List Bigram}
    (hq : s.queue = bigram :: queue) :
    t.mergeStep segment bigram { s with queue } = { s with queue } ↔
      ¬t.Current segment s.symbols bigram := by
  have hrecorded := h.recorded bigram (by simp [hq])
  have hrecorded' := hrecorded
  obtain ⟨left, right, -, -, hl, hr, -⟩ := hrecorded'
  have hstep := t.mergeStep_eq segment (s := { s with queue }) hl hr
  rw [h.current_iff hrecorded hl hr, not_not]
  refine ⟨fun he => ?_, fun hcheck => by rw [hstep, if_pos hcheck]⟩
  by_contra hcheck
  rw [if_neg hcheck, he] at hstep
  obtain ⟨-, left', hl', hpos, hnext⟩ := (h.current_iff hrecorded hl hr).mpr hcheck
  cases hl.symm.trans hl'
  obtain ⟨right', pre, post, -, p⟩ :=
    h.linked.neighbours (h.increasing.imp Nat.ne_of_lt) hl (h.covers _ _ hl hpos) hnext
  cases hr.symm.trans p.right_eq
  have hsymbols := congrArg BpeState.symbols hstep
  rw [addBigram_symbols, addBigram_symbols] at hsymbols
  have hright := p.joined_right
  dsimp only at hsymbols
  rw [← hsymbols, hr] at hright
  rw [Option.some.inj hright] at hcheck
  simp at hcheck

theorem step (h : t.Holds segment s live) {bigram : Bigram} {queue : List Bigram}
    (hq : s.queue = bigram :: queue) :
    ∃ live', t.Holds segment (t.mergeStep segment bigram { s with queue }) live' ∧
      mergeAll t.mergeRank (· ++ ·)
          (live'.map (textAt segment (t.mergeStep segment bigram { s with queue }).symbols)) =
        mergeAll t.mergeRank (· ++ ·) (live.map (textAt segment s.symbols)) := by
  by_cases hcurrent : t.Current segment s.symbols bigram
  · obtain ⟨i, live', hlowest, hholds, htexts⟩ := h.merge hq hcurrent
    exact ⟨live', hholds, by rw [htexts, mergeAll_of_lowest hlowest]⟩
  · rw [(h.discard_iff hq).mpr hcurrent]
    exact ⟨live, h.pop hq hcurrent, rfl⟩

theorem loop (h : t.Holds segment s live) (turns : Nat) :
    ∃ live', t.Holds segment (t.mergeLoop segment turns s) live' ∧
      mergeAll t.mergeRank (· ++ ·)
          (live'.map (textAt segment (t.mergeLoop segment turns s).symbols)) =
        mergeAll t.mergeRank (· ++ ·) (live.map (textAt segment s.symbols)) := by
  induction turns generalizing s live with
  | zero => exact ⟨live, h, rfl⟩
  | succ turns ih =>
    unfold mergeLoop
    split
    · exact ⟨live, h, rfl⟩
    · rename_i bigram queue hq
      obtain ⟨live', hstep, htexts⟩ := h.step hq
      obtain ⟨live'', hholds, htexts'⟩ := ih hstep
      exact ⟨live'', hholds, htexts'.trans htexts⟩

/-- With an empty queue no two neighbours have a rank. -/
theorem exhausted (h : t.Holds segment s live) (hq : s.queue = []) :
    mergeAll t.mergeRank (· ++ ·) (live.map (textAt segment s.symbols)) =
      live.map (textAt segment s.symbols) := by
  apply mergeAll_of_none
  intro i
  by_contra hi
  obtain ⟨k, hk⟩ := Option.ne_none_iff_exists'.mp hi
  obtain ⟨pre, l, r, post, left, right, rfl, -, hl, hr, hpos, hnext, hrank⟩ := h.ranked_pair hk
  have := h.complete ⟨l, r, k, left.text segment ++ right.text segment⟩
    ⟨⟨left, right, hl, hr, rfl, hrank⟩, left, hl, hpos, hnext⟩
  rw [hq] at this
  cases this

/-- Entries that the queue cannot order are equal, so it has only one order. -/
theorem ordered_eq (h : t.Holds segment s live) {x y : Bigram} (hx : x ∈ s.queue)
    (hy : y ∈ s.queue) (hxy : bigramLater x y = false) (hyx : bigramLater y x = false) :
    x = y := by
  rw [← Bool.not_eq_true, bigramLater_iff] at hxy hyx
  have hrank : x.rank = y.rank := by omega
  have hleft : x.left = y.left := by omega
  obtain ⟨xl, xr, a, b, hxl, hxr, -, -, hxo, hxe, hxt, hxk⟩ := h.recorded x hx
  obtain ⟨yl, yr, a', b', hyl, hyr, -, -, hyo, hye, hyt, hyk⟩ := h.recorded y hy
  rw [hleft, hyl] at hxl
  cases hxl
  rw [hrank] at hxk
  obtain ⟨ha, hb⟩ := t.mergeRank_injective hxk hyk
  have ha := congrArg List.length ha
  have hb := congrArg List.length hb
  rw [substr_length (by omega), substr_length (by omega)] at ha hb
  subst a' b'
  have hright : x.right = y.right := by
    have hoffsets := List.pairwise_iff_getElem.mp h.offsets
    obtain ⟨hxlt, hxget⟩ := List.getElem?_eq_some_iff.mp hxr
    obtain ⟨hylt, hyget⟩ := List.getElem?_eq_some_iff.mp hyr
    have hlt := hoffsets x.right y.right (by simpa) (by simpa)
    have hgt := hoffsets y.right x.right (by simpa) (by simpa)
    simp only [List.getElem_map, hxget, hyget] at hlt hgt
    omega
  obtain ⟨l, r, k, text⟩ := x
  obtain ⟨l', r', k', text'⟩ := y
  simp only [Bigram.mk.injEq]
  exact ⟨hleft, hright, hrank, hxt.trans hyt.symm⟩

end Holds

/-! ## The start -/

variable (segment) in
theorem splitSymbols_linked {symbols pre : List Symbol} {fuel offset index : Nat}
    (hsymbols : symbols = pre ++ splitSymbols segment fuel offset index)
    (hindex : pre.length = index) (hfuel : segment.length ≤ offset + fuel)
    (hoffset : offset ≤ segment.length) :
    Linked segment symbols (if index = 0 then none else some (index - 1)) offset
      (if offset = segment.length then none else some index)
      (List.range' index (splitSymbols segment fuel offset index).length) := by
  induction fuel generalizing pre offset index with
  | zero =>
    have : offset = segment.length := by omega
    rw [if_pos this]
    exact Linked.nil this
  | succ fuel ih =>
    rw [splitSymbols] at hsymbols ⊢
    cases hget : segment[offset]? with
    | none =>
      have : offset = segment.length := by
        rw [List.getElem?_eq_none_iff] at hget
        omega
      rw [if_pos this]
      exact Linked.nil this
    | some first =>
      have hlt := (List.getElem?_eq_some_iff.mp hget).1
      have hsize := @utf8CharacterSize_bounds first (segment.length - offset) (by omega)
      rw [hget] at hsymbols
      dsimp only at hsymbols ⊢
      rw [if_neg (Nat.ne_of_lt hlt), List.length_cons, List.range'_succ]
      rw [List.append_cons] at hsymbols
      have htail := ih hsymbols (by rw [List.length_append, hindex]; rfl) (by omega) (by omega)
      rw [if_neg (Nat.succ_ne_zero index), Nat.add_sub_cancel] at htail
      refine Linked.cons ?_ hsize.1 htail
      rw [hsymbols, ← List.append_cons, List.getElem?_append_right (by omega), hindex, Nat.sub_self]
      rfl

variable (segment) in
theorem splitSymbols_offsets {fuel offset index : Nat} (hoffset : offset ≤ segment.length) :
    ((splitSymbols segment fuel offset index).map Symbol.offset).Pairwise (· < ·) ∧
      ∀ symbol ∈ splitSymbols segment fuel offset index, offset ≤ symbol.offset := by
  induction fuel generalizing offset index with
  | zero => exact ⟨List.Pairwise.nil, by simp [splitSymbols]⟩
  | succ fuel ih =>
    rw [splitSymbols]
    cases hget : segment[offset]? with
    | none => exact ⟨List.Pairwise.nil, by simp⟩
    | some first =>
      have hlt := (List.getElem?_eq_some_iff.mp hget).1
      have hsize := @utf8CharacterSize_bounds first (segment.length - offset) (by omega)
      have hend : offset + utf8CharacterSize first (segment.length - offset) ≤ segment.length := by
        omega
      obtain ⟨hsorted, hle⟩ := @ih _ (index + 1) hend
      dsimp only
      refine ⟨?_, fun symbol hmem => ?_⟩
      · rw [List.map_cons, List.pairwise_cons]
        refine ⟨fun o ho => ?_, hsorted⟩
        obtain ⟨symbol, hmem, rfl⟩ := List.mem_map.mp ho
        have := hle symbol hmem
        dsimp only
        omega
      · rcases List.mem_cons.mp hmem with rfl | hmem
        · exact Nat.le_refl offset
        · have := hle symbol hmem
          omega

variable (segment) in
/-- Adding the pairs `i - 1, i` for the listed `i`. -/
theorem addBigrams_spec (indices : List Nat) (s : BpeState) (hordered : QueueOrdered s.queue) :
    let s' := indices.foldl (fun s i => t.addBigram segment s (some (i - 1)) (some i)) s
    s'.symbols = s.symbols ∧ QueueOrdered s'.queue ∧
      ∀ x, x ∈ s'.queue ↔ x ∈ s.queue ∨
        x.right ∈ indices ∧ x.left = x.right - 1 ∧ t.IsBigram segment s.symbols x := by
  induction indices generalizing s with
  | nil => exact ⟨rfl, hordered, by simp⟩
  | cons i indices ih =>
    obtain ⟨hsymbols, hordered', hqueue⟩ :=
      ih (t.addBigram segment s (some (i - 1)) (some i)) (t.addBigram_ordered hordered _ _)
    rw [addBigram_symbols] at hsymbols hqueue
    refine ⟨hsymbols, hordered', fun x => ?_⟩
    rw [List.foldl_cons, hqueue, mem_addBigram, List.mem_cons]
    constructor
    · rintro ((hx | ⟨hl, hr, hx⟩) | ⟨hr, hl, hx⟩)
      · exact Or.inl hx
      · have hr := Option.some.inj hr
        exact Or.inr ⟨Or.inl hr.symm, hr ▸ (Option.some.inj hl).symm, hx⟩
      · exact Or.inr ⟨Or.inr hr, hl, hx⟩
    · rintro (hx | ⟨hr | hr, hl, hx⟩)
      · exact Or.inl (Or.inl hx)
      · exact Or.inl (Or.inr ⟨by rw [hl, hr], by rw [hr], hx⟩)
      · exact Or.inr ⟨hr, hl, hx⟩

theorem range_head {n i j : Nat} {pre post : List Nat} (h : List.range n = pre ++ i :: post) :
    post.head? = some j ↔ j = i + 1 ∧ j < n := by
  have hi : pre.length = i := by
    have hget := congrArg (·[pre.length]?) h
    simp only [List.getElem?_append_right (Nat.le_refl _), Nat.sub_self,
      List.getElem?_cons_zero] at hget
    rw [List.getElem?_eq_some_iff] at hget
    obtain ⟨_, hget⟩ := hget
    simpa using hget
  have hhead : post.head? = (List.range n)[i + 1]? := by
    rw [h, ← hi, List.getElem?_append_right (Nat.le_succ _), Nat.succ_sub (Nat.le_refl _),
      Nat.sub_self, List.getElem?_cons_succ, List.head?_eq_getElem?]
  rw [hhead, List.getElem?_eq_some_iff]
  constructor
  · rintro ⟨hlt, hget⟩
    rw [List.getElem_range] at hget
    rw [List.length_range] at hlt
    omega
  · rintro ⟨rfl, hlt⟩
    exact ⟨by simpa, by simp⟩

variable (segment) in
def splitLength : Nat := (splitSymbols segment segment.length 0 0).length

variable (segment) in
theorem initialState_spec :
    (t.initialState segment).symbols = splitSymbols segment segment.length 0 0 ∧
    QueueOrdered (t.initialState segment).queue ∧
    ∀ x, x ∈ (t.initialState segment).queue ↔
      0 < x.right ∧ x.right < splitLength segment ∧ x.left = x.right - 1 ∧
        t.IsBigram segment (splitSymbols segment segment.length 0 0) x := by
  obtain ⟨hsymbols, hordered, hqueue⟩ := t.addBigrams_spec segment
    (List.range' 1 (splitLength segment - 1)) ⟨splitSymbols segment segment.length 0 0, []⟩
    List.Pairwise.nil
  refine ⟨hsymbols, hordered, fun x => (hqueue x).trans ?_⟩
  simp only [List.not_mem_nil, false_or, List.mem_range'_1, ← and_assoc]
  refine and_congr_left fun _ => and_congr_left fun _ => ?_
  omega

theorem initialState_holds (hne : segment ≠ []) :
    t.Holds segment (t.initialState segment) (List.range (splitLength segment)) := by
  obtain ⟨hsymbols, hordered, hqueue⟩ := t.initialState_spec segment
  have hlinked := splitSymbols_linked segment (List.nil_append _).symm List.length_nil
    (Nat.le_of_eq (Nat.zero_add _).symm) (Nat.zero_le _)
  rw [if_pos rfl, if_neg fun e => hne (List.length_eq_zero_iff.mp e.symm),
    ← List.range_eq_range'] at hlinked
  have hcovers : ∀ i symbol, (splitSymbols segment segment.length 0 0)[i]? = some symbol →
      0 < symbol.size → i ∈ List.range (splitLength segment) :=
    fun i symbol hget _ => List.mem_range.mpr (List.getElem?_eq_some_iff.mp hget).1
  have hcurrent : ∀ x, t.Current segment (splitSymbols segment segment.length 0 0) x ↔
      x ∈ (t.initialState segment).queue := by
    intro x
    rw [hqueue]
    constructor
    · rintro ⟨hbigram, left, hl, hpos, hnext⟩
      obtain ⟨pre, post, hrange⟩ := List.append_of_mem (hcovers _ _ hl hpos)
      obtain ⟨left', hl', -, -, hhead, -⟩ := (hrange ▸ hlinked).split
      cases hl.symm.trans hl'
      obtain ⟨hright, hlt⟩ := (range_head hrange).mp (hhead ▸ hnext)
      exact ⟨by omega, hlt, by omega, hbigram⟩
    · rintro ⟨hpos, hlt, hleft, hbigram⟩
      have hmem : x.left ∈ List.range (splitLength segment) := List.mem_range.mpr (by omega)
      obtain ⟨pre, post, hrange⟩ := List.append_of_mem hmem
      obtain ⟨left, hl, hsize, -, hhead, -⟩ := (hrange ▸ hlinked).split
      exact ⟨hbigram, left, hl, hsize, hhead.trans ((range_head hrange).mpr ⟨by omega, hlt⟩)⟩
  refine ⟨?_, List.pairwise_lt_range, ?_, ?_, hordered, ?_, ?_⟩ <;> rw [hsymbols]
  · exact hlinked
  · exact hcovers
  · exact (splitSymbols_offsets segment (Nat.zero_le _)).1
  · exact fun x hx => recorded_of_current hlinked hcovers ((hcurrent x).mpr hx)
  · exact fun x hx => (hcurrent x).mp hx

/-! ## The ids of a segment -/

def splitTexts (segment : Bytes) : List Bytes :=
  (splitSymbols segment segment.length 0 0).map (Symbol.text segment)

/-- A piece is emitted as its id or, outside the vocabulary, byte by byte. -/
def Emits (text : Bytes) (ids : List TokenId) : Prop :=
  (∃ id, t.pieceToId text = some id ∧ ids = [id]) ∨
  t.pieceToId text = none ∧
    List.Forall₂ (fun b id => t.pieceToId (bytePiece b) = some id) text ids

/-- A run of newlines that is a piece itself. -/
def newlineToken (segment : Bytes) : Option TokenId :=
  if segment ≠ [] ∧ segment.all (· = byte '\n') then t.pieceToId segment else none

theorem emitSymbol_eq_ok {text : Bytes} {ids : List TokenId} :
    t.emitSymbol text = .ok ids ↔ t.Emits text ids := by
  unfold emitSymbol Emits
  cases t.pieceToId text with
  | some id => simp [eq_comm]
  | none =>
    simp only [reduceCtorEq, false_and, exists_false, true_and, false_or, mapM_eq_ok]
    constructor
    · refine List.Forall₂.imp fun b id h => ?_
      split at h
      · rename_i hid
        rw [hid, Except.ok.inj h]
      · cases h
    · refine List.Forall₂.imp fun b id h => ?_
      rw [h]

theorem range_texts (segment : Bytes) (symbols : List Symbol) :
    (List.range symbols.length).map (textAt segment symbols) =
      symbols.map (Symbol.text segment) := by
  refine List.ext_getElem (by simp) fun i h h' => ?_
  rw [List.getElem_map, List.getElem_range, List.getElem_map]
  exact Linked.textAt_eq (List.getElem?_eq_getElem _)

theorem mergedSymbols_holds {segment : Bytes} (hne : segment ≠ []) :
    ∃ live, t.Holds segment (t.mergeLoop segment (mergeFuel (t.initialState segment))
        (t.initialState segment)) live ∧
      live.map (textAt segment (t.mergedSymbols segment)) =
        mergeAll t.mergeRank (· ++ ·) (splitTexts segment) := by
  obtain ⟨live, hholds, htexts⟩ := (t.initialState_holds hne).loop
    (mergeFuel (t.initialState segment))
  refine ⟨live, hholds, ?_⟩
  rw [hholds.exhausted (t.mergeLoop_terminates segment _)] at htexts
  refine htexts.trans ?_
  rw [(t.initialState_spec segment).1, splitLength, range_texts]
  rfl

theorem Holds.length_le {t : GemmaTokenizer} {segment : Bytes} {s : BpeState} {live : List Nat}
    (h : t.Holds segment s live) : live.length ≤ s.symbols.length := by
  have hsub : live ⊆ List.range s.symbols.length := by
    intro i hi
    obtain ⟨symbol, hget, -⟩ := h.linked.get_mem hi
    exact List.mem_range.mpr (List.getElem?_eq_some_iff.mp hget).1
  have := (List.subperm_of_subset (h.increasing.imp Nat.ne_of_lt) hsub).length_le
  rwa [List.length_range] at this

theorem mergedTexts_eq (segment : Bytes) :
    symbolTexts segment (t.mergedSymbols segment) (t.mergedSymbols segment).length (some 0) =
      mergeAll t.mergeRank (· ++ ·) (splitTexts segment) := by
  by_cases hne : segment = []
  · subst segment
    rw [mergeAll_of_none fun _ => rfl]
    rfl
  · obtain ⟨live, hholds, htexts⟩ := t.mergedSymbols_holds hne
    rw [← htexts]
    exact hholds.linked.symbolTexts_eq hholds.length_le

theorem mergeLoop_of_empty {segment : Bytes} {s : BpeState} (h : s.queue = []) (turns : Nat) :
    t.mergeLoop segment turns s = s := by
  cases turns with
  | zero => rfl
  | succ turns =>
    unfold mergeLoop
    split
    · rfl
    · rename_i hq
      rw [h] at hq
      cases hq

theorem mergeLoop_add (segment : Bytes) (a b : Nat) (s : BpeState) :
    t.mergeLoop segment (a + b) s = t.mergeLoop segment b (t.mergeLoop segment a s) := by
  induction a generalizing s with
  | zero => rw [Nat.zero_add, mergeLoop]
  | succ a ih =>
    cases hq : s.queue with
    | nil => rw [mergeLoop_of_empty t hq, mergeLoop_of_empty t hq, mergeLoop_of_empty t hq]
    | cons bigram queue =>
      rw [Nat.succ_add]
      simp only [mergeLoop, hq]
      exact ih _

theorem mergedTexts_flatten (segment : Bytes) :
    (mergeAll t.mergeRank (· ++ ·) (splitTexts segment)).flatten = segment := by
  by_cases hne : segment = []
  · subst segment
    rw [mergeAll_of_none fun _ => rfl]
    rfl
  · obtain ⟨live, hholds, htexts⟩ := t.mergedSymbols_holds hne
    rw [← htexts]
    exact hholds.linked.flatten_texts

theorem tokenizeSegment_eq_ok {segment : Bytes} {ids : List TokenId} :
    t.tokenizeSegment segment = .ok ids ↔
      match t.newlineToken segment with
      | some id => ids = [id]
      | none => ∃ groups,
        List.Forall₂ t.Emits (mergeAll t.mergeRank (· ++ ·) (splitTexts segment)) groups ∧
          ids = groups.flatten := by
  unfold tokenizeSegment newlineToken
  by_cases hne : segment = []
  · rw [if_pos hne, if_neg fun h => h.1 hne, hne, mergeAll_of_none fun _ => rfl]
    simp [splitTexts, splitSymbols, eq_comm]
  · rw [if_neg hne]
    simp only [hne, ne_eq, not_false_eq_true, true_and]
    generalize (if (segment.all fun b => decide (b = byte '\n')) = true
      then t.pieceToId segment else none) = whole
    cases whole with
    | some id => simp [eq_comm]
    | none =>
      simp only [t.mergedTexts_eq, bind_eq_ok, mapM_eq_ok, emitSymbol_eq_ok, pure_eq_ok,
        Except.ok.injEq]
      exact exists_congr fun groups => and_congr_right fun _ => eq_comm

/-- The queue loop ends and leaves what plain byte-pair encoding makes of the split
segment. On the way it drops an entry exactly when it is stale, and entries that the
queue cannot order are equal. The ids are those of the merged pieces in order. -/
theorem tokenizeSegment_refines (segment : Bytes) :
    let start := t.initialState segment
    let final := t.mergeLoop segment (mergeFuel start) start
    let merged := mergeAll t.mergeRank (· ++ ·) (splitTexts segment)
    (final.queue = [] ∧
      ∀ turns, mergeFuel start ≤ turns → t.mergeLoop segment turns start = final) ∧
    symbolTexts segment final.symbols final.symbols.length (some 0) = merged ∧
    (∀ turns bigram queue,
      let s := t.mergeLoop segment turns start
      s.queue = bigram :: queue →
        (t.mergeStep segment bigram { s with queue } = { s with queue } ↔
          ¬t.Current segment s.symbols bigram) ∧
        ∀ x ∈ queue, bigramLater x bigram = false → x = bigram) ∧
    ∀ ids, t.tokenizeSegment segment = .ok ids ↔
      match t.newlineToken segment with
      | some id => ids = [id]
      | none => ∃ groups, List.Forall₂ t.Emits merged groups ∧ ids = groups.flatten := by
  intro start final merged
  have hempty := t.mergeLoop_terminates segment start
  refine ⟨⟨hempty, fun turns hle => ?_⟩, t.mergedTexts_eq segment, fun turns bigram queue => ?_,
    fun ids => ?_⟩
  · obtain ⟨more, rfl⟩ := Nat.exists_eq_add_of_le hle
    rw [mergeLoop_add, mergeLoop_of_empty t hempty]
  · intro s hq
    by_cases hne : segment = []
    · have hstart : start.queue = [] := by
        simp only [start, hne]
        rfl
      rw [show s = start from t.mergeLoop_of_empty hstart turns, hstart] at hq
      cases hq
    · obtain ⟨live, hholds, -⟩ := (t.initialState_holds hne).loop turns
      refine ⟨hholds.discard_iff hq, fun x hx hlater => ?_⟩
      have hordered := hholds.ordered
      change QueueOrdered s.queue at hordered
      rw [hq] at hordered
      exact hholds.ordered_eq (by rw [hq]; exact List.mem_cons_of_mem _ hx)
        (by rw [hq]; exact List.mem_cons_self) hlater ((List.pairwise_cons.mp hordered).1 x hx)
  · exact t.tokenizeSegment_eq_ok

end GemmaTokenizer

end Branchscore
