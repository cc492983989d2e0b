import Branchscore.Foundation.Search

/-!
# Greedy scanning for a list of patterns

At every position the scanner takes the earliest occurrence of any pattern, the
first of the list among those that start there, and leaves the text before it as
a raw chunk. `Segments` is that segmentation as a relation. Its main theorem is
the barrier: where a pattern starts and none straddles, the two sides of a text
are segmented independently.
-/

namespace Foundation.Scan

open Search
set_option autoImplicit false

universe u v
variable {α : Type u} {P : Type v} [DecidableEq α] (text : P → List α)

/-- One step of the earliest-match search: a later pattern wins only with a strictly
earlier occurrence. -/
def better (input : List α) (best : Option (Nat × P)) (p : P) : Option (Nat × P) :=
  match find? (text p) input, best with
  | none, best => best
  | some i, none => some (i, p)
  | some i, some (j, q) => if i < j then some (i, p) else some (j, q)

def earliestFrom (input : List α) (best : Option (Nat × P)) (patterns : List P) :
    Option (Nat × P) :=
  patterns.foldl (better text input) best

def earliest (patterns : List P) (input : List α) : Option (Nat × P) :=
  earliestFrom text input none patterns

/-- `p` at `i` is the match the search settles on. -/
structure IsEarliest (patterns : List P) (input : List α) (i : Nat) (p : P) : Prop where
  found : find? (text p) input = some i
  split : ∃ pre post, patterns = pre ++ p :: post ∧
    (∀ q ∈ pre, ∀ j, find? (text q) input = some j → i < j) ∧
    (∀ q ∈ post, ∀ j, find? (text q) input = some j → i ≤ j)

variable {text} {patterns : List P} {input : List α} {i : Nat} {p : P}

theorem IsEarliest.mem (h : IsEarliest text patterns input i p) : p ∈ patterns := by
  obtain ⟨pre, post, rfl, _⟩ := h.split
  simp

theorem IsEarliest.le (h : IsEarliest text patterns input i p) {q : P} (hq : q ∈ patterns)
    {j : Nat} (hj : find? (text q) input = some j) : i ≤ j := by
  obtain ⟨pre, post, rfl, hpre, hpost⟩ := h.split
  rcases List.mem_append.mp hq with hq | hq
  · exact Nat.le_of_lt (hpre q hq j hj)
  · rcases List.mem_cons.mp hq with rfl | hq
    · rw [h.found] at hj
      exact Nat.le_of_eq (Option.some.inj hj)
    · exact hpost q hq j hj

theorem IsEarliest.cons (h : IsEarliest text patterns input i p) {r : P}
    (hr : ∀ k, find? (text r) input = some k → i < k) :
    IsEarliest text (r :: patterns) input i p := by
  obtain ⟨pre, post, rfl, hpre, hpost⟩ := h.split
  refine ⟨h.found, r :: pre, post, rfl, ?_, hpost⟩
  intro q hq
  rcases List.mem_cons.mp hq with rfl | hq
  · exact hr
  · exact hpre q hq

theorem IsEarliest.head {r : P} {k : Nat} (hr : find? (text r) input = some k)
    (h : ∀ q ∈ patterns, ∀ j, find? (text q) input = some j → k ≤ j) :
    IsEarliest text (r :: patterns) input k r :=
  ⟨hr, [], patterns, rfl, by simp, h⟩

theorem earliestFrom_cons (best : Option (Nat × P)) (r : P) :
    earliestFrom text input best (r :: patterns) =
      earliestFrom text input (better text input best r) patterns := rfl

/-- With a best match in hand the search either keeps it or beats it strictly. -/
theorem earliestFrom_some (input : List α) (j : Nat) (q : P) (patterns : List P) :
    (earliestFrom text input (some (j, q)) patterns = some (j, q) ∧
      ∀ r ∈ patterns, ∀ k, find? (text r) input = some k → j ≤ k) ∨
    ∃ i p, earliestFrom text input (some (j, q)) patterns = some (i, p) ∧ i < j ∧
      IsEarliest text patterns input i p := by
  induction patterns generalizing j q with
  | nil => exact Or.inl ⟨rfl, by simp⟩
  | cons r rs ih =>
    rw [earliestFrom_cons]
    by_cases hbeat : ∃ k, find? (text r) input = some k ∧ k < j
    · obtain ⟨k, hr, hkj⟩ := hbeat
      have hb : better text input (some (j, q)) r = some (k, r) := by simp [better, hr, hkj]
      rw [hb]
      rcases ih k r with ⟨he, hle⟩ | ⟨i, p, he, hik, hp⟩
      · exact Or.inr ⟨k, r, he, hkj, .head hr hle⟩
      · refine Or.inr ⟨i, p, he, by omega, hp.cons ?_⟩
        intro l hl
        have : k = l := Option.some.inj (hr.symm.trans hl)
        omega
    · have hkeep : ∀ k, find? (text r) input = some k → j ≤ k := fun k hk =>
        Nat.le_of_not_lt fun hlt => hbeat ⟨k, hk, hlt⟩
      have hb : better text input (some (j, q)) r = some (j, q) := by
        cases hr : find? (text r) input with
        | none => simp [better, hr]
        | some k => simp [better, hr, Nat.not_lt.mpr (hkeep k hr)]
      rw [hb]
      rcases ih j q with ⟨he, hle⟩ | ⟨i, p, he, hij, hp⟩
      · exact Or.inl ⟨he, List.forall_mem_cons.mpr ⟨hkeep, hle⟩⟩
      · exact Or.inr ⟨i, p, he, hij, hp.cons fun k hk => by have := hkeep k hk; omega⟩

/-- The search either finds nothing at all or settles on the earliest match. -/
theorem earliest_cases (text : P → List α) (patterns : List P) (input : List α) :
    (earliest text patterns input = none ∧ ∀ p ∈ patterns, find? (text p) input = none) ∨
    ∃ i p, earliest text patterns input = some (i, p) ∧ IsEarliest text patterns input i p := by
  unfold earliest
  induction patterns with
  | nil => exact Or.inl ⟨rfl, by simp⟩
  | cons r rs ih =>
    rw [earliestFrom_cons]
    cases hr : find? (text r) input with
    | none =>
      have hb : better text input none r = none := by simp [better, hr]
      rw [hb]
      rcases ih with ⟨he, hn⟩ | ⟨i, p, he, hp⟩
      · exact Or.inl ⟨he, List.forall_mem_cons.mpr ⟨hr, hn⟩⟩
      · exact Or.inr ⟨i, p, he, hp.cons fun k hk => by simp [hr] at hk⟩
    | some k =>
      have hb : better text input none r = some (k, r) := by simp [better, hr]
      rw [hb]
      rcases earliestFrom_some input k r rs with ⟨he, hle⟩ | ⟨i, p, he, hik, hp⟩
      · exact Or.inr ⟨k, r, he, .head hr hle⟩
      · refine Or.inr ⟨i, p, he, hp.cons ?_⟩
        intro l hl
        have : k = l := Option.some.inj (hr.symm.trans hl)
        omega

theorem isEarliest_of_eq (h : earliest text patterns input = some (i, p)) :
    IsEarliest text patterns input i p := by
  rcases earliest_cases text patterns input with ⟨hn, _⟩ | ⟨j, q, he, hq⟩
  · simp [hn] at h
  · rw [he] at h
    simp only [Option.some.injEq, Prod.mk.injEq] at h
    obtain ⟨rfl, rfl⟩ := h
    exact hq

theorem find?_of_earliest_none (h : earliest text patterns input = none) {q : P}
    (hq : q ∈ patterns) : find? (text q) input = none := by
  rcases earliest_cases text patterns input with ⟨_, hn⟩ | ⟨j, q, he, _⟩
  · exact hn q hq
  · simp [he] at h

/-- Only one pattern can be the earliest match, so the search is determined by what
`find?` answers. -/
theorem earliest_eq_of_isEarliest (h : IsEarliest text patterns input i p) :
    earliest text patterns input = some (i, p) := by
  rcases earliest_cases text patterns input with ⟨_, hn⟩ | ⟨j, q, he, hq⟩
  · have := hn p h.mem
    simp [h.found] at this
  · rw [he]
    have hij : i = j := Nat.le_antisymm (h.le hq.mem hq.found) (hq.le h.mem h.found)
    subst j
    obtain ⟨pre, post, hsp, hpre, _⟩ := h.split
    obtain ⟨pre', post', hsp', hpre', _⟩ := hq.split
    have hpp : pre ++ p :: post = pre' ++ q :: post' := hsp.symm.trans hsp'
    rcases List.append_eq_append_iff.mp hpp with ⟨a, hl, hr⟩ | ⟨a, hl, hr⟩
    · cases a with
      | nil => simp_all
      | cons b bs =>
        simp only [List.cons_append, List.cons.injEq] at hr
        have hm : p ∈ pre' := by rw [hl, hr.1]; simp
        exact absurd (hpre' p hm i h.found) (Nat.lt_irrefl i)
    · cases a with
      | nil => simp_all
      | cons b bs =>
        simp only [List.cons_append, List.cons.injEq] at hr
        have hm : q ∈ pre := by rw [hl, hr.1]; simp
        exact absurd (hpre q hm i hq.found) (Nat.lt_irrefl i)

/-- A piece of a segmented text: a raw chunk or one matched pattern. -/
inductive Piece (α : Type u) (P : Type v) where
  | raw (chunk : List α)
  | hit (pattern : P)
  deriving Repr, DecidableEq

def Piece.toText (text : P → List α) : Piece α P → List α
  | .raw chunk => chunk
  | .hit p => text p

/-- The raw chunk in front of a match, absent when the match starts at once. -/
def lead (chunk : List α) : List (Piece α P) := if chunk = [] then [] else [.raw chunk]

variable (text patterns) in
inductive Segments : List α → List (Piece α P) → Prop where
  | nil : Segments [] []
  | tail {input : List α} : input ≠ [] → earliest text patterns input = none →
      Segments input [.raw input]
  | hit {input : List α} {i : Nat} {p : P} {out : List (Piece α P)} : input ≠ [] →
      earliest text patterns input = some (i, p) →
      Segments (input.drop (i + (text p).length)) out →
      Segments input (lead (input.take i) ++ .hit p :: out)

namespace Segments
variable {out out' : List (Piece α P)}

theorem deterministic (h : Segments text patterns input out)
    (h' : Segments text patterns input out') : out = out' := by
  induction h generalizing out' with
  | nil =>
    cases h' with
    | nil => rfl
    | tail hne => exact absurd rfl hne
    | hit hne => exact absurd rfl hne
  | tail hne he =>
    cases h' with
    | nil => exact absurd rfl hne
    | tail => rfl
    | hit _ he' => simp [he] at he'
  | hit hne he _ ih =>
    cases h' with
    | nil => exact absurd rfl hne
    | tail _ he' => simp [he] at he'
    | hit _ he' hr =>
      rw [he] at he'
      simp only [Option.some.injEq, Prod.mk.injEq] at he'
      obtain ⟨rfl, rfl⟩ := he'
      rw [ih hr]

theorem total (hne : ∀ p ∈ patterns, text p ≠ []) (input : List α) :
    ∃ out, Segments text patterns input out := by
  induction hn : input.length using Nat.strong_induction_on generalizing input with
  | _ n ih =>
    cases input with
    | nil => exact ⟨[], .nil⟩
    | cons a rest =>
      cases he : earliest text patterns (a :: rest) with
      | none => exact ⟨_, .tail (by simp) he⟩
      | some m =>
        obtain ⟨i, p⟩ := m
        have hp := List.length_pos_of_ne_nil (hne p (isEarliest_of_eq he).mem)
        obtain ⟨out, ho⟩ := ih _ (by simp only [← hn, List.length_drop, List.length_cons]; omega)
          ((a :: rest).drop (i + (text p).length)) rfl
        exact ⟨_, .hit (by simp) he ho⟩

/-- The earliest match cuts the text in three: what is before it, the pattern, the rest. -/
theorem split_of_earliest (h : earliest text patterns input = some (i, p)) :
    input = input.take i ++ (text p ++ input.drop (i + (text p).length)) := by
  obtain ⟨t, ht⟩ := (find?_eq_some.mp (isEarliest_of_eq h).found).2.1
  rw [← List.drop_drop, ← ht, List.drop_left, ht, List.take_append_drop]

omit [DecidableEq α] in
theorem toText_lead (chunk : List α) :
    (lead chunk : List (Piece α P)).flatMap (Piece.toText text) = chunk := by
  unfold lead
  split
  · simp [*]
  · simp [Piece.toText]

/-- The pieces of a segmentation are the text, in order and without loss. -/
theorem flatMap_toText (h : Segments text patterns input out) :
    out.flatMap (Piece.toText text) = input := by
  induction h with
  | nil => rfl
  | tail => simp [Piece.toText]
  | hit _ he _ ih =>
    rw [List.flatMap_append, toText_lead, List.flatMap_cons, ih]
    exact (split_of_earliest he).symm

/-- No pattern occurrence starts in `a` and ends beyond it. -/
def Unstraddled (text : P → List α) (patterns : List P) (a b : List α) : Prop :=
  ∀ p ∈ patterns, ∀ i < a.length, OccursAt (text p) (a ++ b) i → i + (text p).length ≤ a.length

omit [DecidableEq α] in
theorem Unstraddled.drop {a b : List α} (h : Unstraddled text patterns a b) {n : Nat}
    (hn : n ≤ a.length) : Unstraddled text patterns (a.drop n) b := by
  intro p hp i hi ho
  rw [List.length_drop] at hi ⊢
  rw [← List.drop_append_of_le_length hn, OccursAt, List.drop_drop] at ho
  have := h p hp (n + i) (by omega) ho
  omega

theorem find?_append {a b : List α} (hb : Unstraddled text patterns a b) {q : P}
    (hq : q ∈ patterns) : find? (text q) (a ++ b) =
      (find? (text q) a).orElse fun _ => (find? (text q) b).map (a.length + ·) := by
  cases ha : find? (text q) a with
  | some i => simp [find?_append_of_some ha b]
  | none => simp [find?_append_of_none ha (hb q hq)]

theorem earliest_append_of_some {a b : List α} (hne : ∀ p ∈ patterns, text p ≠ [])
    (hb : Unstraddled text patterns a b) (h : earliest text patterns a = some (i, p)) :
    earliest text patterns (a ++ b) = some (i, p) := by
  have hp := isEarliest_of_eq h
  have hi := find?_length_le hp.found
  have hpos := List.length_pos_of_ne_nil (hne p hp.mem)
  have key : ∀ q ∈ patterns, ∀ j, find? (text q) (a ++ b) = some j →
      find? (text q) a = some j ∨ i < j := by
    intro q hq j hj
    rw [find?_append hb hq] at hj
    cases ha : find? (text q) a with
    | some k => exact Or.inl (by simpa [ha] using hj)
    | none =>
      simp only [ha, Option.orElse_none, Option.map_eq_some_iff] at hj
      obtain ⟨k, _, rfl⟩ := hj
      exact Or.inr (by omega)
  obtain ⟨pre, post, hsp, hpre, hpost⟩ := hp.split
  refine earliest_eq_of_isEarliest ⟨find?_append_of_some hp.found b, pre, post, hsp, ?_, ?_⟩
  · intro q hq j hj
    rcases key q (by simp [hsp, hq]) j hj with hj | hj
    · exact hpre q hq j hj
    · exact hj
  · intro q hq j hj
    rcases key q (by simp [hsp, hq]) j hj with hj | hj
    · exact hpost q hq j hj
    · exact Nat.le_of_lt hj

theorem earliest_append_of_none {a b : List α} (hb : Unstraddled text patterns a b)
    (ha : earliest text patterns a = none) (h : earliest text patterns b = some (i, p)) :
    earliest text patterns (a ++ b) = some (a.length + i, p) := by
  have hp := isEarliest_of_eq h
  have key : ∀ q ∈ patterns, find? (text q) (a ++ b) = (find? (text q) b).map (a.length + ·) := by
    intro q hq
    rw [find?_append hb hq, find?_of_earliest_none ha hq, Option.orElse_none]
  obtain ⟨pre, post, hsp, hpre, hpost⟩ := hp.split
  refine earliest_eq_of_isEarliest ⟨by simp [key p hp.mem, hp.found], pre, post, hsp, ?_, ?_⟩
  · intro q hq j hj
    rw [key q (by simp [hsp, hq]), Option.map_eq_some_iff] at hj
    obtain ⟨k, hk, rfl⟩ := hj
    exact Nat.add_lt_add_left (hpre q hq k hk) _
  · intro q hq j hj
    rw [key q (by simp [hsp, hq]), Option.map_eq_some_iff] at hj
    obtain ⟨k, hk, rfl⟩ := hj
    exact Nat.add_le_add_left (hpost q hq k hk) _

/-- The barrier: when a match starts exactly at the boundary and none straddles it,
the two sides are segmented independently. -/
theorem append {a b : List α} {sa sb : List (Piece α P)} (hne : ∀ p ∈ patterns, text p ≠ [])
    (ha : Segments text patterns a sa) (hb : Segments text patterns b sb)
    (hu : Unstraddled text patterns a b) {q : P} (hq : earliest text patterns b = some (0, q)) :
    Segments text patterns (a ++ b) (sa ++ sb) := by
  have hbne : b ≠ [] := by
    rintro rfl
    have := find?_length_le (isEarliest_of_eq hq).found
    exact hne q (isEarliest_of_eq hq).mem (List.length_eq_zero_iff.mp (by simpa using this))
  induction ha with
  | nil => exact hb
  | @tail a hane hea =>
    cases hb with
    | nil => exact absurd rfl hbne
    | tail _ heb => simp [hq] at heb
    | hit _ heb hrest =>
      rw [hq] at heb
      simp only [Option.some.injEq, Prod.mk.injEq] at heb
      obtain ⟨rfl, rfl⟩ := heb
      have he := earliest_append_of_none hu hea hq
      have hs := Segments.hit (by simp [hane]) he
        (by rwa [Nat.add_zero, List.drop_length_add_append, ← Nat.zero_add (text q).length])
      simpa [lead, hane] using hs
  | @hit a i p out hane hea hrest ih =>
    have hi := find?_length_le (isEarliest_of_eq hea).found
    have he := earliest_append_of_some hne hu hea
    have hs := ih (hu.drop hi)
    rw [← List.drop_append_of_le_length hi] at hs
    have hit := Segments.hit (by simp [hane]) he hs
    rw [List.take_append_of_le_length (by omega)] at hit
    simpa using hit

end Segments

end Foundation.Scan
