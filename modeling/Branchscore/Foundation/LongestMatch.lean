import Branchscore.Foundation.Scan

/-!
# Leftmost-longest segmentation

What the scanner of `Foundation.Scan` computes for distinct patterns listed by
decreasing length, without its search: the match is the leftmost one, the longest
of those that start there, and the chunks between matches hold no pattern.
-/

namespace Foundation.Scan

open Search
set_option autoImplicit false

universe u v
variable {α : Type u} {P : Type v} (text : P → List α) (patterns : List P)

/-- No occurrence starts before the one of `p` at `i`, and none there is longer. -/
structure IsLongest (input : List α) (i : Nat) (p : P) : Prop where
  mem : p ∈ patterns
  le : i ≤ input.length
  occurs : OccursAt (text p) input i
  best : ∀ q ∈ patterns, ∀ j ≤ input.length, OccursAt (text q) input j →
    i < j ∨ i = j ∧ (text q).length ≤ (text p).length

inductive LeftmostLongest : List α → List (Piece α P) → Prop where
  | nil : LeftmostLongest [] []
  | tail {input : List α} : input ≠ [] → (∀ p ∈ patterns, ¬Occurs (text p) input) →
      LeftmostLongest input [.raw input]
  | hit {input : List α} {i : Nat} {p : P} {out : List (Piece α P)} : input ≠ [] →
      IsLongest text patterns input i p →
      LeftmostLongest (input.drop (i + (text p).length)) out →
      LeftmostLongest input (lead (input.take i) ++ .hit p :: out)

/-- Distinct patterns, the longer ones first. -/
structure LongestFirst : Prop where
  sorted : patterns.Pairwise fun p q => (text q).length ≤ (text p).length
  injective : ∀ p ∈ patterns, ∀ q ∈ patterns, text p = text q → p = q

variable {text patterns} {input : List α} {i : Nat} {p : P}

theorem IsLongest.unique (h : LongestFirst text patterns) {j : Nat} {q : P}
    (hp : IsLongest text patterns input i p) (hq : IsLongest text patterns input j q) :
    i = j ∧ p = q := by
  have hpq := hp.best q hq.mem j hq.le hq.occurs
  have hqp := hq.best p hp.mem i hp.le hp.occurs
  obtain rfl : i = j := by omega
  refine ⟨rfl, h.injective p hp.mem q hq.mem ?_⟩
  exact (List.prefix_of_prefix_length_le hp.occurs hq.occurs (by omega)).eq_of_length (by omega)

variable [DecidableEq α]

theorem IsEarliest.isLongest (h : LongestFirst text patterns)
    (hp : IsEarliest text patterns input i p) : IsLongest text patterns input i p := by
  obtain ⟨hi, hoccurs, -⟩ := find?_eq_some.mp hp.found
  refine ⟨hp.mem, hi, hoccurs, fun q hq j hj hqj => ?_⟩
  cases hfind : find? (text q) input with
  | none => exact absurd hqj (find?_eq_none.mp hfind j hj)
  | some k =>
    have hkj : k ≤ j := Nat.le_of_not_lt fun hlt => (find?_eq_some.mp hfind).2.2 j hlt hqj
    have hik := hp.le hq hfind
    rcases Nat.lt_or_eq_of_le (Nat.le_trans hik hkj) with hlt | rfl
    · exact Or.inl hlt
    · obtain rfl : k = i := by omega
      obtain ⟨pre, post, rfl, hpre, -⟩ := hp.split
      refine Or.inr ⟨rfl, ?_⟩
      rcases List.mem_append.mp hq with hq | hq
      · exact absurd (hpre q hq k hfind) (Nat.lt_irrefl k)
      · rcases List.mem_cons.mp hq with rfl | hq
        · exact Nat.le_refl _
        · exact (List.pairwise_cons.mp (List.pairwise_append.mp h.sorted).2.1).1 q hq

theorem earliest_eq_some_iff (h : LongestFirst text patterns) :
    earliest text patterns input = some (i, p) ↔ IsLongest text patterns input i p := by
  refine ⟨fun he => (isEarliest_of_eq he).isLongest h, fun hp => ?_⟩
  rcases earliest_cases text patterns input with ⟨-, hnone⟩ | ⟨j, q, he, hq⟩
  · exact absurd hp.occurs (find?_eq_none.mp (hnone p hp.mem) i hp.le)
  · obtain ⟨rfl, rfl⟩ := hp.unique h (hq.isLongest h)
    exact he

theorem earliest_eq_none_iff :
    earliest text patterns input = none ↔ ∀ p ∈ patterns, ¬Occurs (text p) input := by
  constructor
  · intro he p hp
    exact find?_eq_none_iff_not_occurs.mp (find?_of_earliest_none he hp)
  · intro hnone
    rcases earliest_cases text patterns input with ⟨he, -⟩ | ⟨i, p, -, hp⟩
    · exact he
    · have := find?_eq_none_iff_not_occurs.mpr (hnone p hp.mem)
      rw [hp.found] at this
      cases this

theorem leftmostLongest_iff (h : LongestFirst text patterns) {out : List (Piece α P)} :
    LeftmostLongest text patterns input out ↔ Segments text patterns input out := by
  constructor
  · intro hout
    induction hout with
    | nil => exact .nil
    | tail hne hnone => exact .tail hne (earliest_eq_none_iff.mpr hnone)
    | hit hne hp _ ih => exact .hit hne ((earliest_eq_some_iff h).mpr hp) ih
  · intro hout
    induction hout with
    | nil => exact .nil
    | tail hne he => exact .tail hne (earliest_eq_none_iff.mp he)
    | hit hne he _ ih => exact .hit hne ((earliest_eq_some_iff h).mp he) ih

omit [DecidableEq α] in
theorem LeftmostLongest.mem_of_hit {out : List (Piece α P)}
    (h : LeftmostLongest text patterns input out) (hmem : .hit p ∈ out) : p ∈ patterns := by
  induction h with
  | nil => cases hmem
  | tail _ _ => cases List.mem_singleton.mp hmem
  | @hit input i q out _ hq _ ih =>
    rcases List.mem_append.mp hmem with hlead | hmem
    · unfold lead at hlead
      split at hlead
      · cases hlead
      · cases List.mem_singleton.mp hlead
    · rcases List.mem_cons.mp hmem with heq | hmem
      · cases heq
        exact hq.mem
      · exact ih hmem

omit [DecidableEq α] in
theorem LeftmostLongest.raw_free {out : List (Piece α P)} (hpatterns : ∀ p ∈ patterns, text p ≠ [])
    (h : LeftmostLongest text patterns input out) {chunk : List α} (hmem : .raw chunk ∈ out) :
    ∀ p ∈ patterns, ¬Occurs (text p) chunk := by
  induction h with
  | nil => simp at hmem
  | tail _ hnone =>
    simp only [List.mem_singleton, Piece.raw.injEq] at hmem
    exact hmem ▸ hnone
  | @hit input i p out _ hp _ ih =>
    rcases List.mem_append.mp hmem with hlead | hmem
    · have hchunk : chunk = input.take i := by
        unfold lead at hlead
        split at hlead <;> simp at hlead
        exact hlead
      rintro q hq ⟨j, hj, hocc⟩
      have hend := hocc.end_le hj
      have hpos := List.length_pos_of_ne_nil (hpatterns q hq)
      rw [hchunk, List.length_take] at hj hend
      have hocc' : OccursAt (text q) input j := by
        rw [← input.take_append_drop i]
        exact (occursAt_append_left (by rw [List.length_take]; exact hend)).mpr (hchunk ▸ hocc)
      rcases hp.best q hq j (by omega) hocc' with hlt | ⟨rfl, -⟩ <;> omega
    · exact ih ((List.mem_cons.mp hmem).resolve_left (by simp))

end Foundation.Scan
