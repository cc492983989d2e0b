import Branchscore.CategoricalReadout

/-!
# The summary is a softmax with the first largest score selected

What `summarize_categorical` returns is a function of the exact scores: the position of
the first maximum, a flag for a second one, and the softmax. The softmax depends only on
the differences between the scores and commutes with every rearrangement of them.
-/

namespace Branchscore

open Foundation Outcome
set_option autoImplicit false

/-- What the readout relies on of the exponential. -/
structure Exponential {R : Type} [Field R] [LinearOrder R] (exp : R → R) : Prop where
  strictMono : StrictMono exp
  positive : ∀ x, 0 < exp x
  zero : exp 0 = 1

/-! ## Softmax -/

section Softmax
variable {R : Type} [Field R]

def partition (exp : R → R) (values : List R) (maximum : R) : R :=
  (values.map fun value => exp (value - maximum)).sum

def softmax (exp : R → R) (values : List R) (maximum : R) : List R :=
  values.map fun value => exp (value - maximum) / partition exp values maximum

theorem partition_add (exp : R → R) (values : List R) (maximum c : R) :
    partition exp (values.map (· + c)) (maximum + c) = partition exp values maximum := by
  unfold partition
  rw [List.map_map]
  congr 1
  apply List.map_congr_left
  intro value _
  rw [Function.comp_apply, add_sub_add_right_eq_sub]

theorem softmax_add (exp : R → R) (values : List R) (maximum c : R) :
    softmax exp (values.map (· + c)) (maximum + c) = softmax exp values maximum := by
  unfold softmax
  rw [partition_add, List.map_map]
  apply List.map_congr_left
  intro value _
  rw [Function.comp_apply, add_sub_add_right_eq_sub]

theorem partition_perm {exp : R → R} {values values' : List R} (h : values'.Perm values)
    (maximum : R) : partition exp values' maximum = partition exp values maximum :=
  (h.map _).sum_eq

variable [LinearOrder R] [IsStrictOrderedRing R] {exp : R → R} (hexp : Exponential exp)
include hexp

theorem partition_pos {values : List R} (hne : values ≠ []) (maximum : R) :
    0 < partition exp values maximum := by
  apply List.sum_pos
  · intro weight hweight
    obtain ⟨value, -, rfl⟩ := List.mem_map.mp hweight
    exact hexp.positive _
  · simpa using hne

theorem softmax_pos {values : List R} (maximum : R) :
    ∀ p ∈ softmax exp values maximum, 0 < p := by
  intro p hp
  obtain ⟨value, hvalue, rfl⟩ := List.mem_map.mp hp
  exact div_pos (hexp.positive _) (partition_pos hexp (List.ne_nil_of_mem hvalue) maximum)

theorem softmax_sum {values : List R} (hne : values ≠ []) (maximum : R) :
    (softmax exp values maximum).sum = 1 := by
  have hpos := partition_pos hexp hne maximum
  unfold softmax
  simp only [div_eq_mul_inv, List.sum_map_mul_right]
  exact mul_inv_cancel₀ hpos.ne'

theorem softmax_lt_iff {values : List R} (maximum : R) {i j : Nat} {x y p q : R}
    (hx : values[i]? = some x) (hy : values[j]? = some y)
    (hp : (softmax exp values maximum)[i]? = some p)
    (hq : (softmax exp values maximum)[j]? = some q) : p < q ↔ x < y := by
  have hpos := partition_pos hexp (List.ne_nil_of_mem (List.mem_of_getElem? hx)) maximum
  simp only [softmax, List.getElem?_map, hx, hy, Option.map_some, Option.some.injEq] at hp hq
  rw [← hp, ← hq, div_lt_div_iff_of_pos_right hpos, hexp.strictMono.lt_iff_lt,
    sub_lt_sub_iff_right]

end Softmax

/-! ## Rearrangements -/

section Rearrange
variable {α β : Type}

/-- The elements at the given positions, in the order of the positions. -/
def rearrange (order : List Nat) (xs : List α) : List α := order.filterMap fun i => xs[i]?

theorem rearrange_map (f : α → β) (order : List Nat) (xs : List α) :
    rearrange order (xs.map f) = (rearrange order xs).map f := by
  simp only [rearrange, List.getElem?_map, List.map_filterMap]

theorem rearrange_range (xs : List α) : rearrange (List.range xs.length) xs = xs := by
  unfold rearrange
  induction xs with
  | nil => rfl
  | cons x xs ih =>
    rw [List.length_cons, List.range_succ_eq_map, List.filterMap_cons, List.filterMap_map]
    exact congrArg (x :: ·) ih

theorem rearrange_perm {order : List Nat} {xs : List α}
    (h : order.Perm (List.range xs.length)) : (rearrange order xs).Perm xs := by
  have hperm := h.filterMap fun i => xs[i]?
  exact hperm.trans (List.Perm.of_eq (rearrange_range xs))

end Rearrange

/-! ## The summary -/

section Summary
variable {R : Type}

theorem finiteLogit_eq_ok {score : Ieee R} {value : R} :
    finiteLogit score = .ok value ↔ score = .finite value := by
  cases score <;> simp [finiteLogit, runtimeError]

theorem mapM_finiteLogit {scores : List (Ieee R)} {values : List R} :
    scores.mapM finiteLogit = .ok values ↔ scores = values.map .finite := by
  rw [mapM_eq_ok]
  constructor
  · intro h
    induction h with
    | nil => rfl
    | cons hscore _ ih => rw [finiteLogit_eq_ok.mp hscore, ih, List.map_cons]
  · rintro rfl
    rw [List.forall₂_map_left_iff, List.forall₂_same]
    exact fun _ _ => rfl

/-- A second position with the same score. -/
def Tied (values : List R) (selected : Nat) : Prop :=
  ∃ j x, j ≠ selected ∧ values[j]? = some x ∧ values[selected]? = some x

variable [LinearOrder R]

theorem exactTie_iff {values : List R} {x : R} {selected : Nat} (h : FirstMax values x selected) :
    ((values.map Ieee.finite).zipIdx.any fun score =>
      score.2 ≠ selected && Ieee.eq score.1 (.finite x)) = true ↔ Tied values selected := by
  simp only [List.any_eq_true, Bool.and_eq_true, decide_eq_true_eq, Prod.exists,
    List.mem_zipIdx_iff_getElem?, List.getElem?_map, Option.map_eq_some_iff, Tied]
  constructor
  · rintro ⟨_, j, ⟨y, hy, rfl⟩, hne, heq⟩
    have hyx : y = x := of_decide_eq_true heq
    exact ⟨j, x, hne, hyx ▸ hy, h.at_index⟩
  · rintro ⟨j, y, hne, hy, hx⟩
    have hyx : y = x := Option.some.inj (hx.symm.trans h.at_index)
    exact ⟨_, j, ⟨y, hy, rfl⟩, hne, decide_eq_true hyx⟩

variable [Field R] {exp : R → R}

theorem summarizeCategorical_values {scores : List (Ieee R)} {summary : CategoricalSummary R}
    (h : summarizeCategorical exp scores = .ok summary) :
    ∃ values : List R, values ≠ [] ∧ scores = values.map .finite := by
  unfold summarizeCategorical at h
  cases hmax : maxElement Ieee.lt scores with
  | none =>
    rw [hmax] at h
    cases h
  | some found =>
    have hne : scores ≠ [] := by
      rintro rfl
      cases hmax
    rw [hmax] at h
    obtain ⟨maximum, -, h⟩ := bind_eq_ok.mp h
    obtain ⟨values, hvalues, -⟩ := bind_eq_ok.mp h
    have hscores := mapM_finiteLogit.mp hvalues
    exact ⟨values, fun hnil => hne (by rw [hscores, hnil, List.map_nil]), hscores⟩

variable [IsStrictOrderedRing R]

theorem firstMax_shift {values : List R} {x x' c : R} {i j : Nat} (h : FirstMax values x i)
    (h' : FirstMax (values.map (· + c)) x' j) : x' = x + c := by
  obtain ⟨y, hy, hyx⟩ := List.mem_map.mp (List.mem_of_getElem? h'.at_index)
  have hx := List.mem_map_of_mem (f := (· + c)) (List.mem_of_getElem? h.at_index)
  apply le_antisymm
  · rw [← hyx]
    exact add_le_add_left (h.maximal y hy) c
  · exact h'.maximal _ hx

variable (hexp : Exponential exp)
include hexp

theorem summarizeCategorical_finite {values : List R} (hne : values ≠ []) :
    ∃ x selected, FirstMax values x selected ∧
      ∃ tie, (tie = true ↔ Tied values selected) ∧
        summarizeCategorical exp (values.map .finite) =
          .ok ⟨softmax exp values x, selected, tie⟩ := by
  have hless : ∀ a b : R, Ieee.lt (.finite a) (.finite b) = decide (a < b) := fun _ _ => rfl
  obtain ⟨v, rest, rfl⟩ := List.exists_cons_of_ne_nil hne
  obtain ⟨⟨x, selected⟩, hmax⟩ : ∃ found,
      maxElement (fun a b => decide (a < b)) (v :: rest) = some found := ⟨_, rfl⟩
  have hfirst := firstMax_maxElement hmax
  refine ⟨x, selected, hfirst, _, exactTie_iff hfirst, ?_⟩
  have hpos := partition_pos hexp hne x
  have hfold : ((v :: rest).map fun value => exp (value - x)).foldl (· + ·) 0 =
      partition exp (v :: rest) x := (List.sum_eq_foldl ..).symm
  unfold summarizeCategorical
  rw [maxElement_map hless, hmax]
  simp only [Option.map_some, Prod.map, id_eq, finiteLogit_eq_ok.mpr rfl, ok_bind,
    mapM_finiteLogit.mpr rfl, hfold, throwIf_of_not (not_le.mpr hpos), pure_eq_ok]
  rw [List.map_map]
  rfl

theorem summarizeCategorical_eq_error {scores : List (Ieee R)} :
    (∃ e, summarizeCategorical exp scores = .error e) ↔
      scores = [] ∨ ∃ score ∈ scores, score.isFinite = false := by
  constructor
  · rintro ⟨e, he⟩
    by_contra hcon
    rw [not_or] at hcon
    obtain ⟨values, rfl⟩ : ∃ values : List R, scores = values.map .finite := by
      apply Ieee.exists_map_finite
      intro score hscore
      by_contra hinf
      exact hcon.2 ⟨score, hscore, by simpa using hinf⟩
    obtain ⟨x, selected, -, tie, -, hok⟩ :=
      summarizeCategorical_finite hexp fun h : values = [] => hcon.1 (by rw [h, List.map_nil])
    rw [hok] at he
    cases he
  · intro h
    cases hresult : summarizeCategorical exp scores with
    | error e => exact ⟨e, rfl⟩
    | ok summary =>
      obtain ⟨values, hne, rfl⟩ := summarizeCategorical_values hresult
      rcases h with h | ⟨score, hscore, hinf⟩
      · exact absurd (List.map_eq_nil_iff.mp h) hne
      · obtain ⟨value, -, rfl⟩ := List.mem_map.mp hscore
        cases hinf

/-! ## What the summary says of the scores -/

/-- `selected`, `tie` and the probabilities as functions of the exact scores. -/
structure Summarized (exp : R → R) (values : List R) (summary : CategoricalSummary R) : Prop where
  selected : ∃ x, FirstMax values x summary.selectedIndex
  tie : summary.exactTie = true ↔ Tied values summary.selectedIndex
  length : summary.relativeProbabilities.length = values.length
  positive : ∀ p ∈ summary.relativeProbabilities, 0 < p
  sum : summary.relativeProbabilities.sum = 1
  ordered : ∀ (i j : Nat) (x y p q : R), values[i]? = some x → values[j]? = some y →
    summary.relativeProbabilities[i]? = some p → summary.relativeProbabilities[j]? = some q →
    (p < q ↔ x < y) ∧ (p = q ↔ x = y)
  shifted : ∀ c, ∃ other,
    summarizeCategorical exp ((values.map (· + c)).map .finite) = .ok other ∧
    other.relativeProbabilities = summary.relativeProbabilities
  rearranged : ∀ order, order.Perm (List.range values.length) → ∃ other,
    summarizeCategorical exp ((rearrange order values).map .finite) = .ok other ∧
    other.relativeProbabilities = rearrange order summary.relativeProbabilities

theorem softmax_ordered {values : List R} (maximum : R) {i j : Nat} {x y p q : R}
    (hx : values[i]? = some x) (hy : values[j]? = some y)
    (hp : (softmax exp values maximum)[i]? = some p)
    (hq : (softmax exp values maximum)[j]? = some q) : (p < q ↔ x < y) ∧ (p = q ↔ x = y) := by
  have hlt := softmax_lt_iff hexp maximum hx hy hp hq
  have hgt := softmax_lt_iff hexp maximum hy hx hq hp
  refine ⟨hlt, ?_⟩
  rw [eq_iff_le_not_lt, eq_iff_le_not_lt, ← not_lt, ← not_lt, hlt, hgt]

theorem summarized {values : List R} {summary : CategoricalSummary R}
    (h : summarizeCategorical exp (values.map .finite) = .ok summary) :
    Summarized exp values summary := by
  obtain ⟨values', hne', hmap⟩ := summarizeCategorical_values h
  have hne : values ≠ [] := by
    rintro rfl
    exact hne' (List.map_eq_nil_iff.mp hmap.symm)
  obtain ⟨x, selected, hfirst, tie, htie, hok⟩ := summarizeCategorical_finite hexp hne
  have hsummary := Except.ok.inj (h.symm.trans hok)
  subst hsummary
  refine ⟨⟨x, hfirst⟩, htie, List.length_map .., softmax_pos hexp x, softmax_sum hexp hne x,
    fun i j x' y p q => softmax_ordered hexp x, ?_, ?_⟩
  · intro c
    have hmapped : values.map (· + c) ≠ [] := by simpa using hne
    obtain ⟨x', selected', hfirst', tie', -, hok'⟩ := summarizeCategorical_finite hexp hmapped
    refine ⟨_, hok', ?_⟩
    dsimp only
    rw [firstMax_shift hfirst hfirst', softmax_add]
  · intro order horder
    have hperm := rearrange_perm horder
    have hrearranged : rearrange order values ≠ [] := by
      intro hnil
      rw [hnil] at hperm
      exact hne hperm.nil_eq.symm
    obtain ⟨x', selected', hfirst', tie', -, hok'⟩ := summarizeCategorical_finite hexp hrearranged
    refine ⟨_, hok', ?_⟩
    dsimp only
    rw [hfirst.eq_of_perm hfirst' hperm, softmax, partition_perm hperm, softmax, rearrange_map]

theorem summarizeCategorical_spec (scores : List (Ieee R)) :
    ((∃ e, summarizeCategorical exp scores = .error e) ↔
      scores = [] ∨ ∃ score ∈ scores, score.isFinite = false) ∧
    ∀ summary, summarizeCategorical exp scores = .ok summary →
      ∃ values : List R, scores = values.map .finite ∧ Summarized exp values summary := by
  refine ⟨summarizeCategorical_eq_error hexp, fun summary h => ?_⟩
  obtain ⟨values, -, rfl⟩ := summarizeCategorical_values h
  exact ⟨values, rfl, summarized hexp h⟩

end Summary

theorem exponential_exp : Exponential Real.exp :=
  ⟨Real.exp_strictMono, Real.exp_pos, Real.exp_zero⟩

theorem tiedScores_firstMax : FirstMax [(-1000 : ℝ), -998, -998] (-998) 1 where
  at_index := rfl
  maximal y hy := by
    simp only [List.mem_cons, List.not_mem_nil, or_false] at hy
    rcases hy with rfl | rfl | rfl <;> norm_num
  first j hj y hget := by
    obtain rfl : j = 0 := by omega
    cases hget
    norm_num

/-- The second score is chosen, the third one ties with it, and an infinite score throws. -/
theorem summarizeCategorical_spec_tie :
    (∃ summary, summarizeCategorical Real.exp [.finite (-1000), .finite (-998), .finite (-998)] =
        .ok summary ∧
      summary.selectedIndex = 1 ∧ summary.exactTie = true ∧
      Summarized Real.exp [-1000, -998, -998] summary) ∧
    ∃ e, summarizeCategorical Real.exp [.finite (-1000), .posInf] = .error e := by
  obtain ⟨hthrows, hsummarized⟩ := summarizeCategorical_spec exponential_exp
    [.finite (-1000), .finite (-998), .finite (-998)]
  refine ⟨?_, (summarizeCategorical_spec exponential_exp _).1.mpr
    (Or.inr ⟨.posInf, by simp, rfl⟩)⟩
  cases hresult : summarizeCategorical Real.exp
      [.finite (-1000), .finite (-998), .finite (-998)] with
  | error e =>
    rcases hthrows.mp ⟨e, hresult⟩ with hnil | ⟨score, hmem, hfinite⟩
    · cases hnil
    · simp only [List.mem_cons, List.not_mem_nil, or_false] at hmem
      rcases hmem with rfl | rfl | rfl <;> cases hfinite
  | ok summary =>
    obtain ⟨values, hvalues, hspec⟩ := hsummarized summary hresult
    obtain rfl : [-1000, -998, -998] = values :=
      List.map_injective_iff.mpr (fun _ _ h => Ieee.finite.inj h) hvalues
    obtain ⟨x, hfirst⟩ := hspec.selected
    have hindex : summary.selectedIndex = 1 := hfirst.index_eq tiedScores_firstMax
    refine ⟨summary, rfl, hindex, hspec.tie.mpr ?_, hspec⟩
    rw [hindex]
    exact ⟨2, -998, by decide, rfl, rfl⟩

end Branchscore
