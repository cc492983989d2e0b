import Mathlib

/-!
# Merging adjacent pairs by rank

The plain procedure: among all adjacent pairs that have a rank, join the one of lowest
rank, the leftmost of equals, and start again until no pair has a rank.
-/

namespace Foundation.PairMerging

set_option autoImplicit false

variable {α : Type} (rank : α → α → Option Nat) (join : α → α → α)

/-- The rank of the pair that starts at a position. -/
def pairRank : List α → Nat → Option Nat
  | x :: y :: _, 0 => rank x y
  | _ :: xs, i + 1 => pairRank xs i
  | _, _ => none

def mergeAt : List α → Nat → List α
  | x :: y :: xs, 0 => join x y :: xs
  | x :: xs, i + 1 => x :: mergeAt xs i
  | xs, _ => xs

/-- The pair at `i` has rank `k`, every other ranked pair a higher one or an equal one
further right. -/
structure IsLowest (xs : List α) (k i : Nat) : Prop where
  ranked : pairRank rank xs i = some k
  lowest : ∀ k' i', pairRank rank xs i' = some k' → k < k' ∨ k = k' ∧ i ≤ i'

/-- The rank and the position of the lowest pair. -/
def lowestPair : List α → Option (Nat × Nat)
  | x :: y :: xs =>
    match rank x y, lowestPair (y :: xs) with
    | none, none => none
    | none, some (k, i) => some (k, i + 1)
    | some k, none => some (k, 0)
    | some k, some (k', i) => if k ≤ k' then some (k, 0) else some (k', i + 1)
  | _ => none

@[simp] theorem pairRank_zero (x y : α) (xs : List α) :
    pairRank rank (x :: y :: xs) 0 = rank x y := rfl

@[simp] theorem pairRank_succ (x : α) (xs : List α) (i : Nat) :
    pairRank rank (x :: xs) (i + 1) = pairRank rank xs i := by
  cases xs <;> rfl

@[simp] theorem pairRank_nil (i : Nat) : pairRank rank [] i = none := rfl

@[simp] theorem pairRank_singleton (x : α) (i : Nat) : pairRank rank [x] i = none := by
  cases i <;> simp [pairRank]

theorem pairRank_append (pre : List α) (x y : α) (post : List α) :
    pairRank rank (pre ++ x :: y :: post) pre.length = rank x y := by
  induction pre with
  | nil => rfl
  | cons z pre ih => rw [List.cons_append, List.length_cons, pairRank_succ, ih]

@[simp] theorem mergeAt_succ (x : α) (xs : List α) (i : Nat) :
    mergeAt join (x :: xs) (i + 1) = x :: mergeAt join xs i := by
  cases xs <;> rfl

theorem mergeAt_append (pre : List α) (x y : α) (post : List α) :
    mergeAt join (pre ++ x :: y :: post) pre.length = pre ++ join x y :: post := by
  induction pre with
  | nil => rfl
  | cons z pre ih => rw [List.cons_append, List.length_cons, mergeAt_succ, ih, List.cons_append]

variable {rank join}

theorem pairRank_eq_some {xs : List α} {i k : Nat} (h : pairRank rank xs i = some k) :
    ∃ pre x y post, xs = pre ++ x :: y :: post ∧ pre.length = i ∧ rank x y = some k := by
  induction xs generalizing i with
  | nil => simp at h
  | cons x xs ih =>
    cases i with
    | succ i =>
      rw [pairRank_succ] at h
      obtain ⟨pre, y, z, post, rfl, rfl, hk⟩ := ih h
      exact ⟨x :: pre, y, z, post, rfl, rfl, hk⟩
    | zero =>
      cases xs with
      | nil => simp at h
      | cons y xs => exact ⟨[], x, y, xs, rfl, rfl, h⟩

variable (join) in
theorem mergeAt_length {xs : List α} {i k : Nat} (h : pairRank rank xs i = some k) :
    (mergeAt join xs i).length + 1 = xs.length := by
  obtain ⟨pre, x, y, post, rfl, rfl, -⟩ := pairRank_eq_some h
  rw [mergeAt_append]
  simp only [List.length_append, List.length_cons]
  omega

theorem IsLowest.unique {xs : List α} {k i k' i' : Nat} (h : IsLowest rank xs k i)
    (h' : IsLowest rank xs k' i') : k = k' ∧ i = i' := by
  rcases h.lowest k' i' h'.ranked with hk | ⟨hk, hi⟩ <;>
    rcases h'.lowest k i h.ranked with hk' | ⟨hk', hi'⟩ <;> omega

theorem IsLowest.tail {x : α} {xs : List α} {k i : Nat} (h : IsLowest rank xs k i)
    (hx : ∀ k', pairRank rank (x :: xs) 0 = some k' → k < k') :
    IsLowest rank (x :: xs) k (i + 1) := by
  refine ⟨by rw [pairRank_succ]; exact h.ranked, fun k' i' hk' => ?_⟩
  cases i' with
  | zero => exact Or.inl (hx k' hk')
  | succ i' =>
    rw [pairRank_succ] at hk'
    rcases h.lowest k' i' hk' with hlt | ⟨rfl, hle⟩
    · exact Or.inl hlt
    · exact Or.inr ⟨rfl, Nat.succ_le_succ hle⟩

theorem IsLowest.head {x : α} {xs : List α} {k : Nat}
    (hx : pairRank rank (x :: xs) 0 = some k)
    (h : ∀ k' i', pairRank rank xs i' = some k' → k ≤ k') : IsLowest rank (x :: xs) k 0 := by
  refine ⟨hx, fun k' i' hk' => ?_⟩
  cases i' with
  | zero =>
    rw [hx] at hk'
    exact Or.inr ⟨Option.some.inj hk', Nat.le_refl 0⟩
  | succ i' =>
    rw [pairRank_succ] at hk'
    rcases Nat.lt_or_eq_of_le (h k' i' hk') with hlt | heq
    · exact Or.inl hlt
    · exact Or.inr ⟨heq, Nat.zero_le _⟩

theorem lowestPair_spec (xs : List α) :
    (∃ k i, lowestPair rank xs = some (k, i) ∧ IsLowest rank xs k i) ∨
    (lowestPair rank xs = none ∧ ∀ i, pairRank rank xs i = none) := by
  induction xs with
  | nil => exact Or.inr ⟨rfl, fun _ => rfl⟩
  | cons x xs ih =>
    cases xs with
    | nil => exact Or.inr ⟨rfl, fun i => pairRank_singleton rank x i⟩
    | cons y xs =>
      cases hr : rank x y with
      | none =>
        rcases ih with ⟨k, i, he, hi⟩ | ⟨he, hnone⟩
        · exact Or.inl ⟨k, i + 1, by simp only [lowestPair, hr, he], hi.tail (by simp [hr])⟩
        · refine Or.inr ⟨by simp only [lowestPair, hr, he], fun i => ?_⟩
          cases i with
          | zero => exact hr
          | succ i =>
            rw [pairRank_succ]
            exact hnone i
      | some k₀ =>
        rcases ih with ⟨k, i, he, hi⟩ | ⟨he, hnone⟩
        · by_cases hle : k₀ ≤ k
          · refine Or.inl ⟨k₀, 0, by simp only [lowestPair, hr, he, hle, if_true],
              IsLowest.head hr fun k' i' hk' => ?_⟩
            rcases hi.lowest k' i' hk' with hlt | ⟨rfl, -⟩
            · exact Nat.le_trans hle (Nat.le_of_lt hlt)
            · exact hle
          · refine Or.inl ⟨k, i + 1, by simp only [lowestPair, hr, he, hle, if_false],
              hi.tail fun k' hk' => ?_⟩
            rw [pairRank_zero, hr] at hk'
            have := Option.some.inj hk'
            omega
        · exact Or.inl ⟨k₀, 0, by simp only [lowestPair, hr, he],
            IsLowest.head hr (by simp [hnone])⟩

theorem isLowest_of_eq {xs : List α} {k i : Nat} (h : lowestPair rank xs = some (k, i)) :
    IsLowest rank xs k i := by
  rcases lowestPair_spec xs with ⟨k', i', he, hi⟩ | ⟨he, -⟩
  · rw [he] at h
    cases h
    exact hi
  · rw [he] at h
    cases h

theorem lowestPair_eq_some {xs : List α} {k i : Nat} :
    lowestPair rank xs = some (k, i) ↔ IsLowest rank xs k i := by
  refine ⟨isLowest_of_eq, fun h => ?_⟩
  rcases lowestPair_spec xs with ⟨k', i', he, hi⟩ | ⟨-, hnone⟩
  · obtain ⟨rfl, rfl⟩ := h.unique hi
    exact he
  · have := h.ranked
    rw [hnone] at this
    cases this

theorem lowestPair_eq_none {xs : List α} :
    lowestPair rank xs = none ↔ ∀ i, pairRank rank xs i = none := by
  rcases lowestPair_spec xs with ⟨k, i, he, hi⟩ | ⟨he, hnone⟩
  · rw [he]
    refine ⟨nofun, fun h => ?_⟩
    have := hi.ranked
    rw [h] at this
    cases this
  · exact ⟨fun _ => hnone, fun _ => he⟩

variable (rank join)

/-- Merges the lowest pair until no pair has a rank. -/
def mergeAll (xs : List α) : List α :=
  match _h : lowestPair rank xs with
  | none => xs
  | some (_, i) => mergeAll (mergeAt join xs i)
termination_by xs.length
decreasing_by
  have := mergeAt_length join (isLowest_of_eq _h).ranked
  omega

variable {rank join}

theorem mergeAll_of_lowest {xs : List α} {k i : Nat} (h : IsLowest rank xs k i) :
    mergeAll rank join xs = mergeAll rank join (mergeAt join xs i) := by
  have he := lowestPair_eq_some.mpr h
  rw [mergeAll]
  split
  · rename_i hnone
    rw [hnone] at he
    cases he
  · rename_i hsome
    rw [hsome] at he
    cases he
    rfl

theorem mergeAll_of_none {xs : List α} (h : ∀ i, pairRank rank xs i = none) :
    mergeAll rank join xs = xs := by
  have he := lowestPair_eq_none.mpr h
  rw [mergeAll]
  split
  · rfl
  · rename_i hsome
    rw [hsome] at he
    cases he

end Foundation.PairMerging
