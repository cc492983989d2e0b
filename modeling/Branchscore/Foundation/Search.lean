import Mathlib

/-!
# First occurrence of a pattern in a list

`find?` is the usual substring search: the least index at which the pattern is a
prefix of what is left. The lemmas describe how occurrences behave under append,
which is what a scanner over a concatenated text needs.
-/

namespace Foundation.Search

set_option autoImplicit false

universe u
variable {α : Type u}

/-- The pattern stands in the text at index `i`. -/
def OccursAt (pattern text : List α) (i : Nat) : Prop := pattern <+: text.drop i

/-- The pattern stands somewhere in the text. -/
def Occurs (pattern text : List α) : Prop := ∃ i, i ≤ text.length ∧ OccursAt pattern text i

theorem occursAt_zero {pattern text : List α} : OccursAt pattern text 0 ↔ pattern <+: text := by
  simp [OccursAt]

@[simp] theorem occursAt_cons_succ {pattern text : List α} {a : α} {i : Nat} :
    OccursAt pattern (a :: text) (i + 1) ↔ OccursAt pattern text i := by
  simp [OccursAt]

theorem OccursAt.end_le {pattern text : List α} {i : Nat} (hi : i ≤ text.length)
    (h : OccursAt pattern text i) : i + pattern.length ≤ text.length := by
  have hl := List.IsPrefix.length_le h
  rw [List.length_drop] at hl
  omega

/-- An occurrence that ends inside the first part is an occurrence there. -/
theorem occursAt_append_left {pattern a b : List α} {i : Nat}
    (hi : i + pattern.length ≤ a.length) :
    OccursAt pattern (a ++ b) i ↔ OccursAt pattern a i := by
  have hd : (a ++ b).drop i = a.drop i ++ b := List.drop_append_of_le_length (by omega)
  constructor
  · intro h
    rw [OccursAt, hd] at h
    exact List.prefix_of_prefix_length_le h (List.prefix_append _ _)
      (by rw [List.length_drop]; omega)
  · intro h
    rw [OccursAt, hd]
    exact h.trans (List.prefix_append _ _)

theorem occursAt_append_right {pattern a b : List α} (i : Nat) :
    OccursAt pattern (a ++ b) (a.length + i) ↔ OccursAt pattern b i := by
  rw [OccursAt, List.drop_length_add_append, OccursAt]

section Find
variable [DecidableEq α]

instance (pattern text : List α) (i : Nat) : Decidable (OccursAt pattern text i) :=
  inferInstanceAs (Decidable (pattern <+: text.drop i))

def find? (pattern : List α) : List α → Option Nat
  | [] => if pattern <+: [] then some 0 else none
  | a :: text => if pattern <+: a :: text then some 0 else (find? pattern text).map (· + 1)

theorem find?_eq_some {pattern text : List α} {i : Nat} : find? pattern text = some i ↔
    i ≤ text.length ∧ OccursAt pattern text i ∧ ∀ j < i, ¬ OccursAt pattern text j := by
  induction text generalizing i with
  | nil =>
    simp only [find?, List.length_nil, Nat.le_zero]
    split
    · rename_i h
      constructor
      · rintro ⟨⟩
        exact ⟨rfl, occursAt_zero.mpr h, by simp⟩
      · rintro ⟨rfl, _⟩
        rfl
    · rename_i h
      constructor
      · simp
      · rintro ⟨rfl, hi, _⟩
        exact absurd (occursAt_zero.mp hi) h
  | cons a text ih =>
    simp only [find?]
    split
    · rename_i h
      constructor
      · rintro ⟨⟩
        exact ⟨Nat.zero_le _, occursAt_zero.mpr h, by simp⟩
      · rintro ⟨_, _, hmin⟩
        cases i with
        | zero => rfl
        | succ i => exact absurd (occursAt_zero.mpr h) (hmin 0 (Nat.succ_pos i))
    · rename_i h
      have h0 : ¬ OccursAt pattern (a :: text) 0 := fun hc => h (occursAt_zero.mp hc)
      cases i with
      | zero => simp [h0]
      | succ i =>
        simp only [Option.map_eq_some_iff, Nat.add_right_cancel_iff, exists_eq_right, ih,
          List.length_cons, Nat.add_le_add_iff_right, occursAt_cons_succ]
        constructor
        · rintro ⟨hi, ho, hmin⟩
          refine ⟨hi, ho, ?_⟩
          intro j hj
          cases j with
          | zero => exact h0
          | succ j => simpa using hmin j (by omega)
        · rintro ⟨hi, ho, hmin⟩
          exact ⟨hi, ho, fun j hj => by simpa using hmin (j + 1) (by omega)⟩

theorem find?_eq_none {pattern text : List α} : find? pattern text = none ↔
    ∀ i ≤ text.length, ¬ OccursAt pattern text i := by
  induction text with
  | nil => simp [find?, OccursAt]
  | cons a text ih =>
    simp only [find?]
    split
    · rename_i h
      simp only [reduceCtorEq, false_iff, not_forall, not_not]
      exact ⟨0, Nat.zero_le _, occursAt_zero.mpr h⟩
    · rename_i h
      rw [Option.map_eq_none_iff, ih]
      constructor
      · intro hn i hi
        cases i with
        | zero => exact fun hc => h (occursAt_zero.mp hc)
        | succ i => simpa using hn i (by simpa using hi)
      · intro hn i hi
        simpa using hn (i + 1) (by simpa using hi)

theorem find?_eq_none_iff_not_occurs {pattern text : List α} :
    find? pattern text = none ↔ ¬ Occurs pattern text := by
  simp [find?_eq_none, Occurs]

theorem find?_length_le {pattern text : List α} {i : Nat} (h : find? pattern text = some i) :
    i + pattern.length ≤ text.length :=
  have hs := find?_eq_some.mp h
  hs.2.1.end_le hs.1

@[simp] theorem find?_nil_pattern (text : List α) : find? [] text = some 0 := by
  cases text <;> simp [find?]

theorem find?_self_append (pattern text : List α) : find? pattern (pattern ++ text) = some 0 :=
  find?_eq_some.mpr ⟨Nat.zero_le _, occursAt_zero.mpr (List.prefix_append _ _), by simp⟩

/-- What is found in the first part is found first in the whole. -/
theorem find?_append_of_some {pattern a : List α} {i : Nat} (h : find? pattern a = some i)
    (b : List α) : find? pattern (a ++ b) = some i := by
  have hl := find?_length_le h
  obtain ⟨hi, ho, hmin⟩ := find?_eq_some.mp h
  refine find?_eq_some.mpr ⟨?_, (occursAt_append_left hl).mpr ho, ?_⟩
  · rw [List.length_append]; omega
  · intro j hj hc
    exact hmin j hj ((occursAt_append_left (by omega)).mp hc)

/-- A pattern absent from the first part that never straddles the boundary is
searched for in the second part. -/
theorem find?_append_of_none {pattern a b : List α} (h : find? pattern a = none)
    (hs : ∀ i < a.length, OccursAt pattern (a ++ b) i → i + pattern.length ≤ a.length) :
    find? pattern (a ++ b) = (find? pattern b).map (a.length + ·) := by
  have hn : ∀ i < a.length, ¬ OccursAt pattern (a ++ b) i := fun i hi hc =>
    find?_eq_none.mp h i (by omega) ((occursAt_append_left (hs i hi hc)).mp hc)
  cases hb : find? pattern b with
  | none =>
    refine find?_eq_none.mpr ?_
    intro i hi hc
    by_cases hia : i < a.length
    · exact hn i hia hc
    · obtain ⟨j, rfl⟩ := Nat.exists_eq_add_of_le (Nat.le_of_not_lt hia)
      rw [List.length_append] at hi
      exact find?_eq_none.mp hb j (by omega) ((occursAt_append_right j).mp hc)
  | some j =>
    obtain ⟨hj, ho, hmin⟩ := find?_eq_some.mp hb
    simp only [Option.map_some]
    refine find?_eq_some.mpr ⟨?_, (occursAt_append_right j).mpr ho, ?_⟩
    · rw [List.length_append]; omega
    · intro k hk hc
      by_cases hka : k < a.length
      · exact hn k hka hc
      · obtain ⟨l, rfl⟩ := Nat.exists_eq_add_of_le (Nat.le_of_not_lt hka)
        exact hmin l (by omega) ((occursAt_append_right l).mp hc)

end Find

end Foundation.Search
