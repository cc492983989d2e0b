import Branchscore.Foundation.LongestMatch

/-!
# Isolated occurrences

A pattern that no other pattern overlaps where it stands is matched there, whatever
surrounds it: the text before it and the text behind it are segmented on their own.
-/

namespace Foundation.Scan

open Search
set_option autoImplicit false

universe u v
variable {α : Type u} {P : Type v} (text : P → List α) (patterns : List P)

/-- An occurrence of a pattern that overlaps `marker` between `a` and `b` is `marker`. -/
def Isolated (a marker b : List α) : Prop :=
  ∀ q ∈ patterns, ∀ i ≤ (a ++ (marker ++ b)).length, OccursAt (text q) (a ++ (marker ++ b)) i →
    i < a.length + marker.length → a.length < i + (text q).length →
    i = a.length ∧ text q = marker

variable {text patterns} {a marker b : List α}

/-- Patterns are nonempty when a marker of two elements or more is isolated. -/
theorem Isolated.nonempty (h : Isolated text patterns a marker b) (hmarker : 2 ≤ marker.length)
    {q : P} (hq : q ∈ patterns) : text q ≠ [] := by
  intro hempty
  have hlength : (a ++ (marker ++ b)).length = a.length + (marker.length + b.length) := by
    simp only [List.length_append]
  have hoccurs : OccursAt (text q) (a ++ (marker ++ b)) (a.length + 1) := by
    rw [OccursAt, hempty]
    exact List.nil_prefix
  have hat := (h q hq (a.length + 1) (by omega) hoccurs (by omega) (by rw [hempty]; simp)).1
  omega

theorem Isolated.unstraddled (h : Isolated text patterns a marker b) :
    Segments.Unstraddled text patterns a (marker ++ b) := by
  intro q hq i hi hoccurs
  by_contra hover
  have hat := (h q hq i (by rw [List.length_append]; omega) hoccurs (by omega) (by omega)).1
  omega

variable [DecidableEq α] {p : P}

/-- The marker is matched where it stands. -/
theorem Isolated.earliest (h : Isolated text patterns a (text p) b) (hp : p ∈ patterns)
    (hne : text p ≠ []) (hfirst : LongestFirst text patterns) :
    earliest text patterns (text p ++ b) = some (0, p) := by
  rw [earliest_eq_some_iff hfirst]
  refine ⟨hp, Nat.zero_le _, List.prefix_append _ _, fun q hq j hj hoccurs => ?_⟩
  rcases Nat.eq_zero_or_pos j with rfl | hpos
  · refine Or.inr ⟨rfl, ?_⟩
    by_cases hq' : text q = []
    · rw [hq']
      exact Nat.zero_le _
    · have hpos := List.length_pos_of_ne_nil hne
      have hpos' := List.length_pos_of_ne_nil hq'
      have hoccurs' : OccursAt (text q) (a ++ (text p ++ b)) a.length := by
        rw [OccursAt, List.drop_left]
        exact hoccurs
      have hat := h q hq a.length (by rw [List.length_append]; omega) hoccurs' (by omega) (by omega)
      rw [hat.2]
  · exact Or.inl hpos

namespace Segments

/-- An isolated marker cuts the segmentation in two. -/
theorem isolated {sa sb : List (Piece α P)} (h : Isolated text patterns a (text p) b)
    (hp : p ∈ patterns) (hne : ∀ q ∈ patterns, text q ≠ []) (hfirst : LongestFirst text patterns)
    (ha : Segments text patterns a sa) (hb : Segments text patterns b sb) :
    Segments text patterns (a ++ (text p ++ b)) (sa ++ .hit p :: sb) := by
  have hmatch := h.earliest hp (hne p hp) hfirst
  have hinput : text p ++ b ≠ [] := by
    intro hempty
    exact hne p hp (List.append_eq_nil_iff.mp hempty).1
  have hrest : Segments text patterns ((text p ++ b).drop (0 + (text p).length)) sb := by
    rwa [Nat.zero_add, List.drop_left]
  have hhit := Segments.hit hinput hmatch hrest
  rw [List.take_zero, lead, if_pos rfl, List.nil_append] at hhit
  exact ha.append hne hhit h.unstraddled hmatch

end Segments

/-! ## Bracketed patterns -/

/-- The first element is `l`, the last is `r`, and neither stands in between. -/
structure Bracketed (l r : α) (word : List α) : Prop where
  long : 2 ≤ word.length
  first : word[0]? = some l
  last : word[word.length - 1]? = some r
  inside : ∀ i, 0 < i → i < word.length - 1 → word[i]? ≠ some l ∧ word[i]? ≠ some r

omit [DecidableEq α] in
theorem occursAt_getElem? {pattern input : List α} {i : Nat} (h : OccursAt pattern input i) {j : Nat}
    (hj : j < pattern.length) : input[i + j]? = pattern[j]? := by
  rw [← List.getElem?_drop, List.prefix_iff_getElem?.mp h j hj, List.getElem?_eq_getElem hj]

omit [DecidableEq α] in
/-- Past its first element a bracketed word has no opening bracket, and no closing one
before its last. -/
theorem Bracketed.brackets {l r : α} (hlr : l ≠ r) {word : List α} (h : Bracketed l r word) {i : Nat}
    (hi : i < word.length) : (word[i]? = some l ↔ i = 0) ∧
      (word[i]? = some r ↔ i = word.length - 1) := by
  have hlong := h.long
  rcases Nat.eq_zero_or_pos i with rfl | hpos
  · rw [h.first, Option.some.injEq, Option.some.injEq]
    exact ⟨by simp, iff_of_false hlr (by omega)⟩
  · by_cases hlast : i = word.length - 1
    · rw [hlast, h.last, Option.some.injEq, Option.some.injEq]
      exact ⟨iff_of_false hlr.symm (by omega), by simp⟩
    · obtain ⟨hl, hr⟩ := h.inside i hpos (by omega)
      exact ⟨iff_of_false hl (by omega), iff_of_false hr hlast⟩

omit [DecidableEq α] in
/-- Among bracketed patterns every one is isolated. -/
theorem isolated_of_bracketed {l r : α} (hlr : l ≠ r) (h : ∀ q ∈ patterns, Bracketed l r (text q))
    (hmarker : Bracketed l r marker) (a b : List α) : Isolated text patterns a marker b := by
  intro q hq i hi hoccurs hstart hend
  have hword := h q hq
  have hlong := hword.long
  have hlong' := hmarker.long
  have hat : OccursAt marker (a ++ (marker ++ b)) a.length := by
    rw [OccursAt, List.drop_left]
    exact List.prefix_append _ _
  have hread {j : Nat} (hj : j < (text q).length) := occursAt_getElem? hoccurs hj
  have hread' {j : Nat} (hj : j < marker.length) := occursAt_getElem? hat hj
  -- an opening bracket of one inside the other
  have hafter : ¬i < a.length := by
    intro hlt
    have hone := hread (show a.length - i < (text q).length by omega)
    have htwo := hread' (show 0 < marker.length by omega)
    rw [Nat.add_sub_cancel' hlt.le] at hone
    rw [Nat.add_zero, hone, hmarker.first] at htwo
    have := (hword.brackets hlr (by omega)).1.mp htwo
    omega
  have hbefore : ¬a.length < i := by
    intro hlt
    have hone := hread (show 0 < (text q).length by omega)
    have htwo := hread' (show i - a.length < marker.length by omega)
    rw [Nat.add_sub_cancel' hlt.le] at htwo
    rw [Nat.add_zero, htwo, hword.first] at hone
    have := (hmarker.brackets hlr (by omega)).1.mp hone
    omega
  obtain rfl : i = a.length := by omega
  have hlength : (text q).length = marker.length := by
    by_contra hne
    rcases Nat.lt_or_gt_of_ne hne with hlt | hlt
    · have hone := hread (show (text q).length - 1 < (text q).length by omega)
      have htwo := hread' (show (text q).length - 1 < marker.length by omega)
      rw [hone, hword.last] at htwo
      have := (hmarker.brackets hlr (by omega)).2.mp htwo.symm
      omega
    · have hone := hread (show marker.length - 1 < (text q).length by omega)
      have htwo := hread' (show marker.length - 1 < marker.length by omega)
      rw [hone, hmarker.last] at htwo
      have := (hword.brackets hlr (by omega)).2.mp htwo
      omega
  refine ⟨rfl, ?_⟩
  exact (List.prefix_of_prefix_length_le hoccurs hat hlength.le).eq_of_length hlength

end Foundation.Scan
