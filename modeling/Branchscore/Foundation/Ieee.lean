import Mathlib

/-!
# IEEE values and the first largest element

A floating-point value is an exact number, an infinity or NaN; comparisons with NaN
are false. `maxElement` is one scan from the left that moves on only for a strictly
larger element.
-/

namespace Foundation

set_option autoImplicit false

inductive Ieee (R : Type) where
  | finite (value : R)
  | nan
  | posInf
  | negInf
  deriving DecidableEq, Repr

namespace Ieee
variable {R : Type}

def isFinite : Ieee R → Bool
  | .finite _ => true
  | _ => false

theorem isFinite_iff {x : Ieee R} : x.isFinite ↔ ∃ value, x = .finite value := by
  cases x <;> simp [isFinite]

def lt [LT R] [DecidableRel (α := R) (· < ·)] : Ieee R → Ieee R → Bool
  | .finite a, .finite b => a < b
  | .finite _, .posInf | .negInf, .finite _ | .negInf, .posInf => true
  | _, _ => false

def eq [DecidableEq R] : Ieee R → Ieee R → Bool
  | .finite a, .finite b => a = b
  | .posInf, .posInf | .negInf, .negInf => true
  | _, _ => false

theorem exists_map_finite {xs : List (Ieee R)} (h : ∀ x ∈ xs, x.isFinite) :
    ∃ values : List R, xs = values.map .finite := by
  induction xs with
  | nil => exact ⟨[], rfl⟩
  | cons x xs ih =>
    obtain ⟨value, rfl⟩ := isFinite_iff.mp (h x List.mem_cons_self)
    obtain ⟨values, rfl⟩ := ih fun y hy => h y (List.mem_cons_of_mem _ hy)
    exact ⟨value :: values, rfl⟩

end Ieee

/-! ## The first largest element -/

section MaxElement
variable {α β : Type}

/-- The scan of `std::max_element`; the numbers are positions. -/
def maxElementFrom (less : α → α → Bool) (largest : α × Nat) : Nat → List α → α × Nat
  | _, [] => largest
  | index, x :: xs =>
    maxElementFrom less (if less largest.1 x then (x, index) else largest) (index + 1) xs

def maxElement (less : α → α → Bool) : List α → Option (α × Nat)
  | [] => none
  | x :: xs => some (maxElementFrom less (x, 0) 1 xs)

theorem maxElementFrom_map {f : α → β} {less : α → α → Bool} {less' : β → β → Bool}
    (h : ∀ a b, less' (f a) (f b) = less a b) (xs : List α) (largest : α) (best index : Nat) :
    maxElementFrom less' (f largest, best) index (xs.map f) =
      (maxElementFrom less (largest, best) index xs).map f id := by
  induction xs generalizing largest best index with
  | nil => rfl
  | cons x xs ih =>
    rw [List.map_cons, maxElementFrom, maxElementFrom, h]
    cases less largest x
    · exact ih largest best (index + 1)
    · exact ih x index (index + 1)

theorem maxElement_map {f : α → β} {less : α → α → Bool} {less' : β → β → Bool}
    (h : ∀ a b, less' (f a) (f b) = less a b) (xs : List α) :
    maxElement less' (xs.map f) = (maxElement less xs).map (Prod.map f id) := by
  cases xs with
  | nil => rfl
  | cons x xs => exact congrArg some (maxElementFrom_map h xs x 0 1)

variable [LinearOrder α]

/-- `index` is the least position of a maximal element of `xs`, which is `x`. -/
structure FirstMax (xs : List α) (x : α) (index : Nat) : Prop where
  at_index : xs[index]? = some x
  maximal : ∀ y ∈ xs, y ≤ x
  first : ∀ j < index, ∀ y, xs[j]? = some y → y < x

theorem FirstMax.scan {seen rest : List α} {largest : α} {best : Nat}
    (h : FirstMax seen largest best) :
    FirstMax (seen ++ rest)
      (maxElementFrom (fun a b => decide (a < b)) (largest, best) seen.length rest).1
      (maxElementFrom (fun a b => decide (a < b)) (largest, best) seen.length rest).2 := by
  induction rest generalizing seen largest best with
  | nil =>
    rw [List.append_nil]
    exact h
  | cons x rest ih =>
    have hbest : best < seen.length := (List.getElem?_eq_some_iff.mp h.at_index).1
    have hlast : (seen ++ [x])[seen.length]? = some x := by simp
    have hseen {j : Nat} (hj : j < seen.length) : (seen ++ [x])[j]? = seen[j]? :=
      List.getElem?_append_left hj
    rw [List.append_cons, maxElementFrom]
    have hlength : seen.length + 1 = (seen ++ [x]).length := by simp
    rw [hlength]
    by_cases hlt : largest < x
    · rw [if_pos (decide_eq_true hlt)]
      refine ih ⟨hlast, ?_, ?_⟩
      · intro y hy
        rcases List.mem_append.mp hy with hy | hy
        · exact (h.maximal y hy).trans hlt.le
        · exact (List.mem_singleton.mp hy).le
      · intro j hj y hy
        rw [hseen hj] at hy
        exact (h.maximal y (List.mem_of_getElem? hy)).trans_lt hlt
    · rw [if_neg (by simpa using hlt)]
      refine ih ⟨(hseen hbest).trans h.at_index, ?_, ?_⟩
      · intro y hy
        rcases List.mem_append.mp hy with hy | hy
        · exact h.maximal y hy
        · exact (List.mem_singleton.mp hy).le.trans (not_lt.mp hlt)
      · intro j hj y hy
        exact h.first j hj y ((hseen (hj.trans hbest)).symm.trans hy)

theorem FirstMax.index_eq {xs : List α} {x y : α} {i j : Nat} (hx : FirstMax xs x i)
    (hy : FirstMax xs y j) : i = j := by
  have hxy : x ≤ y := hy.maximal x (List.mem_of_getElem? hx.at_index)
  have hyx : y ≤ x := hx.maximal y (List.mem_of_getElem? hy.at_index)
  rcases Nat.lt_trichotomy i j with hlt | heq | hgt
  · exact absurd (hy.first i hlt x hx.at_index) (not_lt.mpr hyx)
  · exact heq
  · exact absurd (hx.first j hgt y hy.at_index) (not_lt.mpr hxy)

theorem FirstMax.eq_of_perm {xs ys : List α} {x y : α} {i j : Nat} (hx : FirstMax xs x i)
    (hy : FirstMax ys y j) (hperm : ys.Perm xs) : y = x :=
  le_antisymm (hx.maximal y (hperm.mem_iff.mp (List.mem_of_getElem? hy.at_index)))
    (hy.maximal x (hperm.mem_iff.mpr (List.mem_of_getElem? hx.at_index)))

theorem firstMax_maxElement {xs : List α} {x : α} {index : Nat}
    (h : maxElement (fun a b => decide (a < b)) xs = some (x, index)) :
    FirstMax xs x index := by
  cases xs with
  | nil => cases h
  | cons y xs =>
    have hstart : FirstMax [y] y 0 := by
      refine ⟨rfl, fun z hz => (List.mem_singleton.mp hz).le, fun j hj => ?_⟩
      exact absurd hj (Nat.not_lt_zero j)
    have hmax : FirstMax ([y] ++ xs) _ _ := hstart.scan
    have heq : maxElementFrom (fun a b => decide (a < b)) (y, 0) 1 xs = (x, index) :=
      Option.some.inj h
    rw [List.length_singleton, heq] at hmax
    exact hmax

end MaxElement

end Foundation
