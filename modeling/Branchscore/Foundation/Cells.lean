import Branchscore.Foundation.Outcome

/-!
# Arrays with checked subscripts

`loadCell` and `storeCell` fail outside the array, `assignCell` also at a cell that is already
assigned. `Filled` is the state of an array whose cells are assigned in the order of
their subscripts.
-/

namespace Foundation

open Outcome
set_option autoImplicit false

variable {ε α : Type}

def loadCell (fault : ε) (cells : List α) (index : Int) : Except ε α :=
  if index < 0 then .error fault
  else match cells[index.toNat]? with
    | some value => .ok value
    | none => .error fault

def storeCell (fault : ε) (cells : List α) (index : Int) (value : α) : Except ε (List α) :=
  if 0 ≤ index ∧ index < cells.length then .ok (cells.set index.toNat value) else .error fault

/-- A write to a cell that must not have been written before. -/
def assignCell (fault rewritten : ε) (cells : List (Option α)) (index : Int) (value : α) :
    Except ε (List (Option α)) := do
  match ← loadCell fault cells index with
  | some _ => .error rewritten
  | none => storeCell fault cells index (some value)

/-- The array when every cell must have been assigned. -/
def freeze (unassigned : ε) (cells : List (Option α)) : Except ε (List α) :=
  cells.mapM fun cell => match cell with
    | some value => .ok value
    | none => .error unassigned

theorem loadCell_natCast (fault : ε) {cells : List α} {i : Nat} {value : α}
    (h : cells[i]? = some value) : loadCell fault cells i = .ok value := by
  rw [loadCell, if_neg (by omega), Int.toNat_natCast, h]

theorem storeCell_natCast (fault : ε) {cells : List α} {i : Nat} (h : i < cells.length)
    (value : α) : storeCell fault cells i value = .ok (cells.set i value) := by
  rw [storeCell, if_pos ⟨by omega, by exact_mod_cast h⟩, Int.toNat_natCast]

/-- The first `count` values of `target` are assigned, and nothing else is. -/
def filled (target : List α) (count : Nat) : List (Option α) :=
  (target.take count).map some ++ List.replicate (target.length - count) none

theorem filled_zero (target : List α) : filled target 0 = List.replicate target.length none := by
  simp [filled]

theorem assignCell_filled {fault rewritten : ε} {target : List α} {i : Nat} {value : α}
    (h : target[i]? = some value) :
    assignCell fault rewritten (filled target i) i value = .ok (filled target (i + 1)) := by
  obtain ⟨hi, hvalue⟩ := List.getElem?_eq_some_iff.mp h
  have hpre : ((target.take i).map some).length = i := by
    rw [List.length_map, List.length_take]
    omega
  have hrest : List.replicate (target.length - i) (none : Option α) =
      none :: List.replicate (target.length - (i + 1)) none := by
    rw [← List.replicate_succ]
    congr 1
    omega
  have hcell : (filled target i)[i]? = some none := by
    rw [filled, List.getElem?_append_right (by omega), hpre, hrest]
    simp
  have hlength : i < (filled target i).length := (List.getElem?_eq_some_iff.mp hcell).1
  rw [assignCell, loadCell_natCast fault hcell, ok_bind]
  dsimp only
  rw [storeCell_natCast fault hlength, filled, List.set_append_right _ _ (by omega), hpre, hrest]
  simp only [Nat.sub_self, List.set_cons_zero]
  rw [filled, List.take_add_one, h, List.map_append, List.append_assoc]
  rfl

theorem freeze_filled (unassigned : ε) (target : List α) :
    freeze unassigned (filled target target.length) = .ok target := by
  rw [filled, List.take_length, Nat.sub_self, List.replicate_zero, List.append_nil, freeze,
    mapM_eq_ok, List.forall₂_map_left_iff, List.forall₂_same]
  exact fun _ _ => rfl

/-! ## A block of an array -/

/-- `values` in place of the cells from `base` on. -/
def overwrite (cells : List α) (base : Nat) (values : List α) : List α :=
  cells.take base ++ (values ++ cells.drop (base + values.length))

section Overwrite
variable {cells values : List α} {base : Nat}

theorem overwrite_nil : overwrite cells base [] = cells := List.take_append_drop base cells

theorem mem_overwrite {x : α} (h : x ∈ overwrite cells base values) : x ∈ cells ∨ x ∈ values := by
  simp only [overwrite, List.mem_append] at h
  rcases h with h | h | h
  · exact Or.inl (List.mem_of_mem_take h)
  · exact Or.inr h
  · exact Or.inl (List.mem_of_mem_drop h)

theorem getElem?_overwrite_of_lt {i : Nat} (h : i < base) (hbase : base ≤ cells.length) :
    (overwrite cells base values)[i]? = cells[i]? := by
  rw [overwrite, List.getElem?_append_left (by rw [List.length_take]; omega),
    List.getElem?_take_of_lt h]

variable (hfits : base + values.length ≤ cells.length)
include hfits

theorem length_overwrite : (overwrite cells base values).length = cells.length := by
  simp only [overwrite, List.length_append, List.length_take, List.length_drop]
  omega

theorem getElem?_overwrite_add (i : Nat) (hi : i < values.length) :
    (overwrite cells base values)[base + i]? = values[i]? := by
  have hpre : (cells.take base).length = base := by
    rw [List.length_take]
    omega
  rw [overwrite, List.getElem?_append_right (by omega), hpre, Nat.add_sub_cancel_left,
    List.getElem?_append_left hi]

theorem getElem?_overwrite_of_ge {i : Nat} (h : base + values.length ≤ i) :
    (overwrite cells base values)[i]? = cells[i]? := by
  have hpre : (cells.take base).length = base := by
    rw [List.length_take]
    omega
  rw [overwrite, List.getElem?_append_right (by omega), hpre,
    List.getElem?_append_right (by omega), List.getElem?_drop]
  congr 1
  omega

theorem overwrite_overwrite {others : List α} (h : others.length = values.length) :
    overwrite (overwrite cells base values) base others = overwrite cells base others := by
  have hpre : (cells.take base).length = base := by
    rw [List.length_take]
    omega
  have htake : (overwrite cells base values).take base = cells.take base := by
    rw [overwrite, List.take_append_of_le_length (by omega), List.take_take, Nat.min_self]
  have hdrop : (overwrite cells base values).drop (base + others.length) =
      cells.drop (base + others.length) := by
    rw [h, overwrite, List.drop_append, hpre, Nat.add_sub_cancel_left,
      List.drop_of_length_le (by omega), List.nil_append, List.drop_left]
  rw [overwrite, htake, hdrop, overwrite]

theorem storeCell_overwrite {i : Nat} {value : α} (h : values[i]? = some value) (fault : ε) :
    storeCell fault (overwrite cells base (values.take i)) ((base + i : Nat) : Int) value =
      .ok (overwrite cells base (values.take (i + 1))) := by
  obtain ⟨hi, -⟩ := List.getElem?_eq_some_iff.mp h
  have htake : (values.take i).length = i := by
    rw [List.length_take]
    omega
  have htake' : (values.take (i + 1)).length = i + 1 := by
    rw [List.length_take]
    omega
  have hpre : (cells.take base).length = base := by
    rw [List.length_take]
    omega
  have hlength : (overwrite cells base (values.take i)).length = cells.length :=
    length_overwrite (by omega)
  rw [storeCell_natCast fault (by omega), overwrite, overwrite, htake, htake',
    List.set_append_right _ _ (by omega), hpre, Nat.add_sub_cancel_left,
    List.set_append_right _ _ (by omega), htake, Nat.sub_self,
    List.drop_eq_getElem_cons (by omega), List.set_cons_zero, List.take_add_one, h]
  simp [Nat.add_assoc]

end Overwrite

/-! ## Loops -/

theorem ends_false_iff {Q : α → Prop} {x : Except ε α} :
    Ends (fun _ => False) Q x ↔ ∃ a, x = .ok a ∧ Q a := by
  cases x <;> simp [Ends]

/-- A loop whose steps cannot fail ends in the state that its invariant gives. -/
theorem foldlM_range_ok {β : Type} {I : Nat → β → Prop} {f : β → Nat → Except ε β} {b : β}
    {n : Nat} (h0 : I 0 b)
    (hstep : ∀ i < n, ∀ b, I i b → ∃ b', f b i = .ok b' ∧ I (i + 1) b') :
    ∃ b', (List.range n).foldlM f b = .ok b' ∧ I n b' :=
  ends_false_iff.mp (Ends.foldlM_range h0 fun i hi b hb => ends_false_iff.mpr (hstep i hi b hb))

/-- A loop that takes the state from `state i` to `state (i + 1)`. -/
theorem foldlM_range_eq {β : Type} {f : β → Nat → Except ε β} (state : Nat → β) {n : Nat}
    (hstep : ∀ i < n, f (state i) i = .ok (state (i + 1))) :
    (List.range n).foldlM f (state 0) = .ok (state n) := by
  obtain ⟨b, hrun, rfl⟩ := foldlM_range_ok (I := fun i b => b = state i) rfl fun i hi b hb => by
    subst hb
    exact ⟨_, hstep i hi, rfl⟩
  exact hrun

end Foundation
